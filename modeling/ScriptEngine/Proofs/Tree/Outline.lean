import Mathlib.Tactic.Lemma
import ScriptEngine.Tree.Script

/-!
# Outlines of trees

The outline of a tree is what remains of it if only the spans are kept: a tree of spans, in which the
parts of an expression or a statement stand in the order of the text.
-/

namespace ScriptEngine

/-- The spans of a tree, arranged as the tree is. -/
inductive Outline
  | node (span : Span) (children : List Outline)

namespace Outline

def span : Outline → Span
  | node span _ => span

/-- Every span of the outline is in `P`. -/
inductive All (P : Span → Prop) : Outline → Prop
  | node {span : Span} {children : List Outline} (here : P span)
    (inside : ∀ child ∈ children, All P child) : All P (node span children)

namespace All

variable {P : Span → Prop} {span : Span} {children : List Outline}

lemma of_forall (all : ∀ span, P span) : ∀ o : Outline, o.All P
  | .node span _ => .node (all span) fun child _ => of_forall all child

lemma mono {Q : Span → Prop} {o : Outline} (holds : o.All P) (weaker : ∀ span, P span → Q span) :
    o.All Q := by
  induction holds with
  | node here _ ih => exact .node (weaker _ here) ih

lemma here (holds : (Outline.node span children).All P) : P span := by
  cases holds with
  | node here _ => exact here

lemma inside (holds : (Outline.node span children).All P) : ∀ child ∈ children, child.All P := by
  cases holds with
  | node _ inside => exact inside

end All
end Outline

namespace Expr

mutual

/-- The spans of an expression. -/
def outline : Expr → Outline
  | empty span | literal _ span | read _ span | step _ _ span => .node span []
  | assign _ value span => .node span [value.outline]
  | chain first rest span => .node span (first.outline :: linkOutlines rest)
  | connect left _ right span => .node span [left.outline, right.outline]
  | call _ args span => .node span (outlines args)
  | grouping inner span => .node span [inner.outline]

def linkOutlines : List (Operator × Expr) → List Outline
  | [] => []
  | (_, operand) :: rest => operand.outline :: linkOutlines rest

def outlines : List Expr → List Outline
  | [] => []
  | e :: rest => e.outline :: outlines rest

end

/-- The outline of an expression that may be missing. -/
def optionOutline (e : Option Expr) : List Outline :=
  e.elim [] fun e => [e.outline]

@[simp] lemma span_outline (e : Expr) : e.outline.span = e.span := by
  cases e <;> rfl

lemma linkOutlines_append (xs ys : List (Operator × Expr)) :
    linkOutlines (xs ++ ys) = linkOutlines xs ++ linkOutlines ys := by
  induction xs with
  | nil => rfl
  | cons link xs ih => rw [List.cons_append, linkOutlines, linkOutlines, ih, List.cons_append]

lemma outlines_append (xs ys : List Expr) : outlines (xs ++ ys) = outlines xs ++ outlines ys := by
  induction xs with
  | nil => rfl
  | cons e xs ih => rw [List.cons_append, outlines, outlines, ih, List.cons_append]

end Expr

/-- The spans of a declarator. -/
def Declarator.outline (d : Declarator) : Outline :=
  .node d.span (Expr.optionOutline d.initializer)

@[simp] lemma Declarator.span_outline (d : Declarator) : d.outline.span = d.span := rfl

namespace Stmt

mutual

/-- The spans of a statement. -/
def outline : Stmt → Outline
  | empty span => .node span []
  | expression expr span => .node span [expr.outline]
  | block statements span => .node span (outlines statements)
  | choice condition thenBranch elseBranch span =>
    .node span (condition.outline :: thenBranch.outline :: branchOutline elseBranch)
  | loop start condition increment body span =>
    .node span (branchOutline start ++ (Expr.optionOutline condition ++
      (Expr.optionOutline increment ++ [body.outline])))
  | declare declarators span => .node span (declarators.map Declarator.outline)
  | giveBack value span => .node span (Expr.optionOutline value)

/-- The outline of a statement that may be missing. -/
def branchOutline : Option Stmt → List Outline
  | none => []
  | some other => [other.outline]

def outlines : List Stmt → List Outline
  | [] => []
  | s :: rest => s.outline :: outlines rest

end

@[simp] lemma span_outline (s : Stmt) : s.outline.span = s.span := by
  cases s <;> rfl

lemma outlines_append (xs ys : List Stmt) : outlines (xs ++ ys) = outlines xs ++ outlines ys := by
  induction xs with
  | nil => rfl
  | cons s xs ih => rw [List.cons_append, outlines, outlines, ih, List.cons_append]

end Stmt

end ScriptEngine
