import ScriptEngine.Operator
import ScriptEngine.Span

/-!
# Trees of expressions and statements

What a script means is kept as a tree, each node with its span.  Operands joined by operators form
one flat chain, which is worked off strictly from left to right; only a connective nests, taking all
that follows it as its right operand.
-/

namespace ScriptEngine

inductive Expr
  /-- A missing operand: in front of `!x` or `-5`, or behind a trailing `++` or `--`. -/
  | empty (span : Span)
  | literal (value : String) (span : Span)
  /-- The value of a variable. -/
  | read (name : String) (span : Span)
  | assign (name : String) (value : Expr) (span : Span)
  /-- `name++` or `name--`, which changes the variable in place. -/
  | step (name : String) (op : Operator) (span : Span)
  /-- `first op operand op operand …`, with at least one operator. -/
  | chain (first : Expr) (rest : List (Operator × Expr)) (span : Span)
  | connect (left : Expr) (op : Operator) (right : Expr) (span : Span)
  | call (name : String) (args : List Expr) (span : Span)
  | grouping (inner : Expr) (span : Span)
deriving Repr, Inhabited

namespace Expr

def span : Expr → Span
  | empty span | literal _ span | read _ span | assign _ _ span | step _ _ span
  | chain _ _ span | connect _ _ _ span | call _ _ span | grouping _ span => span

/-- The chain of `rest` behind `first`, which ends where `last` does; without operators it is
`first` itself. -/
def join (first : Expr) (rest : List (Operator × Expr)) (last : Span) : Expr :=
  match rest with
  | [] => first
  | rest => chain first rest (first.span.through last)

end Expr

/-- `name` or `name = initializer` in a declaration. -/
structure Declarator where
  name : String
  initializer : Option Expr
  span : Span
deriving Repr, Inhabited

inductive Stmt
  /-- A lone `;`, or a token that is left for the enclosing construct. -/
  | empty (span : Span)
  | expression (expr : Expr) (span : Span)
  /-- Braces group statements; they do not open a scope. -/
  | block (statements : List Stmt) (span : Span)
  | choice (condition : Expr) (thenBranch : Stmt) (elseBranch : Option Stmt) (span : Span)
  /-- `start` is carried out before the first round.  Only a declaration or an expression can be
  written there, but a tree that a host builds may have any statement. -/
  | loop (start : Option Stmt) (condition increment : Option Expr) (body : Stmt) (span : Span)
  | declare (declarators : List Declarator) (span : Span)
  | giveBack (value : Option Expr) (span : Span)
deriving Repr, Inhabited

namespace Stmt

def span : Stmt → Span
  | empty span | expression _ span | block _ span | choice _ _ _ span | loop _ _ _ _ span
  | declare _ span | giveBack _ span => span

end Stmt
end ScriptEngine
