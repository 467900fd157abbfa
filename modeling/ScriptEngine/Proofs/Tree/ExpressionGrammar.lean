import ScriptEngine.Proofs.Token.Word
import ScriptEngine.Proofs.Tree.Spans

/-!
# The grammar of expressions

An expression is a chain of operands and operators, or such a chain, a connective and another
expression.  `Expr.WellFormed` says which trees that is, `Expr.words` lists the tokens of a tree in
the order in which they stand in a script, and `Expr.depth` counts how many expressions lie inside
one another.
-/

namespace ScriptEngine

/-- A token of this kind may be part of an expression. -/
def TokenKind.isExpressive : TokenKind → Bool
  | leftParen | rightParen | comma | assign | operator _ | name | callName | literal => true
  | _ => false

lemma TokenKind.ne_endOfInput {kind : TokenKind} (h : kind.isExpressive) :
    kind ≠ .endOfInput := by
  rintro rfl
  cases h

lemma TokenKind.ne_keyword {kind : TokenKind} (h : kind.isExpressive) (word : Keyword) :
    kind ≠ .keyword word := by
  rintro rfl
  cases h

namespace Expr

/-! ## Tokens of a tree -/

mutual

/-- The words of an expression, in order. -/
def words : Expr → List Word
  | empty _ => []
  | literal value _ => [⟨.literal, value⟩]
  | read name _ => [⟨.name, name⟩]
  | assign name value _ => ⟨.name, name⟩ :: .symbol .assign :: words value
  | step name op _ => [⟨.name, name⟩, .symbol (.operator op)]
  | chain first rest _ => words first ++ linkWords rest
  | connect left op right _ => words left ++ .symbol (.operator op) :: words right
  | call name args _ =>
    ⟨.callName, name⟩ :: .symbol .leftParen :: (argumentWords args ++ [.symbol .rightParen])
  | grouping inner _ => .symbol .leftParen :: (words inner ++ [.symbol .rightParen])

/-- The words of the operators and operands behind the first operand of a chain. -/
def linkWords : List (Operator × Expr) → List Word
  | [] => []
  | (op, operand) :: rest => .symbol (.operator op) :: (words operand ++ linkWords rest)

/-- The words of the arguments of a call, with the commas between them. -/
def argumentWords : List Expr → List Word
  | [] => []
  | e :: rest => words e ++ furtherArgumentWords rest

/-- The words of the arguments behind the first, each behind its comma. -/
def furtherArgumentWords : List Expr → List Word
  | [] => []
  | e :: rest => .symbol .comma :: (words e ++ furtherArgumentWords rest)

end

mutual

/-- Neither keywords nor the ends of statements are part of an expression. -/
lemma kind_of_mem_words : (e : Expr) → ∀ word ∈ e.words, word.kind.isExpressive
  | empty _ | literal _ _ | read _ _ | step _ _ _ => by
    simp [words, Word.symbol, TokenKind.isExpressive]
  | assign _ value _ => by
    have := kind_of_mem_words value
    simpa [words, Word.symbol, TokenKind.isExpressive] using this
  | chain first rest _ => by
    have := kind_of_mem_words first
    have := kind_of_mem_linkWords rest
    simp only [words, List.mem_append]
    rintro word (h | h) <;> solve_by_elim
  | connect left op right _ => by
    have := kind_of_mem_words left
    have := kind_of_mem_words right
    simp only [words, List.mem_append, List.mem_cons]
    rintro word (h | rfl | h) <;> solve_by_elim
  | call _ args _ => by
    have := kind_of_mem_argumentWords args
    simp only [words, List.mem_append, List.mem_cons, List.not_mem_nil, or_false]
    rintro word (rfl | rfl | h | rfl) <;> solve_by_elim
  | grouping inner _ => by
    have := kind_of_mem_words inner
    simp only [words, List.mem_append, List.mem_cons, List.not_mem_nil, or_false]
    rintro word (rfl | h | rfl) <;> solve_by_elim

lemma kind_of_mem_linkWords :
    (rest : List (Operator × Expr)) → ∀ word ∈ linkWords rest, word.kind.isExpressive
  | [] => by simp [linkWords]
  | (op, operand) :: rest => by
    have := kind_of_mem_words operand
    have := kind_of_mem_linkWords rest
    simp only [linkWords, List.mem_append, List.mem_cons]
    rintro word (rfl | h | h) <;> solve_by_elim

lemma kind_of_mem_argumentWords :
    (args : List Expr) → ∀ word ∈ argumentWords args, word.kind.isExpressive
  | [] => by simp [argumentWords]
  | e :: rest => by
    have := kind_of_mem_words e
    have := kind_of_mem_furtherArgumentWords rest
    simp only [argumentWords, List.mem_append]
    rintro word (h | h) <;> solve_by_elim

lemma kind_of_mem_furtherArgumentWords :
    (args : List Expr) → ∀ word ∈ furtherArgumentWords args, word.kind.isExpressive
  | [] => by simp [furtherArgumentWords]
  | e :: rest => by
    have := kind_of_mem_words e
    have := kind_of_mem_furtherArgumentWords rest
    simp only [furtherArgumentWords, List.mem_append, List.mem_cons]
    rintro word (rfl | h | h) <;> solve_by_elim

end

/-! ## Well-formed trees -/

def isEmpty : Expr → Bool
  | empty _ => true
  | _ => false

def isOperand : Expr → Bool
  | literal _ _ | read _ _ | assign _ _ _ | step _ _ _ | call _ _ _ | grouping _ _ => true
  | empty _ | chain _ _ _ | connect _ _ _ _ => false

def isConnect : Expr → Bool
  | connect _ _ _ _ => true
  | _ => false

/-- The operator may stand directly behind the operand.  An assignment takes all that follows as its
value, and a variable takes a step that follows. -/
def mayPrecede (op : Operator) : Expr → Bool
  | assign _ _ _ => false
  | read _ _ => !op.isStep
  | _ => true

/-- The last operand of a chain that begins with `first`. -/
def lastOf (first : Expr) : List (Operator × Expr) → Expr
  | [] => first
  | (_, operand) :: rest => lastOf operand rest

/-- The operand in which a chain ends; all else ends in itself. -/
def lastOperand : Expr → Expr
  | chain first rest _ => lastOf first rest
  | e => e

mutual

/-- The tree is one that the grammar of expressions produces. -/
def WellFormed : Expr → Prop
  | empty _ => False
  | literal _ _ | read _ _ => True
  | assign _ value _ => WellFormed value
  | step _ op _ => op.isStep
  | chain first rest _ =>
    (first.isEmpty ∨ first.isOperand ∧ WellFormed first) ∧ rest ≠ [] ∧ LinksWellFormed first rest
  | connect left op right _ =>
    op.isConnective ∧ (left.isEmpty ∨ left.isConnect = false ∧ WellFormed left) ∧
      left.lastOperand.mayPrecede op ∧ WellFormed right
  | call _ args _ => AllWellFormed args
  | grouping inner _ => WellFormed inner

/-- The operators and operands may follow the operand `before` in a chain. -/
def LinksWellFormed (before : Expr) : List (Operator × Expr) → Prop
  | [] => True
  | (op, operand) :: rest =>
    op.isConnective = false ∧ before.mayPrecede op ∧
      (operand.isOperand ∧ WellFormed operand ∨ operand.isEmpty ∧ op.isStep) ∧
      LinksWellFormed operand rest

def AllWellFormed : List Expr → Prop
  | [] => True
  | e :: rest => WellFormed e ∧ AllWellFormed rest

end

/-! ## Depth -/

mutual

/-- How many expressions lie inside one another in the parts of an expression. -/
def innerDepth : Expr → Nat
  | empty _ | literal _ _ | read _ _ | step _ _ _ => 0
  | assign _ value _ => innerDepth value + 1
  | chain first rest _ => max (innerDepth first) (linksDepth rest)
  | connect left _ right _ => max (innerDepth left) (innerDepth right + 1)
  | call _ args _ => argumentsDepth args
  | grouping inner _ => innerDepth inner + 1

def linksDepth : List (Operator × Expr) → Nat
  | [] => 0
  | (_, operand) :: rest => max (innerDepth operand) (linksDepth rest)

def argumentsDepth : List Expr → Nat
  | [] => 0
  | e :: rest => max (innerDepth e + 1) (argumentsDepth rest)

end

/-- How many expressions lie inside one another, the whole one included. -/
def depth (e : Expr) : Nat :=
  e.innerDepth + 1

/-! ## Putting trees together -/

@[simp] lemma linkWords_append (xs ys : List (Operator × Expr)) :
    linkWords (xs ++ ys) = linkWords xs ++ linkWords ys := by
  induction xs with
  | nil => simp [linkWords]
  | cons x xs ih => simp [linkWords, ih]

lemma lastOf_append (first : Expr) (xs : List (Operator × Expr)) (op : Operator)
    (operand : Expr) : lastOf first (xs ++ [(op, operand)]) = operand := by
  induction xs generalizing first with
  | nil => rfl
  | cons x xs ih => exact ih x.2

lemma linksWellFormed_append {first : Expr} {xs ys : List (Operator × Expr)} :
    LinksWellFormed first (xs ++ ys) ↔
      LinksWellFormed first xs ∧ LinksWellFormed (lastOf first xs) ys := by
  induction xs generalizing first with
  | nil => simp [LinksWellFormed, lastOf]
  | cons x xs ih => simp [LinksWellFormed, lastOf, ih, and_assoc]

lemma words_join (first : Expr) (rest : List (Operator × Expr)) (last : Span) :
    (join first rest last).words = first.words ++ linkWords rest := by
  cases rest with
  | nil => simp [join, linkWords]
  | cons link rest => simp [join, words]

lemma lastOperand_join {first : Expr} (h : first.lastOperand = first)
    (rest : List (Operator × Expr)) (last : Span) :
    (join first rest last).lastOperand = lastOf first rest := by
  cases rest with
  | nil => exact h
  | cons link rest => rfl

/-- A chain begins with what is no chain itself. -/
lemma lastOperand_eq_self {first : Expr} (h : first.isEmpty ∨ first.isOperand) :
    first.lastOperand = first := by
  cases first <;> simp_all [isEmpty, isOperand, lastOperand]

lemma isConnect_eq_false {first : Expr} (h : first.isEmpty ∨ first.isOperand) :
    first.isConnect = false := by
  cases first <;> simp_all [isEmpty, isOperand, isConnect]

end Expr
end ScriptEngine
