import ScriptEngine.Proofs.Tree.Layout

/-!
# How expressions are laid out

Every function that reads a part of an expression lays out what it reads, if the reader of the
expressions inside it does.  `Parse.expression_lays` ties the knot: the spans of every expression are
well nested, and every error in one is located in the text.
-/

namespace ScriptEngine

open Outline (Row)

/-- Where an expression stands that has been read by itself. -/
lemma Expr.placed {text : List Char} {p r q s : Nat} {e : Expr}
    (row : Row text p r q s [e.outline]) :
    e.span.Located text ∧ p ≤ e.span.start ∧ e.span.stop ≤ s := by
  obtain ⟨nested, start, stop⟩ := row.only
  have located := nested.located
  rw [span_outline] at located start stop
  exact ⟨located, start, stop⟩

/-! ## Chains -/

/-- A chain of which `first` and, latest first, `before` have been read, and which ends where `last`
does. -/
structure Expr.ChainRead (text : List Char) (p r q s : Nat) (first : Expr)
    (before : List (Operator × Expr)) (last : Span) : Prop where
  row : Row text p r q s (first.outline :: linkOutlines before.reverse)
  located : last.Located text
  stop : last.stop ≤ s
  inside : ∀ o ∈ first.outline :: linkOutlines before.reverse, o.span.stop ≤ last.stop

namespace Expr.ChainRead

variable {text : List Char} {p r q s q' s' : Nat} {first right : Expr}
  {before : List (Operator × Expr)} {last : Span} {t : Token}

lemma start (row : Row text p r q s [first.outline]) :
    ChainRead text p r q s first [] first.span := by
  obtain ⟨located, -, stop⟩ := placed row
  exact ⟨row, located, stop, by simp [linkOutlines]⟩

lemma link (chain : ChainRead text p r q s first before last) (beyond : t.Beyond text q s)
    (op : Operator) (row : Row text t.span.stop t.span.stop q' s' [right.outline]) :
    ChainRead text p r q' s' first ((op, right) :: before) right.span := by
  obtain ⟨nested, start, -⟩ := row.only
  obtain ⟨located, -, stop⟩ := placed row
  have inside := chain.row.stop_le_last nested (beyond.stop.trans start)
  have outlines : first.outline :: linkOutlines ((op, right) :: before).reverse =
      (first.outline :: linkOutlines before.reverse) ++ [right.outline] := by
    rw [List.reverse_cons, linkOutlines_append]
    rfl
  rw [← outlines, span_outline] at inside
  refine ⟨?_, located, stop, inside⟩
  rw [outlines]
  exact chain.row.append (row.behind beyond)

lemma join (chain : ChainRead text p r q s first before last) :
    Row text p r q s [(Expr.join first before.reverse last).outline] := by
  obtain ⟨row, located, stop, inside⟩ := chain
  cases rest : before.reverse with
  | nil =>
    rw [rest] at row
    exact row
  | cons link rest' =>
    rw [rest] at row inside
    have whole := row.wrap located stop inside
    rw [span_outline] at whole
    exact whole

end Expr.ChainRead

/-! ## Reading expressions -/

namespace Parse

open Lexer (At Past)

variable {text : List Char} {p r q s : Nat} {x : Parse Lexer Expr}
  (inner : Lays text x fun e => [e.outline])
include inner

lemma argumentsWithin_lays (budget : Nat) (before : List Expr)
    (row : Row text p r q s (Expr.outlines before.reverse)) :
    Locates text (At text q s) (argumentsWithin x budget before) fun (args, close) l =>
      close.span.Located text ∧
        Row text p r close.span.stop close.span.stop (Expr.outlines args) ∧
        l.At text close.span.stop close.span.stop := by
  induction budget generalizing before q s with
  | zero => exact .failHere
  | succ budget ih =>
    refine inner.bind fun e q s argument => ?_
    have row : Row text p r q s (Expr.outlines (e :: before).reverse) := by
      rw [List.reverse_cons, Expr.outlines_append]
      exact row.append argument
    refine .next_bind .expression fun t beyond => ?_
    split
    · exact .consumed (ih (e :: before) (row.before beyond))
    · exact .consumed (.pure fun l here => ⟨beyond.located.span, row.before beyond, here⟩)
    · exact .fail beyond.located.span

lemma call_lays {callee : Token} (beyond : callee.Beyond text p r) :
    Locates text (At text callee.span.stop callee.span.stop) (call x callee)
      fun e => LaidOut text p r [e.outline] := by
  refine .expect_bind .callOpen fun paren opened => ?_
  refine .next_bind .expression fun t closed => ?_
  split
  · have row := (Row.token closed).behind opened
    exact .consumed (.done (row.construct beyond closed.located.span (Nat.le_refl _) (by simp)))
  · refine .restored closed (.get_bind fun parser _ => ?_)
    refine .bind (argumentsWithin_lays inner parser.budget [] (.nil (Nat.le_refl _) (Nat.le_refl _)))
      fun (args, close) => ?_
    rintro parser ⟨located, row, here⟩
    have whole := (row.behind opened).construct beyond located (Nat.le_refl _) row.stop
    exact Locates.done whole parser here

lemma named_lays {name : Token} (beyond : name.Beyond text p r) :
    Locates text (At text name.span.stop name.span.stop) (named x name)
      fun e => LaidOut text p r [e.outline] := by
  refine .next_bind .expression fun t next => ?_
  have step : Row text p r t.span.stop t.span.stop [.node (name.span.through t.span) []] :=
    (Row.token next).construct beyond next.located.span (Nat.le_refl _) (by simp)
  split
  · refine .consumed (.peekKind_bind fun kind => ?_)
    split
    · refine inner.bind fun value q s row => .done ?_
      obtain ⟨located, -, stop⟩ := Expr.placed row
      exact (row.behind next).construct beyond located stop (by simp)
    · exact .fail next.located.span
  · exact .consumed (.done step)
  · exact .consumed (.done step)
  · exact .restored next (.done (.leaf beyond))

lemma operand_lays : Lays text (operand x) fun e => [e.outline] := by
  intro p r
  refine .next_bind .expression fun t beyond => ?_
  split
  · exact .consumed (.done (.leaf beyond))
  · exact .consumed (named_lays inner beyond)
  · exact .consumed (call_lays inner beyond)
  · refine .consumed (inner.bind fun e q s row => ?_)
    refine .expect_bind .groupClose fun close closed => .done ?_
    have row := row.before closed
    exact row.construct beyond closed.located.span (Nat.le_refl _) row.stop
  · exact .fail beyond.located.span

lemma operandAfter_lays (operator : Token) :
    Lays text (operandAfter x operator) fun e => [e.outline] := by
  intro p r
  refine .peekKind_bind fun kind => ?_
  split
  · exact operand_lays inner p r
  · exact .next_bind .expression fun t beyond => .fail beyond.located.span

/-- Behind a step the missing operand is on the line of the operator. -/
lemma rightOperand_lays {operator : Token} {op : Operator} (located : operator.Located text)
    (kind : operator.kind = .operator op) :
    Locates text (At text operator.span.stop operator.span.stop) (rightOperand x op operator)
      fun e => LaidOut text operator.span.stop operator.span.stop [e.outline] := by
  have behind : (Span.empty operator.span.stop operator.span.line).Located text :=
    ⟨Nat.le_refl _, located.span.stop_le, (located.line_stop op kind).symm⟩
  rw [rightOperand]
  split
  · refine .peekKind_bind fun kind => ?_
    split
    · exact operandAfter_lays inner operator _ _
    · exact .done (.single (.leaf behind) (Nat.le_refl _) (Nat.le_refl _) (Nat.le_refl _)
        (Nat.le_refl _))
  · exact operandAfter_lays inner operator _ _

lemma chainWithin_lays (first : Expr) (budget : Nat) (before : List (Operator × Expr))
    (last : Span) (chain : Expr.ChainRead text p r q s first before last) :
    Locates text (At text q s) (chainWithin x first budget before last)
      fun e => LaidOut text p r [e.outline] := by
  induction budget generalizing before last q s with
  | zero => exact .failHere
  | succ budget ih =>
    refine .next_bind .expression fun t beyond => ?_
    split
    · next op kind =>
      split
      · refine .consumed (.peekKind_bind fun kind => ?_)
        split
        · refine inner.bind fun right q s row => .done ?_
          have both := chain.join.append (row.behind beyond)
          obtain ⟨nested, start, -⟩ := row.only
          obtain ⟨located, -, stop⟩ := Expr.placed row
          have inside := chain.join.stop_le_last nested (beyond.stop.trans start)
          rw [Expr.span_outline] at inside
          have whole := both.wrap located stop inside
          rw [Expr.span_outline] at whole
          exact whole
        · exact .fail beyond.located.span
      · refine .consumed ((rightOperand_lays inner beyond.located kind).bind fun right => ?_)
        rintro parser ⟨q, s, row, here⟩
        exact ih _ _ (chain.link beyond op row) parser here
    · exact .restored beyond (.done chain.join)

lemma firstOperand_lays : Lays text (firstOperand x) fun e => [e.outline] := by
  intro p r
  refine .next_bind .expression fun t beyond => ?_
  split
  · -- The missing operand is where the operator starts, which has been looked at already.
    refine .handedBack (.done ?_)
    have located := beyond.located.span
    exact .single (.leaf located.empty_start) beyond.start (Nat.le_refl _) located.start_le_stop
      beyond.stop
  · exact .restored beyond (operand_lays inner p r)

lemma expressionBody_lays : Lays text (expressionBody x) fun e => [e.outline] := by
  intro p r
  refine (firstOperand_lays inner).bind fun first q s row => .get_bind fun parser _ => ?_
  exact chainWithin_lays inner first parser.budget [] first.span (.start row)

omit inner in
/-- The spans of an expression are well nested. -/
theorem expression_lays (room : Nat) : Lays text (expression room) fun e => [e.outline] := by
  induction room with
  | zero => exact fun p r => .failHere
  | succ room ih => exact expressionBody_lays ih

end Parse
end ScriptEngine
