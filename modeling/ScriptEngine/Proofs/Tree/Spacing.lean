import ScriptEngine.Proofs.Token.Spacing
import ScriptEngine.Proofs.Tree.Guard

/-!
# Trees of a text with blanks put in

A parser on a text and one on the text with blanks put in at a token boundary read the same trees up
to the positions in the text (`Pairing.spread`), until the first of them makes no headway any more.

A parser tells that it makes no headway from attempts to read statements that all began at one
position.  In front of the blanks and behind them are two positions, and without the blanks they are
one: so the parser of the text as it was never notes fewer attempts at a place than the other one, but
it may note more of them, and it gives up first.
-/

namespace ScriptEngine

open TokenStream

/-- The span without its positions. -/
def Span.onLine (s : Span) : Span :=
  ⟨0, 0, s.line⟩

lemma Span.onLine_eq_iff {s s' : Span} : s.onLine = s'.onLine ↔ s.line = s'.line := by
  simp [Span.onLine]

lemma compatible_onLine : Compatible Span.onLine Span.onLine where
  through first _ := Span.onLine_eq_iff.2 (Span.onLine_eq_iff.1 first)
  empty_start same := Span.onLine_eq_iff.2 (Span.onLine_eq_iff.1 same)
  empty_stop same := Span.onLine_eq_iff.2 (Span.onLine_eq_iff.1 same)

/-- What was noted at one position is noted at one position also where positions are moved. -/
lemma Parser.lead_le_lead_map (f : Nat → Nat) (position : Nat) (attempts : List Nat) :
    lead position attempts ≤ lead (f position) (attempts.map f) := by
  induction attempts with
  | nil => exact Nat.le_refl _
  | cons a attempts ih =>
    by_cases here : a = position
    · simpa [lead, here] using ih
    · simp [lead, here]

namespace Pairing

/-- A parser beside one of the text with the blanks. -/
def spread (x : Spacing) : Pairing Lexer Lexer where
  aligned p q := Lexer.Spread x p.tokens q.tokens ∧ p.attempts = q.attempts.map x.close
  past _ _ := False
  strict := True
  stallsAlike := False
  left := Span.onLine
  right := Span.onLine

lemma spread_lawful (x : Spacing) : (spread x).Lawful where
  next {p q} c aligned := by
    obtain ⟨spread, noted⟩ := aligned
    refine .next (fun t l read => ?_) fun e l read _ => ?_
    · obtain ⟨u, l', read', rfl, spread'⟩ := spread.next_ok read
      exact ⟨u, l', read', ⟨spread'.pushBack u, noted⟩, .inl ⟨⟨rfl, rfl, rfl⟩, spread', noted⟩⟩
    · obtain ⟨e', l', read', rfl, spread'⟩ := spread.next_error read
      exact ⟨e', l', read', ⟨rfl, rfl⟩, spread', noted⟩
  attempt {p q} aligned := by
    obtain ⟨spread, noted⟩ := aligned
    have position : position p.tokens = x.close (position q.tokens) := spread.position
    refine ⟨False.elim, fun moving => ⟨?_, spread, ?_⟩⟩
    · rw [← Bool.not_eq_true, Parser.stalledAt_iff, position, noted] at moving
      rw [← Bool.not_eq_true, Parser.stalledAt_iff]
      exact fun stalled => moving (stalled.trans (Parser.lead_le_lead_map _ _ _))
    · rw [List.map_cons, ← position, noted]
  here {p q} _ aligned := by
    have line : line q.tokens = line p.tokens := aligned.1.line
    simp only [spread, Span.onLine, Span.single, line]
  budget aligned := by
    refine ⟨Nat.mul_le_mul_left _ ?_, False.elim⟩
    have := aligned.1.remaining
    omega
  past_lax past := past.elim
  past_end past := past.elim
  spans := compatible_onLine

variable {x : Spacing} {room : Nat} {p q : Parser Lexer}

lemma spread_settles (x : Spacing) : (spread x).Settles :=
  fun _ _ past => past.elim

lemma statement_spread (room : Nat) (aligned : (spread x).aligned p q) :
    (spread x).Ends ((spread x).Both (spread x).SameStmt) (Parse.statement room p)
      (Parse.statement room q) := by
  refine ((statement_pairs (spread_lawful x) room).ends (spread_settles x) aligned).mono ?_
  exact fun _ _ _ _ through => ⟨through.1, through.2.resolve_right id⟩

lemma skipNewlines_spread (aligned : (spread x).aligned p q) :
    (spread x).Ends (fun t u p' q' => (spread x).SameToken t u ∧ (spread x).aligned p' q' ∧
        (spread x).aligned { p' with tokens := pushBack t p'.tokens }
          { q' with tokens := pushBack u q'.tokens })
      (Parse.skipNewlines .statement p) (Parse.skipNewlines .statement q) := by
  have skips := (skipNewlines_pairs (spread_lawful x) aligned).ends
    fun _ _ _ => .inl (spread_settles x)
  refine skips.mono fun t u p' q' skipped => ?_
  obtain ⟨token, aligned, read⟩ := skipped.resolve_right fun h => h.1 trivial
  exact ⟨token, aligned, read.returned⟩

end Pairing
end ScriptEngine
