import Mathlib.Data.List.TakeWhile
import ScriptEngine.Proofs.Token.Lexing
import ScriptEngine.Proofs.Tree.StatementPairing

/-!
# Scripts are read to their end

A parser never moves back behind a place where it attempted a statement, and at one place it
attempts at most `attemptLimit` of them.  So the attempts of a parser are bounded by where it is
(`Parser.Steady`), and since every statement is an attempt, the rounds that `Script.readWithin`
allows are never used up: a script is its statements up to the end of the text or the first error
(`Script.ofText_readFrom`).
-/

namespace ScriptEngine

open TokenStream

/-! ## Attempts -/

namespace Parser

/-- How many of the latest attempts in a row were made at `position`. -/
def lead (position : Nat) (attempts : List Nat) : Nat :=
  (attempts.takeWhile (· = position)).length

lemma stalledAt_iff {position : Nat} {attempts : List Nat} :
    stalledAt position attempts = true ↔ attemptLimit ≤ lead position attempts := by
  unfold stalledAt
  rw [beq_iff_eq]
  constructor
  · intro stalled
    have all : ∀ a ∈ attempts.take attemptLimit, decide (a = position) = true := fun a mem => by
      rw [stalled] at mem
      simpa using List.eq_of_mem_replicate mem
    have length := congrArg List.length stalled
    rw [List.length_replicate] at length
    calc
      attemptLimit = (attempts.take attemptLimit).length := length.symm
      _ ≤ (attempts.take attemptLimit ++
            (attempts.drop attemptLimit).takeWhile (· = position)).length :=
          (List.prefix_append _ _).length_le
      _ = lead position attempts := by
        rw [← List.takeWhile_append_of_pos all, List.take_append_drop, lead]
  · intro enough
    have all : ∀ a ∈ attempts.takeWhile (· = position), a = position := fun a mem => by
      simpa using List.mem_takeWhile_imp mem
    have same : attempts.takeWhile (· = position) =
        List.replicate (lead position attempts) position :=
      List.eq_replicate_iff.2 ⟨rfl, all⟩
    obtain ⟨more, split⟩ := List.takeWhile_prefix (l := attempts) (· = position)
    rw [← split, same, List.take_append_of_le_length (by simpa using enough), List.take_replicate,
      Nat.min_eq_left enough]

/-- The attempts of a parser that is at `position` and went to every place once. -/
structure Paced (position : Nat) (attempts : List Nat) : Prop where
  behind : ∀ a ∈ attempts, a ≤ position
  here : lead position attempts ≤ attemptLimit
  total : attempts.length ≤ attemptLimit * position + lead position attempts

namespace Paced

variable {position position' : Nat} {attempts : List Nat}

lemma nil (position : Nat) : Paced position [] :=
  ⟨by simp, by simp [lead], by simp⟩

lemma length_le (h : Paced position attempts) :
    attempts.length ≤ attemptLimit * (position + 1) := by
  have := h.here
  have := h.total
  rw [Nat.mul_succ]
  omega

/-- Moving on. -/
lemma onward (h : Paced position attempts) (le : position ≤ position') :
    Paced position' attempts := by
  rcases Nat.eq_or_lt_of_le le with rfl | lt
  · exact h
  · have none_here : lead position' attempts = 0 := by
      cases attempts with
      | nil => rfl
      | cons a attempts =>
        have := h.behind a List.mem_cons_self
        simp [lead, show a ≠ position' by omega]
    have bound := h.length_le
    have : attemptLimit * (position + 1) ≤ attemptLimit * position' :=
      Nat.mul_le_mul_left _ lt
    refine ⟨fun a mem => ?_, ?_, ?_⟩
    · have := h.behind a mem
      omega
    · omega
    · omega

/-- One more attempt. -/
lemma attempt (h : Paced position attempts)
    (goes_on : stalledAt position attempts = false) : Paced position (position :: attempts) := by
  have one_more : lead position (position :: attempts) = lead position attempts + 1 := by
    simp [lead]
  have room : lead position attempts < attemptLimit := by
    by_contra full
    rw [stalledAt_iff.2 (by omega)] at goes_on
    simp at goes_on
  have := h.total
  refine ⟨?_, by omega, by simp only [List.length_cons]; omega⟩
  simpa using h.behind

end Paced
end Parser

/-! ## Positions -/

namespace Lexer

variable {c : TokenContext} {l l' : Lexer} {t : Token}

/-- The lexer stands in its script, and a token that was handed back starts before that place. -/
structure Inside (l : Lexer) : Prop where
  cursor : l.cursor.position ≤ l.cursor.text.length
  pending : ∀ t ∈ l.pending, t.span.start ≤ l.cursor.position

lemma inside_ofScript (script : String) : (ofScript script).Inside :=
  ⟨Nat.zero_le _, by simp [ofScript]⟩

lemma position_le_length (h : l.Inside) : l.position ≤ l.cursor.text.length := by
  have := h.cursor
  unfold position
  cases pending : l.pending with
  | none => exact this
  | some t => exact (h.pending t pending).trans this

/-- Reading goes forward: the next token starts where the lexer stood or later, and the lexer moves
behind the start of the token. -/
lemma position_next (h : l.Inside) (read : l.next c = (.ok t, l')) :
    l.position ≤ t.span.start ∧ t.span.start ≤ l'.cursor.position ∧ l'.Inside := by
  have text : l'.cursor.text = l.cursor.text := by
    have := text_next c l
    rwa [read] at this
  have none_pending := pending_next read
  rcases next_eq_ok.1 read with ⟨pending, rfl⟩ | ⟨pending, x, lexeme, rfl, rfl⟩
  · refine ⟨by simp [position, pending], h.pending t pending, h.cursor, by simp⟩
  · have ahead : l.cursor.ahead.length = l.cursor.text.length - l.cursor.position := by
      rw [l.cursor.ahead_eq, List.length_drop]
    have gap := Cursor.position_advance (Gap.length_le l.cursor.ahead)
    have read_le := (Lexeme.ofChars_fits lexeme).read_le
    have moved := Cursor.position_advance read_le
    have := h.cursor
    have := Gap.length_le l.cursor.ahead
    simp only [atToken, Cursor.ahead_advance, List.length_drop] at read_le
    refine ⟨?_, ?_, ?_, by simp⟩
    · simp only [position, pending, place, atToken, gap]
      omega
    · simp only [place, moved]
      omega
    · rw [text, moved, atToken, gap]
      omega

end Lexer

/-! ## Steady parsers -/

/-- The parser stands in a script of the given length and has never moved back. -/
structure Parser.Steady (length : Nat) (p : Parser Lexer) : Prop where
  inside : p.tokens.Inside
  length : p.tokens.cursor.text.length = length
  paced : Paced p.tokens.position p.attempts

namespace Pairing

/-- A steady parser beside itself. -/
def steady (length : Nat) : Pairing Lexer Lexer where
  aligned p q := q = p ∧ p.Steady length
  past _ _ := False
  strict := False
  stallsAlike := False
  left := id
  right := id

lemma steady_lawful (length : Nat) : (steady length).Lawful where
  next {p q} c aligned := by
    obtain ⟨rfl, steady⟩ := aligned
    refine .next (fun t l read => ?_) fun _ _ _ strict => strict.elim
    obtain ⟨start, onward, inside⟩ := Lexer.position_next steady.inside read
    have text : l.cursor.text.length = length := by
      have := Lexer.text_next c q.tokens
      rw [show q.tokens.next c = _ from read] at this
      rw [this, steady.length]
    have behind : l.position = l.cursor.position := by
      unfold Lexer.position
      rw [Lexer.pending_next read]
    refine ⟨t, l, read, ⟨rfl, ?_⟩, .inl ⟨⟨rfl, rfl, rfl⟩, rfl, ?_⟩⟩
    · refine ⟨⟨inside.cursor, ?_⟩, text, steady.paced.onward start⟩
      rintro _ ⟨⟩
      exact onward
    · exact ⟨inside, text, steady.paced.onward (start.trans (behind ▸ onward))⟩
  attempt {p q} aligned := by
    obtain ⟨rfl, steady⟩ := aligned
    exact ⟨False.elim, fun goes_on =>
      ⟨goes_on, rfl, steady.inside, steady.length, steady.paced.attempt goes_on⟩⟩
  here strict := strict.elim
  budget {p q} aligned := by
    obtain ⟨rfl, -⟩ := aligned
    exact ⟨Nat.le_refl _, False.elim⟩
  past_lax past := past.elim
  past_end past := past.elim
  spans := compatible_id

end Pairing

lemma Parser.Steady.topLevel {length room : Nat} {p p' : Parser Lexer} {s : Stmt}
    (steady : p.Steady length) (run : Parse.topLevel room p = .ok (some s) p') :
    p'.Steady length := by
  obtain ⟨s', q', run', -, ⟨-, steady'⟩ | past⟩ :=
    Pairing.topLevel_pairs (Pairing.steady_lawful length) ⟨rfl, steady⟩ run
      (.inl fun _ _ past => past.elim)
  · exact steady'
  · exact past.elim

/-! ## Reading scripts -/

namespace Script

variable {τ : Type} [TokenStream τ]

/-- Reading on from a parser yields the script. -/
inductive ReadFrom : Parser τ → Script → Prop
  | done {p p' : Parser τ} (run : Parse.topLevel nestingLimit p = .ok none p') :
    ReadFrom p ⟨[], none, p'.line⟩
  | failed {p p' : Parser τ} {e : ScriptError}
    (run : Parse.topLevel nestingLimit p = .error e p') : ReadFrom p ⟨[], some e, p'.line⟩
  | statement {p p' : Parser τ} {s : Stmt} {rest : Script}
    (run : Parse.topLevel nestingLimit p = .ok (some s) p') (onward : ReadFrom p' rest) :
    ReadFrom p { rest with statements := (s, p'.line) :: rest.statements }

namespace ReadFrom

variable {p p' : Parser τ} {script : Script}

lemma of_none (reads : ReadFrom p script) (run : Parse.topLevel nestingLimit p = .ok none p') :
    script = ⟨[], none, p'.line⟩ := by
  cases reads with
  | done run' =>
    obtain ⟨-, rfl⟩ : (none : Option Stmt) = none ∧ _ = _ := by simpa [run] using run'
    rfl
  | failed run' => simp [run] at run'
  | statement run' => simp [run] at run'

lemma of_error {e : ScriptError} (reads : ReadFrom p script)
    (run : Parse.topLevel nestingLimit p = .error e p') : script = ⟨[], some e, p'.line⟩ := by
  cases reads with
  | done run' => simp [run] at run'
  | failed run' =>
    obtain ⟨rfl, rfl⟩ : e = _ ∧ p' = _ := by simpa [run] using run'
    rfl
  | statement run' => simp [run] at run'

lemma of_some {s : Stmt} (reads : ReadFrom p script)
    (run : Parse.topLevel nestingLimit p = .ok (some s) p') :
    ∃ rest, ReadFrom p' rest ∧
      script = { rest with statements := (s, p'.line) :: rest.statements } := by
  cases reads with
  | done run' => simp [run] at run'
  | failed run' => simp [run] at run'
  | statement run' onward =>
    obtain ⟨rfl, rfl⟩ : s = _ ∧ p' = _ := by simpa [run] using run'
    exact ⟨_, onward, rfl⟩

end ReadFrom

lemma readWithin_readFrom {length : Nat} (budget : Nat) (before : List (Stmt × Nat))
    {p : Parser Lexer} (steady : p.Steady length)
    (enough : attemptLimit * (length + 1) < budget + p.attempts.length) :
    ∃ rest, ReadFrom p rest ∧ readWithin budget before p =
      { rest with statements := before.reverse ++ rest.statements } := by
  induction budget generalizing before p with
  | zero =>
    have := steady.paced.length_le
    have := Lexer.position_le_length steady.inside
    have := steady.length
    have := Nat.mul_le_mul_left attemptLimit (show p.tokens.position + 1 ≤ length + 1 by omega)
    omega
  | succ budget ih =>
    rw [readWithin]
    cases run : Parse.topLevel nestingLimit p with
    | error e p' => exact ⟨_, .failed run, by simp⟩
    | ok s p' =>
      cases s with
      | none => exact ⟨_, .done run, by simp⟩
      | some s =>
        obtain ⟨-, -, -, noted⟩ := Parse.topLevel_reads run
        obtain ⟨rest, reads, eq⟩ := ih ((s, p'.line) :: before) (steady.topLevel run) (by omega)
        exact ⟨_, .statement run reads, by simp [eq]⟩

/-- A script is read to its end, or to the first error. -/
theorem ofText_readFrom (text : String) :
    ReadFrom (Parser.ofStream (Lexer.ofScript text)) (ofText text) := by
  have steady : (Parser.ofStream (Lexer.ofScript text)).Steady text.toList.length :=
    ⟨Lexer.inside_ofScript text, rfl, .nil _⟩
  obtain ⟨rest, reads, eq⟩ := readWithin_readFrom
    (Parser.ofStream (Lexer.ofScript text)).budget [] steady (by
      change _ < (attemptLimit + 1) * (text.toList.length + 0 + 2) + 0
      simp only [attemptLimit]
      omega)
  unfold ofText ofStream
  rw [eq]
  exact reads

end Script
end ScriptEngine
