import ScriptEngine.Proofs.Tree.StatementContracts

/-!
# Scripts are read to an end

One call after the other reads the statements of a script (`Parse.Calls`).  Every call returns for a
reason other than that the budget of a loop ran out, and after at most `attemptLimit` times as many
calls as the script has characters there is no further statement.  The guard against attempts that
lead nowhere allows `attemptLimit` of them at one place and refuses the next, and it refuses only in
front of a token that statements leave unread.
-/

namespace ScriptEngine

open TokenStream

namespace Parser

variable {text : List Char} {r : Nat} {p : Parser Lexer} {t : Token}

/-- No more attempts are made than are allowed at the places in front of the end of the text. -/
lemma Between.length_attempts_le (h : p.Between text r) :
    p.attempts.length ≤ attemptLimit * text.length := by
  have inside : p.tokens.position ≤ text.length := by
    rw [← h.sound.text_eq]
    exact Lexer.position_le_length h.sound.inside
  have total := h.paced.total
  rcases h.fresh with ahead | ⟨t, pending, unread⟩
  · have none_here : lead p.tokens.position p.attempts = 0 := lead_eq_zero ahead
    have := Nat.mul_le_mul_left attemptLimit inside
    omega
  · have proper : t.kind ≠ .endOfInput := by
      intro kind
      simp [kind, TokenKind.isLeftUnread] at unread
    have behind := h.sound.behind t pending proper
    have cursor := h.sound.inside.cursor
    rw [h.sound.text_eq] at cursor
    have position : p.tokens.position = t.span.start := by
      rw [Lexer.position, Option.mem_def.1 pending]
    have := h.paced.here
    have := Nat.mul_le_mul_left attemptLimit (show p.tokens.position + 1 ≤ text.length by omega)
    rw [Nat.mul_succ] at this
    omega

end Parser

namespace Parse

section

variable {τ α : Type}

/-- Calls made one after the other have read the statements. -/
inductive Calls (call : Parse τ (Option Stmt)) : List Stmt → Parser τ → Parser τ → Prop
  | none (p : Parser τ) : Calls call [] p p
  | further {p p₁ p₂ : Parser τ} {s : Stmt} {ss : List Stmt} (first : call p = .ok (some s) p₁)
    (rest : Calls call ss p₁ p₂) : Calls call (s :: ss) p p₂

/-- The same result of a parser that has more budget. -/
def generously (more : Nat) :
    EStateM.Result ScriptError (Parser Lexer) α → EStateM.Result ScriptError (Parser Generous) α
  | .ok a p => .ok a (p.generous more)
  | .error e p => .error e (p.generous more)

end

variable {text : List Char} {r : Nat} {p p' : Parser Lexer} {t : Token} {e : ScriptError}
  {ss : List Stmt}

/-! ## What one call does -/

lemma topLevel_generous (room more : Nat) (between : p.Between text r) :
    topLevel room (p.generous more) = generously more (topLevel room p) := by
  have meets := topLevel_meets more room between p rfl
  cases run : topLevel room p with
  | ok found p' =>
    rw [run] at meets
    exact meets.1
  | error e p' =>
    rw [run] at meets
    exact meets.1

lemma topLevel_sorted {room : Nat} {found : Option Stmt} (between : p.Between text r)
    (call : topLevel room p = .ok found p') : p'.attempts.Pairwise (· ≥ ·) :=
  ((topLevel_meets 0 room between).of_ok rfl call).1

/-- A call that reads a statement leads from one place between statements to another. -/
lemma topLevel_between {room : Nat} {s : Stmt} (between : p.Between text r)
    (call : topLevel room p = .ok (some s) p') : p'.Between text r ∧ p'.rank < p.rank :=
  ((topLevel_meets 0 room between).of_ok rfl call).2 rfl

lemma topLevel_halted {room : Nat} (between : p.Between text r)
    (call : topLevel room p = .error e p') : p'.Halted text (room ≤ r + 1) e :=
  (topLevel_meets 0 room between).of_error rfl call

/-- An attempt is noted unless as many as are allowed have just been made here. -/
lemma attempt_eq (p : Parser Lexer) :
    attempt p =
      if Parser.lead p.tokens.position p.attempts < attemptLimit then
        .ok () { p with attempts := p.tokens.position :: p.attempts }
      else
        .error ⟨.grammar .stalled, .single p.tokens.position p.tokens.line⟩ p := by
  have step : attempt p =
      if Parser.stalledAt p.tokens.position p.attempts then
        .error ⟨.grammar .stalled, .single p.tokens.position p.tokens.line⟩ p
      else
        .ok () { p with attempts := p.tokens.position :: p.attempts } := by
    unfold attempt
    rw [get_bind_apply]
    cases Parser.stalledAt (position p.tokens) p.attempts <;> rfl
  rw [step]
  by_cases full : attemptLimit ≤ Parser.lead p.tokens.position p.attempts
  · rw [if_pos (Parser.stalledAt_iff.2 full), if_neg (Nat.not_lt.2 full)]
  · rw [if_neg (mt Parser.stalledAt_iff.1 full), if_pos (Nat.not_le.1 full)]

/-! ## In front of a token that is left unread -/

section

variable (pending : p.tokens.pending = some t) (unread : t.kind.isLeftUnread)
include pending

lemma skipNewlines_of_pending (proper : t.kind ≠ .newline) :
    skipNewlines .statement p = .ok t { p with tokens := ⟨p.tokens.cursor, none⟩ } :=
  skipNewlines_of_next (Lexer.next_eq_ok.2 (.inl ⟨pending, rfl⟩)) proper

lemma pushBack_of_pending :
    pushBack t { p with tokens := ⟨p.tokens.cursor, none⟩ } = .ok () p := by
  obtain ⟨⟨cursor, _⟩, attempts⟩ := p
  obtain rfl : _ = some t := pending
  rfl

include unread

lemma statement_unread (room : Nat)
    (allowed : Parser.lead p.tokens.position p.attempts < attemptLimit) :
    statement (room + 1) p =
      .ok (.empty t.span) { p with attempts := p.tokens.position :: p.attempts } := by
  have proper : t.kind ≠ .newline := by
    rintro kind
    simp [kind, TokenKind.isLeftUnread] at unread
  have noted := attempt_eq p
  rw [if_pos allowed] at noted
  have skipped : skipNewlines .statement
      { p with attempts := p.tokens.position :: p.attempts } = .ok t _ :=
    skipNewlines_of_pending pending proper
  have returned : pushBack t ⟨⟨p.tokens.cursor, none⟩, p.tokens.position :: p.attempts⟩ =
      .ok () { p with attempts := p.tokens.position :: p.attempts } :=
    pushBack_of_pending (p := { p with attempts := p.tokens.position :: p.attempts }) pending
  rw [statement, statementBody, bind_of_ok noted, bind_of_ok skipped]
  generalize t.kind = kind at unread
  cases kind with
  | comma => exact bind_of_ok returned _
  | rightBrace => exact bind_of_ok returned _
  | keyword word =>
    cases word with
    | elseWord => exact bind_of_ok returned _
    | _ => cases unread
  | _ => cases unread

/-- A call does nothing but make an attempt, as long as it may. -/
lemma topLevel_unread (room : Nat) :
    topLevel (room + 1) p =
      if Parser.lead p.tokens.position p.attempts < attemptLimit then
        .ok (some (.empty t.span)) { p with attempts := p.tokens.position :: p.attempts }
      else
        .error ⟨.grammar .stalled, .single p.tokens.position p.tokens.line⟩ p := by
  have proper : t.kind ≠ .newline ∧ t.kind ≠ .endOfInput := by
    constructor <;> rintro kind <;> simp [kind, TokenKind.isLeftUnread] at unread
  rw [topLevel, bind_of_ok (skipNewlines_of_pending pending proper.1), if_neg proper.2,
    bind_of_ok (pushBack_of_pending pending)]
  split
  · next allowed => rw [bind_of_ok (statement_unread pending unread room allowed), pure_apply]
  · next full =>
    have refused := attempt_eq p
    rw [if_neg full] at refused
    exact bind_of_error (bind_of_error refused _) _

/-- As many calls as are still allowed here read empty statements, and the next one fails. -/
lemma calls_unread :
    ∃ p', Calls (topLevel nestingLimit)
        (List.replicate (attemptLimit - Parser.lead p.tokens.position p.attempts) (.empty t.span))
        p p' ∧
      topLevel nestingLimit p' =
        .error ⟨.grammar .stalled, .single p.tokens.position p.tokens.line⟩ p' := by
  generalize left : attemptLimit - Parser.lead p.tokens.position p.attempts = rounds
  induction rounds generalizing p with
  | zero =>
    refine ⟨p, .none p, ?_⟩
    have call := topLevel_unread pending unread 63
    rwa [if_neg (by omega)] at call
  | succ rounds ih =>
    have call := topLevel_unread pending unread 63
    rw [if_pos (by omega)] at call
    have one_more : Parser.lead p.tokens.position (p.tokens.position :: p.attempts) =
        Parser.lead p.tokens.position p.attempts + 1 := by simp [Parser.lead]
    obtain ⟨p', rest, refused⟩ :=
      ih (p := { p with attempts := p.tokens.position :: p.attempts }) pending
        (by simp only [one_more]; omega)
    exact ⟨p', .further call rest, refused⟩

end

/-! ## Whole runs -/

lemma Calls.between (calls : Calls (topLevel nestingLimit) ss p p') (between : p.Between text r) :
    p'.Between text r ∧ p.attempts.length + ss.length ≤ p'.attempts.length := by
  induction calls with
  | none p => exact ⟨between, Nat.le_refl _⟩
  | further first _ ih =>
    obtain ⟨-, -, -, noted⟩ := topLevel_reads first
    obtain ⟨between', more⟩ := ih (topLevel_between between first).1
    refine ⟨between', ?_⟩
    rw [List.length_cons]
    omega

/-- The calls come to an end. -/
lemma exists_calls (between : p.Between text r) :
    ∃ ss p', Calls (topLevel nestingLimit) ss p p' ∧
      ∀ s p'', topLevel nestingLimit p' ≠ .ok (some s) p'' := by
  generalize sinks : p.rank = rank
  induction rank using Nat.strongRecOn generalizing p with
  | ind rank ih =>
    by_cases further : ∃ s p', topLevel nestingLimit p = .ok (some s) p'
    · obtain ⟨s, p₁, first⟩ := further
      obtain ⟨between₁, less⟩ := topLevel_between between first
      obtain ⟨ss, p', rest, last⟩ := ih _ (sinks ▸ less) between₁ rfl
      exact ⟨s :: ss, p', .further first rest, last⟩
    · exact ⟨[], p, .none p, fun s p' call => further ⟨s, p', call⟩⟩

/-- What is true of the next call for a statement of the text. -/
structure GuardExact (text : List Char) (p : Parser Lexer) : Prop where
  /-- The call comes to its result however large the budgets are. -/
  returns (more : Nat) :
    topLevel nestingLimit (p.generous more) = generously more (topLevel nestingLimit p)
  /-- No attempt was made in front of an earlier one, whether the call succeeds or fails. -/
  forward (p' : Parser Lexer) :
    (∃ found, topLevel nestingLimit p = .ok found p') ∨
      (∃ e, topLevel nestingLimit p = .error e p') → p'.attempts.Pairwise (· ≥ ·)
  /-- If the guard trips, the attempts that are allowed were all made in front of a token that is
  left unread. -/
  tripped (e : ScriptError) (p' : Parser Lexer) : topLevel nestingLimit p = .error e p' →
    e.fault = .grammar .stalled → p'.Tripped text e
  /-- It does not trip if no attempt was made in front of such a token. -/
  silent (e : ScriptError) (p' : Parser Lexer) : topLevel nestingLimit p = .error e p' →
    (∀ a ∈ p'.attempts, ¬ StopsAt text a) → e.fault ≠ .grammar .stalled
  /-- In front of such a token the remaining attempts are made, and then it trips. -/
  allowed (t : Token) : p.tokens.pending = some t → t.kind.isLeftUnread →
    ∃ p', Calls (topLevel nestingLimit)
        (List.replicate (11 - Parser.lead p.tokens.position p.attempts) (.empty t.span)) p p' ∧
      topLevel nestingLimit p' =
        .error ⟨.grammar .stalled, .single p.tokens.position p.tokens.line⟩ p'

lemma guardExact_of_between (between : p.Between text r) : GuardExact text p where
  returns more := topLevel_generous nestingLimit more between
  forward p' ended := by
    rcases ended with ⟨found, call⟩ | ⟨e, call⟩
    · exact topLevel_sorted between call
    · exact (topLevel_halted between call).sorted
  tripped e p' call := (topLevel_halted between call).stalled
  silent e p' call nowhere stalled := by
    have tripped := (topLevel_halted between call).stalled stalled
    have here : p'.tokens.position ∈ p'.attempts := by
      have some_here : 0 < Parser.lead p'.tokens.position p'.attempts := by
        rw [tripped.full]
        decide
      obtain ⟨a, mem⟩ := List.length_pos_iff_exists_mem.1 some_here
      have same : a = p'.tokens.position := by simpa using List.mem_takeWhile_imp mem
      exact same ▸ (List.takeWhile_sublist _).subset mem
    exact nowhere _ here tripped.stops
  allowed _ pending unread := calls_unread pending unread

/-- The calls for the statements of a script come to an end after at most eleven for each character,
and the guard against attempts that lead nowhere is exact: at every attempt, it lets through the
eleventh in a row at one place and refuses the twelfth. -/
theorem calls_end_and_guard_exact (script : String) :
    (∃ ss p, Calls (topLevel nestingLimit) ss (.ofStream (Lexer.ofScript script)) p ∧
      ∀ s p', topLevel nestingLimit p ≠ .ok (some s) p') ∧
    (∀ ss p, Calls (topLevel nestingLimit) ss (.ofStream (Lexer.ofScript script)) p →
      ss.length ≤ 11 * script.length ∧ GuardExact script.toList p) ∧
    (∀ p : Parser Lexer, attempt p =
      if Parser.lead p.tokens.position p.attempts < 11 then
        .ok () { p with attempts := p.tokens.position :: p.attempts }
      else
        .error ⟨.grammar .stalled, .single p.tokens.position p.tokens.line⟩ p) ∧
    (∀ (p : Parser Lexer) (t : Token) (room : Nat), p.tokens.pending = some t →
      t.kind.isLeftUnread → Parser.lead p.tokens.position p.attempts < 11 →
      statement (room + 1) p =
        .ok (.empty t.span) { p with attempts := p.tokens.position :: p.attempts }) ∧
    GrammarFault.stalled.message = "Syntax error" := by
  have start := Parser.between_ofScript script
  refine ⟨exists_calls start, fun ss p calls => ?_, attempt_eq, ?_, rfl⟩
  · obtain ⟨between, counted⟩ := calls.between start
    have bound := between.length_attempts_le
    rw [String.length_toList] at bound
    exact ⟨(Nat.le_add_left _ _).trans (counted.trans bound), guardExact_of_between between⟩
  · exact fun p t room pending unread allowed => statement_unread pending unread room allowed

/-- A lone comma is as many statements as can be, and then the guard trips at it. -/
theorem calls_end_and_guard_exact_comma :
    ∃ ss p e, Calls (topLevel nestingLimit) ss (.ofStream (Lexer.ofScript ",")) p ∧
      ss.length = 11 ∧ ss.length ≤ 11 * ",".length ∧
      topLevel nestingLimit p = .error e p ∧ e.fault.message = "Syntax error" ∧
      p.Tripped ",".toList e ∧ ∃ a ∈ p.attempts, StopsAt ",".toList a := by
  obtain ⟨-, exact, -⟩ := calls_end_and_guard_exact ","
  let comma : Token := ⟨.comma, ",", ⟨0, 1, 1⟩⟩
  let behind : Cursor := (Cursor.start [',']).advance 1
  have first : topLevel nestingLimit (.ofStream (Lexer.ofScript ",")) =
      .ok (some (.empty comma.span)) ⟨⟨behind, some comma⟩, [0]⟩ := by rfl
  obtain ⟨-, guard⟩ := exact _ _ (.further first (.none _))
  obtain ⟨p, calls, refused⟩ := guard.allowed comma rfl rfl
  have run := Calls.further first calls
  obtain ⟨bound, guard'⟩ := exact _ p run
  have tripped := guard'.tripped _ p refused rfl
  have attempted : ∃ a ∈ p.attempts, StopsAt ",".toList a := by
    by_contra nowhere
    push Not at nowhere
    exact guard'.silent _ p refused nowhere rfl
  exact ⟨_, p, _, run, rfl, bound, refused, rfl, tripped, attempted⟩

end Parse
end ScriptEngine
