import ScriptEngine.Proofs.Tree.Contracts

/-!
# Contracts of the functions that read statements

Between two statements a parser has never gone back behind an attempt, and an attempt was made at
the place where it stands only if a token that was left unread waits there (`Parser.Between`).  A
statement leads from such a state to such a state.  It brings the parser on, or it is empty and one
of the few attempts that are allowed at one place: either way the `Parser.rank` sinks.  So the loop
over the statements of a block ends before its budget does, and the guard against attempts that lead
nowhere trips only in front of a token that was left unread (`Parser.Tripped`).

As with expressions, each contract is about two parsers, the second of which has more budget for its
loops.  The parts of a statement that hold no statements note no attempts and have the contracts of
expressions.
-/

namespace ScriptEngine

open TokenStream

/-! ## Between statements -/

namespace Parser

variable {text : List Char} {noted : List Nat} {q q' r r' : Nat} {p p' : Parser Lexer} {t : Token}
  {e : ScriptError} {deep deep' : Prop}

lemma lead_eq_zero (ahead : ∀ a ∈ noted, a < q) : lead q noted = 0 := by
  rw [lead, List.length_eq_zero_iff, List.takeWhile_eq_nil_iff]
  intro pos same
  exact (ahead _ (List.getElem_mem pos)).ne (of_decide_eq_true same)

/-- All the attempts were made in front of a place, one after the other and few at each. -/
structure Settled (noted : List Nat) (q : Nat) : Prop where
  sorted : noted.Pairwise (· ≥ ·)
  paced : Paced q noted
  behind : ∀ a ∈ noted, a < q

lemma Settled.mono (h : Settled noted q) (le : q ≤ q') : Settled noted q' :=
  ⟨h.sorted, h.paced.onward le, fun a mem => (h.behind a mem).trans_le le⟩

lemma settled_succ (sorted : noted.Pairwise (· ≥ ·)) (paced : Paced q noted) :
    Settled noted (q + 1) :=
  ⟨sorted, paced.onward (Nat.le_succ q), fun a mem => Nat.lt_succ_of_le (paced.behind a mem)⟩

/-- The parser stands between two statements and has at most `r` left to read. -/
structure Between (text : List Char) (r : Nat) (p : Parser Lexer) : Prop where
  sound : p.tokens.Sound text
  left : p.tokens.left ≤ r
  sorted : p.attempts.Pairwise (· ≥ ·)
  paced : Paced p.tokens.position p.attempts
  /-- Where an attempt has been made, a token that it left unread is waiting. -/
  fresh : (∀ a ∈ p.attempts, a < p.tokens.position) ∨ ∃ t ∈ p.tokens.pending, t.kind.isLeftUnread

/-- More statements than can be attempted from here on. -/
def rank (p : Parser Lexer) : Nat :=
  (attemptLimit + 1) * p.tokens.left + (attemptLimit - lead p.tokens.position p.attempts)

lemma rank_le (p : Parser Lexer) :
    p.rank ≤ (attemptLimit + 1) * p.tokens.left + attemptLimit :=
  Nat.add_le_add_left (Nat.sub_le _ _) _

lemma rank_lt_of_left_lt (less : p'.tokens.left < p.tokens.left) : p'.rank < p.rank := by
  have := p'.rank_le
  simp only [rank, attemptLimit] at *
  omega

lemma rank_lt_budget (p : Parser Lexer) : p.rank < p.budget := by
  have := p.rank_le
  have := p.tokens.left_le_remaining
  simp only [budget, attemptLimit] at *
  omega

lemma between_ofScript (script : String) :
    (ofStream (Lexer.ofScript script)).Between script.toList script.toList.length :=
  ⟨Lexer.sound_ofScript script, by simp [ofStream, Lexer.ofScript, Lexer.left], .nil, .nil _,
    .inl (by simp [ofStream])⟩

lemma Between.mono (h : p.Between text r) (le : r ≤ r') : p.Between text r' :=
  { h with left := h.left.trans le }

lemma Between.amid (h : p.Between text r) : p.Amid text p.attempts p.tokens.position r :=
  ⟨h.sound, rfl, Nat.le_refl _, h.left⟩

lemma Amid.between (h : p.Amid text noted q r) (settled : Settled noted q) :
    p.Between text r := by
  obtain ⟨sound, rfl, onward, left⟩ := h
  have settled := settled.mono onward
  exact ⟨sound, left, settled.sorted, settled.paced, .inl settled.behind⟩

/-- The token behind newlines was read and handed back. -/
lemma Between.returned (h : p.Between text r) (reached : p.Reached text t p') :
    Between text r { p' with tokens := p'.tokens.pushBack t } ∧
      rank { p' with tokens := p'.tokens.pushBack t } ≤ p.rank := by
  obtain ⟨attempts, step⟩ := reached
  have position : (p'.tokens.pushBack t).position = t.span.start := rfl
  refine ⟨⟨step.returned, step.returned_left_le.trans h.left, attempts ▸ h.sorted, ?_, ?_⟩, ?_⟩
  · rw [attempts]
    exact h.paced.onward step.start
  · rcases h.fresh with ahead | ⟨u, given, unread⟩
    · refine .inl fun a mem => ?_
      exact (ahead a (attempts ▸ mem)).trans_le step.start
    · refine .inr ⟨t, rfl, ?_⟩
      rwa [step.given u given (by rintro newline; simp [newline, TokenKind.isLeftUnread] at unread)]
  · by_cases here : t.span.start = p.tokens.position
    · rw [rank, attempts, position, here]
      exact Nat.add_le_add_right (Nat.mul_le_mul_left _ step.returned_left_le) _
    · exact (rank_lt_of_left_lt (step.gap_left here)).le

/-- The token behind newlines was read for good. -/
lemma Between.consumed (h : p.Between text r) (reached : p.Reached text t p')
    (proper : t.kind ≠ .endOfInput) :
    p'.Past text p.attempts p.tokens.position r ∧ Settled p.attempts (p.tokens.position + 1) :=
  ⟨(reached.looked h.amid).proper proper, settled_succ h.sorted h.paced⟩

/-- The guard has tripped: all the attempts that are allowed at one place have been made in front of
a token that is left unread, and this is the place. -/
structure Tripped (text : List Char) (e : ScriptError) (p : Parser Lexer) : Prop where
  span : e.span = .single p.tokens.position p.tokens.line
  full : lead p.tokens.position p.attempts = attemptLimit
  unread : ∃ t ∈ p.tokens.pending, t.kind.isLeftUnread
  stops : StopsAt text p.tokens.position

lemma Between.tripped (h : p.Between text r)
    (stalled : stalledAt p.tokens.position p.attempts = true) :
    p.Tripped text ⟨.grammar .stalled, .single p.tokens.position p.tokens.line⟩ := by
  have full := stalledAt_iff.1 stalled
  rcases h.fresh with ahead | ⟨t, pending, unread⟩
  · simp [lead_eq_zero ahead, attemptLimit] at full
  · refine ⟨rfl, Nat.le_antisymm h.paced.here full, ⟨t, pending, unread⟩, ?_⟩
    have position : p.tokens.position = t.span.start := by
      rw [Lexer.position, Option.mem_def.1 pending]
    exact position ▸ (h.sound.stands t pending).stopsAt unread

/-- An attempt at a statement has been noted. -/
structure Begun (text : List Char) (r : Nat) (p₀ p : Parser Lexer) : Prop where
  between : p₀.Between text r
  goes_on : stalledAt p₀.tokens.position p₀.attempts = false
  noted : p = { p₀ with attempts := p₀.tokens.position :: p₀.attempts }

namespace Begun

variable {p₀ : Parser Lexer} (h : Begun text r p₀ p)
include h

lemma left_le : p.tokens.left ≤ r := by
  obtain ⟨between, -, rfl⟩ := h
  exact between.left

lemma amid : p.Amid text p.attempts p.tokens.position p.tokens.left := by
  obtain ⟨between, -, rfl⟩ := h
  exact ⟨between.sound, rfl, Nat.le_refl _, Nat.le_refl _⟩

lemma sorted : p.attempts.Pairwise (· ≥ ·) := by
  obtain ⟨between, -, rfl⟩ := h
  exact .cons between.paced.behind between.sorted

lemma paced : Paced p.tokens.position p.attempts := by
  obtain ⟨between, goes_on, rfl⟩ := h
  exact between.paced.attempt goes_on

lemma settled : Settled p.attempts (p.tokens.position + 1) :=
  settled_succ h.sorted h.paced

/-- A statement that read something. -/
lemma sunk (pos : 0 < p.tokens.left) (between' : p'.Between text (p.tokens.left - 1)) :
    p'.Between text r ∧ p'.rank < p₀.rank := by
  have := h.left_le
  have less := between'.left
  refine ⟨between'.mono (by omega), rank_lt_of_left_lt ?_⟩
  obtain ⟨-, -, rfl⟩ := h
  exact Nat.lt_of_le_pred pos less

/-- A statement that left its first token unread. -/
lemma unread (reached : p.Reached text t p') (unread : t.kind.isLeftUnread) :
    Between text r { p' with tokens := p'.tokens.pushBack t } ∧
      rank { p' with tokens := p'.tokens.pushBack t } < p₀.rank := by
  obtain ⟨attempts, step⟩ := reached
  have left := step.returned_left_le
  refine ⟨⟨step.returned, left.trans h.left_le, attempts ▸ h.sorted, ?_, .inr ⟨t, rfl, unread⟩⟩, ?_⟩
  · rw [attempts]
    exact h.paced.onward step.start
  · obtain ⟨between, goes_on, rfl⟩ := h
    by_cases here : t.span.start = p₀.tokens.position
    · have room : lead p₀.tokens.position p₀.attempts < attemptLimit := by
        rw [← Nat.not_le, ← stalledAt_iff, goes_on]
        exact Bool.false_ne_true
      have more : lead p₀.tokens.position p'.attempts = lead p₀.tokens.position p₀.attempts + 1 := by
        simp [attempts, lead]
      have := Nat.mul_le_mul_left (attemptLimit + 1) left
      change (attemptLimit + 1) * (p'.tokens.pushBack t).left +
        (attemptLimit - lead t.span.start p'.attempts) < p₀.rank
      rw [here, more, rank]
      simp only at this
      omega
    · exact rank_lt_of_left_lt (step.gap_left here)

end Begun

/-- How reading statements fails: the attempts have gone forward all the same, the guard trips only
where it should, and room is lacking only if `deep` holds. -/
structure Halted (text : List Char) (deep : Prop) (e : ScriptError) (p : Parser Lexer) : Prop where
  sorted : p.attempts.Pairwise (· ≥ ·)
  stalled : e.fault = .grammar .stalled → p.Tripped text e
  room : e.fault = .grammar .tooDeep → deep

lemma Halted.mono (h : p.Halted text deep e) (imp : deep → deep') : p.Halted text deep' e :=
  ⟨h.sorted, h.stalled, imp ∘ h.room⟩

end Parser

lemma Orderly.halted {text : List Char} {noted : List Nat} {deep : Prop} {e : ScriptError}
    {p : Parser Lexer} (h : Orderly noted deep e p) (sorted : noted.Pairwise (· ≥ ·)) :
    p.Halted text deep e :=
  ⟨h.attempts ▸ sorted, fun stalled => absurd stalled h.unstalled, h.room⟩

namespace Parse

variable {α : Type} {more : Nat} {text : List Char} {noted : List Nat} {deep deep' : Prop}
  {q r s w : Nat} {p : Parser Lexer} {t : Token}

open ScriptEngine.Parser (Amid Past Looked Reached Between Settled Begun Halted)

namespace Meets

variable {x : Parse Lexer α} {y : Parse Generous α} {post : α → Parser Lexer → Prop}
  {pre : Parser Lexer → Prop} {err : ScriptError → Parser Lexer → Prop}

/-- A part of a statement that holds no statements fails as a statement does. -/
lemma halts (sorted : noted.Pairwise (· ≥ ·)) (meets : Meets more pre x y post (Orderly noted deep))
    (imp : deep → deep') : Meets more pre x y post fun e p => p.Halted text deep' e :=
  meets.mono (fun _ _ h => h) fun _ _ h => (h.mono imp).halted sorted

lemma skipNewlinesWithin (c : TokenContext) {budget budget' : Nat}
    (sound : p.tokens.Sound text) (enough : p.tokens.left < budget)
    (enough' : p.tokens.left < budget') :
    Meets more (· = p) (skipNewlinesWithin c budget) (Parse.skipNewlinesWithin c budget')
      (p.Reached text) (Orderly p.attempts deep) := by
  induction budget generalizing budget' p with
  | zero => exact absurd enough (Nat.not_lt_zero _)
  | succ budget ih =>
    obtain ⟨budget', rfl⟩ := Nat.exists_eq_succ_of_ne_zero (Nat.ne_zero_of_lt enough')
    refine (Meets.reach c sound).bind fun t => ?_
    split
    · next newline =>
      refine .pointwise fun p₁ ⟨attempts, step⟩ => ?_
      have less := (step.proper (by simp [newline])).1
      rw [← attempts]
      refine (ih step.sound (by omega) (by omega)).post_mono fun u p₂ reached => ?_
      exact ⟨reached.attempts.trans attempts, step.trans newline reached.next⟩
    · exact .pure fun _ h => h

lemma skipNewlines (c : TokenContext) (sound : p.tokens.Sound text) :
    Meets more (· = p) (skipNewlines c) (Parse.skipNewlines c) (p.Reached text)
      (Orderly p.attempts deep) := by
  refine .get_bind fun p' here => ?_
  obtain rfl : p' = p := here
  have enough := p'.left_lt_budget
  exact .skipNewlinesWithin c sound enough (enough.trans_le (p'.budget_le_generous more))

/-- Newlines between statements are skipped, and the token behind them is read. -/
lemma upToToken (h : p.Between text r) :
    Meets more (· = p) (Parse.skipNewlines .statement) (Parse.skipNewlines .statement)
      (p.Reached text) fun e p' => p'.Halted text deep e :=
  (skipNewlines .statement h.sound).halts h.sorted False.elim

/-- The token is handed back. -/
lemma returned (h : p.Between text r)
    (rest : Meets more (fun p' => p'.Between text r ∧ p'.rank ≤ p.rank) x y post err) :
    Meets more (p.Reached text t) (do pushBack t; x) (do pushBack t; y) post err :=
  fun _ reached => rest _ (h.returned reached)

/-- An attempt is noted, or the guard trips. -/
lemma attempt (h : p.Between text r) :
    Meets more (· = p) attempt Parse.attempt (fun _ => Begun text r p)
      fun e p' => p'.Halted text deep e := by
  refine .get_bind fun p' here => ?_
  obtain rfl : p' = p := here
  change Meets more _ (if Parser.stalledAt p'.tokens.position p'.attempts = true then _ else _)
    (if Parser.stalledAt p'.tokens.position p'.attempts = true then _ else _) _ _
  split
  · next stalled =>
    refine .failHere fun p₁ here => ?_
    obtain rfl : p₁ = p' := here
    exact ⟨h.sorted, fun _ => h.tripped stalled, by simp⟩
  · next goes_on =>
    rintro _ -
    exact ⟨rfl, h, by simpa using goes_on, rfl⟩

/-- What is done behind the first token of a statement brings the parser on. -/
lemma behind {p₀ : Parser Lexer} (begun : Begun text r p₀ p) (proper : t.kind ≠ .endOfInput)
    (rest : 0 < p.tokens.left → Meets more
      (Amid text p.attempts (p.tokens.position + 1) (p.tokens.left - 1)) x y
      (fun _ => Between text (p.tokens.left - 1)) err) :
    Meets more (p.Reached text t) x y (fun _ p' => p'.Between text r ∧ p'.rank < p₀.rank) err := by
  refine .pointwise fun p' reached => ?_
  obtain ⟨pos, amid⟩ := (reached.looked begun.amid).proper proper
  refine (rest pos).conseq (fun p₁ here => ?_) fun _ _ between => begun.sunk pos between
  obtain rfl : p₁ = p' := here
  exact amid

end Meets

/-! ## Parts of statements that hold no statements -/

lemma terminator_meets (after : Terminated) :
    Meets more (Amid text noted q s) (terminator after) (terminator after)
      (fun _ => Amid text noted q s) (Orderly noted deep) := by
  refine (Meets.next .expression).bind fun t => ?_
  split
  · exact .pure fun _ h => h.amid
  · exact .pure fun _ h => h.amid
  · exact .handedBack (.pure fun _ h => h)
  · exact .handedBack (.pure fun _ h => h)
  · exact .refuse (fun _ h => h.amid.attempts) (by simp)

section

variable {room : Nat} {x : Parse Lexer Expr} {y : Parse Generous Expr}
  (inner : MeetsExpressions more room x y)
include inner

/-- An expression inside a statement. -/
lemma MeetsExpressions.inStatement (le : s ≤ r) :
    Meets more (Amid text noted q s) x y (fun _ => Past text noted q s)
      (Orderly noted (room ≤ r)) :=
  (inner text noted q s).mono (fun _ _ h => h) fun _ _ e => e.mono fun full => full.trans le

lemma declarator_meets (le : s ≤ r) :
    Meets more (Amid text noted q s) (declarator x) (declarator y) (fun _ => Past text noted q s)
      (Orderly noted (room ≤ r)) := by
  refine (Meets.next .expression).bind fun name => ?_
  split
  · next kind =>
    refine .consumed (by simp [kind]) (.past fun _ => ?_)
    refine (Meets.next .expression).bind fun t => ?_
    split
    · next assign =>
      refine .consumed (by simp [assign]) (Meets.past fun _ => ?_).stays
      refine (inner.inStatement (by omega)).bind fun value => .pure fun _ h => h.amid
    · exact .handedBack (.pure fun _ h => h)
  · exact .refuse (fun _ h => h.amid.attempts) (by simp)

lemma declaratorsWithin_meets (le : s ≤ r) {budget budget' : Nat} (enough : s < budget)
    (enough' : s < budget') (before : List Declarator) :
    Meets more (Amid text noted q s) (declaratorsWithin x budget before)
      (declaratorsWithin y budget' before) (fun _ => Amid text noted q s)
      (Orderly noted (room ≤ r)) := by
  induction budget generalizing budget' before q s with
  | zero => exact absurd enough (Nat.not_lt_zero s)
  | succ budget ih =>
    obtain ⟨budget', rfl⟩ := Nat.exists_eq_succ_of_ne_zero (Nat.ne_zero_of_lt enough')
    refine (declarator_meets inner le).bind fun one => (Meets.past fun _ => ?_).stays
    refine (Meets.next .expression).bind fun t => ?_
    split
    · next comma =>
      refine .consumed (by simp [comma]) (Meets.past fun _ => ?_).stays
      exact ih (by omega) (by omega) (by omega) (one :: before)
    · exact .handedBack (.pure fun _ h => h)

lemma declaration_meets (le : s ≤ r) (start : Span) :
    Meets more (Amid text noted q s) (declaration x start) (declaration y start)
      (fun _ => Amid text noted q s) (Orderly noted (room ≤ r)) := by
  refine .get fun p s' le' enough enough' => ?_
  refine (declaratorsWithin_meets inner (le'.trans le) enough enough' []).bind fun ds => ?_
  exact .pure fun _ h => h.mono (Nat.le_refl _) le'

lemma loopStart_meets (le : s ≤ r) :
    Meets more (Amid text noted q s) (loopStart x) (loopStart y) (fun _ => Amid text noted q s)
      (Orderly noted (room ≤ r)) := by
  refine (Meets.next .statement).bind fun t => ?_
  split
  · exact .handedBack (.pure fun _ h => h)
  · next var =>
    refine .consumed (by simp [var]) (Meets.past fun _ => ?_).stays
    exact (declaration_meets inner (by omega) t.span).bind fun ⟨_, _⟩ => .pure fun _ h => h
  · refine .handedBack ?_
    exact (inner.inStatement le).bind fun e => .pure fun _ h => h.amid

lemma optionalExpression_meets (le : s ≤ r) (closer : TokenKind) :
    Meets more (Amid text noted q s) (optionalExpression x closer) (optionalExpression y closer)
      (fun _ => Amid text noted q s) (Orderly noted (room ≤ r)) := by
  refine Meets.peekKind.bind fun kind => ?_
  split
  · exact .pure fun _ h => h
  · exact (inner.inStatement le).bind fun e => .pure fun _ h => h.amid

lemma giveBack_meets (le : s ≤ r) (start : Span) :
    Meets more (Amid text noted q s) (giveBack x start) (giveBack y start)
      (fun _ => Amid text noted q s) (Orderly noted (room ≤ r)) := by
  refine Meets.peekKind.bind fun kind => ?_
  split
  · exact (terminator_meets .giveBack).bind fun _ => .pure fun _ h => h
  · refine (inner.inStatement le).stays.bind fun e => ?_
    exact (terminator_meets .giveBack).bind fun _ => .pure fun _ h => h

lemma expressionStatement_meets (le : s ≤ r) :
    Meets more (Amid text noted q s) (expressionStatement x) (expressionStatement y)
      (fun _ => Past text noted q s) (Orderly noted (room ≤ r)) := by
  refine (inner.inStatement le).bind fun e => .past fun _ => ?_
  exact (terminator_meets .expression).bind fun _ => .pure fun _ h => h

end

/-! ## Statements -/

/-- The reader reads statements, each of which makes the rank sink. -/
def MeetsStatements (more room : Nat) (x : Parse Lexer Stmt) (y : Parse Generous Stmt) : Prop :=
  ∀ text r w, Meets more (fun p => p.Between text r ∧ p.rank ≤ w) x y
    (fun _ p => p.Between text r ∧ p.rank < w) fun e p => p.Halted text (room ≤ r + 1) e

section

variable {room : Nat} {x : Parse Lexer Stmt} {y : Parse Generous Stmt}
  (statements : MeetsStatements more room x y)
include statements

lemma MeetsStatements.stepping (less : s < r) (w : Nat) :
    Meets more (fun p => p.Between text s ∧ p.rank ≤ w) x y
      (fun _ p => p.Between text s ∧ p.rank < w) fun e p => p.Halted text (room ≤ r) e :=
  (statements text s w).mono (fun _ _ h => h) fun _ _ h => h.mono fun full => by omega

/-- A statement inside another. -/
lemma MeetsStatements.within (less : s < r) :
    Meets more (Between text s) x y (fun _ => Between text s)
      fun e p => p.Halted text (room ≤ r) e := by
  refine .pointwise fun p between => ?_
  refine (statements.stepping less p.rank).conseq (fun p' here => ?_) fun _ _ h => h.1
  obtain rfl : p' = p := here
  exact ⟨between, Nat.le_refl _⟩

lemma blockWithin_meets (less : s < r) (start : Span) {budget budget' : Nat} (enough : w < budget)
    (enough' : w < budget') (before : List Stmt) :
    Meets more (fun p => p.Between text s ∧ p.rank ≤ w) (blockWithin x start budget before)
      (blockWithin y start budget' before) (fun _ => Between text s)
      fun e p => p.Halted text (room ≤ r) e := by
  induction budget generalizing budget' before w with
  | zero => exact absurd enough (Nat.not_lt_zero w)
  | succ budget ih =>
    obtain ⟨budget', rfl⟩ := Nat.exists_eq_succ_of_ne_zero (Nat.ne_zero_of_lt enough')
    refine .pointwise fun p ⟨between, rank_le⟩ => ?_
    refine (Meets.upToToken between).bind fun t => ?_
    split
    · next close =>
      refine .pure fun p' reached => ?_
      obtain ⟨past, settled⟩ := between.consumed reached (by simp [close])
      exact (past.2.between settled).mono (Nat.sub_le s 1)
    · exact .fail fun p' reached => ⟨reached.attempts ▸ between.sorted, by simp, by simp⟩
    · refine .returned between ?_
      refine (statements.stepping less p.rank).bind fun one => ?_
      refine .pointwise fun p' ⟨between', sunk⟩ => ?_
      refine (ih (w := w - 1) (by omega) (by omega) (one :: before)).pre_mono fun p₁ here => ?_
      obtain rfl : p₁ = p' := here
      exact ⟨between', Nat.le_sub_one_of_lt (sunk.trans_le rank_le)⟩

/-- If no `else` follows, the parser stands where it stood. -/
lemma elseBranch_meets (less : s < r) :
    Meets more (Between text s) (elseBranch x) (elseBranch y) (fun _ => Between text s)
      fun e p => p.Halted text (room ≤ r) e := by
  refine .get_bind fun p between => ?_
  refine (Meets.upToToken between).bind fun t => ?_
  split
  · next other =>
    refine .pointwise fun p' reached => ?_
    obtain ⟨past, settled⟩ := between.consumed reached (by simp [other])
    have goes_on : Meets more (· = p') x y (fun _ => Between text s)
        fun e p => p.Halted text (room ≤ r) e :=
      (statements.within less).pre_mono fun p₁ here =>
        here ▸ (past.2.between settled).mono (Nat.sub_le s 1)
    exact goes_on.bind fun other => .pure fun _ h => h
  · intro p' reached
    have same : p'.tokens.restore p.tokens.save = p.tokens :=
      Lexer.restore_save (by rw [reached.next.sound.text_eq, between.sound.text_eq])
    have back : (⟨p'.tokens.restore p.tokens.save, p'.attempts⟩ : Parser Lexer) = p := by
      rw [same, reached.attempts]
    refine ⟨rfl, ?_⟩
    change Between text s ⟨p'.tokens.restore p.tokens.save, p'.attempts⟩
    exact back ▸ between

variable {x' : Parse Lexer Expr} {y' : Parse Generous Expr}
  (expressions : MeetsExpressions more room x' y')
include expressions

lemma choice_meets (settled : Settled noted q) (less : s < r) (start : Span) :
    Meets more (Amid text noted q s) (choice x x' start) (choice y y' start)
      (fun _ => Between text s) fun e p => p.Halted text (room ≤ r) e := by
  have sorted := settled.sorted
  refine ((Meets.expect .ifOpen).stays.halts sorted False.elim).bind fun _ => ?_
  refine ((expressions.inStatement less.le).stays.halts sorted id).bind fun condition => ?_
  refine ((Meets.expect .ifClose).stays.halts sorted False.elim).bind fun _ => ?_
  refine ((statements.within less).pre_mono fun _ h => h.between settled).bind fun thenBranch => ?_
  refine (elseBranch_meets statements less).bind fun other => ?_
  cases other with
  | none => exact .pure fun _ h => h
  | some other => exact .pure fun _ h => h

lemma loop_meets (settled : Settled noted q) (less : s < r) (start : Span) :
    Meets more (Amid text noted q s) (loop x x' start) (loop y y' start)
      (fun _ => Between text s) fun e p => p.Halted text (room ≤ r) e := by
  have sorted := settled.sorted
  refine ((Meets.expect .forOpen).stays.halts sorted False.elim).bind fun _ => ?_
  refine ((loopStart_meets expressions less.le).halts sorted id).bind fun first => ?_
  refine ((Meets.expect .initializerEnd).stays.halts sorted False.elim).bind fun _ => ?_
  refine ((optionalExpression_meets expressions less.le _).halts sorted id).bind fun condition => ?_
  refine ((Meets.expect .conditionEnd).stays.halts sorted False.elim).bind fun _ => ?_
  refine ((optionalExpression_meets expressions less.le _).halts sorted id).bind fun increment => ?_
  refine ((Meets.expect .forClose).stays.halts sorted False.elim).bind fun _ => ?_
  refine ((statements.within less).pre_mono fun _ h => h.between settled).bind fun body => ?_
  exact .pure fun _ h => h

lemma statementBody_meets :
    MeetsStatements more (room + 1) (statementBody x x') (statementBody y y') := by
  intro text r w
  refine .pointwise fun p₀ ⟨between, rank_le⟩ => ?_
  -- With the parser at the start fixed, it is enough that its rank sinks: `rank_le` then carries
  -- that over to the rank allowed.
  suffices sinks : Meets more (· = p₀) (statementBody x x') (statementBody y y')
      (fun _ p => p.Between text r ∧ p.rank < p₀.rank) fun e p => p.Halted text (room ≤ r) e from
    sinks.mono (fun _ _ h => ⟨h.1, h.2.trans_le rank_le⟩) fun _ _ h => h.mono Nat.succ_le_succ
  refine (Meets.attempt between).bind fun _ => .pointwise fun p₁ begun => ?_
  have amid := begun.amid
  have settled := begun.settled
  have le : p₁.tokens.left ≤ r := begun.left_le
  refine ((Meets.skipNewlines .statement amid.sound).halts settled.sorted False.elim).bind
    fun t => ?_
  split
  · next semicolon =>
    refine .behind begun (by simp [semicolon]) fun pos => ?_
    exact .pure fun _ h => h.between settled
  · next leftBrace =>
    refine .behind begun (by simp [leftBrace]) fun pos => .get_bind fun p amid => ?_
    have enough := p.rank_lt_budget
    refine (blockWithin_meets statements (by omega) t.span enough
      (enough.trans_le (p.budget_le_generous more)) []).pre_mono fun p' here => ?_
    obtain rfl : p' = p := here
    exact ⟨amid.between settled, Nat.le_refl _⟩
  · next ifWord =>
    refine .behind begun (by simp [ifWord]) fun pos => ?_
    exact choice_meets statements expressions settled (by omega) t.span
  · next forWord =>
    refine .behind begun (by simp [forWord]) fun pos => ?_
    exact loop_meets statements expressions settled (by omega) t.span
  · next varWord =>
    refine .behind begun (by simp [varWord]) fun pos => ?_
    refine ((declaration_meets expressions (by omega) t.span).halts settled.sorted id).bind
      fun ⟨declarators, span⟩ => ?_
    refine ((terminator_meets .declaration).halts settled.sorted False.elim).bind fun _ => ?_
    exact .pure fun _ h => h.between settled
  · next returnWord =>
    refine .behind begun (by simp [returnWord]) fun pos => ?_
    exact ((giveBack_meets expressions (by omega) t.span).halts settled.sorted id).post_mono
      fun _ _ h => h.between settled
  · next comma => exact fun p reached => ⟨rfl, begun.unread reached (by simp [comma, TokenKind.isLeftUnread])⟩
  · next rightBrace => exact fun p reached => ⟨rfl, begun.unread reached (by simp [rightBrace, TokenKind.isLeftUnread])⟩
  · next elseWord => exact fun p reached => ⟨rfl, begun.unread reached (by simp [elseWord, TokenKind.isLeftUnread])⟩
  · exact .fail fun p reached => ⟨reached.attempts ▸ settled.sorted, by simp, by simp⟩
  · exact .fail fun p reached => ⟨reached.attempts ▸ settled.sorted, by simp, by simp⟩
  · refine Meets.pre_mono (.handedBack ?_) fun p reached => reached.looked amid
    refine ((expressionStatement_meets expressions le).halts settled.sorted id).post_mono
      fun _ p past => begun.sunk past.1 (past.2.between settled)

end

lemma statement_meets (room : Nat) :
    MeetsStatements more room (statement room) (statement room) := by
  induction room with
  | zero =>
    exact fun text r w => .failHere fun p h => ⟨h.1.sorted, by simp, fun _ => Nat.zero_le _⟩
  | succ room ih => exact statementBody_meets ih (expression_meets room)

/-- One call that reads a top-level statement, or finds the end of the input. -/
theorem topLevel_meets (more room : Nat) (between : p.Between text r) :
    Meets more (· = p) (topLevel room) (topLevel room)
      (fun found p' => p'.attempts.Pairwise (· ≥ ·) ∧
        (found.isSome → p'.Between text r ∧ p'.rank < p.rank))
      fun e p' => p'.Halted text (room ≤ r + 1) e := by
  refine (Meets.upToToken between).bind fun t => ?_
  split
  · exact .pure fun _ reached => ⟨reached.attempts ▸ between.sorted, by simp⟩
  · refine .returned between ?_
    refine (statement_meets room text r p.rank).bind fun s => .pure fun _ h => ?_
    exact ⟨h.1.sorted, fun _ => h⟩

end Parse
end ScriptEngine
