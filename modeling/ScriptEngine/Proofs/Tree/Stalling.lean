import ScriptEngine.Proofs.Tree.Spacing

/-!
# Making no headway in a text with blanks put in

A parser of a text fails because it makes no headway.  Then so does a parser of the text with blanks put
in, though it may make a few attempts more (`Parse.topLevel_stalls`): the parsers stand in front of the
same token, which statements leave unread, and in a block one attempt follows the other until too many
have been made.

Only a block can go on with a statement where another one has just been attempted.  A statement behind an
`if`, an `else` or a `for` begins behind a token that has been read for good, and at the top level what
has been read is returned in between; there the second parser returns as many more empty statements as
it makes attempts.
-/

namespace ScriptEngine

open TokenStream

namespace Pairing

variable {σ τ α β : Type} {P : Pairing σ τ}

/-- If the first step fails because it makes no headway, the second fails in the same way. -/
def StallsToo (P : Pairing σ τ) (r : EStateM.Result ScriptError (Parser σ) α)
    (r' : EStateM.Result ScriptError (Parser τ) β) : Prop :=
  ∀ e p', r = .error e p' → e.fault = .grammar .stalled →
    ∃ e' q', r' = .error e' q' ∧ P.SameError e e'

namespace StallsToo

variable {γ δ : Type} {p : Parser σ} {q : Parser τ} {x : Parse σ α} {y : Parse τ β}
  {f : α → Parse σ γ} {g : β → Parse τ δ}

/-- A step that fails for other reasons, if at all. -/
lemma of_never {r : EStateM.Result ScriptError (Parser σ) α}
    {r' : EStateM.Result ScriptError (Parser τ) β}
    (never : ∀ e p', r = .error e p' → e.fault ≠ .grammar .stalled) : P.StallsToo r r' :=
  fun e p' run stalled => absurd stalled (never e p' run)

/-- What follows the first of the steps is compared with all of the others. -/
lemma after (stalls : P.StallsToo (x p) (y q))
    (rest : ∀ a p₁, x p = .ok a p₁ → P.StallsToo (f a p₁) ((y >>= g) q)) :
    P.StallsToo ((x >>= f) p) ((y >>= g) q) := by
  intro e p' run stalled
  cases run₁ : x p with
  | ok a p₁ =>
    rw [Parse.bind_of_ok run₁] at run
    exact rest a p₁ run₁ e p' run stalled
  | error e₁ p₁ =>
    rw [Parse.bind_of_error run₁] at run
    cases run
    obtain ⟨e', q', run', same⟩ := stalls e p' run₁ stalled
    exact ⟨e', q', Parse.bind_of_error run' g, same⟩

lemma bind {post : α → β → Parser σ → Parser τ → Prop} (first : P.Ends post (x p) (y q))
    (stalls : P.StallsToo (x p) (y q))
    (rest : ∀ a b p₁ q₁, x p = .ok a p₁ → post a b p₁ q₁ → P.StallsToo (f a p₁) (g b q₁)) :
    P.StallsToo ((x >>= f) p) ((y >>= g) q) := by
  refine stalls.after fun a p₁ run => ?_
  rw [run] at first
  obtain ⟨b, q₁, run', holds⟩ := first
  rw [Parse.bind_of_ok run']
  exact rest a b p₁ q₁ run holds

/-- What follows never fails. -/
lemma bind_last (stalls : P.StallsToo (x p) (y q))
    (succeeds : ∀ a p₁ e p', f a p₁ ≠ .error e p') : P.StallsToo ((x >>= f) p) ((y >>= g) q) :=
  stalls.after fun a p₁ _ => of_never fun e p' failed => absurd failed (succeeds a p₁ e p')

/-- Tokens are handed back first. -/
lemma handedBack [TokenStream σ] [TokenStream τ] {t u : Token}
    (rest : P.StallsToo (x { p with tokens := pushBack t p.tokens })
      (y { q with tokens := pushBack u q.tokens })) :
    P.StallsToo ((do Parse.pushBack t; x) p) ((do Parse.pushBack u; y) q) :=
  rest

end StallsToo

/-! ## Steps that hold no statements -/

namespace StallsToo

open Parse (Meets)

variable {γ δ : Type} {P : Pairing Lexer Lexer} {noted : List Nat} {deep : Prop} {p q : Parser Lexer}
  {pre : Parser Lexer → Prop} {post : α → Parser Lexer → Prop} {x : Parse Lexer α}
  {y : Parse Lexer β} {z : Parse Generous α} {f : α → Parse Lexer γ} {g : β → Parse Lexer δ}

lemma of_orderly {r : EStateM.Result ScriptError (Parser Lexer) β}
    (meets : Meets 0 pre x z post (Orderly noted deep)) (holds : pre p) : P.StallsToo (x p) r :=
  of_never fun _ _ run => (meets.of_error holds run).unstalled

lemma bind_orderly {same : α → β → Prop} (meets : Meets 0 pre x z post (Orderly noted deep))
    (holds : pre p) (first : P.Ends (P.Both same) (x p) (y q))
    (rest : ∀ a b p₁ q₁, post a p₁ → P.aligned p₁ q₁ → P.StallsToo (f a p₁) (g b q₁)) :
    P.StallsToo ((x >>= f) p) ((y >>= g) q) :=
  .bind first (of_orderly meets holds) fun a b p₁ q₁ run both =>
    rest a b p₁ q₁ (meets.of_ok holds run) both.2

end StallsToo
end Pairing

namespace Parser

variable {text : List Char} {noted : List Nat} {q r : Nat} {p : Parser Lexer}

/-- Where no attempt was made yet, one may be made. -/
lemma moving_of_ahead {position : Nat} (ahead : ∀ a ∈ noted, a < position) :
    stalledAt position noted = false := by
  rw [← Bool.not_eq_true, stalledAt_iff, lead_eq_zero ahead]
  decide

lemma Amid.moving (h : p.Amid text noted q r) (settled : Settled noted q) :
    stalledAt p.tokens.position p.attempts = false := by
  rw [h.attempts]
  exact moving_of_ahead (settled.mono h.onward).behind

end Parser

/-! ## Statements -/

namespace Parse

open Pairing (spread spread_lawful statement_spread skipNewlines_spread StallsToo)
open ScriptEngine.Parser (Amid Between Settled Begun)

variable {x : Spacing} {text : List Char} {noted : List Nat} {room r : Nat} {p q : Parser Lexer}
  {start start' : Span}

lemma statement_between {one : Stmt} {p' : Parser Lexer} (between : p.Between text r)
    (run : statement room p = .ok one p') : p'.Between text r ∧ p'.rank < p.rank := by
  have meets : MeetsStatements 0 room (statement room) (statement room) := statement_meets room
  exact (meets text r p.rank).of_ok ⟨between, Nat.le_refl _⟩ run

/-- A statement that makes no headway, though an attempt at it could be made. -/
def StatementStalls (x : Spacing) (room : Nat) : Prop :=
  ∀ text r p q, (spread x).aligned p q → p.Between text r →
    Parser.stalledAt p.tokens.position p.attempts = false →
    (spread x).StallsToo (statement room p) (statement room q)

lemma statement_refused (room : Nat)
    (full : ¬ Parser.lead q.tokens.position q.attempts < attemptLimit) :
    statement (room + 1) q =
      .error ⟨.grammar .stalled, .single q.tokens.position q.tokens.line⟩ q := by
  have refused := attempt_eq q
  rw [if_neg full] at refused
  exact bind_of_error refused _

section

variable {t : Token} (pending : q.tokens.pending = some t) (unread : t.kind.isLeftUnread)
  (noBrace : t.kind ≠ .rightBrace)
include pending unread noBrace

/-- In front of a token that is left unread the block goes on with a statement. -/
lemma blockWithin_unread (f : Parse Lexer Stmt) (start : Span) (budget : Nat)
    (before : List Stmt) :
    blockWithin f start (budget + 1) before q =
      (do let one ← f; blockWithin f start budget (one :: before) : Parse Lexer Stmt) q := by
  have proper : t.kind ≠ .newline ∧ t.kind ≠ .endOfInput := by
    constructor <;> rintro kind <;> simp [kind, TokenKind.isLeftUnread] at unread
  have returned := pushBack_of_pending pending
  rw [blockWithin, bind_of_ok (skipNewlines_of_pending pending proper.1)]
  generalize t.kind = kind at noBrace proper
  cases kind with
  | rightBrace => exact absurd rfl noBrace
  | endOfInput => exact absurd rfl proper.2
  | _ => exact bind_of_ok returned _

/-- In front of such a token a block comes to nothing, whatever the budget for its statements is. -/
lemma block_unread (room : Nat) (start : Span) (budget : Nat) (before : List Stmt) :
    ∃ q', (do
        let one ← statement (room + 1)
        blockWithin (statement (room + 1)) start budget (one :: before) : Parse Lexer Stmt) q =
      .error ⟨.grammar .stalled, .single q.tokens.position q.tokens.line⟩ q' := by
  -- Either the attempt is refused, or the next round finds the parser in front of the same token.
  induction budget generalizing q before with
  | zero =>
    by_cases allowed : Parser.lead q.tokens.position q.attempts < attemptLimit
    · rw [bind_of_ok (statement_unread pending unread room allowed)]
      exact ⟨_, rfl⟩
    · exact ⟨q, bind_of_error (statement_refused room allowed) _⟩
  | succ budget ih =>
    by_cases allowed : Parser.lead q.tokens.position q.attempts < attemptLimit
    · have again := blockWithin_unread
        (q := { q with attempts := q.tokens.position :: q.attempts }) pending unread noBrace
        (statement (room + 1)) start budget (.empty t.span :: before)
      obtain ⟨q', fails⟩ := ih
        (q := { q with attempts := q.tokens.position :: q.attempts }) pending (.empty t.span :: before)
      exact ⟨q', (bind_of_ok (statement_unread pending unread room allowed) _).trans
        (again.trans fails)⟩
    · exact ⟨q, bind_of_error (statement_refused room allowed) _⟩

end

/-! ## Parts of statements -/

lemma skipNewlines_reaches (sound : p.tokens.Sound text) :
    Meets 0 (· = p) (skipNewlines .statement) (skipNewlines .statement) (p.Reached text)
      (Orderly p.attempts False) :=
  .skipNewlines .statement sound

lemma expect_past (place : Place) {position : Nat} :
    Meets 0 (Amid text noted position r) (expect place) (expect place)
      (fun _ p => p.Past text noted position r) (Orderly noted False) :=
  .expect place

lemma terminator_amid (after : Terminated) {position : Nat} :
    Meets 0 (Amid text noted position r) (terminator after) (terminator after)
      (fun _ => Amid text noted position r) (Orderly noted False) :=
  terminator_meets after

variable (inner : StatementStalls x room)
include inner

/-- A statement that begins where none was attempted. -/
lemma StatementStalls.fresh {position : Nat} (amid : p.Amid text noted position r)
    (settled : Settled noted position) (aligned : (spread x).aligned p q) :
    (spread x).StallsToo (statement room p) (statement room q) :=
  inner text r p q aligned (amid.between settled) (amid.moving settled)

lemma elseBranch_stalls (between : p.Between text r) (aligned : (spread x).aligned p q) :
    (spread x).StallsToo (elseBranch (statement room) p) (elseBranch (statement room) q) := by
  have skips := skipNewlines_reaches between.sound
  rw [elseBranch, get_bind_apply, get_bind_apply]
  refine .bind (skipNewlines_spread aligned) (.of_orderly skips rfl) fun t u p₁ q₁ run tokens => ?_
  obtain ⟨token, aligned₁, -⟩ := tokens
  rw [← token.kind]
  split
  · next word =>
    obtain ⟨past, settled⟩ := between.consumed (skips.of_ok rfl run) (by simp [word])
    exact .bind_last (inner.fresh past.2 settled aligned₁) fun _ _ _ _ => by simp [pure_apply]
  · exact .of_never fun e p' failed => by cases failed

lemma choice_stalls {position : Nat} (settled : Settled noted position)
    (amid : p.Amid text noted position r) (aligned : (spread x).aligned p q) :
    (spread x).StallsToo (choice (statement room) (expression room) start p)
      (choice (statement room) (expression room) start' q) := by
  have lawful := spread_lawful x
  refine .bind_orderly (expect_past .ifOpen) amid (Pairing.expect_pairs lawful _ aligned)
    fun _ _ p q past aligned => ?_
  refine .bind_orderly (expression_meets room text noted position r) past.amid
    (Pairing.expression_pairs lawful room p q aligned) fun _ _ p q past aligned => ?_
  refine .bind_orderly (expect_past .ifClose) past.amid (Pairing.expect_pairs lawful _ aligned)
    fun _ _ p q past aligned => ?_
  refine .bind (statement_spread room aligned) (inner.fresh past.amid settled aligned)
    fun thenBranch _ p₁ q₁ run both => ?_
  have between := (statement_between (past.amid.between settled) run).1
  refine .bind_last (elseBranch_stalls inner between both.2) fun other p e p' => ?_
  cases other <;> simp [pure_apply]

lemma loop_stalls {position : Nat} (settled : Settled noted position)
    (amid : p.Amid text noted position r) (aligned : (spread x).aligned p q) :
    (spread x).StallsToo (loop (statement room) (expression room) start p)
      (loop (statement room) (expression room) start' q) := by
  have lawful := spread_lawful x
  have expressions := Pairing.expression_pairs lawful room
  have reads : MeetsExpressions 0 room (expression room) (expression room) := expression_meets room
  refine .bind_orderly (expect_past .forOpen) amid (Pairing.expect_pairs lawful _ aligned)
    fun _ _ p q past aligned => ?_
  refine .bind_orderly (loopStart_meets reads (Nat.le_refl r)) past.amid
    (Pairing.loopStart_pairs lawful expressions aligned) fun _ _ p q amid aligned => ?_
  refine .bind_orderly (expect_past .initializerEnd) amid (Pairing.expect_pairs lawful _ aligned)
    fun _ _ p q past aligned => ?_
  refine .bind_orderly (optionalExpression_meets reads (Nat.le_refl r) .semicolon) past.amid
    (Pairing.optionalExpression_pairs lawful expressions (by simp) (by simp) aligned)
    fun _ _ p q amid aligned => ?_
  refine .bind_orderly (expect_past .conditionEnd) amid (Pairing.expect_pairs lawful _ aligned)
    fun _ _ p q past aligned => ?_
  refine .bind_orderly (optionalExpression_meets reads (Nat.le_refl r) .rightParen) past.amid
    (Pairing.optionalExpression_pairs lawful expressions (by simp) (by simp) aligned)
    fun _ _ p q amid aligned => ?_
  refine .bind_orderly (expect_past .forClose) amid (Pairing.expect_pairs lawful _ aligned)
    fun _ _ p q past aligned => ?_
  exact .bind_last (inner.fresh past.amid settled aligned) fun _ _ _ _ => by simp [pure_apply]

omit inner in
/-- No more attempts may be made in front of the next statement of the block. -/
lemma block_refused {t u : Token} {p₁ q₁ : Parser Lexer} {budget budget' : Nat}
    {before before' : List Stmt} (between : Between text r { p₁ with tokens := p₁.tokens.pushBack t })
    (stalled : Parser.stalledAt (p₁.tokens.pushBack t).position p₁.attempts = true)
    (kind : t.kind = u.kind) (noBrace : t.kind ≠ .rightBrace)
    (aligned : (spread x).aligned { p₁ with tokens := p₁.tokens.pushBack t }
      { q₁ with tokens := q₁.tokens.pushBack u }) :
    (spread x).StallsToo
      ((do
        let one ← statement room
        blockWithin (statement room) start budget (one :: before) : Parse Lexer Stmt)
        { p₁ with tokens := p₁.tokens.pushBack t })
      ((do
        let one ← statement room
        blockWithin (statement room) start' budget' (one :: before') : Parse Lexer Stmt)
        { q₁ with tokens := q₁.tokens.pushBack u }) := by
  cases room with
  | zero => exact .of_never fun e p' failed => by cases failed; simp
  | succ room =>
    intro e p' failed _
    have refused := statement_refused room
      (q := { p₁ with tokens := p₁.tokens.pushBack t }) (Nat.not_lt.2 (Parser.stalledAt_iff.1 stalled))
    rw [bind_of_error refused] at failed
    cases failed
    obtain ⟨-, -, ⟨t', pending, unread⟩, -⟩ := between.tripped stalled
    obtain rfl := Option.some.inj pending
    obtain ⟨q', fails⟩ := block_unread (q := { q₁ with tokens := q₁.tokens.pushBack u }) rfl
      (kind ▸ unread) (kind ▸ noBrace) room start' budget' before'
    exact ⟨_, q', fails, rfl, (spread_lawful x).here trivial aligned⟩

lemma blockWithin_stalls {budget budget' : Nat} {before before' : List Stmt}
    (le : budget ≤ budget') (enough : p.rank < budget) (between : p.Between text r)
    (aligned : (spread x).aligned p q) :
    (spread x).StallsToo (blockWithin (statement room) start budget before p)
      (blockWithin (statement room) start' budget' before' q) := by
  induction budget generalizing budget' before before' p q with
  | zero => exact absurd enough (Nat.not_lt_zero _)
  | succ budget ih =>
    obtain ⟨less, rfl⟩ : ∃ less, budget' = less + 1 := ⟨budget' - 1, by omega⟩
    have skips := skipNewlines_reaches between.sound
    rw [blockWithin, blockWithin]
    refine .bind (skipNewlines_spread aligned) (.of_orderly skips rfl) fun t u p₁ q₁ run tokens => ?_
    obtain ⟨token, -, returned⟩ := tokens
    have onward (noBrace : t.kind ≠ .rightBrace) : (spread x).StallsToo
        ((do
          pushBack t
          let one ← statement room
          blockWithin (statement room) start budget (one :: before) : Parse Lexer Stmt) p₁)
        ((do
          pushBack u
          let one ← statement room
          blockWithin (statement room) start' less (one :: before') : Parse Lexer Stmt) q₁) := by
      obtain ⟨between₁, rank_le⟩ := between.returned (skips.of_ok rfl run)
      refine .handedBack ?_
      -- The guard refuses the next statement at once, or it is read and the rank sinks with it.
      cases stalled : Parser.stalledAt (p₁.tokens.pushBack t).position p₁.attempts with
      | true => exact block_refused between₁ stalled token.kind noBrace returned
      | false =>
        have first := inner text r _ _ returned between₁ stalled
        refine StallsToo.bind (statement_spread room returned) first fun one one' p q run both => ?_
        obtain ⟨between₂, sunk⟩ := statement_between between₁ run
        exact ih (by omega) (by omega) between₂ both.2
    rw [← token.kind]
    cases kind : t.kind with
    | rightBrace => exact .of_never fun e p' failed => by cases failed
    | endOfInput => exact .of_never fun e p' failed => by cases failed; simp
    | _ => exact onward (by simp [kind])

/-! ## Whole statements -/

lemma statementBody_stalls : StatementStalls x (room + 1) := by
  intro text r p q aligned between moving
  have lawful := spread_lawful x
  have expressions := Pairing.expression_pairs lawful room
  have reads : MeetsExpressions 0 room (expression room) (expression room) := expression_meets room
  have attempts : Meets 0 (· = p) attempt attempt (fun _ => Begun text r p)
    fun e p' => p'.Halted text False e := .attempt between
  -- Only statements inside others can stall behind the first token: it has been read, so the guard
  -- starts over, and everything else fails for reasons of its own.
  refine StallsToo.bind (Pairing.attempt_pairs lawful aligned) ?_ fun _ _ p₁ q₁ run both => ?_
  · refine .of_never fun e p' failed => ?_
    rw [(attempt_eq_ok (u := ())).2 ⟨moving, rfl⟩] at failed
    cases failed
  have begun := attempts.of_ok rfl run
  have amid := begun.amid
  have settled := begun.settled
  have skips := skipNewlines_reaches amid.sound
  refine .bind (skipNewlines_spread both.2) (.of_orderly skips rfl) fun t u p₂ q₂ run tokens => ?_
  obtain ⟨token, aligned₂, returned⟩ := tokens
  have looked := (skips.of_ok rfl run).looked amid
  have returning {s : Span} {s' : Span} : (spread x).StallsToo
      ((do pushBack t; return .empty s : Parse Lexer Stmt) p₂)
      ((do pushBack u; return .empty s' : Parse Lexer Stmt) q₂) :=
    .of_never fun e p' failed => by cases failed
  rw [← token.kind]
  cases kind : t.kind with
  | semicolon => exact .of_never fun e p' failed => by cases failed
  | leftBrace =>
    have past := looked.proper (by simp [kind])
    simp only [get_bind_apply]
    exact blockWithin_stalls inner (lawful.budget aligned₂).1 p₂.rank_lt_budget
      (past.2.between settled) aligned₂
  | comma | rightBrace => exact returning
  | endOfInput => exact .of_never fun e p' failed => by cases failed; simp
  | rightParen => exact .of_never fun e p' failed => by cases failed; simp
  | keyword word =>
    have past := looked.proper (by simp [kind])
    cases word with
    | ifWord => exact choice_stalls inner settled past.2 aligned₂
    | forWord => exact loop_stalls inner settled past.2 aligned₂
    | returnWord => exact .of_orderly (giveBack_meets reads (Nat.le_refl _) t.span) past.2
    | elseWord => exact returning
    | varWord =>
      refine .bind_orderly (declaration_meets reads (Nat.le_refl _) t.span) past.2
        (Pairing.declaration_pairs lawful expressions token.span aligned₂) fun d d' p q amid _ => ?_
      exact .bind_last (.of_orderly (terminator_amid .declaration) amid)
        fun _ _ _ _ => by simp [pure_apply]
  | _ =>
    exact .handedBack (.of_orderly (expressionStatement_meets reads (Nat.le_refl r))
      (looked.returned.mono (Nat.le_refl _) begun.left_le))

omit inner in
lemma statement_stalls (x : Spacing) (room : Nat) : StatementStalls x room := by
  induction room with
  | zero => exact fun _ _ _ _ _ _ _ => .of_never fun e p' failed => by cases failed; simp
  | succ room ih => exact statementBody_stalls ih

omit inner in
/-- Where no attempt was made yet. -/
lemma topLevel_stalls_fresh (room : Nat) (between : p.Between text r)
    (ahead : ∀ a ∈ p.attempts, a < p.tokens.position) (aligned : (spread x).aligned p q) :
    (spread x).StallsToo (topLevel room p) (topLevel room q) := by
  have skips := skipNewlines_reaches between.sound
  refine .bind (skipNewlines_spread aligned) (.of_orderly skips rfl) fun t u p₁ q₁ run tokens => ?_
  obtain ⟨token, -, returned⟩ := tokens
  have reached := skips.of_ok rfl run
  rw [← token.kind]
  split
  · exact .of_never fun e p' failed => by cases failed
  · have moving : Parser.stalledAt (p₁.tokens.pushBack t).position p₁.attempts = false := by
      rw [reached.attempts]
      exact Parser.moving_of_ahead fun a among => (ahead a among).trans_le reached.next.start
    have first := statement_stalls x room text r _ _ returned (between.returned reached).1 moving
    exact .handedBack (.bind_last first fun _ _ _ _ => by simp [pure_apply])

omit inner in
/-- A call fails because it makes no headway.  Then so does a call on the text with the blanks, perhaps
after others have returned empty statements. -/
theorem topLevel_stalls {e : ScriptError} {p' : Parser Lexer} (between : p.Between text r)
    (aligned : (spread x).aligned p q) (run : topLevel nestingLimit p = .error e p')
    (stalled : e.fault = .grammar .stalled) :
    ∃ k s q₁ e' q', Calls (topLevel nestingLimit) (List.replicate k (.empty s)) q q₁ ∧
      topLevel nestingLimit q₁ = .error e' q' ∧ (spread x).SameError e e' := by
  rcases between.fresh with ahead | ⟨t, pending, unread⟩
  · obtain ⟨e', q', run', same⟩ :=
      topLevel_stalls_fresh nestingLimit between ahead aligned e p' run stalled
    exact ⟨0, default, q, e', q', .none q, run', same⟩
  · obtain ⟨u, pending', rfl⟩ := Option.map_eq_some_iff.1 (aligned.1.pending.symm.trans pending)
    have call := topLevel_unread pending unread 63
    have failed := call.symm.trans run
    split at failed
    · cases failed
    · cases failed
      obtain ⟨q₁, calls, refused⟩ := calls_unread pending' unread
      exact ⟨_, u.span, q₁, _, q₁, calls, refused, rfl, (spread_lawful x).here trivial aligned⟩

end Parse
end ScriptEngine
