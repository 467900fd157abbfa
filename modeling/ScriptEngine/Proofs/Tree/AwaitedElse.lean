import ScriptEngine.Proofs.Tree.Joining

/-!
# Where an `else` is awaited

Behind a statement that may take an `else` the parser reads on, past newlines, to the next token, and
only then is it done with the statement.  If the script ends there, that is all the same.  If a second
script goes on there with a token that cannot be read, its error takes the place of the statement:
`Script.ofText_cut_short` says so of two scripts in one, of which the first ends in a statement that
may take an `else`.
-/

namespace ScriptEngine
namespace Pairing

open Parse (skipNewlines blockWithin elseBranch choice giveBack expressionStatement statementBody
  topLevel)

variable {σ τ : Type} [TokenStream σ] [TokenStream τ] {P : Pairing σ τ} {e : ScriptError}

/-- At the end of the first input the second parser comes to a token that cannot be read. -/
def Breaks (P : Pairing σ τ) (e : ScriptError) : Prop :=
  ∀ p q, P.aligned p q ∨ P.past p q → p.AtEnd → ∃ q', skipNewlines .statement q = .error e q'

/-- If the first step reads a statement that may take an `else`, and comes to the end of its input,
the second step fails. -/
def Stops (e : ScriptError) (r : EStateM.Result ScriptError (Parser σ) Stmt)
    (r' : EStateM.Result ScriptError (Parser τ) Stmt) : Prop :=
  ∀ s p', r = .ok s p' → s.takesElse = true → p'.AtEnd → ∃ q', r' = .error e q'

/-- One reader stops where the other reads a statement that may take an `else`. -/
def StopsStatements (P : Pairing σ τ) (e : ScriptError) (x : Parse σ Stmt) (y : Parse τ Stmt) :
    Prop :=
  ∀ p q, P.aligned p q → Stops e (x p) (y q)

omit [TokenStream τ] in
lemma Stops.bind {α β : Type} {post : α → β → Parser σ → Parser τ → Prop} {p : Parser σ}
    {q : Parser τ} {x : Parse σ α} {y : Parse τ β} {f : α → Parse σ Stmt} {g : β → Parse τ Stmt}
    (first : P.Ends post (x p) (y q))
    (rest : ∀ a b p₁ q₁, post a b p₁ q₁ → Stops e (f a p₁) (g b q₁)) :
    Stops e ((x >>= f) p) ((y >>= g) q) := by
  intro s p' run takes at_end
  obtain ⟨a, p₁, run₁, run₂⟩ := Parse.bind_eq_ok.1 run
  rw [run₁] at first
  obtain ⟨b, q₁, run₁', holds⟩ := first
  rw [Parse.bind_of_ok run₁']
  exact rest a b p₁ q₁ holds s p' run₂ takes at_end

omit [TokenStream τ] in
lemma Stops.bind_both {α β : Type} {same : α → β → Prop} {p : Parser σ}
    {q : Parser τ} {x : Parse σ α} {y : Parse τ β} {f : α → Parse σ Stmt} {g : β → Parse τ Stmt}
    (first : P.Ends (P.Both same) (x p) (y q))
    (rest : ∀ a b p₁ q₁, P.aligned p₁ q₁ → Stops e (f a p₁) (g b q₁)) :
    Stops e ((x >>= f) p) ((y >>= g) q) :=
  .bind first fun a b p₁ q₁ both => rest a b p₁ q₁ both.2

variable {x : Parse σ Expr} {y : Parse τ Expr} {f : Parse σ Stmt} {g : Parse τ Stmt}
  {p : Parser σ} {q : Parser τ} (lawful : P.Lawful) (breaks : P.Breaks e)

/-! ## Statements that take no `else` -/

omit [TokenStream τ] in
lemma not_takesElse_of_blockWithin {budget : Nat} {before : List Stmt} {start : Span} {s : Stmt}
    {p' : Parser σ} (run : blockWithin f start budget before p = .ok s p') :
    s.takesElse = false := by
  induction budget generalizing before p with
  | zero => simp [blockWithin, Parse.failHere_apply] at run
  | succ budget ih =>
    simp only [blockWithin, Parse.bind_eq_ok] at run
    obtain ⟨t, p₁, -, run⟩ := run
    cases kind : t.kind with
    | rightBrace =>
      simp only [kind] at run
      obtain ⟨rfl, -⟩ := Parse.pure_eq_ok.1 run
      rfl
    | endOfInput => simp [kind, Parse.fail_apply] at run
    | _ =>
      simp only [kind, Parse.bind_eq_ok] at run
      obtain ⟨_, _, -, _, _, -, run⟩ := run
      exact ih run

omit [TokenStream τ] in
lemma not_takesElse_of_giveBack {start : Span} {s : Stmt} {p' : Parser σ}
    (run : giveBack x start p = .ok s p') : s.takesElse = false := by
  simp only [giveBack, Parse.bind_eq_ok] at run
  obtain ⟨kind, p₁, -, run⟩ := run
  split at run
  · simp only [Parse.bind_eq_ok] at run
    obtain ⟨_, _, -, run⟩ := run
    obtain ⟨rfl, -⟩ := Parse.pure_eq_ok.1 run
    rfl
  · simp only [Parse.bind_eq_ok] at run
    obtain ⟨_, _, -, _, _, -, run⟩ := run
    obtain ⟨rfl, -⟩ := Parse.pure_eq_ok.1 run
    rfl

omit [TokenStream τ] in
lemma not_takesElse_of_expressionStatement {s : Stmt} {p' : Parser σ}
    (run : expressionStatement x p = .ok s p') : s.takesElse = false := by
  simp only [expressionStatement, Parse.bind_eq_ok] at run
  obtain ⟨_, _, -, _, _, -, run⟩ := run
  obtain ⟨rfl, -⟩ := Parse.pure_eq_ok.1 run
  rfl

omit [TokenStream τ] in
/-- Only an `if` and a loop may take an `else`. -/
lemma statementBody_takesElse {s : Stmt} {p' : Parser σ}
    (run : statementBody f x p = .ok s p') (takes : s.takesElse = true) :
    ∃ p₁ t p₂, Parse.attempt p = .ok () p₁ ∧ skipNewlines .statement p₁ = .ok t p₂ ∧
      (t.kind = .keyword .ifWord ∧ choice f x t.span p₂ = .ok s p' ∨
        t.kind = .keyword .forWord ∧ Parse.loop f x t.span p₂ = .ok s p') := by
  obtain ⟨_, p₁, attempted, rest⟩ := Parse.bind_eq_ok.1 run
  obtain ⟨t, p₂, skip, rest⟩ := Parse.bind_eq_ok.1 rest
  refine ⟨p₁, t, p₂, attempted, skip, ?_⟩
  -- The statements that hand their first token back cannot take an `else`, whichever they are.
  have missing (rest : (do Parse.pushBack t; return .empty t.span : Parse σ Stmt) p₂ = .ok s p') :
      s.takesElse = false := by
    obtain ⟨_, _, -, ended⟩ := Parse.bind_eq_ok.1 rest
    obtain ⟨rfl, -⟩ := Parse.pure_eq_ok.1 ended
    rfl
  have expressed (rest : (do Parse.pushBack t; expressionStatement x : Parse σ Stmt) p₂ = .ok s p') :
      s.takesElse = false := by
    obtain ⟨_, _, -, reading⟩ := Parse.bind_eq_ok.1 rest
    exact not_takesElse_of_expressionStatement reading
  have none_taken (takes_none : s.takesElse = false) : False := by simp [takes_none] at takes
  cases kind : t.kind with
  | semicolon =>
    simp only [kind] at rest
    obtain ⟨rfl, -⟩ := Parse.pure_eq_ok.1 rest
    exact (none_taken rfl).elim
  | leftBrace =>
    simp only [kind, Parse.get_bind_apply] at rest
    exact (none_taken (not_takesElse_of_blockWithin rest)).elim
  | comma | rightBrace => exact (none_taken (missing (by simpa only [kind] using rest))).elim
  | endOfInput | rightParen => simp [kind, Parse.fail_apply] at rest
  | keyword word =>
    cases word with
    | ifWord => exact .inl ⟨rfl, by simpa only [kind] using rest⟩
    | forWord => exact .inr ⟨rfl, by simpa only [kind] using rest⟩
    | returnWord =>
      simp only [kind] at rest
      exact (none_taken (not_takesElse_of_giveBack rest)).elim
    | elseWord => exact (none_taken (missing (by simpa only [kind] using rest))).elim
    | varWord =>
      simp only [kind, Parse.bind_eq_ok] at rest
      obtain ⟨_, _, -, _, _, -, ended⟩ := rest
      obtain ⟨rfl, -⟩ := Parse.pure_eq_ok.1 ended
      exact (none_taken rfl).elim
  | _ => exact (none_taken (expressed (by simpa only [kind] using rest))).elim

/-! ## Branches and loops -/

variable [LawfulTokenStream σ] [LawfulTokenStream τ]
include lawful breaks

/-- The parser comes to the end of the first input where it looks for an `else`, or in the branch
behind one. -/
lemma elseBranch_stops (stops : P.StopsStatements e f g) {other : Option Stmt} {p' : Parser σ}
    (placed : P.aligned p q ∨ P.past p q) (run : elseBranch f p = .ok other p')
    (takes : Stmt.branchTakesElse other = true) (at_end : p'.AtEnd) :
    ∃ q', elseBranch g q = .error e q' := by
  rw [elseBranch, Parse.get_bind_apply]
  rcases Parse.elseBranch_eq_ok run with ⟨rfl, rfl, -⟩ | ⟨other, t, p₁, rfl, skip, word, read⟩
  · obtain ⟨q', broken⟩ := breaks p' q placed at_end
    exact ⟨q', Parse.bind_of_error broken _⟩
  · have proper : t.kind ≠ .endOfInput := by simp [word]
    rcases placed with aligned | past
    · obtain ⟨u, q₁, skip', token, aligned, -⟩ := skipNewlines_eq_ok lawful aligned skip proper
      obtain ⟨q', stopped⟩ := stops p₁ q₁ aligned other p' read takes at_end
      rw [Parse.bind_of_ok skip', if_pos (token.kind ▸ word)]
      exact ⟨q', Parse.bind_of_error stopped _⟩
    · exact absurd (lawful.atEnd past) (Parser.not_atEnd skip proper)

lemma choice_stops (statements : P.PairsStatements f g) (stops : P.StopsStatements e f g)
    (expressions : P.PairsExpressions x y) {start start' : Span} (aligned : P.aligned p q) :
    Stops e (choice f x start p) (choice g y start' q) := by
  refine .bind_both (expect_pairs lawful .ifOpen aligned) fun _ _ p q aligned => ?_
  refine .bind_both (expressions p q aligned) fun condition condition' p q aligned => ?_
  refine .bind_both (expect_pairs lawful .ifClose aligned) fun _ _ p q aligned => ?_
  intro s p' run takes at_end
  obtain ⟨branch, p₁, branch_run, rest⟩ := Parse.bind_eq_ok.1 run
  obtain ⟨other, p₂, looked, ended⟩ := Parse.bind_eq_ok.1 rest
  by_cases awaits : branch.takesElse = true ∧ p₁.AtEnd
  · -- The branch has already looked for an `else`.
    obtain ⟨q', stopped⟩ := stops p q aligned branch p₁ branch_run awaits.1 awaits.2
    exact ⟨q', Parse.bind_of_error stopped _⟩
  · have pairs := statements p q aligned
    rw [branch_run] at pairs
    obtain ⟨branch', q₁, branch_run', -, placed⟩ := pairs <| .inr <| by
      rwa [← Bool.not_eq_true, ← not_and_or]
    obtain ⟨rfl, other_takes⟩ : p₂ = p' ∧ Stmt.branchTakesElse other = true := by
      cases other <;> obtain ⟨rfl, rfl⟩ := Parse.pure_eq_ok.1 ended <;> exact ⟨rfl, takes⟩
    obtain ⟨q', stopped⟩ := elseBranch_stops lawful breaks stops placed looked other_takes at_end
    rw [Parse.bind_of_ok branch_run']
    exact ⟨q', Parse.bind_of_error stopped _⟩

omit [LawfulTokenStream σ] [LawfulTokenStream τ] breaks in
lemma loop_stops (stops : P.StopsStatements e f g) (expressions : P.PairsExpressions x y)
    {start start' : Span} (aligned : P.aligned p q) :
    Stops e (Parse.loop f x start p) (Parse.loop g y start' q) := by
  refine .bind_both (expect_pairs lawful .forOpen aligned) fun _ _ p q aligned => ?_
  refine .bind_both (loopStart_pairs lawful expressions aligned) fun _ _ p q aligned => ?_
  refine .bind_both (expect_pairs lawful .initializerEnd aligned) fun _ _ p q aligned => ?_
  refine .bind_both (optionalExpression_pairs lawful expressions (by simp) (by simp) aligned)
    fun _ _ p q aligned => ?_
  refine .bind_both (expect_pairs lawful .conditionEnd aligned) fun _ _ p q aligned => ?_
  refine .bind_both (optionalExpression_pairs lawful expressions (by simp) (by simp) aligned)
    fun _ _ p q aligned => ?_
  refine .bind_both (expect_pairs lawful .forClose aligned) fun _ _ p q aligned => ?_
  intro s p' run takes at_end
  obtain ⟨body, p₁, body_run, ended⟩ := Parse.bind_eq_ok.1 run
  obtain ⟨rfl, rfl⟩ := Parse.pure_eq_ok.1 ended
  obtain ⟨q', stopped⟩ := stops p q aligned body p₁ body_run takes at_end
  exact ⟨q', Parse.bind_of_error stopped _⟩

/-! ## Statements -/

lemma statementBody_stops (statements : P.PairsStatements f g) (stops : P.StopsStatements e f g)
    (expressions : P.PairsExpressions x y) :
    P.StopsStatements e (statementBody f x) (statementBody g y) := by
  intro p q aligned s p' run takes at_end
  obtain ⟨p₁, t, p₂, attempted, skip, reading⟩ := statementBody_takesElse run takes
  have attempts := attempt_pairs lawful aligned
  rw [attempted] at attempts
  obtain ⟨_, q₁, attempted', -, aligned⟩ := attempts
  rcases reading with ⟨word, reading⟩ | ⟨word, reading⟩
  all_goals
    obtain ⟨u, q₂, skip', token, aligned, -⟩ :=
      skipNewlines_eq_ok lawful aligned skip (by simp [word])
    rw [statementBody, Parse.bind_of_ok attempted', Parse.bind_of_ok skip', ← token.kind, word]
  · exact choice_stops lawful breaks statements stops expressions aligned s p' reading takes at_end
  · exact loop_stops lawful stops expressions aligned s p' reading takes at_end

lemma statement_stops (room : Nat) :
    P.StopsStatements e (Parse.statement room) (Parse.statement room) := by
  induction room with
  | zero =>
    intro p q aligned s p' run
    simp [Parse.statement, Parse.failHere_apply] at run
  | succ room ih =>
    exact statementBody_stops lawful breaks (statement_pairs lawful room) ih
      (expression_pairs lawful room)

lemma topLevel_stops {room : Nat} {s : Stmt} {p' : Parser σ} (aligned : P.aligned p q)
    (run : topLevel room p = .ok (some s) p') (takes : s.takesElse = true) (at_end : p'.AtEnd) :
    ∃ q', topLevel room q = .error e q' := by
  obtain ⟨t, p₁, skip, proper, reading⟩ := Parse.topLevel_eq_some run
  obtain ⟨u, q₁, skip', token, -, read⟩ := skipNewlines_eq_ok lawful aligned skip proper
  obtain ⟨q', stopped⟩ :=
    statement_stops lawful breaks room _ _ read.returned s p' reading takes at_end
  rw [Parse.topLevel_of_skipNewlines skip' (token.kind ▸ proper)]
  exact ⟨q', Parse.bind_of_error stopped _⟩

end Pairing

/-! ## The second script -/

namespace Parse

/-- Earlier attempts play no part in what is found behind newlines. -/
lemma skipNewlinesWithin_eq_error {τ : Type} [TokenStream τ] {c : TokenContext} {budget : Nat}
    {s : τ} {attempts : List Nat} {e : ScriptError} {p : Parser τ}
    (run : skipNewlinesWithin c budget ⟨s, attempts⟩ = .error e p) (attempts' : List Nat) :
    ∃ p', skipNewlinesWithin c budget ⟨s, attempts'⟩ = .error e p' := by
  induction budget generalizing s with
  | zero =>
    simp only [skipNewlinesWithin, failHere_apply] at run ⊢
    cases run
    exact ⟨_, rfl⟩
  | succ budget ih =>
    rw [skipNewlinesWithin] at run ⊢
    cases read : TokenStream.next c s with
    | mk result s' =>
      cases result with
      | error e' =>
        rw [bind_of_error (next_eq_error.2 ⟨s', read, rfl⟩)] at run
        cases run
        exact ⟨_, bind_of_error (next_eq_error.2 ⟨s', read, rfl⟩) _⟩
      | ok t =>
        rw [bind_of_ok (next_eq_ok.2 ⟨s', read, rfl⟩)] at run ⊢
        by_cases newline : t.kind = .newline
        · rw [if_pos newline] at run ⊢
          exact ih run
        · rw [if_neg newline] at run
          cases run

lemma skipNewlines_eq_error {τ : Type} [TokenStream τ] {c : TokenContext} {s : τ}
    {attempts : List Nat} {e : ScriptError} {p : Parser τ}
    (run : skipNewlines c ⟨s, attempts⟩ = .error e p) (attempts' : List Nat) :
    ∃ p', skipNewlines c ⟨s, attempts'⟩ = .error e p' :=
  skipNewlinesWithin_eq_error run attempts'

end Parse

/-- What cannot be read at the beginning of the second script cannot be read behind the first. -/
lemma Pairing.alongside_breaks {first : List Char} {second : String} {e : ScriptError}
    {p : Parser Lexer}
    (run : Parse.skipNewlines .statement (.ofStream (Lexer.ofScript second)) = .error e p) :
    (alongside first second.toList).Breaks
      (e.mapSpan (.shift (first.length + 1) (first.count '\n' + 1))) := by
  have behind := Lexer.shifted_between first second
  have lawful := shifted_lawful (first.length + 1) (first.count '\n' + 1)
  have skips := skipNewlines_pairs lawful (p := .ofStream (Lexer.ofScript second))
    (q := ⟨Lexer.between first second.toList, []⟩) ⟨behind, [], rfl, by simp⟩
  rw [run] at skips
  obtain ⟨e', q₁, broken, ⟨fault, span⟩, -⟩ := skips ⟨trivial, fun _ => trivial⟩
  have same : e' = e.mapSpan (.shift (first.length + 1) (first.count '\n' + 1)) :=
    ScriptError.ext fault.symm span.symm
  rw [same] at broken
  rintro p q (⟨along, -⟩ | ⟨-, rfl⟩) at_end
  · obtain ⟨t, p₁, skip, end_kind⟩ := at_end
    obtain ⟨blanks, l, -, reads, skipped, -⟩ := Parse.skipNewlines_reads skip
    obtain ⟨blanks', reads_on, skipped'⟩ := along.reads_end reads skipped end_kind
    obtain ⟨q', broken'⟩ := Parse.skipNewlines_eq_error broken q.attempts
    exact ⟨q', (Parse.skipNewlines_of_blanks reads_on skipped').trans broken'⟩
  · exact Parse.skipNewlines_eq_error broken p.attempts

namespace Script

variable {first second : List Char} {p q : Parser Lexer} {s s' : Script} {e : ScriptError}

/-- A script that is read to its end and does not end closed ends in a statement that may take an
`else`. -/
lemma exists_last_takesElse (none_failed : s.error = none) (awaits : ¬ s.EndsClosed) :
    ∃ t, s.trees.getLast? = some t ∧ t.takesElse = true := by
  simpa [EndsClosed, none_failed] using awaits

/-- The error behind the first script takes the place of its last statement, if this may take an
`else`. -/
lemma ReadFrom.cut_short (breaks : (Pairing.alongside first second).Breaks e)
    (reads : ReadFrom p s) (none_failed : s.error = none) {t : Stmt}
    (last : s.trees.getLast? = some t) (takes : t.takesElse = true)
    (placed : (Pairing.alongside first second).aligned p q ∨
      (Pairing.alongside first second).past p q) (reads' : ReadFrom q s') :
    s'.trees = s.trees.dropLast ∧ s'.error = some e := by
  have lawful := Pairing.alongside_lawful first second
  induction reads generalizing q s' with
  | done run => simp [trees] at last
  | failed run => simp [trees] at last
  | @statement p p' u rest run onward ih =>
    rcases placed with aligned | ⟨⟨v, pending, end_kind⟩, -⟩
    · cases onward with
      | done ended =>
        obtain rfl : u = t := by simpa [trees] using last
        obtain ⟨v, skip, end_kind⟩ := Parse.topLevel_eq_none ended
        obtain ⟨q', run'⟩ :=
          Pairing.topLevel_stops lawful breaks aligned run takes ⟨v, _, skip, end_kind⟩
        rw [reads'.of_error run']
        exact ⟨rfl, rfl⟩
      | failed ended => cases none_failed
      | @statement _ _ v rest more onward =>
        obtain ⟨w, p₁, skip, proper, -⟩ := Parse.topLevel_eq_some more
        obtain ⟨u', q', run', same, placed'⟩ :=
          Pairing.topLevel_pairs lawful aligned run (.inr (.inr (Parser.not_atEnd skip proper)))
        obtain rfl : u = u' := by
          simpa only [Pairing.SameStmt, Pairing.alongside, Stmt.mapSpan_id] using same
        obtain ⟨rest', onward', rfl⟩ := reads'.of_some run'
        obtain ⟨trees, error⟩ := ih none_failed (by simpa [Script.trees] using last) placed' onward'
        exact ⟨congrArg (u :: ·) trees, error⟩
    · rw [Parse.topLevel_of_pending_end pending end_kind] at run
      simp at run

/-- A script that does not end closed, in front of one that begins with what cannot be read: nothing
is read of either but the statements before the last one of the first. -/
theorem ofText_cut_short (first second : String) {e : ScriptError} {p : Parser Lexer}
    (none_failed : (ofText first).error = none) (awaits : ¬ (ofText first).EndsClosed)
    (unread : Parse.skipNewlines .statement (.ofStream (Lexer.ofScript second)) = .error e p) :
    (ofText (first ++ "\n" ++ second)).trees = (ofText first).trees.dropLast ∧
      (ofText (first ++ "\n" ++ second)).error =
        some (e.mapSpan (.shift (first.length + 1) (first.toList.count '\n' + 1))) := by
  obtain ⟨t, last, takes⟩ := exists_last_takesElse none_failed awaits
  rw [← String.length_toList]
  exact (ofText_readFrom first).cut_short (q := .ofStream (Lexer.ofScript (first ++ "\n" ++ second)))
    (Pairing.alongside_breaks unread) none_failed last takes
    (.inl ⟨Lexer.alongside_ofScript first second, rfl⟩) (ofText_readFrom _)

end Script
end ScriptEngine
