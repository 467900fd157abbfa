import ScriptEngine.Proofs.Tree.ExpressionPairing

/-!
# Statements side by side

Aligned parsers read the same statements.  Behind a statement the two are aligned again, or the
first is past the end of its input, which it reached where the second found the newline that ends
the statement.  `statement_pairs` and `topLevel_pairs` are the main statements.

Behind a statement that ends in an `if` without an `else` a parser looks for one.  At the end of its
input the first finds none; what the second finds there has to be known (`Pairing.Sure`).
-/

namespace ScriptEngine

/-- Nothing but newlines is left to the parser. -/
def Parser.AtEnd {τ : Type} [TokenStream τ] (p : Parser τ) : Prop :=
  ∃ t p', Parse.skipNewlines .statement p = .ok t p' ∧ t.kind = .endOfInput

lemma Parser.not_atEnd {τ : Type} [TokenStream τ] {p p' : Parser τ} {t : Token}
    (skip : Parse.skipNewlines .statement p = .ok t p') (proper : t.kind ≠ .endOfInput) :
    ¬ p.AtEnd := by
  rintro ⟨u, p₁, skip', end_kind⟩
  rw [skip] at skip'
  cases skip'
  exact proper end_kind

lemma Parser.AtEnd.elseFree {τ : Type} [TokenStream τ] {p : Parser τ} (at_end : p.AtEnd) :
    p.ElseFree := by
  obtain ⟨t, p', skip, end_kind⟩ := at_end
  exact ⟨t, p', skip, by simp [end_kind]⟩

namespace Pairing

open Parse (terminator declarator declaratorsWithin declaration skipNewlinesWithin skipNewlines
  blockWithin elseBranch choice loopStart optionalExpression giveBack expressionStatement
  statementBody topLevel)

variable {σ τ : Type} [TokenStream σ] [TokenStream τ] {P : Pairing σ τ}

/-- It is known what the second parser finds past the end of the first input, or this does not
matter: the first has not come to its end, or has read a statement that takes no `else`. -/
def Sure (P : Pairing σ τ) (takesElse : Bool) (p : Parser σ) : Prop :=
  P.Settles ∨ takesElse = false ∨ ¬ p.AtEnd

/-- Both readers read the same statements. -/
def PairsStatements (P : Pairing σ τ) (x : Parse σ Stmt) (y : Parse τ Stmt) : Prop :=
  ∀ p q, P.aligned p q →
    P.EndsIf (fun s => P.Sure s.takesElse) (P.Through P.SameStmt) (x p) (y q)

/-- Behind newlines comes the same token, or the first input ends where no `else` follows in the
second. -/
def Skipped (P : Pairing σ τ) (t u : Token) (p : Parser σ) (q : Parser τ) : Prop :=
  P.SameToken t u ∧ P.aligned p q ∧ P.Read t u p q ∨
    ¬ P.strict ∧ t.kind = .endOfInput ∧ u.kind ≠ .keyword .elseWord

/-- The token that comes behind newlines is not the end of the first input, where the second may go
on with anything. -/
def SureToken (P : Pairing σ τ) (t : Token) (_ : Parser σ) : Prop :=
  P.Settles ∨ t.kind ≠ .endOfInput

def SameDeclarator (P : Pairing σ τ) (d d' : Declarator) : Prop :=
  d.mapSpan P.left = d'.mapSpan P.right

def SameDeclarators (P : Pairing σ τ) (ds ds' : List Declarator) : Prop :=
  ds.map (Declarator.mapSpan P.left) = ds'.map (Declarator.mapSpan P.right)

def SameDeclaration (P : Pairing σ τ) (a b : List Declarator × Span) : Prop :=
  P.SameDeclarators a.1 b.1 ∧ P.left a.2 = P.right b.2

def SameOption (P : Pairing σ τ) (e e' : Option Expr) : Prop :=
  e.map (Expr.mapSpan P.left) = e'.map (Expr.mapSpan P.right)

def SameBranch (P : Pairing σ τ) (other other' : Option Stmt) : Prop :=
  Stmt.mapBranchSpan P.left other = Stmt.mapBranchSpan P.right other'

omit [TokenStream σ] [TokenStream τ] in
lemma Through.of_both {α β : Type} {same : α → β → Prop} {a : α} {b : β} {p : Parser σ}
    {q : Parser τ} (both : P.Both same a b p q) : P.Through same a b p q :=
  ⟨both.1, .inl both.2⟩

variable {x : Parse σ Expr} {y : Parse τ Expr} {f : Parse σ Stmt} {g : Parse τ Stmt}
  {p : Parser σ} {q : Parser τ} (lawful : P.Lawful)
include lawful

/-! ## Newlines and terminators -/

lemma terminator_pairs (after : Terminated) (aligned : P.aligned p q) :
    P.Ends (P.Through fun _ _ => True) (terminator after p) (terminator after q) := by
  refine (lawful.next .expression aligned).bind fun t u p q read => ?_
  rcases read.token with ⟨token, aligned⟩ | ⟨-, end_kind, newline, past⟩
  · have returned : P.Ends (P.Through fun _ _ => True) (Parse.pushBack t p) (Parse.pushBack u q) :=
      (pushBack_pairs read).mono fun _ _ _ _ => Through.of_both
    rw [← token.kind]
    cases kind : t.kind with
    | semicolon | newline => exact .pure ⟨trivial, .inl aligned⟩
    | endOfInput | rightBrace => exact returned
    | _ => exact .fail aligned token.span (by rw [token.found])
  · rw [end_kind, newline]
    exact ⟨(), q, rfl, trivial, .inr past⟩

lemma skipNewlinesWithin_pairs {budget budget' : Nat} (within : P.Within budget budget')
    (aligned : P.aligned p q)
    (enough : ∀ blanks s, Reads {.statement} q.tokens blanks s → (∀ t ∈ blanks, t.IsNewline) →
      blanks.length < budget') :
    P.EndsIf P.SureToken P.Skipped (skipNewlinesWithin .statement budget p)
      (skipNewlinesWithin .statement budget' q) := by
  induction budget generalizing budget' p q with
  | zero =>
    exact .of_ends (Ends.exhausted (g := (skipNewlinesWithin .statement ·)) lawful aligned within rfl)
  | succ budget ih =>
    obtain ⟨less, rfl, fewer⟩ := within.exists_succ
    refine .after_run (lawful.next .statement aligned) fun t u p₁ q₁ _ run read => ?_
    obtain ⟨s, reading, rfl⟩ := Parse.next_eq_ok.1 run
    have behind (newline : u.kind = .newline) (blanks : List Token) (s' : τ)
        (reads : Reads {.statement} s blanks s') (skipped : ∀ t ∈ blanks, t.IsNewline) :
        blanks.length < less := by
      have := enough (u :: blanks) s' (.cons rfl reading reads)
        (by simpa only [List.mem_cons, forall_eq_or_imp] using ⟨newline, skipped⟩)
      simpa using this
    rcases read.token with ⟨token, onward⟩ | ⟨lax, end_kind, newline, past⟩
    · rw [← token.kind]
      split
      · next newline => exact ih fewer onward (behind (token.kind ▸ newline))
      · exact .of_ends (.pure (.inl ⟨token, onward, read⟩))
    · -- The first parser stops at its end; the second reads on to a token that is no `else`.
      rw [if_neg (by simp [end_kind]), if_pos newline]
      intro sure
      have settles : P.Settles := sure.resolve_right fun proper => proper end_kind
      obtain ⟨blanks, last, s', reads, skipped, proper, noElse⟩ := settles _ _ past
      obtain ⟨mid, front, -⟩ := reads.split
      have skips := Parse.skipNewlinesWithin_of_reads (p := ⟨s, q.attempts⟩) reads skipped proper
        (behind newline blanks mid front skipped)
      exact ⟨last, _, skips, .inr ⟨lax, end_kind, noElse⟩⟩

variable [LawfulTokenStream σ] [LawfulTokenStream τ]

omit [LawfulTokenStream σ] in
lemma skipNewlines_pairs (aligned : P.aligned p q) :
    P.EndsIf P.SureToken P.Skipped (skipNewlines .statement p) (skipNewlines .statement q) := by
  rw [skipNewlines, skipNewlines, Parse.get_bind_apply, Parse.get_bind_apply]
  refine skipNewlinesWithin_pairs lawful (lawful.budget aligned) aligned
    fun blanks s reads skipped => ?_
  have := Parser.length_lt_budget reads fun t h => by
    rw [show t.kind = .newline from skipped t h]
    simp
  omega

omit [LawfulTokenStream σ] in
/-- If the first parser comes to a token behind newlines, so does the second. -/
lemma skipNewlines_eq_ok {t : Token} {p' : Parser σ} (aligned : P.aligned p q)
    (skip : skipNewlines .statement p = .ok t p') (proper : t.kind ≠ .endOfInput) :
    ∃ u q', skipNewlines .statement q = .ok u q' ∧ P.SameToken t u ∧ P.aligned p' q' ∧
      P.Read t u p' q' := by
  have skips := skipNewlines_pairs lawful aligned
  rw [skip] at skips
  obtain ⟨u, q', skip', followed | ⟨-, end_kind, -⟩⟩ := skips (.inr proper)
  · exact ⟨u, q', skip', followed⟩
  · exact absurd end_kind proper

/-! ## Declarations -/

omit [LawfulTokenStream σ] [LawfulTokenStream τ] in
lemma declarator_pairs (inner : P.PairsExpressions x y) (aligned : P.aligned p q) :
    P.Ends (P.Both P.SameDeclarator) (declarator x p)
      (declarator y q) := by
  refine (lawful.next .expression aligned).bind fun name name' p q read => ?_
  rcases read.token with ⟨named, aligned⟩ | ⟨lax, end_kind, -, -⟩
  · rw [← named.kind]
    split
    · refine (lawful.next .expression aligned).bind fun t u p q read => ?_
      have unbound : P.Ends (P.Both P.SameDeclarator)
          ((do Parse.pushBack t; return ⟨name.lexeme, none, name.span.through name.span⟩ :
            Parse σ Declarator) p)
          ((do Parse.pushBack u; return ⟨name'.lexeme, none, name'.span.through name'.span⟩ :
            Parse τ Declarator) q) := by
        refine (pushBack_pairs read).bind_both fun _ _ p q _ aligned => .pure ⟨?_, aligned⟩
        rw [SameDeclarator, Declarator.mapSpan, Declarator.mapSpan, named.lexeme,
          lawful.spans.through named.span named.span]
        rfl
      rcases read.token with ⟨token, aligned⟩ | ⟨-, end_kind, newline, -⟩
      · by_cases assigns : t.kind = .assign
        · rw [if_pos assigns, if_pos (token.kind ▸ assigns)]
          refine (inner p q aligned).bind_both fun value value' p q same aligned => ?_
          refine .pure ⟨?_, aligned⟩
          rw [SameDeclarator, Declarator.mapSpan, Declarator.mapSpan, named.lexeme,
            lawful.spans.through named.span same.span]
          exact congrArg (Declarator.mk _ · _) (congrArg some same)
        · rw [if_neg assigns, if_neg (token.kind ▸ assigns)]
          exact unbound
      · rw [if_neg (by simp [end_kind]), if_neg (by simp [newline])]
        exact unbound
    · exact .fail aligned named.span (by rw [named.found])
  · rw [if_neg (by simp [end_kind])]
    exact .of_fail lax

omit [LawfulTokenStream σ] [LawfulTokenStream τ] in
lemma declaratorsWithin_pairs (inner : P.PairsExpressions x y) {budget budget' : Nat}
    {before before' : List Declarator} (within : P.Within budget budget')
    (same : P.SameDeclarators before before')
    (aligned : P.aligned p q) :
    P.Ends (P.Both P.SameDeclarators) (declaratorsWithin x budget before p)
      (declaratorsWithin y budget' before' q) := by
  induction budget generalizing budget' before before' p q with
  | zero => exact Ends.exhausted (g := (declaratorsWithin y · before')) lawful aligned within rfl
  | succ budget ih =>
    obtain ⟨less, rfl, fewer⟩ := within.exists_succ
    refine (declarator_pairs lawful inner aligned).bind_both fun d d' p q one aligned => ?_
    have longer : P.SameDeclarators (d :: before) (d' :: before') := by
      rw [SameDeclarators, List.map_cons, List.map_cons, same, one]
    refine (lawful.next .expression aligned).bind fun t u p q read => ?_
    have last : P.Ends (P.Both P.SameDeclarators)
        ((do Parse.pushBack t; return (d :: before).reverse : Parse σ (List Declarator)) p)
        ((do Parse.pushBack u; return (d' :: before').reverse : Parse τ (List Declarator)) q) := by
      refine (pushBack_pairs read).bind_both fun _ _ p q _ aligned => .pure ⟨?_, aligned⟩
      rw [SameDeclarators, List.map_reverse, List.map_reverse, longer]
    rcases read.token with ⟨token, aligned⟩ | ⟨-, end_kind, newline, -⟩
    · by_cases comma : t.kind = .comma
      · rw [if_pos comma, if_pos (token.kind ▸ comma)]
        exact ih fewer longer aligned
      · rw [if_neg comma, if_neg (token.kind ▸ comma)]
        exact last
    · rw [if_neg (by simp [end_kind]), if_neg (by simp [newline])]
      exact last

omit [LawfulTokenStream σ] [LawfulTokenStream τ] in
lemma declaration_pairs (inner : P.PairsExpressions x y) {start start' : Span}
    (start_same : P.left start = P.right start') (aligned : P.aligned p q) :
    P.Ends (P.Both P.SameDeclaration) (declaration x start p) (declaration y start' q) := by
  rw [declaration, declaration, Parse.get_bind_apply, Parse.get_bind_apply]
  have begun : P.SameDeclarators [] [] := rfl
  refine (declaratorsWithin_pairs lawful inner (lawful.budget aligned) begun aligned).bind_both
    fun ds ds' p q same aligned => .pure ⟨⟨same, ?_⟩, aligned⟩
  refine lawful.spans.through start_same ?_
  have last : ds.getLast?.map (Declarator.mapSpan P.left) =
      ds'.getLast?.map (Declarator.mapSpan P.right) := by
    rw [← List.getLast?_map, ← List.getLast?_map, same]
  cases left_last : ds.getLast? <;> cases right_last : ds'.getLast? <;>
    simp only [left_last, right_last, Option.map_none, Option.map_some, reduceCtorEq,
      Option.some.injEq] at last
  · exact start_same
  · exact congrArg Declarator.span last

/-! ## Branches and loops -/

omit [LawfulTokenStream σ] [LawfulTokenStream τ] lawful in
lemma Sure.settles (sure : P.Sure (Stmt.branchTakesElse none) p) (at_end : p.AtEnd) :
    P.Settles :=
  sure.resolve_right fun h => h.elim (by simp [Stmt.branchTakesElse]) fun h => h at_end

omit [LawfulTokenStream τ] in
lemma Lawful.atEnd (past : P.past p q) : p.AtEnd := by
  obtain ⟨t, s, read, end_kind⟩ := lawful.past_end past
  exact ⟨t, _, Parse.skipNewlines_of_next read (by simp [end_kind]), end_kind⟩

/-- Past the end of the first input there is no `else` on either side. -/
lemma elseBranch_past (past : P.past p q) :
    P.EndsIf (fun other => P.Sure (Stmt.branchTakesElse other)) (P.Through P.SameBranch)
      (elseBranch f p) (elseBranch g q) := by
  have at_end := lawful.atEnd past
  rw [Parse.elseBranch_of_elseFree at_end.elseFree]
  intro sure
  obtain ⟨blanks, u, s', reads, skipped, proper, noElse⟩ := sure.settles at_end p q past
  exact ⟨none, q, Parse.elseBranch_of_elseFree
    ⟨u, _, Parse.skipNewlines_of_reads reads skipped proper, noElse⟩, rfl, .inr past⟩

/-- Without an `else` in the first input there is none in the second either, unless the first is at
its end. -/
lemma elseBranch_pairs (inner : P.PairsStatements f g) (placed : P.aligned p q ∨ P.past p q) :
    P.EndsIf (fun other => P.Sure (Stmt.branchTakesElse other)) (P.Through P.SameBranch)
      (elseBranch f p) (elseBranch g q) := by
  rcases placed with aligned | past
  swap
  · exact elseBranch_past lawful past
  have skips := skipNewlines_pairs lawful aligned
  cases skip : skipNewlines .statement p with
  | error e p₁ =>
    rw [skip] at skips
    rw [elseBranch, Parse.get_bind_apply, Parse.bind_of_error skip]
    intro owes
    obtain ⟨e', q₁, skip', same, aligned⟩ := skips owes
    rw [elseBranch, Parse.get_bind_apply, Parse.bind_of_error skip']
    exact ⟨e', q₁, rfl, same, aligned⟩
  | ok t p₁ =>
    rw [skip] at skips
    by_cases elseWord : t.kind = .keyword .elseWord
    · obtain ⟨u, q₁, skip', token, aligned, -⟩ :=
        skipNewlines_eq_ok lawful aligned skip (by simp [elseWord])
      rw [elseBranch, elseBranch, Parse.get_bind_apply, Parse.get_bind_apply,
        Parse.bind_of_ok skip, Parse.bind_of_ok skip', if_pos elseWord,
        if_pos (token.kind ▸ elseWord)]
      refine (inner p₁ q₁ aligned).bind (fun _ _ strict => .inl (lawful.settles strict))
        (fun s p₂ other p₃ run sure => ?_) fun s s' p q _ _ through => ?_
      · obtain ⟨rfl, rfl⟩ := Parse.pure_eq_ok.1 run
        exact sure
      · exact .of_ends (.pure ⟨congrArg some through.1, through.2⟩)
    -- What was looked at is handed back, so both are where they were.  At the end of the first
    -- input only a settled pairing knows that no `else` follows in the second.
    · rw [Parse.elseBranch_of_elseFree ⟨t, p₁, skip, elseWord⟩]
      intro sure
      have token_sure : P.SureToken t p₁ := by
        by_cases end_kind : t.kind = .endOfInput
        · exact .inl (sure.settles ⟨t, p₁, skip, end_kind⟩)
        · exact .inr end_kind
      obtain ⟨u, q₁, skip', followed⟩ := skips token_sure
      have noElse : u.kind ≠ .keyword .elseWord := by
        rcases followed with ⟨token, -⟩ | ⟨-, -, noElse⟩
        · exact token.kind ▸ elseWord
        · exact noElse
      exact ⟨none, q, Parse.elseBranch_of_elseFree ⟨u, q₁, skip', noElse⟩, rfl, .inl aligned⟩

lemma choice_pairs (statements : P.PairsStatements f g) (expressions : P.PairsExpressions x y)
    {start start' : Span} (start_same : P.left start = P.right start') (aligned : P.aligned p q) :
    P.EndsIf (fun s => P.Sure s.takesElse) (P.Through P.SameStmt) (choice f x start p)
      (choice g y start' q) := by
  refine .after_both (expect_pairs lawful .ifOpen aligned) fun _ _ p q _ aligned => ?_
  refine .after_both (expressions p q aligned) fun condition condition' p q tests aligned => ?_
  refine .after_both (expect_pairs lawful .ifClose aligned) fun _ _ p q _ aligned => ?_
  refine (statements p q aligned).bind (fun _ _ strict => .inl (lawful.settles strict))
    (fun branch p₁ s p₂ run sure => ?_) fun branch branch' p q _ _ through => ?_
  · -- If the branch is in front of the end then no `else` was found, and so the whole takes one.
    refine sure.imp_right fun sure => .inr fun at_end => ?_
    obtain ⟨other, p₃, looked, ended⟩ := Parse.bind_eq_ok.1 run
    rcases Parse.elseBranch_eq_ok looked with ⟨rfl, rfl, -⟩ | ⟨other, t, p₄, -, skip, elseWord, -⟩
    · obtain ⟨rfl, rfl⟩ := Parse.pure_eq_ok.1 ended
      simp [Stmt.takesElse, Stmt.branchTakesElse, at_end] at sure
    · exact Parser.not_atEnd skip (by simp [elseWord]) at_end
  obtain ⟨same, placed⟩ := through
  refine (elseBranch_pairs lawful statements placed).bind
    (fun _ _ strict => .inl (lawful.settles strict)) (fun other p₁ s p₂ run sure => ?_)
    fun other other' p q _ _ through => ?_
  · cases other <;>
    · obtain ⟨rfl, rfl⟩ := Parse.pure_eq_ok.1 run
      simpa only [Stmt.takesElse] using sure
  obtain ⟨others, placed⟩ := through
  -- Only the span of the whole depends on whether there is an `else`: it reaches to the last of
  -- the parts.
  cases other with
  | none =>
    cases other' with
    | none =>
      refine .of_ends (.pure ⟨?_, placed⟩)
      have spans := lawful.spans.through start_same same.span
      rw [SameStmt, Stmt.mapSpan, Stmt.mapSpan, tests, same, spans]
      rfl
    | some other' => simp [SameBranch, Stmt.mapBranchSpan] at others
  | some other =>
    cases other' with
    | none => simp [SameBranch, Stmt.mapBranchSpan] at others
    | some other' =>
      have other_same : P.SameStmt other other' := Option.some.inj others
      refine .of_ends (.pure ⟨?_, placed⟩)
      rw [SameStmt, Stmt.mapSpan, Stmt.mapSpan, tests, same, others,
        lawful.spans.through start_same other_same.span]

omit [LawfulTokenStream σ] [LawfulTokenStream τ] in
lemma loopStart_pairs (inner : P.PairsExpressions x y) (aligned : P.aligned p q) :
    P.Ends (P.Both P.SameBranch) (loopStart x p) (loopStart y q) := by
  refine (lawful.next .statement aligned).bind fun t u p q read => ?_
  have expressed : P.Ends (P.Both P.SameBranch)
      ((do
        Parse.pushBack t
        let expr ← x
        return some (.expression expr expr.span) : Parse σ (Option Stmt)) p)
      ((do
        Parse.pushBack u
        let expr ← y
        return some (.expression expr expr.span) : Parse τ (Option Stmt)) q) := by
    refine (pushBack_pairs read).bind_both fun _ _ p q _ aligned => ?_
    refine (inner p q aligned).bind_both fun e e' p q same aligned => .pure ⟨?_, aligned⟩
    rw [SameBranch, Stmt.mapBranchSpan, Stmt.mapBranchSpan, Stmt.mapSpan, Stmt.mapSpan, same,
      same.span]
  rcases read.token with ⟨token, aligned⟩ | ⟨-, end_kind, newline, -⟩
  · rw [← token.kind]
    cases kind : t.kind with
    | semicolon =>
      refine (pushBack_pairs read).bind_both fun _ _ p q _ aligned => .pure ⟨rfl, aligned⟩
    | keyword word =>
      cases word with
      | varWord =>
        refine (declaration_pairs lawful inner token.span aligned).bind ?_
        rintro ⟨ds, span⟩ ⟨ds', span'⟩ p q ⟨⟨ds_same, span_same⟩, aligned⟩
        refine .pure ⟨?_, aligned⟩
        simp only [SameDeclarators] at ds_same span_same
        simp only [SameBranch, Stmt.mapBranchSpan, Stmt.mapSpan, ds_same, span_same]
      | _ => exact expressed
    | _ => exact expressed
  · rw [end_kind, newline]
    exact expressed

omit [LawfulTokenStream σ] [LawfulTokenStream τ] in
lemma optionalExpression_pairs (inner : P.PairsExpressions x y) {closer : TokenKind}
    (noEnd : closer ≠ .endOfInput) (noNewline : closer ≠ .newline) (aligned : P.aligned p q) :
    P.Ends (P.Both P.SameOption) (optionalExpression x closer p)
      (optionalExpression y closer q) := by
  refine (peekKind_pairs lawful aligned).bind_both fun k k' p q kinds aligned => ?_
  have present : P.Ends (P.Both P.SameOption)
      ((do return some (← x) : Parse σ (Option Expr)) p)
      ((do return some (← y) : Parse τ (Option Expr)) q) := by
    refine (inner p q aligned).bind_both fun e e' p q same aligned => .pure ⟨?_, aligned⟩
    exact congrArg some same
  rcases kinds with rfl | ⟨-, rfl, rfl⟩
  · by_cases closes : k = closer
    · rw [if_pos closes, if_pos closes]
      exact .pure ⟨rfl, aligned⟩
    · rw [if_neg closes, if_neg closes]
      exact present
  · rw [if_neg noEnd.symm, if_neg noNewline.symm]
    exact present

omit [LawfulTokenStream σ] [LawfulTokenStream τ] in
lemma loop_pairs (statements : P.PairsStatements f g) (expressions : P.PairsExpressions x y)
    {start start' : Span} (start_same : P.left start = P.right start') (aligned : P.aligned p q) :
    P.EndsIf (fun s => P.Sure s.takesElse) (P.Through P.SameStmt) (Parse.loop f x start p)
      (Parse.loop g y start' q) := by
  refine .after_both (expect_pairs lawful .forOpen aligned) fun _ _ p q _ aligned => ?_
  refine .after_both (loopStart_pairs lawful expressions aligned)
    fun first first' p q starts aligned => ?_
  refine .after_both (expect_pairs lawful .initializerEnd aligned) fun _ _ p q _ aligned => ?_
  refine .after_both (optionalExpression_pairs lawful expressions (by simp) (by simp) aligned)
    fun condition condition' p q tests aligned => ?_
  refine .after_both (expect_pairs lawful .conditionEnd aligned) fun _ _ p q _ aligned => ?_
  refine .after_both (optionalExpression_pairs lawful expressions (by simp) (by simp) aligned)
    fun increment increment' p q steps aligned => ?_
  refine .after_both (expect_pairs lawful .forClose aligned) fun _ _ p q _ aligned => ?_
  refine (statements p q aligned).bind (fun _ _ strict => .inl (lawful.settles strict))
    (fun body p₁ s p₂ run sure => ?_) fun body body' p q _ _ through => ?_
  · obtain ⟨rfl, rfl⟩ := Parse.pure_eq_ok.1 run
    simpa only [Stmt.takesElse] using sure
  · obtain ⟨same, placed⟩ := through
    refine .of_ends (.pure ⟨?_, placed⟩)
    rw [SameStmt, Stmt.mapSpan, Stmt.mapSpan, starts, tests, steps, same,
      lawful.spans.through start_same same.span]

/-! ## Simple statements and blocks -/

omit [LawfulTokenStream σ] [LawfulTokenStream τ] in
lemma giveBack_pairs (inner : P.PairsExpressions x y) {start start' : Span}
    (start_same : P.left start = P.right start') (aligned : P.aligned p q) :
    P.Ends (P.Through P.SameStmt) (giveBack x start p) (giveBack y start' q) := by
  refine (peekKind_pairs lawful aligned).bind_both fun k k' p q kinds aligned => ?_
  have ends : k.endsStatement = k'.endsStatement := by
    rcases kinds with rfl | ⟨-, rfl, rfl⟩ <;> rfl
  rw [← ends]
  split
  · refine (terminator_pairs lawful .giveBack aligned).bind_through fun _ _ p q _ placed => ?_
    refine .pure ⟨?_, placed⟩
    rw [SameStmt, Stmt.mapSpan, Stmt.mapSpan, start_same]
    rfl
  · refine (inner p q aligned).bind_both fun e e' p q same aligned => ?_
    refine (terminator_pairs lawful .giveBack aligned).bind_through fun _ _ p q _ placed => ?_
    refine .pure ⟨?_, placed⟩
    rw [SameStmt, Stmt.mapSpan, Stmt.mapSpan, lawful.spans.through start_same same.span]
    exact congrArg (Stmt.giveBack · _) (congrArg some same)

omit [LawfulTokenStream σ] [LawfulTokenStream τ] in
lemma expressionStatement_pairs (inner : P.PairsExpressions x y) (aligned : P.aligned p q) :
    P.Ends (P.Through P.SameStmt) (expressionStatement x p) (expressionStatement y q) := by
  refine (inner p q aligned).bind_both fun e e' p q same aligned => ?_
  refine (terminator_pairs lawful .expression aligned).bind_through fun _ _ p q _ placed => ?_
  refine .pure ⟨?_, placed⟩
  rw [SameStmt, Stmt.mapSpan, Stmt.mapSpan, same, same.span]

omit lawful [LawfulTokenStream σ] in
/-- A block is not closed where nothing but newlines is left. -/
lemma not_atEnd_of_blockWithin {budget : Nat} {before : List Stmt} {start : Span} {s : Stmt}
    {p' : Parser σ} (run : blockWithin f start budget before p = .ok s p') : ¬ p.AtEnd := by
  rintro ⟨t, p₁, skip, end_kind⟩
  cases budget with
  | zero => simp [blockWithin, Parse.failHere_apply] at run
  | succ budget => simp [blockWithin, Parse.bind_of_ok skip, end_kind, Parse.fail_apply] at run

omit [LawfulTokenStream τ] in
/-- Past the end of its input the first parser finds no closing brace. -/
lemma blockWithin_past {post : Stmt → Stmt → Parser σ → Parser τ → Prop} {budget : Nat}
    {before : List Stmt} {start : Span} {r : EStateM.Result ScriptError (Parser τ) Stmt}
    (past : P.past p q) : P.Ends post (blockWithin f start budget before p) r := by
  cases run : blockWithin f start budget before p with
  | ok s p' => exact absurd (lawful.atEnd past) (not_atEnd_of_blockWithin run)
  | error e p' => exact fun owes => absurd owes.1 (lawful.past_lax past)

lemma blockWithin_pairs (inner : P.PairsStatements f g) {budget budget' : Nat}
    {before before' : List Stmt} {start start' : Span} (within : P.Within budget budget')
    (start_same : P.left start = P.right start')
    (same : before.map (Stmt.mapSpan P.left) = before'.map (Stmt.mapSpan P.right))
    (placed : P.aligned p q ∨ P.past p q) :
    P.EndsIf (fun s => P.Sure s.takesElse) (P.Through P.SameStmt)
      (blockWithin f start budget before p) (blockWithin g start' budget' before' q) := by
  -- A round of the first parser is one of the second, which may have more of them; what both have
  -- read so far is the same.
  induction budget generalizing budget' before before' p q with
  | zero =>
    rcases placed with aligned | past
    · exact .of_ends (Ends.exhausted (g := (blockWithin g start' · before')) lawful aligned within rfl)
    · exact .of_ends (blockWithin_past lawful past)
  | succ budget ih =>
    rcases placed with aligned | past
    · obtain ⟨less, rfl, fewer⟩ := within.exists_succ
      refine (skipNewlines_pairs lawful aligned).bind (fun _ _ strict => .inl (lawful.settles strict))
        (fun t p₁ s p₂ run _ => .inr ?_) fun t u p q _ _ skipped => ?_
      · rintro end_kind
        simp [end_kind, Parse.fail_apply] at run
      rcases skipped with ⟨token, aligned, read⟩ | ⟨lax, end_kind, -⟩
      · have onward : P.EndsIf (fun s => P.Sure s.takesElse) (P.Through P.SameStmt)
            ((do
              Parse.pushBack t
              let one ← f
              blockWithin f start budget (one :: before) : Parse σ Stmt) p)
            ((do
              Parse.pushBack u
              let one ← g
              blockWithin g start' less (one :: before') : Parse τ Stmt) q) := by
          refine .after_both (pushBack_pairs read) fun _ _ p q _ aligned => ?_
          refine (inner p q aligned).bind (fun _ _ strict => .inl (lawful.settles strict))
            (fun one p₁ s p₂ run _ => .inr (.inr (not_atEnd_of_blockWithin run)))
            fun one one' p q _ _ through => ih fewer ?_ through.2
          rw [List.map_cons, List.map_cons, same, through.1]
        rw [← token.kind]
        cases kind : t.kind with
        | rightBrace =>
          refine .of_ends (.pure ⟨?_, .inl aligned⟩)
          rw [SameStmt, Stmt.mapSpan, Stmt.mapSpan, Stmt.mapSpans_eq_map, Stmt.mapSpans_eq_map,
            List.map_reverse, List.map_reverse, same, lawful.spans.through start_same token.span]
        | endOfInput => exact .of_ends (.fail aligned token.span rfl)
        | _ => exact onward
      · rw [end_kind]
        exact .of_ends (.of_fail lax)
    · exact .of_ends (blockWithin_past lawful past)

/-! ## Statements -/

omit [LawfulTokenStream σ] [LawfulTokenStream τ] in
lemma attempt_pairs (aligned : P.aligned p q) :
    P.Ends (P.Both fun _ _ => True) (Parse.attempt p) (Parse.attempt q) := by
  obtain ⟨halts, goes_on⟩ := lawful.attempt aligned
  cases stalled : Parser.stalledAt (TokenStream.position p.tokens) p.attempts with
  | false =>
    obtain ⟨moving, onward⟩ := goes_on stalled
    rw [(Parse.attempt_eq_ok (u := ())).2 ⟨stalled, rfl⟩]
    exact ⟨(), _, Parse.attempt_eq_ok.2 ⟨moving, rfl⟩, trivial, onward⟩
  | true =>
    rw [Parse.attempt, Parse.attempt, Parse.get_bind_apply, Parse.get_bind_apply]
    simp only [stalled, if_true]
    intro owes
    simp only [halts (owes.2 rfl) stalled, if_true]
    exact ⟨_, q, rfl, ⟨rfl, lawful.here owes.1 aligned⟩, aligned⟩

lemma statementBody_pairs (statements : P.PairsStatements f g)
    (expressions : P.PairsExpressions x y) :
    P.PairsStatements (statementBody f x) (statementBody g y) := by
  intro p q aligned
  refine .after_both (attempt_pairs lawful aligned) fun _ _ p q _ aligned => ?_
  refine (skipNewlines_pairs lawful aligned).bind (fun _ _ strict => .inl (lawful.settles strict))
    (fun t p₁ s p₂ run _ => .inr ?_) fun t u p q _ _ skipped => ?_
  · rintro end_kind
    simp [end_kind, Parse.fail_apply] at run
  -- Either both have found a token of the same kind, or the first parser is at the end of its
  -- input, where a pairing that is not strict asks nothing of the second.
  rcases skipped with ⟨token, aligned, read⟩ | ⟨lax, end_kind, -⟩
  · have expressed : P.Ends (P.Through P.SameStmt)
        ((do Parse.pushBack t; expressionStatement x : Parse σ Stmt) p)
        ((do Parse.pushBack u; expressionStatement y : Parse τ Stmt) q) :=
      (pushBack_pairs read).bind_both fun _ _ p q _ aligned =>
        expressionStatement_pairs lawful expressions aligned
    have emptied : P.SameStmt (.empty t.span) (.empty u.span) := by
      rw [SameStmt, Stmt.mapSpan, Stmt.mapSpan, token.span]
    have missing : P.Ends (P.Through P.SameStmt)
        ((do Parse.pushBack t; return .empty t.span : Parse σ Stmt) p)
        ((do Parse.pushBack u; return .empty u.span : Parse τ Stmt) q) :=
      (pushBack_pairs read).bind_both fun _ _ p q _ aligned => .pure ⟨emptied, .inl aligned⟩
    rw [← token.kind]
    cases kind : t.kind with
    | semicolon => exact .of_ends (.pure ⟨emptied, .inl aligned⟩)
    | leftBrace =>
      simp only
      rw [Parse.get_bind_apply, Parse.get_bind_apply]
      exact blockWithin_pairs lawful statements (lawful.budget aligned) token.span rfl
        (.inl aligned)
    | comma | rightBrace => exact .of_ends missing
    | endOfInput => exact .of_ends (.fail aligned token.span rfl)
    | rightParen => exact .of_ends (.fail aligned token.span (by rw [token.found]))
    | keyword word =>
      cases word with
      | ifWord => exact choice_pairs lawful statements expressions token.span aligned
      | forWord => exact loop_pairs lawful statements expressions token.span aligned
      | returnWord => exact .of_ends (giveBack_pairs lawful expressions token.span aligned)
      | elseWord => exact .of_ends missing
      | varWord =>
        refine .of_ends ((declaration_pairs lawful expressions token.span aligned).bind ?_)
        rintro ⟨ds, span⟩ ⟨ds', span'⟩ p q ⟨⟨ds_same, span_same⟩, aligned⟩
        refine (terminator_pairs lawful .declaration aligned).bind_through
          fun _ _ p q _ placed => ?_
        refine .pure ⟨?_, placed⟩
        simp only [SameDeclarators] at ds_same span_same
        rw [SameStmt, Stmt.mapSpan, Stmt.mapSpan, ds_same, span_same]
    | _ => exact .of_ends expressed
  · rw [end_kind]
    exact .of_ends (.of_fail lax)

/-- Aligned parsers read the same statements. -/
lemma statement_pairs (room : Nat) :
    P.PairsStatements (Parse.statement room) (Parse.statement room) := by
  induction room with
  | zero =>
    intro p q aligned
    have full : P.Ends (P.Through P.SameStmt) ((Parse.failHere .tooDeep : Parse σ Stmt) p)
        ((Parse.failHere .tooDeep : Parse τ Stmt) q) :=
      Ends.failHere lawful aligned
    exact .of_ends full
  | succ room ih => exact statementBody_pairs lawful ih (expression_pairs lawful room)

omit lawful [LawfulTokenStream σ] [LawfulTokenStream τ] in
lemma PairsStatements.ends (pairs : P.PairsStatements f g) (settles : P.Settles)
    (aligned : P.aligned p q) : P.Ends (P.Through P.SameStmt) (f p) (g q) :=
  (pairs p q aligned).ends fun _ _ _ => .inl settles

/-- A statement that the first parser reads at the top level is read by the second as well. -/
theorem topLevel_pairs {room : Nat} {s : Stmt} {p' : Parser σ} (aligned : P.aligned p q)
    (run : topLevel room p = .ok (some s) p') (sure : P.Sure s.takesElse p') :
    ∃ s' q', topLevel room q = .ok (some s') q' ∧ P.Through P.SameStmt s s' p' q' := by
  obtain ⟨t, p₁, skip, proper, reading⟩ := Parse.topLevel_eq_some run
  obtain ⟨u, q₁, skip', token, -, read⟩ := skipNewlines_eq_ok lawful aligned skip proper
  have pairs := statement_pairs lawful room _ _ read.returned
  rw [reading] at pairs
  obtain ⟨s', q', reading', same, placed⟩ := pairs sure
  refine ⟨s', q', ?_, same, placed⟩
  rw [Parse.topLevel_of_skipNewlines skip' (token.kind ▸ proper), Parse.bind_of_ok reading']
  rfl

lemma topLevel_pairs_of_strict (strict : P.strict) (room : Nat) (aligned : P.aligned p q) :
    P.Ends (P.Both P.SameBranch) (topLevel room p) (topLevel room q) := by
  have settles := lawful.settles strict
  have skips := (skipNewlines_pairs lawful aligned).ends fun _ _ _ => .inl settles
  refine skips.bind fun t u p q skipped => ?_
  obtain ⟨token, aligned, read⟩ := skipped.resolve_right fun h => h.1 strict
  rw [← token.kind]
  split
  · exact .pure ⟨rfl, aligned⟩
  · refine (pushBack_pairs read).bind_both fun _ _ p q _ aligned => ?_
    refine ((statement_pairs lawful room).ends settles aligned).bind_through
      fun s s' p q same placed => ?_
    exact .pure ⟨congrArg some same, placed.resolve_right fun past => lawful.past_lax past strict⟩

/-- A strict pairing that compares by spans of the first parser changed: the second parser yields
the statement of the first with its spans changed. -/
lemma topLevel_eq_ok (strict : P.strict) (right : P.right = id) {room : Nat} {s : Option Stmt}
    {p' : Parser σ} (aligned : P.aligned p q) (run : topLevel room p = .ok s p') :
    ∃ q', topLevel room q = .ok (s.map (Stmt.mapSpan P.left)) q' ∧ P.aligned p' q' := by
  have ends := topLevel_pairs_of_strict lawful strict room aligned
  rw [run] at ends
  obtain ⟨s', q', run', same, aligned'⟩ := ends
  rw [SameBranch, right, Stmt.mapBranchSpan_id, Stmt.mapBranchSpan_eq_map] at same
  exact ⟨q', by rw [run', same], aligned'⟩

lemma topLevel_eq_error (strict : P.strict) (alike : P.stallsAlike) (right : P.right = id)
    {room : Nat} {e : ScriptError} {p' : Parser σ} (aligned : P.aligned p q)
    (run : topLevel room p = .error e p') :
    ∃ q', topLevel room q = .error (e.mapSpan P.left) q' ∧ P.aligned p' q' := by
  have ends := topLevel_pairs_of_strict lawful strict room aligned
  rw [run] at ends
  obtain ⟨e', q', run', ⟨fault, span⟩, aligned'⟩ := ends ⟨strict, fun _ => alike⟩
  have same : e' = e.mapSpan P.left := by
    rw [right] at span
    exact ScriptError.ext fault.symm span.symm
  exact ⟨q', by rw [run', same], aligned'⟩

end Pairing
end ScriptEngine
