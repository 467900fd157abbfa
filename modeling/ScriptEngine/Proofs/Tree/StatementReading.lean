import ScriptEngine.Proofs.Tree.ExpressionReading
import ScriptEngine.Proofs.Tree.StatementGrammar
import ScriptEngine.Tree.Script

/-!
# What reading a statement consumes

The tokens that are consumed in reading a statement derive it.  Where the derivation depends on the
token behind, that token has been looked at and handed back, and is the next one to be read
(`Parser.Awaits`).  If the statement ends in an `if` without an `else`, then no `else` follows it,
not even behind newlines (`Parser.ElseFree`); in that case the tokens are left exactly as they were
behind the branch (`Parse.elseBranch_reads`).

As with expressions there is one statement for each function of the parser, over every lawful token
stream, given readers of what is one level deeper; `Parse.statement_reads` and
`Parse.topLevel_reads` tie the knot.
-/

namespace ScriptEngine

open TokenStream

variable {τ : Type} [TokenStream τ]

/-- A statement is read in either context. -/
abbrev everywhere : Set TokenContext := Set.univ

lemma mem_everywhere (c : TokenContext) : c ∈ everywhere := Set.mem_univ c

lemma inExpressions_subset_everywhere : inExpressions ⊆ everywhere := Set.subset_univ _

/-- The token, if one is given, is the next one to be read, whatever the context. -/
def Parser.Awaits (rest : Option Token) (p : Parser τ) : Prop :=
  ∀ t ∈ rest, ∀ c, ∃ s, next c p.tokens = (.ok t, s)

/-- Behind newlines comes a token that is no `else`. -/
def Parser.ElseFree (p : Parser τ) : Prop :=
  ∃ t p', Parse.skipNewlines .statement p = .ok t p' ∧ t.kind ≠ .keyword .elseWord

lemma Parser.awaits_none (p : Parser τ) : p.Awaits none := by
  simp [Awaits]

lemma Parser.awaits_pushBack [LawfulTokenStream τ] {c : TokenContext} {s s' : τ} {t : Token}
    (attempts : List Nat) (read : next c s = (.ok t, s')) :
    Parser.Awaits (some t) ⟨pushBack t s', attempts⟩ := by
  intro t' h c
  obtain rfl := Option.mem_some.1 h
  exact ⟨s', next_pushBack read⟩

/-- The awaited token begins what is consumed next. -/
lemma Parser.Awaits.in_front {cs : Set TokenContext} {p p' : Parser τ} {rest : Option Token}
    {us : List Token} (awaits : p.Awaits rest) (moves : p.Moves cs us p') (proper : us ≠ [])
    (more : List Token) : rest.toList <+: us ++ more := by
  cases rest with
  | none => exact List.nil_prefix
  | some t =>
    obtain ⟨u, us, rfl⟩ := List.exists_cons_of_ne_nil proper
    obtain rfl := moves.tokens.head_eq (awaits t rfl)
    exact ⟨us ++ more, rfl⟩

/-- A statement has been read, of which the tokens `front` were consumed before. -/
structure StatementRead (p : Parser τ) (front : List Token) (s : Stmt) (p' : Parser τ)
    (ts : List Token) (rest : Option Token) : Prop where
  moves : p.Moves everywhere ts p'
  awaits : p'.Awaits rest
  derived : s.DerivedFrom (front ++ ts) rest.toList
  nearest : s.takesElse → p'.ElseFree

/-- The reader reads statements, and notes an attempt at each. -/
def ReadsStatements (statement : Parse τ Stmt) : Prop :=
  ∀ p s p', statement p = .ok s p' →
    ∃ ts rest, StatementRead p [] s p' ts rest ∧ p.attempts.length < p'.attempts.length

namespace ExpressionRead

variable {p p' : Parser τ} {e : Expr} {ts : List Token} {stop : Token}

lemma derived (h : ExpressionRead p e p' ts stop) : e.DerivedFrom ts :=
  ⟨h.wellFormed, h.words⟩

lemma movesAnywhere (h : ExpressionRead p e p' ts stop) : p.Moves everywhere ts p' :=
  h.moves.mono inExpressions_subset_everywhere

end ExpressionRead

namespace Parse

variable {expression : Parse τ Expr} {statement : Parse τ Stmt} {p p' : Parser τ}

/-! ## Newlines and terminators -/

lemma skipNewlinesWithin_reads {c : TokenContext} (budget : Nat) {t : Token}
    (h : skipNewlinesWithin c budget p = .ok t p') :
    ∃ blanks s, p' = { p with tokens := s } ∧ Reads {c} p.tokens (blanks ++ [t]) s ∧
      (∀ t ∈ blanks, t.IsNewline) ∧ t.kind ≠ .newline := by
  induction budget generalizing p with
  | zero => simp [skipNewlinesWithin, failHere_apply] at h
  | succ budget ih =>
    simp only [skipNewlinesWithin, bind_eq_ok, next_eq_ok] at h
    obtain ⟨t', _, ⟨s, read, rfl⟩, h⟩ := h
    split at h
    · next newline =>
      obtain ⟨blanks, s', rfl, reads, skipped, proper⟩ := ih h
      refine ⟨t' :: blanks, s', rfl, .cons rfl read reads, ?_, proper⟩
      simp only [List.mem_cons, forall_eq_or_imp]
      exact ⟨newline, skipped⟩
    · next proper =>
      obtain ⟨rfl, rfl⟩ := pure_eq_ok.1 h
      exact ⟨[], s, rfl, .single rfl read, by simp, proper⟩

lemma skipNewlines_reads {c : TokenContext} {t : Token} (h : skipNewlines c p = .ok t p') :
    ∃ blanks s, p' = { p with tokens := s } ∧ Reads {c} p.tokens (blanks ++ [t]) s ∧
      (∀ t ∈ blanks, t.IsNewline) ∧ t.kind ≠ .newline := by
  simp only [skipNewlines, get_bind_apply] at h
  exact skipNewlinesWithin_reads _ h

lemma skipNewlinesWithin_of_reads {c : TokenContext} {budget : Nat} {blanks : List Token}
    {t : Token} {s : τ} (reads : Reads {c} p.tokens (blanks ++ [t]) s)
    (skipped : ∀ t ∈ blanks, t.IsNewline) (proper : t.kind ≠ .newline)
    (enough : blanks.length < budget) :
    skipNewlinesWithin c budget p = .ok t { p with tokens := s } := by
  induction blanks generalizing p budget with
  | nil =>
    obtain ⟨budget, rfl⟩ : ∃ less, budget = less + 1 := ⟨budget - 1, by simp at enough; omega⟩
    rw [skipNewlinesWithin, bind_of_ok (next_eq_ok.2 ⟨s, reads.next_of_single, rfl⟩), if_neg proper]
    rfl
  | cons newline blanks ih =>
    obtain ⟨budget, rfl⟩ : ∃ less, budget = less + 1 := ⟨budget - 1, by simp at enough; omega⟩
    obtain ⟨s₁, read, rest⟩ := reads.next_eq
    simp only [List.mem_cons, forall_eq_or_imp] at skipped
    have first : newline.kind = .newline := skipped.1
    rw [skipNewlinesWithin, bind_of_ok (next_eq_ok.2 ⟨s₁, read, rfl⟩), if_pos first]
    exact ih (p := { p with tokens := s₁ }) rest skipped.2 (by simpa using enough)

/-- Newlines have been skipped, and the token behind them read. -/
lemma moves_of_skipped {c : TokenContext} {blanks : List Token} {t : Token} {s : τ}
    (reads : Reads {c} p.tokens (blanks ++ [t]) s) :
    p.Moves everywhere (blanks ++ [t]) { p with tokens := s } :=
  ⟨⟨s, reads.mono (Set.subset_univ _), .same s⟩, List.suffix_rfl⟩

/-- Newlines have been skipped, and the token behind them handed back. -/
lemma moves_of_skipped_pushBack {c : TokenContext} {blanks : List Token} {t : Token} {s : τ}
    (reads : Reads {c} p.tokens (blanks ++ [t]) s) :
    p.Moves everywhere blanks { p with tokens := TokenStream.pushBack t s } := by
  obtain ⟨mid, front, last⟩ := reads.split
  exact ⟨⟨mid, front.mono (Set.subset_univ _), .looked (mem_everywhere c) last.next_of_single⟩,
    List.suffix_rfl⟩

variable [LawfulTokenStream τ]

lemma skipNewlines_of_reads {c : TokenContext} {blanks : List Token} {t : Token} {s : τ}
    (reads : Reads {c} p.tokens (blanks ++ [t]) s) (skipped : ∀ t ∈ blanks, t.IsNewline)
    (proper : t.kind ≠ .newline) : skipNewlines c p = .ok t { p with tokens := s } := by
  obtain ⟨s₁, front, -⟩ := reads.split
  have enough := Parser.length_lt_budget front fun t h => by
    rw [show t.kind = .newline from skipped t h]
    simp
  rw [skipNewlines, get_bind_apply]
  exact skipNewlinesWithin_of_reads reads skipped proper (by omega)

/-- Rounds beyond what remains to be read make no difference. -/
lemma skipNewlinesWithin_eq {c : TokenContext} {budget budget' : Nat}
    (enough : remaining p.tokens < budget) (enough' : remaining p.tokens < budget') :
    skipNewlinesWithin c budget p = skipNewlinesWithin c budget' p := by
  induction budget generalizing budget' p with
  | zero => exact absurd enough (Nat.not_lt_zero _)
  | succ budget ih =>
    obtain ⟨budget', rfl⟩ := Nat.exists_eq_succ_of_ne_zero (Nat.ne_zero_of_lt enough')
    rw [skipNewlinesWithin, skipNewlinesWithin]
    cases run : next c p with
    | error e p₁ => rw [bind_of_error run, bind_of_error run]
    | ok t p₁ =>
      obtain ⟨s, read, rfl⟩ := next_eq_ok.1 run
      rw [bind_of_ok run, bind_of_ok run]
      split
      · next newline =>
        have nearer := remaining_next read (by simp [newline])
        exact ih (nearer.trans_le (Nat.le_of_lt_succ enough))
          (nearer.trans_le (Nat.le_of_lt_succ enough'))
      · rfl

/-- A newline in front makes no difference. -/
lemma skipNewlines_of_newline {c : TokenContext} {t : Token} {s : τ}
    (read : TokenStream.next c p.tokens = (.ok t, s)) (newline : t.kind = .newline) :
    skipNewlines c p = skipNewlines c { p with tokens := s } := by
  have enough (p : Parser τ) : remaining p.tokens < p.budget := by
    simp only [Parser.budget, attemptLimit]
    omega
  have nearer := remaining_next read (by simp [newline])
  have more : remaining p.tokens < Parser.budget { p with tokens := s } + p.budget + 1 := by
    have := enough p
    omega
  have first : skipNewlines c p =
      skipNewlinesWithin c (Parser.budget { p with tokens := s } + p.budget + 1) p :=
    skipNewlinesWithin_eq (enough p) more
  rw [first, skipNewlinesWithin, bind_of_ok (next_eq_ok.2 ⟨s, read, rfl⟩), if_pos newline]
  refine skipNewlinesWithin_eq ?_ (enough { p with tokens := s })
  have := enough { p with tokens := s }
  simp only at this ⊢
  omega

lemma skipNewlines_of_next {c : TokenContext} {t : Token} {s : τ}
    (read : TokenStream.next c p.tokens = (.ok t, s)) (proper : t.kind ≠ .newline) :
    skipNewlines c p = .ok t { p with tokens := s } := by
  have reads : Reads {c} p.tokens ([] ++ [t]) s := .single rfl read
  exact skipNewlines_of_reads reads (by simp) proper

lemma awaits_of_skipped_pushBack {c : TokenContext} {blanks : List Token} {t : Token} {s : τ}
    (reads : Reads {c} p.tokens (blanks ++ [t]) s) :
    Parser.Awaits (some t) { p with tokens := TokenStream.pushBack t s } := by
  intro t' h c'
  obtain rfl := Option.mem_some.1 h
  exact ⟨s, reads.next_pushBack c'⟩

lemma terminator_reads {after : Terminated} {u : Unit} (h : terminator after p = .ok u p') :
    ∃ ts rest, p.Moves everywhere ts p' ∧ p'.Awaits rest ∧ TerminatorFrom ts rest.toList := by
  simp only [terminator, bind_eq_ok, next_eq_ok] at h
  obtain ⟨t, _, ⟨s, read, rfl⟩, h⟩ := h
  have written (kind : t.kind = .semicolon ∨ t.kind = .newline)
      (h : (pure () : Parse τ Unit) { p with tokens := s } = .ok u p') :
      ∃ ts rest, p.Moves everywhere ts p' ∧ p'.Awaits rest ∧ TerminatorFrom ts rest.toList := by
    obtain ⟨-, rfl⟩ := pure_eq_ok.1 h
    exact ⟨[t], none, .next (mem_everywhere _) read, Parser.awaits_none _, .written kind⟩
  have implied (kind : t.kind = .endOfInput ∨ t.kind = .rightBrace)
      (h : (pushBack t : Parse τ Unit) { p with tokens := s } = .ok u p') :
      ∃ ts rest, p.Moves everywhere ts p' ∧ p'.Awaits rest ∧ TerminatorFrom ts rest.toList := by
    rw [pushBack_apply] at h
    cases h
    exact ⟨[], some t, .look (mem_everywhere _) read, Parser.awaits_pushBack _ read, .implied kind⟩
  cases kind : t.kind with
  | semicolon => exact written (.inl kind) (by simpa only [kind] using h)
  | newline => exact written (.inr kind) (by simpa only [kind] using h)
  | endOfInput => exact implied (.inl kind) (by simpa only [kind] using h)
  | rightBrace => exact implied (.inr kind) (by simpa only [kind] using h)
  | _ => simp [kind, fail_apply] at h

/-! ## Declarations -/

lemma declarator_reads (inner : ReadsExpressions expression) {d : Declarator}
    (h : declarator expression p = .ok d p') :
    ∃ ts, p.Moves everywhere ts p' ∧ d.DerivedFrom ts := by
  simp only [declarator, bind_eq_ok, next_eq_ok] at h
  obtain ⟨name, _, ⟨s, first, rfl⟩, h⟩ := h
  have named : p.Moves everywhere [name] _ := .next (mem_everywhere _) first
  split at h
  · next kind =>
    simp only [bind_eq_ok, next_eq_ok] at h
    obtain ⟨t, _, ⟨s', second, rfl⟩, h⟩ := h
    split at h
    · next assigns =>
      simp only [bind_eq_ok] at h
      obtain ⟨value, p₁, read, h⟩ := h
      obtain ⟨rfl, rfl⟩ := pure_eq_ok.1 h
      obtain ⟨ts, stop, value_read⟩ := inner _ _ _ read
      have sign : Parser.Moves everywhere { p with tokens := s } [t] _ :=
        .next (mem_everywhere _) second
      exact ⟨[name] ++ ([t] ++ ts), named.trans (sign.trans value_read.movesAnywhere),
        .bound kind assigns value_read.derived⟩
    · simp only [bind_eq_ok, pushBack_apply] at h
      obtain ⟨_, _, ⟨⟩, h⟩ := h
      obtain ⟨rfl, rfl⟩ := pure_eq_ok.1 h
      exact ⟨[name] ++ [], named.trans (.look (mem_everywhere _) second), .unbound kind⟩
  · simp [fail_apply] at h

lemma declaratorsWithin_reads (inner : ReadsExpressions expression) (budget : Nat)
    {before ds : List Declarator}
    (h : declaratorsWithin expression budget before p = .ok ds p') :
    ∃ more ts, ds = before.reverse ++ more ∧ more ≠ [] ∧ p.Moves everywhere ts p' ∧
      Declarator.AllDerivedFrom more ts := by
  induction budget generalizing p before with
  | zero => simp [declaratorsWithin, failHere_apply] at h
  | succ budget ih =>
    simp only [declaratorsWithin, bind_eq_ok, next_eq_ok] at h
    obtain ⟨d, p₁, read, t, _, ⟨s, token, rfl⟩, h⟩ := h
    obtain ⟨ts, moves, derived⟩ := declarator_reads inner read
    split at h
    · next comma =>
      obtain ⟨more, us, rfl, -, onward, others⟩ := ih h
      have separator : p₁.Moves everywhere [t] _ := .next (mem_everywhere _) token
      exact ⟨d :: more, ts ++ ([t] ++ us), by simp, by simp,
        moves.trans (separator.trans onward), .more derived comma others⟩
    · simp only [bind_eq_ok, pushBack_apply] at h
      obtain ⟨_, _, ⟨⟩, h⟩ := h
      obtain ⟨rfl, rfl⟩ := pure_eq_ok.1 h
      exact ⟨[d], ts ++ [], by simp, by simp, moves.trans (.look (mem_everywhere _) token),
        by simpa using Declarator.AllDerivedFrom.last derived⟩

lemma declaration_reads (inner : ReadsExpressions expression) {start span : Span}
    {ds : List Declarator} (h : declaration expression start p = .ok (ds, span) p') :
    ∃ ts, p.Moves everywhere ts p' ∧ Declarator.AllDerivedFrom ds ts ∧
      span = Declarator.spanOf start ds := by
  simp only [declaration, get_bind_apply, bind_eq_ok] at h
  obtain ⟨ds', p₁, read, h⟩ := h
  obtain ⟨more, ts, rfl, -, moves, derived⟩ := declaratorsWithin_reads inner _ read
  obtain ⟨result, rfl⟩ := pure_eq_ok.1 h
  obtain ⟨rfl, rfl⟩ : _ = ds ∧ _ = span := by simpa using result
  exact ⟨ts, moves, by simpa using derived, rfl⟩

/-! ## Branches and loops -/

/-- Either no `else` follows, and the parser is left as it was, or a branch is read behind it. -/
lemma elseBranch_eq_ok {other : Option Stmt} (h : elseBranch statement p = .ok other p') :
    (other = none ∧ p' = p ∧ p.ElseFree) ∨
      ∃ s t p₁, other = some s ∧ skipNewlines .statement p = .ok t p₁ ∧
        t.kind = .keyword .elseWord ∧ statement p₁ = .ok s p' := by
  simp only [elseBranch, get_bind_apply, bind_eq_ok] at h
  obtain ⟨t, p₁, skip, h⟩ := h
  split at h
  · next elseWord =>
    simp only [bind_eq_ok] at h
    obtain ⟨s, p₂, read, h⟩ := h
    obtain ⟨rfl, rfl⟩ := pure_eq_ok.1 h
    exact .inr ⟨s, t, p₁, rfl, skip, elseWord, read⟩
  · next noElse =>
    obtain ⟨blanks, s, rfl, reads, -⟩ := skipNewlines_reads skip
    simp only [bind_eq_ok] at h
    obtain ⟨_, p₂, back, h⟩ := h
    obtain ⟨rfl, rfl⟩ := pure_eq_ok.1 h
    refine .inl ⟨rfl, ?_, t, _, skip, noElse⟩
    cases back
    simp only [reads.restore_eq]

/-- Without an `else` the parser is left as it was. -/
lemma elseBranch_reads (inner : ReadsStatements statement) {other : Option Stmt}
    (h : elseBranch statement p = .ok other p') :
    (other = none ∧ p' = p ∧ p.ElseFree) ∨
      ∃ s blanks word p₁ ts rest, other = some s ∧ ¬ p.ElseFree ∧ (∀ t ∈ blanks, t.IsNewline) ∧
        word.kind = .keyword .elseWord ∧ p.Moves everywhere (blanks ++ [word]) p₁ ∧
        StatementRead p₁ [] s p' ts rest := by
  rcases elseBranch_eq_ok h with kept | ⟨s, word, p₁, rfl, skip, elseWord, read⟩
  · exact .inl kept
  · obtain ⟨blanks, l, rfl, reads, skipped, -⟩ := skipNewlines_reads skip
    obtain ⟨ts, rest, other_read, -⟩ := inner _ _ _ read
    refine .inr ⟨s, blanks, word, _, ts, rest, rfl, ?_, skipped, elseWord, moves_of_skipped reads,
      other_read⟩
    rintro ⟨t', p₁, skip', noElse⟩
    rw [skip] at skip'
    cases skip'
    exact noElse elseWord

lemma elseBranch_of_elseFree (h : p.ElseFree) : elseBranch statement p = .ok none p := by
  obtain ⟨t, p₁, skip, noElse⟩ := h
  obtain ⟨blanks, s, rfl, reads, -⟩ := skipNewlines_reads skip
  rw [elseBranch, get_bind_apply, bind_of_ok skip, if_neg noElse]
  change EStateM.Result.ok none { p with tokens := restore p.tokens s } = _
  rw [reads.restore_eq]

lemma choice_reads (readsStatements : ReadsStatements statement)
    (readsExpressions : ReadsExpressions expression) {word : Token} {s : Stmt}
    (kind : word.kind = .keyword .ifWord)
    (h : choice statement expression word.span p = .ok s p') :
    ∃ ts rest, StatementRead p [word] s p' ts rest := by
  simp only [choice, bind_eq_ok, expect_eq_ok] at h
  obtain ⟨opening, _, ⟨opens, s₁, first, rfl⟩, condition, p₂, condition_eq, closing, _,
    ⟨closes, s₂, last, rfl⟩, branch, p₃, branch_eq, other, p₄, other_eq, h⟩ := h
  obtain ⟨cs, stop, condition_read⟩ := readsExpressions _ _ _ condition_eq
  obtain ⟨ts, rest, branch_read, -⟩ := readsStatements _ _ _ branch_eq
  have header : p.Moves everywhere ([opening] ++ (cs ++ [closing])) _ :=
    .trans (.next (mem_everywhere _) first)
      (condition_read.movesAnywhere.trans (.next (mem_everywhere _) last))
  rcases elseBranch_reads readsStatements other_eq with ⟨rfl, rfl, elseFree⟩ |
    ⟨elseBranch, blanks, elseWord, p₅, us, rest', rfl, elseFollows, skipped, otherwise, onward,
      other_read⟩
  · obtain ⟨rfl, rfl⟩ := pure_eq_ok.1 h
    refine ⟨_, rest, header.trans branch_read.moves, branch_read.awaits, ?_, fun _ => elseFree⟩
    simpa using Stmt.DerivedFrom.choice kind opens condition_read.derived closes branch_read.derived
  · obtain ⟨rfl, rfl⟩ := pure_eq_ok.1 h
    have continued := onward.trans other_read.moves
    refine ⟨_, rest', (header.trans branch_read.moves).trans continued, other_read.awaits, ?_,
      other_read.nearest⟩
    -- The token that the branch awaits is the first newline or the `else` itself.
    have behind := branch_read.awaits.in_front continued (by simp) rest'.toList
    have branch_derived := branch_read.derived.of_prefix behind
    have nearest : branch.takesElse = false := by
      cases takes : branch.takesElse with
      | false => rfl
      | true => exact absurd (branch_read.nearest takes) elseFollows
    simpa using Stmt.DerivedFrom.choiceElse kind opens condition_read.derived closes
      (by simpa using branch_derived) nearest skipped otherwise other_read.derived

/-- An `if` without an `else` leaves the parser just as its branch does. -/
lemma choice_without_else (inner : ReadsStatements statement) {start span : Span}
    {condition : Expr} {branch : Stmt}
    (h : choice statement expression start p = .ok (.choice condition branch none span) p') :
    ∃ p₁, statement p₁ = .ok branch p' := by
  simp only [choice, bind_eq_ok] at h
  obtain ⟨_, _, -, _, _, -, _, _, -, branch', p₁, branch_eq, other, p₂, other_eq, h⟩ := h
  rcases elseBranch_reads inner other_eq with ⟨rfl, rfl, -⟩ | ⟨_, _, _, _, _, _, rfl, -⟩
  · obtain ⟨⟨⟩, rfl⟩ := pure_eq_ok.1 h
    exact ⟨_, branch_eq⟩
  · obtain ⟨⟨⟩, -⟩ := pure_eq_ok.1 h

lemma loopStart_reads (inner : ReadsExpressions expression) {start : Option Stmt}
    (h : loopStart expression p = .ok start p') :
    ∃ ts, p.Moves everywhere ts p' ∧ Stmt.StartDerivedFrom start ts := by
  simp only [loopStart, bind_eq_ok, next_eq_ok] at h
  obtain ⟨t, _, ⟨s, read, rfl⟩, h⟩ := h
  have expressed (h : (do
      pushBack t
      let expr ← expression
      return some (.expression expr expr.span) : Parse τ (Option Stmt)) { p with tokens := s } = .ok start p') :
      ∃ ts, p.Moves everywhere ts p' ∧ Stmt.StartDerivedFrom start ts := by
    simp only [bind_eq_ok, pushBack_apply] at h
    obtain ⟨_, _, ⟨⟩, e, p₁, e_eq, h⟩ := h
    obtain ⟨rfl, rfl⟩ := pure_eq_ok.1 h
    obtain ⟨ts, stop, e_read⟩ := inner _ _ _ e_eq
    exact ⟨[] ++ ts, .trans (.look (mem_everywhere _) read) e_read.movesAnywhere,
      .expression e_read.derived⟩
  cases kind : t.kind with
  | semicolon =>
    simp only [kind, bind_eq_ok, pushBack_apply] at h
    obtain ⟨_, _, ⟨⟩, h⟩ := h
    obtain ⟨rfl, rfl⟩ := pure_eq_ok.1 h
    exact ⟨[], .look (mem_everywhere _) read, .none⟩
  | keyword word =>
    cases word with
    | varWord =>
      simp only [kind, bind_eq_ok] at h
      obtain ⟨⟨ds, span⟩, p₁, declared, h⟩ := h
      obtain ⟨rfl, rfl⟩ := pure_eq_ok.1 h
      obtain ⟨ts, moves, derived, rfl⟩ := declaration_reads inner declared
      exact ⟨[t] ++ ts, .trans (.next (mem_everywhere _) read) moves, .declare kind derived⟩
    | _ => exact expressed (by simpa only [kind] using h)
  | _ => exact expressed (by simpa only [kind] using h)

lemma optionalExpression_reads (inner : ReadsExpressions expression) {closer : TokenKind}
    {e : Option Expr} (h : optionalExpression expression closer p = .ok e p') :
    ∃ ts, p.Moves everywhere ts p' ∧ Expr.OptionDerivedFrom e ts := by
  simp only [optionalExpression, bind_eq_ok, peekKind_eq_ok] at h
  obtain ⟨_, _, ⟨t, s, peek, rfl, rfl⟩, h⟩ := h
  have look : p.Moves everywhere [] _ := .look (mem_everywhere _) peek
  split at h
  · obtain ⟨rfl, rfl⟩ := pure_eq_ok.1 h
    exact ⟨[], look, .none⟩
  · simp only [bind_eq_ok] at h
    obtain ⟨e, p₁, e_eq, h⟩ := h
    obtain ⟨rfl, rfl⟩ := pure_eq_ok.1 h
    obtain ⟨ts, stop, e_read⟩ := inner _ _ _ e_eq
    exact ⟨[] ++ ts, look.trans e_read.movesAnywhere, .some e_read.derived⟩

lemma loop_reads (readsStatements : ReadsStatements statement)
    (readsExpressions : ReadsExpressions expression) {word : Token} {s : Stmt}
    (kind : word.kind = .keyword .forWord)
    (h : loop statement expression word.span p = .ok s p') :
    ∃ ts rest, StatementRead p [word] s p' ts rest := by
  simp only [loop, bind_eq_ok, expect_eq_ok] at h
  obtain ⟨opening, _, ⟨opens, s₁, first, rfl⟩, start, p₂, start_eq, divider, _,
    ⟨divides, s₂, second, rfl⟩, condition, p₃, condition_eq, separator, _,
    ⟨separates, s₃, third, rfl⟩, increment, p₄, increment_eq, closing, _,
    ⟨closes, s₄, last, rfl⟩, body, p₅, body_eq, h⟩ := h
  obtain ⟨rfl, rfl⟩ := pure_eq_ok.1 h
  obtain ⟨ss, start_moves, start_derived⟩ := loopStart_reads readsExpressions start_eq
  obtain ⟨cs, condition_moves, tests⟩ := optionalExpression_reads readsExpressions condition_eq
  obtain ⟨is, increment_moves, steps⟩ := optionalExpression_reads readsExpressions increment_eq
  obtain ⟨ts, rest, body_read, -⟩ := readsStatements _ _ _ body_eq
  have header : p.Moves everywhere ([opening] ++ (ss ++ [divider])) _ :=
    .trans (.next (mem_everywhere _) first)
      (start_moves.trans (.next (mem_everywhere _) second))
  have clauses := (condition_moves.trans (.next (mem_everywhere _) third)).trans
    (increment_moves.trans (.next (mem_everywhere _) last))
  refine ⟨_, rest, (header.trans clauses).trans body_read.moves, body_read.awaits, ?_,
    body_read.nearest⟩
  simpa using Stmt.DerivedFrom.loop kind opens start_derived divides tests separates steps closes
    body_read.derived

/-! ## Simple statements and blocks -/

lemma giveBack_reads (inner : ReadsExpressions expression) {word : Token} {s : Stmt}
    (kind : word.kind = .keyword .returnWord) (h : giveBack expression word.span p = .ok s p') :
    ∃ ts rest, StatementRead p [word] s p' ts rest := by
  simp only [giveBack, bind_eq_ok, peekKind_eq_ok] at h
  obtain ⟨_, _, ⟨t, s₁, peek, rfl, rfl⟩, h⟩ := h
  have look : p.Moves everywhere [] _ := .look (mem_everywhere _) peek
  split at h
  · simp only [bind_eq_ok] at h
    obtain ⟨_, p₁, ended, h⟩ := h
    obtain ⟨rfl, rfl⟩ := pure_eq_ok.1 h
    obtain ⟨us, rest, moves, awaits, ends⟩ := terminator_reads ended
    exact ⟨[] ++ us, rest, look.trans moves, awaits, .giveBack kind .none ends,
      by simp [Stmt.takesElse]⟩
  · simp only [bind_eq_ok] at h
    obtain ⟨value, p₁, value_eq, _, p₂, ended, h⟩ := h
    obtain ⟨rfl, rfl⟩ := pure_eq_ok.1 h
    obtain ⟨ts, stop, value_read⟩ := inner _ _ _ value_eq
    obtain ⟨us, rest, moves, awaits, ends⟩ := terminator_reads ended
    have derived := Stmt.DerivedFrom.giveBack kind (.some value_read.derived) ends
    exact ⟨[] ++ (ts ++ us), rest, look.trans (value_read.movesAnywhere.trans moves), awaits,
      derived, by simp [Stmt.takesElse]⟩

lemma expressionStatement_reads (inner : ReadsExpressions expression) {s : Stmt}
    (h : expressionStatement expression p = .ok s p') :
    ∃ ts rest, StatementRead p [] s p' ts rest := by
  simp only [expressionStatement, bind_eq_ok] at h
  obtain ⟨e, p₁, e_eq, _, p₂, ended, h⟩ := h
  obtain ⟨rfl, rfl⟩ := pure_eq_ok.1 h
  obtain ⟨ts, stop, e_read⟩ := inner _ _ _ e_eq
  obtain ⟨us, rest, moves, awaits, ends⟩ := terminator_reads ended
  have derived := Stmt.DerivedFrom.expression e_read.derived ends
  exact ⟨ts ++ us, rest, e_read.movesAnywhere.trans moves, awaits, derived,
    by simp [Stmt.takesElse]⟩

lemma blockWithin_reads (inner : ReadsStatements statement) (budget : Nat) {start : Span}
    {before : List Stmt} {s : Stmt} (h : blockWithin statement start budget before p = .ok s p') :
    ∃ more ts blanks closing, s = .block (before.reverse ++ more) (start.through closing.span) ∧
      p.Moves everywhere (ts ++ (blanks ++ [closing])) p' ∧
      Stmt.AllDerivedFrom more ts (blanks ++ [closing]) ∧ (∀ t ∈ blanks, t.IsNewline) ∧
      closing.kind = .rightBrace := by
  induction budget generalizing p before with
  | zero => simp [blockWithin, failHere_apply] at h
  | succ budget ih =>
    simp only [blockWithin, bind_eq_ok] at h
    obtain ⟨t, p₁, skip, h⟩ := h
    obtain ⟨blanks, s₁, rfl, reads, skipped, -⟩ := skipNewlines_reads skip
    have one_more (proper : t.kind ≠ .rightBrace) (h : (do
          pushBack t
          let one ← statement
          blockWithin statement start budget (one :: before) : Parse τ Stmt)
        { p with tokens := s₁ } = .ok s p') :
        ∃ more ts blanks closing,
          s = .block (before.reverse ++ more) (start.through closing.span) ∧
          p.Moves everywhere (ts ++ (blanks ++ [closing])) p' ∧
          Stmt.AllDerivedFrom more ts (blanks ++ [closing]) ∧ (∀ t ∈ blanks, t.IsNewline) ∧
          closing.kind = .rightBrace := by
      simp only [bind_eq_ok, pushBack_apply] at h
      obtain ⟨_, _, ⟨⟩, one, p₂, one_eq, h⟩ := h
      obtain ⟨ts, rest, one_read, -⟩ := inner _ _ _ one_eq
      obtain ⟨more, us, blanks', closing, rfl, moves, others, skipped', closes⟩ := ih h
      have all := one_read.moves.trans moves
      -- The token handed back begins what the statement and the rest of the block consume.
      obtain ⟨following, begins⟩ :
          ∃ following, ts ++ (us ++ (blanks' ++ [closing])) = t :: following := by
        obtain ⟨following, eq⟩ := (awaits_of_skipped_pushBack reads).in_front all (by simp) []
        exact ⟨following, by simpa using eq.symm⟩
      have behind := one_read.awaits.in_front moves (by simp) []
      have derived := one_read.derived.of_prefix behind
      refine ⟨one :: more, blanks ++ (ts ++ us), blanks', closing, by simp, ?_, ?_, skipped',
        closes⟩
      · simpa using (moves_of_skipped_pushBack reads).trans all
      · exact .cons skipped begins proper (by simpa using derived) others
    cases kind : t.kind with
    | rightBrace =>
      simp only [kind] at h
      obtain ⟨rfl, rfl⟩ := pure_eq_ok.1 h
      exact ⟨[], [], blanks, t, by simp, moves_of_skipped reads, .nil, skipped, kind⟩
    | endOfInput => simp [kind, fail_apply] at h
    | _ => exact one_more (by simp [kind]) (by simpa only [kind] using h)

/-! ## Statements -/

section
variable {t : Token} {s₁ : τ} {blanks : List Token} {s : Stmt} {ts : List Token} {rest : Option Token}

/-- An attempt is noted and newlines are skipped.  The token behind them may be the first of the
statement. -/
lemma attempted_begun (reads : Reads {.statement} p.tokens (blanks ++ [t]) s₁)
    (skipped : ∀ t ∈ blanks, t.IsNewline) {position : Nat}
    (h : StatementRead ⟨s₁, position :: p.attempts⟩ [t] s p' ts rest) :
    ∃ ts rest, StatementRead p [] s p' ts rest ∧ p.attempts.length < p'.attempts.length := by
  have noted : p.Moves everywhere (blanks ++ [t]) ⟨s₁, position :: p.attempts⟩ :=
    ⟨(moves_of_skipped reads).tokens, List.suffix_cons _ _⟩
  refine ⟨_, rest, ⟨noted.trans h.moves, h.awaits, ?_, h.nearest⟩, h.moves.attempts.length_le⟩
  simpa using h.derived.newlines skipped

/-- Or it is handed back, and the statement is read in front of it. -/
lemma attempted_returned (reads : Reads {.statement} p.tokens (blanks ++ [t]) s₁)
    (skipped : ∀ t ∈ blanks, t.IsNewline) {position : Nat}
    (h : StatementRead ⟨TokenStream.pushBack t s₁, position :: p.attempts⟩ [] s p' ts rest) :
    ∃ ts rest, StatementRead p [] s p' ts rest ∧ p.attempts.length < p'.attempts.length := by
  have noted : p.Moves everywhere blanks ⟨TokenStream.pushBack t s₁, position :: p.attempts⟩ :=
    ⟨(moves_of_skipped_pushBack reads).tokens, List.suffix_cons _ _⟩
  refine ⟨_, rest, ⟨noted.trans h.moves, h.awaits, ?_, h.nearest⟩, h.moves.attempts.length_le⟩
  simpa using h.derived.newlines skipped

end

lemma statementBody_reads (readsStatements : ReadsStatements statement)
    (readsExpressions : ReadsExpressions expression) :
    ReadsStatements (statementBody statement expression) := by
  intro p s p' h
  simp only [statementBody, bind_eq_ok, attempt_eq_ok] at h
  obtain ⟨_, _, ⟨-, rfl⟩, t, p₁, skip, h⟩ := h
  obtain ⟨blanks, s₁, rfl, reads, skipped, -⟩ := skipNewlines_reads skip
  -- A token that can only stand behind a statement is left to what is around it.
  have missing (kind : t.kind = .comma ∨ t.kind = .rightBrace ∨ t.kind = .keyword .elseWord)
      (h : (do pushBack t; return .empty t.span : Parse τ Stmt)
        ⟨s₁, TokenStream.position p.tokens :: p.attempts⟩ = .ok s p') :
      ∃ ts rest, StatementRead p [] s p' ts rest ∧ p.attempts.length < p'.attempts.length := by
    simp only [bind_eq_ok, pushBack_apply] at h
    obtain ⟨_, _, ⟨⟩, h⟩ := h
    obtain ⟨rfl, rfl⟩ := pure_eq_ok.1 h
    exact attempted_returned reads skipped ⟨.refl _, awaits_of_skipped_pushBack reads, .missing kind,
      by simp [Stmt.takesElse]⟩
  -- Whatever is not told by its first token is an expression.
  have expressed (h : (do pushBack t; expressionStatement expression : Parse τ Stmt)
      ⟨s₁, TokenStream.position p.tokens :: p.attempts⟩ = .ok s p') :
      ∃ ts rest, StatementRead p [] s p' ts rest ∧ p.attempts.length < p'.attempts.length := by
    simp only [bind_eq_ok, pushBack_apply] at h
    obtain ⟨_, _, ⟨⟩, h⟩ := h
    obtain ⟨ts, rest, read⟩ := expressionStatement_reads readsExpressions h
    exact attempted_returned reads skipped read
  cases kind : t.kind with
  | semicolon =>
    simp only [kind] at h
    obtain ⟨rfl, rfl⟩ := pure_eq_ok.1 h
    have alone : (Stmt.empty t.span).DerivedFrom ([t] ++ []) (none : Option Token).toList :=
      .semicolon kind
    exact attempted_begun reads skipped ⟨.refl _, Parser.awaits_none _, alone, by simp [Stmt.takesElse]⟩
  | leftBrace =>
    simp only [kind, get_bind_apply] at h
    obtain ⟨more, ts, blanks', closing, rfl, moves, inside, skipped', closes⟩ :=
      blockWithin_reads readsStatements _ h
    exact attempted_begun reads skipped ⟨moves, Parser.awaits_none _, .block kind inside skipped' closes,
      by simp [Stmt.takesElse]⟩
  | comma => exact missing (.inl kind) (by simpa only [kind] using h)
  | rightBrace => exact missing (.inr (.inl kind)) (by simpa only [kind] using h)
  | endOfInput => simp [kind, fail_apply] at h
  | rightParen => simp [kind, fail_apply] at h
  | keyword word =>
    cases word with
    | ifWord =>
      obtain ⟨ts, rest, read⟩ :=
        choice_reads readsStatements readsExpressions kind (by simpa only [kind] using h)
      exact attempted_begun reads skipped read
    | forWord =>
      obtain ⟨ts, rest, read⟩ :=
        loop_reads readsStatements readsExpressions kind (by simpa only [kind] using h)
      exact attempted_begun reads skipped read
    | returnWord =>
      obtain ⟨ts, rest, read⟩ := giveBack_reads readsExpressions kind (by simpa only [kind] using h)
      exact attempted_begun reads skipped read
    | elseWord => exact missing (.inr (.inr kind)) (by simpa only [kind] using h)
    | varWord =>
      simp only [kind, bind_eq_ok] at h
      obtain ⟨⟨ds, span⟩, p₁, declared, _, p₂, ended, h⟩ := h
      obtain ⟨rfl, rfl⟩ := pure_eq_ok.1 h
      obtain ⟨ts, moves, derived, rfl⟩ := declaration_reads readsExpressions declared
      obtain ⟨us, rest, moves', awaits, ends⟩ := terminator_reads ended
      have declared := Stmt.DerivedFrom.declare kind derived ends
      exact attempted_begun reads skipped ⟨moves.trans moves', awaits, declared, by simp [Stmt.takesElse]⟩
  | _ => exact expressed (by simpa only [kind] using h)

lemma statement_reads (room : Nat) : ReadsStatements (Parse.statement room : Parse τ Stmt) := by
  induction room with
  | zero => intro p s p' h; simp [Parse.statement, failHere_apply] at h
  | succ room ih => exact statementBody_reads ih (expression_reads room)

omit [LawfulTokenStream τ] in
/-- In front of a token that is no newline a statement is read at it. -/
lemma topLevel_of_skipNewlines {room : Nat} {t : Token} {p₁ : Parser τ}
    (skip : skipNewlines .statement p = .ok t p₁) (proper : t.kind ≠ .endOfInput) :
    topLevel room p = (do return some (← Parse.statement room) : Parse τ (Option Stmt))
      { p₁ with tokens := TokenStream.pushBack t p₁.tokens } := by
  rw [topLevel, bind_of_ok skip, if_neg proper, bind_of_ok (pushBack_apply t)]

omit [LawfulTokenStream τ] in
lemma topLevel_eq_some {room : Nat} {s : Stmt} (h : topLevel room p = .ok (some s) p') :
    ∃ t p₁, skipNewlines .statement p = .ok t p₁ ∧ t.kind ≠ .endOfInput ∧
      Parse.statement room { p₁ with tokens := TokenStream.pushBack t p₁.tokens } = .ok s p' := by
  obtain ⟨t, p₁, skip, -⟩ := bind_eq_ok.1 h
  by_cases end_kind : t.kind = .endOfInput
  · rw [topLevel, bind_of_ok skip, if_pos end_kind] at h
    obtain ⟨⟨⟩, -⟩ := pure_eq_ok.1 h
  · rw [topLevel_of_skipNewlines skip end_kind] at h
    obtain ⟨_, _, read, ended⟩ := bind_eq_ok.1 h
    obtain ⟨⟨⟩, rfl⟩ := pure_eq_ok.1 ended
    exact ⟨t, p₁, skip, end_kind, read⟩

omit [LawfulTokenStream τ] in
lemma topLevel_eq_none {room : Nat} (h : topLevel room p = .ok none p') :
    ∃ t, skipNewlines .statement p = .ok t p' ∧ t.kind = .endOfInput := by
  obtain ⟨t, p₁, skip, -⟩ := bind_eq_ok.1 h
  by_cases end_kind : t.kind = .endOfInput
  · rw [topLevel, bind_of_ok skip, if_pos end_kind] at h
    obtain ⟨-, rfl⟩ := pure_eq_ok.1 h
    exact ⟨t, skip, end_kind⟩
  · rw [topLevel_of_skipNewlines skip end_kind] at h
    obtain ⟨_, _, -, ended⟩ := bind_eq_ok.1 h
    obtain ⟨⟨⟩, -⟩ := pure_eq_ok.1 ended

lemma topLevel_reads {room : Nat} {s : Stmt} (h : topLevel room p = .ok (some s) p') :
    ∃ ts rest, StatementRead p [] s p' ts rest ∧ p.attempts.length < p'.attempts.length := by
  obtain ⟨t, p₁, skip, -, read⟩ := topLevel_eq_some h
  obtain ⟨blanks, s₁, rfl, reads, skipped, -⟩ := skipNewlines_reads skip
  obtain ⟨ts, rest, s_read, noted⟩ := statement_reads room _ _ _ read
  refine ⟨_, rest, ⟨(moves_of_skipped_pushBack reads).trans s_read.moves, s_read.awaits, ?_,
    s_read.nearest⟩, noted⟩
  simpa using s_read.derived.newlines skipped

end Parse
end ScriptEngine
