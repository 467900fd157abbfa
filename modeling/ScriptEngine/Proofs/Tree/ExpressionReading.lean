import ScriptEngine.Proofs.Token.Reading
import ScriptEngine.Proofs.Tree.ExpressionGrammar
import ScriptEngine.Tree.Expression

/-!
# What reading an expression consumes

A tree that the parser returns is well formed, and its words are those of the tokens that were
consumed, each once and in order; the parser stops in front of a token that is no operator.  The
statements hold for every lawful token stream.  `expression_reads` is the main one; the others say
the same of the parts of an expression, given a reader of the expressions inside it.
-/

namespace ScriptEngine

open TokenStream

variable {τ : Type} [TokenStream τ]

/-- The context in which the parts of expressions are read. -/
abbrev inExpressions : Set TokenContext := {.expression}

lemma mem_inExpressions : TokenContext.expression ∈ inExpressions := rfl

/-- Between two states of a parser the tokens have been consumed, and no note of an attempt was
lost. -/
structure Parser.Moves (cs : Set TokenContext) (p : Parser τ) (ts : List Token) (p' : Parser τ) :
    Prop where
  tokens : Consumes cs p.tokens ts p'.tokens
  attempts : p.attempts <:+ p'.attempts

namespace Parser.Moves

variable {cs ds : Set TokenContext} {c : TokenContext} {p p₁ p₂ : Parser τ} {s : τ} {t : Token}
  {ts us : List Token}

lemma refl (p : Parser τ) : p.Moves cs [] p :=
  ⟨.refl _, List.suffix_rfl⟩

lemma next (context : c ∈ cs) (read : TokenStream.next c p.tokens = (.ok t, s)) :
    p.Moves cs [t] { p with tokens := s } :=
  ⟨.single context read, List.suffix_rfl⟩

lemma look (context : c ∈ cs) (read : TokenStream.next c p.tokens = (.ok t, s)) :
    p.Moves cs [] { p with tokens := pushBack t s } :=
  ⟨.looked context read, List.suffix_rfl⟩

lemma mono (h : cs ⊆ ds) (moves : p.Moves cs ts p₁) : p.Moves ds ts p₁ :=
  ⟨moves.tokens.mono h, moves.attempts⟩

lemma trans [LawfulTokenStream τ] (first : p.Moves cs ts p₁) (second : p₁.Moves cs us p₂) :
    p.Moves cs (ts ++ us) p₂ :=
  ⟨first.tokens.trans second.tokens, first.attempts.trans second.attempts⟩

end Parser.Moves

/-- There is budget for more rounds than there are tokens. -/
lemma Parser.length_lt_budget [LawfulTokenStream τ] {cs : Set TokenContext} {p : Parser τ}
    {ts : List Token} {s : τ} (reads : Reads cs p.tokens ts s)
    (proper : ∀ t ∈ ts, t.kind ≠ .endOfInput) : ts.length + 1 < p.budget := by
  have := reads.length_add_remaining_le proper
  simp only [budget, attemptLimit]
  omega

/-- An operator that comes next may stand behind the operand. -/
def Expr.FitsBefore (e : Expr) (p : Parser τ) : Prop :=
  ∀ op t s, next .expression p.tokens = (.ok t, s) → t.kind = .operator op → e.mayPrecede op

/-- An operand has been read. -/
structure OperandRead (p : Parser τ) (e : Expr) (p' : Parser τ) (ts : List Token) : Prop where
  moves : p.Moves inExpressions ts p'
  words : ts.map Token.word = e.words
  operand : e.isOperand
  wellFormed : e.WellFormed
  fits : e.FitsBefore p'

/-- An expression has been read, up to the token `stop`. -/
structure ExpressionRead (p : Parser τ) (e : Expr) (p' : Parser τ) (ts : List Token)
    (stop : Token) : Prop where
  tokens : ReadsUpTo inExpressions p.tokens ts stop p'.tokens
  attempts : p.attempts <:+ p'.attempts
  words : ts.map Token.word = e.words
  wellFormed : e.WellFormed
  stop_kind : ∀ op, stop.kind ≠ .operator op

/-- The reader reads expressions. -/
def ReadsExpressions (expression : Parse τ Expr) : Prop :=
  ∀ p e p', expression p = .ok e p' → ∃ ts stop, ExpressionRead p e p' ts stop

namespace ExpressionRead

variable {p p' : Parser τ} {e : Expr} {ts : List Token} {stop : Token}

lemma moves (h : ExpressionRead p e p' ts stop) : p.Moves inExpressions ts p' :=
  ⟨h.tokens.consumes, h.attempts⟩

variable [LawfulTokenStream τ]

/-- No operator comes next. -/
lemma next_ne (h : ExpressionRead p e p' ts stop) {t : Token} {s : τ} {op : Operator}
    (read : next .expression p'.tokens = (.ok t, s)) : t.kind ≠ .operator op := by
  obtain ⟨s', stopRead⟩ := h.tokens.next .expression
  rw [stopRead] at read
  obtain ⟨rfl, rfl⟩ : _ = _ ∧ _ = _ := by simpa using read
  exact h.stop_kind op

end ExpressionRead

namespace Parse

variable [LawfulTokenStream τ] {expression : Parse τ Expr} {p p' : Parser τ}

/-! ## Operands -/

lemma argumentsWithin_reads (inner : ReadsExpressions expression) (budget : Nat)
    {before args : List Expr} {close : Token}
    (h : argumentsWithin expression budget before p = .ok (args, close) p') :
    ∃ more ts, args = before.reverse ++ more ∧ more ≠ [] ∧ p.Moves inExpressions ts p' ∧
      ts.map Token.word = Expr.argumentWords more ++ [.symbol .rightParen] ∧
      Expr.AllWellFormed more := by
  induction budget generalizing p before with
  | zero => simp [argumentsWithin, failHere_apply] at h
  | succ budget ih =>
    simp only [argumentsWithin, bind_eq_ok, next_eq_ok] at h
    obtain ⟨e, p₁, read, t, _, ⟨s, token, rfl⟩, h⟩ := h
    obtain ⟨ts, stop, e_read⟩ := inner _ _ _ read
    have moves := e_read.moves.trans (.next mem_inExpressions token)
    cases kind : t.kind with
    | comma =>
      simp only [kind] at h
      obtain ⟨more, us, rfl, nonempty, onward, words, wellFormed⟩ := ih h
      refine ⟨e :: more, (ts ++ [t]) ++ us, by simp, by simp, moves.trans onward, ?_,
        e_read.wellFormed, wellFormed⟩
      obtain ⟨second, others, rfl⟩ := List.exists_cons_of_ne_nil nonempty
      simp [Expr.argumentWords, Expr.furtherArgumentWords, words, e_read.words,
        Token.word_eq_symbol kind rfl]
    | rightParen =>
      simp only [kind] at h
      obtain ⟨result, rfl⟩ := pure_eq_ok.1 h
      obtain ⟨rfl, rfl⟩ : _ = _ ∧ _ = _ := by simpa using result
      refine ⟨[e], ts ++ [t], by simp, by simp, moves, ?_, e_read.wellFormed, trivial⟩
      simp [Expr.argumentWords, Expr.furtherArgumentWords, e_read.words,
        Token.word_eq_symbol kind rfl]
    | _ => simp [kind, fail_apply] at h

lemma call_reads (inner : ReadsExpressions expression) {callee : Token} {e : Expr}
    (kind : callee.kind = .callName) (h : call expression callee p = .ok e p') :
    ∃ ts, p.Moves inExpressions ts p' ∧ callee.word :: ts.map Token.word = e.words ∧
      e.isOperand ∧ e.WellFormed ∧ ∀ op, e.mayPrecede op := by
  simp only [call, bind_eq_ok, expect_eq_ok, next_eq_ok] at h
  obtain ⟨opening, _, ⟨opens, s, first, rfl⟩, t, _, ⟨s', second, rfl⟩, h⟩ := h
  have moves : p.Moves inExpressions [opening] _ := .next mem_inExpressions first
  have callee_word := Token.word_eq_text kind rfl
  have opening_word := Token.word_eq_symbol opens rfl
  split at h
  · next closing =>
    obtain ⟨rfl, rfl⟩ := pure_eq_ok.1 h
    have consumed := moves.trans (.next mem_inExpressions second)
    refine ⟨[opening] ++ [t], consumed, ?_, rfl, trivial, fun _ => rfl⟩
    simp [Expr.words, Expr.argumentWords, callee_word, opening_word,
      Token.word_eq_symbol closing rfl, Place.kind]
  · simp only [bind_eq_ok, pushBack_apply, get_bind_apply] at h
    obtain ⟨_, _, ⟨⟩, ⟨args, close⟩, p₂, read, h⟩ := h
    obtain ⟨more, ts, rfl, -, onward, words, wellFormed⟩ := argumentsWithin_reads inner _ read
    obtain ⟨rfl, rfl⟩ := pure_eq_ok.1 h
    have consumed := moves.trans (.trans (.look mem_inExpressions second) onward)
    refine ⟨[opening] ++ ([] ++ ts), consumed, ?_, rfl,
      wellFormed, fun _ => rfl⟩
    simp [Expr.words, words, callee_word, opening_word, Place.kind]

lemma named_reads (inner : ReadsExpressions expression) {name : Token} {e : Expr}
    (kind : name.kind = .name) (h : named expression name p = .ok e p') :
    ∃ ts, p.Moves inExpressions ts p' ∧ name.word :: ts.map Token.word = e.words ∧
      e.isOperand ∧ e.WellFormed ∧ e.FitsBefore p' := by
  have name_word := Token.word_eq_text kind rfl
  -- A name before anything else is a variable, and what follows is handed back.
  have variable_reads {t : Token} {s : τ}
      (read : TokenStream.next .expression p.tokens = (.ok t, s))
      (noStep : ∀ op, t.kind = .operator op → op.isStep = false)
      (h : (do pushBack t; pure (.read name.lexeme name.span) : Parse τ Expr)
        { p with tokens := s } = .ok e p') :
      ∃ ts, p.Moves inExpressions ts p' ∧ name.word :: ts.map Token.word = e.words ∧
        e.isOperand ∧ e.WellFormed ∧ e.FitsBefore p' := by
    simp only [bind_eq_ok, pushBack_apply] at h
    obtain ⟨_, _, ⟨⟩, h⟩ := h
    obtain ⟨rfl, rfl⟩ := pure_eq_ok.1 h
    refine ⟨[], .look mem_inExpressions read, by simp [Expr.words, name_word], rfl, trivial, ?_⟩
    intro op t' s' again operator
    rw [next_pushBack read] at again
    obtain ⟨rfl, rfl⟩ : _ = _ ∧ _ = _ := by simpa using again
    simp [Expr.mayPrecede, noStep op operator]
  have step_reads {t : Token} {s : τ} {op : Operator}
      (read : TokenStream.next .expression p.tokens = (.ok t, s)) (operator : t.kind = .operator op)
      (step : op.isStep) (h : (pure (.step name.lexeme op (name.span.through t.span)) :
        Parse τ Expr) { p with tokens := s } = .ok e p') :
      ∃ ts, p.Moves inExpressions ts p' ∧ name.word :: ts.map Token.word = e.words ∧
        e.isOperand ∧ e.WellFormed ∧ e.FitsBefore p' := by
    obtain ⟨rfl, rfl⟩ := pure_eq_ok.1 h
    refine ⟨[t], .next mem_inExpressions read, ?_, rfl, step, fun _ _ _ _ _ => rfl⟩
    simp [Expr.words, name_word, Token.word_eq_symbol operator rfl]
  simp only [named, bind_eq_ok, next_eq_ok] at h
  obtain ⟨t, _, ⟨s, read, rfl⟩, h⟩ := h
  cases kind : t.kind with
  | assign =>
    simp only [kind, bind_eq_ok, peekKind_eq_ok] at h
    obtain ⟨_, _, ⟨t', s', peek, rfl, rfl⟩, h⟩ := h
    split at h
    · simp only [bind_eq_ok] at h
      obtain ⟨value, p₁, read', h⟩ := h
      obtain ⟨rfl, rfl⟩ := pure_eq_ok.1 h
      obtain ⟨ts, stop, value_read⟩ := inner _ _ _ read'
      have assign_read := Parser.Moves.next mem_inExpressions read
      have consumed := assign_read.trans (.trans (.look mem_inExpressions peek) value_read.moves)
      refine ⟨[t] ++ ([] ++ ts), consumed, ?_, rfl, value_read.wellFormed, ?_⟩
      · simp [Expr.words, name_word, Token.word_eq_symbol kind rfl, value_read.words]
      · intro op t₂ s₂ again operator
        exact absurd operator (value_read.next_ne again)
    · simp [fail_apply] at h
  | operator op =>
    cases op with
    | increment => exact step_reads read kind rfl (by simpa only [kind] using h)
    | decrement => exact step_reads read kind rfl (by simpa only [kind] using h)
    | _ =>
      refine variable_reads read (fun op eq => ?_) (by simpa only [kind] using h)
      cases kind.symm.trans eq
      rfl
  | _ => exact variable_reads read (by simp [kind]) (by simpa only [kind] using h)

lemma operand_reads (inner : ReadsExpressions expression) {e : Expr}
    (h : operand expression p = .ok e p') : ∃ ts, OperandRead p e p' ts := by
  simp only [operand, bind_eq_ok, next_eq_ok] at h
  obtain ⟨t, _, ⟨s, read, rfl⟩, h⟩ := h
  have first : p.Moves inExpressions [t] _ := .next mem_inExpressions read
  cases kind : t.kind with
  | literal =>
    simp only [kind] at h
    obtain ⟨rfl, rfl⟩ := pure_eq_ok.1 h
    exact ⟨[t], first, by simp [Expr.words, Token.word_eq_text kind rfl], rfl, trivial,
      fun _ _ _ _ _ => rfl⟩
  | name =>
    simp only [kind] at h
    obtain ⟨ts, onward, words, operand, wellFormed, fits⟩ := named_reads inner kind h
    exact ⟨[t] ++ ts, first.trans onward, by simpa using words, operand, wellFormed, fits⟩
  | callName =>
    simp only [kind] at h
    obtain ⟨ts, onward, words, operand, wellFormed, fits⟩ := call_reads inner kind h
    exact ⟨[t] ++ ts, first.trans onward, by simpa using words, operand, wellFormed,
      fun op _ _ _ _ => fits op⟩
  | leftParen =>
    simp only [kind, bind_eq_ok, expect_eq_ok] at h
    obtain ⟨inside, p₁, read', close, _, ⟨closes, s', last, rfl⟩, h⟩ := h
    obtain ⟨rfl, rfl⟩ := pure_eq_ok.1 h
    obtain ⟨ts, stop, inside_read⟩ := inner _ _ _ read'
    have consumed := first.trans (inside_read.moves.trans (.next mem_inExpressions last))
    refine ⟨[t] ++ (ts ++ [close]), consumed, ?_,
      rfl, inside_read.wellFormed, fun _ _ _ _ _ => rfl⟩
    simp [Expr.words, inside_read.words, Token.word_eq_symbol kind rfl,
      Token.word_eq_symbol closes rfl, Place.kind]
  | _ => simp [kind, fail_apply] at h

lemma operandAfter_reads (inner : ReadsExpressions expression) {operator : Token} {e : Expr}
    (h : operandAfter expression operator p = .ok e p') : ∃ ts, OperandRead p e p' ts := by
  simp only [operandAfter, bind_eq_ok, peekKind_eq_ok] at h
  obtain ⟨_, _, ⟨t, s, peek, rfl, rfl⟩, h⟩ := h
  split at h
  · obtain ⟨ts, e_read⟩ := operand_reads inner h
    have consumed := Parser.Moves.trans (.look mem_inExpressions peek) e_read.moves
    exact ⟨[] ++ ts, consumed, by simpa using e_read.words,
      e_read.operand, e_read.wellFormed, e_read.fits⟩
  · simp only [bind_eq_ok, fail_apply] at h
    obtain ⟨_, _, _, ⟨⟩⟩ := h

lemma rightOperand_reads (inner : ReadsExpressions expression) {op : Operator}
    {operator : Token} {e : Expr} (h : rightOperand expression op operator p = .ok e p') :
    ∃ ts, p.Moves inExpressions ts p' ∧ ts.map Token.word = e.words ∧
      (e.isOperand ∧ e.WellFormed ∨ e.isEmpty ∧ op.isStep) ∧ e.FitsBefore p' := by
  have present {p : Parser τ} (h : operandAfter expression operator p = .ok e p') :
      ∃ ts, p.Moves inExpressions ts p' ∧ ts.map Token.word = e.words ∧
        (e.isOperand ∧ e.WellFormed ∨ e.isEmpty ∧ op.isStep) ∧ e.FitsBefore p' := by
    obtain ⟨ts, e_read⟩ := operandAfter_reads inner h
    exact ⟨ts, e_read.moves, e_read.words, .inl ⟨e_read.operand, e_read.wellFormed⟩, e_read.fits⟩
  unfold rightOperand at h
  split at h
  · next step =>
    simp only [bind_eq_ok, peekKind_eq_ok] at h
    obtain ⟨_, _, ⟨t, s, peek, rfl, rfl⟩, h⟩ := h
    have look : p.Moves inExpressions [] _ := .look mem_inExpressions peek
    split at h
    · obtain ⟨ts, onward, words, shape, fits⟩ := present h
      exact ⟨[] ++ ts, look.trans onward, by simpa using words, shape, fits⟩
    · obtain ⟨rfl, rfl⟩ := pure_eq_ok.1 h
      exact ⟨[], look, rfl, .inr ⟨rfl, step⟩, fun _ _ _ _ _ => rfl⟩
  · exact present h

/-! ## Chains -/

/-- A chain has been read up to here: `before` holds its operators and operands, the last one first. -/
structure ChainBegun (p : Parser τ) (first : Expr) (before : List (Operator × Expr)) : Prop where
  start : first.isEmpty ∨ first.isOperand ∧ first.WellFormed
  links : Expr.LinksWellFormed first before.reverse
  fits : (Expr.lastOf first before.reverse).FitsBefore p
  /-- An operand is left out in front of an operator only. -/
  proper : first.isEmpty → before = [] →
    ∃ op t s, TokenStream.next .expression p.tokens = (.ok t, s) ∧ t.kind = .operator op

/-- The rest of a chain has been read, up to the token `stop`. -/
structure ChainCompleted (p : Parser τ) (first : Expr) (before : List (Operator × Expr)) (e : Expr)
    (p' : Parser τ) (ts : List Token) (stop : Token) : Prop where
  tokens : ReadsUpTo inExpressions p.tokens ts stop p'.tokens
  attempts : p.attempts <:+ p'.attempts
  words : first.words ++ Expr.linkWords before.reverse ++ ts.map Token.word = e.words
  wellFormed : e.WellFormed
  stop_kind : ∀ op, stop.kind ≠ .operator op

section
variable {first : Expr} {before : List (Operator × Expr)} {t : Token} {s : τ} {op : Operator}

omit [LawfulTokenStream τ] in
/-- A chain may end in front of any token but an operator. -/
lemma ChainBegun.join_wellFormed (begun : ChainBegun p first before) (last : Span)
    (read : TokenStream.next .expression p.tokens = (.ok t, s))
    (noOperator : ∀ op, t.kind ≠ .operator op) : (Expr.join first before.reverse last).WellFormed := by
  cases links_eq : before.reverse with
  | nil =>
    rcases begun.start with missing | ⟨_, wellFormed⟩
    · obtain ⟨op, t', s', again, operator⟩ := begun.proper missing (by simpa using links_eq)
      rw [read] at again
      obtain ⟨rfl, rfl⟩ : _ = _ ∧ _ = _ := by simpa using again
      exact absurd operator (noOperator op)
    · exact wellFormed
  | cons link rest => exact ⟨begun.start, by simp, links_eq ▸ begun.links⟩

omit [LawfulTokenStream τ] in
/-- A connective takes the chain in front of it as its left operand. -/
lemma ChainBegun.connect_wellFormed (begun : ChainBegun p first before) (last : Span)
    (read : TokenStream.next .expression p.tokens = (.ok t, s)) (kind : t.kind = .operator op)
    (connective : op.isConnective) {right : Expr} (right_wellFormed : right.WellFormed) (span : Span) :
    (Expr.connect (.join first before.reverse last) op right span).WellFormed := by
  refine ⟨connective, ?_, ?_, right_wellFormed⟩
  · cases links_eq : before.reverse with
    | nil => exact begun.start.imp_right fun h => ⟨Expr.isConnect_eq_false (.inr h.1), h.2⟩
    | cons link rest => exact .inr ⟨rfl, begun.start, by simp, links_eq ▸ begun.links⟩
  · rw [Expr.lastOperand_join (Expr.lastOperand_eq_self (begun.start.imp_right And.left))]
    exact begun.fits op t s read kind

omit [LawfulTokenStream τ] in
/-- Any other operator makes the chain longer by the operand behind it. -/
lemma ChainBegun.one_more (begun : ChainBegun p first before)
    (read : TokenStream.next .expression p.tokens = (.ok t, s)) (kind : t.kind = .operator op)
    (noConnective : ¬ op.isConnective) {p₁ : Parser τ} {right : Expr}
    (shape : right.isOperand ∧ right.WellFormed ∨ right.isEmpty ∧ op.isStep)
    (fits : right.FitsBefore p₁) : ChainBegun p₁ first ((op, right) :: before) where
  start := begun.start
  links := by
    rw [List.reverse_cons, Expr.linksWellFormed_append]
    exact ⟨begun.links, by simpa using noConnective, begun.fits op t s read kind, shape, trivial⟩
  fits := by
    rw [List.reverse_cons, Expr.lastOf_append]
    exact fits
  proper := by simp

end

/-- The words read from here on complete those of the chain read so far. -/
lemma chainWithin_reads (inner : ReadsExpressions expression) (budget : Nat) {first : Expr}
    {before : List (Operator × Expr)} {last : Span} {e : Expr} (begun : ChainBegun p first before)
    (h : chainWithin expression first budget before last p = .ok e p') :
    ∃ ts stop, ChainCompleted p first before e p' ts stop := by
  -- One round for each operator, and `ChainBegun` is the invariant of the rounds.
  induction budget generalizing p before last with
  | zero => simp [chainWithin, failHere_apply] at h
  | succ budget ih =>
    simp only [chainWithin, bind_eq_ok, next_eq_ok] at h
    obtain ⟨t, _, ⟨s, read, rfl⟩, h⟩ := h
    have token : p.Moves inExpressions [t] _ := .next mem_inExpressions read
    -- Any token but an operator ends the chain and is handed back.
    have stops (noOperator : ∀ op, t.kind ≠ .operator op)
        (h : (do pushBack t; pure (.join first before.reverse last) : Parse τ Expr)
          { p with tokens := s } = .ok e p') : ∃ ts stop, ChainCompleted p first before e p' ts stop := by
      simp only [bind_eq_ok, pushBack_apply] at h
      obtain ⟨_, _, ⟨⟩, h⟩ := h
      obtain ⟨rfl, rfl⟩ := pure_eq_ok.1 h
      exact ⟨[], t, .looked mem_inExpressions read, List.suffix_rfl, by simp [Expr.words_join],
        begun.join_wellFormed last read noOperator, noOperator⟩
    cases kind : t.kind with
    | operator op =>
      simp only [kind] at h
      split at h
      · next connective =>
        simp only [bind_eq_ok, peekKind_eq_ok] at h
        obtain ⟨_, _, ⟨t', s', peek, rfl, rfl⟩, h⟩ := h
        split at h
        · -- The right operand of a connective is all that follows, so it ends where the chain ends.
          simp only [bind_eq_ok] at h
          obtain ⟨right, p₁, read', h⟩ := h
          obtain ⟨rfl, rfl⟩ := pure_eq_ok.1 h
          obtain ⟨ts, stop, right_read⟩ := inner _ _ _ read'
          have moves := token.trans (.look mem_inExpressions peek)
          refine ⟨([t] ++ []) ++ ts, stop, .of_consumes moves.tokens right_read.tokens,
            moves.attempts.trans right_read.attempts, ?_,
            begun.connect_wellFormed last read kind connective right_read.wellFormed _,
            right_read.stop_kind⟩
          simp [Expr.words, Expr.words_join, right_read.words, Token.word_eq_symbol kind rfl]
        · simp [fail_apply] at h
      · next noConnective =>
        simp only [bind_eq_ok] at h
        obtain ⟨right, p₁, read', h⟩ := h
        obtain ⟨us, onward, words, shape, fits⟩ := rightOperand_reads inner read'
        have moves := token.trans onward
        obtain ⟨ts, stop, rest⟩ := ih (begun.one_more read kind noConnective shape fits) h
        refine ⟨([t] ++ us) ++ ts, stop, .of_consumes moves.tokens rest.tokens,
          moves.attempts.trans rest.attempts, ?_, rest.wellFormed, rest.stop_kind⟩
        rw [← rest.words]
        simp [Expr.linkWords, words, Token.word_eq_symbol kind rfl]
    | _ => exact stops (by simp [kind]) (by simpa only [kind] using h)

lemma firstOperand_reads (inner : ReadsExpressions expression) {e : Expr}
    (h : firstOperand expression p = .ok e p') :
    ∃ ts, p.Moves inExpressions ts p' ∧ ts.map Token.word = e.words ∧
      (e.isEmpty ∨ e.isOperand ∧ e.WellFormed) ∧ e.FitsBefore p' ∧
      (e.isEmpty →
        ∃ op t s, TokenStream.next .expression p'.tokens = (.ok t, s) ∧ t.kind = .operator op) := by
  simp only [firstOperand, bind_eq_ok, next_eq_ok, pushBack_apply] at h
  obtain ⟨t, _, ⟨s, read, rfl⟩, _, _, ⟨⟩, h⟩ := h
  have look : p.Moves inExpressions [] _ := .look mem_inExpressions read
  have present (h : operand expression { p with tokens := TokenStream.pushBack t s } = .ok e p') :
      ∃ ts, p.Moves inExpressions ts p' ∧ ts.map Token.word = e.words ∧
        (e.isEmpty ∨ e.isOperand ∧ e.WellFormed) ∧ e.FitsBefore p' ∧
        (e.isEmpty → ∃ op t s,
          TokenStream.next .expression p'.tokens = (.ok t, s) ∧ t.kind = .operator op) := by
    obtain ⟨ts, e_read⟩ := operand_reads inner h
    refine ⟨[] ++ ts, look.trans e_read.moves, by simpa using e_read.words,
      .inr ⟨e_read.operand, e_read.wellFormed⟩, e_read.fits, fun missing => ?_⟩
    have := e_read.operand
    cases e <;> simp_all [Expr.isEmpty, Expr.isOperand]
  cases kind : t.kind with
  | operator op =>
    simp only [kind] at h
    obtain ⟨rfl, rfl⟩ := pure_eq_ok.1 h
    exact ⟨[], look, rfl, .inl rfl, fun _ _ _ _ _ => rfl,
      fun _ => ⟨op, t, s, next_pushBack read, kind⟩⟩
  | _ => exact present (by simpa only [kind] using h)

/-! ## Expressions -/

lemma expression_reads (room : Nat) :
    ReadsExpressions (Parse.expression room : Parse τ Expr) := by
  induction room with
  | zero => intro p e p' h; simp [Parse.expression, failHere_apply] at h
  | succ room ih =>
    intro p e p' h
    simp only [Parse.expression, expressionBody, bind_eq_ok, get_bind_apply] at h
    obtain ⟨first, p₁, read, h⟩ := h
    obtain ⟨ts, moves, words, start, fits, operator⟩ := firstOperand_reads ih read
    have begun : ChainBegun p₁ first [] := ⟨start, trivial, fits, fun missing _ => operator missing⟩
    obtain ⟨us, stop, rest⟩ := chainWithin_reads ih _ begun h
    refine ⟨ts ++ us, stop, .of_consumes moves.tokens rest.tokens,
      moves.attempts.trans rest.attempts, ?_, rest.wellFormed, rest.stop_kind⟩
    simpa [words, Expr.linkWords] using rest.words

end Parse
end ScriptEngine
