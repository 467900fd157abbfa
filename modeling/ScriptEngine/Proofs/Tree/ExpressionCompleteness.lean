import ScriptEngine.Proofs.Token.Lexing
import ScriptEngine.Proofs.Tree.ExpressionReading

/-!
# Every well-formed expression is read

The tokens of a well-formed tree, in front of a token that cannot go on with an expression, are read
as that tree, its spans apart.  `Parse.expression_complete` says so of every lawful stream; the
lemmas before it follow a tree as the parser works through it.

After an operand or a chain has been read, the token behind it may or may not have been looked at.
What the lemmas say of the state is therefore which token is read next and where that leads.
-/

namespace ScriptEngine

open TokenStream

/-- A token of this kind cannot go on with an expression. -/
def TokenKind.endsExpression (kind : TokenKind) : Bool :=
  !kind.startsExpression && kind != .assign

lemma TokenKind.ne_operator_of_endsExpression {kind : TokenKind} (h : kind.endsExpression)
    (op : Operator) : kind ≠ .operator op := by
  rintro rfl
  simp [endsExpression, startsExpression] at h

lemma TokenKind.startsExpression_of_startsOperand {kind : TokenKind} (h : kind.startsOperand) :
    kind.startsExpression := by
  cases kind <;> first | rfl | exact h

namespace Expr

/-! ## The words of well-formed trees -/

/-- A token of this kind may stand behind the operand. -/
def mayMeet (kind : TokenKind) (e : Expr) : Prop :=
  kind.endsExpression ∨ ∃ op, kind = .operator op ∧ e.mayPrecede op

/-- The first operand of a chain; all else begins with itself. -/
def head : Expr → Expr
  | chain first _ _ => first
  | e => e

/-- The operators of a chain with their right operands. -/
def links : Expr → List (Operator × Expr)
  | chain _ rest _ => rest
  | _ => []

/-- What may stand on the left of a connective: nothing, an operand or a chain. -/
def IsLeft (e : Expr) : Prop :=
  e.isEmpty ∨ e.isConnect = false ∧ e.WellFormed

lemma words_head_links (e : Expr) : e.head.words ++ linkWords e.links = e.words := by
  cases e <;> simp [head, links, words, linkWords]

lemma lastOf_head_links (e : Expr) : lastOf e.head e.links = e.lastOperand := by
  cases e <;> rfl

lemma innerDepth_head_le (e : Expr) : e.head.innerDepth ≤ e.innerDepth := by
  cases e <;> simp [head, innerDepth]

lemma linksDepth_links_le (e : Expr) : linksDepth e.links ≤ e.innerDepth := by
  cases e <;> simp [links, linksDepth, innerDepth]

/-- A tree with nothing in it that nests is an operand, a chain of operands, or nothing at all. -/
lemma head_links_of_isLeft {e : Expr} (h : e.IsLeft) :
    (e.head.isEmpty ∨ e.head.isOperand ∧ e.head.WellFormed) ∧ LinksWellFormed e.head e.links ∧
      (e.head.isEmpty → e.isEmpty ∨ e.links ≠ []) := by
  rcases h with missing | ⟨connect, wellFormed⟩ <;> cases e <;>
    simp_all [isEmpty, isOperand, isConnect, head, links, WellFormed, LinksWellFormed]

lemma bare_join_head_links {e : Expr} (h : e.IsLeft) {first : Expr}
    {rest : List (Operator × Expr)} (first_eq : first.bare = e.head.bare)
    (rest_eq : mapLinkSpans (fun _ => default) rest = mapLinkSpans (fun _ => default) e.links)
    (last : Span) : (join first rest last).bare = e.bare := by
  rcases h with missing | ⟨connect, wellFormed⟩ <;> cases e <;> cases rest <;>
    simp_all [isEmpty, isConnect, head, links, join, bare, mapSpan, mapLinkSpans, WellFormed]
  case inr.chain.nil first rest span => cases rest <;> simp_all [mapLinkSpans]

/-- The words of an operand begin with one that operands begin with. -/
lemma words_of_isOperand {e : Expr} (h : e.isOperand) :
    ∃ word more, e.words = word :: more ∧ word.kind.startsOperand := by
  cases e <;> simp [isOperand] at h <;>
    exact ⟨_, _, by simp only [words]; rfl, rfl⟩

/-- So do those of a chain, unless an operator stands there in place of the missing operand. -/
lemma words_of_isLeft {e : Expr} (h : e.IsLeft) (present : e.isEmpty = false) :
    ∃ word more, e.words = word :: more ∧ word.kind.startsExpression := by
  obtain ⟨start, -, proper⟩ := head_links_of_isLeft h
  rw [← words_head_links]
  rcases start with missing | ⟨isOperand, -⟩
  · obtain ⟨⟨op, right⟩, rest, eq⟩ :=
      List.exists_cons_of_ne_nil ((proper missing).resolve_left (by simp [present]))
    cases head : e.head with
    | empty => exact ⟨_, _, by simp only [eq, words, linkWords]; rfl, rfl⟩
    | _ => simp [head, isEmpty] at missing
  · obtain ⟨word, more, eq, starts⟩ := words_of_isOperand isOperand
    exact ⟨word, more ++ linkWords e.links, by rw [eq]; rfl,
      TokenKind.startsExpression_of_startsOperand starts⟩

lemma words_of_wellFormed {e : Expr} (h : e.WellFormed) :
    ∃ word more, e.words = word :: more ∧ word.kind.startsExpression := by
  cases connect : e.isConnect with
  | false =>
    refine words_of_isLeft (.inr ⟨connect, h⟩) ?_
    cases e <;> first | rfl | exact h.elim
  | true =>
    cases e with
    | connect left op right span =>
      obtain ⟨-, isLeft, -⟩ := h
      cases missing : left.isEmpty with
      | false =>
        obtain ⟨word, more, eq, starts⟩ := words_of_isLeft isLeft missing
        exact ⟨word, _, by simp only [words, eq]; rfl, starts⟩
      | true =>
        cases left with
        | empty => exact ⟨_, _, by simp only [words]; rfl, rfl⟩
        | _ => simp [isEmpty] at missing
    | _ => simp [isConnect] at connect

lemma length_le_length_linkWords (rest : List (Operator × Expr)) :
    rest.length ≤ (linkWords rest).length := by
  induction rest with
  | nil => exact Nat.le_refl 0
  | cons link rest ih =>
    simp only [linkWords, List.length_cons, List.length_append]
    omega

lemma length_le_length_furtherArgumentWords (args : List Expr) :
    args.length ≤ (furtherArgumentWords args).length := by
  induction args with
  | nil => exact Nat.le_refl 0
  | cons e rest ih =>
    simp only [furtherArgumentWords, List.length_cons, List.length_append]
    omega

end Expr

variable {τ : Type} [TokenStream τ]

/-- The reader reads every well-formed expression of at most that depth, up to the token behind
it. -/
def ReadsAllExpressions (expression : Parse τ Expr) (room : Nat) : Prop :=
  ∀ (e : Expr) (p : Parser τ) (ts : List Token) (stop : Token) (s : τ),
    e.WellFormed → e.depth ≤ room → ts.map Token.word = e.words → stop.kind.endsExpression →
    Reads inExpressions p.tokens (ts ++ [stop]) s →
    ∃ e', expression p = .ok e' { p with tokens := pushBack stop s } ∧ e'.bare = e.bare

namespace Parse

lemma next_of_read {c : TokenContext} {p : Parser τ} {t : Token} {s : τ}
    (read : TokenStream.next c p.tokens = (.ok t, s)) :
    next c p = .ok t { p with tokens := s } :=
  next_eq_ok.2 ⟨s, read, rfl⟩

lemma peekKind_of_read {p : Parser τ} {t : Token} {s : τ}
    (read : TokenStream.next .expression p.tokens = (.ok t, s)) :
    peekKind p = .ok t.kind { p with tokens := TokenStream.pushBack t s } :=
  peekKind_eq_ok.2 ⟨t, s, read, rfl, rfl⟩

lemma expect_of_read {place : Place} {p : Parser τ} {t : Token} {s : τ}
    (kind : t.kind = place.kind) (read : TokenStream.next .expression p.tokens = (.ok t, s)) :
    expect place p = .ok t { p with tokens := s } :=
  expect_eq_ok.2 ⟨kind, s, read, rfl⟩

variable [LawfulTokenStream τ] {expression : Parse τ Expr} {room : Nat} {p : Parser τ}
  {ts : List Token} {k : Token} {s : τ}

/-! ## Operands -/

lemma argumentsWithin_complete (inner : ReadsAllExpressions expression room) (budget : Nat)
    (before : List Expr) {e : Expr} {more : List Expr}
    (wellFormed : Expr.AllWellFormed (e :: more)) (depth : Expr.argumentsDepth (e :: more) ≤ room)
    (words : ts.map Token.word = Expr.argumentWords (e :: more) ++ [.symbol .rightParen])
    (reads : Reads inExpressions p.tokens ts s) (enough : more.length < budget) :
    ∃ args close, argumentsWithin expression budget before p =
        .ok (before.reverse ++ args, close) { p with tokens := s } ∧
      Expr.mapSpans (fun _ => default) args = Expr.mapSpans (fun _ => default) (e :: more) := by
  -- The last argument is read up to the parenthesis, each other one up to its comma.
  induction more generalizing budget before e p ts with
  | nil =>
    obtain _ | budget := budget
    · simp at enough
    simp only [Expr.argumentWords, Expr.furtherArgumentWords, List.append_nil] at words
    obtain ⟨us, last, rfl, e_words, last_words⟩ := List.map_eq_append_iff.1 words
    obtain ⟨close, rfl, close_word⟩ := List.map_eq_singleton_iff.1 last_words
    have kind : close.kind = .rightParen := Token.kind_of_word close_word
    simp only [Expr.argumentsDepth, Nat.max_le] at depth
    obtain ⟨e', read, e_eq⟩ :=
      inner e p us close s wellFormed.1 depth.1 e_words (by simp [kind]; rfl) reads
    refine ⟨[e'], close, ?_, congrArg (fun e => [e]) e_eq⟩
    rw [argumentsWithin, bind_of_ok read, bind_of_ok (next_of_read (reads.next_pushBack _))]
    simp [kind, pure_apply]
  | cons second more ih =>
    obtain _ | budget := budget
    · simp at enough
    simp only [Expr.argumentWords, Expr.furtherArgumentWords, List.append_assoc,
      List.cons_append] at words
    obtain ⟨us, vs, rfl, e_words, vs_words⟩ := List.map_eq_append_iff.1 words
    obtain ⟨comma, vs, rfl, comma_word, more_words⟩ := List.map_eq_cons_iff.1 vs_words
    obtain ⟨s₁, reads, onward⟩ := reads.split_behind
    have kind : comma.kind = .comma := Token.kind_of_word comma_word
    simp only [Expr.argumentsDepth, Nat.max_le] at depth
    obtain ⟨e', read, e_eq⟩ :=
      inner e p us comma s₁ wellFormed.1 depth.1 e_words (by simp [kind]; rfl) reads
    obtain ⟨args, close, rest, args_eq⟩ := ih (p := { p with tokens := s₁ }) budget
      (e' :: before) wellFormed.2 (by simpa [Expr.argumentsDepth] using depth.2)
      (by simpa [Expr.argumentWords] using more_words) onward (by simpa using enough)
    refine ⟨e' :: args, close, ?_, ?_⟩
    · rw [argumentsWithin, bind_of_ok read, bind_of_ok (next_of_read (reads.next_pushBack _))]
      simpa [kind] using rest
    · rw [Expr.mapSpans, args_eq, Expr.mapSpans]
      exact congrArg (· :: _) e_eq

lemma call_complete (inner : ReadsAllExpressions expression room) (callee : Token)
    {args : List Expr} (wellFormed : Expr.AllWellFormed args)
    (depth : Expr.argumentsDepth args ≤ room)
    (words : ts.map Token.word =
      .symbol .leftParen :: (Expr.argumentWords args ++ [.symbol .rightParen]))
    (reads : Reads inExpressions p.tokens ts s) :
    ∃ e, call expression callee p = .ok e { p with tokens := s } ∧
      e.bare = (Expr.call callee.lexeme args default).bare := by
  obtain ⟨opening, ts, rfl, opening_word, words⟩ := List.map_eq_cons_iff.1 words
  obtain ⟨s₁, first, reads⟩ := reads.next_eq
  rw [call, bind_of_ok (expect_of_read (Token.kind_of_word opening_word) first)]
  cases args with
  | nil =>
    obtain ⟨close, rfl, close_word⟩ := List.map_eq_singleton_iff.1 words
    have kind : close.kind = .rightParen := Token.kind_of_word close_word
    refine ⟨.call callee.lexeme [] (callee.span.through close.span), ?_, rfl⟩
    rw [bind_of_ok (next_of_read reads.next_of_single), if_pos kind]
    rfl
  | cons e more =>
    have within := words
    simp only [Expr.argumentWords, List.append_assoc] at words
    obtain ⟨word, others, e_words, starts⟩ := Expr.words_of_wellFormed wellFormed.1
    rw [e_words, List.cons_append] at words
    obtain ⟨t, ts, rfl, t_word, words⟩ := List.map_eq_cons_iff.1 words
    obtain ⟨s₂, second, onward⟩ := reads.next_eq
    -- The first token of an argument is no closing parenthesis, so the arguments are read.
    have noClose : t.kind ≠ .rightParen := by
      rw [Token.kind_of_word t_word]
      intro kind
      simp [kind, TokenKind.startsExpression, TokenKind.startsOperand] at starts
    have again : Reads inExpressions (TokenStream.pushBack t s₂) (t :: ts) s :=
      .pushBack second onward
    -- An argument has at least one token, so the rounds that are left are enough for all of them.
    have enough : more.length < (Parser.mk (TokenStream.pushBack t s₂) p.attempts).budget := by
      refine Nat.lt_of_le_of_lt ?_ (Parser.length_lt_budget again ?_)
      · have := Expr.length_le_length_furtherArgumentWords more
        have := congrArg List.length within
        simp only [List.length_map, Expr.argumentWords, List.length_append] at this
        omega
      · intro t' h
        have : t'.word ∈ Expr.argumentWords (e :: more) ++ [.symbol .rightParen] :=
          within ▸ List.mem_map_of_mem h
        rw [← Token.kind_word]
        rcases List.mem_append.1 this with h | h
        · exact TokenKind.ne_endOfInput (Expr.kind_of_mem_argumentWords _ _ h)
        · rw [List.mem_singleton.1 h]
          simp [Word.symbol]
    obtain ⟨args, close, read, args_eq⟩ :=
      argumentsWithin_complete inner (p := ⟨TokenStream.pushBack t s₂, p.attempts⟩) _ []
        wellFormed depth within again enough
    refine ⟨.call callee.lexeme args (callee.span.through close.span), ?_, ?_⟩
    · rw [bind_of_ok (next_of_read second), if_neg noClose, bind_of_ok (pushBack_apply _),
        get_bind_apply, bind_of_ok read]
      rfl
    · simp only [Expr.bare, Expr.mapSpan, args_eq]

lemma named_complete (inner : ReadsAllExpressions expression room) {name : Token} {e : Expr}
    (operand : e.isOperand) (wellFormed : e.WellFormed) (depth : e.innerDepth ≤ room)
    (meets : e.mayMeet k.kind) (kind : name.kind = .name)
    (words : name.word :: ts.map Token.word = e.words)
    (reads : Reads inExpressions p.tokens (ts ++ [k]) s) :
    ∃ e' s', named expression name p = .ok e' { p with tokens := s' } ∧
      TokenStream.next .expression s' = (.ok k, s) ∧ e'.bare = e.bare := by
  cases e with
  | read target span =>
    obtain ⟨name_word, rfl⟩ : name.word = _ ∧ ts = [] := by simpa [Expr.words] using words
    have read := reads.next_of_single
    refine ⟨.read name.lexeme name.span, TokenStream.pushBack k s, ?_, next_pushBack read, ?_⟩
    · rw [named, bind_of_ok (next_of_read read)]
      -- Neither an assignment sign nor a step stands behind a variable.
      rcases meets with ends | ⟨op, kind, noStep⟩
      · cases kind : k.kind <;>
          simp_all [TokenKind.endsExpression, TokenKind.startsExpression,
            TokenKind.startsOperand] <;>
          rfl
      · cases op <;> simp_all [Expr.mayPrecede, Operator.isStep] <;> rfl
    · rw [Token.lexeme_of_word name_word rfl]
      rfl
  | step target op span =>
    obtain ⟨name_word, rest_words⟩ :
        name.word = _ ∧ ts.map Token.word = [_] := by simpa [Expr.words] using words
    obtain ⟨step, rfl, step_word⟩ := List.map_eq_singleton_iff.1 rest_words
    obtain ⟨s₁, read, onward⟩ := reads.next_eq
    have step_kind : step.kind = .operator op := Token.kind_of_word step_word
    refine ⟨.step name.lexeme op (name.span.through step.span), s₁, ?_, onward.next_of_single, ?_⟩
    · rw [named, bind_of_ok (next_of_read read)]
      cases op <;> simp_all [Expr.WellFormed, Operator.isStep] <;> rfl
    · rw [Token.lexeme_of_word name_word rfl]
      rfl
  | assign target value span =>
    obtain ⟨name_word, rest_words⟩ :
        name.word = _ ∧ ts.map Token.word = .symbol .assign :: value.words := by
      simpa [Expr.words] using words
    obtain ⟨sign, us, rfl, sign_word, value_words⟩ := List.map_eq_cons_iff.1 rest_words
    obtain ⟨s₁, read, onward⟩ := reads.next_eq
    obtain ⟨word, others, eq, starts⟩ := Expr.words_of_wellFormed (e := value) wellFormed
    obtain ⟨t, us, rfl, t_word, -⟩ := List.map_eq_cons_iff.1 (value_words.trans eq)
    obtain ⟨s₂, peek, behind⟩ := onward.next_eq
    rw [← Token.kind_of_word t_word] at starts
    -- The value of an assignment reaches as far as an expression can, so nothing but its end may
    -- follow.
    have stops : k.kind.endsExpression := by
      rcases meets with ends | ⟨op, _, fits⟩
      · exact ends
      · simp [Expr.mayPrecede] at fits
    obtain ⟨value', value_read, value_eq⟩ :=
      inner value ⟨TokenStream.pushBack t s₂, p.attempts⟩ (t :: us) k s wellFormed depth value_words
        stops (.pushBack peek behind)
    refine ⟨.assign name.lexeme value' (name.span.through value'.span), TokenStream.pushBack k s,
      ?_, reads.next_pushBack _, ?_⟩
    · have sign_kind : sign.kind = .assign := Token.kind_of_word sign_word
      rw [named, bind_of_ok (next_of_read read)]
      simp only [sign_kind]
      rw [bind_of_ok (peekKind_of_read (p := ⟨s₁, p.attempts⟩) peek), if_pos starts,
        bind_of_ok value_read]
      rfl
    · rw [Token.lexeme_of_word name_word rfl]
      exact congrArg (Expr.assign target · default) value_eq
  -- No other operand begins with a name.
  | literal | call | grouping =>
    simp only [Expr.words, List.cons.injEq] at words
    have := Token.kind_of_word words.1
    simp [kind, Word.symbol] at this
  | _ => simp [Expr.isOperand] at operand

lemma operand_complete (inner : ReadsAllExpressions expression room) {e : Expr}
    (isOperand : e.isOperand) (wellFormed : e.WellFormed) (depth : e.innerDepth ≤ room)
    (meets : e.mayMeet k.kind) (words : ts.map Token.word = e.words)
    (reads : Reads inExpressions p.tokens (ts ++ [k]) s) :
    ∃ e' s', operand expression p = .ok e' { p with tokens := s' } ∧
      TokenStream.next .expression s' = (.ok k, s) ∧ e'.bare = e.bare := by
  -- The first word of an operand tells which of the branches of `operand` is taken.
  obtain ⟨word, others, e_words, starts⟩ := Expr.words_of_isOperand isOperand
  obtain ⟨t, us, rfl, t_word, us_words⟩ := List.map_eq_cons_iff.1 (words.trans e_words)
  obtain ⟨s₁, read, onward⟩ := reads.next_eq
  have kind : t.kind = word.kind := Token.kind_of_word t_word
  have begin_name (is : word.kind = .name) :
      ∃ e' s', operand expression p = .ok e' { p with tokens := s' } ∧
        TokenStream.next .expression s' = (.ok k, s) ∧ e'.bare = e.bare := by
    obtain ⟨e', s', named_eq, next_eq, e_eq⟩ := named_complete inner (p := ⟨s₁, p.attempts⟩)
      isOperand wellFormed depth meets (kind.trans is) words onward
    refine ⟨e', s', ?_, next_eq, e_eq⟩
    rw [operand, bind_of_ok (next_of_read read)]
    simpa only [kind.trans is] using named_eq
  cases e with
  | literal value span =>
    obtain ⟨rfl, rfl⟩ : _ = word ∧ [] = others := by simpa [Expr.words] using e_words
    obtain rfl := List.map_eq_nil_iff.1 us_words
    refine ⟨.literal t.lexeme t.span, s₁, ?_, onward.next_of_single, ?_⟩
    · rw [operand, bind_of_ok (next_of_read read)]
      simp only [kind]
      rfl
    · rw [Token.lexeme_of_word t_word rfl]
      rfl
  | call name args span =>
    obtain ⟨rfl, rfl⟩ : _ = word ∧ _ = others := by
      simpa only [Expr.words, List.cons.injEq] using e_words
    obtain ⟨s₂, front, last⟩ := onward.split
    obtain ⟨e', call_eq, e_eq⟩ := call_complete inner (p := ⟨s₁, p.attempts⟩) t
      wellFormed depth us_words front
    refine ⟨e', s₂, ?_, last.next_of_single, ?_⟩
    · rw [operand, bind_of_ok (next_of_read read)]
      simpa only [kind] using call_eq
    · rw [e_eq, Token.lexeme_of_word t_word rfl]
      rfl
  | grouping inside span =>
    obtain ⟨rfl, rfl⟩ : _ = word ∧ _ = others := by
      simpa only [Expr.words, List.cons.injEq] using e_words
    obtain ⟨vs, last, rfl, inside_words, last_words⟩ := List.map_eq_append_iff.1 us_words
    obtain ⟨close, rfl, close_word⟩ := List.map_eq_singleton_iff.1 last_words
    obtain ⟨s₂, front, last⟩ := onward.split
    have closes : close.kind = .rightParen := Token.kind_of_word close_word
    obtain ⟨inside', inside_read, inside_eq⟩ :=
      inner inside ⟨s₁, p.attempts⟩ vs close s₂ wellFormed depth inside_words (by rw [closes]; rfl)
        front
    refine ⟨.grouping inside' (t.span.through close.span), s₂, ?_, last.next_of_single,
      congrArg (Expr.grouping · default) inside_eq⟩
    rw [operand, bind_of_ok (next_of_read read)]
    simp only [kind, Word.symbol]
    rw [bind_of_ok inside_read, bind_of_ok (expect_of_read closes (front.next_pushBack _))]
    rfl
  | empty | chain | connect => simp [Expr.isOperand] at isOperand
  | _ =>
    refine begin_name ?_
    simp only [Expr.words, List.cons.injEq] at e_words
    rw [← e_words.1]

lemma operandAfter_complete (inner : ReadsAllExpressions expression room) (operator : Token)
    {e : Expr} (isOperand : e.isOperand) (wellFormed : e.WellFormed) (depth : e.innerDepth ≤ room)
    (meets : e.mayMeet k.kind) (words : ts.map Token.word = e.words)
    (reads : Reads inExpressions p.tokens (ts ++ [k]) s) :
    ∃ e' s', operandAfter expression operator p = .ok e' { p with tokens := s' } ∧
      TokenStream.next .expression s' = (.ok k, s) ∧ e'.bare = e.bare := by
  obtain ⟨word, others, e_words, starts⟩ := Expr.words_of_isOperand isOperand
  obtain ⟨t, us, rfl, t_word, -⟩ := List.map_eq_cons_iff.1 (words.trans e_words)
  obtain ⟨s₁, peek, onward⟩ := reads.next_eq
  rw [← Token.kind_of_word t_word] at starts
  rw [operandAfter, bind_of_ok (peekKind_of_read peek), if_pos starts]
  exact operand_complete inner isOperand wellFormed depth meets words (.pushBack peek onward)

lemma rightOperand_complete (inner : ReadsAllExpressions expression room) {op : Operator}
    (operator : Token) {e : Expr}
    (shape : e.isOperand ∧ e.WellFormed ∨ e.isEmpty ∧ op.isStep) (depth : e.innerDepth ≤ room)
    (meets : e.mayMeet k.kind) (words : ts.map Token.word = e.words)
    (reads : Reads inExpressions p.tokens (ts ++ [k]) s) :
    ∃ e' s', rightOperand expression op operator p = .ok e' { p with tokens := s' } ∧
      TokenStream.next .expression s' = (.ok k, s) ∧ e'.bare = e.bare := by
  rcases shape with ⟨isOperand, wellFormed⟩ | ⟨missing, step⟩
  · cases step : op.isStep with
    | false =>
      simp only [rightOperand, step]
      exact operandAfter_complete inner operator isOperand wellFormed depth meets words reads
    | true =>
      obtain ⟨word, others, e_words, starts⟩ := Expr.words_of_isOperand isOperand
      obtain ⟨t, us, rfl, t_word, -⟩ := List.map_eq_cons_iff.1 (words.trans e_words)
      obtain ⟨s₁, peek, onward⟩ := reads.next_eq
      rw [← Token.kind_of_word t_word] at starts
      rw [rightOperand, if_pos step, bind_of_ok (peekKind_of_read peek), if_pos starts]
      exact operandAfter_complete inner operator isOperand wellFormed depth meets words
        (.pushBack peek onward)
  · cases e with
    | empty span =>
      obtain rfl := List.map_eq_nil_iff.1 words
      have peek := reads.next_of_single
      have noOperand : k.kind.startsOperand = false := by
        rcases meets with ends | ⟨op, kind, _⟩
        · cases kind : k.kind <;> simp_all [TokenKind.endsExpression, TokenKind.startsExpression,
            TokenKind.startsOperand]
        · rw [kind]; rfl
      refine ⟨.empty (.empty operator.span.stop operator.span.line), TokenStream.pushBack k s, ?_,
        next_pushBack peek, rfl⟩
      rw [rightOperand, if_pos step, bind_of_ok (peekKind_of_read peek), noOperand]
      rfl
    | _ => simp [Expr.isEmpty] at missing

/-! ## Chains -/

/-- The operators and operands of a chain are read one after the other, each in a round. -/
lemma links_complete (inner : ReadsAllExpressions expression room) (first : Expr)
    (before : List (Operator × Expr)) (last : Span) {left : Expr} {rest : List (Operator × Expr)}
    (wellFormed : Expr.LinksWellFormed left rest) (depth : Expr.linksDepth rest ≤ room)
    (meets : (Expr.lastOf left rest).mayMeet k.kind)
    (words : ts.map Token.word = Expr.linkWords rest)
    (reads : Reads inExpressions p.tokens (ts ++ [k]) s) :
    ∃ more last' s',
      (∀ budget, chainWithin expression first (rest.length + budget) before last p =
        chainWithin expression first budget (more.reverse ++ before) last'
          { p with tokens := s' }) ∧
      TokenStream.next .expression s' = (.ok k, s) ∧
      Expr.mapLinkSpans (fun _ => default) more = Expr.mapLinkSpans (fun _ => default) rest := by
  -- One round for each link; `before` collects what has been read and grows along.
  induction rest generalizing before last left p ts with
  | nil =>
    obtain rfl := List.map_eq_nil_iff.1 words
    exact ⟨[], last, p.tokens, fun budget => by simp, reads.next_of_single, rfl⟩
  | cons link rest ih =>
    obtain ⟨op, operand⟩ := link
    obtain ⟨noConnective, -, shape, wellFormed⟩ := wellFormed
    simp only [Expr.linksDepth, Nat.max_le] at depth
    obtain ⟨t, us, rfl, t_word, us_words⟩ := List.map_eq_cons_iff.1 words
    obtain ⟨vs, ws, rfl, operand_words, rest_words⟩ := List.map_eq_append_iff.1 us_words
    have kind : t.kind = .operator op := Token.kind_of_word t_word
    -- Behind the operand comes the next operator or the token behind the chain.
    obtain ⟨k₁, xs, ws_eq, meets₁⟩ :
        ∃ k₁ xs, ws ++ [k] = k₁ :: xs ∧ operand.mayMeet k₁.kind := by
      cases rest with
      | nil =>
        obtain rfl := List.map_eq_nil_iff.1 rest_words
        exact ⟨k, [], rfl, meets⟩
      | cons link rest =>
        obtain ⟨k₁, xs, rfl, k₁_word, -⟩ := List.map_eq_cons_iff.1 rest_words
        exact ⟨k₁, xs ++ [k], rfl, .inr ⟨link.1, Token.kind_of_word k₁_word, wellFormed.2.1⟩⟩
    rw [List.cons_append, List.append_assoc, ws_eq] at reads
    obtain ⟨s₁, read, onward⟩ := reads.next_eq
    obtain ⟨s₂, front, back⟩ := onward.split_behind
    obtain ⟨right, s₃, right_read, next_eq, right_eq⟩ := rightOperand_complete inner
      (p := ⟨s₁, p.attempts⟩) t shape depth.1 meets₁ operand_words front
    obtain ⟨more, last', s', rounds, next_eq, more_eq⟩ := ih (p := ⟨s₃, p.attempts⟩)
      ((op, right) :: before) right.span wellFormed depth.2 meets rest_words
      (ws_eq ▸ .cons rfl next_eq back)
    refine ⟨(op, right) :: more, last', s', fun budget => ?_, next_eq, ?_⟩
    · rw [List.length_cons, Nat.add_right_comm, chainWithin, bind_of_ok (next_of_read read)]
      simp only [kind]
      rw [if_neg (by simpa using noConnective), bind_of_ok right_read, rounds]
      simp
    · rw [Expr.mapLinkSpans, Expr.mapLinkSpans, more_eq]
      exact congrArg (fun e => (op, e) :: _) right_eq

lemma firstOperand_complete (inner : ReadsAllExpressions expression room) {e : Expr}
    (start : e.isEmpty ∨ e.isOperand ∧ e.WellFormed) (depth : e.innerDepth ≤ room)
    (meets : e.mayMeet k.kind) (operator : e.isEmpty → ∃ op, k.kind = .operator op)
    (words : ts.map Token.word = e.words) (reads : Reads inExpressions p.tokens (ts ++ [k]) s) :
    ∃ e' s', firstOperand expression p = .ok e' { p with tokens := s' } ∧
      TokenStream.next .expression s' = (.ok k, s) ∧ e'.bare = e.bare := by
  rcases start with missing | ⟨isOperand, wellFormed⟩
  · obtain ⟨op, kind⟩ := operator missing
    cases e with
    | empty span =>
      obtain rfl := List.map_eq_nil_iff.1 words
      have read := reads.next_of_single
      refine ⟨.empty (.empty k.span.start k.span.line), TokenStream.pushBack k s, ?_,
        next_pushBack read, rfl⟩
      rw [firstOperand, bind_of_ok (next_of_read read), bind_of_ok (pushBack_apply _)]
      simp only [kind]
      rfl
    | _ => simp [Expr.isEmpty] at missing
  · obtain ⟨word, others, e_words, starts⟩ := Expr.words_of_isOperand isOperand
    obtain ⟨t, us, rfl, t_word, -⟩ := List.map_eq_cons_iff.1 (words.trans e_words)
    obtain ⟨s₁, read, onward⟩ := reads.next_eq
    rw [← Token.kind_of_word t_word] at starts
    obtain ⟨e', s', operand_eq, next_eq, e_eq⟩ := operand_complete inner
      (p := ⟨TokenStream.pushBack t s₁, p.attempts⟩) isOperand wellFormed depth meets words
      (.pushBack read onward)
    refine ⟨e', s', ?_, next_eq, e_eq⟩
    rw [firstOperand, bind_of_ok (next_of_read read), bind_of_ok (pushBack_apply _)]
    cases kind : t.kind with
    | operator op => simp [kind, TokenKind.startsOperand] at starts
    | _ => simpa only [kind] using operand_eq

/-- What stands on the left of a connective, or is a whole expression without one, is read up to the
token behind it. -/
lemma left_complete (inner : ReadsAllExpressions expression room) {e : Expr} (isLeft : e.IsLeft)
    (depth : e.innerDepth ≤ room) (meets : e.lastOperand.mayMeet k.kind)
    (operator : e.isEmpty → ∃ op, k.kind = .operator op)
    (words : ts.map Token.word = e.words) (reads : Reads inExpressions p.tokens (ts ++ [k]) s) :
    ∃ budget first before last s',
      expressionBody expression p =
        chainWithin expression first (budget + 1) before last { p with tokens := s' } ∧
      TokenStream.next .expression s' = (.ok k, s) ∧
      (Expr.join first before.reverse last).bare = e.bare := by
  obtain ⟨start, wellFormed, proper⟩ := Expr.head_links_of_isLeft isLeft
  rw [← Expr.words_head_links] at words
  obtain ⟨us, vs, rfl, head_words, link_words⟩ := List.map_eq_append_iff.1 words
  -- The token behind the first operand is the first operator of the chain, or `k` if there is
  -- none.
  obtain ⟨k₁, xs, vs_eq, meets₁, operator₁⟩ : ∃ k₁ xs, vs ++ [k] = k₁ :: xs ∧
      e.head.mayMeet k₁.kind ∧ (e.head.isEmpty → ∃ op, k₁.kind = .operator op) := by
    rw [← Expr.lastOf_head_links] at meets
    cases links_eq : e.links with
    | nil =>
      rw [links_eq] at link_words meets proper
      obtain rfl := List.map_eq_nil_iff.1 link_words
      exact ⟨k, [], rfl, meets, fun missing => operator ((proper missing).resolve_right (by simp))⟩
    | cons link rest =>
      rw [links_eq] at link_words wellFormed
      obtain ⟨k₁, xs, rfl, k₁_word, -⟩ := List.map_eq_cons_iff.1 link_words
      have kind : k₁.kind = .operator link.1 := Token.kind_of_word k₁_word
      exact ⟨k₁, xs ++ [k], rfl, .inr ⟨link.1, kind, wellFormed.2.1⟩, fun _ => ⟨link.1, kind⟩⟩
  rw [List.append_assoc, vs_eq] at reads
  obtain ⟨s₁, front, back⟩ := reads.split_behind
  obtain ⟨first, s₂, first_read, next_eq, first_eq⟩ := firstOperand_complete inner start
    (e.innerDepth_head_le.trans depth) meets₁ operator₁ head_words front
  have onward : Reads inExpressions s₂ (vs ++ [k]) s := vs_eq ▸ .cons rfl next_eq back
  obtain ⟨more, last, s', rounds, next_eq, more_eq⟩ := links_complete inner
    (p := ⟨s₂, p.attempts⟩) first [] first.span wellFormed
    (e.linksDepth_links_le.trans depth) (e.lastOf_head_links ▸ meets) link_words onward
  -- Each link has a token at least, so the rounds outlast the chain, and one more reads `k`.
  obtain ⟨budget, enough⟩ : ∃ budget,
      (Parser.mk s₂ p.attempts).budget = e.links.length + (budget + 1) := by
    obtain ⟨s₃, links_read, -⟩ := onward.split
    have few := Parser.length_lt_budget (p := ⟨s₂, p.attempts⟩) links_read fun t h => by
      rw [← Token.kind_word]
      exact TokenKind.ne_endOfInput
        (Expr.kind_of_mem_linkWords _ _ (link_words ▸ List.mem_map_of_mem h))
    have := Expr.length_le_length_linkWords e.links
    rw [← link_words, List.length_map] at this
    exact ⟨(Parser.mk s₂ p.attempts).budget - e.links.length - 1, by omega⟩
  refine ⟨budget, first, more.reverse, last, s', ?_, next_eq, ?_⟩
  · rw [expressionBody, bind_of_ok first_read, get_bind_apply, enough, rounds, List.append_nil]
  · rw [List.reverse_reverse]
    exact Expr.bare_join_head_links isLeft first_eq more_eq last

/-! ## Expressions -/

lemma expressionBody_complete (inner : ReadsAllExpressions expression room) :
    ReadsAllExpressions (expressionBody expression) (room + 1) := by
  intro e p ts stop s wellFormed depth words stops reads
  have depth : e.innerDepth ≤ room := Nat.le_of_succ_le_succ depth
  -- Without a connective the whole expression is one chain; with one the chain ends in front of
  -- it, and the right operand is an expression again.
  cases connect : e.isConnect with
  | false =>
    have present : ¬ e.isEmpty := by
      cases e <;> first | exact wellFormed.elim | simp [Expr.isEmpty]
    obtain ⟨budget, first, before, last, s', body_eq, next_eq, e_eq⟩ := left_complete inner
      (.inr ⟨connect, wellFormed⟩) depth (.inl stops) (fun missing => absurd missing present) words
      reads
    refine ⟨.join first before.reverse last, ?_, e_eq⟩
    rw [body_eq, chainWithin, bind_of_ok (next_of_read next_eq)]
    have noOperator := TokenKind.ne_operator_of_endsExpression stops
    cases kind : stop.kind with
    | operator op => exact absurd kind (noOperator op)
    | _ => rfl
  | true =>
    cases e with
    | connect left op right span =>
      obtain ⟨connective, isLeft, fits, right_wellFormed⟩ := wellFormed
      simp only [Expr.innerDepth, Nat.max_le] at depth
      obtain ⟨us, vs, rfl, left_words, vs_words⟩ := List.map_eq_append_iff.1 words
      obtain ⟨t, vs, rfl, t_word, right_words⟩ := List.map_eq_cons_iff.1 vs_words
      have kind : t.kind = .operator op := Token.kind_of_word t_word
      rw [List.append_assoc, List.cons_append] at reads
      obtain ⟨s₁, front, back⟩ := reads.split_behind
      obtain ⟨budget, first, before, last, s', body_eq, next_eq, left_eq⟩ := left_complete inner
        isLeft depth.1 (.inr ⟨op, kind, fits⟩) (fun _ => ⟨op, kind⟩) left_words front
      obtain ⟨word, others, eq, starts⟩ := Expr.words_of_wellFormed right_wellFormed
      obtain ⟨t', ws, rfl, t'_word, -⟩ := List.map_eq_cons_iff.1 (right_words.trans eq)
      obtain ⟨s₂, peek, behind⟩ := back.next_eq
      rw [← Token.kind_of_word t'_word] at starts
      obtain ⟨right', right_read, right_eq⟩ :=
        inner right ⟨TokenStream.pushBack t' s₂, p.attempts⟩ (t' :: ws) stop s right_wellFormed
          depth.2 right_words stops (.pushBack peek behind)
      refine ⟨.connect (.join first before.reverse last) op right'
        ((Expr.join first before.reverse last).span.through right'.span), ?_, ?_⟩
      · rw [body_eq, chainWithin, bind_of_ok (next_of_read next_eq)]
        simp only [kind]
        rw [if_pos connective, bind_of_ok (peekKind_of_read (p := ⟨s₁, p.attempts⟩) peek),
          if_pos starts, bind_of_ok right_read]
        rfl
      · simp only [Expr.bare] at left_eq right_eq
        simp only [Expr.bare, Expr.mapSpan, left_eq, right_eq]
    | _ => simp [Expr.isConnect] at connect

lemma expression_complete (room : Nat) :
    ReadsAllExpressions (Parse.expression room : Parse τ Expr) room := by
  induction room with
  | zero => intro e p ts stop s wellFormed depth; simp [Expr.depth] at depth
  | succ room ih => exact expressionBody_complete ih

/-! ## Expressions of a script -/

/-- From any place in any script, what is read as an expression is a well-formed tree of exactly the
tokens consumed, and every well-formed tree for which there is room is read from its tokens, the
spans of the tree apart.  In front of the first token the lexer holds none that was handed back, and
later only such as it has read, so the lexemes are those of the words. -/
theorem expression_sound_and_complete (room : Nat) (p : Parser Lexer) :
    (∀ e p', Parse.expression room p = .ok e p' →
      ∃ ts stop mid s, Reads inExpressions p.tokens ts mid ∧
        mid.next .expression = (.ok stop, s) ∧ p'.tokens = s.pushBack stop ∧
        e.WellFormed ∧ ts.map Token.word = e.words ∧
        (p.tokens.PendingSpelled → ∀ t ∈ ts, t.word = ⟨t.kind, t.lexeme⟩)) ∧
    (∀ (e : Expr) ts stop s, e.WellFormed → e.depth ≤ room → ts.map Token.word = e.words →
      stop.kind.endsExpression → Reads inExpressions p.tokens (ts ++ [stop]) s →
      ∃ e', Parse.expression room p = .ok e' { p with tokens := s.pushBack stop } ∧
        e'.bare = e.bare) := by
  refine ⟨fun e p' h => ?_, fun e ts stop s => expression_complete room e p ts stop s⟩
  obtain ⟨ts, stop, e_read⟩ := expression_reads room p e p' h
  obtain ⟨mid, reads, c, rfl, s, stop_read, tokens_eq⟩ := e_read.tokens
  exact ⟨ts, stop, mid, s, reads, stop_read, tokens_eq, e_read.wellFormed, e_read.words,
    fun spelled t h => Token.word_of_spelled (Lexer.spelled_of_reads reads spelled t h)⟩

/-- The tree of `a = -b++`, read at the beginning of a script.  The lexer holds no token there, so the
tokens that are consumed are written as the words of the tree are. -/
theorem expression_sound_and_complete_assignment :
    ∃ e p', Parse.expression nestingLimit (.ofStream (Lexer.ofScript "a = -b++)")) = .ok e p' ∧
      e.bare = (Expr.assign "a" (.chain (.empty default) [(.minus, .step "b" .increment default)]
        default) default).bare ∧
      ∃ ts : List Token, ts.map Token.word = e.words ∧ ∀ t ∈ ts, t.word = ⟨t.kind, t.lexeme⟩ := by
  obtain ⟨sound, complete⟩ :=
    expression_sound_and_complete nestingLimit (.ofStream (Lexer.ofScript "a = -b++)"))
  obtain ⟨e, read, e_eq⟩ := complete
      (.assign "a" (.chain (.empty default) [(.minus, .step "b" .increment default)] default)
        default)
      [⟨.name, "a", ⟨0, 1, 1⟩⟩, ⟨.assign, "=", ⟨2, 3, 1⟩⟩, ⟨.operator .minus, "-", ⟨4, 5, 1⟩⟩,
        ⟨.name, "b", ⟨5, 6, 1⟩⟩, ⟨.operator .increment, "++", ⟨6, 8, 1⟩⟩]
      ⟨.rightParen, ")", ⟨8, 9, 1⟩⟩ _
      (by simp [Expr.WellFormed, Expr.LinksWellFormed, Expr.isEmpty, Expr.isOperand,
        Expr.mayPrecede, Operator.isConnective, Operator.isStep])
      (by decide) (by decide) (by decide)
      (.cons rfl rfl (.cons rfl rfl (.cons rfl rfl (.cons rfl rfl (.cons rfl rfl
        (.cons rfl rfl (.nil _)))))))
  obtain ⟨ts, _, _, _, -, -, -, -, words, spelled⟩ := sound e _ read
  exact ⟨e, _, read, e_eq, ts, words, spelled (Lexer.pendingSpelled_ofScript _)⟩

end Parse
end ScriptEngine
