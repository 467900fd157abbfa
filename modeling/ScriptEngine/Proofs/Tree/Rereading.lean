import ScriptEngine.Proofs.Token.Rewinding
import ScriptEngine.Proofs.Tree.StatementReading

/-!
# Expressions read by going back for a token

A parser on a `Rewinding` stream reads a token that it hands back once more, in the context in which
it asks for it next.  `Rereads` says that a step does the same on such a stream as on a lexer: with
the same value or error, and leaving the one parser where the other is.

What must be known of a parser for this is that the token waiting in its lexer, if there is one,
would be read again in the context of the next read (`Parser.Standing`).  A token is only ever handed
back to a reader in the same context, with one kind of exception: a token looked at where a statement
may start, and then left to the reader of an expression.  It must be no keyword
(`Parser.Peeked.toExpression`).

Where this fails, behind `for (`, the parser on the lexer stops with an error (`Refused`), which
`Rereads` allows for.  There is one statement for each function that reads a part of an expression;
`Parse.expression_rereads` ties the knot.
-/

namespace ScriptEngine

open TokenStream

/-- The parser gone back to the token that was handed back, if there is one. -/
def Parser.rewound (p : Parser Lexer) : Parser Rewinding :=
  ⟨p.tokens.rewound, p.attempts⟩

/-- Read from `origin`, a keyword other than `var` stands directly behind `for (`, and the error is
that it begins no expression. -/
inductive Refused (origin : Lexer) : ScriptError → Prop
  | keyword {before : List Token} {loop opening word : Token} {spelled : Keyword} {l : Lexer}
    (consumed : Consumes everywhere origin (before ++ [loop, opening, word]) l)
    (repeats : loop.kind = .keyword .forWord) (opens : opening.kind = .leftParen)
    (kind : word.kind = .keyword spelled) (other : spelled ≠ .varWord) :
    Refused origin ⟨.grammar (.expressionExpected word.found), word.span⟩

namespace Parser

variable {origin : Lexer} {latest more : List Token} {c c' : TokenContext} {t : Token}
  {p p' : Parser Lexer}

/-- The parser has read on from `origin`, the tokens `latest` last, and the token that it looked at
since, if it did, would be read again in the context. -/
structure Standing (origin : Lexer) (latest : List Token) (c : TokenContext) (p : Parser Lexer) :
    Prop where
  consumed : ∃ before, Consumes everywhere origin (before ++ latest) p.tokens
  again : p.tokens.Again c

/-- A token has just been read, in the context, behind the tokens `latest`. -/
structure Peeked (origin : Lexer) (latest : List Token) (c : TokenContext) (t : Token)
    (p : Parser Lexer) : Prop where
  none_pending : p.tokens.pending = none
  consumed : ∃ before, Consumes everywhere origin (before ++ (latest ++ [t])) p.tokens
  returned : Standing origin latest c { p with tokens := p.tokens.pushBack t }

lemma standing_ofScript (script : String) (c : TokenContext) :
    Standing (Lexer.ofScript script) [] c (ofStream (Lexer.ofScript script)) :=
  ⟨⟨[], .refl _⟩, Lexer.again_of_none rfl c⟩

lemma line_rewound (p : Parser Lexer) : p.rewound.line = p.line :=
  Lexer.line_rewound p.tokens

/-- It does not matter which tokens were read last. -/
lemma Standing.forget (h : Standing origin latest c p) : Standing origin [] c p := by
  obtain ⟨before, consumes⟩ := h.consumed
  exact ⟨⟨before ++ latest, by simpa using consumes⟩, h.again⟩

/-- A token that is no word may be read again in any context. -/
lemma Standing.anywhere (h : Standing origin latest c p)
    (noWord : ∀ t ∈ p.tokens.pending, t.kind.isWord = false) (c' : TokenContext) :
    Standing origin latest c' p :=
  ⟨h.consumed, h.again.anywhere noWord c'⟩

lemma Standing.attempted (h : Standing origin latest c p) (attempts : List Nat) :
    Standing origin latest c { p with attempts } :=
  ⟨h.consumed, h.again⟩

/-- A token is read. -/
lemma Standing.next {s : Lexer} (h : Standing origin latest c p)
    (read : TokenStream.next c p.tokens = (.ok t, s)) :
    Peeked origin latest c t { p with tokens := s } := by
  obtain ⟨before, consumes⟩ := h.consumed
  refine ⟨Lexer.pending_next read, ⟨before, ?_⟩, ⟨before, ?_⟩, h.again.pushBack read⟩
  · have step : Consumes everywhere p.tokens [t] s := .single (mem_everywhere c) read
    simpa using consumes.trans step
  · have look : Consumes everywhere p.tokens [] (s.pushBack t) := .looked (mem_everywhere c) read
    simpa using consumes.trans look

namespace Peeked

/-- Once a token has been read for good, the next one is read in any context. -/
lemma onward (h : Peeked origin latest c t p) (c' : TokenContext) :
    Standing origin (latest ++ [t]) c' p :=
  ⟨h.consumed, Lexer.again_of_none h.none_pending c'⟩

lemma past (h : Peeked origin latest c t p) (c' : TokenContext) : Standing origin [] c' p :=
  (h.onward c').forget

/-- A token looked at where a statement may start is left to the reader of an expression. -/
lemma toExpression (h : Peeked origin latest .statement t p)
    (ordinary : ∀ word, t.kind ≠ .keyword word) :
    Standing origin latest .expression { p with tokens := p.tokens.pushBack t } := by
  refine ⟨h.returned.consumed, h.returned.again.inExpression ?_⟩
  rintro _ ⟨⟩
  exact ordinary

/-- A token that is no word is left to any reader. -/
lemma toAnywhere (h : Peeked origin latest c t p) (noWord : t.kind.isWord = false)
    (c' : TokenContext) : Standing origin latest c' { p with tokens := p.tokens.pushBack t } := by
  refine h.returned.anywhere ?_ c'
  rintro _ ⟨⟩
  exact noWord

end Peeked
end Parser

namespace Parse

open ScriptEngine.Parser (Standing Peeked)

variable {α β : Type} {origin : Lexer} {latest : List Token} {c : TokenContext}

/-- From a state in `pre` the step does on a lexer what it does on a stream that goes back for a
token, and what it leads to is in `post`; or it fails with the error of a keyword behind `for (`. -/
def Rereads (origin : Lexer) (pre : Parser Lexer → Prop) (x : Parse Lexer α) (y : Parse Rewinding α)
    (post : α → Parser Lexer → Prop) : Prop :=
  ∀ p, pre p →
    match x p with
    | .ok a p' => y p.rewound = .ok a p'.rewound ∧ post a p'
    | .error e p' => y p.rewound = .error e p'.rewound ∨ Refused origin e

/-- The step reads in one context: the token that waits in front of it, and the one that it leaves
behind, would be read again there. -/
abbrev RereadsIn (c : TokenContext) (origin : Lexer) (x : Parse Lexer α) (y : Parse Rewinding α) :
    Prop :=
  Rereads origin (Standing origin [] c) x y fun _ => Standing origin [] c

namespace Rereads

variable {pre pre' : Parser Lexer → Prop} {x : Parse Lexer α} {y : Parse Rewinding α}
  {post post' : α → Parser Lexer → Prop} {post'' : β → Parser Lexer → Prop}
  {f : α → Parse Lexer β} {g : α → Parse Rewinding β}

lemma bind (first : Rereads origin pre x y post)
    (rest : ∀ a, Rereads origin (post a) (f a) (g a) post'') :
    Rereads origin pre (x >>= f) (y >>= g) post'' := by
  intro p holds
  have done := first p holds
  cases run : x p with
  | ok a p₁ =>
    rw [run] at done
    rw [bind_of_ok run, bind_of_ok done.1]
    exact rest a p₁ done.2
  | error e p₁ =>
    rw [run] at done
    rw [bind_of_error run]
    exact done.imp_left fun same => bind_of_error same g

lemma conseq (rereads : Rereads origin pre x y post) (stronger : ∀ p, pre' p → pre p)
    (weaker : ∀ a p, post a p → post' a p) : Rereads origin pre' x y post' := by
  intro p holds
  have done := rereads p (stronger p holds)
  cases run : x p with
  | ok a p' =>
    rw [run] at done
    exact ⟨done.1, weaker a p' done.2⟩
  | error e p' =>
    rw [run] at done
    exact done

lemma pre_mono (rereads : Rereads origin pre x y post) (stronger : ∀ p, pre' p → pre p) :
    Rereads origin pre' x y post :=
  rereads.conseq stronger fun _ _ h => h

/-- From every single state. -/
lemma pointwise (each : ∀ p, pre p → Rereads origin (· = p) x y post) :
    Rereads origin pre x y post :=
  fun p holds => each p holds p rfl

lemma pure {a : α} (holds : ∀ p, pre p → post a p) :
    Rereads origin pre (pure a) (pure a) post :=
  fun p h => ⟨rfl, holds p h⟩

lemma get_bind {f : Parser Lexer → Parse Lexer α} {g : Parser Rewinding → Parse Rewinding α}
    (rest : ∀ p, pre p → Rereads origin (· = p) (f p) (g p.rewound) post) :
    Rereads origin pre (get >>= f) (get >>= g) post :=
  fun p holds => rest p holds p rfl

lemma fail {span : Span} {fault : GrammarFault} :
    Rereads origin pre (fail span fault) (Parse.fail span fault) post :=
  fun _ _ => .inl rfl

lemma failHere {fault : GrammarFault} :
    Rereads origin pre (failHere fault) (Parse.failHere fault) post := by
  intro p _
  rw [failHere_apply]
  refine .inl ?_
  rw [failHere_apply]
  simp only [Parser.rewound, Lexer.position_rewound, Lexer.line_rewound]

/-- A loop that counts down from the budget. -/
lemma budgeted {f : Nat → Parse Lexer α} {g : Nat → Parse Rewinding α}
    (rest : ∀ n, Rereads origin pre (f n) (g n) post) :
    Rereads origin pre (do f (← get).budget) (do g (← get).budget) post :=
  .get_bind fun p holds => (rest p.budget).pre_mono fun _ here => here ▸ holds

lemma next (c : TokenContext) :
    Rereads origin (Standing origin latest c) (next c) (Parse.next c)
      (Peeked origin latest c) := by
  intro p standing
  have same := standing.again.next_rewound
  rcases read : TokenStream.next c p.tokens with ⟨e | t, s⟩
  · rw [next_eq_error.2 ⟨s, read, rfl⟩]
    rw [show p.tokens.next c = _ from read] at same
    exact .inl (next_eq_error.2 ⟨_, same, rfl⟩)
  · rw [next_eq_ok.2 ⟨s, read, rfl⟩]
    rw [show p.tokens.next c = _ from read] at same
    exact ⟨next_eq_ok.2 ⟨_, same, rfl⟩, standing.next read⟩

/-- A token is handed back. -/
lemma pushBack {t : Token} {post : Unit → Parser Lexer → Prop}
    (holds : ∀ p, Peeked origin latest c t p → post () { p with tokens := p.tokens.pushBack t }) :
    Rereads origin (Peeked origin latest c t) (pushBack t) (Parse.pushBack t) post := by
  intro p peeked
  have same : (Parse.pushBack t : Parse Rewinding Unit) p.rewound =
      .ok () (Parser.rewound { p with tokens := p.tokens.pushBack t }) := by
    rw [pushBack_apply]
    simp only [Parser.rewound, Lexer.pushBack_rewound peeked.none_pending]
    rfl
  exact ⟨same, holds p peeked⟩

/-- A token is handed back, to be read again in the context `c`. -/
lemma handedBack {t : Token} {d : TokenContext}
    (may : ∀ p, Peeked origin latest d t p →
      Standing origin latest c { p with tokens := p.tokens.pushBack t })
    (rest : Rereads origin (Standing origin latest c) x y post) :
    Rereads origin (Peeked origin latest d t) (do Parse.pushBack t; x) (do Parse.pushBack t; y)
      post :=
  (pushBack may).bind fun _ => rest

/-- A token is handed back to a reader in the same context. -/
lemma returned {t : Token} (rest : Rereads origin (Standing origin latest c) x y post) :
    Rereads origin (Peeked origin latest c t) (do Parse.pushBack t; x) (do Parse.pushBack t; y)
      post :=
  handedBack (fun _ peeked => peeked.returned) rest

/-- A token has been read for good. -/
lemma past {t : Token} {d : TokenContext}
    (rest : Rereads origin (Standing origin [] c) x y post) :
    Rereads origin (Peeked origin latest d t) x y post :=
  rest.pre_mono fun _ peeked => peeked.past c

lemma peekKind :
    RereadsIn .expression origin peekKind Parse.peekKind :=
  (next .expression).bind fun _ => .returned (.pure fun _ h => h)

lemma expect (place : Place) :
    Rereads origin (Standing origin latest .expression) (expect place) (Parse.expect place)
      fun t p => t.kind = place.kind ∧ ∀ c, Standing origin (latest ++ [t]) c p := by
  refine (next .expression).bind fun t => ?_
  split
  · next kind => exact .pure fun _ peeked => ⟨kind, peeked.onward⟩
  · exact .fail

/-- Behind a symbol reading goes on in any context. -/
lemma behind (place : Place) (c : TokenContext)
    (rest : Rereads origin (Standing origin [] c) x y post) :
    Rereads origin (Standing origin [] .expression) (do let _ ← Parse.expect place; x)
      (do let _ ← Parse.expect place; y) post :=
  (expect place).bind fun _ => rest.pre_mono fun _ read => (read.2 c).forget

end Rereads

/-! ## Expressions -/

/-- The reader reads expressions.  It refuses a keyword that waits to be read. -/
structure RereadsExpressions (origin : Lexer) (x : Parse Lexer Expr) (y : Parse Rewinding Expr) :
    Prop where
  again : RereadsIn .expression origin x y
  refuses : ∀ (p : Parser Lexer) (t : Token) (word : Keyword), p.tokens.pending = some t →
    t.kind = .keyword word → ∃ e p', x p = .error e p' ∧
      (y p.rewound = .error e p'.rewound ∨ e = ⟨.grammar (.expressionExpected t.found), t.span⟩)

section

variable {x : Parse Lexer Expr} {y : Parse Rewinding Expr} (inner : RereadsExpressions origin x y)
include inner

lemma argumentsWithin_rereads (budget : Nat) (before : List Expr) :
    RereadsIn .expression origin (argumentsWithin x budget before)
      (argumentsWithin y budget before) := by
  induction budget generalizing before with
  | zero => exact .failHere
  | succ budget ih =>
    refine inner.again.bind fun argument => (Rereads.next .expression).bind fun t => ?_
    split
    · exact .past (ih (argument :: before))
    · exact .pure fun _ peeked => peeked.past _
    · exact .fail

lemma call_rereads (callee : Token) :
    RereadsIn .expression origin (call x callee) (call y callee) := by
  refine .behind .callOpen .expression ((Rereads.next .expression).bind fun t => ?_)
  split
  · exact .pure fun _ peeked => peeked.past _
  · refine .returned (.get_bind fun p standing => ?_)
    refine Rereads.pre_mono ?_ fun p' (here : p' = p) => here ▸ standing
    exact (argumentsWithin_rereads inner p.budget []).bind fun ⟨args, close⟩ => .pure fun _ h => h

lemma named_rereads (name : Token) :
    RereadsIn .expression origin (named x name) (named y name) := by
  refine (Rereads.next .expression).bind fun t => ?_
  split
  · refine .past (Rereads.peekKind.bind fun kind => ?_)
    split
    · exact inner.again.bind fun value => .pure fun _ h => h
    · exact .fail
  · exact .pure fun _ peeked => peeked.past _
  · exact .pure fun _ peeked => peeked.past _
  · exact .returned (.pure fun _ h => h)

lemma operand_rereads :
    RereadsIn .expression origin (operand x) (operand y) := by
  refine (Rereads.next .expression).bind fun t => ?_
  split
  · exact .pure fun _ peeked => peeked.past _
  · exact .past (named_rereads inner t)
  · exact .past (call_rereads inner t)
  · refine .past (inner.again.bind fun e => (Rereads.expect .groupClose).bind fun close => ?_)
    exact .pure fun _ closed => (closed.2 _).forget
  · exact .fail

lemma operandAfter_rereads (operator : Token) :
    RereadsIn .expression origin (operandAfter x operator)
      (operandAfter y operator) := by
  refine Rereads.peekKind.bind fun kind => ?_
  split
  · exact operand_rereads inner
  · exact (Rereads.next .expression).bind fun t => .fail

lemma rightOperand_rereads (op : Operator) (operator : Token) :
    RereadsIn .expression origin (rightOperand x op operator)
      (rightOperand y op operator) := by
  rw [rightOperand, rightOperand]
  split
  · refine Rereads.peekKind.bind fun kind => ?_
    split
    · exact operandAfter_rereads inner operator
    · exact .pure fun _ h => h
  · exact operandAfter_rereads inner operator

lemma chainWithin_rereads (first : Expr) (budget : Nat) (before : List (Operator × Expr))
    (last : Span) :
    RereadsIn .expression origin (chainWithin x first budget before last)
      (chainWithin y first budget before last) := by
  induction budget generalizing before last with
  | zero => exact .failHere
  | succ budget ih =>
    refine (Rereads.next .expression).bind fun t => ?_
    split
    · next op operator =>
      refine Rereads.past (c := .expression) ?_
      split
      · refine Rereads.peekKind.bind fun kind => ?_
        split
        · exact inner.again.bind fun right => .pure fun _ h => h
        · exact .fail
      · exact (rightOperand_rereads inner op t).bind fun right => ih _ _
    · exact .returned (.pure fun _ h => h)

lemma firstOperand_rereads :
    RereadsIn .expression origin (firstOperand x) (firstOperand y) := by
  refine (Rereads.next .expression).bind fun t => .returned ?_
  split
  · exact .pure fun _ h => h
  · exact operand_rereads inner

lemma expressionBody_again :
    RereadsIn .expression origin (expressionBody x) (expressionBody y) :=
  (firstOperand_rereads inner).bind fun first =>
    .budgeted fun budget => chainWithin_rereads inner first budget [] first.span

end

/-- No expression begins with a keyword. -/
lemma expressionBody_of_keyword {x : Parse Lexer Expr} {p : Parser Lexer} {t : Token}
    {word : Keyword} (pending : p.tokens.pending = some t) (keyword : t.kind = .keyword word) :
    ∃ p', expressionBody x p = .error ⟨.grammar (.expressionExpected t.found), t.span⟩ p' := by
  have read : Parse.next .expression p = .ok t { p with tokens := ⟨p.tokens.cursor, none⟩ } :=
    next_eq_ok.2 ⟨_, Lexer.next_eq_ok.2 (.inl ⟨pending, rfl⟩), rfl⟩
  have refused : operand x p = .error ⟨.grammar (.expressionExpected t.found), t.span⟩
      { p with tokens := ⟨p.tokens.cursor, none⟩ } := by
    rw [operand, bind_of_ok read]
    simp only [keyword]
    rfl
  have same : (⟨Lexer.pushBack t ⟨p.tokens.cursor, none⟩, p.attempts⟩ : Parser Lexer) = p := by
    obtain ⟨⟨cursor, _⟩, attempts⟩ := p
    obtain rfl : _ = some t := pending
    rfl
  have first : firstOperand x p = .error ⟨.grammar (.expressionExpected t.found), t.span⟩
      { p with tokens := ⟨p.tokens.cursor, none⟩ } := by
    rw [firstOperand, bind_of_ok read, bind_of_ok (pushBack_apply t)]
    simp only [keyword]
    change operand x ⟨Lexer.pushBack t ⟨p.tokens.cursor, none⟩, p.attempts⟩ = _
    rw [same, refused]
  exact ⟨_, bind_of_error first _⟩

lemma expression_rereads (room : Nat) :
    RereadsExpressions origin (expression room) (expression room) := by
  induction room with
  | zero =>
    have fails : Rereads origin (fun _ => True) (expression 0) (expression 0)
        fun _ => Standing origin [] .expression := .failHere
    refine ⟨fails.pre_mono fun _ _ => trivial, fun p t word _ _ => ⟨_, p, failHere_apply _, .inl ?_⟩⟩
    rw [expression, failHere_apply]
    simp only [Parser.rewound, Lexer.position_rewound, Lexer.line_rewound]
  | succ room ih =>
    refine ⟨expressionBody_again ih, fun p t word pending keyword => ?_⟩
    obtain ⟨p', refused⟩ := expressionBody_of_keyword (x := expression room) pending keyword
    exact ⟨_, p', refused, .inr rfl⟩

end Parse
end ScriptEngine
