import ScriptEngine.Proofs.Tree.Spans
import ScriptEngine.Proofs.Tree.StatementReading

/-!
# Parsers side by side

Two parsers on different token streams do the same as long as the streams give them the same tokens.
A `Pairing` says when the states of two parsers correspond, and up to what their spans agree;
`Pairing.Lawful` collects what has to be true of single tokens.  From it, one statement for each
function of the parser: if the first parser succeeds, so does the second, with the same tree up to
the spans, and the states correspond again.

In a strict pairing errors agree as well, but for those of a first parser that makes no headway where
the second still may (`Pairing.Owes`).  In a pairing that is not strict the input of the second parser
may go on where that of the first ends: the first finds the end of its input where the second finds
a newline.  Once the second has consumed that newline as a terminator, the two are `past` the end of
the first input.
-/

namespace ScriptEngine

open TokenStream

/-- Spans that agree up to the two functions are the parts of spans that agree. -/
structure Compatible (left right : Span → Span) : Prop where
  through {a b a' b' : Span} (first : left a = right a') (last : left b = right b') :
    left (a.through b) = right (a'.through b')
  empty_start {a a' : Span} (same : left a = right a') :
    left (.empty a.start a.line) = right (.empty a'.start a'.line)
  empty_stop {a a' : Span} (same : left a = right a') :
    left (.empty a.stop a.line) = right (.empty a'.stop a'.line)

lemma compatible_id : Compatible id id := by
  refine ⟨?_, ?_, ?_⟩
  · rintro a b _ _ rfl rfl
    rfl
  · rintro a _ rfl
    rfl
  · rintro a _ rfl
    rfl

/-- How two parsers correspond. -/
structure Pairing (σ τ : Type) where
  /-- The parsers are about to read the same tokens. -/
  aligned : Parser σ → Parser τ → Prop
  /-- The first parser is at the end of its input, and the second behind the newline there. -/
  past : Parser σ → Parser τ → Prop
  /-- If the first parser fails, the second fails in the same way. -/
  strict : Prop
  /-- This is so even if the first parser fails because it makes no headway. -/
  stallsAlike : Prop
  /-- What the spans of the first parser are compared by. -/
  left : Span → Span
  /-- What the spans of the second parser are compared by. -/
  right : Span → Span

namespace Pairing

variable {σ τ α β γ δ : Type} (P : Pairing σ τ)

structure SameToken (t u : Token) : Prop where
  kind : t.kind = u.kind
  lexeme : t.lexeme = u.lexeme
  span : P.left t.span = P.right u.span

structure SameError (e e' : ScriptError) : Prop where
  fault : e.fault = e'.fault
  span : P.left e.span = P.right e'.span

def SameExpr (e e' : Expr) : Prop :=
  e.mapSpan P.left = e'.mapSpan P.right

def SameStmt (s s' : Stmt) : Prop :=
  s.mapSpan P.left = s'.mapSpan P.right

lemma SameToken.found {t u : Token} (same : P.SameToken t u) : t.found = u.found := by
  simp only [Token.found, same.kind, same.lexeme]

lemma SameExpr.span {e e' : Expr} (same : P.SameExpr e e') : P.left e.span = P.right e'.span := by
  simpa using congrArg Expr.span same

lemma SameStmt.span {s s' : Stmt} (same : P.SameStmt s s') : P.left s.span = P.right s'.span := by
  simpa using congrArg Stmt.span same

/-- If the first parser fails with the error, the second is to fail in the same way. -/
def Owes (e : ScriptError) : Prop :=
  P.strict ∧ (e.fault = .grammar .stalled → P.stallsAlike)

/-- The results correspond: the second step succeeds if the first does, and if the pairing is strict
it fails as the first does. -/
def Ends (post : α → β → Parser σ → Parser τ → Prop) :
    EStateM.Result ScriptError (Parser σ) α → EStateM.Result ScriptError (Parser τ) β → Prop
  | .ok a p, y => ∃ b q, y = .ok b q ∧ post a b p q
  | .error e p, y => P.Owes e → ∃ e' q, y = .error e' q ∧ P.SameError e e' ∧ P.aligned p q

/-- As `Ends`, but whether the second step succeeds is only known if `sure` holds of what the first
yields. -/
def EndsIf (sure : α → Parser σ → Prop) (post : α → β → Parser σ → Parser τ → Prop) :
    EStateM.Result ScriptError (Parser σ) α → EStateM.Result ScriptError (Parser τ) β → Prop
  | .ok a p, y => sure a p → ∃ b q, y = .ok b q ∧ post a b p q
  | .error e p, y => P.Owes e → ∃ e' q, y = .error e' q ∧ P.SameError e e' ∧ P.aligned p q

/-- The results are the same and the parsers still aligned. -/
def Both (same : α → β → Prop) (a : α) (b : β) (p : Parser σ) (q : Parser τ) : Prop :=
  same a b ∧ P.aligned p q

/-- The results are the same and the parsers aligned or past the end of the first input. -/
def Through (same : α → β → Prop) (a : α) (b : β) (p : Parser σ) (q : Parser τ) : Prop :=
  same a b ∧ (P.aligned p q ∨ P.past p q)

/-- A loop of the second parser may go on for at least as many rounds. -/
def Within (budget budget' : Nat) : Prop :=
  budget ≤ budget' ∧ (P.stallsAlike → budget = budget')

variable [TokenStream σ] [TokenStream τ]

/-- Two tokens have just been read.  Either they are the same, or the first is the end of the input
and the second a newline; in both cases they can be handed back. -/
structure Read (t u : Token) (p : Parser σ) (q : Parser τ) : Prop where
  returned : P.aligned { p with tokens := pushBack t p.tokens }
    { q with tokens := pushBack u q.tokens }
  token : P.SameToken t u ∧ P.aligned p q ∨
    ¬ P.strict ∧ t.kind = .endOfInput ∧ u.kind = .newline ∧
      P.past { p with tokens := pushBack t p.tokens } q

/-- What a pairing owes. -/
structure Lawful : Prop where
  next {p : Parser σ} {q : Parser τ} (c : TokenContext) (aligned : P.aligned p q) :
    P.Ends P.Read (Parse.next c p) (Parse.next c q)
  attempt {p : Parser σ} {q : Parser τ} (aligned : P.aligned p q) :
    (P.stallsAlike → Parser.stalledAt (position p.tokens) p.attempts = true →
        Parser.stalledAt (position q.tokens) q.attempts = true) ∧
      (Parser.stalledAt (position p.tokens) p.attempts = false →
        Parser.stalledAt (position q.tokens) q.attempts = false ∧
          P.aligned { p with attempts := position p.tokens :: p.attempts }
            { q with attempts := position q.tokens :: q.attempts })
  here {p : Parser σ} {q : Parser τ} (strict : P.strict) (aligned : P.aligned p q) :
    P.left (.single (position p.tokens) (line p.tokens)) =
      P.right (.single (position q.tokens) (line q.tokens))
  budget {p : Parser σ} {q : Parser τ} (aligned : P.aligned p q) : P.Within p.budget q.budget
  past_lax {p : Parser σ} {q : Parser τ} (past : P.past p q) : ¬ P.strict
  /-- Only the end is left to the first parser. -/
  past_end {p : Parser σ} {q : Parser τ} (past : P.past p q) :
    ∃ t s, TokenStream.next .statement p.tokens = (.ok t, s) ∧ t.kind = .endOfInput
  spans : Compatible P.left P.right

/-- Past the end of the first input the second goes on with a token that is no `else`, perhaps
behind newlines. -/
def Settles : Prop :=
  ∀ p q, P.past p q → ∃ blanks t s, Reads {.statement} q.tokens (blanks ++ [t]) s ∧
    (∀ t ∈ blanks, t.IsNewline) ∧ t.kind ≠ .newline ∧ t.kind ≠ .keyword .elseWord

variable {P}

/-- There is nothing past the end in a strict pairing. -/
lemma Lawful.settles (lawful : P.Lawful) (strict : P.strict) : P.Settles :=
  fun _ _ past => absurd strict (lawful.past_lax past)

/-! ## Steps -/

namespace Ends

variable {post : α → β → Parser σ → Parser τ → Prop} {p : Parser σ} {q : Parser τ}

omit [TokenStream σ] [TokenStream τ] in
/-- What follows is compared from where the first steps lead. -/
lemma bind_run {post' : γ → δ → Parser σ → Parser τ → Prop} {x : Parse σ α} {y : Parse τ β}
    {f : α → Parse σ γ} {g : β → Parse τ δ} (first : P.Ends post (x p) (y q))
    (rest : ∀ a b p₁ q₁, x p = .ok a p₁ → y q = .ok b q₁ → post a b p₁ q₁ →
      P.Ends post' (f a p₁) (g b q₁)) :
    P.Ends post' ((x >>= f) p) ((y >>= g) q) := by
  cases run : x p with
  | ok a p₁ =>
    rw [run] at first
    obtain ⟨b, q₁, run', holds⟩ := first
    rw [Parse.bind_of_ok run, Parse.bind_of_ok run']
    exact rest a b p₁ q₁ run run' holds
  | error e p₁ =>
    rw [run] at first
    rw [Parse.bind_of_error run]
    intro owes
    obtain ⟨e', q₁, run', same, aligned⟩ := first owes
    exact ⟨e', q₁, Parse.bind_of_error run' g, same, aligned⟩

omit [TokenStream σ] [TokenStream τ] in
lemma bind {post' : γ → δ → Parser σ → Parser τ → Prop} {x : Parse σ α} {y : Parse τ β}
    {f : α → Parse σ γ} {g : β → Parse τ δ} (first : P.Ends post (x p) (y q))
    (rest : ∀ a b p q, post a b p q → P.Ends post' (f a p) (g b q)) :
    P.Ends post' ((x >>= f) p) ((y >>= g) q) :=
  first.bind_run fun a b p q _ _ => rest a b p q

omit [TokenStream σ] [TokenStream τ] in
lemma bind_both {same : α → β → Prop} {post' : γ → δ → Parser σ → Parser τ → Prop}
    {x : Parse σ α} {y : Parse τ β} {f : α → Parse σ γ} {g : β → Parse τ δ}
    (first : P.Ends (P.Both same) (x p) (y q))
    (rest : ∀ a b p q, same a b → P.aligned p q → P.Ends post' (f a p) (g b q)) :
    P.Ends post' ((x >>= f) p) ((y >>= g) q) :=
  first.bind fun a b p q both => rest a b p q both.1 both.2

omit [TokenStream σ] [TokenStream τ] in
lemma bind_through {same : α → β → Prop} {post' : γ → δ → Parser σ → Parser τ → Prop}
    {x : Parse σ α} {y : Parse τ β} {f : α → Parse σ γ} {g : β → Parse τ δ}
    (first : P.Ends (P.Through same) (x p) (y q))
    (rest : ∀ a b p q, same a b → P.aligned p q ∨ P.past p q → P.Ends post' (f a p) (g b q)) :
    P.Ends post' ((x >>= f) p) ((y >>= g) q) :=
  first.bind fun a b p q through => rest a b p q through.1 through.2

omit [TokenStream σ] [TokenStream τ] in
lemma pure {a : α} {b : β} (holds : post a b p q) :
    P.Ends post ((pure a : Parse σ α) p) ((pure b : Parse τ β) q) :=
  ⟨b, q, rfl, holds⟩

omit [TokenStream σ] [TokenStream τ] in
lemma mono {post' : α → β → Parser σ → Parser τ → Prop}
    {x : EStateM.Result ScriptError (Parser σ) α} {y : EStateM.Result ScriptError (Parser τ) β}
    (weaker : ∀ a b p q, post a b p q → post' a b p q) (ends : P.Ends post x y) :
    P.Ends post' x y := by
  cases x with
  | ok a p =>
    obtain ⟨b, q, run, holds⟩ := ends
    exact ⟨b, q, run, weaker a b p q holds⟩
  | error e p => exact ends

/-- Reading a token, case by case. -/
lemma next {c : TokenContext}
    (ok : ∀ t s, TokenStream.next c p.tokens = (.ok t, s) →
      ∃ u s', TokenStream.next c q.tokens = (.ok u, s') ∧
        P.Read t u { p with tokens := s } { q with tokens := s' })
    (error : ∀ e s, TokenStream.next c p.tokens = (.error e, s) → P.strict →
      ∃ e' s', TokenStream.next c q.tokens = (.error e', s') ∧ P.SameError e e' ∧
        P.aligned { p with tokens := s } { q with tokens := s' }) :
    P.Ends P.Read (Parse.next c p) (Parse.next c q) := by
  cases read : TokenStream.next c p.tokens with
  | mk result s =>
    cases result with
    | ok t =>
      obtain ⟨u, s', read', tokens⟩ := ok t s read
      rw [Parse.next_eq_ok.2 ⟨s, read, rfl⟩]
      exact ⟨u, _, Parse.next_eq_ok.2 ⟨s', read', rfl⟩, tokens⟩
    | error e =>
      rw [Parse.next_eq_error.2 ⟨s, read, rfl⟩]
      intro owes
      obtain ⟨e', s', read', same, aligned⟩ := error e s read owes.1
      exact ⟨e', _, Parse.next_eq_error.2 ⟨s', read', rfl⟩, same, aligned⟩

omit [TokenStream σ] [TokenStream τ] in
/-- Without strictness nothing is asked of the second parser when the first fails. -/
lemma of_fail {span : Span} {fault : GrammarFault}
    {y : EStateM.Result ScriptError (Parser τ) β} (lax : ¬ P.strict) :
    P.Ends post ((Parse.fail span fault : Parse σ α) p) y :=
  fun owes => absurd owes.1 lax

omit [TokenStream σ] [TokenStream τ] in
lemma fail {span span' : Span} {fault fault' : GrammarFault} (aligned : P.aligned p q)
    (same : P.left span = P.right span') (cause : fault = fault') :
    P.Ends post ((Parse.fail span fault : Parse σ α) p)
      ((Parse.fail span' fault' : Parse τ β) q) :=
  fun _ => ⟨_, q, rfl, ⟨by rw [cause], same⟩, aligned⟩

lemma failHere {fault : GrammarFault} (lawful : P.Lawful) (aligned : P.aligned p q) :
    P.Ends post ((Parse.failHere fault : Parse σ α) p) ((Parse.failHere fault : Parse τ β) q) :=
  fun owes => ⟨_, q, rfl, ⟨rfl, lawful.here owes.1 aligned⟩, aligned⟩

/-- The rounds of the first loop have run out. -/
lemma exhausted {budget' : Nat} {g : Nat → Parse τ β} (lawful : P.Lawful)
    (aligned : P.aligned p q) (within : P.Within 0 budget')
    (none_left : g 0 = Parse.failHere .stalled) :
    P.Ends post ((Parse.failHere .stalled : Parse σ α) p) (g budget' q) := by
  intro owes
  obtain rfl := within.2 (owes.2 rfl)
  rw [none_left]
  exact ⟨_, q, rfl, ⟨rfl, lawful.here owes.1 aligned⟩, aligned⟩

end Ends

namespace EndsIf

variable {sure : α → Parser σ → Prop} {post : α → β → Parser σ → Parser τ → Prop} {p : Parser σ}
  {q : Parser τ} {r : EStateM.Result ScriptError (Parser σ) α}
  {r' : EStateM.Result ScriptError (Parser τ) β}

omit [TokenStream σ] [TokenStream τ] in
lemma of_ends (ends : P.Ends post r r') : P.EndsIf sure post r r' := by
  cases r with
  | ok a p => exact fun _ => ends
  | error e p => exact ends

omit [TokenStream σ] [TokenStream τ] in
lemma ends (ends : P.EndsIf sure post r r') (all : ∀ a p, r = .ok a p → sure a p) :
    P.Ends post r r' := by
  cases r with
  | ok a p => exact ends (all a p rfl)
  | error e p => exact ends

omit [TokenStream σ] [TokenStream τ] in
/-- What the second steps yield is sure only if what the first ones yield was. -/
lemma bind {sure' : γ → Parser σ → Prop} {post' : γ → δ → Parser σ → Parser τ → Prop}
    {x : Parse σ α} {y : Parse τ β} {f : α → Parse σ γ} {g : β → Parse τ δ}
    (first : P.EndsIf sure post (x p) (y q))
    (strict_sure : ∀ a p₁, P.strict → sure a p₁)
    (back : ∀ a p₁ c p₂, f a p₁ = .ok c p₂ → sure' c p₂ → sure a p₁)
    (rest : ∀ a b p₁ q₁, x p = .ok a p₁ → y q = .ok b q₁ → post a b p₁ q₁ →
      P.EndsIf sure' post' (f a p₁) (g b q₁)) :
    P.EndsIf sure' post' ((x >>= f) p) ((y >>= g) q) := by
  cases run : x p with
  | error e p₁ =>
    rw [run] at first
    rw [Parse.bind_of_error run]
    intro owes
    obtain ⟨e', q₁, run', same, aligned⟩ := first owes
    exact ⟨e', q₁, Parse.bind_of_error run' g, same, aligned⟩
  | ok a p₁ =>
    rw [run] at first
    rw [Parse.bind_of_ok run]
    have onward (known : sure a p₁) : P.EndsIf sure' post' (f a p₁) ((y >>= g) q) := by
      obtain ⟨b, q₁, run', holds⟩ := first known
      rw [Parse.bind_of_ok run']
      exact rest a b p₁ q₁ run run' holds
    cases run₂ : f a p₁ with
    | ok c p₂ =>
      intro known
      have ends := onward (back a p₁ c p₂ run₂ known)
      rw [run₂] at ends
      exact ends known
    | error e p₂ =>
      intro owes
      have ends := onward (strict_sure a p₁ owes.1)
      rw [run₂] at ends
      exact ends owes

omit [TokenStream σ] [TokenStream τ] in
/-- What the first steps yield is sure. -/
lemma after_run {sure' : γ → Parser σ → Prop} {post' : γ → δ → Parser σ → Parser τ → Prop}
    {x : Parse σ α} {y : Parse τ β} {f : α → Parse σ γ} {g : β → Parse τ δ}
    (first : P.Ends post (x p) (y q))
    (rest : ∀ a b p₁ q₁, x p = .ok a p₁ → y q = .ok b q₁ → post a b p₁ q₁ →
      P.EndsIf sure' post' (f a p₁) (g b q₁)) :
    P.EndsIf sure' post' ((x >>= f) p) ((y >>= g) q) := by
  have first : P.EndsIf (fun _ _ => True) post (x p) (y q) := of_ends first
  exact first.bind (fun _ _ _ => trivial) (fun _ _ _ _ _ _ => trivial) rest

omit [TokenStream σ] [TokenStream τ] in
lemma after_both {same : α → β → Prop} {sure' : γ → Parser σ → Prop}
    {post' : γ → δ → Parser σ → Parser τ → Prop} {x : Parse σ α} {y : Parse τ β}
    {f : α → Parse σ γ} {g : β → Parse τ δ} (first : P.Ends (P.Both same) (x p) (y q))
    (rest : ∀ a b p q, same a b → P.aligned p q → P.EndsIf sure' post' (f a p) (g b q)) :
    P.EndsIf sure' post' ((x >>= f) p) ((y >>= g) q) :=
  after_run first fun a b p q _ _ both => rest a b p q both.1 both.2

end EndsIf

namespace Within

omit [TokenStream σ] [TokenStream τ] in
/-- While the first loop has rounds left, so has the second. -/
lemma exists_succ {budget budget' : Nat} (within : P.Within (budget + 1) budget') :
    ∃ less, budget' = less + 1 ∧ P.Within budget less := by
  obtain ⟨le, same⟩ := within
  obtain ⟨less, rfl⟩ : ∃ less, budget' = less + 1 := ⟨budget' - 1, by omega⟩
  exact ⟨less, rfl, by omega, fun alike => by have := same alike; omega⟩

end Within

variable {p : Parser σ} {q : Parser τ}

/-- Tokens that have just been read are handed back. -/
lemma pushBack_pairs {t u : Token} (read : P.Read t u p q) :
    P.Ends (P.Both fun _ _ => True) (Parse.pushBack t p) (Parse.pushBack u q) :=
  ⟨(), _, rfl, trivial, read.returned⟩

variable (lawful : P.Lawful)
include lawful

/-- The kind of the next token, which has been handed back. -/
lemma peekKind_pairs (aligned : P.aligned p q) :
    P.Ends (P.Both fun kind kind' =>
        kind = kind' ∨ ¬ P.strict ∧ kind = .endOfInput ∧ kind' = .newline)
      (Parse.peekKind p) (Parse.peekKind q) := by
  refine (lawful.next .expression aligned).bind fun t u p q read => ?_
  refine ⟨u.kind, _, rfl, ?_, read.returned⟩
  rcases read.token with ⟨same, -⟩ | ⟨lax, end_kind, newline, -⟩
  · exact .inl same.kind
  · exact .inr ⟨lax, end_kind, newline⟩

/-- What comes next begins an operand for both parsers or for neither. -/
lemma startsOperand_pairs (aligned : P.aligned p q) :
    P.Ends (P.Both fun kind kind' => kind.startsOperand = kind'.startsOperand)
      (Parse.peekKind p) (Parse.peekKind q) := by
  refine (peekKind_pairs lawful aligned).mono ?_
  rintro kind kind' p q ⟨rfl | ⟨-, rfl, rfl⟩, aligned⟩ <;> exact ⟨rfl, aligned⟩

lemma startsExpression_pairs (aligned : P.aligned p q) :
    P.Ends (P.Both fun kind kind' => kind.startsExpression = kind'.startsExpression)
      (Parse.peekKind p) (Parse.peekKind q) := by
  refine (peekKind_pairs lawful aligned).mono ?_
  rintro kind kind' p q ⟨rfl | ⟨-, rfl, rfl⟩, aligned⟩ <;> exact ⟨rfl, aligned⟩

lemma expect_pairs (place : Place) (aligned : P.aligned p q) :
    P.Ends (P.Both P.SameToken) (Parse.expect place p) (Parse.expect place q) := by
  refine (lawful.next .expression aligned).bind fun t u p q read => ?_
  rcases read.token with ⟨same, aligned⟩ | ⟨lax, end_kind, -, -⟩
  · rw [← same.kind]
    split
    · exact .pure ⟨same, aligned⟩
    · exact .fail aligned same.span (by rw [same.found])
  · rw [end_kind, if_neg (by cases place <;> simp [Place.kind])]
    exact .of_fail lax

end Pairing
end ScriptEngine
