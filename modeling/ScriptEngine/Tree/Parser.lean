import ScriptEngine.Token.Stream
import ScriptEngine.Tree

/-!
# Parsers

A parser reads a token stream and keeps note of where it tried to read statements.  A statement may
be empty, so a parser could try for ever at one place; the note lets it give up.

Every loop of the parser counts down from a budget that its input cannot exhaust: each round reads a
token or is one of the few attempts that are allowed at one position.
-/

namespace ScriptEngine

/-- How many statements may be attempted at one position, one after the other. -/
def attemptLimit : Nat := 11

/-- A token stream being parsed. -/
structure Parser (τ : Type) where
  tokens : τ
  /-- The positions at which statements were attempted, the latest first. -/
  attempts : List Nat := []

/-- A step of parsing: it fails with an error or yields a result, and moves the parser either
way. -/
abbrev Parse (τ : Type) := EStateM ScriptError (Parser τ)

namespace Parser

variable {τ : Type} [TokenStream τ]

/-- A parser in front of the tokens of a stream. -/
def ofStream (tokens : τ) : Parser τ :=
  { tokens }

/-- More rounds than any loop of the parser takes from here on. -/
def budget (p : Parser τ) : Nat :=
  (attemptLimit + 1) * (TokenStream.remaining p.tokens + 2)

/-- The line of the next token. -/
def line (p : Parser τ) : Nat :=
  TokenStream.line p.tokens

/-- The last `attemptLimit` attempts were all made at `position`. -/
def stalledAt (position : Nat) (attempts : List Nat) : Bool :=
  attempts.take attemptLimit == List.replicate attemptLimit position

end Parser

namespace Parse

variable {τ : Type} [TokenStream τ] {α : Type}

def fail (span : Span) (fault : GrammarFault) : Parse τ α :=
  throw ⟨.grammar fault, span⟩

/-- Fails at the next token's first character. -/
def failHere (fault : GrammarFault) : Parse τ α := do
  let p ← get
  fail (.single (TokenStream.position p.tokens) (TokenStream.line p.tokens)) fault

/-- Reads the next token. -/
def next (context : TokenContext) : Parse τ Token := fun p =>
  match TokenStream.next context p.tokens with
  | (.ok token, tokens) => .ok token { p with tokens }
  | (.error e, tokens) => .error e { p with tokens }

/-- Hands back a token. -/
def pushBack (token : Token) : Parse τ Unit :=
  modify fun p => { p with tokens := TokenStream.pushBack token p.tokens }

/-- The kind of the next token, which is handed back. -/
def peekKind : Parse τ TokenKind := do
  let token ← next .expression
  pushBack token
  return token.kind

/-- Notes an attempt at reading a statement, unless there have been too many here. -/
def attempt : Parse τ Unit := do
  let p ← get
  let position := TokenStream.position p.tokens
  if Parser.stalledAt position p.attempts then
    failHere .stalled
  else
    set { p with attempts := position :: p.attempts }

/-- Reads tokens until one is no newline. -/
def skipNewlinesWithin (context : TokenContext) : (budget : Nat) → Parse τ Token
  | 0 => failHere .stalled
  | budget + 1 => do
    let token ← next context
    if token.kind = .newline then skipNewlinesWithin context budget else return token

/-- Reads the next token that is no newline. -/
def skipNewlines (context : TokenContext) : Parse τ Token := do
  skipNewlinesWithin context (← get).budget

/-- Reads the symbol that belongs at a place. -/
def expect (place : Place) : Parse τ Token := do
  let token ← next .expression
  if token.kind = place.kind then return token
  else fail token.span (.symbolExpected place token.found)

end Parse

/-! ## What the steps do -/

namespace Parse

section

variable {τ α β : Type} {p p' : Parser τ}

/-- Two steps succeed when the first does and the second does from there. -/
theorem bind_eq_ok {x : Parse τ α} {f : α → Parse τ β} {b : β} :
    (x >>= f) p = .ok b p' ↔ ∃ a p₁, x p = .ok a p₁ ∧ f a p₁ = .ok b p' := by
  simp only [bind, EStateM.bind]
  cases x p with
  | ok a p₁ => exact ⟨fun h => ⟨a, p₁, rfl, h⟩, by rintro ⟨_, _, ⟨⟩, h⟩; exact h⟩
  | error e p₁ => simp

/-- What a step yields, if it succeeds. -/
def value? (x : Parse τ α) (p : Parser τ) : Option α :=
  match x p with
  | .ok a _ => some a
  | .error _ _ => none

theorem value?_eq_some {x : Parse τ α} {a : α} : x.value? p = some a ↔ ∃ p', x p = .ok a p' := by
  unfold value?
  cases x p <;> simp

theorem bind_of_ok {x : Parse τ α} {a : α} {p₁ : Parser τ} (h : x p = .ok a p₁)
    (f : α → Parse τ β) : (x >>= f) p = f a p₁ := by
  simp only [bind, EStateM.bind, h]

theorem bind_of_error {x : Parse τ α} {e : ScriptError} {p₁ : Parser τ} (h : x p = .error e p₁)
    (f : α → Parse τ β) : (x >>= f) p = .error e p₁ := by
  simp only [bind, EStateM.bind, h]

theorem pure_apply (a : α) (p : Parser τ) : (pure a : Parse τ α) p = .ok a p := rfl

theorem pure_eq_ok {a b : α} : (pure a : Parse τ α) p = .ok b p' ↔ a = b ∧ p = p' := by
  simp [pure, EStateM.pure]

theorem get_bind_apply (f : Parser τ → Parse τ β) : (get >>= f) p = f p p := rfl

theorem set_apply (p p' : Parser τ) : (set p' : Parse τ PUnit) p = .ok ⟨⟩ p' := rfl

theorem fail_apply (span : Span) (fault : GrammarFault) :
    (fail span fault : Parse τ α) p = .error ⟨.grammar fault, span⟩ p := rfl

end

variable {τ : Type} [TokenStream τ] {α : Type} {p p' : Parser τ}

theorem failHere_apply (fault : GrammarFault) :
    (failHere fault : Parse τ α) p =
      .error ⟨.grammar fault,
        .single (TokenStream.position p.tokens) (TokenStream.line p.tokens)⟩ p := rfl

theorem pushBack_apply (token : Token) :
    (pushBack token : Parse τ Unit) p =
      .ok () { p with tokens := TokenStream.pushBack token p.tokens } := rfl

theorem next_eq_ok {context : TokenContext} {t : Token} :
    next context p = .ok t p' ↔
      ∃ s, TokenStream.next context p.tokens = (.ok t, s) ∧ p' = { p with tokens := s } := by
  unfold next
  rcases TokenStream.next context p.tokens with ⟨_ | t', s⟩
  · simp
  · constructor
    · rintro ⟨⟩
      exact ⟨s, rfl, rfl⟩
    · rintro ⟨_, ⟨⟩, rfl⟩
      rfl

theorem next_eq_error {context : TokenContext} {e : ScriptError} :
    next context p = .error e p' ↔
      ∃ s, TokenStream.next context p.tokens = (.error e, s) ∧ p' = { p with tokens := s } := by
  unfold next
  rcases TokenStream.next context p.tokens with ⟨_ | t', s⟩
  · constructor
    · rintro ⟨⟩
      exact ⟨s, rfl, rfl⟩
    · rintro ⟨_, ⟨⟩, rfl⟩
      rfl
  · simp

theorem attempt_eq_ok {u : Unit} :
    attempt p = .ok u p' ↔
      Parser.stalledAt (TokenStream.position p.tokens) p.attempts = false ∧
        p' = { p with attempts := TokenStream.position p.tokens :: p.attempts } := by
  unfold attempt
  rw [get_bind_apply]
  cases Parser.stalledAt (TokenStream.position p.tokens) p.attempts <;>
    simp [failHere_apply, set_apply, eq_comm]

/-- The next token was read and handed back. -/
theorem peekKind_eq_ok {kind : TokenKind} :
    peekKind p = .ok kind p' ↔
      ∃ t s, TokenStream.next .expression p.tokens = (.ok t, s) ∧ kind = t.kind ∧
        p' = { p with tokens := TokenStream.pushBack t s } := by
  unfold peekKind
  simp only [bind_eq_ok, next_eq_ok, pushBack_apply, pure_eq_ok]
  constructor
  · rintro ⟨t, _, ⟨s, read, rfl⟩, _, _, ⟨⟩, rfl, rfl⟩
    exact ⟨t, s, read, rfl, rfl⟩
  · rintro ⟨t, s, read, rfl, rfl⟩
    exact ⟨t, _, ⟨s, read, rfl⟩, _, _, rfl, rfl, rfl⟩

theorem expect_eq_ok {place : Place} {t : Token} :
    expect place p = .ok t p' ↔
      t.kind = place.kind ∧
        ∃ s, TokenStream.next .expression p.tokens = (.ok t, s) ∧ p' = { p with tokens := s } := by
  unfold expect
  simp only [bind_eq_ok, next_eq_ok]
  constructor
  · rintro ⟨t', _, ⟨s, read, rfl⟩, h⟩
    split at h
    · next kind =>
      obtain ⟨rfl, rfl⟩ := pure_eq_ok.1 h
      exact ⟨kind, s, read, rfl⟩
    · simp [fail_apply] at h
  · rintro ⟨kind, s, read, rfl⟩
    exact ⟨t, _, ⟨s, read, rfl⟩, by simp [kind, pure_eq_ok]⟩

end Parse
end ScriptEngine
