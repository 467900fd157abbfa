import ScriptEngine.Proofs.Tree.WellNested

/-!
# Steps that locate their errors

A step of the parser on a lexer that stands in a text either succeeds, with its value and the lexer
in a postcondition, or fails with an error that is located in the text (`Parse.Locates`).  Such
statements are put one behind the other as steps are.

A step lays out what it reads if the outlines of its value make up a row that leads from where the
lexer stood to where it stands afterwards (`Parse.Lays`).  This is what is shown of all the functions
that read expressions and statements.
-/

namespace ScriptEngine
namespace Parse

open Lexer (At Past)
open Outline (Row)

variable {α β : Type}

/-- From a lexer in `pre` the step yields a value and a lexer in `post`, or it fails with an error that
is located in the text. -/
def Locates (text : List Char) (pre : Lexer → Prop) (x : Parse Lexer α) (post : α → Lexer → Prop) :
    Prop :=
  ∀ p, pre p.tokens →
    match x p with
    | .ok a p' => post a p'.tokens
    | .error e _ => e.Located text

/-- The outlines make up a row from the place `p`, `r` to where the lexer here. -/
def LaidOut (text : List Char) (p r : Nat) (outlines : List Outline) (l : Lexer) : Prop :=
  ∃ q s, Row text p r q s outlines ∧ l.At text q s

/-- What the step yields has the outlines of what it reads. -/
def Lays (text : List Char) (x : Parse Lexer α) (outlines : α → List Outline) : Prop :=
  ∀ p r, Locates text (At text p r) x fun a => LaidOut text p r (outlines a)

variable {text : List Char} {pre pre' : Lexer → Prop} {x : Parse Lexer α} {f : α → Parse Lexer β}
  {post post' : α → Lexer → Prop} {post'' : β → Lexer → Prop} {outlines : α → List Outline}
  {t : Token} {span : Span} {fault : GrammarFault} {p r q s : Nat}

namespace Locates

lemma bind (first : Locates text pre x post)
    (rest : ∀ a, Locates text (post a) (f a) post'') : Locates text pre (x >>= f) post'' := by
  intro p holds
  have done := first p holds
  cases run : x p with
  | ok a p₁ =>
    rw [run] at done
    rw [bind_of_ok run]
    exact rest a p₁ done
  | error e p₁ =>
    rw [run] at done
    rw [bind_of_error run]
    exact done

lemma pre_mono (locates : Locates text pre x post) (stronger : ∀ l, pre' l → pre l) :
    Locates text pre' x post :=
  fun p holds => locates p (stronger _ holds)

lemma post_mono (locates : Locates text pre x post) (weaker : ∀ a l, post a l → post' a l) :
    Locates text pre x post' := by
  intro p holds
  have done := locates p holds
  cases run : x p with
  | ok a p' =>
    rw [run] at done
    exact weaker a _ done
  | error e p' =>
    rw [run] at done
    exact done

lemma pure {a : α} (holds : ∀ l, pre l → post a l) : Locates text pre (pure a) post :=
  fun p h => holds p.tokens h

lemma get_bind {f : Parser Lexer → Parse Lexer α}
    (rest : ∀ p, pre p.tokens → Locates text pre (f p) post) :
    Locates text pre (get >>= f) post :=
  fun p holds => rest p holds p holds

lemma fail (located : span.Located text) : Locates text pre (fail span fault) post :=
  fun _ _ => ⟨located.start_le, .inl located.line⟩

lemma failHere : Locates text (At text p r) (failHere fault) post := by
  intro parser here
  obtain ⟨start_le, line⟩ := here.located.here
  exact ⟨start_le, .inl line⟩

/-! ### Tokens -/

lemma next (c : TokenContext) :
    Locates text (At text p r) (next c) fun t l => t.Beyond text p r ∧ l.Past text t := by
  intro parser here
  unfold Parse.next
  rcases read : TokenStream.next c parser.tokens with ⟨e | t, l⟩
  · exact here.next_error read
  · exact here.next read

/-- Facts about the state of which the value is a witness. -/
lemma assume {fact : Prop} (known : ∀ l, pre l → fact) (rest : fact → Locates text pre x post) :
    Locates text pre x post :=
  fun p holds => rest (known _ holds) p holds

lemma next_bind (c : TokenContext) {f : Token → Parse Lexer α}
    (rest : ∀ t, t.Beyond text p r → Locates text (Past text t) (f t) post) :
    Locates text (At text p r) (Parse.next c >>= f) post :=
  (next c).bind fun t => .assume (fun _ h => h.1) fun beyond =>
    (rest t beyond).pre_mono fun _ h => h.2

/-- The token has been read for good. -/
lemma consumed (rest : Locates text (At text t.span.stop t.span.stop) x post) :
    Locates text (Past text t) x post :=
  rest.pre_mono fun _ past => past.onward

/-- The token is handed back. -/
lemma handedBack (rest : Locates text (At text t.span.start t.span.stop) x post) :
    Locates text (Past text t) (do pushBack t; x) post :=
  fun _ past => rest _ past.returned

/-- The token is handed back, and the lexer stands where it stood before. -/
lemma restored (beyond : t.Beyond text p r) (rest : Locates text (At text p r) x post) :
    Locates text (Past text t) (do pushBack t; x) post :=
  .handedBack (rest.pre_mono fun _ here => here.mono beyond.start beyond.stop)

lemma peekKind_bind {f : TokenKind → Parse Lexer α}
    (rest : ∀ kind, Locates text (At text p r) (f kind) post) :
    Locates text (At text p r) (peekKind >>= f) post := by
  have read : Locates text (At text p r) peekKind fun _ => At text p r :=
    next_bind .expression fun t beyond => .restored beyond (.pure fun _ here => here)
  exact read.bind rest

lemma expect_bind (place : Place) {f : Token → Parse Lexer α}
    (rest : ∀ t, t.Beyond text p r →
      Locates text (At text t.span.stop t.span.stop) (f t) post) :
    Locates text (At text p r) (expect place >>= f) post := by
  have read : Locates text (At text p r) (expect place)
      fun t l => t.Beyond text p r ∧ l.At text t.span.stop t.span.stop := by
    refine next_bind .expression fun t beyond => ?_
    split
    · exact .consumed (.pure fun _ here => ⟨beyond, here⟩)
    · exact .fail beyond.located.span
  exact read.bind fun t => .assume (fun _ h => h.1) fun beyond =>
    (rest t beyond).pre_mono fun _ h => h.2

lemma skipNewlinesWithin (c : TokenContext) (budget : Nat) :
    Locates text (At text p r) (skipNewlinesWithin c budget)
      fun t l => t.Beyond text p r ∧ l.Past text t := by
  induction budget generalizing p r with
  | zero => exact failHere
  | succ budget ih =>
    refine next_bind c fun t beyond => ?_
    split
    · refine .consumed (ih.post_mono fun u l h => ⟨?_, h.2⟩)
      exact beyond.trans h.1
    · exact .pure fun _ past => ⟨beyond, past⟩

lemma skipNewlines_bind (c : TokenContext) {f : Token → Parse Lexer α}
    (rest : ∀ t, t.Beyond text p r → Locates text (Past text t) (f t) post) :
    Locates text (At text p r) (skipNewlines c >>= f) post := by
  refine .bind (.get_bind fun parser _ => skipNewlinesWithin c parser.budget) fun t => ?_
  exact .assume (fun _ h => h.1) fun beyond => (rest t beyond).pre_mono fun _ h => h.2

/-- The step is done, and has read a row. -/
lemma done {a : α} (row : Row text p r q s (outlines a)) :
    Locates text (At text q s) (Pure.pure a) fun a => LaidOut text p r (outlines a) :=
  .pure fun _ here => ⟨q, s, row, here⟩

end Locates

lemma Lays.bind (first : Lays text x outlines)
    (rest : ∀ a q s, Row text p r q s (outlines a) → Locates text (At text q s) (f a) post'') :
    Locates text (At text p r) (x >>= f) post'' :=
  (first p r).bind fun a parser ⟨q, s, row, here⟩ => rest a q s row parser here

end Parse
end ScriptEngine
