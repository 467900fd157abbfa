import Mathlib.Tactic.Lemma
import ScriptEngine.Token

/-!
# Words

A word is a token without its place: its kind, and what it says.  Most kinds are written in one way
only (`TokenKind.spelling?`); for these the word is that spelling, whatever the token's lexeme.  A
token is `Spelled` if its lexeme is the spelling of its kind.
-/

namespace ScriptEngine

/-- How a token of this kind is written, if there is only one way. -/
def TokenKind.spelling? : TokenKind → Option String
  | leftParen => some "("
  | rightParen => some ")"
  | leftBrace => some "\x7b"
  | rightBrace => some "\x7d"
  | comma => some ","
  | semicolon => some ";"
  | newline => some "\n"
  | assign => some "="
  | operator op => some op.symbol
  | keyword word => some word.spelling
  | endOfInput => some ""
  | name | callName | literal => none

/-- A token without its place: its kind, and what it says. -/
structure Word where
  kind : TokenKind
  text : String
deriving DecidableEq, Repr

/-- The word of a kind that is written in one way only. -/
def Word.symbol (kind : TokenKind) : Word :=
  ⟨kind, kind.spelling?.getD ""⟩

namespace Token

/-- The word that a token is.  For a kind that is written in one way the lexeme says nothing. -/
def word (t : Token) : Word :=
  ⟨t.kind, t.kind.spelling?.getD t.lexeme⟩

/-- The lexeme is how the token's kind is written. -/
def Spelled (t : Token) : Prop :=
  ∀ text, t.kind.spelling? = some text → t.lexeme = text

@[simp] lemma kind_word (t : Token) : t.word.kind = t.kind := rfl

lemma word_of_spelled {t : Token} (h : t.Spelled) : t.word = ⟨t.kind, t.lexeme⟩ := by
  unfold word
  cases spelling : t.kind.spelling? with
  | none => rfl
  | some text => rw [h text spelling]; rfl

lemma word_eq_symbol {t : Token} {kind : TokenKind} (h : t.kind = kind)
    (spelling : kind.spelling?.isSome) : t.word = .symbol kind := by
  obtain ⟨text, h'⟩ := Option.isSome_iff_exists.1 spelling
  simp [word, Word.symbol, h, h']

lemma word_eq_text {t : Token} {kind : TokenKind} (h : t.kind = kind)
    (spelling : kind.spelling? = none) : t.word = ⟨kind, t.lexeme⟩ := by
  simp [word, h, spelling]

lemma kind_of_word {t : Token} {word : Word} (h : t.word = word) : t.kind = word.kind := by
  rw [← h, kind_word]

lemma lexeme_of_word {t : Token} {kind : TokenKind} {text : String} (h : t.word = ⟨kind, text⟩)
    (spelling : kind.spelling? = none) : t.lexeme = text := by
  rw [word_eq_text (kind_of_word h) spelling] at h
  exact congrArg Word.text h

end Token
end ScriptEngine
