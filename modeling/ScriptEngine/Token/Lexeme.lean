import ScriptEngine.Token
import ScriptEngine.Token.Gap
import ScriptEngine.Token.Quotation

/-!
# Lexemes

A lexeme is a token as it stands at the front of a list of characters, before it is known where in
the script that is.  `Lexeme.ofChars` reads the lexeme at the front of characters that no gap
precedes; of the operators that fit it takes the longest.
-/

namespace ScriptEngine

/-- A token at the front of some characters, of which it covers the first `width`.  Reading it takes
`read` characters: behind a name the blanks in front of the next character are read with it. -/
structure Lexeme where
  kind : TokenKind
  text : List Char
  width : Nat
  read : Nat
deriving DecidableEq, Repr, Inhabited

namespace Lexeme

/-- The symbols of one character that are not operators. -/
def punctuation? : Char → Option TokenKind
  | '\n' => some .newline
  | '(' => some .leftParen
  | ')' => some .rightParen
  | '{' => some .leftBrace
  | '}' => some .rightBrace
  | ';' => some .semicolon
  | ',' => some .comma
  | _ => none

/-- Every operator, those of two characters before those of one. -/
def operators : List Operator :=
  Operator.all.filter (·.symbol.length == 2) ++ Operator.all.filter (·.symbol.length == 1)

/-- The longest operator at the front of `chars`. -/
def operator? (chars : List Char) : Option Operator :=
  operators.find? (·.symbol.toList.isPrefixOf chars)

/-- A character that a name may begin with. -/
def isNameStart (c : Char) : Bool :=
  c.isAlpha || c == '$' || c == '_'

/-- A character that a name may go on with. -/
def isNamePart (c : Char) : Bool :=
  c.isAlphanum || c == '$' || c == '_'

/-- A lexeme whose text is the first `width` characters of `chars`. -/
def verbatim (kind : TokenKind) (width : Nat) (chars : List Char) : Lexeme :=
  ⟨kind, chars.take width, width, width⟩

/-- The name at the front of `first :: rest`.  Backslashes in a name are dropped. -/
def name (context : TokenContext) (first : Char) (rest : List Char) : Except Misread Lexeme :=
  let run := rest.takeWhile fun c => c == '\\' || isNamePart c
  let width := run.length + 1
  let text := (first :: run).filter (· != '\\')
  if !text.head?.any isNameStart then
    .error ⟨.invalidName (String.ofList text), 0, width⟩
  else
    match context, Keyword.ofSpelling? (String.ofList text) with
    | .statement, some word => .ok ⟨.keyword word, text, width, width⟩
    | _, _ =>
      let behind := rest.drop run.length
      let blanks := behind.takeWhile Gap.isBlank
      let called := (behind.drop blanks.length).head? == some '('
      .ok ⟨if called then .callName else .name, text, width, width + blanks.length⟩

/-- The lexeme at the front of `chars`, or why there is none. -/
def ofChars (context : TokenContext) (chars : List Char) : Except Misread Lexeme :=
  match chars with
  | [] => .ok (verbatim .endOfInput 0 [])
  | c :: rest =>
    if c = '/' ∧ rest.head? = some '*' then
      .error ⟨.unterminatedComment, 0, chars.length⟩
    else if let some kind := punctuation? c then
      .ok (verbatim kind 1 chars)
    else if c = '"' ∨ c = '\'' then
      match Quotation.decode c rest with
      | .ok (text, width) => .ok ⟨.literal, text, width, width⟩
      | .error misread => .error misread
    else if c.isDigit then
      .ok (verbatim .literal (chars.takeWhile Char.isDigit).length chars)
    else if let some op := operator? chars then
      .ok (verbatim (.operator op) op.symbol.length chars)
    else if c = '=' then
      .ok (verbatim .assign 1 chars)
    else if c = '|' then
      .error ⟨.loneBar, 0, 1⟩
    else if c = '&' then
      .error ⟨.loneAmpersand, 0, 1⟩
    else
      name context c rest

end Lexeme
end ScriptEngine
