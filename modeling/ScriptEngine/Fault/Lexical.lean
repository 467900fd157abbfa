/-!
# Lexical faults

Why a script cannot be read as tokens.
-/

namespace ScriptEngine

inductive LexicalFault
  /-- A single `|`. -/
  | loneBar
  /-- A single `&`. -/
  | loneAmpersand
  | unterminatedComment
  | unmatchedQuote
  | unknownEscape (letter : Char)
  /-- An escape names a number that is not a character. -/
  | invalidCodePoint (code : Nat)
  | invalidName (name : String)
deriving DecidableEq, Repr, Inhabited

namespace LexicalFault

def message : LexicalFault → String
  | loneBar => "Expected '||'"
  | loneAmpersand => "Expected '&&'"
  | unterminatedComment => "Unterminated comment"
  | unmatchedQuote => "Unmatched quote"
  | unknownEscape letter => "Invalid escape sequence '\\" ++ letter.toString ++ "'"
  | invalidCodePoint code =>
    "Invalid escape sequence: code point 0x" ++ String.ofList (Nat.toDigits 16 code)
  | invalidName name => "Invalid identifier " ++ name

end LexicalFault
end ScriptEngine
