import ScriptEngine.Text.Printable

/-!
# Quoted texts

A text is written between double quotes with some of its characters escaped.  Which ones, and how,
is a matter of style: `Quoted.Style.json` is the style of JSON, and `Quoted.Style.listing` shows
every character that would otherwise not be seen.
-/

namespace ScriptEngine
namespace Quoted

/-- How characters are escaped. -/
structure Style where
  /-- The letter behind the backslash, for characters that have one. -/
  letter : Char → Option Char
  /-- A character without a letter that is still not written as it is. -/
  hidden : Char → Bool
  /-- What stands behind `\u` for a code point. -/
  code : Nat → String

/-- A character as it stands between the quotes. -/
def encodeChar (style : Style) (c : Char) : String :=
  match style.letter c with
  | some letter => "\\" ++ letter.toString
  | none => if style.hidden c then "\\u" ++ style.code c.toNat else c.toString

/-- A text with its quotes. -/
def encode (style : Style) (text : String) : String :=
  "\"" ++ String.join (text.toList.map (encodeChar style)) ++ "\""

/-- The hexadecimal digits of a number, in lower case. -/
def hex (n : Nat) : String :=
  String.ofList (Nat.toDigits 16 n)

/-- Quotes, backslashes and control characters are escaped, the latter by four digits unless they
have a letter. -/
def Style.json : Style where
  letter
    | '"' => some '"'
    | '\\' => some '\\'
    | '\x08' => some 'b'
    | '\x0c' => some 'f'
    | '\n' => some 'n'
    | '\r' => some 'r'
    | '\t' => some 't'
    | _ => none
  hidden c := c.toNat < 32
  code n := String.ofList (List.replicate (4 - (hex n).length) '0') ++ hex n

/-- Quotes, backslashes and line ends are escaped by a letter, and what cannot be shown by itself by
its code point. -/
def Style.listing : Style where
  letter
    | '"' => some '"'
    | '\\' => some '\\'
    | '\x00' => some '0'
    | '\n' => some 'n'
    | '\r' => some 'r'
    | '\t' => some 't'
    | _ => none
  hidden c := !Printable.isPrintable c
  code n := "\x7b" ++ hex n ++ "\x7d"

/-- Texts between brackets, each in its quotes. -/
def encodeList (style : Style) (texts : List String) : String :=
  "[" ++ ", ".intercalate (texts.map (encode style)) ++ "]"

end Quoted
end ScriptEngine
