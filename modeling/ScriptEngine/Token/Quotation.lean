import ScriptEngine.Fault.Lexical
import ScriptEngine.Integer.Digits

/-!
# Quoted texts

A quoted text stands between two equal quotes and may hold escapes: a backslash followed by a
letter, by up to three octal digits, by `x` and up to two hexadecimal digits, or by `u` and up to
two times two of them.  `Quotation.decode` finds the end of a quoted text and what it stands for.
-/

namespace ScriptEngine

/-- Where reading a token failed.  Both counts are taken from the start of the token: the fault
concerns the characters from `offset` up to `read`, and `read` characters have been read. -/
structure Misread where
  fault : LexicalFault
  offset : Nat
  read : Nat
deriving DecidableEq, Repr, Inhabited

namespace Quotation

/-- The value of `c` as a digit of a base up to sixteen. -/
def digitIn? (base : Nat) (c : Char) : Option Nat :=
  let digit :=
    if c.isDigit then some (c.toNat - '0'.toNat)
    else if 'a' ≤ c ∧ c ≤ 'f' then some (c.toNat - 'a'.toNat + 10)
    else if 'A' ≤ c ∧ c ≤ 'F' then some (c.toNat - 'A'.toNat + 10)
    else none
  digit.filter (· < base)

/-- The number that the digits at the front of `chars` write, and how many they are.  At most
`most` digits are read, onto a number `value` of which `count` digits have been read. -/
def numberFrom (base value count : Nat) : (most : Nat) → (chars : List Char) → Nat × Nat
  | 0, _ => (value, count)
  | _ + 1, [] => (value, count)
  | most + 1, c :: rest =>
    match digitIn? base c with
    | some digit => numberFrom base (value * base + digit) (count + 1) most rest
    | none => (value, count)

/-- The number that up to `most` digits at the front of `chars` write, and how many they are. -/
def number (base most : Nat) (chars : List Char) : Nat × Nat :=
  numberFrom base 0 0 most chars

/-- What the characters behind a backslash mean. -/
inductive Escape
  /-- A code point, written by the next `length` characters. -/
  | code (value length : Nat)
  | unknown (letter : Char)
  /-- The script ends behind the backslash. -/
  | unfinished
deriving DecidableEq, Repr, Inhabited

/-- Reads the escape whose backslash has just been read.  A decimal digit opens an octal escape even
if it is no octal digit itself; it then writes 0 and is left to be read again. -/
def Escape.ofChars : List Char → Escape
  | [] => .unfinished
  | letter :: rest =>
    match letter with
    | 'n' => .code 10 1
    | 'b' => .code 8 1
    | 'f' => .code 12 1
    | 'r' => .code 13 1
    | 't' => .code 9 1
    | '\'' | '"' | '\\' => .code letter.toNat 1
    | 'x' =>
      let (value, length) := number 16 2 rest
      .code value (length + 1)
    | 'u' =>
      let (high, highLength) := number 16 2 rest
      let (low, lowLength) := number 16 2 (rest.drop highLength)
      .code (high * 256 + low) (highLength + lowLength + 1)
    | _ =>
      if letter.isDigit then
        let (value, length) := number 8 3 (letter :: rest)
        .code value length
      else
        .unknown letter

/-- The character with a code point, if the code point is one. -/
def charOf? (code : Nat) : Option Char :=
  if h : code.isValidChar then some (Char.ofNatAux code h) else none

/-- Reads on in a quoted text of which `read` characters, the opening quote among them, have been
read and stand for `value`, its last character first.  The first `skip` of the characters to come
belong to an escape that is already decoded.  Returns what the text stands for, last character
first, and how many characters it takes with both quotes. -/
def decodeFrom (quote : Char) (skip read : Nat) (value : List Char) :
    List Char → Except Misread (List Char × Nat)
  | [] => .error ⟨.unmatchedQuote, 0, read⟩
  | c :: rest =>
    match skip with
    | skip + 1 => decodeFrom quote skip (read + 1) value rest
    | 0 =>
      if c = quote then .ok (value, read + 1)
      else if c = '\\' then
        match Escape.ofChars rest with
        | .code code length =>
          match charOf? code with
          | some decoded => decodeFrom quote length (read + 1) (decoded :: value) rest
          | none => .error ⟨.invalidCodePoint code, 0, read + 1 + length⟩
        | .unknown letter => .error ⟨.unknownEscape letter, read, read + 2⟩
        | .unfinished => .error ⟨.unmatchedQuote, 0, read + 1⟩
      else
        decodeFrom quote 0 (read + 1) (c :: value) rest

/-- Reads a quoted text whose opening quote has just been read: what it stands for, and how many
characters it takes with both quotes. -/
def decode (quote : Char) (chars : List Char) : Except Misread (List Char × Nat) :=
  match decodeFrom quote 0 1 [] chars with
  | .ok (value, width) => .ok (value.reverse, width)
  | .error misread => .error misread

end Quotation
end ScriptEngine
