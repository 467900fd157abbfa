/-!
# Digit strings

A text counts as a number when all of its characters are decimal digits.  Its number is then kept
in 64 bits: a digit string of any length is read, and what does not fit wraps around.

`toInt64_eq` says that wrapping digit by digit is the same as wrapping the whole number once.
-/

namespace ScriptEngine
namespace Digits

/-- All characters are decimal digits.  The empty text counts, so a missing operand is a number. -/
def isNumeric (text : String) : Bool :=
  text.toList.all Char.isDigit

/-- The value of a decimal digit. -/
def digitValue (c : Char) : Nat :=
  c.toNat - '0'.toNat

/-- The natural number that a list of digits denotes; no digits denote 0. -/
def value (digits : List Char) : Nat :=
  digits.foldl (fun n c => n * 10 + digitValue c) 0

/-- The 64-bit integer that a list of digits denotes, wrapped after every digit. -/
def toInt64 (digits : List Char) : Int64 :=
  digits.foldl (fun n c => n * 10 + Int64.ofNat (digitValue c)) 0

/-- The 64-bit integer that a digit string denotes. -/
def ofText (text : String) : Int64 :=
  toInt64 text.toList

theorem foldl_toInt64 (digits : List Char) (n : Nat) :
    digits.foldl (fun n c => n * 10 + Int64.ofNat (digitValue c)) (Int64.ofNat n) =
      Int64.ofNat (digits.foldl (fun n c => n * 10 + digitValue c) n) := by
  induction digits generalizing n with
  | nil => rfl
  | cons c rest ih =>
    have step : Int64.ofNat n * 10 + Int64.ofNat (digitValue c) =
        Int64.ofNat (n * 10 + digitValue c) := by
      rw [Int64.ofNat_add, Int64.ofNat_mul]
      rfl
    simp only [List.foldl_cons, step, ih]

/-- Wrapping after every digit and wrapping once at the end agree. -/
theorem toInt64_eq (digits : List Char) : toInt64 digits = Int64.ofNat (value digits) :=
  foldl_toInt64 digits 0

/-- The decimal text of a 64-bit integer, with a minus sign in front of a negative one. -/
def render (n : Int64) : String :=
  let magnitude := String.ofList (Nat.toDigits 10 n.toInt.natAbs)
  if n.toInt < 0 then "-" ++ magnitude else magnitude

end Digits
end ScriptEngine
