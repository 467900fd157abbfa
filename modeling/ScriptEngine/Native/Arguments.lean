import ScriptEngine.Integer.Digits

/-!
# Typed arguments

A native receives its arguments as texts.  This module reads them by type: as a text, as an
integer, or several at once by a format of `%s` and `%d` specs.
-/

namespace ScriptEngine

/-- Why arguments could not be read. -/
inductive ArgumentFault
  | count (expected actual : Nat)
  /-- There is no argument of this number; arguments are numbered from 1 here. -/
  | missing (number : Nat)
  | unsupportedSpec (spec : Char)
  | unfinishedSpec
deriving DecidableEq, Repr, Inhabited

namespace ArgumentFault

def message : ArgumentFault → String
  | count expected actual =>
    "expected " ++ toString expected ++ " argument" ++ (if expected = 1 then "" else "s") ++
      ", got " ++ toString actual
  | missing number => "missing argument " ++ toString number
  | unsupportedSpec spec => "unsupported argument format '%" ++ spec.toString ++ "'"
  | unfinishedSpec => "argument format ends after '%'"

end ArgumentFault

/-- One argument read by a spec of a format. -/
inductive Argument
  | text (value : String)
  | integer (value : Int64)
deriving DecidableEq, Repr, Inhabited

namespace Arguments

/-- Exactly `count` arguments were given. -/
def expectCount (count : Nat) (args : List String) : Except ArgumentFault Unit :=
  if args.length = count then .ok () else .error (.count count args.length)

/-- The argument at `index`, counted from 0. -/
def string (args : List String) (index : Nat) : Except ArgumentFault String :=
  match args[index]? with
  | some text => .ok text
  | none => .error (.missing (index + 1))

/-- The integer at the front of a text: an optional minus sign and the longest run of digits.  The
number wraps at 64 bits, and a text without digits reads as 0. -/
def leadingInteger (text : String) : Int64 :=
  match text.toList with
  | '-' :: rest => -Digits.toInt64 (rest.takeWhile Char.isDigit)
  | chars => Digits.toInt64 (chars.takeWhile Char.isDigit)

/-- The argument at `index` read as an integer. -/
def integer (args : List String) (index : Nat) : Except ArgumentFault Int64 := do
  let text ← string args index
  return leadingInteger text

/-- One argument read by the spec character `spec`. -/
def readSpec (spec : Char) (text : String) : Except ArgumentFault Argument :=
  match spec with
  | 's' => .ok (.text text)
  | 'd' => .ok (.integer (leadingInteger text))
  | other => .error (.unsupportedSpec other)

/-- Reads arguments by a format until the format or the arguments end.  Characters outside of specs
are passed over, and the format is not looked at once every argument is read. -/
def scanChars : List Char → List String → Except ArgumentFault (List Argument)
  | _, [] => .ok []
  | [], _ :: _ => .ok []
  | ['%'], _ :: _ => .error .unfinishedSpec
  | '%' :: spec :: format, text :: rest => do
    let first ← readSpec spec text
    let others ← scanChars format rest
    return first :: others
  | _ :: format, args => scanChars format args

/-- Reads `args` by `format`. -/
def scan (format : String) (args : List String) : Except ArgumentFault (List Argument) :=
  scanChars format.toList args

end Arguments
end ScriptEngine
