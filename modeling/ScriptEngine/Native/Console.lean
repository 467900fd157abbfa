import ScriptEngine.Native.Arguments
import ScriptEngine.Native.Callback

/-!
# The natives of the console

What scripts that are run from the console can call: `print`, `len` and `repeat`.
-/

namespace ScriptEngine

inductive ConsoleNative
  /-- Prints its arguments on a line, separated by spaces. -/
  | print
  /-- The number of characters of its one argument. -/
  | length
  /-- Its first argument, as many times over as the second one says. -/
  | repeated
deriving DecidableEq, Repr, Inhabited

namespace ConsoleNative

variable {ν σ : Type}

def all : List ConsoleNative :=
  [print, length, repeated]

/-- The name under which scripts call the native. -/
def name : ConsoleNative → String
  | print => "print"
  | length => "len"
  | repeated => "repeat"

/-- `times` copies of a text. -/
def copies (text : String) (times : Nat) : String :=
  if text.isEmpty then "" else Nat.repeat (· ++ text) times ""

/-- Refuses any number of arguments but `count`. -/
def expectCount (native : ConsoleNative) (count : Nat) (args : List String) :
    Callback ν σ Unit :=
  .orFail (fun fault => native.name ++ ": " ++ fault.message) (Arguments.expectCount count args)

/-- What a native of the console does.  It asks for nothing that depends on the host. -/
def call (native : ConsoleNative) (args : List String) : Callback ν σ Unit :=
  match native with
  | print => .request (.print (" ".intercalate args ++ "\n"))
  | length => do
    length.expectCount 1 args
    let text ← .orFail ArgumentFault.message (Arguments.string args 0)
    .setResult (toString text.length)
  | repeated => do
    repeated.expectCount 2 args
    let text ← .orFail ArgumentFault.message (Arguments.string args 0)
    let times ← .orFail ArgumentFault.message (Arguments.integer args 1)
    .setResult (copies text times.toInt.toNat)

/-- The host of the console. -/
def host : Host ConsoleNative Unit :=
  call

end ConsoleNative
end ScriptEngine
