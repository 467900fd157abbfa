import ScriptEngine.Console.Transcript
import ScriptEngine.Text.Blank

/-!
# The prompt

At the prompt each line is a script of its own, and one engine carries them all out, so what one
line declares the next can use.  The prompt ends at `exit` or `quit`, at the end of the input, or at
a line that is no text.
-/

namespace ScriptEngine

/-- The name of the program and its version. -/
def programName : String := "ejs"

def programVersion : String := "0.1.0"

namespace Prompt

/-- What is written when the prompt starts. -/
def banner : String :=
  programName ++ " v" ++ programVersion ++ "\nType 'exit' or press Ctrl+D to quit\n\n"

def sign : String := "> "

/-- What is written when the input has ended. -/
def farewell : String := "\n"

/-- The lines of an input, each with its line feed. -/
def linesFrom (before : List UInt8) : List UInt8 → List (List UInt8)
  | [] => if before.isEmpty then [] else [before.reverse]
  | b :: rest =>
    if b = 10 then (b :: before).reverse :: linesFrom [] rest
    else linesFrom (b :: before) rest

def lines (input : List UInt8) : List (List UInt8) :=
  linesFrom [] input

/-- The text that some bytes encode. -/
def decode (bytes : List UInt8) : Option String :=
  String.fromUTF8? ⟨bytes.toArray⟩

/-- Whether the prompt goes on after a line. -/
inductive Reaction
  | goOn
  | stop
deriving DecidableEq, Repr, Inhabited

/-- Carries out a line, if it is one. -/
def react (fuel : Nat) (line : Option String) (m : ConsoleMachine) :
    Option (Reaction × Transcript × ConsoleMachine) :=
  match line with
  | none =>
    let message := "Error reading input: stream did not contain valid UTF-8\n"
    some (.stop, { notices := [.message message] }, m)
  | some text =>
    let script := Blank.trim text
    if script.isEmpty then some (.goOn, {}, m)
    else if script = "exit" ∨ script = "quit" then some (.stop, { output := "Goodbye!\n" }, m)
    else
      match m.evaluate fuel none script with
      | none => none
      | some (.error _, written, m) => some (.goOn, written, m)
      | some (.ok value, written, m) =>
        some (.goOn, if value.isEmpty then written else written.print (value ++ "\n"), m)

/-- Carries out lines until one stops the prompt or there are no more.  Returns what was written,
and how many bytes were left unread. -/
def reactAll (fuel : Nat) (written : Transcript) :
    List (List UInt8) → ConsoleMachine → Option (Transcript × Nat)
  | [], _ => some ((written.print sign).print farewell, 0)
  | line :: rest, m =>
    match react fuel (decode line) m with
    | none => none
    | some (.stop, more, _) => some ((written.print sign).append more, rest.flatten.length)
    | some (.goOn, more, m) => reactAll fuel ((written.print sign).append more) rest m

/-- Runs the prompt on an input. -/
def run (fuel : Nat) (input : List UInt8) : Option (Transcript × Nat) :=
  reactAll fuel { output := banner } (lines input) .start

end Prompt
end ScriptEngine
