import ScriptEngine.Console.Report
import ScriptEngine.Evaluation
import ScriptEngine.Native.Console

/-!
# Running scripts from the console

What a run of the console writes: its output, and notices for the error stream.
-/

namespace ScriptEngine

/-- What is written to the error stream. -/
inductive Notice
  | message (text : String)
  | report (report : Report)
deriving DecidableEq, Repr, Inhabited

namespace Notice

def text : Notice → String
  | message text => text
  | report r => r.text

end Notice

/-- What a run of the console has written. -/
structure Transcript where
  output : String := ""
  notices : List Notice := []
deriving DecidableEq, Repr, Inhabited

namespace Transcript

/-- Writes to the output. -/
def print (text : String) (t : Transcript) : Transcript :=
  { t with output := t.output ++ text }

/-- Writes a notice. -/
def notify (notice : Notice) (t : Transcript) : Transcript :=
  { t with notices := t.notices ++ [notice] }

/-- One transcript after another. -/
def append (first second : Transcript) : Transcript :=
  ⟨first.output ++ second.output, first.notices ++ second.notices⟩

/-- The messages in front of the first report, and all the reports. -/
def errorStream (t : Transcript) : String × List Report :=
  let isMessage : Notice → Bool
    | .message _ => true
    | .report _ => false
  let report? : Notice → Option Report
    | .message _ => none
    | .report r => some r
  (String.join ((t.notices.takeWhile isMessage).map Notice.text), t.notices.filterMap report?)

end Transcript

/-- The machine that the console runs scripts on. -/
abbrev ConsoleMachine := Machine ConsoleNative Unit

namespace ConsoleMachine

/-- A fresh engine with the natives of the console. -/
def start : ConsoleMachine :=
  let (engine, world) := World.newEngine { host := () }
  ConsoleNative.all.foldl (fun m native => m.register native.name native) ⟨engine, world⟩

/-- Evaluates a script; an error is reported.  Returns the value, and what was written. -/
def evaluate (fuel : Nat) (file : Option String) (script : String) (m : ConsoleMachine) :
    Option (Except ScriptError String × Transcript × ConsoleMachine) :=
  match ScriptEngine.evaluate ConsoleNative.host fuel script m with
  | none => none
  | some (outcome, m) =>
    let written : Transcript := { output := m.world.output }
    let written := match outcome with
      | .ok _ => written
      | .error e => written.notify (.report (e.report script file))
    some (outcome, written, { m with world := { m.world with output := "" } })

end ConsoleMachine

/-- Runs a script on a fresh engine: its outcome, and what was written. -/
def runScript (fuel : Nat) (file : Option String) (script : String) :
    Option (Except ScriptError String × Transcript) :=
  match ConsoleMachine.start.evaluate fuel file script with
  | none => none
  | some (outcome, written, _) => some (outcome, written)

end ScriptEngine
