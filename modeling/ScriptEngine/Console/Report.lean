import ScriptEngine.Fault

/-!
# Error reports

What the console tells about a script error: a coloured header, the place of the error and a help
text.  For the place, and for nothing else, lines end at every character that Unicode takes for a
line break, and a line break at the end of the script starts no new line.
-/

namespace ScriptEngine

/-- Where an error is, for a reader. -/
structure Location where
  file : String
  line : Nat
  column : Nat
deriving DecidableEq, Repr, Inhabited

namespace Location

def text (l : Location) : String :=
  l.file ++ ":" ++ toString l.line ++ ":" ++ toString l.column

/-- A character that ends a line of a report. -/
def isBreak (c : Char) : Bool :=
  c == '\n' || c == '\x0b' || c == '\x0c' || c == '\r' || c == '\u0085' || c == '\u2028' ||
    c == '\u2029'

/-- The line and column that lie `distance` characters ahead of a place on line `line`, column
`column`.  A carriage return in front of a line feed does not end the line by itself. -/
def ahead (line column : Nat) : (distance : Nat) → List Char → Nat × Nat
  | 0, _ => (line, column)
  | _ + 1, [] => (line, column)
  | distance + 1, c :: rest =>
    if isBreak c && !rest.isEmpty && !(c == '\r' && rest.head? == some '\n') then
      ahead (line + 1) 1 distance rest
    else
      ahead line (column + 1) distance rest

/-- The line and column of a position in a script. -/
def ofPosition (position : Nat) (script : List Char) : Nat × Nat :=
  ahead 1 1 position script

end Location

inductive Colour
  | red
  | yellow
  | magenta
deriving DecidableEq, Repr, Inhabited

namespace Colour

def name : Colour → String
  | red => "red"
  | yellow => "yellow"
  | magenta => "magenta"

/-- The escape sequence that switches a terminal to the colour. -/
def escape : Colour → String
  | red => "\x1b[31m"
  | yellow => "\x1b[33m"
  | magenta => "\x1b[35m"

end Colour

namespace Phase

/-- How a report names the errors of a phase. -/
def title : Phase → String
  | lexical => "Lexical Error"
  | grammar => "Syntax Error"
  | runtime => "Runtime Error"

def colour : Phase → Colour
  | lexical => .red
  | grammar => .yellow
  | runtime => .magenta

end Phase

structure Report where
  header : String
  colour : Colour
  /-- The place of the error, unless the script has no such place. -/
  location : Option Location
  help : Option String
deriving DecidableEq, Repr, Inhabited

/-- The file name in reports on scripts that are in no file. -/
def promptName : String := "<repl>"

namespace ScriptError

/-- The place of an error in `script` can be shown.  At least one character is marked there, and
marks may reach one character beyond the end of the script, where its end itself is marked. -/
def isPlaced (script : List Char) (e : ScriptError) : Bool :=
  !script.isEmpty && max e.span.stop (e.span.start + 1) ≤ script.length + 1

/-- The report of an error in `script`.  Neither place nor help text is given when the place cannot
be shown. -/
def report (script : String) (file : Option String) (e : ScriptError) : Report :=
  let chars := script.toList
  let placed := e.isPlaced chars
  let (line, column) := Location.ofPosition e.span.start chars
  { header := e.fault.phase.title ++ ": " ++ e.message
    colour := e.fault.phase.colour
    location := if placed then some ⟨file.getD promptName, line, column⟩ else none
    help := if placed then e.help else none }

end ScriptError

namespace Report

/-- The report as text for a terminal. -/
def text (r : Report) : String :=
  let place := match r.location with
    | some l => "  at " ++ l.text ++ "\n"
    | none => ""
  let help := match r.help with
    | some help => "  help: " ++ help ++ "\n"
    | none => ""
  r.colour.escape ++ "Error" ++ "\x1b[0m" ++ ": " ++ r.header ++ "\n" ++ place ++ help

end Report
end ScriptEngine
