import ScriptEngine.Console.CommandLine

/-!
# The program

Reads the command line, files and the standard input, and writes what the console says.
-/

namespace ScriptEngine

/-- Writes a transcript. -/
def Transcript.write (t : Transcript) : IO Unit := do
  let out ← IO.getStdout
  out.putStr t.output
  out.flush
  for notice in t.notices do
    IO.eprint notice.text

/-- Looks up a path. -/
def findFile (path : String) : IO CommandLine.Found := do
  try
    let content ← IO.FS.readBinFile path
    return .bytes content.toList
  catch
    | .noFileOrDirectory .. => return .missing
    | e => return .unreadable (toString e)

/-- Reads lines at the prompt until it ends. -/
partial def promptLoop (input : IO.FS.Stream) (m : ConsoleMachine) : IO Unit := do
  Transcript.write { output := Prompt.sign }
  let line ← try some <$> input.getLine catch _ => pure none
  if line = some "" then
    Transcript.write { output := Prompt.farewell }
  else
    match Prompt.react ampleFuel line m with
    | none => return
    | some (.stop, written, _) => written.write
    | some (.goOn, written, m) =>
      written.write
      promptLoop input m

end ScriptEngine

open ScriptEngine in
def main (args : List String) : IO UInt32 := do
  match CommandLine.ofArgs args with
  | .refused =>
    IO.eprint CommandLine.usageLine
    return 2
  | .version =>
    IO.print CommandLine.versionText
    return 0
  | .help =>
    IO.print CommandLine.helpText
    return 0
  | .run options =>
    let mut code := 0
    if let some path := options.file then
      if let some (exit, written) := CommandLine.runFound ampleFuel path (← findFile path) then
        written.write
        code := exit
    if options.prompts then
      IO.print Prompt.banner
      promptLoop (← IO.getStdin) .start
    return code.toUInt32
