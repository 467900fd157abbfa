import ScriptEngine.Console.Prompt

/-!
# The command line

The command line names at most one script to run, and may ask for the prompt, which also comes up
when no script is named.  Options may be written in clusters behind one dash, and what follows `--`
is no option.
-/

namespace ScriptEngine

/-- What a command line asks for. -/
structure Options where
  file : Option String := none
  interactive : Bool := false
deriving DecidableEq, Repr, Inhabited

/-- The prompt comes up if it is asked for, or if there is nothing else to do. -/
def Options.prompts (o : Options) : Bool :=
  o.interactive || o.file.isNone

inductive CommandLine
  | run (options : Options)
  | version
  | help
  /-- The arguments make no sense. -/
  | refused
deriving DecidableEq, Repr, Inhabited

namespace CommandLine

/-- Takes an argument that is no option. -/
def positional (path : String) (o : Options) : Except CommandLine Options :=
  match o.file with
  | none => .ok { o with file := some path }
  | some _ => .error .refused

/-- Takes the request for the prompt, which may be made once. -/
def interactive (o : Options) : Except CommandLine Options :=
  if o.interactive then .error .refused else .ok { o with interactive := true }

/-- Takes options that are single letters. -/
def letters : List Char → Options → Except CommandLine Options
  | [], o => .ok o
  | 'i' :: rest, o => do letters rest (← interactive o)
  | 'V' :: _, _ => .error .version
  | 'h' :: _, _ => .error .help
  | _ :: _, _ => .error .refused

/-- Takes one argument in front of any `--`. -/
def argument (arg : String) (o : Options) : Except CommandLine Options :=
  match arg with
  | "--interactive" => interactive o
  | "--version" => .error .version
  | "--help" => .error .help
  | "-" => positional arg o
  | _ =>
    match arg.toList with
    | '-' :: '-' :: _ => .error .refused
    | '-' :: rest => letters rest o
    | _ => positional arg o

/-- Takes all arguments in order. -/
def arguments : List String → Options → Except CommandLine Options
  | [], o => .ok o
  | "--" :: rest, o => rest.foldlM (fun o path => positional path o) o
  | arg :: rest, o => do arguments rest (← argument arg o)

/-- What the arguments of the program ask for. -/
def ofArgs (args : List String) : CommandLine :=
  match arguments args {} with
  | .ok o => .run o
  | .error other => other

/-- What `--version` writes. -/
def versionText : String :=
  programName ++ " " ++ programVersion ++ "\n"

def usageLine : String :=
  "Usage: " ++ programName ++ " [OPTIONS] [FILE]\n"

/-- What `--help` writes. -/
def helpText : String :=
  "Runs scripts on the embeddable ejs engine\n\n" ++ usageLine ++
    "\nArguments:\n  [FILE]  The script file to execute\n" ++
    "\nOptions:\n  -i, --interactive  Start in interactive REPL mode\n" ++
    "  -h, --help         Print help\n  -V, --version      Print version\n"

/-! ## Running a file -/

/-- What is found under a path. -/
inductive Found
  | missing
  | unreadable (reason : String)
  | bytes (content : List UInt8)
deriving DecidableEq, Repr, Inhabited

/-- Why a directory cannot be read as a script. -/
def directoryReason : String := "Is a directory (os error 21)"

/-- Runs what was found under a path: the exit code, and what was written. -/
def runFound (fuel : Nat) (path : String) (found : Found) : Option (Nat × Transcript) :=
  let unreadable (reason : String) : Option (Nat × Transcript) :=
    let message := "Error reading file '" ++ path ++ "': " ++ reason ++ "\n"
    some (1, { notices := [.message message] })
  match found with
  | .missing => some (1, { notices := [.message ("Error: File '" ++ path ++ "' not found\n")] })
  | .unreadable reason => unreadable reason
  | .bytes content =>
    match Prompt.decode content with
    | none => unreadable "stream did not contain valid UTF-8"
    | some script =>
      match runScript fuel (some path) script with
      | none => none
      | some (.error _, written) => some (1, written)
      | some (.ok value, written) =>
        some (0, if value.isEmpty then written else written.print (value ++ "\n"))

end CommandLine

/-- What running the program leaves behind. -/
inductive Exit
  | refused
  | code (value : Nat) (written : Transcript)
deriving DecidableEq, Repr, Inhabited

namespace CommandLine

/-- Runs a command line, given what is found under each path and what the standard input holds. -/
def execute (fuel : Nat) (find : String → Found) (input : List UInt8) :
    CommandLine → Option Exit
  | .refused => some .refused
  | .version => some (.code 0 { output := versionText })
  | .help => some (.code 0 { output := helpText })
  | .run o => do
    let (code, written) ← match o.file with
      | none => some (0, {})
      | some path => runFound fuel path (find path)
    if o.prompts then
      let (more, _) ← Prompt.run fuel input
      return .code code (written.append more)
    else
      return .code code written

end CommandLine
end ScriptEngine
