import ScriptEngine.Evaluation
import ScriptEngine.Native.Probe

/-!
# Sessions

A session is a registry of engines together with the tables that were given labels and the notebook
that the probes of all engines share.  What one step of a session logs and prints is taken out of it
before the next.
-/

namespace ScriptEngine

variable {ν σ : Type}

/-! ## Steps on one engine -/

namespace Machine

/-- Makes natives known under their names. -/
def install (name : ν → String) (natives : List ν) (m : Machine ν σ) : Machine ν σ :=
  natives.foldl (fun m native => m.register (name native) native) m

/-- Carries out statements one after the other outside of any evaluation, each whatever became of
the ones before. -/
def walk (i : Interpreter ν σ) (exec : Bool) :
    List Stmt → Machine ν σ → Option (List (Except ScriptError Flow) × Machine ν σ)
  | [], m => some ([], m)
  | s :: rest, m =>
    match s.run i exec m with
    | none => none
    | some (outcome, m) =>
      match walk i exec rest m with
      | none => none
      | some (outcomes, m) => some (outcome :: outcomes, m)

/-- Reads a script and walks over its statements `times` times, outside of any evaluation. -/
def walkScript (i : Interpreter ν σ) (exec : Bool) (times : Nat) (script : String)
    (m : Machine ν σ) :
    Option (Except ScriptError (List (Except ScriptError Flow)) × Machine ν σ) :=
  let parsed := Script.ofText script
  match parsed.error with
  | some e => some (.error e, m)
  | none =>
    let statements := (List.replicate times (parsed.statements.map (·.1))).flatten
    match walk i exec statements m with
    | none => none
    | some (outcomes, m) => some (.ok outcomes, m)

/-- The values of an expression, taken `times` times in a row. -/
def evalTimes (i : Interpreter ν σ) (exec : Bool) (e : Expr) :
    (times : Nat) → Machine ν σ → Option (List (Except ScriptError String) × Machine ν σ)
  | 0, m => some ([], m)
  | times + 1, m =>
    match e.eval i exec m with
    | none => none
    | some (outcome, m) =>
      match evalTimes i exec e times m with
      | none => none
      | some (outcomes, m) => some (outcome :: outcomes, m)

/-- Reads one expression and walks over it `times` times, outside of any evaluation. -/
def walkExpression (i : Interpreter ν σ) (exec : Bool) (times : Nat) (script : String)
    (m : Machine ν σ) :
    Option (Except ScriptError (List (Except ScriptError String)) × Machine ν σ) :=
  match Parse.expression nestingLimit (Parser.ofStream (Lexer.ofScript script)) with
  | .error e _ => some (.error e, m)
  | .ok e _ =>
    match evalTimes i exec e times m with
    | none => none
    | some (outcomes, m) => some (.ok outcomes, m)

/-- Opens a block by hand, so that its number is known to the session. -/
def openNotedBlock (m : Machine ν Notebook) : Nat × Machine ν Notebook :=
  let (id, m) := m.openBlock
  (id, { m with world := { m.world with host := m.world.host.noteBlock id } })

end Machine

/-! ## Sessions -/

structure Session where
  world : World SessionNative Notebook := { host := {} }
  variableLabels : Std.ExtTreeMap String (Ref VariableTable) := ∅
  functionLabels : Std.ExtTreeMap String (Ref (FunctionTable SessionNative)) := ∅

namespace Session

/-- How trees are carried out in a session. -/
def interpreter (fuel : Nat) : Interpreter SessionNative Notebook :=
  .ofHost SessionNative.host fuel

/-- An engine with every native, in a world of its own. -/
def lone : Machine SessionNative Notebook :=
  let (engine, world) := World.newEngine { host := {} }
  Machine.install SessionNative.name SessionNative.all ⟨engine, world⟩

/-- Opens an engine without natives; returns its handle. -/
def openEngine (s : Session) : Nat × Session :=
  let (handle, world) := s.world.openEngine
  (handle, { s with world })

/-- Opens an engine with every native. -/
def openFull (s : Session) : Session :=
  let (engine, world) := s.world.newEngine
  let ⟨engine, world⟩ := Machine.install SessionNative.name SessionNative.all ⟨engine, world⟩
  { s with world := { world with registry := (world.registry.add engine).2 } }

/-- Opens an engine on tables that have labels; returns its handle. -/
def openOn (globals : Ref VariableTable) (functions : Ref (FunctionTable SessionNative))
    (s : Session) : Nat × Session :=
  let (handle, world) := s.world.openEngineOn globals functions
  (handle, { s with world })

/-- A session with `engines` engines, which know no natives if the session is `bare`. -/
def start (engines : Nat) (bare : Bool) : Session :=
  Nat.repeat (fun s => if bare then s.openEngine.2 else s.openFull) engines {}

/-- Closes the engine of a handle. -/
def close (handle : Nat) (s : Session) : Except EngineError Session :=
  match s.world.closeEngine handle with
  | .ok world => .ok { s with world }
  | .error e => .error e

/-- Evaluates a script on the engine of a handle. -/
def evaluateOn (fuel : Nat) (handle : Nat) (script : String) (s : Session) :
    Option (Except EngineError String × Session) :=
  match evaluateOnWith (evaluate SessionNative.host fuel) handle script s.world with
  | none => none
  | some (outcome, world) => some (outcome, { s with world })

/-- Lets the engine of a handle run `act`. -/
def onEngine {α : Type} (handle : Nat)
    (act : Machine SessionNative Notebook → Option (α × Machine SessionNative Notebook))
    (s : Session) : Option (Except EngineError α × Session) :=
  match s.world.onEngine handle act with
  | none => none
  | some (outcome, world) => some (outcome, { s with world })

/-! ### Tables with labels -/

/-- Adds an empty variable table under a label. -/
def newVariables (label : String) (s : Session) : Session :=
  let (ref, variableTables) := s.world.variableTables.add ∅
  { s with
    world := { s.world with variableTables }
    variableLabels := s.variableLabels.insert label ref }

/-- Adds an empty function table under a label. -/
def newFunctions (label : String) (s : Session) : Session :=
  let (ref, functionTables) := s.world.functionTables.add ∅
  { s with
    world := { s.world with functionTables }
    functionLabels := s.functionLabels.insert label ref }

/-- Gives the tables of an engine labels. -/
def label (globals functions : String) (e : Engine SessionNative) (s : Session) : Session :=
  { s with
    variableLabels := s.variableLabels.insert globals e.globals
    functionLabels := s.functionLabels.insert functions e.functions }

def variableTable (ref : Ref VariableTable) (s : Session) : VariableTable :=
  s.world.variableTables.get ref

def setVariableTable (ref : Ref VariableTable) (table : VariableTable) (s : Session) : Session :=
  { s with world := { s.world with
      variableTables := s.world.variableTables.set ref table } }

def functionTable (ref : Ref (FunctionTable SessionNative)) (s : Session) :
    FunctionTable SessionNative :=
  s.world.functionTables.get ref

def setFunctionTable (ref : Ref (FunctionTable SessionNative))
    (table : FunctionTable SessionNative) (s : Session) : Session :=
  { s with world := { s.world with
      functionTables := s.world.functionTables.set ref table } }

/-- What a function table looks like to a host: its names in order. -/
def describeFunctions (table : FunctionTable SessionNative) : String :=
  "FunctionTable \x7b functions: " ++ Quoted.encodeList .listing table.keys ++ " \x7d"

/-! ### What a step leaves behind -/

/-- What has been logged and printed, in order. -/
def traces (w : World ν Notebook) : List String × String :=
  (w.host.log.reverse, w.output)

/-- The session without what has been logged and printed. -/
def clearTraces (s : Session) : Session :=
  { s with world := { s.world with host := { s.world.host with log := [] }, output := "" } }

end Session
end ScriptEngine
