import ScriptEngine.Evaluation.Interpreter
import ScriptEngine.Fault.Diagnostic
import ScriptEngine.Tree.Script

/-!
# Evaluating scripts

An evaluation reads a script and carries out its statements in order.  Natives may evaluate further
scripts, on the same engine or on others, to any depth; `evaluate` counts down a fuel that bounds
that depth and the rounds of every loop.  An evaluation that runs out of fuel has no outcome.
-/

namespace ScriptEngine

variable {ν σ α : Type}

/-! ## Answering natives -/

/-- Evaluates a script on the running engine, inside a block of its own.  If a native has left
another block open, the block stays open too. -/
def evaluateBlockWith (evaluate : String → Run ν σ String) (script : String) : Run ν σ String :=
  fun m =>
    let (id, m) := m.openBlock
    match evaluate script m with
    | none => none
    | some (outcome, m) => some (outcome, (m.closeBlock id).2)

/-- Evaluates a script on the engine of a handle. -/
def evaluateOnWith (evaluate : String → Run ν σ String) (handle : Nat) (script : String)
    (w : World ν σ) : Option (Except EngineError String × World ν σ) :=
  match w.onEngine handle (evaluate script) with
  | none => none
  | some (.error e, w) => some (.error e, w)
  | some (.ok (.error e), w) => some (.error (.script e), w)
  | some (.ok (.ok value), w) => some (.ok value, w)

/-- The answer to what a native asks, and the machine afterwards. -/
def answer (evaluate : String → Run ν σ String) :
    (r : Request ν σ) → Machine ν σ → Option (r.Answer × Machine ν σ)
  | .result, m => some (m.engine.result, m)
  | .setResult text, m => some ((), m.setResult text)
  | .lastDiagnostic, m => some (m.engine.diagnostic, m)
  | .lineNumber, m => some (m.engine.lineNumber, m)
  | .scopeDepth, m => some (m.scopes.depth, m)
  | .lookup name, m => some (m.scopes.lookup name, m)
  | .bindCurrent name value, m => some ((), m.setScopes (m.scopes.bindCurrent name value))
  | .bindGlobal name value, m => some ((), m.setScopes (m.scopes.bindGlobal name value))
  | .globalNames, m => some (m.scopes.global.keys, m)
  | .register name native, m => some ((), m.register name native)
  | .unregister name, m => some (m.unregister name)
  | .functionNames, m => some (m.functions.keys, m)
  | .userData, m => some (m.engine.userData, m)
  | .openBlock, m => some m.openBlock
  | .closeBlock id, m => some (m.closeBlock id)
  | .evaluate script, m => evaluate script m
  | .evaluateBlock script, m => evaluateBlockWith evaluate script m
  | .evaluateOn handle script, m =>
    match evaluateOnWith evaluate handle script m.world with
    | none => none
    | some (outcome, world) => some (outcome, { m with world })
  | .print text, m =>
    some ((), { m with world := { m.world with output := m.world.output ++ text } })
  | .hostState, m => some (m.world.host, m)
  | .setHostState state, m => some ((), { m with world := { m.world with host := state } })

/-- Runs a native until it is done or gives up. -/
def Callback.run (evaluate : String → Run ν σ String) :
    Callback ν σ α → Machine ν σ → Option (Except String α × Machine ν σ)
  | .done a, m => some (.ok a, m)
  | .fail message, m => some (.error message, m)
  | .ask request next, m =>
    match answer evaluate request m with
    | none => none
    | some (a, m) => (next a).run evaluate m

/-- Calls a native by name.  The value of the call is the result that the native leaves. -/
def callNative (host : Host ν σ) (evaluate : String → Run ν σ String) (name : String)
    (args : List String) (span : Span) : Run ν σ String := fun m =>
  match m.functions[name]? with
  | none => Run.fail span (.undefinedProcedure name) m
  | some native =>
    match (host native args).run evaluate (m.noteCall ⟨name, args⟩) with
    | none => none
    | some (.error message, m) => Run.fail span (.native message) m
    | some (.ok (), m) => some (.ok m.engine.result, m)

/-! ## Evaluations -/

/-- Carries out the statements of a script in order.  If none returns, the error behind them is
raised, if there is one. -/
def Script.run (i : Interpreter ν σ) (error : Option ScriptError) :
    List (Stmt × Nat) → Run ν σ Flow
  | [] =>
    match error with
    | some e => Run.throw e
    | none => pure .normal
  | (s, _) :: rest => do
    match ← s.run i true with
    | .returned => return .returned
    | .normal => Script.run i error rest

/-- Reads a script and carries it out. -/
def Script.runText (i : Interpreter ν σ) (text : String) : Run ν σ Flow :=
  let parsed := Script.ofText text
  Script.run i parsed.error parsed.statements

/-- The machine at the beginning of an evaluation. -/
def Machine.beginInput (m : Machine ν σ) : Machine ν σ :=
  { m with engine := { m.engine with result := "", inputs := 1 :: m.engine.inputs } }

/-- The machine at the end of an evaluation: the enclosing one goes on. -/
def Machine.endInput (m : Machine ν σ) : Machine ν σ :=
  match m.engine.inputs with
  | [] => m
  | line :: outer => { m with engine := { m.engine with inputs := outer, lastLine := line } }

/-- Keeps note of the failure of an evaluation of `script`. -/
def Machine.noteFailure (script : String) (e : ScriptError) (m : Machine ν σ) : Machine ν σ :=
  { m with engine :=
    { m.engine with lastLine := e.line, diagnostic := some (e.diagnostic script) } }

/-- Evaluates a script, given how its statements are carried out. -/
def evaluateWith (i : Interpreter ν σ) (script : String) : Run ν σ String := fun m =>
  match Script.runText i script m.beginInput with
  | none => none
  | some (outcome, m) =>
    let m := m.endInput
    match outcome with
    | .ok _ => some (.ok m.engine.result, m)
    | .error e => some (.error e, m.noteFailure script e)

/-- Evaluates a script: its value is the value of the last statement that has one. -/
def evaluate (host : Host ν σ) : (fuel : Nat) → (script : String) → Run ν σ String
  | 0, _ => Run.cutShort
  | fuel + 1, script =>
    evaluateWith ⟨callNative host (evaluate host fuel), fuel⟩ script

/-- More fuel than a script uses up that ends in a lifetime. -/
def ampleFuel : Nat := 1000000000000000000

/-- How trees are carried out outside of any evaluation. -/
def Interpreter.ofHost (host : Host ν σ) (fuel : Nat) : Interpreter ν σ :=
  ⟨callNative host (evaluate host fuel), fuel⟩

end ScriptEngine
