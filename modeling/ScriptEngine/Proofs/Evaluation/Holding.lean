import ScriptEngine.Proofs.Evaluation.InStep
import ScriptEngine.Proofs.Evaluation.Ownership

/-!
# What an engine holds

A world can be split into what one engine holds, which is the engine itself and the entries of its two
tables (`Holding`), and the rest.  As long as its natives work on no other engine (`Request.Inward`), an
evaluation does the same to what its engine holds whatever the rest is, and it leaves the rest alone.

So the statement is about two runs side by side, in two worlds that may differ in all but what the engine
holds (`Holding.Beside`, `Holding.evaluate_beside`).  What has been done to the scopes meanwhile is kept,
too, as a list of actions (`Holding.CameFrom`).
-/

namespace ScriptEngine

variable {ν σ α : Type}

/-! ## Requests that stay with one engine -/

/-- The request is about the engine that it is put to, and about nothing that engines share but its
tables. -/
def Request.Inward : Request ν σ → Prop
  | .evaluateOn _ _ | .print _ | .hostState | .setHostState _ => False
  | _ => True

/-- The natives act on nothing but the engine that calls them. -/
def Host.Inward (host : Host ν σ) : Prop :=
  ∀ native args, (host native args).OnlyAsks Request.Inward

/-! ## What an engine holds -/

/-- What an operation on an engine can change: the engine, the entries of its two tables, and the
record of the calls since the operation began. -/
structure Holding (ν : Type) where
  engine : Engine ν
  globals : Option VariableTable
  functions : Option (FunctionTable ν)
  calls : List NativeCall

namespace Holding

/-- The engine running in a world, which is the given one in all that the engine does not hold. -/
def within (x : Holding ν) (w : World ν σ) : Machine ν σ where
  engine := x.engine
  world := { w with
    variableTables := w.variableTables.place x.engine.globals x.globals
    functionTables := w.functionTables.place x.engine.functions x.functions
    calls := x.calls ++ w.calls }

/-- What an engine holds at the beginning of an operation. -/
def begin (e : Engine ν) (w : World ν σ) : Holding ν where
  engine := e
  globals := w.variableTables.find? e.globals
  functions := w.functionTables.find? e.functions
  calls := []

lemma begin_within {e : Engine ν} {w v : World ν σ}
    (globals : v.variableTables.find? e.globals = w.variableTables.find? e.globals)
    (functions : v.functionTables.find? e.functions = w.functionTables.find? e.functions) :
    (begin e w).within v = ⟨e, v⟩ := by
  simp [within, begin, ← globals, ← functions]

/-- The scopes of the engine. -/
def scopes (x : Holding ν) : Scopes where
  global := x.globals.getD ∅
  blocks := x.engine.blocks
  opened := x.engine.opened

def setScopes (s : Scopes) (x : Holding ν) : Holding ν :=
  { x with
    engine := { x.engine with blocks := s.blocks, opened := s.opened }
    globals := some s.global }

def setFunctions (table : FunctionTable ν) (x : Holding ν) : Holding ν :=
  { x with functions := some table }

def setEngine (e : Engine ν) (x : Holding ν) : Holding ν :=
  { x with engine := e }

lemma scopes_within (x : Holding ν) (w : World ν σ) : (x.within w).scopes = x.scopes := by
  simp [within, Machine.scopes, scopes]

lemma functions_within (x : Holding ν) (w : World ν σ) :
    (x.within w).functions = x.functions.getD ∅ := by
  simp [within, Machine.functions]

lemma setScopes_within (s : Scopes) (x : Holding ν) (w : World ν σ) :
    (x.within w).setScopes s = (x.setScopes s).within w := by
  simp [within, Machine.setScopes, setScopes, Store.set_eq_place]

lemma setFunctions_within (table : FunctionTable ν) (x : Holding ν) (w : World ν σ) :
    (x.within w).setFunctions table = (x.setFunctions table).within w := by
  simp [within, Machine.setFunctions, setFunctions, Store.set_eq_place]

lemma markLine_within (line : Nat) (x : Holding ν) (w : World ν σ) :
    (x.within w).markLine line = (x.setEngine (match x.engine.inputs with
      | [] => x.engine
      | _ :: outer => { x.engine with inputs := line :: outer })).within w := by
  cases lines : x.engine.inputs <;> simp [Machine.markLine, within, setEngine, lines]

lemma endInput_within (x : Holding ν) (w : World ν σ) :
    (x.within w).endInput = (x.setEngine (match x.engine.inputs with
      | [] => x.engine
      | line :: outer => { x.engine with inputs := outer, lastLine := line })).within w := by
  cases lines : x.engine.inputs <;> simp [Machine.endInput, within, setEngine, lines]

/-- An operation that began with `x₀` has come to `x`.  The engine is still on the same tables, and it
has worked on its scopes. -/
structure CameFrom (x₀ x : Holding ν) : Prop where
  globals : x.engine.globals = x₀.engine.globals
  functions : x.engine.functions = x₀.engine.functions
  acted : ∃ actions, x.scopes = ScopeAction.runAll actions x₀.scopes

/-- The engine of both machines holds the same, one in `w` and the other in `v`, and it has come from
`x₀`. -/
def Beside (x₀ : Holding ν) (w v : World ν σ) (m n : Machine ν σ) : Prop :=
  ∃ x, CameFrom x₀ x ∧ m = x.within w ∧ n = x.within v

variable {x₀ x : Holding ν} {w v : World ν σ} {m n : Machine ν σ}

lemma CameFrom.refl (x : Holding ν) : CameFrom x x :=
  ⟨rfl, rfl, [], rfl⟩

lemma CameFrom.act (came : CameFrom x₀ x) (action : ScopeAction) :
    CameFrom x₀ (x.setScopes (action.run x.scopes)) := by
  obtain ⟨globals, functions, actions, scopes⟩ := came
  refine ⟨globals, functions, actions ++ [action], ?_⟩
  change action.run x.scopes = _
  rw [scopes, ScopeAction.runAll, ScopeAction.runAll, List.foldl_append]
  rfl

lemma CameFrom.setEngine {e : Engine ν} (came : CameFrom x₀ x)
    (globals : e.globals = x.engine.globals) (functions : e.functions = x.engine.functions)
    (blocks : e.blocks = x.engine.blocks) (opened : e.opened = x.engine.opened) : CameFrom x₀ (x.setEngine e) := by
  refine ⟨globals.trans came.globals, functions.trans came.functions, ?_⟩
  have scopes : (x.setEngine e).scopes = x.scopes := by
    simp only [Holding.scopes, Holding.setEngine, blocks, opened]
  rw [scopes]
  exact came.acted

lemma Beside.scopes (here : Beside x₀ w v m n) : m.scopes = n.scopes := by
  obtain ⟨x, -, rfl, rfl⟩ := here
  rw [scopes_within, scopes_within]

lemma Beside.functions (here : Beside x₀ w v m n) : m.functions = n.functions := by
  obtain ⟨x, -, rfl, rfl⟩ := here
  rw [functions_within, functions_within]

lemma Beside.act (here : Beside x₀ w v m n) (action : ScopeAction) :
    Beside x₀ w v (m.setScopes (action.run m.scopes)) (n.setScopes (action.run n.scopes)) := by
  obtain ⟨x, came, rfl, rfl⟩ := here
  rw [scopes_within, scopes_within, setScopes_within, setScopes_within]
  exact ⟨x.setScopes _, came.act action, rfl, rfl⟩

lemma Beside.setFunctions (here : Beside x₀ w v m n)
    (change : FunctionTable ν → FunctionTable ν) :
    Beside x₀ w v (m.setFunctions (change m.functions)) (n.setFunctions (change n.functions)) := by
  obtain ⟨x, came, rfl, rfl⟩ := here
  rw [functions_within, functions_within, setFunctions_within, setFunctions_within]
  exact ⟨x.setFunctions _, ⟨came.globals, came.functions, came.acted⟩, rfl, rfl⟩

lemma Beside.closeBlock (here : Beside x₀ w v m n) (id : Nat) :
    (m.closeBlock id).1 = (n.closeBlock id).1 ∧
      Beside x₀ w v (m.closeBlock id).2 (n.closeBlock id).2 := by
  unfold Machine.closeBlock
  rw [← here.scopes]
  cases closed : m.scopes.closeBlock id with
  | error fault => exact ⟨rfl, here⟩
  | ok s =>
    have after := here.act (.closeBlock id)
    rw [← here.scopes, ScopeAction.run_closeBlock closed] at after
    exact ⟨rfl, after⟩

/-- What a script does by itself it does to what its engine holds. -/
lemma inStep_beside : Machine.InStep (Beside x₀ w v) where
  scopes := Beside.scopes
  functions := Beside.functions
  result := by
    rintro _ _ ⟨x, -, rfl, rfl⟩
    rfl
  bind tier name value here := here.act (.bind tier name value)
  markLine := by
    rintro _ _ line ⟨x, came, rfl, rfl⟩
    rw [markLine_within, markLine_within]
    refine ⟨x.setEngine _, ?_, rfl, rfl⟩
    split <;> exact came.setEngine rfl rfl rfl rfl
  setResult := by
    rintro _ _ text ⟨x, came, rfl, rfl⟩
    exact ⟨x.setEngine { x.engine with result := text },
      came.setEngine rfl rfl rfl rfl, rfl, rfl⟩
  noteCall := by
    rintro _ _ call ⟨x, came, rfl, rfl⟩
    exact ⟨{ x with calls := call :: x.calls }, ⟨came.globals, came.functions, came.acted⟩,
      rfl, rfl⟩
  beginInput := by
    rintro _ _ ⟨x, came, rfl, rfl⟩
    exact ⟨x.setEngine { x.engine with result := "", inputs := 1 :: x.engine.inputs },
      came.setEngine rfl rfl rfl rfl, rfl, rfl⟩
  endInput := by
    rintro _ _ ⟨x, came, rfl, rfl⟩
    rw [endInput_within, endInput_within]
    refine ⟨x.setEngine _, ?_, rfl, rfl⟩
    split <;> exact came.setEngine rfl rfl rfl rfl
  noteFailure := by
    rintro _ _ script e ⟨x, came, rfl, rfl⟩
    exact ⟨x.setEngine { x.engine with lastLine := e.line, diagnostic := some (e.diagnostic script) },
      came.setEngine rfl rfl rfl rfl, rfl, rfl⟩

/-- Of two engines that hold the same, an inward request learns the same and does the same to both. -/
lemma answer_beside {evaluate : String → Run ν σ String}
    (nested : ∀ script, Run.Pairs (Beside x₀ w v) (evaluate script) (evaluate script))
    (request : Request ν σ) (inward : request.Inward) (m n : Machine ν σ)
    (here : Beside x₀ w v m n) :
    EndAlike (Beside x₀ w v) (answer evaluate request m) (answer evaluate request n) := by
  have scopes := here.scopes
  have functions := here.functions
  cases request with
  -- These look out of the engine.
  | evaluateOn | print | hostState | setHostState => exact inward.elim
  | result => exact .some ⟨inStep_beside.result here, here⟩
  | setResult text => exact .some ⟨rfl, inStep_beside.setResult text here⟩
  | lastDiagnostic | lineNumber | userData =>
    obtain ⟨x, tables, rfl, rfl⟩ := here
    exact .some ⟨rfl, x, tables, rfl, rfl⟩
  | scopeDepth => exact .some ⟨congrArg Scopes.depth scopes, here⟩
  | lookup name => exact .some ⟨congrArg (Scopes.lookup name) scopes, here⟩
  | bindCurrent name value => exact .some ⟨rfl, here.act (.bind .block name value)⟩
  | bindGlobal name value => exact .some ⟨rfl, here.act (.bind .global name value)⟩
  | globalNames => exact .some ⟨congrArg (fun s => s.global.keys) scopes, here⟩
  | register name native => exact .some ⟨rfl, here.setFunctions fun table => table.insert name native⟩
  | unregister name =>
    exact .some ⟨congrArg (fun table => table.contains name) functions,
      here.setFunctions fun table => table.erase name⟩
  | functionNames => exact .some ⟨congrArg (fun table => table.keys) functions, here⟩
  | openBlock =>
    exact .some ⟨congrArg (fun s => s.openBlock.1) scopes, here.act .openBlock⟩
  | closeBlock id => exact .some (here.closeBlock id)
  | evaluate script => exact nested script m n here
  | evaluateBlock script =>
    have opened : m.openBlock.1 = n.openBlock.1 := congrArg (fun s => s.openBlock.1) scopes
    have both := nested script m.openBlock.2 n.openBlock.2 (here.act .openBlock)
    simp only [answer, evaluateBlockWith]
    obtain ⟨left, right⟩ | ⟨outcome, m', n', left, right, after⟩ := EndAlike.cases both
    · rw [left, right]
      exact .none
    · rw [left, right, opened]
      exact .some ⟨rfl, (after.closeBlock _).2⟩

lemma run_beside {evaluate : String → Run ν σ String}
    (nested : ∀ script, Run.Pairs (Beside x₀ w v) (evaluate script) (evaluate script))
    {program : Callback ν σ α} (inward : program.OnlyAsks Request.Inward) (here : Beside x₀ w v m n) :
    EndAlike (Beside x₀ w v) (program.run evaluate m) (program.run evaluate n) := by
  rw [Callback.run_eq_runWith]
  exact inward.runWith_endAlike (answer_beside nested) here

/-- An evaluation whose natives act on their own engine only does the same to what the engine holds,
whatever world it is in. -/
theorem evaluate_beside {host : Host ν σ} (inward : host.Inward) (fuel : Nat) (script : String) :
    Run.Pairs (Beside x₀ w v) (evaluate host fuel script) (evaluate host fuel script) := by
  induction fuel generalizing script with
  | zero => exact fun _ _ _ => .none
  | succ fuel ih =>
    apply inStep_beside.evaluateWith_pairs rfl
    simp only [callNative_eq_callWith]
    apply inStep_beside.callWith_pairs
    intro native args m n here
    exact run_beside ih (inward native args) here

end Holding
end ScriptEngine
