import ScriptEngine.Native.Callback

/-!
# Engines and machines

An engine is one interpreter.  Its global variables and its natives are tables that it may share
with other engines, so it holds references to them; the tables themselves belong to the world,
together with the registry of engines and with what the natives leave behind.

A machine is the engine that is running and the world around it.
-/

namespace ScriptEngine

/-! ## Stores -/

/-- The name of an entry of a store. -/
structure Ref (α : Type) where
  index : Nat
deriving DecidableEq, Repr, Inhabited

/-- Entries that are referred to by number. -/
structure Store (α : Type) where
  entries : Std.ExtTreeMap Nat α := ∅
  /-- The number of the next entry. -/
  next : Nat := 0

namespace Store

variable {α : Type}

/-- The entry of a reference; an empty one if there is none. -/
def get [EmptyCollection α] (r : Ref α) (s : Store α) : α :=
  s.entries.getD r.index ∅

def set (r : Ref α) (a : α) (s : Store α) : Store α :=
  { s with entries := s.entries.insert r.index a }

/-- Adds an entry under a new reference. -/
def add (a : α) (s : Store α) : Ref α × Store α :=
  (⟨s.next⟩, ⟨s.entries.insert s.next a, s.next + 1⟩)

@[simp] theorem get_set [EmptyCollection α] (r : Ref α) (a : α) (s : Store α) :
    (s.set r a).get r = a := by
  simp [get, set]

theorem get_set_of_ne [EmptyCollection α] {r r' : Ref α} (h : r ≠ r') (a : α) (s : Store α) :
    (s.set r a).get r' = s.get r' := by
  have index_ne : r.index ≠ r'.index := fun e => h (by cases r; cases r'; simp_all)
  simp [get, set, Std.ExtTreeMap.getD_insert, index_ne]

end Store

/-! ## Engines -/

/-- One interpreter. -/
structure Engine (ν : Type) where
  globals : Ref VariableTable
  functions : Ref (FunctionTable ν)
  /-- The open blocks, the innermost first. -/
  blocks : List Block := []
  /-- How many blocks have been opened so far. -/
  opened : Nat := 0
  userData : Option UserData := none
  /-- The value of the last statement that has one; natives leave the values of their calls here. -/
  result : String := ""
  /-- The text of the last failure. -/
  diagnostic : Option String := none
  /-- The line that each evaluation in progress has come to, the innermost first. -/
  inputs : List Nat := []
  /-- The line where the last evaluation ended. -/
  lastLine : Nat := 0

namespace Engine

variable {ν : Type}

/-- The line being carried out, or where the last evaluation ended. -/
def lineNumber (e : Engine ν) : Nat :=
  e.inputs.head?.getD e.lastLine

end Engine

/-! ## Registries -/

/-- A place for an engine in a registry. -/
inductive Slot (ν : Type)
  | free
  | idle (engine : Engine ν)
  /-- The engine of this place is running. -/
  | busy

namespace Slot

variable {ν : Type}

def isFree : Slot ν → Bool
  | free => true
  | _ => false

end Slot

/-- Engines by handle.  A handle is the number of a place, and the lowest free one is given out. -/
structure Registry (ν : Type) where
  slots : List (Slot ν) := []

namespace Registry

variable {ν : Type}

/-- The place of a handle; free if the registry does not reach so far. -/
def slot (handle : Nat) (r : Registry ν) : Slot ν :=
  r.slots.getD handle .free

def setSlot (handle : Nat) (slot : Slot ν) (r : Registry ν) : Registry ν :=
  ⟨r.slots.set handle slot⟩

/-- Gives an engine the lowest free place. -/
def add (engine : Engine ν) (r : Registry ν) : Nat × Registry ν :=
  match r.slots.findIdx? Slot.isFree with
  | some handle => (handle, r.setSlot handle (.idle engine))
  | none => (r.slots.length, ⟨r.slots ++ [.idle engine]⟩)

/-- Removes the engine of a handle.  Free places at the end are given up. -/
def close (handle : Nat) (r : Registry ν) : Except EngineError (Registry ν) :=
  if (r.slot handle).isFree then
    .error (.badHandle handle)
  else
    let slots := (r.setSlot handle .free).slots
    .ok ⟨(slots.reverse.dropWhile Slot.isFree).reverse⟩

/-- The number of engines. -/
def size (r : Registry ν) : Nat :=
  r.slots.countP (!·.isFree)

end Registry

/-! ## Worlds and machines -/

/-- A call of a native by a script. -/
structure NativeCall where
  name : String
  args : List String
deriving DecidableEq, Repr

/-- All that engines share. -/
structure World (ν σ : Type) where
  variableTables : Store VariableTable := {}
  functionTables : Store (FunctionTable ν) := {}
  registry : Registry ν := {}
  /-- What the host keeps for its natives. -/
  host : σ
  /-- What has been printed. -/
  output : String := ""
  /-- Every call of a native so far, the latest first. -/
  calls : List NativeCall := []

/-- The engine that is running, and the world around it. -/
structure Machine (ν σ : Type) where
  engine : Engine ν
  world : World ν σ

namespace World

variable {ν σ α : Type}

/-- An engine on the given tables.  It makes sure that `null` is a known variable. -/
def engineOn (globals : Ref VariableTable) (functions : Ref (FunctionTable ν)) (w : World ν σ) :
    Engine ν × World ν σ :=
  let table := w.variableTables.get globals
  let table := if table.contains "null" then table else table.insert "null" none
  ({ globals, functions }, { w with variableTables := w.variableTables.set globals table })

/-- An engine on tables of its own. -/
def newEngine (w : World ν σ) : Engine ν × World ν σ :=
  let (globals, variableTables) := w.variableTables.add ∅
  let (functions, functionTables) := w.functionTables.add ∅
  { w with variableTables, functionTables }.engineOn globals functions

/-- Opens an engine on tables of its own; returns its handle. -/
def openEngine (w : World ν σ) : Nat × World ν σ :=
  let (engine, w) := w.newEngine
  let (handle, registry) := w.registry.add engine
  (handle, { w with registry })

/-- Opens an engine on the given tables; returns its handle. -/
def openEngineOn (globals : Ref VariableTable) (functions : Ref (FunctionTable ν))
    (w : World ν σ) : Nat × World ν σ :=
  let (engine, w) := w.engineOn globals functions
  let (handle, registry) := w.registry.add engine
  (handle, { w with registry })

/-- Closes the engine of a handle. -/
def closeEngine (handle : Nat) (w : World ν σ) : Except EngineError (World ν σ) :=
  match w.registry.close handle with
  | .ok registry => .ok { w with registry }
  | .error e => .error e

/-- Lets the engine of a handle run `act`.  The engine is busy while it does. -/
def onEngine (handle : Nat) (act : Machine ν σ → Option (α × Machine ν σ)) (w : World ν σ) :
    Option (Except EngineError α × World ν σ) :=
  match w.registry.slot handle with
  | .free => some (.error (.badHandle handle), w)
  | .busy => some (.error (.busy handle), w)
  | .idle engine =>
    match act ⟨engine, { w with registry := w.registry.setSlot handle .busy }⟩ with
    | none => none
    | some (a, ⟨engine, w⟩) =>
      some (.ok a, { w with registry := w.registry.setSlot handle (.idle engine) })

end World

namespace Machine

variable {ν σ : Type}

/-- The scopes of the running engine. -/
def scopes (m : Machine ν σ) : Scopes :=
  { global := m.world.variableTables.get m.engine.globals
    blocks := m.engine.blocks
    opened := m.engine.opened }

def setScopes (s : Scopes) (m : Machine ν σ) : Machine ν σ :=
  { engine := { m.engine with blocks := s.blocks, opened := s.opened }
    world := { m.world with
      variableTables := m.world.variableTables.set m.engine.globals s.global } }

/-- The natives that the running engine can call. -/
def functions (m : Machine ν σ) : FunctionTable ν :=
  m.world.functionTables.get m.engine.functions

def setFunctions (table : FunctionTable ν) (m : Machine ν σ) : Machine ν σ :=
  { m with world := { m.world with
      functionTables := m.world.functionTables.set m.engine.functions table } }

def setResult (text : String) (m : Machine ν σ) : Machine ν σ :=
  { m with engine := { m.engine with result := text } }

/-- Notes the line that the innermost evaluation has come to. -/
def markLine (line : Nat) (m : Machine ν σ) : Machine ν σ :=
  match m.engine.inputs with
  | [] => m
  | _ :: outer => { m with engine := { m.engine with inputs := line :: outer } }

/-- Notes a call of a native. -/
def noteCall (call : NativeCall) (m : Machine ν σ) : Machine ν σ :=
  { m with world := { m.world with calls := call :: m.world.calls } }

/-- Opens a block; returns its number. -/
def openBlock (m : Machine ν σ) : Nat × Machine ν σ :=
  let (id, s) := m.scopes.openBlock
  (id, m.setScopes s)

/-- Closes the innermost block, which has to be the one that is asked for. -/
def closeBlock (id : Nat) (m : Machine ν σ) : Except BlockFault Unit × Machine ν σ :=
  match m.scopes.closeBlock id with
  | .ok s => (.ok (), m.setScopes s)
  | .error fault => (.error fault, m)

/-- Makes a native known under a name, in place of any other of that name. -/
def register (name : String) (native : ν) (m : Machine ν σ) : Machine ν σ :=
  m.setFunctions (m.functions.insert name native)

/-- Forgets a native; says whether there was one. -/
def unregister (name : String) (m : Machine ν σ) : Bool × Machine ν σ :=
  (m.functions.contains name, m.setFunctions (m.functions.erase name))

end Machine
end ScriptEngine
