import Std.Data.ExtTreeMap

/-!
# Scopes

Variables live in tables: one global table, and one for every block that is open.  A name is looked
up in the innermost table and then in the global one; the tables between them are out of reach until
the blocks above are closed.

A block has a number that is never given out again, so a block that is closed cannot be mistaken for
a later one.  Only the innermost block can be closed.
-/

namespace ScriptEngine

/-- The variables of one scope.  A name may be known without having a value. -/
abbrev VariableTable := Std.ExtTreeMap String (Option String)

/-- Which table a variable was found in. -/
inductive Tier
  /-- The table of the innermost open block. -/
  | block
  | global
deriving DecidableEq, Repr, Inhabited

/-- An open block. -/
structure Block where
  id : Nat
  table : VariableTable := ∅

/-- Why a block cannot be closed. -/
inductive BlockFault
  /-- The number 0 stands for the global scope. -/
  | globalScope
  /-- Another block is the innermost one; 0 if none is open. -/
  | order (innermost asked : Nat)
deriving DecidableEq, Repr, Inhabited

namespace BlockFault

def message : BlockFault → String
  | globalScope => "the global scope cannot be closed"
  | order innermost asked =>
    "block " ++ toString asked ++ " closed while block " ++ toString innermost ++
      " is the current scope"

end BlockFault

/-- The tables that a script works on. -/
structure Scopes where
  global : VariableTable := ∅
  /-- The open blocks, the innermost first. -/
  blocks : List Block := []
  /-- How many blocks have been opened so far; the number of the last one. -/
  opened : Nat := 0

namespace Scopes

/-- The number of tables. -/
def depth (s : Scopes) : Nat :=
  s.blocks.length + 1

/-- The number of the innermost open block, or 0 if none is open. -/
def innermost (s : Scopes) : Nat :=
  match s.blocks with
  | [] => 0
  | b :: _ => b.id

/-- The innermost table: the global one when no block is open. -/
def current (s : Scopes) : VariableTable :=
  match s.blocks with
  | [] => s.global
  | b :: _ => b.table

/-- Opens a block; returns its number. -/
def openBlock (s : Scopes) : Nat × Scopes :=
  let id := s.opened + 1
  (id, { s with blocks := ⟨id, ∅⟩ :: s.blocks, opened := id })

/-- Closes the innermost block, which has to be the one that is asked for. -/
def closeBlock (id : Nat) (s : Scopes) : Except BlockFault Scopes :=
  if id = 0 then .error .globalScope
  else if id = s.innermost then .ok { s with blocks := s.blocks.tail }
  else .error (.order s.innermost id)

/-- Finds a variable: the tier it is in, and its value if it has one. -/
def lookup (name : String) (s : Scopes) : Option (Tier × Option String) :=
  match s.blocks with
  | [] => s.global[name]?.map (Tier.global, ·)
  | b :: _ =>
    match b.table[name]? with
    | some value => some (.block, value)
    | none => s.global[name]?.map (Tier.global, ·)

/-- Sets a variable in the global table. -/
def bindGlobal (name : String) (value : Option String) (s : Scopes) : Scopes :=
  { s with global := s.global.insert name value }

/-- Sets a variable in the innermost table. -/
def bindCurrent (name : String) (value : Option String) (s : Scopes) : Scopes :=
  match s.blocks with
  | [] => s.bindGlobal name value
  | b :: rest => { s with blocks := { b with table := b.table.insert name value } :: rest }

/-- Sets a variable in the table of a tier. -/
def bind (tier : Tier) (name : String) (value : Option String) (s : Scopes) : Scopes :=
  match tier with
  | .block => s.bindCurrent name value
  | .global => s.bindGlobal name value

/-- The tier that an assignment to `name` writes to: the one that holds it, and the global one if
none does. -/
def assignTier (name : String) (s : Scopes) : Tier :=
  match s.lookup name with
  | some (tier, _) => tier
  | none => .global

/-- Assigns a value to a variable. -/
def assign (name value : String) (s : Scopes) : Scopes :=
  s.bind (s.assignTier name) name (some value)

end Scopes
end ScriptEngine
