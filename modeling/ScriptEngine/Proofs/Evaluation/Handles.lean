import ScriptEngine.Session
import ScriptEngine.Proofs.Evaluation.Registry
import ScriptEngine.Proofs.Evaluation.Stores

/-!
# Handles

A host opens engines, closes them and works with those that are open, in any order.  What has become
of the handles is kept in a history: a handle is open when it has been given out and not been closed
since (`HandleHistory.IsOpen`).

Every call leaves the registry in line with the history (`World.Follows`), and so do all calls one
after the other.  What a host can rely on then is collected in `World.Serves`: the registry is a map
from the open handles to engines, other handles are refused without effect, and the lowest handle that
is not open is the next to be given out, to an engine that has nothing of an earlier one.
-/

namespace ScriptEngine

variable {ν σ α : Type}

/-! ## Histories -/

/-- What has become of a handle. -/
inductive HandleEvent
  | opened (handle : Nat)
  | closed (handle : Nat)
deriving DecidableEq, Repr

/-- What has become of handles, the latest event first. -/
abbrev HandleHistory := List HandleEvent

namespace HandleHistory

variable {history : HandleHistory} {handle other : Nat}

/-- The handle has been given out, and it has not been closed since. -/
def IsOpen (history : HandleHistory) (handle : Nat) : Prop :=
  ∃ later earlier, history = later ++ .opened handle :: earlier ∧ .closed handle ∉ later

lemma not_isOpen_nil : ¬ IsOpen [] handle := by
  rintro ⟨later, earlier, split, -⟩
  cases later <;> cases split

lemma isOpen_opened : IsOpen (.opened handle :: history) other ↔ other = handle ∨ history.IsOpen other := by
  constructor
  · rintro ⟨_ | ⟨event, later⟩, earlier, split, unclosed⟩
    · cases split
      exact .inl rfl
    · cases split
      exact .inr ⟨later, earlier, rfl, (List.ne_and_not_mem_of_not_mem_cons unclosed).2⟩
  · rintro (rfl | ⟨later, earlier, rfl, unclosed⟩)
    · exact ⟨[], history, rfl, List.not_mem_nil⟩
    · exact ⟨_ :: later, earlier, rfl, List.not_mem_cons_of_ne_of_not_mem nofun unclosed⟩

lemma isOpen_closed : IsOpen (.closed handle :: history) other ↔ other ≠ handle ∧ history.IsOpen other := by
  constructor
  · rintro ⟨_ | ⟨event, later⟩, earlier, split, unclosed⟩
    · cases split
    · cases split
      obtain ⟨apart, unclosed⟩ := List.ne_and_not_mem_of_not_mem_cons unclosed
      exact ⟨fun same => apart (congrArg _ same), later, earlier, rfl, unclosed⟩
  · rintro ⟨apart, later, earlier, rfl, unclosed⟩
    refine ⟨_ :: later, earlier, rfl, List.not_mem_cons_of_ne_of_not_mem ?_ unclosed⟩
    exact fun same => apart (HandleEvent.closed.inj same)

end HandleHistory

/-! ## Calls of a registry -/

/-- What a host does with a registry. -/
inductive RegistryCall (ν σ : Type)
  /-- Opens an engine on tables of its own. -/
  | openNew
  | openOn (globals : Ref VariableTable) (functions : Ref (FunctionTable ν))
  | close (handle : Nat)
  /-- Does something with the engine of a handle, for example evaluate a script. -/
  | use (handle : Nat) (program : Callback ν σ Unit)

namespace RegistryCall

/-- Carries out a call, and notes what becomes of the handles. -/
def run (host : Host ν σ) (fuel : Nat) :
    RegistryCall ν σ → HandleHistory × World ν σ → Option (HandleHistory × World ν σ)
  | openNew, (history, w) =>
    let (handle, w) := w.openEngine
    some (.opened handle :: history, w)
  | openOn globals functions, (history, w) =>
    let (handle, w) := w.openEngineOn globals functions
    some (.opened handle :: history, w)
  | close handle, (history, w) =>
    match w.closeEngine handle with
    | .ok w => some (.closed handle :: history, w)
    | .error _ => some (history, w)
  | use handle program, (history, w) =>
    match w.onEngine handle (program.run (evaluate host fuel)) with
    | none => none
    | some (_, w) => some (history, w)

/-- Carries out calls one after the other. -/
def runAll (host : Host ν σ) (fuel : Nat) :
    List (RegistryCall ν σ) → HandleHistory × World ν σ → Option (HandleHistory × World ν σ)
  | [], s => some s
  | call :: rest, s =>
    match call.run host fuel s with
    | none => none
    | some s => runAll host fuel rest s

end RegistryCall

/-- The open handles of the history are those of the engines in the registry, and none of them is
running. -/
structure World.Follows (history : HandleHistory) (w : World ν σ) : Prop where
  idle : ∀ handle, history.IsOpen handle → ∃ engine, w.registry.slot handle = .idle engine
  free : ∀ handle, ¬ history.IsOpen handle → w.registry.slot handle = .free
  trimmed : w.registry.Trimmed

namespace World.Follows

variable {history : HandleHistory} {w w' : World ν σ}

lemma isOpen_iff (follows : w.Follows history) (handle : Nat) :
    history.IsOpen handle ↔ w.registry.slot handle ≠ .free := by
  constructor
  · intro isOpen
    obtain ⟨engine, found⟩ := follows.idle handle isOpen
    rw [found]
    exact nofun
  · exact fun taken => Classical.not_not.1 fun closed => taken (follows.free handle closed)

/-- An engine is added in the lowest free place. -/
lemma add (follows : w.Follows history) (engine : Engine ν)
    (registry : w'.registry = (w.registry.add engine).2) :
    w'.Follows (.opened (w.registry.add engine).1 :: history) := by
  obtain ⟨-, -, slots⟩ := Registry.add_spec engine w.registry
  refine ⟨fun handle isOpen => ?_, fun handle closed => ?_, ?_⟩
  · rw [registry, slots]
    split
    · exact ⟨engine, rfl⟩
    · next other => exact follows.idle handle ((HandleHistory.isOpen_opened.1 isOpen).resolve_left other)
  · rw [HandleHistory.isOpen_opened, not_or] at closed
    rw [registry, slots, if_neg closed.1]
    exact follows.free handle closed.2
  · rw [registry]
    exact follows.trimmed.add engine

/-- The engine of an open handle is removed. -/
lemma close (follows : w.Follows history) {handle : Nat}
    (taken : w.registry.slot handle ≠ .free)
    (registry : w'.registry = (w.registry.setSlot handle .free).trim) :
    w'.Follows (.closed handle :: history) := by
  have within := Registry.lt_of_slot_ne taken
  refine ⟨fun other isOpen => ?_, fun other closed => ?_, ?_⟩
  · obtain ⟨apart, isOpen⟩ := HandleHistory.isOpen_closed.1 isOpen
    rw [registry, Registry.slot_trim, Registry.slot_setSlot within, if_neg apart]
    exact follows.idle other isOpen
  · rw [registry, Registry.slot_trim, Registry.slot_setSlot within]
    split
    · rfl
    · next apart =>
      exact follows.free other fun isOpen => closed (HandleHistory.isOpen_closed.2 ⟨apart, isOpen⟩)
  · rw [registry]
    exact Registry.trimmed_trim _

lemma sameShape (follows : w.Follows history) (same : w.registry.SameShape w'.registry) :
    w'.Follows history where
  idle handle isOpen := by
    rw [← Slot.state_eq_idle, same.state, Slot.state_eq_idle]
    exact follows.idle handle isOpen
  free handle closed := by
    rw [← Slot.state_eq_free, same.state, Slot.state_eq_free]
    exact follows.free handle closed
  trimmed := same.trimmed follows.trimmed

/-- Every call leaves a registry that follows the history. -/
lemma run {host : Host ν σ} {fuel : Nat} {call : RegistryCall ν σ} {history' : HandleHistory}
    (follows : w.Follows history) (served : call.run host fuel (history, w) = some (history', w')) :
    w'.Follows history' := by
  cases call with
  | openNew =>
    cases served
    exact follows.add _ rfl
  | openOn globals functions =>
    cases served
    exact follows.add _ rfl
  | close handle =>
    simp only [RegistryCall.run, closeEngine] at served
    by_cases free : w.registry.slot handle = .free
    · rw [Registry.close_of_free free] at served
      cases served
      exact follows
    · rw [Registry.close_of_taken free] at served
      cases served
      exact follows.close free rfl
  | use handle program =>
    simp only [RegistryCall.run] at served
    rcases used : w.onEngine handle (program.run (evaluate host fuel)) with _ | ⟨outcome, w₁⟩ <;>
      rw [used] at served
    · cases served
    · cases served
      apply follows.sameShape (World.onEngine_sameShape _ used)
      intro m outcome m' ran
      have both := program.run_sameShape (evaluate_sameShape host fuel) m.world.registry
        (m := m) ⟨rfl, .refl _⟩
      exact Machine.SameWithRegistry.of_endAlike both ran

lemma runAll {host : Host ν σ} {fuel : Nat} {calls : List (RegistryCall ν σ)}
    {history' : HandleHistory} (follows : w.Follows history)
    (served : RegistryCall.runAll host fuel calls (history, w) = some (history', w')) :
    w'.Follows history' := by
  induction calls generalizing history w with
  | nil =>
    cases served
    exact follows
  | cons call rest ih =>
    unfold RegistryCall.runAll at served
    rcases first : call.run host fuel (history, w) with _ | ⟨history₁, w₁⟩ <;> rw [first] at served
    · cases served
    · exact ih (follows.run first) served

end World.Follows

/-! ## What a host can rely on -/

namespace World

/-- An engine is opened on a new table with nothing in it but `null`. -/
lemma openEngine_variableTables (w : World ν σ) : w.openEngine.2.variableTables =
    (w.variableTables.add ∅).2.set ⟨w.variableTables.next⟩ ((∅ : VariableTable).insert "null" none) := by
  let added := (w.variableTables.add ∅).2
  have bare : added.get ⟨w.variableTables.next⟩ = (∅ : VariableTable) :=
    Store.get_add ∅ w.variableTables
  change added.set _ (if (added.get ⟨w.variableTables.next⟩).contains "null"
    then added.get ⟨w.variableTables.next⟩
    else (added.get ⟨w.variableTables.next⟩).insert "null" none) = _
  simp only [bare, Std.ExtTreeMap.contains_empty, Bool.false_eq_true, if_false]
  rfl

lemma openEngine_functionTables (w : World ν σ) :
    w.openEngine.2.functionTables = (w.functionTables.add ∅).2 :=
  rfl

end World

/-- The lowest handle that is not open has been given to the engine, and no other place has changed. -/
structure World.Gives (history : HandleHistory) (w : World ν σ) (engine : Engine ν) (handle : Nat)
    (w' : World ν σ) : Prop where
  unopened : ¬ history.IsOpen handle
  lowest : ∀ lower < handle, history.IsOpen lower
  given : w'.registry.slot handle = .idle engine
  others : ∀ other ≠ handle, w'.registry.slot other = w.registry.slot other

/-- Behind the history, the registry of the world is a map from the open handles to engines. -/
structure World.Serves (history : HandleHistory) (w : World ν σ) : Prop where
  /-- The open handles stand for engines. -/
  resolves : ∀ handle, history.IsOpen handle ↔ ∃ engine, w.registry.slot handle = .idle engine
  /-- A handle that is not open is refused, and nothing happens. -/
  refuses : ∀ handle, ¬ history.IsOpen handle →
    w.closeEngine handle = .error (.badHandle handle) ∧
    ∀ evaluate script, evaluateOnWith evaluate handle script w = some (.error (.badHandle handle), w)
  /-- An open handle is not refused: an evaluation has a value, or its script has an error. -/
  evaluates : ∀ handle, history.IsOpen handle → ∀ evaluate script outcome w',
    evaluateOnWith evaluate handle script w = some (outcome, w') →
      (∃ value, outcome = .ok value) ∨ ∃ e, outcome = .error (.script e)
  /-- The engines are counted. -/
  size : ∃ handles : List Nat, handles.Nodup ∧ (∀ handle, handle ∈ handles ↔ history.IsOpen handle) ∧
    w.registry.size = handles.length
  /-- A new engine has no blocks, no result and no error, and it stands on new tables. -/
  opens : w.Gives history { globals := ⟨w.variableTables.next⟩, functions := ⟨w.functionTables.next⟩ }
    w.openEngine.1 w.openEngine.2
  /-- The new tables have nothing in them but `null`, and all others stay as they are. -/
  tables :
    w.openEngine.2.variableTables.get ⟨w.variableTables.next⟩ = (∅ : VariableTable).insert "null" none ∧
    w.openEngine.2.functionTables.get ⟨w.functionTables.next⟩ = ∅ ∧
    (∀ ref ≠ ⟨w.variableTables.next⟩,
      w.openEngine.2.variableTables.get ref = w.variableTables.get ref) ∧
    ∀ ref ≠ ⟨w.functionTables.next⟩,
      w.openEngine.2.functionTables.get ref = w.functionTables.get ref
  /-- On tables of the host, too, a new engine has no blocks, no result and no error. -/
  opensOn : ∀ globals functions, w.Gives history { globals, functions }
    (w.openEngineOn globals functions).1 (w.openEngineOn globals functions).2
  /-- An open handle can be closed; the engines of the others are what they were. -/
  closes : ∀ handle, history.IsOpen handle → ∃ registry,
    w.closeEngine handle = .ok { w with registry } ∧ registry.slot handle = .free ∧
    ∀ other ≠ handle, registry.slot other = w.registry.slot other
  /-- The registry does not end with a free place. -/
  trimmed : w.registry.slots.getLast? ≠ some .free

namespace World.Follows

variable {history : HandleHistory} {w w' : World ν σ}

lemma gives (follows : w.Follows history) (engine : Engine ν)
    (registry : w'.registry = (w.registry.add engine).2) :
    w.Gives history engine (w.registry.add engine).1 w' := by
  obtain ⟨free, lower_taken, slots⟩ := Registry.add_spec engine w.registry
  refine ⟨?_, fun lower below => ?_, ?_, fun other apart => ?_⟩
  · rw [follows.isOpen_iff]
    exact fun taken => taken free
  · rw [follows.isOpen_iff]
    exact lower_taken lower below
  · rw [registry, slots, if_pos rfl]
  · rw [registry, slots, if_neg apart]

lemma serves (follows : w.Follows history) : w.Serves history where
  resolves handle := by
    refine ⟨follows.idle handle, ?_⟩
    rintro ⟨engine, found⟩
    rw [follows.isOpen_iff, found]
    exact nofun
  refuses handle closed := by
    have free := follows.free handle closed
    constructor
    · rw [closeEngine, Registry.close_of_free free]
    · intro evaluate script
      simp only [evaluateOnWith, onEngine, free]
  evaluates handle isOpen evaluate script outcome w' ended := by
    obtain ⟨engine, found⟩ := follows.idle handle isOpen
    simp only [evaluateOnWith, onEngine, found] at ended
    rcases ran : evaluate script ⟨engine, { w with registry := w.registry.setSlot handle .busy }⟩ with
      _ | ⟨e | value, m⟩ <;> simp only [ran] at ended <;> cases ended
    · exact .inr ⟨e, rfl⟩
    · exact .inl ⟨value, rfl⟩
  size := by
    refine ⟨w.registry.handles, List.nodup_range.filter _, fun handle => ?_, w.registry.size_eq⟩
    rw [Registry.mem_handles, follows.isOpen_iff]
  opens := follows.gives _ rfl
  tables := by
    rw [openEngine_variableTables, openEngine_functionTables]
    refine ⟨Store.get_set _ _ _, Store.get_add _ _, fun ref other => ?_, fun ref other =>
      Store.get_add_of_ne other _⟩
    rw [Store.get_set_of_ne (Ne.symm other), Store.get_add_of_ne other]
  opensOn globals functions := follows.gives _ rfl
  closes handle isOpen := by
    have taken := (follows.isOpen_iff handle).1 isOpen
    have within := Registry.lt_of_slot_ne taken
    refine ⟨(w.registry.setSlot handle .free).trim, ?_, ?_, fun other apart => ?_⟩
    · rw [closeEngine, Registry.close_of_taken taken]
    · rw [Registry.slot_trim, Registry.slot_setSlot within, if_pos rfl]
    · rw [Registry.slot_trim, Registry.slot_setSlot within, if_neg apart]
  trimmed := follows.trimmed

end World.Follows

/-- Whatever a host does with a registry that begins without engines: afterwards the registry is a map
from the handles that have been given out and not closed since to engines.  Only with these handles
can engines be evaluated on and closed, and there are as many engines.  The lowest handle that is not
open is given out next, to an engine that is new, whatever engine may have had the handle before. -/
theorem registry_gives_lowest_unopened_handle (host : Host ν σ) (fuel : Nat)
    (calls : List (RegistryCall ν σ)) {w w' : World ν σ} {history : HandleHistory}
    (empty : w.registry.slots = [])
    (served : RegistryCall.runAll host fuel calls ([], w) = some (history, w')) :
    w'.Serves history := by
  have began : w.Follows [] := by
    refine ⟨fun handle isOpen => absurd isOpen HandleHistory.not_isOpen_nil, fun handle _ => ?_, ?_⟩
    · rw [Registry.slot_eq, empty]
      rfl
    · rw [Registry.Trimmed, empty]
      exact nofun
  exact (began.runAll served).serves

/-- Three engines are opened; the middle one gets a variable and is closed, and so is the last one.
The next engine gets the middle handle, and its global table is a new one. -/
theorem registry_gives_lowest_unopened_handle_again :
    ({ host := {} } : World SessionNative Notebook).registry.slots = [] ∧
      ∃ history w', RegistryCall.runAll SessionNative.host 9
          [.openNew, .openNew, .openNew, .use 1 (do let _ ← .request (.evaluate "var x = 1")),
            .close 1, .close 2, .close 1]
          ([], { host := {} }) = some (history, w') ∧
        w'.openEngine.1 = 1 ∧
        ∃ engine, w'.openEngine.2.registry.slot 1 = .idle engine ∧ engine.blocks = [] ∧
          w'.openEngine.2.variableTables.get engine.globals =
            (∅ : VariableTable).insert "null" none := by
  have ended : (RegistryCall.runAll SessionNative.host 9
      [.openNew, .openNew, .openNew, .use 1 (do let _ ← .request (.evaluate "var x = 1")),
        .close 1, .close 2, .close 1]
      ([], ({ host := {} } : World SessionNative Notebook))).map Prod.fst =
        some [.closed 2, .closed 1, .opened 2, .opened 1, .opened 0] := by
    decide +kernel
  obtain ⟨⟨_, w'⟩, run, rfl⟩ := Option.map_eq_some_iff.1 ended
  have serves := registry_gives_lowest_unopened_handle SessionNative.host 9 _ rfl run
  have opens := serves.opens
  have given : w'.openEngine.1 = 1 := by
    have unopened := opens.unopened
    have lowest := opens.lowest
    simp only [HandleHistory.isOpen_closed, HandleHistory.isOpen_opened, HandleHistory.not_isOpen_nil,
      or_false] at unopened lowest
    have above : ¬ 1 < w'.openEngine.1 := fun above => (lowest 1 above).2.1 rfl
    omega
  refine ⟨rfl, _, w', run, given, _, given ▸ opens.given, rfl, serves.tables.1⟩

end ScriptEngine
