import ScriptEngine.Proofs.Evaluation.Holding
import ScriptEngine.Proofs.Evaluation.Registry

/-!
# Engines apart from each other

The engines of a registry live in one world, and a host may give several of them the same table of
global variables or of natives.  What it does with one engine reaches that engine and its two tables
only, whatever scripts and natives run meanwhile, as long as the natives work on the engine that
calls them.

An operation is a change of what its engine holds, and it is the same change in all worlds in which
the engine holds the same (`World.use_cases`).  From this follows that other engines do not notice,
unless they share a table, and that operations on engines that share none can be done in either order
(`engines_isolated`).

The tables of open blocks are no entries of the world: a block has its table, and an engine has its
blocks.  What this has to do with tables that are referred to is said in the main statement, too, by way
of `ScopeStacks`.
-/

namespace ScriptEngine

variable {ν σ α β : Type}

/-! ## What a host does with an engine -/

namespace World

/-- Does something with the engine of a handle: evaluates scripts, opens and closes blocks, sets
variables, makes natives known, or any of these one after the other. -/
def use (host : Host ν σ) (fuel handle : Nat) (program : Callback ν σ α) (w : World ν σ) :
    Option (Except EngineError (Except String α) × World ν σ) :=
  w.onEngine handle (program.run (evaluate host fuel))

/-- Does something with one engine and then something with another. -/
def useBoth (host : Host ν σ) (fuel : Nat) (handle : Nat) (program : Callback ν σ α) (handle' : Nat)
    (program' : Callback ν σ β) (w : World ν σ) :
    Option ((Except EngineError (Except String α) × Except EngineError (Except String β)) ×
      World ν σ) :=
  match w.use host fuel handle program with
  | none => none
  | some (outcome, w) =>
    match w.use host fuel handle' program' with
    | none => none
    | some (outcome', w) => some ((outcome, outcome'), w)

/-- Only the engine of a handle and its tables may have changed. -/
structure OnlyTouches (handle : Nat) (w w' : World ν σ) : Prop where
  /-- Every other engine is the same: its blocks with their numbers and tables, its result, its last
  failure, its lines and the rest. -/
  others : ∀ other, other ≠ handle → w'.registry.slot other = w.registry.slot other
  globals : ∀ r, w'.variableTables.get r ≠ w.variableTables.get r →
    ∃ e, w.registry.slot handle = .idle e ∧ e.globals = r
  functions : ∀ r, w'.functionTables.get r ≠ w.functionTables.get r →
    ∃ e, w.registry.slot handle = .idle e ∧ e.functions = r
  /-- The engine keeps its place and its tables, so it shares them with the same engines as before. -/
  own : ∀ e, w.registry.slot handle = .idle e → ∃ e', w'.registry.slot handle = .idle e' ∧
    e'.globals = e.globals ∧ e'.functions = e.functions
  host : w'.host = w.host
  output : w'.output = w.output

/-- The engines of the handles share neither table. -/
def Apart (handle handle' : Nat) (w : World ν σ) : Prop :=
  ∀ e e', w.registry.slot handle = .idle e → w.registry.slot handle' = .idle e' →
    e.globals ≠ e'.globals ∧ e.functions ≠ e'.functions

/-- The stacks are those of the engines of the world. -/
def ShownBy (s : ScopeStacks) (w : World ν σ) : Prop :=
  ∀ handle e, w.registry.slot handle = .idle e → ∃ k, s.stack handle = some k ∧
    k.global = e.globals ∧ k.scopes s.tables = (Machine.mk e w).scopes

/-- The worlds are the same, but for the order of the last calls of natives in the record that they
keep. -/
def SameButOrder (w v : World ν σ) : Prop :=
  { w with calls := [] } = { v with calls := [] } ∧
    ∃ first second earlier, w.calls = second ++ (first ++ earlier) ∧
      v.calls = first ++ (second ++ earlier)

end World

/-! ## What an operation changes -/

namespace World

/-- The world after an operation on the engine of a handle, which holds `x` then. -/
def settle (handle : Nat) (x : Holding ν) (w : World ν σ) : World ν σ :=
  { (x.within w).world with registry := w.registry.setSlot handle (.idle x.engine) }

/-- The world after an operation; `none` if the operation has been refused. -/
def after (handle : Nat) : Option (Holding ν) → World ν σ → World ν σ
  | none, w => w
  | some x, w => w.settle handle x

/-- Both worlds have the same in the place of a handle, and the same in the tables of an engine that
stands there. -/
structure SameAt (handle : Nat) (w v : World ν σ) : Prop where
  slot : v.registry.slot handle = w.registry.slot handle
  globals : ∀ e, w.registry.slot handle = .idle e →
    v.variableTables.find? e.globals = w.variableTables.find? e.globals
  functions : ∀ e, w.registry.slot handle = .idle e →
    v.functionTables.find? e.functions = w.functionTables.find? e.functions

lemma SameAt.refl (handle : Nat) (w : World ν σ) : SameAt handle w w :=
  ⟨rfl, fun _ _ => rfl, fun _ _ => rfl⟩

/-- An engine stands in the place of a handle, and the change has come from what it holds. -/
def Fits (handle : Nat) (change : Option (Holding ν)) (w : World ν σ) : Prop :=
  ∀ x, change = some x → ∃ e, w.registry.slot handle = .idle e ∧ Holding.CameFrom (.begin e w) x

variable {host : Host ν σ} {fuel handle : Nat} {program : Callback ν σ α} {w v : World ν σ}

/-- The world while the engine of a handle is running. -/
def occupy (handle : Nat) (w : World ν σ) : World ν σ :=
  { w with registry := w.registry.setSlot handle .busy }

/-- The world with an engine that has been running put back in its place. -/
def putBack (handle : Nat) (m : Machine ν σ) : World ν σ :=
  { m.world with registry := m.world.registry.setSlot handle (.idle m.engine) }

lemma onEngine_idle {e : Engine ν} (found : w.registry.slot handle = .idle e)
    (act : Machine ν σ → Option (α × Machine ν σ)) : w.onEngine handle act =
      (act ⟨e, w.occupy handle⟩).map fun done => (.ok done.1, putBack handle done.2) := by
  unfold onEngine
  rw [found]
  dsimp only
  unfold occupy
  cases act ⟨e, { w with registry := w.registry.setSlot handle .busy }⟩ <;> rfl

lemma putBack_within (handle : Nat) (x : Holding ν) (w : World ν σ) :
    putBack handle (x.within (w.occupy handle)) = w.settle handle x := by
  simp [putBack, settle, Holding.within, occupy, Registry.setSlot]

/-- An operation comes to the same in worlds that are the same at its handle: it is cut short in both,
or it has the same outcome and makes the same change. -/
lemma use_cases (inward : host.Inward) (fuel : Nat) (only : program.OnlyAsks Request.Inward)
    (same : w.SameAt handle v) :
    (w.use host fuel handle program = none ∧ v.use host fuel handle program = none) ∨
      ∃ outcome change, w.Fits handle change ∧
        w.use host fuel handle program = some (outcome, w.after handle change) ∧
        v.use host fuel handle program = some (outcome, v.after handle change) := by
  have slot := same.slot
  unfold use
  cases found : w.registry.slot handle with
  | free | busy =>
    -- The operation is refused.
    unfold onEngine
    rw [slot, found]
    exact .inr ⟨_, none, nofun, rfl, rfl⟩
  | idle e =>
    rw [onEngine_idle found, onEngine_idle (slot.trans found)]
    have here : (Holding.begin e w).within (w.occupy handle) = ⟨e, w.occupy handle⟩ :=
      Holding.begin_within rfl rfl
    have there : (Holding.begin e w).within (v.occupy handle) = ⟨e, v.occupy handle⟩ :=
      Holding.begin_within (same.globals e found) (same.functions e found)
    have start : Holding.Beside (.begin e w) (w.occupy handle) (v.occupy handle)
        ⟨e, w.occupy handle⟩ ⟨e, v.occupy handle⟩ :=
      ⟨.begin e w, .refl _, here.symm, there.symm⟩
    have both := Holding.run_beside (Holding.evaluate_beside inward fuel) only start
    obtain ⟨left, right⟩ | ⟨outcome, m, n, left, right, x, came, rfl, rfl⟩ := both.cases
    · rw [left, right]
      exact .inl ⟨rfl, rfl⟩
    · rw [left, right]
      simp only [Option.map_some, putBack_within]
      refine .inr ⟨_, some x, ?_, rfl, rfl⟩
      rintro _ ⟨⟩
      exact ⟨e, found, came⟩

variable {other : Nat} {change change' : Option (Holding ν)}

lemma Apart.symm (apart : w.Apart handle other) : w.Apart other handle := by
  intro e e' found found'
  obtain ⟨globals, functions⟩ := apart e' e found' found
  exact ⟨globals.symm, functions.symm⟩

lemma OnlyTouches.refl (handle : Nat) (w : World ν σ) : w.OnlyTouches handle w where
  others _ _ := rfl
  globals _ changed := absurd rfl changed
  functions _ changed := absurd rfl changed
  own e found := ⟨e, found, rfl, rfl⟩
  host := rfl
  output := rfl

lemma slot_settle {e : Engine ν} (found : w.registry.slot handle = .idle e) (x : Holding ν)
    (other : Nat) : (w.settle handle x).registry.slot other =
      if other = handle then .idle x.engine else w.registry.slot other :=
  Registry.slot_setSlot (Registry.lt_of_slot_ne (by rw [found]; exact nofun)) _ other

/-- What a change says about its engine. -/
lemma Fits.engine {x : Holding ν} (fits : w.Fits handle (some x)) : ∃ e,
    w.registry.slot handle = .idle e ∧ x.engine.globals = e.globals ∧
      x.engine.functions = e.functions ∧
      ∃ actions, x.scopes = ScopeAction.runAll actions (Machine.mk e w).scopes := by
  obtain ⟨e, found, globals, functions, actions, scopes⟩ := fits x rfl
  have start : (Holding.begin e w).scopes = (Machine.mk e w).scopes := by
    simp only [Holding.scopes, Holding.begin, Machine.scopes, Store.get_eq]
  exact ⟨e, found, globals, functions, actions, start ▸ scopes⟩

/-- A change does not reach beyond the engine and its tables. -/
lemma Fits.onlyTouches (fits : w.Fits handle change) :
    w.OnlyTouches handle (w.after handle change) := by
  cases change with
  | none => exact .refl handle w
  | some x =>
    obtain ⟨e, found, globals, functions, -⟩ := fits.engine
    refine ⟨fun other distinct => ?_, fun r changed => ?_, fun r changed => ?_, ?_, rfl, rfl⟩
    · exact (slot_settle found x other).trans (if_neg distinct)
    · by_contra unshared
      have elsewhere : r ≠ x.engine.globals := fun same =>
        unshared ⟨e, found, globals.symm.trans same.symm⟩
      exact changed (Store.get_place_of_ne elsewhere _ _)
    · by_contra unshared
      have elsewhere : r ≠ x.engine.functions := fun same =>
        unshared ⟨e, found, functions.symm.trans same.symm⟩
      exact changed (Store.get_place_of_ne elsewhere _ _)
    · intro e' found'
      cases found.symm.trans found'
      exact ⟨x.engine, (slot_settle found x handle).trans (if_pos rfl), globals, functions⟩

/-- A change of one engine makes no difference to an engine that shares no table with it. -/
lemma Fits.sameAt (fits : w.Fits other change) (distinct : handle ≠ other)
    (apart : w.Apart handle other) : w.SameAt handle (w.after other change) := by
  cases change with
  | none => exact .refl handle w
  | some x =>
    obtain ⟨e', found', globals, functions, -⟩ := fits.engine
    refine ⟨(slot_settle found' x handle).trans (if_neg distinct), fun e found => ?_,
      fun e found => ?_⟩
    · have elsewhere : e.globals ≠ x.engine.globals := globals.symm ▸ (apart e e' found found').1
      exact Store.find?_place_of_ne elsewhere _ _
    · have elsewhere : e.functions ≠ x.engine.functions :=
        functions.symm ▸ (apart e e' found found').2
      exact Store.find?_place_of_ne elsewhere _ _

lemma scopes_settle (handle : Nat) (x : Holding ν) (w : World ν σ) :
    (Machine.mk x.engine (w.settle handle x)).scopes = x.scopes :=
  x.scopes_within w

lemma scopes_settle_of_unshared {e : Engine ν} {x : Holding ν}
    (unshared : e.globals ≠ x.engine.globals) (handle : Nat) (w : World ν σ) :
    (Machine.mk e (w.settle handle x)).scopes = (Machine.mk e w).scopes := by
  simp only [Machine.scopes, settle, Holding.within, Store.get_place_of_ne unshared]

lemma scopes_settle_of_shared {e : Engine ν} {x : Holding ν}
    (shared : e.globals = x.engine.globals) (handle : Nat) (w : World ν σ) :
    (Machine.mk e (w.settle handle x)).scopes =
      { (Machine.mk e w).scopes with global := x.scopes.global } := by
  simp only [Machine.scopes, settle, Holding.within, Holding.scopes, shared, Store.get_place]

/-- A change can be made by way of the references, if the tables of blocks are owned. -/
lemma Fits.shownBy (fits : w.Fits handle change) {s : ScopeStacks} (owned : s.Owned)
    (shown : w.ShownBy s) : ∃ actions, (w.after handle change).ShownBy (s.actAll handle actions) := by
  cases change with
  | none => exact ⟨[], shown⟩
  | some x =>
    obtain ⟨e, found, globals, -, actions, scopes⟩ := fits.engine
    obtain ⟨k, onStack, sameGlobal, sameScopes⟩ := shown handle e found
    have samePlace : k.global = x.engine.globals := sameGlobal.trans globals.symm
    rw [← sameScopes] at scopes
    refine ⟨actions, fun other e' found' => ?_⟩
    rw [after, slot_settle found x other] at found'
    by_cases same : other = handle
    · subst same
      rw [if_pos rfl] at found'
      cases found'
      obtain ⟨k', onStack', sameGlobal', sameScopes'⟩ := owned.scopes_actAll onStack actions
      refine ⟨k', onStack', sameGlobal'.trans samePlace, ?_⟩
      rw [sameScopes', ← scopes, after, scopes_settle]
    · rw [if_neg same] at found'
      obtain ⟨k', onStack', sameGlobal', sameScopes'⟩ := shown other e' found'
      have spares := (owned.actAll handle actions).2
      refine ⟨k', (spares.stack other same).trans onStack', sameGlobal', ?_⟩
      by_cases shared : k'.global = k.global
      · have sharedThere : e'.globals = x.engine.globals :=
          sameGlobal'.symm.trans (shared.trans samePlace)
        rw [owned.scopes_of_shared onStack onStack' same shared, after,
          scopes_settle_of_shared sharedThere, sameScopes', ← scopes]
      · have unsharedThere : e'.globals ≠ x.engine.globals := fun there =>
          shared (sameGlobal'.trans (there.trans samePlace.symm))
        rw [owned.scopes_of_unshared onStack onStack' same shared, after,
          scopes_settle_of_unshared unsharedThere, sameScopes']

lemma SameButOrder.refl (w : World ν σ) : w.SameButOrder w :=
  ⟨rfl, [], [], w.calls, rfl, rfl⟩

/-- Changes of engines that share no table can be made in either order. -/
lemma Fits.sameButOrder (fits : w.Fits handle change) (fits' : w.Fits other change')
    (distinct : handle ≠ other) (apart : w.Apart handle other) :
    SameButOrder ((w.after handle change).after other change')
      ((w.after other change').after handle change) := by
  cases change with
  | none => exact .refl _
  | some x =>
    cases change' with
    | none => exact .refl _
    | some y =>
      obtain ⟨e, found, globals, functions, -⟩ := fits.engine
      obtain ⟨e', found', globals', functions', -⟩ := fits'.engine
      obtain ⟨variablesApart, functionsApart⟩ := apart e e' found found'
      rw [← globals, ← globals'] at variablesApart
      rw [← functions, ← functions'] at functionsApart
      refine ⟨?_, x.calls, y.calls, w.calls, rfl, rfl⟩
      simp only [after, settle, Holding.within, Registry.setSlot]
      rw [Store.place_comm variablesApart, Store.place_comm functionsApart,
        List.set_comm _ _ distinct]

/-- What an operation leaves is a change that fits. -/
lemma use_fits (inward : host.Inward) (only : program.OnlyAsks Request.Inward)
    {outcome : Except EngineError (Except String α)} {w' : World ν σ}
    (run : w.use host fuel handle program = some (outcome, w')) :
    ∃ change, w.Fits handle change ∧ w' = w.after handle change := by
  obtain ⟨cut, -⟩ | ⟨_, change, fits, ended, -⟩ := use_cases inward fuel only (.refl handle w)
  · rw [cut] at run
    cases run
  · rw [ended] at run
    cases run
    exact ⟨change, fits, rfl⟩

/-- What is done with engines that share no table can be done in either order.  Each operation makes the
same change whether it comes first or second, and the two changes can be exchanged. -/
lemma useBoth_swap (inward : host.Inward) (only : program.OnlyAsks Request.Inward)
    {program' : Callback ν σ β} (only' : program'.OnlyAsks Request.Inward) (distinct : handle ≠ other)
    (apart : w.Apart handle other) : EndAlike SameButOrder
      (w.useBoth host fuel handle program other program')
      ((w.useBoth host fuel other program' handle program).map (Prod.map Prod.swap id)) := by
  unfold useBoth
  obtain ⟨cut, -⟩ | ⟨outcome, change, fits, ended, -⟩ :=
    use_cases inward fuel only (.refl handle w)
  · rw [cut]
    obtain ⟨cut', -⟩ | ⟨outcome', change', fits', ended', -⟩ :=
      use_cases inward fuel only' (.refl other w)
    · rw [cut']
      exact .none
    · obtain ⟨-, again⟩ | ⟨_, _, -, ended, -⟩ :=
        use_cases inward fuel only (fits'.sameAt distinct apart)
      · simp only [ended', again]
        exact .none
      · rw [ended] at cut
        cases cut
  · rw [ended]
    obtain ⟨cut', again'⟩ | ⟨outcome', change', fits', ended', again'⟩ :=
      use_cases inward fuel only' (fits.sameAt distinct.symm apart.symm)
    · simp only [cut', again']
      exact .none
    · obtain ⟨cut, -⟩ | ⟨outcome₂, change₂, fits₂, ended₂, again⟩ :=
        use_cases inward fuel only (fits'.sameAt distinct apart)
      · rw [ended] at cut
        cases cut
      · simp only [ended', again', again]
        obtain ⟨rfl, after⟩ := Prod.mk.inj (Option.some.inj (ended.symm.trans ended₂))
        rw [after]
        exact .some ⟨rfl, fits₂.sameButOrder fits' distinct apart⟩

end World

/-! ## The main statement -/

open World in
/-- Engines are isolated from each other but for the tables that they share.

Let the natives act on nothing but the engine that calls them, and let a host do something with one
engine of a registry, evaluate scripts or anything else.  Then all other engines are afterwards what
they were before, and the only tables that can have changed are the two of the engine itself; so
another engine finds other global variables, or other natives, only if that very table is its own,
too.

The same is seen if the tables of blocks are kept by reference, as long as each of them belongs to one
block of one engine: then the operation opens and closes blocks and binds variables on the stack of its
engine only, this is what becomes of the world, the stacks of the others are spared, and the tables of
blocks stay owned.

If two engines share neither table, then what is done with both of them can be done in either order:
both orders are cut short, or both have the same outcomes and leave the same world. -/
theorem engines_isolated {host : Host ν σ} (inward : host.Inward) (fuel : Nat)
    {program : Callback ν σ α} (only : program.OnlyAsks Request.Inward)
    {program' : Callback ν σ β} (only' : program'.OnlyAsks Request.Inward)
    {handle other : Nat} (distinct : handle ≠ other) (w : World ν σ) :
    (∀ outcome w', w.use host fuel handle program = some (outcome, w') →
      w.OnlyTouches handle w' ∧
      ∀ s : ScopeStacks, s.Owned → w.ShownBy s → ∃ actions, w'.ShownBy (s.actAll handle actions) ∧
        s.Spares handle (s.actAll handle actions) ∧ (s.actAll handle actions).Owned) ∧
    (w.Apart handle other → EndAlike SameButOrder
      (w.useBoth host fuel handle program other program')
      ((w.useBoth host fuel other program' handle program).map (Prod.map Prod.swap id))) := by
  refine ⟨fun outcome w' run => ?_, useBoth_swap inward only only' distinct⟩
  obtain ⟨change, fits, rfl⟩ := use_fits inward only run
  refine ⟨fits.onlyTouches, fun s owned shown => ?_⟩
  obtain ⟨actions, shownAfter⟩ := fits.shownBy owned shown
  obtain ⟨ownedAfter, spares⟩ := owned.actAll handle actions
  exact ⟨actions, shownAfter, spares, ownedAfter⟩

/-- Two new engines, and natives that keep the first of their arguments in a variable. -/
theorem engines_isolated_on_new_engines :
    let host : Host Unit Unit := fun _ args => Callback.request (.bindGlobal "kept" args.head?)
    let w : World Unit Unit := (World.openEngine { host := () }).2.openEngine.2
    let s : ScopeStacks :=
      { tables := w.variableTables, stack := fun n => if n < 2 then some { global := ⟨n⟩ } else none }
    let first : Callback Unit Unit (Except ScriptError String) := .request (.evaluate "x = 1;")
    let second : Callback Unit Unit (Except ScriptError String) :=
      .ask (.register "keep" ()) fun _ => .request (.evaluateBlock "x = keep(2);")
    (∀ outcome w', w.use host 9 0 first = some (outcome, w') → w.OnlyTouches 0 w' ∧
      ∃ actions, w'.ShownBy (s.actAll 0 actions) ∧ s.Spares 0 (s.actAll 0 actions) ∧
        (s.actAll 0 actions).Owned) ∧
    EndAlike World.SameButOrder (w.useBoth host 9 0 first 1 second)
      ((w.useBoth host 9 1 second 0 first).map (Prod.map Prod.swap id)) := by
  intro host w s first second
  have inward : host.Inward := fun _ _ => .request trivial
  have only : first.OnlyAsks Request.Inward := .request trivial
  have only' : second.OnlyAsks Request.Inward := ⟨trivial, fun _ => .request trivial⟩
  obtain ⟨isolated, commute⟩ := engines_isolated inward 9 only only' Nat.zero_ne_one w
  have owned : s.Owned := by
    refine .of_no_blocks fun n k found => ?_
    obtain ⟨within, rfl⟩ : n < 2 ∧ _ = k := by simpa [s] using found
    exact ⟨rfl, within⟩
  have shown : w.ShownBy s := by
    intro n e found
    match n with
    | 0 | 1 =>
      cases found
      exact ⟨_, rfl, rfl, rfl⟩
    | n + 2 => cases found
  refine ⟨fun outcome w' run => ?_, commute ?_⟩
  · obtain ⟨touches, byReference⟩ := isolated outcome w' run
    exact ⟨touches, byReference s owned shown⟩
  · intro e e' found found'
    cases found
    cases found'
    exact ⟨by decide, by decide⟩

end ScriptEngine
