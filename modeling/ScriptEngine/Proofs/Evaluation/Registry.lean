import Mathlib.Data.List.TakeWhile
import ScriptEngine.Proofs.Evaluation.InStep

/-!
# Registries

A registry is a map from handles to places (`Registry.slot`) that is free from some handle on.  Adding
an engine changes it at the lowest free handle and closing one at its handle; that the free places at
the end are given up makes no difference to the map.

While an engine runs, its place is busy, and afterwards the engine is back in it.  So an evaluation may
change the engines, but which places are taken, and which engines are running, stays the same
(`evaluate_sameShape`).
-/

namespace ScriptEngine

variable {ν σ α : Type}

/-! ## Places of a registry -/

namespace Registry

variable {handle : Nat} {r r' : Registry ν} {engine : Engine ν}

lemma slot_eq (handle : Nat) (r : Registry ν) : r.slot handle = r.slots[handle]?.getD .free :=
  List.getD_eq_getElem?_getD

/-- Behind the last place all are free. -/
lemma slot_of_le (behind : r.slots.length ≤ handle) : r.slot handle = .free := by
  rw [slot_eq, List.getElem?_eq_none behind]
  rfl

/-- A place that is not free is one that the registry has. -/
lemma lt_of_slot_ne (taken : r.slot handle ≠ .free) : handle < r.slots.length :=
  Nat.lt_of_not_le fun behind => taken (slot_of_le behind)

lemma slot_setSlot (within : handle < r.slots.length) (slot : Slot ν) (other : Nat) :
    (r.setSlot handle slot).slot other = if other = handle then slot else r.slot other := by
  rw [slot_eq, slot_eq, setSlot, List.getElem?_set]
  by_cases same : other = handle
  · rw [if_pos same, if_pos same.symm, if_pos within]
    rfl
  · rw [if_neg same, if_neg (Ne.symm same)]

lemma isFree_iff {slot : Slot ν} : slot.isFree = true ↔ slot = .free := by
  cases slot <;> simp [Slot.isFree]

/-- The engine gets the lowest place that is free, and the other places stay as they are. -/
lemma add_spec (engine : Engine ν) (r : Registry ν) :
    r.slot (r.add engine).1 = .free ∧ (∀ lower < (r.add engine).1, r.slot lower ≠ .free) ∧
      ∀ other, (r.add engine).2.slot other =
        if other = (r.add engine).1 then .idle engine else r.slot other := by
  unfold add
  cases found : r.slots.findIdx? Slot.isFree with
  | some handle =>
    obtain ⟨within, free, taken⟩ := List.findIdx?_eq_some_iff_getElem.1 found
    refine ⟨?_, fun lower below => ?_, slot_setSlot within _⟩
    · rw [slot_eq, List.getElem?_eq_getElem within]
      exact isFree_iff.1 free
    · rw [slot_eq, List.getElem?_eq_getElem (Nat.lt_trans below within)]
      exact fun free => taken lower below (isFree_iff.2 free)
  | none =>
    rw [List.findIdx?_eq_none_iff] at found
    refine ⟨slot_of_le (Nat.le_refl _), fun lower below => ?_, fun other => ?_⟩
    · rw [slot_eq, List.getElem?_eq_getElem below]
      intro free
      have taken := found _ (List.getElem_mem below)
      exact Bool.false_ne_true (taken.symm.trans (isFree_iff.2 free))
    · rw [slot_eq, slot_eq]
      dsimp only
      rw [List.getElem?_append]
      by_cases within : other < r.slots.length
      · rw [if_pos within, if_neg (Nat.ne_of_lt within)]
      · rw [if_neg within]
        by_cases last : other = r.slots.length
        · rw [if_pos last, last, Nat.sub_self]
          rfl
        · rw [if_neg last, List.getElem?_eq_none (Nat.le_of_not_lt within), List.getElem?_eq_none]
          simp only [List.length_singleton]
          omega

/-- The last place is not free. -/
def Trimmed (r : Registry ν) : Prop :=
  r.slots.getLast? ≠ some .free

lemma trimmed_iff : r.Trimmed ↔ ∀ last, r.slots.length = last + 1 → r.slot last ≠ .free := by
  unfold Trimmed
  rw [List.getLast?_eq_getElem?]
  constructor
  · intro trimmed last length free
    have within : last < r.slots.length := length ▸ Nat.lt_succ_self last
    rw [length, Nat.add_sub_cancel, List.getElem?_eq_getElem within] at trimmed
    rw [slot_eq, List.getElem?_eq_getElem within] at free
    exact trimmed (congrArg some free)
  · intro taken free
    have within := (List.getElem?_eq_some_iff.1 free).1
    refine taken (r.slots.length - 1) (by omega) ?_
    rw [slot_eq, free]
    rfl

lemma Trimmed.add (trimmed : r.Trimmed) (engine : Engine ν) : (r.add engine).2.Trimmed := by
  rw [trimmed_iff] at trimmed ⊢
  intro last length
  rw [(add_spec engine r).2.2 last]
  split
  · exact nofun
  · next other =>
    apply trimmed last
    unfold Registry.add at length other
    split at length
    · rwa [setSlot, List.length_set] at length
    · next none_free =>
      simp only [none_free, List.length_append, List.length_singleton] at length other
      omega

/-- Without the free places at the end. -/
def trim (r : Registry ν) : Registry ν :=
  ⟨(r.slots.reverse.dropWhile Slot.isFree).reverse⟩

lemma slot_trim (handle : Nat) (r : Registry ν) : r.trim.slot handle = r.slot handle := by
  have parts : r.slots = r.trim.slots ++ (r.slots.reverse.takeWhile Slot.isFree).reverse := by
    rw [trim, ← List.reverse_append, List.takeWhile_append_dropWhile, List.reverse_reverse]
  rw [slot_eq, slot_eq, parts, List.getElem?_append]
  by_cases within : handle < r.trim.slots.length
  · rw [if_pos within]
  · rw [if_neg within, List.getElem?_eq_none (Nat.le_of_not_lt within)]
    cases found : (r.slots.reverse.takeWhile Slot.isFree).reverse[handle - r.trim.slots.length]? with
    | none => rfl
    | some slot =>
      have mem := List.mem_reverse.1 (List.mem_of_getElem? found)
      exact (isFree_iff.1 (List.mem_takeWhile_imp mem)).symm

lemma trimmed_trim (r : Registry ν) : r.trim.Trimmed := by
  unfold Trimmed trim
  rw [List.getLast?_reverse]
  have first := List.head?_dropWhile_not Slot.isFree r.slots.reverse
  intro last
  rw [last] at first
  cases first

lemma close_of_free (free : r.slot handle = .free) : r.close handle = .error (.badHandle handle) :=
  if_pos (isFree_iff.2 free)

lemma close_of_taken (taken : r.slot handle ≠ .free) :
    r.close handle = .ok (r.setSlot handle .free).trim :=
  if_neg fun free => taken (isFree_iff.1 free)

/-- The handles of the engines. -/
def handles (r : Registry ν) : List Nat :=
  (List.range r.slots.length).filter fun handle => !(r.slot handle).isFree

lemma mem_handles : handle ∈ r.handles ↔ r.slot handle ≠ .free := by
  rw [handles, List.mem_filter, List.mem_range, Bool.not_eq_true', Bool.eq_false_iff, ne_eq, isFree_iff]
  exact and_iff_right_of_imp lt_of_slot_ne

lemma size_eq (r : Registry ν) : r.size = r.handles.length := by
  have slots : r.slots = (List.range r.slots.length).map (r.slot ·) := by
    refine List.ext_getElem (by simp) fun handle within _ => ?_
    rw [List.getElem_map, List.getElem_range, slot_eq, List.getElem?_eq_getElem within]
    rfl
  calc
    r.size = ((List.range r.slots.length).map (r.slot ·)).countP (!·.isFree) := by rw [← slots, size]
    _ = r.handles.length := by
      rw [handles, ← List.countP_eq_length_filter, List.countP_map]
      rfl

end Registry
/-! ## What an evaluation leaves of a registry -/

/-- Whether a place is taken, and whether its engine is running. -/
inductive Slot.State
  | free
  | idle
  | busy
deriving DecidableEq, Repr

def Slot.state : Slot ν → Slot.State
  | .free => .free
  | .idle _ => .idle
  | .busy => .busy

lemma Slot.state_eq_free {slot : Slot ν} : slot.state = .free ↔ slot = .free := by
  cases slot <;> simp [state]

lemma Slot.state_eq_busy {slot : Slot ν} : slot.state = .busy ↔ slot = .busy := by
  cases slot <;> simp [state]

lemma Slot.state_eq_idle {slot : Slot ν} : slot.state = .idle ↔ ∃ engine, slot = .idle engine := by
  cases slot <;> simp [state]

namespace Registry

variable {r r' r'' : Registry ν}

lemma state_slot (handle : Nat) (r : Registry ν) :
    (r.slot handle).state = (r.slots.map Slot.state)[handle]?.getD .free := by
  rw [slot_eq, List.getElem?_map]
  cases r.slots[handle]? <;> rfl

/-- The same places are taken, and the same engines are running. -/
def SameShape (r r' : Registry ν) : Prop :=
  r'.slots.map Slot.state = r.slots.map Slot.state

namespace SameShape

lemma refl (r : Registry ν) : SameShape r r :=
  rfl

lemma trans (first : SameShape r r') (second : SameShape r' r'') : SameShape r r'' :=
  Eq.trans second first

lemma state (same : SameShape r r') (handle : Nat) :
    (r'.slot handle).state = (r.slot handle).state := by
  rw [state_slot, state_slot, same]

lemma length (same : SameShape r r') : r'.slots.length = r.slots.length := by
  have lengths := congrArg List.length same
  rwa [List.length_map, List.length_map] at lengths

lemma trimmed (same : SameShape r r') (trimmed : r.Trimmed) : r'.Trimmed := by
  rw [trimmed_iff] at trimmed ⊢
  intro last length free
  rw [same.length] at length
  apply trimmed last length
  rw [← Slot.state_eq_free, ← same.state, Slot.state_eq_free]
  exact free

/-- An engine that has been running is put back in its place. -/
lemma putBack {handle : Nat} {engine engine' : Engine ν} (found : r.slot handle = .idle engine)
    (same : SameShape (r.setSlot handle .busy) r') :
    SameShape r (r'.setSlot handle (.idle engine')) := by
  have state := r.state_slot handle
  have within : handle < (r.slots.map Slot.state).length := by
    rw [List.length_map]
    exact lt_of_slot_ne (by rw [found]; exact nofun)
  rw [found, List.getElem?_eq_getElem within] at state
  unfold SameShape setSlot at *
  rw [List.map_set, same, List.map_set, List.set_set]
  change (r.slots.map Slot.state).set handle .idle = _
  rw [show Slot.State.idle = (r.slots.map Slot.state)[handle] from state, List.set_getElem_self]

end SameShape
end Registry

/-- What runs on an engine keeps the shape of the registry if it does so while the engine is running. -/
lemma World.onEngine_sameShape {handle : Nat} {act : Machine ν σ → Option (α × Machine ν σ)}
    (kept : ∀ m a m', act m = some (a, m') → m.world.registry.SameShape m'.world.registry)
    {w w' : World ν σ} {outcome : Except EngineError α}
    (run : w.onEngine handle act = some (outcome, w')) : w.registry.SameShape w'.registry := by
  unfold World.onEngine at run
  cases found : w.registry.slot handle with
  | free =>
    rw [found] at run
    cases run
    exact .refl _
  | busy =>
    rw [found] at run
    cases run
    exact .refl _
  | idle engine =>
    rw [found] at run
    dsimp only at run
    rcases acted : act ⟨engine, { w with registry := w.registry.setSlot handle .busy }⟩ with
      _ | ⟨a, ⟨engine', w₁⟩⟩ <;> rw [acted] at run
    · cases run
    · cases run
      exact .putBack found (kept _ _ _ acted)

lemma evaluateOnWith_sameShape {evaluate : String → Run ν σ String}
    (kept : ∀ script m outcome m', evaluate script m = some (outcome, m') →
      m.world.registry.SameShape m'.world.registry) {handle : Nat} {script : String}
    {w w' : World ν σ} {outcome : Except EngineError String}
    (run : evaluateOnWith evaluate handle script w = some (outcome, w')) :
    w.registry.SameShape w'.registry := by
  unfold evaluateOnWith at run
  rcases asked : w.onEngine handle (evaluate script) with _ | ⟨answered, w₁⟩ <;> rw [asked] at run
  · cases run
  · have same := World.onEngine_sameShape (kept script) asked
    rcases answered with e | e | value <;> cases run <;> exact same

section

open Machine

/-- A computation that is related to itself keeps the shape of the registry. -/
lemma sameShape_of_pairs {x : Run ν σ α}
    (pairs : ∀ r : Registry ν, Run.Pairs (SameWithRegistry r.SameShape) x x) {m m' : Machine ν σ}
    {outcome : Except ScriptError α} (run : x m = some (outcome, m')) :
    m.world.registry.SameShape m'.world.registry :=
  SameWithRegistry.of_endAlike (pairs m.world.registry m m ⟨rfl, .refl _⟩) run

variable {evaluate : String → Run ν σ String}
  (nested : ∀ script (r : Registry ν),
    Run.Pairs (SameWithRegistry r.SameShape) (evaluate script) (evaluate script))
include nested

lemma answer_sameShape (r : Registry ν) (request : Request ν σ) (m n : Machine ν σ)
    (here : SameWithRegistry r.SameShape m n) : EndAlike (SameWithRegistry r.SameShape)
      (answer evaluate request m) (answer evaluate request n) := by
  cases request with
  | evaluateOn handle script =>
    obtain ⟨rfl, same⟩ := here
    simp only [answer]
    rcases asked : evaluateOnWith evaluate handle script m.world with _ | ⟨outcome, w⟩
    · exact .none
    · refine .some ⟨rfl, rfl, same.trans ?_⟩
      apply evaluateOnWith_sameShape _ asked
      intro script m outcome m' run
      exact sameShape_of_pairs (nested script) run
  | _ =>
    refine answer_sameWithRegistry (nested · r) _ ?_ here
    rintro _ _ ⟨⟩

/-- What a host does on an engine keeps the shape of the registry. -/
lemma Callback.run_sameShape (x : Callback ν σ α) (r : Registry ν) {m n : Machine ν σ}
    (here : SameWithRegistry r.SameShape m n) :
    EndAlike (SameWithRegistry r.SameShape) (x.run evaluate m) (x.run evaluate n) := by
  rw [Callback.run_eq_runWith]
  exact Callback.runWith_endAlike (answer_sameShape nested r) x here

end

/-- An evaluation opens and closes no engine, and it leaves no engine running. -/
theorem evaluate_sameShape (host : Host ν σ) (fuel : Nat) (script : String) (r : Registry ν) :
    Run.Pairs (Machine.SameWithRegistry r.SameShape) (evaluate host fuel script)
      (evaluate host fuel script) := by
  induction fuel generalizing script r with
  | zero => exact fun _ _ _ => .none
  | succ fuel ih =>
    have inStep := Machine.inStep_sameWithRegistry (ν := ν) (σ := σ) r.SameShape
    apply inStep.evaluateWith_pairs rfl
    simp only [callNative_eq_callWith]
    apply inStep.callWith_pairs
    intro native args m n here
    exact (host native args).run_sameShape ih r here

end ScriptEngine
