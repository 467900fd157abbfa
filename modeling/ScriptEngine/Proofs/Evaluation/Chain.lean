import ScriptEngine.Session
import ScriptEngine.Proofs.Evaluation.Registry

/-!
# The chain of engines in progress

A native may evaluate a script on another engine of the registry, the natives of that one on yet
another, and so on.  The engines of such a chain are all in progress until their evaluations have
returned, and none of them can be evaluated on meanwhile: a native that asks for it is answered that
the engine is busy.

The registry finds this out from the marks that it leaves in the places of the engines.  Here the
evaluator is set up a second time with the chain itself (`evaluateAlong`): a handle joins the chain
when an evaluation on its engine begins, the chain is handed down to the natives of that evaluation,
and behind it the one before is in force again.  An engine is refused if its handle is on the chain,
and marks are not looked at.  As long as the marks are those of the chain (`Registry.BusyOn`) both
evaluators do the same, and the marks go on to be those of the chain (`busy_exactly_on_chain`).
-/

namespace ScriptEngine

variable {ν σ : Type}

/-! ## Evaluating along a chain -/

/-- Evaluates a script on the engine of a handle, unless the handle is on the chain of those in
progress. -/
def evaluateOnAlong (evaluate : (chain : List Nat) → String → Run ν σ String) (chain : List Nat)
    (handle : Nat) (script : String) (w : World ν σ) :
    Option (Except EngineError String × World ν σ) :=
  if handle ∈ chain then
    some (.error (.busy handle), w)
  else
    match w.registry.slot handle with
    | .idle engine =>
      match evaluate (handle :: chain) script
          ⟨engine, { w with registry := w.registry.setSlot handle .busy }⟩ with
      | none => none
      | some (outcome, ⟨engine, w⟩) =>
        some (outcome.mapError .script,
          { w with registry := w.registry.setSlot handle (.idle engine) })
    | _ => some (.error (.badHandle handle), w)

/-- The answer to what a native asks while the engines of the chain are in progress. -/
def answerAlong (evaluate : (chain : List Nat) → String → Run ν σ String) (chain : List Nat) :
    (r : Request ν σ) → Machine ν σ → Option (r.Answer × Machine ν σ)
  | .evaluateOn handle script, m =>
    match evaluateOnAlong evaluate chain handle script m.world with
    | none => none
    | some (outcome, world) => some (outcome, { m with world })
  | r, m => answer (evaluate chain) r m

/-- Evaluates a script while the engines of the chain are in progress. -/
def evaluateAlong (host : Host ν σ) : (fuel : Nat) → (chain : List Nat) → String → Run ν σ String
  | 0, _, _ => Run.cutShort
  | fuel + 1, chain, script =>
    evaluateWith
      ⟨callWith fun native args =>
        (host native args).runWith (answerAlong (evaluateAlong host fuel) chain), fuel⟩ script

/-! ## Marks in the registry -/

namespace Registry

variable {chain : List Nat} {handle : Nat} {r r' : Registry ν} {engine : Engine ν}

/-- The engines that are marked as running are those of the chain. -/
def BusyOn (chain : List Nat) (r : Registry ν) : Prop :=
  ∀ handle, r.slot handle = .busy ↔ handle ∈ chain

/-- No engine is running. -/
lemma busyOn_nil (quiet : ∀ state ∈ r.slots.map Slot.state, state ≠ .busy) : r.BusyOn [] := by
  intro handle
  refine iff_of_false (fun busy => ?_) List.not_mem_nil
  rw [← Slot.state_eq_busy, state_slot] at busy
  cases found : (r.slots.map Slot.state)[handle]? with
  | none =>
    rw [found] at busy
    cases busy
  | some state =>
    rw [found] at busy
    exact quiet state (List.mem_of_getElem? found) busy

/-- An engine begins to run. -/
lemma BusyOn.begin (marked : r.BusyOn chain) (found : r.slot handle = .idle engine) :
    (r.setSlot handle .busy).BusyOn (handle :: chain) := by
  have within := lt_of_slot_ne (r := r) (by rw [found]; exact nofun)
  intro other
  rw [slot_setSlot within, List.mem_cons, ← marked other]
  split
  · next same => exact iff_of_true rfl (.inl same)
  · next apart => exact (or_iff_right apart).symm

/-- The engine that began to run last is back in its place. -/
lemma BusyOn.end (marked : r.BusyOn (handle :: chain)) (away : handle ∉ chain) :
    (r.setSlot handle (.idle engine)).BusyOn chain := by
  have within := lt_of_slot_ne (r := r) (by rw [(marked handle).2 List.mem_cons_self]; exact nofun)
  intro other
  rw [slot_setSlot within]
  split
  · next same => exact iff_of_false nofun (same ▸ away)
  · next apart =>
    rw [marked other, List.mem_cons]
    exact or_iff_right apart

end Registry

/-! ## The two evaluators -/

section

open Machine

variable {along : List Nat → String → Run ν σ String} {evaluate : String → Run ν σ String}
  (nested : ∀ chain script, Run.Pairs (SameWithRegistry (Registry.BusyOn chain))
    (along chain script) (evaluate script))
include nested

lemma evaluateOn_along {chain : List Nat} {w : World ν σ} (marked : w.registry.BusyOn chain)
    (handle : Nat) (script : String) :
    EndAlike (fun w w' => w = w' ∧ w'.registry.BusyOn chain)
      (evaluateOnAlong along chain handle script w) (evaluateOnWith evaluate handle script w) := by
  unfold evaluateOnAlong evaluateOnWith World.onEngine
  by_cases mem : handle ∈ chain
  · rw [if_pos mem, (marked handle).2 mem]
    exact .some ⟨rfl, rfl, marked⟩
  rw [if_neg mem]
  cases found : w.registry.slot handle with
  | free => exact .some ⟨rfl, rfl, marked⟩
  | busy => exact absurd ((marked handle).1 found) mem
  | idle engine =>
    have both := nested (handle :: chain) script
      ⟨engine, { w with registry := w.registry.setSlot handle .busy }⟩ _ ⟨rfl, marked.begin found⟩
    dsimp only
    obtain ⟨left, right⟩ | ⟨outcome, m, _, left, right, rfl, marked⟩ := EndAlike.cases both
    · rw [left, right]
      exact .none
    · rw [left, right]
      cases outcome with
      | error e => exact .some ⟨rfl, rfl, marked.end mem⟩
      | ok value => exact .some ⟨rfl, rfl, marked.end mem⟩

lemma answer_along (chain : List Nat) (request : Request ν σ) (m n : Machine ν σ)
    (here : SameWithRegistry (Registry.BusyOn chain) m n) :
    EndAlike (SameWithRegistry (Registry.BusyOn chain)) (answerAlong along chain request m)
      (answer evaluate request n) := by
  cases request with
  | evaluateOn handle script =>
    obtain ⟨rfl, marked⟩ := here
    have both := evaluateOn_along nested marked handle script
    simp only [answerAlong, answer]
    obtain ⟨left, right⟩ | ⟨outcome, world, _, left, right, rfl, marked⟩ := both.cases
    · rw [left, right]
      exact .none
    · rw [left, right]
      exact .some ⟨rfl, rfl, marked⟩
  | _ =>
    refine answer_sameWithRegistry (nested chain) _ ?_ here
    rintro _ _ ⟨⟩

end

/-- While the marks are those of the chain, the evaluators do the same, and they leave such marks. -/
lemma evaluate_along (host : Host ν σ) (fuel : Nat) (chain : List Nat) (script : String) :
    Run.Pairs (Machine.SameWithRegistry (Registry.BusyOn chain)) (evaluateAlong host fuel chain script)
      (evaluate host fuel script) := by
  induction fuel generalizing chain script with
  | zero => exact fun _ _ _ => .none
  | succ fuel ih =>
    have inStep := Machine.inStep_sameWithRegistry (ν := ν) (σ := σ) (Registry.BusyOn chain)
    apply inStep.evaluateWith_pairs
    · rfl
    simp only [callNative_eq_callWith]
    apply inStep.callWith_pairs
    intro native args m n here
    rw [Callback.run_eq_runWith]
    exact Callback.runWith_endAlike (answer_along ih chain) _ here

/-- Along a chain, "busy" is the answer for the handles of the chain and for no others. -/
lemma evaluateOnAlong_busy {along : List Nat → String → Run ν σ String} {chain : List Nat}
    {handle : Nat} {script : String} {w w' : World ν σ} {outcome : Except EngineError String}
    (ended : evaluateOnAlong along chain handle script w = some (outcome, w')) :
    (outcome = .error (.busy handle) ↔ handle ∈ chain) ∧
      ∀ other, outcome = .error (.busy other) → other = handle ∧ w' = w := by
  unfold evaluateOnAlong at ended
  by_cases mem : handle ∈ chain
  · rw [if_pos mem] at ended
    cases ended
    refine ⟨iff_of_true rfl mem, ?_⟩
    rintro _ ⟨⟩
    exact ⟨rfl, rfl⟩
  · rw [if_neg mem] at ended
    have idle : ∀ other, outcome ≠ .error (.busy other) := by
      intro other busy
      split at ended
      · split at ended
        · cases ended
        · next e _ _ _ =>
          cases e <;> cases ended <;> cases busy
      · cases ended
        cases busy
    exact ⟨iff_of_false (idle handle) mem, fun other busy => absurd busy (idle other)⟩

/-- Natives evaluate on other engines, and the natives of those on further ones, to any depth; no engine
is opened or closed meanwhile.  The engines of `chain` are in progress, none in the case of an outermost
evaluation.

Then all goes as if every native were told which engines are in progress, and were refused exactly
those.  In particular, an evaluation on the engine of a handle is answered with "busy" if and only if
the handle is on the chain, and such an answer leaves everything as it is.  Whether the evaluation
succeeds or fails, the engines of the chain are in progress afterwards and no others. -/
theorem busy_exactly_on_chain (host : Host ν σ) (fuel : Nat) (chain : List Nat) {w : World ν σ}
    (marked : w.registry.BusyOn chain) (script : String) :
    (∀ engine, evaluate host fuel script ⟨engine, w⟩ = evaluateAlong host fuel chain script ⟨engine, w⟩ ∧
      ∀ outcome m', evaluate host fuel script ⟨engine, w⟩ = some (outcome, m') →
        m'.world.registry.BusyOn chain) ∧
    ∀ handle, evaluateOnWith (evaluate host fuel) handle script w =
        evaluateOnAlong (evaluateAlong host fuel) chain handle script w ∧
      ∀ outcome w', evaluateOnWith (evaluate host fuel) handle script w = some (outcome, w') →
        (outcome = .error (.busy handle) ↔ handle ∈ chain) ∧
        (∀ other, outcome = .error (.busy other) → other = handle ∧ w' = w) ∧
        w'.registry.BusyOn chain := by
  constructor
  · intro engine
    have both := evaluate_along host fuel chain script ⟨engine, w⟩ _ ⟨rfl, marked⟩
    obtain ⟨left, right⟩ | ⟨outcome, m, _, left, right, rfl, kept⟩ := EndAlike.cases both
    · rw [left, right]
      exact ⟨rfl, by rintro _ _ ⟨⟩⟩
    · rw [left, right]
      refine ⟨rfl, ?_⟩
      rintro _ _ ⟨⟩
      exact kept
  · intro handle
    have both := evaluateOn_along (evaluate_along host fuel) marked handle script
    obtain ⟨left, right⟩ | ⟨outcome, w', _, left, right, rfl, kept⟩ := both.cases
    · rw [left, right]
      exact ⟨rfl, by rintro _ _ ⟨⟩⟩
    · obtain ⟨busy, unchanged⟩ := evaluateOnAlong_busy left
      rw [left, right]
      refine ⟨rfl, ?_⟩
      rintro _ _ ⟨⟩
      exact ⟨busy, unchanged, kept⟩

/-- The first engine evaluates on the second one, twice.  The second time a script there tries to
evaluate on the first engine, which is refused, and catches the error.  In the end no engine is
running. -/
theorem busy_exactly_on_chain_and_back :
    (Session.start 2 false).world.registry.BusyOn [] ∧
      ∃ w', evaluateOnWith (evaluate SessionNative.host 9) 0
          "other(1, '6')\nother(1, 'try(\"other(0, 5)\")')" (Session.start 2 false).world =
        some (.ok "err:engine 0 is already evaluating; use the engine passed to the callback", w') ∧
        w'.registry.BusyOn [] := by
  have ended : (evaluateOnWith (evaluate SessionNative.host 9) 0
      "other(1, '6')\nother(1, 'try(\"other(0, 5)\")')" (Session.start 2 false).world).map Prod.fst =
        some (.ok "err:engine 0 is already evaluating; use the engine passed to the callback") := by
    decide +kernel
  have marked : (Session.start 2 false).world.registry.BusyOn [] :=
    Registry.busyOn_nil (by decide +kernel)
  obtain ⟨⟨_, w'⟩, run, rfl⟩ := Option.map_eq_some_iff.1 ended
  have after := ((busy_exactly_on_chain SessionNative.host 9 [] marked _).2 0).2 _ w' run
  exact ⟨marked, w', run, after.2.2⟩

end ScriptEngine
