import ScriptEngine.Proofs.Evaluation.Related

/-!
# Evaluations in step

Two evaluators may differ in how they call natives, and their hosts in the state that they keep.  If a
relation between their machines shows a script the same on both sides, and is kept by whatever a
script does besides calling natives (`Machine.InStep`), then the evaluations are related as soon as
the calls are (`evaluateWith_pairs`).  Calls are related as soon as the natives are
(`callWith_pairs`).
-/

namespace ScriptEngine

variable {ν σ σ' : Type}

/-- On machines that `Q` relates a script finds the same variables, natives and result, and what it
does on both keeps them related. -/
structure Machine.InStep (Q : Machine ν σ → Machine ν σ' → Prop) : Prop where
  scopes {m : Machine ν σ} {n : Machine ν σ'} : Q m n → m.scopes = n.scopes
  functions {m : Machine ν σ} {n : Machine ν σ'} : Q m n → m.functions = n.functions
  result {m : Machine ν σ} {n : Machine ν σ'} : Q m n → m.engine.result = n.engine.result
  bind {m : Machine ν σ} {n : Machine ν σ'} (tier : Tier) (name : String) (value : Option String) :
    Q m n → Q (m.setScopes (m.scopes.bind tier name value))
      (n.setScopes (n.scopes.bind tier name value))
  markLine {m : Machine ν σ} {n : Machine ν σ'} (line : Nat) :
    Q m n → Q (m.markLine line) (n.markLine line)
  setResult {m : Machine ν σ} {n : Machine ν σ'} (text : String) :
    Q m n → Q (m.setResult text) (n.setResult text)
  noteCall {m : Machine ν σ} {n : Machine ν σ'} (call : NativeCall) :
    Q m n → Q (m.noteCall call) (n.noteCall call)
  beginInput {m : Machine ν σ} {n : Machine ν σ'} : Q m n → Q m.beginInput n.beginInput
  endInput {m : Machine ν σ} {n : Machine ν σ'} : Q m n → Q m.endInput n.endInput
  noteFailure {m : Machine ν σ} {n : Machine ν σ'} (script : String) (e : ScriptError) :
    Q m n → Q (m.noteFailure script e) (n.noteFailure script e)

/-- Calls a native by name, given what natives do. -/
def callWith (natives : ν → List String → Machine ν σ → Option (Except String Unit × Machine ν σ))
    (name : String) (args : List String) (span : Span) : Run ν σ String := fun m =>
  match m.functions[name]? with
  | none => Run.fail span (.undefinedProcedure name) m
  | some native =>
    match natives native args (m.noteCall ⟨name, args⟩) with
    | none => none
    | some (.error message, m) => Run.fail span (.native message) m
    | some (.ok (), m) => some (.ok m.engine.result, m)

lemma callNative_eq_callWith (host : Host ν σ) (evaluate : String → Run ν σ String) :
    callNative host evaluate = callWith fun native args => (host native args).run evaluate :=
  rfl

/-- Runs a native, given how its requests are answered. -/
def Callback.runWith {α : Type}
    (answer : (r : Request ν σ) → Machine ν σ → Option (r.Answer × Machine ν σ)) :
    Callback ν σ α → Machine ν σ → Option (Except String α × Machine ν σ)
  | .done a, m => some (.ok a, m)
  | .fail message, m => some (.error message, m)
  | .ask request next, m =>
    match answer request m with
    | none => none
    | some (a, m) => (next a).runWith answer m

lemma Callback.run_eq_runWith {α : Type} (evaluate : String → Run ν σ String)
    (x : Callback ν σ α) : x.run evaluate = x.runWith (answer evaluate) := by
  induction x with
  | done a => rfl
  | fail message => rfl
  | ask request next ih =>
    funext m
    unfold run runWith
    cases answer evaluate request m with
    | none => rfl
    | some asked => exact congrFun (ih asked.1) asked.2

/-- A native ends alike if the requests that it may put are answered alike. -/
lemma Callback.OnlyAsks.runWith_endAlike {α : Type} {Q : Machine ν σ → Machine ν σ → Prop}
    {answer answer' : (r : Request ν σ) → Machine ν σ → Option (r.Answer × Machine ν σ)}
    {allowed : Request ν σ → Prop}
    (answers : ∀ request, allowed request → ∀ m n, Q m n →
      EndAlike Q (answer request m) (answer' request n))
    {x : Callback ν σ α} (only : x.OnlyAsks allowed) {m n : Machine ν σ} (here : Q m n) :
    EndAlike Q (x.runWith answer m) (x.runWith answer' n) := by
  induction x generalizing m n with
  | done a => exact .some ⟨rfl, here⟩
  | fail message => exact .some ⟨rfl, here⟩
  | ask request next ih =>
    have both := answers request only.1 m n here
    unfold runWith
    obtain ⟨left, right⟩ | ⟨a, m', n', left, right, after⟩ := both.cases
    · rw [left, right]
      exact .none
    · rw [left, right]
      exact ih a (only.2 a) after

/-- A native ends alike if all its requests are answered alike. -/
lemma Callback.runWith_endAlike {α : Type} {Q : Machine ν σ → Machine ν σ → Prop}
    {answer answer' : (r : Request ν σ) → Machine ν σ → Option (r.Answer × Machine ν σ)}
    (answers : ∀ request m n, Q m n → EndAlike Q (answer request m) (answer' request n))
    (x : Callback ν σ α) {m n : Machine ν σ} (here : Q m n) :
    EndAlike Q (x.runWith answer m) (x.runWith answer' n) :=
  (OnlyAsks.of_all (fun _ => trivial) x).runWith_endAlike (fun request _ => answers request) here

namespace Machine.InStep

variable {Q : Machine ν σ → Machine ν σ' → Prop} (inStep : InStep Q)
include inStep

lemma callWith_pairs
    {natives : ν → List String → Machine ν σ → Option (Except String Unit × Machine ν σ)}
    {natives' : ν → List String → Machine ν σ' → Option (Except String Unit × Machine ν σ')}
    (related : ∀ native args m n, Q m n → EndAlike Q (natives native args m) (natives' native args n))
    (name : String) (args : List String) (span : Span) :
    Run.Pairs Q (callWith natives name args span) (callWith natives' name args span) := by
  intro m n here
  unfold callWith
  rw [inStep.functions here]
  cases n.functions[name]? with
  | none => exact .some ⟨rfl, here⟩
  | some native =>
    have both := related native args _ _ (inStep.noteCall ⟨name, args⟩ here)
    obtain ⟨left, right⟩ | ⟨outcome, m', n', left, right, after⟩ := EndAlike.cases both
    · simp only [left, right]
      exact .none
    · simp only [left, right]
      cases outcome with
      | error message => exact .some ⟨rfl, after⟩
      | ok _ => exact .some ⟨congrArg Except.ok (inStep.result after), after⟩

lemma handles (name : String) : RunRelation.Handles (Run.Pairs Q : RunRelation ν σ σ') id name where
  found span := by
    intro m n here
    unfold resolve
    rw [inStep.scopes here]
    split
    · exact .some ⟨rfl, here⟩
    · exact .some ⟨rfl, here⟩
  unknown d _ := by
    intro m n here
    rw [Declarator.mapSpan_id]
    unfold checkUndeclared
    rw [inStep.scopes here]
    split
    · exact .some ⟨rfl, here⟩
    · exact .some ⟨rfl, here⟩
  assigns v := by
    apply Run.Pairs.modify
    intro m n here
    have tier : m.scopes.assignTier name = n.scopes.assignTier name := by rw [inStep.scopes here]
    unfold Scopes.assign
    rw [tier]
    exact inStep.bind _ name (some v) here
  binds tier value := Run.Pairs.modify fun _ _ here => inStep.bind tier name value here

/-- Evaluations are related if the calls of natives are. -/
theorem evaluateWith_pairs {i : Interpreter ν σ} {i' : Interpreter ν σ'} (rounds : i.rounds = i'.rounds)
    (calls : ∀ name args span, Run.Pairs Q (i.invoke name args span) (i'.invoke name args span))
    (script : String) : Run.Pairs Q (evaluateWith i script) (evaluateWith i' script) := by
  have composes : RunRelation.ComposesStatements (Run.Pairs Q : RunRelation ν σ σ') id :=
    Run.Pairs.composesStatements (fun line _ _ here => inStep.markLine line here)
      fun v _ _ here => inStep.setResult v here
  have covers : RunRelation.CoversAll (Run.Pairs Q) id i i' (Script.ofText script).mentions := by
    intro mention _
    exact Run.Pairs.composes.covers mention (fun name _ => inStep.handles name)
      fun name _ => calls name
  intro m n here
  have both := Script.runText_related composes rounds script covers _ _ (inStep.beginInput here)
  unfold evaluateWith
  obtain ⟨left, right⟩ | ⟨outcome, m', n', left, right, after⟩ := EndAlike.cases both
  · rw [left, right]
    exact .none
  · rw [left, right]
    have finished := inStep.endInput after
    cases outcome with
    | error e => exact .some ⟨rfl, inStep.noteFailure script e finished⟩
    | ok flow => exact .some ⟨congrArg Except.ok (inStep.result finished), finished⟩

end Machine.InStep

/-! ## Relations that follow the registry -/

/-- The machines are the same, and their registry has a property. -/
def Machine.SameWithRegistry (p : Registry ν → Prop) (m n : Machine ν σ) : Prop :=
  m = n ∧ p m.world.registry

lemma Machine.SameWithRegistry.of_endAlike {α : Type} {p : Registry ν → Prop}
    {x y : Option (α × Machine ν σ)} (both : EndAlike (SameWithRegistry p) x y) {a : α}
    {m : Machine ν σ} (ended : y = some (a, m)) : p m.world.registry := by
  obtain ⟨-, cut⟩ | ⟨_, _, _, -, ended', same, holds⟩ := both.cases
  · rw [ended] at cut
    cases cut
  · rw [ended] at ended'
    cases ended'
    rwa [same] at holds

/-- A script does nothing to the registry by itself. -/
lemma Machine.inStep_sameWithRegistry (p : Registry ν → Prop) :
    InStep (SameWithRegistry p : Machine ν σ → Machine ν σ → Prop) where
  scopes := fun here => by rw [here.1]
  functions := fun here => by rw [here.1]
  result := fun here => by rw [here.1]
  bind := by
    rintro m _ tier name value ⟨rfl, holds⟩
    exact ⟨rfl, holds⟩
  markLine := by
    rintro m _ line ⟨rfl, holds⟩
    refine ⟨rfl, ?_⟩
    unfold markLine
    split <;> exact holds
  setResult := by
    rintro m _ text ⟨rfl, holds⟩
    exact ⟨rfl, holds⟩
  noteCall := by
    rintro m _ call ⟨rfl, holds⟩
    exact ⟨rfl, holds⟩
  beginInput := by
    rintro m _ ⟨rfl, holds⟩
    exact ⟨rfl, holds⟩
  endInput := by
    rintro m _ ⟨rfl, holds⟩
    refine ⟨rfl, ?_⟩
    unfold endInput
    split <;> exact holds
  noteFailure := by
    rintro m _ script e ⟨rfl, holds⟩
    exact ⟨rfl, holds⟩

/-- Only a request for another engine can touch the registry. -/
lemma Machine.answer_sameWithRegistry {p : Registry ν → Prop}
    {evaluate evaluate' : String → Run ν σ String}
    (nested : ∀ script, Run.Pairs (SameWithRegistry p) (evaluate script) (evaluate' script))
    (request : Request ν σ) (own : ∀ handle script, request ≠ .evaluateOn handle script)
    {m n : Machine ν σ} (here : SameWithRegistry p m n) :
    EndAlike (SameWithRegistry p) (answer evaluate request m) (answer evaluate' request n) := by
  cases request with
  | evaluateOn handle script => exact absurd rfl (own handle script)
  | evaluate script => exact nested script m n here
  | evaluateBlock script =>
    obtain ⟨rfl, holds⟩ := here
    have both := nested script m.openBlock.2 m.openBlock.2 ⟨rfl, holds⟩
    simp only [answer, evaluateBlockWith]
    obtain ⟨left, right⟩ | ⟨outcome, m', _, left, right, rfl, holds⟩ := EndAlike.cases both
    · rw [left, right]
      exact .none
    · rw [left, right]
      refine .some ⟨rfl, rfl, ?_⟩
      unfold closeBlock
      split <;> exact holds
  | closeBlock id =>
    obtain ⟨rfl, holds⟩ := here
    refine .some ⟨rfl, rfl, ?_⟩
    unfold closeBlock
    split <;> exact holds
  | _ =>
    obtain ⟨rfl, holds⟩ := here
    exact .some ⟨rfl, rfl, holds⟩

end ScriptEngine
