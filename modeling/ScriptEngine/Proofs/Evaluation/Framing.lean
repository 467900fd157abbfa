import Mathlib.Control.Monad.Basic
import ScriptEngine.Console.Transcript
import ScriptEngine.Proofs.Evaluation.Persistence

/-!
# What an evaluation leaves alone

A script writes only the variables that occur in it as the target of an assignment, of a step or of
a declaration (`Script.targets`), and it writes them only in the innermost and in the global table.
It never removes a name, and a variable that has a value goes on having one: only a declaration
binds a name without a value, and it refuses names that are known.

So if its natives leave the variables and the blocks alone, an evaluation changes the scopes within
that frame, however it ends (`evaluate_framed`).
-/

namespace ScriptEngine

variable {ν σ α : Type}

/-! ## Tables -/

/-- Only variables among `targets` have been written, none has been removed and none has lost its
value. -/
structure VariableTable.Framed (targets : List String) (t t' : VariableTable) : Prop where
  kept : ∀ name : String, name ∉ targets → t'[name]? = t[name]?
  known : ∀ name : String, name ∈ t → name ∈ t'
  valued : ∀ (name : String) (v : String), t[name]? = some (some v) → ∃ v', t'[name]? = some (some v')

namespace VariableTable.Framed

variable {targets : List String} {t t' t'' : VariableTable}

lemma refl (targets : List String) (t : VariableTable) : Framed targets t t :=
  ⟨fun _ _ => rfl, fun _ mem => mem, fun _ v value => ⟨v, value⟩⟩

lemma trans (first : Framed targets t t') (second : Framed targets t' t'') :
    Framed targets t t'' where
  kept name mem := (second.kept name mem).trans (first.kept name mem)
  known name mem := second.known name (first.known name mem)
  valued name v value := by
    obtain ⟨v', value'⟩ := first.valued name v value
    exact second.valued name v' value'

/-- Binding a target stays within the frame, unless it takes a value away. -/
lemma insert {name : String} (mem : name ∈ targets) {value : Option String}
    (unset : value = none → ∀ v, t[name]? ≠ some (some v)) :
    Framed targets t (t.insert name value) where
  kept other away := by
    have apart : name ≠ other := fun same => away (same ▸ mem)
    simp [Std.ExtTreeMap.getElem?_insert, apart]
  known other known := by
    rw [Std.ExtTreeMap.mem_insert]
    exact .inr known
  valued other v found := by
    rw [Std.ExtTreeMap.getElem?_insert]
    split
    · next same =>
      obtain rfl := Std.LawfulEqCmp.eq_of_compare same
      cases value with
      | none => exact absurd found (unset rfl v)
      | some v' => exact ⟨v', rfl⟩
    · exact ⟨v, found⟩

end VariableTable.Framed

/-! ## Scopes -/

/-- The blocks are the same, and so are the tables between the innermost one and the global one.  In
those two only variables among `targets` have been written. -/
structure Scopes.Framed (targets : List String) (s s' : Scopes) : Prop where
  opened : s'.opened = s.opened
  ids : s'.blocks.map Block.id = s.blocks.map Block.id
  between : s'.blocks.tail = s.blocks.tail
  current : VariableTable.Framed targets s.current s'.current
  global : VariableTable.Framed targets s.global s'.global

namespace Scopes.Framed

variable {targets : List String} {s s' s'' : Scopes} {name : String} {value : Option String}

lemma refl (targets : List String) (s : Scopes) : Framed targets s s :=
  ⟨rfl, rfl, rfl, .refl _ _, .refl _ _⟩

lemma trans (first : Framed targets s s') (second : Framed targets s' s'') :
    Framed targets s s'' where
  opened := second.opened.trans first.opened
  ids := second.ids.trans first.ids
  between := second.between.trans first.between
  current := first.current.trans second.current
  global := first.global.trans second.global

section

variable (mem : name ∈ targets)
include mem

lemma bindGlobal (unset : value = none → ∀ v, s.global[name]? ≠ some (some v)) :
    Framed targets s (s.bindGlobal name value) := by
  have written : VariableTable.Framed targets s.global (s.bindGlobal name value).global :=
    .insert mem unset
  obtain ⟨global, blocks, opened⟩ := s
  cases blocks with
  | nil => exact ⟨rfl, rfl, rfl, written, written⟩
  | cons b rest => exact ⟨rfl, rfl, rfl, .refl _ _, written⟩

lemma bindCurrent (unset : value = none → ∀ v, s.current[name]? ≠ some (some v)) :
    Framed targets s (s.bindCurrent name value) := by
  obtain ⟨global, blocks, opened⟩ := s
  cases blocks with
  | nil => exact bindGlobal mem unset
  | cons b rest => exact ⟨rfl, rfl, rfl, .insert mem unset, .refl _ _⟩

lemma bind (tier : Tier) (v : String) : Framed targets s (s.bind tier name (some v)) := by
  cases tier with
  | block => exact bindCurrent mem (by simp)
  | global => exact bindGlobal mem (by simp)

/-- A name that is not known has no value that could be lost. -/
lemma bindCurrent_of_unknown (unknown : s.lookup name = none) :
    Framed targets s (s.bindCurrent name none) := by
  apply bindCurrent mem
  intro _ v found
  obtain ⟨global, blocks, opened⟩ := s
  cases blocks with
  | nil =>
    simp only [Scopes.current] at found
    simp [Scopes.lookup, found] at unknown
  | cons b rest =>
    simp only [Scopes.current] at found
    simp [Scopes.lookup, found] at unknown

end
end Scopes.Framed

/-! ## Machines -/

namespace Machine

@[simp] lemma scopes_setScopes (s : Scopes) (m : Machine ν σ) : (m.setScopes s).scopes = s := by
  simp [scopes, setScopes]

@[simp] lemma scopes_beginInput (m : Machine ν σ) : m.beginInput.scopes = m.scopes := rfl

@[simp] lemma scopes_endInput (m : Machine ν σ) : m.endInput.scopes = m.scopes := by
  unfold endInput
  split <;> rfl

@[simp] lemma scopes_markLine (line : Nat) (m : Machine ν σ) :
    (m.markLine line).scopes = m.scopes := by
  unfold markLine
  split <;> rfl

@[simp] lemma scopes_noteFailure (script : String) (e : ScriptError) (m : Machine ν σ) :
    (m.noteFailure script e).scopes = m.scopes := rfl

end Machine

/-- The natives of the host leave the variables and the blocks as they are. -/
def Host.SparesScopes (host : Host ν σ) : Prop :=
  ∀ fuel native args m outcome m',
    (host native args).run (evaluate host fuel) m = some (outcome, m') → m'.scopes = m.scopes

/-! ## Evaluations -/

section

open RunRelation

variable {targets : List String} {i : Interpreter ν σ}

/-- The scopes change within a frame. -/
abbrev Machine.Framed (targets : List String) (m m' : Machine ν σ) : Prop :=
  m.scopes.Framed targets m'.scopes

lemma declareOne_framed {name : String} (mem : name ∈ targets) (span : Span) :
    Run.Refines (Machine.Framed targets) (Plain.declareOne i ⟨name, none, span⟩)
      (Plain.declareOne i ⟨name, none, span⟩) := by
  intro m outcome m' run
  refine ⟨run, ?_⟩
  cases found : m.scopes.lookup name with
  | some known =>
    have refused : checkUndeclared ⟨name, none, span⟩ m =
        some (.error ⟨.runtime (.alreadyDeclared name), span⟩, m) := by
      simp [checkUndeclared, found, Run.fail, Run.throw]
    rw [Plain.declareOne, Run.bind_of_error refused] at run
    cases run
    exact .refl targets _
  | none =>
    have checked : checkUndeclared ⟨name, none, span⟩ m = some (.ok (), m) := by
      simp [checkUndeclared, found]
    rw [Plain.declareOne, Run.bind_of_ok checked] at run
    cases run
    unfold Machine.Framed
    rw [Machine.scopes_setScopes]
    exact .bindCurrent_of_unknown mem found

lemma covers_framed (calls : ∀ name args span m outcome m',
      i.invoke name args span m = some (outcome, m') → m'.scopes = m.scopes)
    {mention : Mention} (mem : ∀ name, mention.target? = some name → name ∈ targets) :
    Covers (Run.Refines (Machine.Framed targets)) id i i mention := by
  have refl (m : Machine ν σ) : m.Framed targets m := .refl targets _
  have writes {change : Machine ν σ → Scopes} 
      (framed : ∀ m : Machine ν σ, m.scopes.Framed targets (change m)) :
      Run.Refines (Machine.Framed targets) (Run.modify fun m => m.setScopes (change m))
        (Run.modify fun m => m.setScopes (change m)) := by
    apply Run.Refines.modify
    intro m
    unfold Machine.Framed
    rw [Machine.scopes_setScopes]
    exact framed m
  cases mention with
  | read name => exact Run.Refines.resolve refl name
  | assign name => exact fun v => writes fun _ => .bind (mem name rfl) _ v
  | step name =>
    have puts := Run.Refines.composes refl fun _ _ _ first second => Scopes.Framed.trans first second
    exact puts.stepVariable (Run.Refines.resolve refl name) fun _ v =>
      writes fun _ => .bind (mem name rfl) _ v
  | declare name =>
    refine ⟨declareOne_framed (mem name rfl), fun initializer span => ?_, fun v => ?_⟩
    · rw [Declarator.mapSpan_id]
      exact Run.Refines.checkUndeclared refl _
    · exact writes fun _ => .bindCurrent (mem name rfl) (by simp)
  | call name =>
    intro args span m outcome m' run
    refine ⟨run, ?_⟩
    unfold Machine.Framed
    rw [calls name args span m outcome m' run]
    exact .refl targets _

end

namespace Host.SparesScopes

variable {host : Host ν σ} (spares : host.SparesScopes)
include spares

lemma runText {fuel : Nat} {text : String} {m m' : Machine ν σ}
    {outcome : Except ScriptError Flow}
    (run : Script.runText (.ofHost host fuel) text m = some (outcome, m')) :
    m.scopes.Framed (Script.ofText text).targets m'.scopes := by
  have composes : RunRelation.ComposesStatements
      (Run.Refines (Machine.Framed (Script.ofText text).targets) : RunRelation ν σ) id := by
    apply Run.Refines.composesStatements
    · exact fun m => .refl _ _
    · exact fun _ _ _ first second => Scopes.Framed.trans first second
    · intro line m
      unfold Machine.Framed
      rw [Machine.scopes_markLine]
      exact .refl _ _
    · exact fun v m => .refl _ _
  refine (Script.runText_related composes rfl text (fun mention mem => ?_) m outcome m' run).2
  apply covers_framed
  · intro name args span m outcome m' called
    exact callNative_keeps (Q := fun m m' => m'.scopes = m.scopes) (fun _ => rfl)
      (fun _ _ _ first second => second.trans first) (fun _ _ => rfl) (spares fuel) called
  · intro name target
    exact List.mem_filterMap.2 ⟨mention, mem, target⟩

end Host.SparesScopes

/-- Natives of the console leave the variables and the blocks as they are. -/
lemma ConsoleNative.host_sparesScopes : Host.SparesScopes ConsoleNative.host := by
  intro fuel native args m outcome m' run
  apply Callback.run_keeps (Q := fun m m' => m'.scopes = m.scopes) (fun _ => rfl)
    (fun _ _ _ first second => second.trans first) _ (host_onlyAsks native args) run
  rintro _ (⟨text, rfl⟩ | ⟨text, rfl⟩) m a m' ⟨⟩ <;> rfl

/-- An evaluation whose natives leave the variables and the blocks alone keeps its global table and
its stack of blocks.  It changes no table between the innermost one and the global one, and in those
two no variable but the targets of the script; no name is removed, and no variable loses its
value. -/
theorem evaluate_framed {host : Host ν σ} (spares : host.SparesScopes) {fuel : Nat}
    {script : String} {m m' : Machine ν σ} {outcome : Except ScriptError String}
    (run : evaluate host fuel script m = some (outcome, m')) :
    m'.engine.globals = m.engine.globals ∧
      m.scopes.Framed (Script.ofText script).targets m'.scopes := by
  refine ⟨(evaluate_standing host fuel script m outcome m' run).globals, ?_⟩
  cases fuel with
  | zero => cases run
  | succ fuel =>
    simp only [evaluate, evaluateWith] at run
    rcases carried : Script.runText (.ofHost host fuel) script m.beginInput with
      _ | ⟨e | flow, m₁⟩ <;> simp only [Interpreter.ofHost] at carried <;>
      simp only [carried] at run
    · cases run
    all_goals
      cases run
      have framed := spares.runText carried
      simpa using framed

/-- Inside a block, `x` is declared, stepped and then refused a second declaration.  The block stays
open, and `null`, which the script does not write, stays without a value. -/
theorem evaluate_framed_refused :
    ∃ m', evaluate ConsoleNative.host 9 "var x = len('abc')\nx++\nvar x"
          ConsoleMachine.start.openBlock.2 =
        some (.error ⟨.runtime (.alreadyDeclared "x"), ⟨27, 28, 3⟩⟩, m') ∧
      m'.scopes.lookup "x" = some (.block, some "4") ∧
      m'.scopes.blocks.map Block.id = [1] ∧
      m'.scopes.global["null"]? = some none := by
  have ended : (evaluate ConsoleNative.host 9 "var x = len('abc')\nx++\nvar x"
      ConsoleMachine.start.openBlock.2).map (fun r => (r.1, r.2.scopes.lookup "x")) =
        some (.error ⟨.runtime (.alreadyDeclared "x"), ⟨27, 28, 3⟩⟩, some (.block, some "4")) := by
    decide +kernel
  have targets : (Script.ofText "var x = len('abc')\nx++\nvar x").targets = ["x", "x", "x"] := by
    decide +kernel
  have unset : ConsoleMachine.start.openBlock.2.scopes.global["null"]? = some none := by
    decide +kernel
  obtain ⟨⟨_, m'⟩, run, same⟩ := Option.map_eq_some_iff.1 ended
  obtain ⟨rfl, bound⟩ := Prod.mk.inj same
  have framed := (evaluate_framed ConsoleNative.host_sparesScopes run).2
  rw [targets] at framed
  refine ⟨m', run, bound, framed.ids, ?_⟩
  rw [framed.global.kept "null" (by decide), unset]

end ScriptEngine
