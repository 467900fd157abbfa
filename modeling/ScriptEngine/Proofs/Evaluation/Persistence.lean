import ScriptEngine.Proofs.Evaluation.Related

/-!
# What an evaluation cannot change

Whatever its natives do, an engine keeps its tables and its user data, and the evaluations that
enclose the one that is running keep their lines.  While an evaluation is in progress the innermost
line moves on (`Engine.Steady`); once it is over even that line is gone, and the stack of lines is
what it was (`evaluate_standing`).

Natives call evaluations and evaluations call natives, so the statement about whole evaluations is
an induction on the fuel, with the statement about less fuel for what natives evaluate.
-/

namespace ScriptEngine

variable {ν σ α : Type}

/-- The engine is the same but for its variables, its results and the line of its innermost
evaluation. -/
structure Engine.Steady (e e' : Engine ν) : Prop where
  globals : e'.globals = e.globals
  functions : e'.functions = e.functions
  userData : e'.userData = e.userData
  depth : e'.inputs.length = e.inputs.length
  outer : e'.inputs.tail = e.inputs.tail

/-- The engine is steady, and its innermost evaluation is on the same line. -/
structure Engine.Standing (e e' : Engine ν) : Prop where
  globals : e'.globals = e.globals
  functions : e'.functions = e.functions
  userData : e'.userData = e.userData
  inputs : e'.inputs = e.inputs

namespace Engine

variable {e e' e'' : Engine ν}

lemma Standing.refl (e : Engine ν) : Standing e e :=
  ⟨rfl, rfl, rfl, rfl⟩

lemma Standing.trans (first : Standing e e') (second : Standing e' e'') : Standing e e'' where
  globals := second.globals.trans first.globals
  functions := second.functions.trans first.functions
  userData := second.userData.trans first.userData
  inputs := second.inputs.trans first.inputs

lemma Standing.steady (standing : Standing e e') : Steady e e' where
  globals := standing.globals
  functions := standing.functions
  userData := standing.userData
  depth := congrArg List.length standing.inputs
  outer := congrArg List.tail standing.inputs

lemma Steady.refl (e : Engine ν) : Steady e e :=
  (Standing.refl e).steady

lemma Steady.trans (first : Steady e e') (second : Steady e' e'') : Steady e e'' where
  globals := second.globals.trans first.globals
  functions := second.functions.trans first.functions
  userData := second.userData.trans first.userData
  depth := second.depth.trans first.depth
  outer := second.outer.trans first.outer

end Engine

namespace Machine

lemma markLine_steady (line : Nat) (m : Machine ν σ) :
    m.engine.Steady (m.markLine line).engine := by
  obtain ⟨⟨_, _, _, _, _, _, _, inputs, _⟩, _⟩ := m
  cases inputs <;> exact ⟨rfl, rfl, rfl, rfl, rfl⟩

lemma setResult_standing (text : String) (m : Machine ν σ) :
    m.engine.Standing (m.setResult text).engine :=
  ⟨rfl, rfl, rfl, rfl⟩

lemma setScopes_standing (s : Scopes) (m : Machine ν σ) :
    m.engine.Standing (m.setScopes s).engine :=
  ⟨rfl, rfl, rfl, rfl⟩

lemma closeBlock_standing (id : Nat) (m : Machine ν σ) :
    m.engine.Standing (m.closeBlock id).2.engine := by
  unfold closeBlock
  split
  · exact setScopes_standing _ m
  · exact .refl _

/-- At the end of an evaluation that was steady the engine stands where it stood before. -/
lemma endInput_standing {m m' : Machine ν σ} (steady : m.beginInput.engine.Steady m'.engine) :
    m.engine.Standing m'.endInput.engine := by
  obtain ⟨⟨globals, functions, _, _, userData, _, _, inputs, _⟩, _⟩ := m'
  obtain ⟨rfl, rfl, rfl, depth, outer⟩ := steady
  cases inputs with
  | nil => cases depth
  | cons line rest => exact ⟨rfl, rfl, rfl, outer⟩

lemma noteFailure_standing (script : String) (e : ScriptError) (m : Machine ν σ) :
    m.engine.Standing (m.noteFailure script e).engine :=
  ⟨rfl, rfl, rfl, rfl⟩

end Machine

/-! ## Natives -/

section

variable {evaluate : String → Run ν σ String} {m m' : Machine ν σ}
  (nested : ∀ script m outcome m', evaluate script m = some (outcome, m') →
    m.engine.Standing m'.engine)
include nested

lemma answer_standing {request : Request ν σ} {a : request.Answer}
    (asked : answer evaluate request m = some (a, m')) : m.engine.Standing m'.engine := by
  cases request with
  | evaluate script => exact nested script m a m' asked
  | evaluateBlock script =>
    simp only [answer, evaluateBlockWith] at asked
    rcases run : evaluate script m.openBlock.2 with _ | ⟨outcome, m₁⟩ <;> simp only [run] at asked
    · cases asked
    · cases asked
      have opened : m.engine.Standing m.openBlock.2.engine := ⟨rfl, rfl, rfl, rfl⟩
      exact (opened.trans (nested _ _ _ _ run)).trans (m₁.closeBlock_standing _)
  | evaluateOn handle script =>
    -- The running engine is not the one that is asked.
    simp only [answer] at asked
    split at asked
    · cases asked
    · cases asked
      exact .refl _
  | closeBlock id =>
    obtain ⟨rfl, rfl⟩ := Prod.mk.inj (Option.some.inj asked)
    exact m.closeBlock_standing id
  | _ =>
    cases asked
    exact ⟨rfl, rfl, rfl, rfl⟩

lemma callNative_standing (host : Host ν σ) {name : String} {args : List String} {span : Span}
    {outcome : Except ScriptError String}
    (run : callNative host evaluate name args span m = some (outcome, m')) :
    m.engine.Standing m'.engine := by
  let Q (m m' : Machine ν σ) : Prop := m.engine.Standing m'.engine
  have refl (m : Machine ν σ) : Q m m := .refl _
  have trans (m₀ m₁ m₂ : Machine ν σ) (first : Q m₀ m₁) (second : Q m₁ m₂) : Q m₀ m₂ :=
    Engine.Standing.trans first second
  apply callNative_keeps (Q := Q) refl trans (fun _ m => refl m) _ run
  intro native args m outcome m' called
  exact Callback.run_keeps (Q := Q) refl trans (fun _ _ _ _ _ => answer_standing nested)
    (.of_all (fun _ => trivial) (host native args)) called

end

/-! ## Evaluations -/

/-- Carrying out a script keeps the engine steady if its calls do. -/
lemma Script.runText_steady {i : Interpreter ν σ}
    (calls : ∀ name args span m outcome m', i.invoke name args span m = some (outcome, m') →
      m.engine.Standing m'.engine) {text : String} {m m' : Machine ν σ}
    {outcome : Except ScriptError Flow} (run : runText i text m = some (outcome, m')) :
    m.engine.Steady m'.engine := by
  let Q (m m' : Machine ν σ) : Prop := m.engine.Steady m'.engine
  have refl (m : Machine ν σ) : Q m m := .refl _
  have trans (m₀ m₁ m₂ : Machine ν σ) (first : Q m₀ m₁) (second : Q m₁ m₂) : Q m₀ m₂ :=
    Engine.Steady.trans first second
  have composes : RunRelation.ComposesStatements (Run.Refines Q : RunRelation ν σ) id :=
    Run.Refines.composesStatements refl trans Machine.markLine_steady
      fun v m => (m.setResult_standing v).steady
  have covers : RunRelation.CoversAll (Run.Refines Q) id i i (ofText text).mentions := by
    intro mention _
    apply Run.Refines.covers refl trans fun m s => (m.setScopes_standing s).steady
    rintro name - args span m outcome m' run
    exact ⟨run, (calls name args span m outcome m' run).steady⟩
  exact (runText_related composes rfl text covers m outcome m' run).2

lemma evaluateWith_standing {i : Interpreter ν σ}
    (calls : ∀ name args span m outcome m', i.invoke name args span m = some (outcome, m') →
      m.engine.Standing m'.engine) {script : String} {m m' : Machine ν σ}
    {outcome : Except ScriptError String} (run : evaluateWith i script m = some (outcome, m')) :
    m.engine.Standing m'.engine := by
  unfold evaluateWith at run
  rcases carried : Script.runText i script m.beginInput with _ | ⟨e | flow, m₁⟩ <;>
    simp only [carried] at run
  · cases run
  · cases run
    have standing := Machine.endInput_standing (Script.runText_steady calls carried)
    exact standing.trans (m₁.endInput.noteFailure_standing script e)
  · cases run
    exact Machine.endInput_standing (Script.runText_steady calls carried)

/-- An evaluation leaves the engine standing: it has the same tables and the same user data, and the
enclosing evaluations are on the same lines. -/
theorem evaluate_standing (host : Host ν σ) (fuel : Nat) (script : String) (m : Machine ν σ)
    (outcome : Except ScriptError String) (m' : Machine ν σ)
    (run : evaluate host fuel script m = some (outcome, m')) : m.engine.Standing m'.engine := by
  induction fuel generalizing script m outcome m' with
  | zero => cases run
  | succ fuel ih =>
    apply evaluateWith_standing _ run
    intro name args span m outcome m' called
    exact callNative_standing ih host called

end ScriptEngine
