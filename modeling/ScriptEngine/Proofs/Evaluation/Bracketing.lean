import Mathlib.Control.Monad.Basic
import ScriptEngine.Session
import ScriptEngine.Proofs.Evaluation.Persistence

/-!
# Evaluations inside evaluations

A native may evaluate scripts on the engine that calls it, those may call natives in turn, and so on
to any depth.  Each evaluation puts a line of its own on the stack of lines and takes it off again,
whatever happens in between, so the line of the enclosing evaluation is what it was
(`Engine.Standing`).  An evaluation that fails leaves its error as the last failure; one that succeeds
leaves its value as the result.

A success leaves the last failure alone, unless an evaluation inside it failed and the native that
asked for it went on regardless.  `evaluateUnbroken` is evaluation cut short at the first such
failure, so it comes to an end exactly where no evaluation inside has failed.  It does what `evaluate`
does as far as it goes (`evaluateUnbroken_refines`).
-/

namespace ScriptEngine

variable {ν σ α : Type}

/-! ## Evaluations in which nothing fails -/

/-- The run, cut short if it fails. -/
def Run.unfailing (x : Run ν σ α) : Run ν σ α := fun m =>
  match x m with
  | some (.ok a, m') => some (.ok a, m')
  | _ => none

/-- The answer to what a native asks, cut short if an evaluation on the running engine fails.  Scripts
are evaluated with `own` on the running engine and with `other` on the others. -/
def answerUnbroken (own other : String → Run ν σ String) :
    (r : Request ν σ) → Machine ν σ → Option (r.Answer × Machine ν σ)
  | .evaluate script, m => answer (fun s => (own s).unfailing) (.evaluate script) m
  | .evaluateBlock script, m => answer (fun s => (own s).unfailing) (.evaluateBlock script) m
  | r, m => answer other r m

/-- Runs a native until it is done, gives up, or an evaluation on the running engine fails. -/
def Callback.runUnbroken (own other : String → Run ν σ String) :
    Callback ν σ α → Machine ν σ → Option (Except String α × Machine ν σ)
  | .done a, m => some (.ok a, m)
  | .fail message, m => some (.error message, m)
  | .ask request next, m =>
    match answerUnbroken own other request m with
    | none => none
    | some (a, m) => (next a).runUnbroken own other m

/-- Calls a native by name; the call is cut short if it lets an evaluation on the running engine
fail. -/
def callNativeUnbroken (host : Host ν σ) (own other : String → Run ν σ String) (name : String)
    (args : List String) (span : Span) : Run ν σ String := fun m =>
  match m.functions[name]? with
  | none => Run.fail span (.undefinedProcedure name) m
  | some native =>
    match (host native args).runUnbroken own other (m.noteCall ⟨name, args⟩) with
    | none => none
    | some (.error message, m) => Run.fail span (.native message) m
    | some (.ok (), m) => some (.ok m.engine.result, m)

/-- Evaluates a script, up to the first failure of an evaluation inside it, at whatever depth.  Scripts
that are evaluated on other engines may fail. -/
def evaluateUnbroken (host : Host ν σ) : (fuel : Nat) → (script : String) → Run ν σ String
  | 0, _ => Run.cutShort
  | fuel + 1, script =>
    evaluateWith
      ⟨callNativeUnbroken host (evaluateUnbroken host fuel) (evaluate host fuel), fuel⟩ script

/-! ## What is unbroken is an evaluation -/

/-- The last failure is the same. -/
def Machine.SameDiagnostic (m m' : Machine ν σ) : Prop :=
  m'.engine.diagnostic = m.engine.diagnostic

namespace Machine.SameDiagnostic

lemma refl (m : Machine ν σ) : SameDiagnostic m m := rfl

lemma trans (m₀ m₁ m₂ : Machine ν σ) (first : SameDiagnostic m₀ m₁)
    (second : SameDiagnostic m₁ m₂) : SameDiagnostic m₀ m₂ :=
  Eq.trans second first

lemma markLine (line : Nat) (m : Machine ν σ) : SameDiagnostic m (m.markLine line) := by
  unfold SameDiagnostic Machine.markLine
  split <;> rfl

lemma closeBlock (id : Nat) (m : Machine ν σ) : SameDiagnostic m (m.closeBlock id).2 := by
  unfold SameDiagnostic Machine.closeBlock
  split <;> rfl

lemma endInput (m : Machine ν σ) : SameDiagnostic m m.endInput := by
  unfold SameDiagnostic Machine.endInput
  split <;> rfl

end Machine.SameDiagnostic

open Machine (SameDiagnostic)

/-- A request other than for an evaluation on the running engine leaves the last failure alone. -/
lemma answer_sameDiagnostic {evaluate : String → Run ν σ String} {request : Request ν σ}
    (outward : ∀ script, request ≠ .evaluate script ∧ request ≠ .evaluateBlock script)
    {m m' : Machine ν σ} {a : request.Answer}
    (asked : answer evaluate request m = some (a, m')) : SameDiagnostic m m' := by
  cases request with
  | evaluate script => exact absurd rfl (outward script).1
  | evaluateBlock script => exact absurd rfl (outward script).2
  | evaluateOn handle script =>
    simp only [answer] at asked
    split at asked
    · cases asked
    · cases asked
      exact .refl _
  | closeBlock id =>
    obtain ⟨rfl, rfl⟩ := Prod.mk.inj (Option.some.inj asked)
    exact .closeBlock id m
  | _ =>
    cases asked
    rfl

section

variable {own evaluate : String → Run ν σ String}
  (nested : ∀ script, Run.Refines SameDiagnostic (own script).unfailing (evaluate script))
include nested

omit nested in
lemma answerUnbroken_eq {other : String → Run ν σ String} {request : Request ν σ}
    (outward : ∀ script, request ≠ .evaluate script ∧ request ≠ .evaluateBlock script) :
    answerUnbroken own other request = answer other request := by
  cases request with
  | evaluate script => exact absurd rfl (outward script).1
  | evaluateBlock script => exact absurd rfl (outward script).2
  | _ => rfl

lemma answerUnbroken_refines {request : Request ν σ} {m m' : Machine ν σ} {a : request.Answer}
    (asked : answerUnbroken own evaluate request m = some (a, m')) :
    answer evaluate request m = some (a, m') ∧ SameDiagnostic m m' := by
  by_cases outward : ∀ script, request ≠ .evaluate script ∧ request ≠ .evaluateBlock script
  · rw [answerUnbroken_eq outward] at asked
    exact ⟨asked, answer_sameDiagnostic outward asked⟩
  cases request with
  | evaluate script => exact nested script m a m' asked
  | evaluateBlock script =>
    simp only [answerUnbroken, answer, evaluateBlockWith] at asked ⊢
    rcases run : (own script).unfailing m.openBlock.2 with _ | ⟨outcome, m₁⟩ <;>
      simp only [run] at asked
    · cases asked
    · cases asked
      obtain ⟨same, kept⟩ := nested script _ _ _ run
      rw [same]
      exact ⟨rfl, Machine.SameDiagnostic.trans _ m₁ _ kept (.closeBlock _ m₁)⟩
  | _ => exact absurd (by simp) outward

lemma runUnbroken_refines (callback : Callback ν σ α) {m m' : Machine ν σ}
    {outcome : Except String α}
    (run : callback.runUnbroken own evaluate m = some (outcome, m')) :
    callback.run evaluate m = some (outcome, m') ∧ SameDiagnostic m m' := by
  induction callback generalizing m with
  | done a =>
    cases run
    exact ⟨rfl, .refl _⟩
  | fail message =>
    cases run
    exact ⟨rfl, .refl _⟩
  | ask request next ih =>
    simp only [Callback.runUnbroken] at run
    rcases asked : answerUnbroken own evaluate request m with _ | ⟨a, m₁⟩ <;>
      simp only [asked] at run
    · cases run
    · obtain ⟨same, kept⟩ := answerUnbroken_refines nested asked
      obtain ⟨onward, kept'⟩ := ih a run
      simp only [Callback.run, same]
      exact ⟨onward, .trans m m₁ m' kept kept'⟩

lemma callNativeUnbroken_refines (host : Host ν σ) (name : String) (args : List String)
    (span : Span) :
    Run.Refines SameDiagnostic (callNativeUnbroken host own evaluate name args span)
      (callNative host evaluate name args span) := by
  intro m outcome m' run
  unfold callNativeUnbroken at run
  unfold callNative
  cases found : m.functions[name]? with
  | none =>
    simp only [found] at run ⊢
    cases run
    exact ⟨rfl, .refl _⟩
  | some native =>
    simp only [found] at run ⊢
    rcases called : (host native args).runUnbroken own evaluate (m.noteCall ⟨name, args⟩) with
      _ | ⟨message | _, m₁⟩ <;> simp only [called] at run
    · cases run
    all_goals
      cases run
      obtain ⟨same, kept⟩ := runUnbroken_refines nested _ called
      rw [same]
      exact ⟨rfl, kept⟩

end

lemma evaluateWith_refines {i i' : Interpreter ν σ} {script : String}
    (refines : Run.Refines SameDiagnostic (Script.runText i script) (Script.runText i' script))
    {m m' : Machine ν σ} {outcome : Except ScriptError String}
    (run : evaluateWith i script m = some (outcome, m')) :
    evaluateWith i' script m = some (outcome, m') ∧
      ∀ v, outcome = .ok v → SameDiagnostic m m' := by
  unfold evaluateWith at run ⊢
  rcases carried : Script.runText i script m.beginInput with _ | ⟨e | flow, m₁⟩ <;>
    simp only [carried] at run
  · cases run
  · cases run
    rw [(refines _ _ _ carried).1]
    exact ⟨rfl, nofun⟩
  · cases run
    obtain ⟨same, kept⟩ := refines _ _ _ carried
    rw [same]
    exact ⟨rfl, fun _ _ => .trans _ m₁ _ kept (.endInput m₁)⟩

/-- An unbroken evaluation does what the evaluation does, and leaves the last failure alone if it
succeeds. -/
lemma evaluateUnbroken_refines (host : Host ν σ) (fuel : Nat) (script : String)
    (m : Machine ν σ) (outcome : Except ScriptError String) (m' : Machine ν σ)
    (run : evaluateUnbroken host fuel script m = some (outcome, m')) :
    evaluate host fuel script m = some (outcome, m') ∧
      ∀ v, outcome = .ok v → SameDiagnostic m m' := by
  induction fuel generalizing script m outcome m' with
  | zero => cases run
  | succ fuel ih =>
    have nested (script : String) :
        Run.Refines SameDiagnostic (evaluateUnbroken host fuel script).unfailing
          (evaluate host fuel script) := by
      intro m outcome m' run
      unfold Run.unfailing at run
      split at run
      · next ended =>
        cases run
        obtain ⟨same, kept⟩ := ih script m _ _ ended
        exact ⟨same, kept _ rfl⟩
      · cases run
    let unbroken : Interpreter ν σ :=
      ⟨callNativeUnbroken host (evaluateUnbroken host fuel) (evaluate host fuel), fuel⟩
    let plain : Interpreter ν σ := ⟨callNative host (evaluate host fuel), fuel⟩
    have rounds : unbroken.rounds = plain.rounds := rfl
    have composes : RunRelation.ComposesStatements
        (Run.Refines SameDiagnostic : RunRelation ν σ) id :=
      Run.Refines.composesStatements .refl .trans .markLine fun _ _ => rfl
    have covers : RunRelation.CoversAll (Run.Refines SameDiagnostic) id unbroken plain
        (Script.ofText script).mentions := by
      intro mention _
      apply Run.Refines.covers .refl .trans fun _ _ => rfl
      rintro name -
      exact callNativeUnbroken_refines nested host name
    exact evaluateWith_refines (Script.runText_related composes rounds script covers) run

/-! ## What an evaluation leaves -/

/-- An evaluation leaves its value as the result, or its error as the last failure and on its
line. -/
lemma evaluate_leaves {host : Host ν σ} {fuel : Nat} {script : String} {m m' : Machine ν σ}
    {outcome : Except ScriptError String}
    (run : evaluate host fuel script m = some (outcome, m')) :
    match outcome with
    | .ok v => m'.engine.result = v
    | .error e => m'.engine.diagnostic = some (e.diagnostic script) ∧ m'.engine.lastLine = e.line := by
  cases fuel with
  | zero => cases run
  | succ fuel =>
    simp only [evaluate, evaluateWith] at run
    rcases carried : Script.runText ⟨callNative host (evaluate host fuel), fuel⟩ script
      m.beginInput with _ | ⟨e | flow, m₁⟩ <;>
      simp only [carried] at run
    · cases run
    · cases run
      exact ⟨rfl, rfl⟩
    · cases run
      rfl

/-- Evaluations are bracketed.  When one returns, at whatever depth and whatever its natives did, the
lines of the enclosing evaluations are what they were.  A failure is the last failure, and outside of
any evaluation its line is the line of the engine; a success has its value as the result, and leaves
the last failure alone unless an evaluation inside has failed. -/
theorem evaluate_bracketed {host : Host ν σ} {fuel : Nat} {script : String} {m m' : Machine ν σ}
    {outcome : Except ScriptError String}
    (run : evaluate host fuel script m = some (outcome, m')) :
    (m'.engine.inputs = m.engine.inputs ∧
      (m.engine.inputs ≠ [] → m'.engine.lineNumber = m.engine.lineNumber)) ∧
    (∀ e, outcome = .error e →
      m'.engine.diagnostic = some (e.diagnostic script) ∧
      (m.engine.inputs = [] → m'.engine.lineNumber = e.line)) ∧
    (∀ v, outcome = .ok v →
      m'.engine.result = v ∧
      (evaluateUnbroken host fuel script m ≠ none →
        m'.engine.diagnostic = m.engine.diagnostic)) := by
  have inputs : m'.engine.inputs = m.engine.inputs :=
    (evaluate_standing host fuel script m outcome m' run).inputs
  have leaves := evaluate_leaves run
  refine ⟨⟨inputs, fun enclosed => ?_⟩, ?_, ?_⟩
  · unfold Engine.lineNumber
    rw [inputs]
    cases lines : m.engine.inputs with
    | nil => exact absurd lines enclosed
    | cons line outer => rfl
  · rintro e rfl
    refine ⟨leaves.1, fun outermost => ?_⟩
    unfold Engine.lineNumber
    rw [inputs, outermost]
    exact leaves.2
  · rintro v rfl
    refine ⟨leaves, fun unbroken => ?_⟩
    obtain ⟨⟨outcome, m₁⟩, ended⟩ := Option.ne_none_iff_exists'.1 unbroken
    obtain ⟨same, kept⟩ := evaluateUnbroken_refines host fuel script m outcome m₁ ended
    rw [run] at same
    cases same
    exact kept v rfl

/-- The failure of `y` inside reaches the outer script, which fails on its second line and is the
last failure then.  A later evaluation with an evaluation inside succeeds and leaves it alone. -/
theorem evaluate_bracketed_eval :
    let e : ScriptError := ⟨.runtime (.native "Undefined variable y"), ⟨2, 11, 2⟩⟩
    ∃ m m', evaluate SessionNative.host 9 "1\neval('y')" Session.lone = some (.error e, m) ∧
      m.engine.lineNumber = 2 ∧
      m.engine.diagnostic = some (e.diagnostic "1\neval('y')") ∧
      evaluate SessionNative.host 9 "eval('6 + 1')" m = some (.ok "7", m') ∧
      m'.engine.diagnostic = some (e.diagnostic "1\neval('y')") ∧
      m'.engine.inputs = [] := by
  intro e
  have outermost : Session.lone.engine.inputs = [] := rfl
  have ended : (evaluate SessionNative.host 9 "1\neval('y')" Session.lone).map Prod.fst =
      some (.error e) := by
    decide +kernel
  have later : ((evaluate SessionNative.host 9 "1\neval('y')" Session.lone).bind fun r =>
      (evaluateUnbroken SessionNative.host 9 "eval('6 + 1')" r.2).map Prod.fst) =
        some (.ok "7") := by
    decide +kernel
  obtain ⟨⟨_, m⟩, failed, rfl⟩ := Option.map_eq_some_iff.1 ended
  rw [failed, Option.bind_some] at later
  obtain ⟨⟨_, m'⟩, unbroken, rfl⟩ := Option.map_eq_some_iff.1 later
  have run := (evaluateUnbroken_refines _ _ _ _ _ _ unbroken).1
  obtain ⟨⟨inputs, -⟩, failure, -⟩ := evaluate_bracketed failed
  obtain ⟨⟨inputs', -⟩, -, success⟩ := evaluate_bracketed run
  have kept := (success "7" rfl).2 (by rw [unbroken]; exact Option.some_ne_none _)
  refine ⟨m, m', failed, (failure e rfl).2 outermost, (failure e rfl).1, run, ?_, ?_⟩
  · rw [kept, (failure e rfl).1]
  · rw [inputs', inputs, outermost]

end ScriptEngine
