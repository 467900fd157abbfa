import Mathlib.Tactic.Lemma
import ScriptEngine.Evaluation

/-!
# Carrying out trees without the flag

The walks of `Evaluation/Interpreter.lean` take a flag that says whether to carry a tree out, and
walk trees without it where nothing is to happen: the branch of an `if` that is not taken, and the
increment and the body of a loop once before its first round.  This file sets a plain evaluator
beside them.  It has no flag, goes only into the branch that is taken and makes no first pass over
a loop.

A walk without the flag is no computation at all (`eval_dry`, `run_dry`), and a walk with it is what
the plain evaluator does (`eval_eq_value`, `run_eq_perform`).  The equalities are between runs:
outcome, machine and calls of natives agree on every machine, and so does being cut short.  They
carry over to whole evaluations, with all that natives evaluate in turn (`evaluate_eq_evaluate`).
-/

namespace ScriptEngine

variable {ν σ : Type}

namespace Plain

/-! ## Expressions -/

mutual

/-- The value of an expression. -/
def value (i : Interpreter ν σ) : Expr → Run ν σ String
  | .empty _ => pure ""
  | .literal text _ => pure text
  | .read name span => do
    let (_, found) ← resolve name span
    return found.getD ""
  | .assign name assigned _ => do
    let v ← value i assigned
    Run.modify fun m => m.setScopes (m.scopes.assign name v)
    return v
  | .step name op span => stepVariable name op span
  | .chain first rest span => do
    let v ← value i first
    chainValue i span v rest
  | .connect left op right span => do
    let l ← value i left
    let r ← value i right
    Run.ofOperator span (op.connect l r)
  | .call name args span => do
    let vs ← values i args
    i.invoke name vs span
  | .grouping inner _ => value i inner

/-- The value of a chain at `span` whose operands so far have the value `v`. -/
def chainValue (i : Interpreter ν σ) (span : Span) (v : String) :
    List (Operator × Expr) → Run ν σ String
  | [] => pure v
  | (op, operand) :: rest => do
    let r ← value i operand
    let v ← Run.ofOperator span (op.apply v r)
    chainValue i span v rest

/-- The values of expressions, from left to right. -/
def values (i : Interpreter ν σ) : List Expr → Run ν σ (List String)
  | [] => pure []
  | e :: rest => do
    let v ← value i e
    let vs ← values i rest
    return v :: vs

end

/-- The value of an expression that may be missing. -/
def optionalValue (i : Interpreter ν σ) : Option Expr → Run ν σ String
  | none => pure ""
  | some e => value i e

/-! ## Statements -/

/-- Binds one name in the current scope; returns its value, empty if it has none. -/
def declareOne (i : Interpreter ν σ) (d : Declarator) : Run ν σ String := do
  checkUndeclared d
  match d.initializer with
  | none =>
    Run.modify fun m => m.setScopes (m.scopes.bindCurrent d.name none)
    return ""
  | some e =>
    let v ← value i e
    Run.modify fun m => m.setScopes (m.scopes.bindCurrent d.name (some v))
    return v

/-- Binds names in order; returns the value of the last one. -/
def declareAll (i : Interpreter ν σ) (last : String) : List Declarator → Run ν σ String
  | [] => pure last
  | d :: rest => do
    let v ← declareOne i d
    declareAll i v rest

/-- The evaluation has come to the line of `span`. -/
def arrive (span : Span) : Run ν σ Unit :=
  Run.modify (Machine.markLine span.line)

/-- Makes a value the result of the evaluation. -/
def leave (v : String) : Run ν σ Unit :=
  Run.modify (Machine.setResult v)

/-- Tests the condition and, as long as it holds, carries out the body and the increment and starts
over.  A body that returns ends it. -/
def repeatWhile (condition increment : Run ν σ String) (body : Run ν σ Flow) :
    (rounds : Nat) → Run ν σ Flow
  | 0 => do
    if continuesLoop (← condition) then Run.cutShort else return .normal
  | rounds + 1 => do
    if continuesLoop (← condition) then
      match ← body with
      | .returned => return .returned
      | .normal =>
        let _ ← increment
        repeatWhile condition increment body rounds
    else
      return .normal

mutual

/-- Carries out a statement. -/
def perform (i : Interpreter ν σ) : Stmt → Run ν σ Flow
  | .empty span => do
    arrive span
    return .normal
  | .expression expr span => do
    arrive span
    leave (← value i expr)
    return .normal
  | .block statements span => do
    arrive span
    performAll i statements
  | .choice condition thenBranch elseBranch span => do
    arrive span
    let v ← value i condition
    if selectsThen v then
      perform i thenBranch
    else
      match elseBranch with
      | none => return .normal
      | some other => perform i other
  | .loop start condition increment body span => do
    arrive span
    performStart i start
    repeatWhile (optionalValue i condition) (optionalValue i increment) (perform i body) i.rounds
  | .declare declarators span => do
    arrive span
    leave (← declareAll i "" declarators)
    return .normal
  | .giveBack given span => do
    arrive span
    leave (← optionalValue i given)
    return .returned

/-- Carries out what stands in front of a loop: a declaration or an expression for what it does, and
any other statement as a statement, however it ends. -/
def performStart (i : Interpreter ν σ) : Option Stmt → Run ν σ Unit
  | none => pure ()
  | some (.declare declarators _) => do
    let _ ← declareAll i "" declarators
  | some (.expression e _) => do
    let _ ← value i e
  | some other => do
    let _ ← perform i other

/-- Carries out statements in order, up to the first that returns. -/
def performAll (i : Interpreter ν σ) : List Stmt → Run ν σ Flow
  | [] => pure .normal
  | s :: rest => do
    match ← perform i s with
    | .returned => return .returned
    | .normal => performAll i rest

end

/-! ## Scripts -/

/-- Carries out the statements of a script in order, and raises the error behind them unless one of
them returns. -/
def performScript (i : Interpreter ν σ) (error : Option ScriptError) :
    List (Stmt × Nat) → Run ν σ Flow
  | [] =>
    match error with
    | some e => Run.throw e
    | none => pure .normal
  | (s, _) :: rest => do
    match ← perform i s with
    | .returned => return .returned
    | .normal => performScript i error rest

/-- Evaluates a script.  What natives evaluate meanwhile is evaluated plainly too. -/
def evaluate (host : Host ν σ) : (fuel : Nat) → (script : String) → Run ν σ String
  | 0, _ => Run.cutShort
  | fuel + 1, script => fun m =>
    let parsed := Script.ofText script
    let i : Interpreter ν σ := ⟨callNative host (evaluate host fuel), fuel⟩
    match performScript i parsed.error parsed.statements m.beginInput with
    | none => none
    | some (.ok _, m) => some (.ok m.endInput.engine.result, m.endInput)
    | some (.error e, m) => some (.error e, m.endInput.noteFailure script e)

end Plain

/-! ## Walks without the flag -/

variable (i : Interpreter ν σ)

@[simp] lemma Run.onlyIf_false (x : Run ν σ Unit) : Run.onlyIf false x = pure () := rfl

@[simp] lemma Run.onlyIf_true (x : Run ν σ Unit) : Run.onlyIf true x = x := rfl

mutual

lemma eval_dry : ∀ e : Expr, e.eval i false = pure ""
  | .empty _ | .literal _ _ | .read _ _ | .step _ _ _ => by simp [Expr.eval]
  | .assign _ value _ => by simp [Expr.eval, eval_dry value]
  | .chain first rest _ => by simp [Expr.eval, eval_dry first, evalChain_dry]
  | .connect left _ right _ => by simp [Expr.eval, eval_dry left, eval_dry right]
  | .call _ args _ => by simp [Expr.eval, evalAll_dry args]
  | .grouping inner _ => by simp [Expr.eval, eval_dry inner]

lemma evalChain_dry (span : Span) (value : String) :
    ∀ rest : List (Operator × Expr), evalChain i false span value rest = pure ""
  | [] => by simp [evalChain]
  | (_, operand) :: rest => by simp [evalChain, eval_dry operand, evalChain_dry span _ rest]

lemma evalAll_dry : ∀ es : List Expr, evalAll i false es = pure (es.map fun _ => "")
  | [] => by simp [evalAll]
  | e :: rest => by simp [evalAll, eval_dry e, evalAll_dry rest]

end

lemma evalOptional_dry (e : Option Expr) : evalOptional i false e = pure "" := by
  cases e with
  | none => rfl
  | some e => exact eval_dry i e

lemma declareOne_dry (d : Declarator) : declareOne i false d = pure "" := by
  rcases d with ⟨_, _ | e, _⟩
  · simp [declareOne]
  · simp [declareOne, eval_dry i e]

lemma declareAll_dry (last : String) (ds : List Declarator) :
    ∃ value, declareAll i false last ds = pure value := by
  induction ds generalizing last with
  | nil => exact ⟨last, rfl⟩
  | cons d rest ih => simpa [declareAll, declareOne_dry] using ih ""

mutual

lemma run_dry : ∀ s : Stmt, s.run i false = pure .normal
  | .empty _ => by simp [Stmt.run, enter]
  | .expression e _ => by simp [Stmt.run, enter, yieldResult, eval_dry i e]
  | .block statements _ => by simp [Stmt.run, enter, runAll_dry statements]
  | .choice condition thenBranch none _ => by
    simp [Stmt.run, enter, eval_dry i condition, run_dry thenBranch]
  | .choice condition thenBranch (some other) _ => by
    simp [Stmt.run, enter, eval_dry i condition, run_dry thenBranch, run_dry other]
  | .loop start condition increment body _ => by
    simp [Stmt.run, enter, runStart_dry start, evalOptional_dry, run_dry body]
  | .declare ds _ => by
    obtain ⟨value, h⟩ := declareAll_dry i "" ds
    simp [Stmt.run, enter, yieldResult, h]
  | .giveBack value _ => by simp [Stmt.run, enter, yieldResult, evalOptional_dry]

lemma runStart_dry : ∀ start : Option Stmt, runStart i false start = pure ()
  | none => rfl
  | some s => by
    have whole := run_dry s
    cases s with
    | declare ds _ =>
      obtain ⟨value, h⟩ := declareAll_dry i "" ds
      simp [runStart, h]
    | expression e _ => simp [runStart, eval_dry i e]
    | _ => simp [runStart, whole]

lemma runAll_dry : ∀ statements : List Stmt, runAll i false statements = pure .normal
  | [] => by simp [runAll]
  | s :: rest => by simp [runAll, run_dry s, runAll_dry rest]

end

/-! ## Walks with the flag -/

mutual

lemma eval_eq_value : ∀ e : Expr, e.eval i true = Plain.value i e
  | .empty _ | .literal _ _ | .step _ _ _ => by simp [Expr.eval, Plain.value]
  | .read _ _ => by simp [Expr.eval, Plain.value]
  | .assign _ value _ => by simp [Expr.eval, Plain.value, eval_eq_value value]
  | .chain first rest _ => by
    simp [Expr.eval, Plain.value, eval_eq_value first, evalChain_eq_chainValue]
  | .connect left _ right _ => by
    simp [Expr.eval, Plain.value, eval_eq_value left, eval_eq_value right]
  | .call _ args _ => by simp [Expr.eval, Plain.value, evalAll_eq_values args]
  | .grouping inner _ => by simp [Expr.eval, Plain.value, eval_eq_value inner]

lemma evalChain_eq_chainValue (span : Span) (v : String) :
    ∀ rest : List (Operator × Expr), evalChain i true span v rest = Plain.chainValue i span v rest
  | [] => by simp [evalChain, Plain.chainValue]
  | (_, operand) :: rest => by
    simp [evalChain, Plain.chainValue, eval_eq_value operand, evalChain_eq_chainValue span _ rest]

lemma evalAll_eq_values : ∀ es : List Expr, evalAll i true es = Plain.values i es
  | [] => by simp [evalAll, Plain.values]
  | e :: rest => by simp [evalAll, Plain.values, eval_eq_value e, evalAll_eq_values rest]

end

lemma evalOptional_eq (e : Option Expr) : evalOptional i true e = Plain.optionalValue i e := by
  cases e with
  | none => rfl
  | some e => exact eval_eq_value i e

lemma declareOne_eq (d : Declarator) : declareOne i true d = Plain.declareOne i d := by
  rcases d with ⟨_, _ | e, _⟩
  · simp [declareOne, Plain.declareOne]
  · simp [declareOne, Plain.declareOne, eval_eq_value i e]

lemma declareAll_eq (last : String) (ds : List Declarator) :
    declareAll i true last ds = Plain.declareAll i last ds := by
  induction ds generalizing last with
  | nil => rfl
  | cons d rest ih => simp [declareAll, Plain.declareAll, declareOne_eq, ih]

/-- To evaluate the condition and hand its value to the rounds, which evaluate it again at the end of
each, is to evaluate it at the head of every round. -/
lemma bind_loopRounds_eq_repeatWhile (condition increment : Run ν σ String) (body : Run ν σ Flow)
    (rounds : Nat) :
    condition >>= loopRounds condition increment body rounds =
      Plain.repeatWhile condition increment body rounds := by
  induction rounds with
  | zero =>
    rw [Plain.repeatWhile]
    refine bind_congr fun v => ?_
    rw [loopRounds]
  | succ rounds ih =>
    rw [Plain.repeatWhile]
    refine bind_congr fun v => ?_
    rw [loopRounds]
    split
    · refine bind_congr fun flow => ?_
      cases flow with
      | returned => rfl
      | normal => exact bind_congr fun _ => ih
    · rfl

/-- Passing on how a statement ended, and going on with nothing, is the statement alone. -/
lemma bind_flow_normal (x : Run ν σ Flow) :
    (do match ← x with
        | .returned => return .returned
        | .normal => return .normal) = x := by
  calc
    _ = x >>= pure := by
      congr 1
      funext flow
      cases flow <;> rfl
    _ = x := bind_pure x

mutual

lemma run_eq_perform : ∀ s : Stmt, s.run i true = Plain.perform i s
  | .empty _ => by simp [Stmt.run, Plain.perform, enter, Plain.arrive]
  | .expression e _ => by
    simp [Stmt.run, Plain.perform, enter, Plain.arrive, yieldResult, Plain.leave, eval_eq_value i e]
  | .block statements _ => by
    simp [Stmt.run, Plain.perform, enter, Plain.arrive, runAll_eq_performAll statements]
  | .choice condition thenBranch none _ => by
    simp only [Stmt.run, Plain.perform, enter, Plain.arrive, eval_eq_value i condition,
      Run.onlyIf_true]
    congr 1; funext _; congr 1; funext v
    by_cases taken : selectsThen v
    · simp only [taken, Bool.and_self, run_eq_perform thenBranch, if_true]
      exact bind_flow_normal _
    · simp [taken, run_dry i thenBranch]
  | .choice condition thenBranch (some other) _ => by
    simp only [Stmt.run, Plain.perform, enter, Plain.arrive, eval_eq_value i condition,
      Run.onlyIf_true]
    congr 1; funext _; congr 1; funext v
    by_cases taken : selectsThen v
    · simp only [taken, Bool.and_self, Bool.not_true, Bool.and_false, run_dry i other,
        run_eq_perform thenBranch, if_true]
      exact bind_flow_normal _
    · simp [taken, run_dry i thenBranch, run_eq_perform other]
  | .loop start condition increment body _ => by
    -- Without the first pass over increment and body, the condition is followed by the rounds.
    simp only [Stmt.run, Plain.perform, enter, Plain.arrive, Run.onlyIf_true,
      runStart_eq_performStart start, evalOptional_eq, evalOptional_dry, run_dry i body,
      run_eq_perform body, pure_bind, if_true, bind_loopRounds_eq_repeatWhile]
  | .declare ds _ => by
    simp [Stmt.run, Plain.perform, enter, Plain.arrive, yieldResult, Plain.leave, declareAll_eq]
  | .giveBack value _ => by
    simp [Stmt.run, Plain.perform, enter, Plain.arrive, yieldResult, Plain.leave, evalOptional_eq]

lemma runStart_eq_performStart :
    ∀ start : Option Stmt, runStart i true start = Plain.performStart i start
  | none => rfl
  | some s => by
    have whole := run_eq_perform s
    cases s with
    | declare ds _ => simp only [runStart, Plain.performStart, declareAll_eq]
    | expression e _ => simp only [runStart, Plain.performStart, eval_eq_value]
    | _ => simp only [runStart, Plain.performStart, whole]

lemma runAll_eq_performAll :
    ∀ statements : List Stmt, runAll i true statements = Plain.performAll i statements
  | [] => by simp [runAll, Plain.performAll]
  | s :: rest => by
    rw [runAll, Plain.performAll, run_eq_perform s]
    refine bind_congr fun flow => ?_
    cases flow with
    | returned => rfl
    | normal => exact runAll_eq_performAll rest

end

lemma scriptRun_eq_performScript (error : Option ScriptError) (statements : List (Stmt × Nat)) :
    Script.run i error statements = Plain.performScript i error statements := by
  induction statements with
  | nil => rfl
  | cons s rest ih =>
    rw [Script.run, Plain.performScript, run_eq_perform]
    refine bind_congr fun flow => ?_
    cases flow with
    | returned => rfl
    | normal => exact ih

/-- Evaluating a script with the flag and plainly are the same, natives and their evaluations
included. -/
lemma evaluate_eq_evaluate (host : Host ν σ) (fuel : Nat) (script : String) :
    evaluate host fuel script = Plain.evaluate host fuel script := by
  induction fuel generalizing script with
  | zero => rfl
  | succ fuel ih =>
    have nested : evaluate host fuel = Plain.evaluate host fuel := funext ih
    funext m
    simp only [evaluate, evaluateWith, Script.runText, Plain.evaluate, scriptRun_eq_performScript,
      nested]
    rcases Plain.performScript _ _ _ m.beginInput with _ | ⟨_ | _, _⟩ <;> rfl

/-- A walk without the flag succeeds with the empty text, or ends normally, and leaves the machine
as it was; so the evaluator with the flag is the plain one, which looks at one branch of an `if` and
makes no first pass over a loop. -/
theorem dry_walk_idle_and_run_plain (host : Host ν σ) :
    (∀ (i : Interpreter ν σ) (m : Machine ν σ),
      (∀ s : Stmt, s.run i false m = some (.ok .normal, m)) ∧
      (∀ e : Expr, e.eval i false m = some (.ok "", m)) ∧
      (∀ s : Stmt, s.run i true m = Plain.perform i s m) ∧
      (∀ e : Expr, e.eval i true m = Plain.value i e m)) ∧
    ∀ (fuel : Nat) (script : String) (m : Machine ν σ),
      evaluate host fuel script m = Plain.evaluate host fuel script m := by
  refine ⟨fun i m => ⟨fun s => ?_, fun e => ?_, fun s => ?_, fun e => ?_⟩, fun fuel script m => ?_⟩
  · rw [run_dry]; rfl
  · rw [eval_dry]; rfl
  · rw [run_eq_perform]
  · rw [eval_eq_value]
  · rw [evaluate_eq_evaluate]

end ScriptEngine
