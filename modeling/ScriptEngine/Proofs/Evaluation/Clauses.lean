import Mathlib.Control.Monad.Basic
import ScriptEngine.Console.Transcript
import ScriptEngine.Proofs.Evaluation.Related

/-!
# What conditions and loop clauses do to the result

The result of an evaluation is the value of its last statement that has one.  Natives leave the
values of their calls in the same place, so an expression that is evaluated for a condition, a clause
of a loop or an argument can change the result after all: it does so through the natives that it
calls, and in no other way.

`Interpreter.quiet` cuts an evaluation short at the first call that changes the result.  An
expression evaluated quietly to its end has left the result alone (`value_keeps`), and a loop whose
clauses are evaluated quietly leaves the result of the last execution of its body
(`quiet_clauses_keep_result`).  A call in the condition of a loop that sets a result shows in the
result of the loop (`loop_condition_sets_result`).

What stands in front of a loop is one of its clauses if it is a declaration or an expression.  Any other
statement there is carried out as a statement, and its result counts like that of the body.
-/

namespace ScriptEngine

variable {ν σ α β : Type}

/-- The run, cut short if it changes the result. -/
def Run.quiet (x : Run ν σ α) : Run ν σ α := fun m =>
  match x m with
  | none => none
  | some (outcome, m') =>
    if m'.engine.result = m.engine.result then some (outcome, m') else none

/-- Carries trees out as `i` does, up to the first call of a native that changes the result. -/
def Interpreter.quiet (i : Interpreter ν σ) : Interpreter ν σ :=
  { i with invoke := fun name args span => (i.invoke name args span).quiet }

namespace Run

/-- All that `x` does `y` does as well, and the result is left as it was. -/
def Keeps (x y : Run ν σ α) : Prop :=
  ∀ m outcome m', x m = some (outcome, m') →
    y m = some (outcome, m') ∧ m'.engine.result = m.engine.result

namespace Keeps

lemma quiet (x : Run ν σ α) : Keeps x.quiet x := by
  intro m outcome m' run
  unfold Run.quiet at run
  rcases done : x m with _ | ⟨o, m₁⟩
  · simp [done] at run
  · simp only [done] at run
    split at run
    · next kept =>
      cases run
      exact ⟨rfl, kept⟩
    · cases run

/-- To keep the result is to keep a preorder of machines. -/
lemma composes : RunRelation.Composes (Keeps : RunRelation ν σ) id :=
  Refines.composes (Q := fun m m' => m'.engine.result = m.engine.result) (fun _ => rfl)
    fun _ _ _ first second => second.trans first

lemma bind {x y : Run ν σ α} {f g : α → Run ν σ β} (first : Keeps x y)
    (rest : ∀ a, Keeps (f a) (g a)) : Keeps (x >>= f) (y >>= g) :=
  composes.bind first rest

end Keeps
end Run

/-! ## Calls -/

mutual

/-- The names of the natives that an expression calls. -/
def Expr.callees : Expr → List String
  | .empty _ | .literal _ _ | .read _ _ | .step _ _ _ => []
  | .assign _ value _ => value.callees
  | .chain first rest _ => first.callees ++ chainCallees rest
  | .connect left _ right _ => left.callees ++ right.callees
  | .call name args _ => name :: allCallees args
  | .grouping inner _ => inner.callees

def chainCallees : List (Operator × Expr) → List String
  | [] => []
  | (_, operand) :: rest => operand.callees ++ chainCallees rest

def allCallees : List Expr → List String
  | [] => []
  | e :: rest => e.callees ++ allCallees rest

end

/-- The names of the natives that a clause in front of a loop calls. -/
def Stmt.startCallees : Option Stmt → List String
  | some (.declare declarators _) =>
    declarators.flatMap fun d => d.initializer.elim [] Expr.callees
  | some (.expression e _) => e.callees
  | _ => []

/-- All that the natives of these names do under `quiet` they do under `i` as well, and they leave
the result as it was. -/
def Interpreter.KeepsOn (names : List String) (quiet i : Interpreter ν σ) : Prop :=
  ∀ name ∈ names, ∀ args span, Run.Keeps (quiet.invoke name args span) (i.invoke name args span)

namespace Interpreter.KeepsOn

variable {quiet i : Interpreter ν σ} {xs ys : List String}

lemma left (keeps : KeepsOn (xs ++ ys) quiet i) : KeepsOn xs quiet i :=
  fun name mem => keeps name (List.mem_append_left ys mem)

lemma right (keeps : KeepsOn (xs ++ ys) quiet i) : KeepsOn ys quiet i :=
  fun name mem => keeps name (List.mem_append_right xs mem)

/-- Cut short at every call that changes the result, all calls leave it alone. -/
lemma of_quiet (names : List String) (i : Interpreter ν σ) : KeepsOn names i.quiet i :=
  fun name _ args span => .quiet (i.invoke name args span)

end Interpreter.KeepsOn

mutual

/-- The natives that an expression mentions are those that it calls. -/
lemma Expr.mem_callees {name : String} :
    (e : Expr) → .call name ∈ e.mentions → name ∈ e.callees
  | .empty _, mem | .literal _ _, mem | .read _ _, mem | .step _ _ _, mem => by
    simp [Expr.mentions] at mem
  | .assign _ value _, mem => by
    simp only [Expr.mentions, List.mem_append, List.mem_singleton, reduceCtorEq, or_false] at mem
    exact value.mem_callees mem
  | .chain first rest _, mem => by
    rw [Expr.mentions, List.mem_append] at mem
    rw [Expr.callees, List.mem_append]
    exact mem.imp first.mem_callees (mem_chainCallees rest)
  | .connect left _ right _, mem => by
    rw [Expr.mentions, List.mem_append] at mem
    rw [Expr.callees, List.mem_append]
    exact mem.imp left.mem_callees right.mem_callees
  | .call callee args _, mem => by
    simp only [Expr.mentions, List.mem_append, List.mem_singleton, Mention.call.injEq] at mem
    rw [Expr.callees, List.mem_cons]
    exact mem.symm.imp_right (mem_allCallees args)
  | .grouping inner _, mem => inner.mem_callees mem

lemma mem_chainCallees {name : String} :
    (rest : List (Operator × Expr)) → .call name ∈ chainMentions rest → name ∈ chainCallees rest
  | [], mem => by simp [chainMentions] at mem
  | (_, operand) :: rest, mem => by
    rw [chainMentions, List.mem_append] at mem
    rw [chainCallees, List.mem_append]
    exact mem.imp operand.mem_callees (mem_chainCallees rest)

lemma mem_allCallees {name : String} :
    (es : List Expr) → .call name ∈ allMentions es → name ∈ allCallees es
  | [], mem => by simp [allMentions] at mem
  | e :: rest, mem => by
    rw [allMentions, List.mem_append] at mem
    rw [allCallees, List.mem_append]
    exact mem.imp e.mem_callees (mem_allCallees rest)

end

lemma Expr.mem_optionCallees {name : String} (e : Option Expr)
    (mem : .call name ∈ Expr.optionMentions e) : name ∈ e.elim [] Expr.callees := by
  cases e with
  | none => simp [optionMentions] at mem
  | some e => exact e.mem_callees mem

lemma Stmt.mem_startCallees {name : String} {start : Option Stmt}
    (clause : start.all Stmt.isClause = true) (mem : .call name ∈ Stmt.branchMentions start) :
    name ∈ Stmt.startCallees start := by
  cases start with
  | none => simp [branchMentions] at mem
  | some s =>
    cases s with
    | declare ds span =>
      obtain ⟨d, here, mem⟩ := List.mem_flatMap.1 mem
      simp only [Declarator.mentions, List.mem_append, List.mem_singleton, reduceCtorEq,
        or_false] at mem
      exact List.mem_flatMap.2 ⟨d, here, Expr.mem_optionCallees d.initializer mem⟩
    | expression e span => exact e.mem_callees mem
    | _ => cases clause

/-- What is done with variables keeps the result, so all is well if the calls do. -/
lemma Interpreter.KeepsOn.covers {quiet i : Interpreter ν σ} {names : List String}
    {mentions : List Mention} (keeps : quiet.KeepsOn names i)
    (called : ∀ name, .call name ∈ mentions → name ∈ names) :
    RunRelation.CoversAll Run.Keeps id quiet i mentions :=
  fun mention mem => Run.Refines.covers (Q := fun m m' => m'.engine.result = m.engine.result)
    (fun _ => rfl) (fun _ _ _ first second => second.trans first) (fun _ _ => rfl) mention
    fun name is => keeps name (called name (is ▸ mem))

/-! ## Expressions -/

namespace Plain

variable {quiet i : Interpreter ν σ}

/-- An expression whose calls keep the result keeps the result. -/
lemma value_keeps (e : Expr) (calls : quiet.KeepsOn e.callees i) :
    Run.Keeps (value quiet e) (value i e) := by
  have related := value_related Run.Keeps.composes e (calls.covers fun _ => e.mem_callees)
  rwa [e.mapSpan_id] at related

lemma values_keeps (es : List Expr) (calls : quiet.KeepsOn (allCallees es) i) :
    Run.Keeps (values quiet es) (values i es) := by
  have related := values_related Run.Keeps.composes es (calls.covers fun _ => mem_allCallees es)
  rwa [Expr.mapSpans_id] at related

lemma optionalValue_keeps (e : Option Expr) (calls : quiet.KeepsOn (e.elim [] Expr.callees) i) :
    Run.Keeps (optionalValue quiet e) (optionalValue i e) := by
  have related :=
    optionalValue_related Run.Keeps.composes e (calls.covers fun _ => Expr.mem_optionCallees e)
  rwa [show Expr.mapSpan id = id from funext Expr.mapSpan_id, Option.map_id, id] at related

lemma performStart_keeps {start : Option Stmt} (clause : start.all Stmt.isClause = true)
    (calls : quiet.KeepsOn (Stmt.startCallees start) i) :
    Run.Keeps (performStart quiet start) (performStart i start) := by
  have related := performClause_related Run.Keeps.composes start clause
    (calls.covers fun _ => Stmt.mem_startCallees clause)
  rwa [Stmt.mapBranchSpan_id] at related

end Plain

/-! ## Loops -/

/-- The machines that the executions of the body of a loop leave, in order, when the condition has
the value `v` on `m`. -/
def bodyEnds (condition increment : Run ν σ String) (body : Run ν σ Flow) :
    (rounds : Nat) → (v : String) → Machine ν σ → List (Machine ν σ)
  | 0, _, _ => []
  | rounds + 1, v, m =>
    if continuesLoop v then
      match body m with
      | none => []
      | some (.ok .normal, after) =>
        after ::
          match (increment >>= fun _ => condition) after with
          | some (.ok v, m) => bodyEnds condition increment body rounds v m
          | _ => []
      | some (_, after) => [after]
    else []

/-- The result that the last of some machines holds, and `before` if there are none. -/
def lastResult (before : String) (ends : List (Machine ν σ)) : String :=
  ends.getLast?.elim before fun m => m.engine.result

lemma lastResult_cons (before : String) (m : Machine ν σ) (ends : List (Machine ν σ)) :
    lastResult before (m :: ends) = lastResult m.engine.result ends := by
  cases ends with
  | nil => rfl
  | cons m' ends => simp [lastResult, List.getLast?_cons]

lemma lastResult_append (before : String) (ends more : List (Machine ν σ)) :
    lastResult before (ends ++ more) = lastResult (lastResult before ends) more := by
  induction ends generalizing before with
  | nil => rfl
  | cons m ends ih => rw [List.cons_append, lastResult_cons, lastResult_cons, ih]

/-- One round: the body, and behind a body that does not return the clauses and the other rounds. -/
lemma loopRounds_succ (condition increment : Run ν σ String) (body : Run ν σ Flow) (rounds : Nat)
    {v : String} (continues : continuesLoop v) :
    loopRounds condition increment body (rounds + 1) v =
      body >>= fun
        | .returned => pure .returned
        | .normal => (increment >>= fun _ => condition) >>=
            loopRounds condition increment body rounds := by
  rw [loopRounds, if_pos continues]
  refine bind_congr fun flow => ?_
  cases flow with
  | returned => rfl
  | normal => exact (bind_assoc _ _ _).symm

section

variable {condition condition' increment increment' : Run ν σ String} {body : Run ν σ Flow}
  (tests : Run.Keeps condition' condition) (steps : Run.Keeps increment' increment)
include tests steps

/-- The rounds of a loop whose clauses keep the result leave the result of the last body. -/
lemma loopRounds_keeps (rounds : Nat) {v : String} {m m' : Machine ν σ}
    {outcome : Except ScriptError Flow}
    (run : loopRounds condition' increment' body rounds v m = some (outcome, m')) :
    loopRounds condition increment body rounds v m = some (outcome, m') ∧
      m'.engine.result =
        lastResult m.engine.result (bodyEnds condition increment body rounds v m) := by
  -- From one round to the next the increment and then the condition are evaluated, and together
  -- they keep the result too.
  have clauses : Run.Keeps (increment' >>= fun _ => condition')
      (increment >>= fun _ => condition) := steps.bind fun _ => tests
  induction rounds generalizing v m with
  | zero =>
    by_cases continues : continuesLoop v
    · simp [loopRounds, continues, Run.cutShort] at run
    · simp only [loopRounds, if_neg continues] at run ⊢
      cases run
      exact ⟨rfl, rfl⟩
  | succ rounds ih =>
    by_cases continues : continuesLoop v
    · rw [loopRounds_succ _ _ _ _ continues] at run ⊢
      simp only [bodyEnds, if_pos continues]
      rcases Run.bind_eq_some run with ⟨e, failed, rfl⟩ | ⟨flow, after, done, run⟩
      · rw [Run.bind_of_error failed, failed]
        exact ⟨rfl, rfl⟩
      rw [Run.bind_of_ok done, done]
      cases flow with
      | returned =>
        cases run
        exact ⟨rfl, rfl⟩
      | normal =>
        rw [lastResult_cons]
        change ((increment >>= fun _ => condition) >>= _) after = _ ∧ _
        rcases Run.bind_eq_some run with ⟨e, failed, rfl⟩ | ⟨v', m₁, tested, run⟩
        · obtain ⟨same, kept⟩ := clauses after _ m' failed
          rw [Run.bind_of_error same, same]
          exact ⟨rfl, kept⟩
        · obtain ⟨same, kept⟩ := clauses after _ m₁ tested
          rw [Run.bind_of_ok same, same, ← kept]
          exact ih run
    · simp only [loopRounds, if_neg continues] at run ⊢
      cases run
      exact ⟨rfl, by simp [bodyEnds, continues, lastResult]⟩

end

/-! ## Whole loops -/

lemma Machine.result_markLine (m : Machine ν σ) (line : Nat) :
    (m.markLine line).engine.result = m.engine.result := by
  unfold markLine
  split <;> rfl

section

variable (quiet i : Interpreter ν σ) (start : Option Stmt) (condition increment : Option Expr)
  (body : Stmt) (span : Span)

/-- Carries out what stands in front of a loop: a clause under `quiet`, any other statement under `i`. -/
def startWithin : Run ν σ Unit :=
  runStart (if start.all Stmt.isClause then quiet else i) true start

/-- What a loop does up to the first value of its condition. -/
def openLoop : Run ν σ String := do
  enter true span
  startWithin quiet i start
  evalOptional quiet true condition

/-- Carries out a loop, its clauses under `quiet` and its statements under `i`. -/
def loopWithin : Run ν σ Flow :=
  openLoop quiet i start condition span >>=
    loopRounds (evalOptional quiet true condition) (evalOptional quiet true increment)
      (body.run i true) i.rounds

/-- The machine that what stands in front of a loop leaves, if it is no clause of the loop. -/
def startEnds (m : Machine ν σ) : List (Machine ν σ) :=
  if start.all Stmt.isClause then []
  else
    match runStart i true start m with
    | none => []
    | some (_, after) => [after]

/-- The machines that the executions of the statements of a loop leave, in order: of a statement in
front of it, and of the body. -/
def loopEnds (m : Machine ν σ) : List (Machine ν σ) :=
  startEnds i start (m.markLine span.line) ++
    match openLoop i i start condition span m with
    | some (.ok v, m) =>
      bodyEnds (evalOptional i true condition) (evalOptional i true increment) (body.run i true)
        i.rounds v m
    | _ => []

/-- The names of the natives that the clauses of a loop call. -/
def clauseCallees : List String :=
  Stmt.startCallees start ++ (condition.elim [] Expr.callees ++ increment.elim [] Expr.callees)

lemma loop_run_eq :
    (Stmt.loop start condition increment body span).run i true =
      loopWithin i i start condition increment body span := by
  simp [Stmt.run, loopWithin, openLoop, startWithin, evalOptional_dry, run_dry i body]

variable {quiet i start condition increment}

lemma evalOptional_keeps (calls : quiet.KeepsOn (condition.elim [] Expr.callees) i) :
    Run.Keeps (evalOptional quiet true condition) (evalOptional i true condition) := by
  rw [evalOptional_eq, evalOptional_eq]
  exact Plain.optionalValue_keeps condition calls

lemma runStart_keeps (clause : start.all Stmt.isClause = true)
    (calls : quiet.KeepsOn (Stmt.startCallees start) i) :
    Run.Keeps (runStart quiet true start) (runStart i true start) := by
  rw [runStart_eq_performStart, runStart_eq_performStart]
  exact Plain.performStart_keeps clause calls

/-- The result behind what stands in front of a loop is that of the statement there, if it is one. -/
lemma startWithin_keeps (calls : quiet.KeepsOn (Stmt.startCallees start) i) {m m' : Machine ν σ}
    {outcome : Except ScriptError Unit} (run : startWithin quiet i start m = some (outcome, m')) :
    startWithin i i start m = some (outcome, m') ∧
      m'.engine.result = lastResult m.engine.result (startEnds i start m) := by
  unfold startWithin startEnds at *
  rw [ite_self]
  by_cases clause : start.all Stmt.isClause = true
  · rw [if_pos clause] at run ⊢
    exact runStart_keeps clause calls m outcome m' run
  · rw [if_neg clause] at run ⊢
    rw [run]
    exact ⟨rfl, rfl⟩

lemma openLoop_keeps (starts : quiet.KeepsOn (Stmt.startCallees start) i)
    (tests : quiet.KeepsOn (condition.elim [] Expr.callees) i) {m m' : Machine ν σ}
    {outcome : Except ScriptError String}
    (run : openLoop quiet i start condition span m = some (outcome, m')) :
    openLoop i i start condition span m = some (outcome, m') ∧
      m'.engine.result = lastResult m.engine.result (startEnds i start (m.markLine span.line)) := by
  have entered : enter true span m = some (.ok (), m.markLine span.line) := rfl
  rw [openLoop, Run.bind_of_ok entered] at run ⊢
  rw [← m.result_markLine span.line]
  rcases Run.bind_eq_some run with ⟨e, failed, rfl⟩ | ⟨_, m₁, started, run⟩
  · obtain ⟨same, left⟩ := startWithin_keeps starts failed
    exact ⟨Run.bind_of_error same _, left⟩
  · obtain ⟨same, left⟩ := startWithin_keeps starts started
    obtain ⟨tested, kept⟩ := evalOptional_keeps tests m₁ outcome m' run
    exact ⟨(Run.bind_of_ok same _).trans tested, kept.trans left⟩

/-- A loop whose clauses keep the result leaves the result of the last execution of its body. -/
lemma loopWithin_keeps (calls : quiet.KeepsOn (clauseCallees start condition increment) i)
    {m m' : Machine ν σ} {outcome : Except ScriptError Flow}
    (run : loopWithin quiet i start condition increment body span m = some (outcome, m')) :
    (Stmt.loop start condition increment body span).run i true m = some (outcome, m') ∧
      m'.engine.result =
        lastResult m.engine.result (loopEnds i start condition increment body span m) := by
  have tests := evalOptional_keeps calls.right.left
  have steps := evalOptional_keeps calls.right.right
  rw [loop_run_eq, loopWithin, loopEnds, lastResult_append]
  rcases Run.bind_eq_some run with ⟨e, failed, rfl⟩ | ⟨v, m₁, opened, run⟩
  · obtain ⟨same, left⟩ := openLoop_keeps span calls.left calls.right.left failed
    rw [Run.bind_of_error same, same]
    exact ⟨rfl, left⟩
  · obtain ⟨same, left⟩ := openLoop_keeps span calls.left calls.right.left opened
    rw [Run.bind_of_ok same, same, ← left]
    exact loopRounds_keeps tests steps i.rounds run

end

/-- An expression, arguments or a clause in front of a loop that is evaluated without a call that changes
the result leaves the result alone, and so a loop whose clauses are evaluated that way leaves the result
of the last execution of its body, or the one before it if there is none.  (If a statement other than a
declaration or an expression is put in front of a loop, it is carried out before the body is, and counts
as the body does.)  A loop is evaluated that way whenever the natives that its clauses name never change
the result. -/
theorem quiet_clauses_keep_result (i : Interpreter ν σ) (m m' : Machine ν σ) :
    (∀ (e : Expr) outcome, e.eval i.quiet true m = some (outcome, m') →
      e.eval i true m = some (outcome, m') ∧ m'.engine.result = m.engine.result) ∧
    (∀ (args : List Expr) outcome, evalAll i.quiet true args m = some (outcome, m') →
      evalAll i true args m = some (outcome, m') ∧ m'.engine.result = m.engine.result) ∧
    (∀ (start : Option Stmt) outcome, start.all Stmt.isClause = true →
      runStart i.quiet true start m = some (outcome, m') →
      runStart i true start m = some (outcome, m') ∧ m'.engine.result = m.engine.result) ∧
    ∀ start condition increment body span outcome,
      (loopWithin i.quiet i start condition increment body span m = some (outcome, m') →
        (Stmt.loop start condition increment body span).run i true m = some (outcome, m') ∧
        m'.engine.result =
          lastResult m.engine.result (loopEnds i start condition increment body span m)) ∧
      (i.KeepsOn (clauseCallees start condition increment) i →
        (Stmt.loop start condition increment body span).run i true m = some (outcome, m') →
        m'.engine.result =
          lastResult m.engine.result (loopEnds i start condition increment body span m)) := by
  refine ⟨fun e outcome run => ?_, fun args outcome run => ?_, fun start outcome clause run => ?_,
    fun start condition increment body span outcome => ⟨fun run => ?_, fun calls run => ?_⟩⟩
  · rw [eval_eq_value] at run ⊢
    exact Plain.value_keeps e (.of_quiet _ i) m outcome m' run
  · rw [evalAll_eq_values] at run ⊢
    exact Plain.values_keeps args (.of_quiet _ i) m outcome m' run
  · exact runStart_keeps clause (.of_quiet _ i) m outcome m' run
  · exact loopWithin_keeps body span (.of_quiet _ i) run
  · rw [loop_run_eq] at run
    exact (loopWithin_keeps body span calls run).2
/-- `for (n = 2; n > 0; print(n--)) n` counts down to the result of its last round. -/
theorem quiet_clauses_keep_result_countdown :
    let i : Interpreter ConsoleNative Unit := .ofHost ConsoleNative.host 9
    let start : Stmt :=
      .expression (.assign "n" (.literal "2" ⟨9, 10, 1⟩) ⟨5, 10, 1⟩) ⟨5, 10, 1⟩
    let condition : Expr :=
      .chain (.read "n" ⟨12, 13, 1⟩) [(.greater, .literal "0" ⟨16, 17, 1⟩)] ⟨12, 17, 1⟩
    let increment : Expr :=
      .call "print" [.step "n" .decrement ⟨25, 28, 1⟩] ⟨19, 29, 1⟩
    let body : Stmt := .expression (.read "n" ⟨31, 32, 1⟩) ⟨31, 32, 1⟩
    ∃ m', (Stmt.loop start condition increment body ⟨0, 32, 1⟩).run i true ConsoleMachine.start =
        some (.ok .normal, m') ∧
      m'.engine.result = "1" := by
  intro i start condition increment body
  have ended : (loopWithin i.quiet i start condition increment body ⟨0, 32, 1⟩
      ConsoleMachine.start).map Prod.fst = some (.ok .normal) := by
    decide +kernel
  have last : lastResult ConsoleMachine.start.engine.result
      (loopEnds i start condition increment body ⟨0, 32, 1⟩ ConsoleMachine.start) = "1" := by
    decide +kernel
  obtain ⟨⟨_, m'⟩, run, rfl⟩ := Option.map_eq_some_iff.1 ended
  obtain ⟨same, left⟩ := ((quiet_clauses_keep_result i _ m').2.2.2 _ _ _ _ _ _).1 run
  exact ⟨m', same, left.trans last⟩

/-- The body of this loop is never carried out, yet its result is not the one before the loop but
what the call in its condition leaves. -/
theorem loop_condition_sets_result :
    (evaluate ConsoleNative.host 9 "'before'\nfor (; len('') == 1; ) 'body'"
      ConsoleMachine.start).map Prod.fst = some (.ok "0") := by
  decide +kernel

end ScriptEngine
