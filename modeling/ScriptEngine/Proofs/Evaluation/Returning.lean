import ScriptEngine.Session
import ScriptEngine.Proofs.Evaluation.Persistence
import ScriptEngine.Proofs.Evaluation.Recorded
import ScriptEngine.Proofs.Evaluation.Sequence
import ScriptEngine.Proofs.Tree.Guard

/-!
# What a return ends

A `return` that is carried out ends the evaluation it belongs to, at once, and no other.

Whether a statement has returned is a value that all statements around it hand on, with one exception: a
loop drops it when the statement stands in front of it (`loop_run_of_start`).  That it is handed on
everywhere else is seen from the record of the statements carried out (`Recorded.run`): a statement
returns if and only if there is a `return` in its record that is not marked; this is the last entry then,
and once its value is known nothing happens any more but that it becomes the result
(`Recorded.Concluded`).

The exception can only be built, it cannot be written: in front of a loop a script has a declaration or an
expression, if anything (`Script.startsAreClauses`).

A script is read one statement at a time, each being carried out before the next is read
(`runStepwise`).  So nothing is read behind a statement that returns: what comes there could be anything.
When a native evaluates a script that returns, the native gets the value as it would otherwise, and goes
on.
-/

namespace ScriptEngine

variable {ν σ α β : Type}

def Stmt.isReturn : Stmt → Bool
  | giveBack _ _ => true
  | _ => false

/-- A `return` that was not carried out in front of a loop. -/
def Visit.isReturn (v : Visit ν σ) : Bool :=
  v.stmt.isReturn && !v.inStart

namespace Recorded

/-! ## Records of runs that return -/

/-- How statements have ended that were recorded as `visits`, the latest first, and have led to the
machine: none of them was a `return`; or the last one was, and no other, its value was evaluated, and
became the result. -/
inductive Concluded (i : Interpreter ν σ) : Flow → List (Visit ν σ) → Machine ν σ → Prop
  | normal {visits : List (Visit ν σ)} {m' : Machine ν σ}
    (none_returned : ∀ v ∈ visits, v.isReturn = false) : Concluded i .normal visits m'
  | returned {given : Option Expr} {span : Span} {m m' : Machine ν σ} {value : String}
    {before : List (Visit ν σ)} (none_returned : ∀ v ∈ before, v.isReturn = false)
    (evaluated : evalOptional i true given (m.markLine span.line) = some (.ok value, m')) :
    Concluded i .returned (⟨.giveBack given span, m, false⟩ :: before) (m'.setResult value)

namespace Concluded

variable {i : Interpreter ν σ} {flow : Flow} {visits before : List (Visit ν σ)} {m' : Machine ν σ}

/-- Statements return if and only if one of them is a `return`. -/
lemma returned_iff (concluded : Concluded i flow visits m') :
    flow = .returned ↔ ∃ v ∈ visits, v.isReturn = true := by
  cases concluded with
  | normal none_returned =>
    refine ⟨nofun, fun ⟨v, mem, isReturn⟩ => ?_⟩
    rw [none_returned v mem] at isReturn
    cases isReturn
  | returned => exact ⟨fun _ => ⟨_, List.mem_cons_self, rfl⟩, fun _ => rfl⟩

/-- Statements may come before that did not return. -/
lemma behind (concluded : Concluded i flow visits m')
    (none_returned : ∀ v ∈ before, v.isReturn = false) :
    Concluded i flow (visits ++ before) m' := by
  cases concluded with
  | normal none_returned' => exact .normal (List.forall_mem_append.2 ⟨none_returned', none_returned⟩)
  | returned none_returned' evaluated =>
    exact .returned (List.forall_mem_append.2 ⟨none_returned', none_returned⟩) evaluated

end Concluded

/-- The run records no `return`. -/
abbrev Quiet (x : Recorded ν σ α) : Prop :=
  Records (fun v => v.isReturn = false) x

/-- What the run records is how it has ended. -/
def Concludes (i : Interpreter ν σ) (x : Recorded ν σ Flow) : Prop :=
  ∀ visits m flow visits' m', x visits m = some (.ok (flow, visits'), m') →
    ∃ new, visits' = new ++ visits ∧ Concluded i flow new m'

lemma begin_quiet (exec : Bool) {s : Stmt} (other : s.isReturn = false) :
    Quiet (begin exec s : Recorded ν σ Unit) :=
  .begin exec fun m => by simpa [Visit.isReturn] using other

namespace Concludes

variable {i : Interpreter ν σ} {x y : Recorded ν σ Flow}

lemma normal : Concludes i (pure .normal) := by
  intro visits m flow visits' m' run
  obtain ⟨rfl, rfl, rfl⟩ := pure_eq_ok.1 run
  exact ⟨[], rfl, .normal (by simp)⟩

/-- Behind what does not return. -/
lemma after {first : Recorded ν σ α} {k : α → Recorded ν σ Flow} (quiet : Quiet first)
    (rest : ∀ a, Concludes i (k a)) : Concludes i (first >>= k) := by
  intro visits m flow visits' m' run
  obtain ⟨a, between, m₁, begun, ended⟩ := bind_eq_ok.1 run
  obtain ⟨before, rfl, none_returned⟩ := quiet _ _ _ _ _ begun
  obtain ⟨new, rfl, concluded⟩ := rest a _ _ _ _ _ ended
  exact ⟨new ++ before, by simp, concluded.behind none_returned⟩

/-- What comes next is run unless the first has returned; otherwise the first was all. -/
lemma andThen {k : Flow → Recorded ν σ Flow} (first : Concludes i x)
    (returned : k .returned = pure .returned) (rest : Concludes i (k .normal)) :
    Concludes i (x >>= k) := by
  intro visits m flow visits' m' run
  obtain ⟨between_flow, between, m₁, begun, ended⟩ := bind_eq_ok.1 run
  obtain ⟨before, rfl, concluded⟩ := first _ _ _ _ _ begun
  cases between_flow with
  | returned =>
    rw [returned] at ended
    obtain ⟨rfl, rfl, rfl⟩ := pure_eq_ok.1 ended
    exact ⟨before, rfl, concluded⟩
  | normal =>
    obtain ⟨new, rfl, concluded'⟩ := rest _ _ _ _ _ ended
    cases concluded with
    | normal none_returned => exact ⟨new ++ before, by simp, concluded'.behind none_returned⟩

/-- What concludes and never returns records no `return`. -/
lemma quiet (concludes : Concludes i x) (plain : Forgotten x (pure .normal)) : Quiet x := by
  intro visits m flow visits' m' run
  obtain ⟨new, rfl, concluded⟩ := concludes _ _ _ _ _ run
  refine ⟨new, rfl, ?_⟩
  have forgotten := congrFun (plain visits) m
  obtain ⟨rfl, -⟩ : flow = .normal ∧ m' = m := by
    simpa [Functor.map, Run.bind, run, Pure.pure, Run.pure] using forgotten
  cases concluded with
  | normal none_returned => exact none_returned

end Concludes

variable {i : Interpreter ν σ}

lemma rounds_concludes (condition increment : Run ν σ String) {body : Recorded ν σ Flow}
    (concludes : Concludes i body) (n : Nat) (value : String) :
    Concludes i (rounds condition increment body n value) := by
  induction n generalizing value with
  | zero =>
    unfold rounds
    split
    · intro visits m flow visits' m' run
      cases run
    · exact .normal
  | succ n ih =>
    unfold rounds
    split
    · exact concludes.andThen rfl <|
        .after (.unrecorded increment) fun _ => .after (.unrecorded condition) ih
    · exact .normal

/-- Whatever is carried out in front of a loop, no `return` there counts. -/
lemma runStart_quiet (exec : Bool) (start : Option Stmt) : Quiet (runStart i exec start) := by
  have marked (s : Stmt) : Quiet (aside (run i exec s)) := .aside _ fun v => by simp [Visit.isReturn]
  cases start with
  | none => exact .pure ()
  | some s =>
    cases s with
    | declare declarators span => exact .unrecorded _
    | expression e span => exact .unrecorded _
    | _ => exact marked _

mutual

/-- One case for each kind of statement; only in the last one a `return` is carried out. -/
lemma run_concludes (exec : Bool) : ∀ s : Stmt, Concludes i (run i exec s)
  | .empty span => by
    simp only [run]
    exact .after (begin_quiet exec rfl) fun _ => .normal
  | .expression expr span => by
    simp only [run]
    exact .after (begin_quiet exec rfl) fun _ => .after (.unrecorded _) fun _ =>
      .after (.unrecorded _) fun _ => .normal
  | .block statements span => by
    simp only [run]
    exact .after (begin_quiet exec rfl) fun _ => runAll_concludes exec statements
  | .choice condition thenBranch elseBranch span => by
    simp only [run]
    refine .after (begin_quiet exec rfl) fun _ => .after (.unrecorded _) fun value =>
      (run_concludes _ thenBranch).andThen rfl ?_
    cases elseBranch with
    | none => exact .normal
    | some other => exact run_concludes _ other
  | .loop start condition increment body span => by
    simp only [run]
    -- The pass over the body in front of the rounds does nothing, so it cannot have returned.
    have walked : Forgotten (run i false body) (pure .normal) := run_dry i body ▸ run_forgotten i false body
    refine .after (begin_quiet exec rfl) fun _ => .after (runStart_quiet exec start) fun _ =>
      .after (.unrecorded _) fun value => .after (.unrecorded _) fun _ =>
      .after ((run_concludes false body).quiet walked) fun _ => ?_
    split
    · exact rounds_concludes _ _ (run_concludes true body) i.rounds value
    · exact .normal
  | .declare declarators span => by
    simp only [run]
    exact .after (begin_quiet exec rfl) fun _ => .after (.unrecorded _) fun _ =>
      .after (.unrecorded _) fun _ => .normal
  | .giveBack given span => by
    simp only [run]
    intro visits m flow visits' m' ran
    obtain ⟨_, between, m₁, begun, ended⟩ := bind_eq_ok.1 ran
    obtain ⟨rfl, rfl⟩ := begin_eq_ok.1 begun
    obtain ⟨value, between, m₂, recorded, ended⟩ := bind_eq_ok.1 ended
    obtain ⟨evaluated, rfl⟩ := unrecorded_eq_ok.1 recorded
    obtain ⟨_, between, m₃, recorded, ended⟩ := bind_eq_ok.1 ended
    obtain ⟨yielded, rfl⟩ := unrecorded_eq_ok.1 recorded
    cases exec with
    | false =>
      obtain ⟨rfl, rfl, -⟩ := pure_eq_ok.1 ended
      exact ⟨[], rfl, .normal (by simp)⟩
    | true =>
      obtain ⟨rfl, rfl, rfl⟩ := pure_eq_ok.1 ended
      cases yielded
      exact ⟨[⟨.giveBack given span, m, false⟩], rfl, .returned (by simp) evaluated⟩

lemma runAll_concludes (exec : Bool) :
    ∀ statements : List Stmt, Concludes i (runAll i exec statements)
  | [] => by
    simp only [runAll]
    exact .normal
  | s :: rest => by
    simp only [runAll]
    exact (run_concludes exec s).andThen rfl (runAll_concludes exec rest)

end

/-- Whatever a run does without a record, it does with one. -/
lemma Forgotten.exists_visits {x : Recorded ν σ α} {y : Run ν σ α} (same : Forgotten x y)
    {m m' : Machine ν σ} {a : α} (run : y m = some (.ok a, m')) (visits : List (Visit ν σ)) :
    ∃ visits', x visits m = some (.ok (a, visits'), m') := by
  rw [← same visits] at run
  obtain ⟨⟨b, visits'⟩, m₁, ran, ended⟩ := Run.bind_eq_ok.1 run
  obtain ⟨rfl, rfl⟩ := Run.pure_eq_ok.1 ended
  exact ⟨visits', ran⟩

end Recorded

/-! ## In front of a loop -/

/-- A loop goes on with its rounds however the statement in front of it has ended. -/
lemma loop_run_of_start {i : Interpreter ν σ} {start : Stmt} {condition increment : Option Expr}
    {body : Stmt} {span : Span} {m m₁ : Machine ν σ} {flow : Flow} (statement : start.isClause = false)
    (ended : start.run i true (m.markLine span.line) = some (.ok flow, m₁)) :
    (Stmt.loop (some start) condition increment body span).run i true m =
      Plain.repeatWhile (Plain.optionalValue i condition) (Plain.optionalValue i increment)
        (Plain.perform i body) i.rounds m₁ := by
  rw [run_eq_perform] at ended
  have started : Plain.performStart i (some start) (m.markLine span.line) = some (.ok (), m₁) := by
    cases start with
    | declare | expression => cases statement
    | _ => exact Run.bind_of_ok ended _
  rw [run_eq_perform, Plain.perform]
  exact (Run.bind_of_ok rfl _).trans (Run.bind_of_ok started _)

lemma Script.readWithin_startsAreClauses (budget : Nat) {before : List (Stmt × Nat)}
    (clauses : ∀ t ∈ before, t.1.startsAreClauses = true) (p : Parser Lexer) :
    ∀ t ∈ (readWithin budget before p).statements, t.1.startsAreClauses = true := by
  induction budget generalizing before p with
  | zero => exact fun t mem => clauses t (List.mem_reverse.1 mem)
  | succ budget ih =>
    rw [readWithin]
    rcases read : Parse.topLevel nestingLimit p with ⟨_ | s, p₁⟩ | ⟨e, p₁⟩
    · exact fun t mem => clauses t (List.mem_reverse.1 mem)
    · obtain ⟨ts, rest, s_read, -⟩ := Parse.topLevel_reads read
      exact ih (List.forall_mem_cons.2 ⟨s_read.derived.startsAreClauses, clauses⟩) p₁
    · exact fun t mem => clauses t (List.mem_reverse.1 mem)

/-- In the statements of a script, nothing stands in front of a loop but declarations and expressions. -/
lemma Script.startsAreClauses (text : String) :
    ∀ s ∈ (ofText text).trees, s.startsAreClauses = true := by
  intro s mem
  obtain ⟨t, read, rfl⟩ := List.mem_map.1 mem
  exact readWithin_startsAreClauses _ (by simp) _ t read

/-! ## Scripts read one statement at a time -/

/-- Reads statements with `read` and carries out each before the next one is read.  Returns the parser
behind the statement that was read last, too. -/
def runStepwise (i : Interpreter ν σ) (read : Parse Lexer (Option Stmt)) :
    (budget : Nat) → Parser Lexer → Run ν σ (Flow × Parser Lexer)
  | 0, p => pure (.normal, p)
  | budget + 1, p =>
    match read p with
    | .error e _ => Run.throw e
    | .ok none p => pure (.normal, p)
    | .ok (some s) p => do
      match ← s.run i true with
      | .returned => return (.returned, p)
      | .normal => runStepwise i read budget p

/-- What has been read before is in front of what is read. -/
lemma Script.readWithin_before (budget : Nat) (before : List (Stmt × Nat)) (p : Parser Lexer) :
    readWithin budget before p =
      { readWithin budget [] p with
        statements := before.reverse ++ (readWithin budget [] p).statements } := by
  induction budget generalizing before p with
  | zero => simp [readWithin]
  | succ budget ih =>
    rw [readWithin, readWithin]
    cases Parse.topLevel nestingLimit p with
    | error e p' => simp
    | ok found p' =>
      cases found with
      | none => simp
      | some s =>
        simp only
        rw [ih ((s, p'.line) :: before) p', ih [(s, p'.line)] p']
        simp

section

variable {i : Interpreter ν σ} {read : Parse Lexer (Option Stmt)} {p p' : Parser Lexer} {n : Nat}
  {m m₁ m' : Machine ν σ} {front : List Stmt} {s : Stmt}

/-- To read all statements first and then to carry them out comes to the same. -/
lemma runStepwise_eq (i : Interpreter ν σ) (budget : Nat) (p : Parser Lexer) :
    Prod.fst <$> runStepwise i (Parse.topLevel nestingLimit) budget p =
      Script.run i (Script.readWithin budget [] p).error
        (Script.readWithin budget [] p).statements := by
  induction budget generalizing p with
  | zero => rfl
  | succ budget ih =>
    rw [runStepwise, Script.readWithin]
    cases Parse.topLevel nestingLimit p with
    | error e p' => rfl
    | ok found p' =>
      cases found with
      | none => rfl
      | some s =>
        simp only
        rw [Script.readWithin_before, map_bind]
        refine bind_congr fun flow => ?_
        cases flow with
        | returned => rfl
        | normal => exact ih p'

/-- Behind a statement that returns nothing is read, so it does not matter how one would read on. -/
lemma runStepwise_of_calls (calls : Parse.Calls read (front ++ [s]) p p') (enough : front.length < n)
    (fronted : runAll i true front m = some (.ok .normal, m₁))
    (returned : s.run i true m₁ = some (.ok .returned, m')) :
    runStepwise i read n p m = some (.ok (.returned, p'), m') := by
  induction front generalizing n p m with
  | nil =>
    obtain ⟨n, rfl⟩ := Nat.exists_eq_succ_of_ne_zero (Nat.ne_zero_of_lt enough)
    obtain ⟨-, rfl⟩ := Run.pure_eq_ok.1 (show (pure Flow.normal : Run ν σ Flow) m = _ from fronted)
    cases calls with
    | further first rest =>
      cases rest
      rw [runStepwise, first]
      exact (Run.bind_of_ok returned _).trans rfl
  | cons t front ih =>
    obtain ⟨n, rfl⟩ := Nat.exists_eq_succ_of_ne_zero (Nat.ne_zero_of_lt enough)
    obtain ⟨flow, m₂, one, fronted⟩ := Run.bind_eq_ok.1 fronted
    cases flow with
    | returned =>
      obtain ⟨⟨⟩, -⟩ := Run.pure_eq_ok.1 fronted
    | normal =>
      cases calls with
      | further first rest =>
        rw [runStepwise, first]
        exact (Run.bind_of_ok one _).trans (ih rest (Nat.lt_of_succ_lt_succ enough) fronted)

/-- A script that returns has been read up to the statement that returns. -/
lemma calls_of_runStepwise (run : runStepwise i read n p m = some (.ok (.returned, p'), m')) :
    ∃ front s m₁, Parse.Calls read (front ++ [s]) p p' ∧
      runAll i true front m = some (.ok .normal, m₁) ∧ s.run i true m₁ = some (.ok .returned, m') := by
  induction n generalizing p m with
  | zero =>
    obtain ⟨⟨⟩, -⟩ := Run.pure_eq_ok.1 run
  | succ n ih =>
    rw [runStepwise] at run
    cases first : read p with
    | error e p₁ =>
      rw [first] at run
      cases run
    | ok found p₁ =>
      rw [first] at run
      cases found with
      | none =>
        obtain ⟨⟨⟩, -⟩ := Run.pure_eq_ok.1 run
      | some s =>
        obtain ⟨flow, m₂, one, onward⟩ := Run.bind_eq_ok.1 run
        cases flow with
        | returned =>
          obtain ⟨⟨⟩, rfl⟩ := Run.pure_eq_ok.1 onward
          exact ⟨[], s, m, .further first (.none _), rfl, one⟩
        | normal =>
          obtain ⟨front, t, m₁, calls, fronted, returned⟩ := ih onward
          refine ⟨s :: front, t, m₁, .further first calls, ?_, returned⟩
          rw [runAll]
          exact (Run.bind_of_ok one _).trans fronted

end

/-! ## Evaluations that end with a return -/

lemma Machine.result_endInput (m : Machine ν σ) : m.endInput.engine.result = m.engine.result := by
  unfold endInput
  split <;> rfl

/-- The value of an evaluation is the result that its script leaves, whether it returns or not. -/
lemma evaluate_of_runText {host : Host ν σ} {fuel : Nat} {text : String} {m m₁ : Machine ν σ}
    {flow : Flow} (run : Script.runText (.ofHost host fuel) text m.beginInput = some (.ok flow, m₁)) :
    evaluate host (fuel + 1) text m = some (.ok m₁.engine.result, m₁.endInput) := by
  have ran : Script.runText ⟨callNative host (evaluate host fuel), fuel⟩ text m.beginInput =
      some (.ok flow, m₁) := run
  rw [evaluate, evaluateWith, ran]
  simp only [Machine.result_endInput]

/-- From `m` the statements `front` and `last` of the text are read and carried out, which leads to
`m₁`, and no more: the same comes of it with any reader that reads these statements, whatever it would
read behind them. -/
def ReadsNoFurther (i : Interpreter ν σ) (text : String) (front : List Stmt) (last : Stmt)
    (m m₁ : Machine ν σ) : Prop :=
  ∃ p', Parse.Calls (Parse.topLevel nestingLimit) (front ++ [last])
      (.ofStream (Lexer.ofScript text)) p' ∧
    ∀ read n, Parse.Calls read (front ++ [last]) (.ofStream (Lexer.ofScript text)) p' →
      front.length < n →
      runStepwise i read n (.ofStream (Lexer.ofScript text)) m = some (.ok (.returned, p'), m₁)

/-- A native that has the text evaluated gets the value and goes on from there, on the running engine, in
a block of its own there, or having it evaluated on another engine. -/
structure NativeGoesOn (host : Host ν σ) (fuel : Nat) (text : String) (m : Machine ν σ) (value : String)
    (m' : Machine ν σ) : Prop where
  /-- The evaluation that called the native is still on its line. -/
  inputs : m'.engine.inputs = m.engine.inputs
  here {α : Type} (next : Except ScriptError String → Callback ν σ α) :
    Callback.run (evaluate host fuel) (.ask (.evaluate text) next) m =
      (next (.ok value)).run (evaluate host fuel) m'
  inBlock {α : Type} (next : Except ScriptError String → Callback ν σ α) (m₀ : Machine ν σ)
    (opened : m₀.openBlock.2 = m) :
    Callback.run (evaluate host fuel) (.ask (.evaluateBlock text) next) m₀ =
      (next (.ok value)).run (evaluate host fuel) (m'.closeBlock m₀.openBlock.1).2
  elsewhere {α : Type} (next : Except EngineError String → Callback ν σ α) (m₀ : Machine ν σ)
    (handle : Nat) (idle : m₀.world.registry.slot handle = .idle m.engine)
    (world : m.world = { m₀.world with registry := m₀.world.registry.setSlot handle .busy }) :
    Callback.run (evaluate host fuel) (.ask (.evaluateOn handle text) next) m₀ =
      (next (.ok value)).run (evaluate host fuel)
        { m₀ with world := { m'.world with
            registry := m'.world.registry.setSlot handle (.idle m'.engine) } }

lemma nativeGoesOn_of_evaluate {host : Host ν σ} {fuel : Nat} {text value : String}
    {m m' : Machine ν σ} (run : evaluate host fuel text m = some (.ok value, m')) :
    NativeGoesOn host fuel text m value m' where
  inputs := (evaluate_standing host fuel text m _ m' run).inputs
  here next := by
    simp only [Callback.run, answer, run]
  inBlock next m₀ opened := by
    obtain rfl := opened
    simp only [Callback.run, answer, evaluateBlockWith, run]
  elsewhere next m₀ handle idle world := by
    obtain ⟨engine, w⟩ := m
    obtain rfl := world
    simp only [Callback.run, answer, evaluateOnWith, World.onEngine, idle, run]

/-- A `return` ends the evaluation that it belongs to at once, and no other.

A statement that is carried out successfully returns if and only if a `return` in it was carried out, not
in front of a loop.  This was the last statement to be carried out, and nothing happened behind the
evaluation of its value but that the value became the result; this holds whatever the natives are.  A
loop goes on with its rounds however the statement in front of it has ended; but this takes a tree that
does not come from a script, for there only declarations and expressions stand in front of loops, and
where they do no statement is recorded as carried out there.

An evaluation is one that reads a statement only when those before it have been carried out.  When it
returns, its value is that of the `return`, empty if there is none, and nothing has been read behind the
statement that returned.  If a native asked for the evaluation, the native gets the value and goes on. -/
theorem return_ends_one_evaluation (host : Host ν σ) (fuel : Nat) :
    (∀ (i : Interpreter ν σ) (s : Stmt) (m m' : Machine ν σ) (flow : Flow),
      s.run i true m = some (.ok flow, m') →
      ∃ visits, Recorded.run i true s [] m = some (.ok (flow, visits), m') ∧
        (flow = .returned ↔ ∃ v ∈ visits, v.stmt.isReturn = true ∧ v.inStart = false) ∧
        Recorded.Concluded i flow visits m' ∧
        (s.startsAreClauses = true → ∀ v ∈ visits, v.inStart = false)) ∧
    (∀ (i : Interpreter ν σ) (start : Stmt) (condition increment : Option Expr) (body : Stmt)
      (span : Span) (m m₁ : Machine ν σ) (flow : Flow), start.isClause = false →
      start.run i true (m.markLine span.line) = some (.ok flow, m₁) →
      (Stmt.loop (some start) condition increment body span).run i true m =
        Plain.repeatWhile (Plain.optionalValue i condition) (Plain.optionalValue i increment)
          (Plain.perform i body) i.rounds m₁) ∧
    (∀ text, ∀ s ∈ (Script.ofText text).trees, s.startsAreClauses = true) ∧
    (∀ (i : Interpreter ν σ) (text : String),
      Prod.fst <$> runStepwise i (Parse.topLevel nestingLimit)
          (Parser.ofStream (Lexer.ofScript text)).budget (.ofStream (Lexer.ofScript text)) =
        Script.runText i text) ∧
    (∀ (text : String) (m m₁ : Machine ν σ),
      Script.runText (.ofHost host fuel) text m.beginInput = some (.ok .returned, m₁) →
      ∃ front last m₀ given span begun before value m₂,
        runAll (.ofHost host fuel) true front m.beginInput = some (.ok .normal, m₀) ∧
        Recorded.run (.ofHost host fuel) true last [] m₀ =
          some (.ok (.returned, ⟨.giveBack given span, begun, false⟩ :: before), m₁) ∧
        evalOptional (.ofHost host fuel) true given (begun.markLine span.line) =
          some (.ok value, m₂) ∧
        (given = none → value = "") ∧
        m₁ = m₂.setResult value ∧
        ReadsNoFurther (.ofHost host fuel) text front last m.beginInput m₁ ∧
        evaluate host (fuel + 1) text m = some (.ok value, m₁.endInput) ∧
        NativeGoesOn host (fuel + 1) text m value m₁.endInput) := by
  have recorded (i : Interpreter ν σ) (s : Stmt) (m m' : Machine ν σ) (flow : Flow)
      (run : s.run i true m = some (.ok flow, m')) :
      ∃ visits, Recorded.run i true s [] m = some (.ok (flow, visits), m') ∧
        Recorded.Concluded i flow visits m' := by
    obtain ⟨visits, ran⟩ := (Recorded.run_forgotten i true s).exists_visits run []
    obtain ⟨new, rfl, concluded⟩ := Recorded.run_concludes true s _ _ _ _ _ ran
    exact ⟨new ++ [], ran, by rwa [List.append_nil]⟩
  refine ⟨fun i s m m' flow run => ?_, fun i start condition increment body span m m₁ flow => ?_,
    Script.startsAreClauses, fun i text => runStepwise_eq i _ _, fun text m m₁ run => ?_⟩
  · obtain ⟨visits, ran, concluded⟩ := recorded i s m m' flow run
    refine ⟨visits, ran, by simpa [Visit.isReturn] using concluded.returned_iff, concluded,
      fun clauses => ?_⟩
    obtain ⟨new, rfl, unmarked⟩ := Recorded.run_unmarked i true s clauses _ _ _ _ _ ran
    simpa using unmarked
  · exact loop_run_of_start
  -- The evaluation is first brought into the form that reads a statement only after the one before
  -- it, where it can be said which statement returned.
  · have stepwise := runStepwise_eq (.ofHost host fuel)
      (Parser.ofStream (Lexer.ofScript text)).budget (.ofStream (Lexer.ofScript text))
    have ran := run
    rw [Script.runText, Script.ofText, Script.ofStream, ← stepwise] at ran
    obtain ⟨⟨flow, p'⟩, m₃, stepped, ended⟩ := Run.bind_eq_ok.1 ran
    obtain ⟨rfl, rfl⟩ := Run.pure_eq_ok.1 ended
    obtain ⟨front, last, m₀, calls, fronted, returned⟩ := calls_of_runStepwise stepped
    obtain ⟨visits, kept, concluded⟩ := recorded _ _ _ _ _ returned
    have valued := evaluate_of_runText run
    cases concluded with
    | @returned given span begun m₂ value before none_returned evaluated =>
      refine ⟨front, last, m₀, given, span, begun, before, value, m₂, fronted, kept, evaluated, ?_, rfl,
        ⟨p', calls, fun read n calls enough => runStepwise_of_calls calls enough fronted returned⟩,
        valued, nativeGoesOn_of_evaluate valued⟩
      rintro rfl
      exact (Run.pure_eq_ok.1 evaluated).1.symm

/-- The script that the native evaluates returns 5, and nothing else ends by that.  The script itself
returns out of its loop, and the error behind it is never found. -/
theorem return_ends_one_evaluation_nested :
    ∃ front last m₁,
      ReadsNoFurther (.ofHost SessionNative.host 9)
        "x = eval('return 5; y = 1')\nfor (;;) { if (1) return x + 1 }\nz = )" front last
        Session.lone.beginInput m₁ ∧
      evaluate SessionNative.host 10
          "x = eval('return 5; y = 1')\nfor (;;) { if (1) return x + 1 }\nz = )" Session.lone =
        some (.ok "6", m₁.endInput) := by
  have ended : (Script.runText (.ofHost SessionNative.host 9)
      "x = eval('return 5; y = 1')\nfor (;;) { if (1) return x + 1 }\nz = )"
      Session.lone.beginInput).map (fun (outcome, m) => (outcome, m.engine.result)) =
        some (.ok .returned, "6") := by
    decide +kernel
  obtain ⟨⟨_, m₁⟩, run, shown⟩ := Option.map_eq_some_iff.1 ended
  obtain ⟨rfl, result⟩ := Prod.mk.inj shown
  obtain ⟨front, last, _, _, _, _, _, value, m₂, -, -, -, -, rfl, reads, valued, -⟩ :=
    (return_ends_one_evaluation SessionNative.host 9).2.2.2.2 _ _ _ run
  obtain rfl : value = "6" := result
  exact ⟨front, last, _, reads, valued⟩

/-- In front of this loop a `return` is carried out, and gives back `early`.  The loop does not go into a
round, and does not return either, so the statement behind it is carried out and the result is `late`. -/
theorem return_before_loop_ends_nothing :
    ∃ visits m',
      Recorded.run (.ofHost ConsoleNative.host 9) true
        (.block [
          .loop (some (.giveBack (some (.literal "early" ⟨11, 18, 1⟩)) ⟨4, 18, 1⟩))
            (some (.literal "0" ⟨20, 21, 1⟩)) none (.empty ⟨24, 25, 1⟩) ⟨0, 25, 1⟩,
          .expression (.literal "late" ⟨26, 32, 1⟩) ⟨26, 32, 1⟩] ⟨0, 33, 1⟩) [] ConsoleMachine.start =
        some (.ok (.normal, visits), m') ∧
      (∃ v ∈ visits, v.stmt.isReturn = true) ∧ m'.engine.result = "late" := by
  refine ⟨_, _, rfl, ?_, rfl⟩
  simp [Stmt.isReturn]

end ScriptEngine
