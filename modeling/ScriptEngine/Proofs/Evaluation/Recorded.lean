import ScriptEngine.Proofs.Evaluation.Plain
import ScriptEngine.Proofs.Tree.StatementGrammar

/-!
# Runs that keep a record

The evaluator of this file does what the original one does and keeps a record of the statements that it
carries out, each with the machine on which it was begun (`Recorded.run`).  Statements that are only
walked over are not recorded.  Nor are those of the scripts that natives evaluate: natives are called
without a record.  Statements that are carried out in front of a loop are recorded with a mark, for a
loop takes no notice of how they end.

Without its record the recorded run is the original one (`Recorded.run_forgotten`).
-/

namespace ScriptEngine

variable {ν σ α β : Type}

/-- A statement that was carried out, and the machine on which it was begun. -/
structure Visit (ν σ : Type) where
  stmt : Stmt
  machine : Machine ν σ
  /-- It was carried out in front of a loop, by itself or as a part of what stands there. -/
  inStart : Bool

/-- A run that keeps a record of the statements carried out, the latest first. -/
abbrev Recorded (ν σ α : Type) := StateT (List (Visit ν σ)) (Run ν σ) α

namespace Recorded

/-- A run that records nothing. -/
def unrecorded (x : Run ν σ α) : Recorded ν σ α := fun visits => do
  let a ← x
  return (a, visits)

/-- Begins a statement, and records it if it is carried out. -/
def begin (exec : Bool) (s : Stmt) : Recorded ν σ Unit := fun visits m =>
  (do enter exec s.span; return ((), if exec then ⟨s, m, false⟩ :: visits else visits) : Run ν σ _) m

/-- Marks all that `x` records as carried out in front of a loop, and does not say how it ended. -/
def aside (x : Recorded ν σ α) : Recorded ν σ Unit := fun visits => do
  let (_, new) ← x []
  return ((), new.map (fun v => { v with inStart := true }) ++ visits)

/-- The rounds of a loop whose body is recorded. -/
def rounds (condition increment : Run ν σ String) (body : Recorded ν σ Flow) :
    (rounds : Nat) → (value : String) → Recorded ν σ Flow
  | 0, value => if continuesLoop value then unrecorded Run.cutShort else pure .normal
  | n + 1, value =>
    if continuesLoop value then do
      match ← body with
      | .returned => return .returned
      | .normal =>
        let _ ← unrecorded increment
        let value ← unrecorded condition
        rounds condition increment body n value
    else
      pure .normal

mutual

/-- Carries out a statement and keeps a record. -/
def run (i : Interpreter ν σ) (exec : Bool) : Stmt → Recorded ν σ Flow
  | .empty span => do
    begin exec (.empty span)
    return .normal
  | .expression expr span => do
    begin exec (.expression expr span)
    let value ← unrecorded (expr.eval i exec)
    unrecorded (yieldResult exec value)
    return .normal
  | .block statements span => do
    begin exec (.block statements span)
    runAll i exec statements
  | .choice condition thenBranch elseBranch span => do
    begin exec (.choice condition thenBranch elseBranch span)
    let value ← unrecorded (condition.eval i exec)
    let taken := exec && selectsThen value
    match ← run i taken thenBranch with
    | .returned => return .returned
    | .normal =>
      match elseBranch with
      | none => return .normal
      | some other => run i (exec && !taken) other
  | .loop start condition increment body span => do
    begin exec (.loop start condition increment body span)
    runStart i exec start
    let value ← unrecorded (evalOptional i exec condition)
    let _ ← unrecorded (evalOptional i false increment)
    let _ ← run i false body
    if exec then
      rounds (evalOptional i true condition) (evalOptional i true increment) (run i true body)
        i.rounds value
    else
      return .normal
  | .declare declarators span => do
    begin exec (.declare declarators span)
    let value ← unrecorded (declareAll i exec "" declarators)
    unrecorded (yieldResult exec value)
    return .normal
  | .giveBack given span => do
    begin exec (.giveBack given span)
    let value ← unrecorded (evalOptional i exec given)
    unrecorded (yieldResult exec value)
    return if exec then .returned else .normal

/-- Carries out what stands in front of a loop and keeps a record.  A declaration or an expression there
is not a statement that is begun. -/
def runStart (i : Interpreter ν σ) (exec : Bool) : Option Stmt → Recorded ν σ Unit
  | none => pure ()
  | some (.declare declarators span) =>
    unrecorded (ScriptEngine.runStart i exec (some (.declare declarators span)))
  | some (.expression e span) =>
    unrecorded (ScriptEngine.runStart i exec (some (.expression e span)))
  | some other => aside (run i exec other)

/-- Carries out statements in order, up to the first that returns, and keeps a record. -/
def runAll (i : Interpreter ν σ) (exec : Bool) : List Stmt → Recorded ν σ Flow
  | [] => pure .normal
  | s :: rest => do
    match ← run i exec s with
    | .returned => return .returned
    | .normal => runAll i exec rest

end

/-! ## Without the record -/

/-- Without its record the first run is the second, whatever was recorded before. -/
def Forgotten (x : Recorded ν σ α) (y : Run ν σ α) : Prop :=
  ∀ visits, Prod.fst <$> x visits = y

namespace Forgotten

variable {x : Recorded ν σ α} {y : Run ν σ α}

lemma pure {a : α} : Forgotten (pure a : Recorded ν σ α) (pure a) :=
  fun _ => rfl

lemma unrecorded (x : Run ν σ α) : Forgotten (unrecorded x) x := by
  intro visits
  simp [Recorded.unrecorded]

lemma bind {k : α → Recorded ν σ β} {k' : α → Run ν σ β} (first : Forgotten x y)
    (rest : ∀ a, Forgotten (k a) (k' a)) : Forgotten (x >>= k) (y >>= k') := by
  intro visits
  calc
    Prod.fst <$> (x >>= k) visits
      = x visits >>= fun p => Prod.fst <$> k p.1 p.2 := map_bind _ _ _
    _ = x visits >>= fun p => k' p.1 := bind_congr fun p => rest p.1 p.2
    _ = (Prod.fst <$> x visits) >>= k' := (bind_map_left _ _ _).symm
    _ = y >>= k' := by rw [first visits]

lemma begin (exec : Bool) (s : Stmt) : Forgotten (begin exec s : Recorded ν σ Unit) (enter exec s.span) := by
  intro visits
  funext m
  cases exec <;> rfl

lemma aside (same : Forgotten x y) : Forgotten (aside x) (do let _ ← y) := by
  intro visits
  calc
    Prod.fst <$> Recorded.aside x visits = x [] >>= fun _ => Pure.pure () := by
      simp [Recorded.aside]
    _ = (Prod.fst <$> x []) >>= fun _ => Pure.pure () :=
      (bind_map_left Prod.fst (x []) fun _ => Pure.pure ()).symm
    _ = (do let _ ← y) := by rw [same []]

end Forgotten

lemma rounds_forgotten (condition increment : Run ν σ String) {body : Recorded ν σ Flow}
    {body' : Run ν σ Flow} (same : Forgotten body body') (n : Nat) (value : String) :
    Forgotten (rounds condition increment body n value) (loopRounds condition increment body' n value) := by
  induction n generalizing value with
  | zero =>
    unfold rounds loopRounds
    split
    · exact .unrecorded Run.cutShort
    · exact .pure
  | succ n ih =>
    unfold rounds loopRounds
    split
    · apply same.bind
      intro flow
      cases flow with
      | returned => exact .pure
      | normal => exact (Forgotten.unrecorded increment).bind fun _ =>
          (Forgotten.unrecorded condition).bind ih
    · exact .pure

variable (i : Interpreter ν σ)

mutual

/-- The recorded run of a statement does what the original one does. -/
theorem run_forgotten (exec : Bool) : ∀ s : Stmt, Forgotten (run i exec s) (s.run i exec)
  | .empty span => by
    simp only [run, Stmt.run]
    exact (Forgotten.begin exec (.empty span)).bind fun _ => .pure
  | .expression expr span => by
    simp only [run, Stmt.run]
    exact (Forgotten.begin exec (.expression expr span)).bind fun _ =>
      (Forgotten.unrecorded _).bind fun value => (Forgotten.unrecorded _).bind fun _ => .pure
  | .block statements span => by
    simp only [run, Stmt.run]
    exact (Forgotten.begin exec (.block statements span)).bind fun _ => runAll_forgotten exec statements
  | .choice condition thenBranch elseBranch span => by
    simp only [run, Stmt.run]
    refine (Forgotten.begin exec (.choice condition thenBranch elseBranch span)).bind fun _ =>
      (Forgotten.unrecorded _).bind fun value => (run_forgotten _ thenBranch).bind fun flow => ?_
    cases flow with
    | returned => exact .pure
    | normal =>
      cases elseBranch with
      | none => exact .pure
      | some other => exact run_forgotten _ other
  | .loop start condition increment body span => by
    simp only [run, Stmt.run]
    refine (Forgotten.begin exec (.loop start condition increment body span)).bind fun _ =>
      (runStart_forgotten exec start).bind fun _ => (Forgotten.unrecorded _).bind fun value =>
      (Forgotten.unrecorded _).bind fun _ => (run_forgotten false body).bind fun _ => ?_
    split
    · exact rounds_forgotten _ _ (run_forgotten true body) i.rounds value
    · exact .pure
  | .declare declarators span => by
    simp only [run, Stmt.run]
    exact (Forgotten.begin exec (.declare declarators span)).bind fun _ =>
      (Forgotten.unrecorded _).bind fun value => (Forgotten.unrecorded _).bind fun _ => .pure
  | .giveBack given span => by
    simp only [run, Stmt.run]
    exact (Forgotten.begin exec (.giveBack given span)).bind fun _ =>
      (Forgotten.unrecorded _).bind fun value => (Forgotten.unrecorded _).bind fun _ => .pure

lemma runStart_forgotten (exec : Bool) :
    ∀ start : Option Stmt, Forgotten (runStart i exec start) (ScriptEngine.runStart i exec start)
  | none => by
    simp only [runStart, ScriptEngine.runStart]
    exact .pure
  | some s => by
    have whole := run_forgotten exec s
    cases s with
    | declare declarators span => exact .unrecorded _
    | expression e span => exact .unrecorded _
    | _ => exact .aside whole

lemma runAll_forgotten (exec : Bool) :
    ∀ statements : List Stmt, Forgotten (runAll i exec statements) (ScriptEngine.runAll i exec statements)
  | [] => by
    simp only [runAll, ScriptEngine.runAll]
    exact .pure
  | s :: rest => by
    simp only [runAll, ScriptEngine.runAll]
    refine (run_forgotten exec s).bind fun flow => ?_
    cases flow with
    | returned => exact .pure
    | normal => exact runAll_forgotten exec rest

end

/-! ## What is put on record -/

lemma bind_eq_ok {x : Recorded ν σ α} {k : α → Recorded ν σ β} {visits visits' : List (Visit ν σ)}
    {m m' : Machine ν σ} {b : β} :
    (x >>= k) visits m = some (.ok (b, visits'), m') ↔
      ∃ a between m₁, x visits m = some (.ok (a, between), m₁) ∧
        k a between m₁ = some (.ok (b, visits'), m') := by
  constructor
  · intro run
    obtain ⟨⟨a, between⟩, m₁, first, rest⟩ := Run.bind_eq_ok.1 run
    exact ⟨a, between, m₁, first, rest⟩
  · rintro ⟨a, between, m₁, first, rest⟩
    exact Run.bind_eq_ok.2 ⟨(a, between), m₁, first, rest⟩

lemma pure_eq_ok {a b : α} {visits visits' : List (Visit ν σ)} {m m' : Machine ν σ} :
    (pure a : Recorded ν σ α) visits m = some (.ok (b, visits'), m') ↔
      a = b ∧ visits = visits' ∧ m = m' := by
  change (pure (a, visits) : Run ν σ _) m = _ ↔ _
  rw [Run.pure_eq_ok, Prod.mk.injEq, and_assoc]

lemma unrecorded_eq_ok {x : Run ν σ α} {a : α} {visits visits' : List (Visit ν σ)}
    {m m' : Machine ν σ} :
    unrecorded x visits m = some (.ok (a, visits'), m') ↔ x m = some (.ok a, m') ∧ visits' = visits := by
  unfold unrecorded
  simp only [Run.bind_eq_ok, Run.pure_eq_ok, Prod.mk.injEq]
  constructor
  · rintro ⟨_, _, run, ⟨rfl, rfl⟩, rfl⟩
    exact ⟨run, rfl⟩
  · rintro ⟨run, rfl⟩
    exact ⟨a, m', run, ⟨rfl, rfl⟩, rfl⟩

lemma begin_eq_ok {exec : Bool} {s : Stmt} {u : Unit} {visits visits' : List (Visit ν σ)}
    {m m' : Machine ν σ} :
    begin exec s visits m = some (.ok (u, visits'), m') ↔
      (visits' = if exec then ⟨s, m, false⟩ :: visits else visits) ∧
        m' = if exec then m.markLine s.span.line else m := by
  cases exec <;> simp [begin, enter, Run.onlyIf, Run.modify, Bind.bind, Run.bind, Pure.pure, Run.pure,
    eq_comm]

/-- All that the run puts on record satisfies `P`. -/
def Records (P : Visit ν σ → Prop) (x : Recorded ν σ α) : Prop :=
  ∀ visits m a visits' m', x visits m = some (.ok (a, visits'), m') →
    ∃ new, visits' = new ++ visits ∧ ∀ v ∈ new, P v

namespace Records

variable {P : Visit ν σ → Prop} {x : Recorded ν σ α}

lemma pure (a : α) : Records P (pure a) := by
  intro visits m b visits' m' run
  obtain ⟨-, rfl, -⟩ := pure_eq_ok.1 run
  exact ⟨[], rfl, by simp⟩

lemma unrecorded (x : Run ν σ α) : Records P (unrecorded x) := by
  intro visits m a visits' m' run
  obtain ⟨-, rfl⟩ := unrecorded_eq_ok.1 run
  exact ⟨[], rfl, by simp⟩

lemma begin (exec : Bool) {s : Stmt} (begun : ∀ m, P ⟨s, m, false⟩) : Records P (begin exec s) := by
  intro visits m u visits' m' run
  obtain ⟨rfl, -⟩ := begin_eq_ok.1 run
  cases exec with
  | false => exact ⟨[], rfl, by simp⟩
  | true => exact ⟨[⟨s, m, false⟩], rfl, by simpa using begun m⟩

lemma aside (x : Recorded ν σ α) (marked : ∀ v : Visit ν σ, P { v with inStart := true }) :
    Records P (aside x) := by
  intro visits m u visits' m' run
  obtain ⟨⟨a, new⟩, m₁, -, ended⟩ := Run.bind_eq_ok.1 run
  obtain ⟨ended, -⟩ := Run.pure_eq_ok.1 ended
  cases ended
  refine ⟨_, rfl, fun v mem => ?_⟩
  obtain ⟨v, -, rfl⟩ := List.mem_map.1 mem
  exact marked v

lemma bind {k : α → Recorded ν σ β} (first : Records P x) (rest : ∀ a, Records P (k a)) :
    Records P (x >>= k) := by
  intro visits m b visits' m' run
  obtain ⟨a, between, m₁, begun, ended⟩ := bind_eq_ok.1 run
  obtain ⟨before, rfl, all⟩ := first _ _ _ _ _ begun
  obtain ⟨new, rfl, all'⟩ := rest a _ _ _ _ _ ended
  exact ⟨new ++ before, by simp, List.forall_mem_append.2 ⟨all', all⟩⟩

end Records

/-! ## Marks -/

/-- Nothing is recorded as carried out in front of a loop. -/
abbrev Unmarked (x : Recorded ν σ α) : Prop :=
  Records (fun v => v.inStart = false) x

/-- Declarations and expressions are not put on record. -/
lemma runStart_unmarked (exec : Bool) (start : Option Stmt) (clause : start.all Stmt.isClause = true) :
    Unmarked (runStart i exec start) := by
  cases start with
  | none => exact .pure ()
  | some s =>
    cases s with
    | declare declarators span => exact .unrecorded _
    | expression e span => exact .unrecorded _
    | _ => cases clause

lemma rounds_unmarked (condition increment : Run ν σ String) {body : Recorded ν σ Flow}
    (bodies : Unmarked body) (n : Nat) (value : String) :
    Unmarked (rounds condition increment body n value) := by
  induction n generalizing value with
  | zero =>
    unfold rounds
    split
    · exact .unrecorded _
    · exact .pure _
  | succ n ih =>
    unfold rounds
    split
    · apply bodies.bind
      intro flow
      cases flow with
      | returned => exact .pure _
      | normal => exact (Records.unrecorded increment).bind fun _ =>
          (Records.unrecorded condition).bind ih
    · exact .pure _

mutual

/-- Only statements in front of loops are marked. -/
lemma run_unmarked (exec : Bool) : ∀ s : Stmt, s.startsAreClauses = true → Unmarked (run i exec s)
  | .empty span, _ => by
    simp only [run]
    exact (Records.begin exec fun _ => rfl).bind fun _ => .pure _
  | .expression expr span, _ => by
    simp only [run]
    exact (Records.begin exec fun _ => rfl).bind fun _ => (Records.unrecorded _).bind fun _ =>
      (Records.unrecorded _).bind fun _ => .pure _
  | .block statements span, clauses => by
    simp only [run]
    exact (Records.begin exec fun _ => rfl).bind fun _ => runAll_unmarked exec statements clauses
  | .choice condition thenBranch elseBranch span, clauses => by
    simp only [run]
    rw [Stmt.startsAreClauses, Bool.and_eq_true] at clauses
    refine (Records.begin exec fun _ => rfl).bind fun _ => (Records.unrecorded _).bind fun value =>
      (run_unmarked _ thenBranch clauses.1).bind fun flow => ?_
    cases flow with
    | returned => exact .pure _
    | normal =>
      cases elseBranch with
      | none => exact .pure _
      | some other => exact run_unmarked _ other clauses.2
  -- A start that is a clause records nothing, and neither do condition and increment: what is
  -- recorded behind the loop itself comes from its body.
  | .loop start condition increment body span, clauses => by
    simp only [run]
    rw [Stmt.startsAreClauses, Bool.and_eq_true] at clauses
    refine (Records.begin exec fun _ => rfl).bind fun _ => (runStart_unmarked i exec start clauses.1).bind
      fun _ => (Records.unrecorded _).bind fun value => (Records.unrecorded _).bind fun _ =>
      (run_unmarked false body clauses.2).bind fun _ => ?_
    split
    · exact rounds_unmarked _ _ (run_unmarked true body clauses.2) i.rounds value
    · exact .pure _
  | .declare declarators span, _ => by
    simp only [run]
    exact (Records.begin exec fun _ => rfl).bind fun _ => (Records.unrecorded _).bind fun _ =>
      (Records.unrecorded _).bind fun _ => .pure _
  | .giveBack given span, _ => by
    simp only [run]
    exact (Records.begin exec fun _ => rfl).bind fun _ => (Records.unrecorded _).bind fun _ =>
      (Records.unrecorded _).bind fun _ => .pure _

lemma runAll_unmarked (exec : Bool) : ∀ statements : List Stmt,
    Stmt.allStartsAreClauses statements = true → Unmarked (runAll i exec statements)
  | [], _ => by
    simp only [runAll]
    exact .pure _
  | s :: rest, clauses => by
    simp only [runAll]
    rw [Stmt.allStartsAreClauses, Bool.and_eq_true] at clauses
    refine (run_unmarked exec s clauses.1).bind fun flow => ?_
    cases flow with
    | returned => exact .pure _
    | normal => exact runAll_unmarked exec rest clauses.2

end

end Recorded
end ScriptEngine
