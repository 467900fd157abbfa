import ScriptEngine.Proofs.Evaluation.Framing
import ScriptEngine.Proofs.Tree.ExpressionGrammar

/-!
# Steps as assignments

`x++` is short for `x = (x)++`, and `x--` for `x = (x)--`.  The two are carried out in different ways.
The step writes to the tier in which it found the variable; the assignment computes its value first, by a
chain that ends without an operand, and then looks the variable up once more to find out where it belongs.
They come to the same: the same value and the same tables, or the same failure and tables that are as they
were (`step_eq_assignment`).

Only one table is written, the one of the tier in which the variable was found.
-/

namespace ScriptEngine

variable {ν σ : Type}

/-! ## The tables of the two tiers -/

namespace Scopes

/-- The table that a tier stands for; there is none for blocks when no block is open. -/
def table (tier : Tier) (s : Scopes) : Option VariableTable :=
  match tier with
  | .block => s.blocks.head?.map Block.table
  | .global => some s.global

/-- The tables below the innermost one, apart from the global one. -/
def outerTables (s : Scopes) : List VariableTable :=
  s.blocks.tail.map Block.table

variable {name : String} {s : Scopes}

/-- An assignment writes where a lookup finds the variable. -/
lemma assign_of_lookup {tier : Tier} {old : Option String} (found : s.lookup name = some (tier, old))
    (value : String) : s.assign name value = s.bind tier name (some value) := by
  simp only [assign, assignTier, found]

/-- A variable is found among blocks only if one is open. -/
lemma blocks_ne_nil_of_lookup {old : Option String} (found : s.lookup name = some (.block, old)) :
    s.blocks ≠ [] := by
  intro none
  simp [lookup, none] at found

/-- Binding a variable in the tier in which it was found changes the table of no other tier. -/
lemma table_bind_of_ne {tier other : Tier} {old : Option String}
    (found : s.lookup name = some (tier, old)) (different : other ≠ tier) (value : Option String) :
    (s.bind tier name value).table other = s.table other := by
  cases tier with
  | global =>
    cases other with
    | global => exact absurd rfl different
    | block => rfl
  | block =>
    cases other with
    | block => exact absurd rfl different
    | global =>
      have : s.blocks ≠ [] := blocks_ne_nil_of_lookup found
      obtain ⟨global, blocks, opened⟩ := s
      cases blocks with
      | nil => contradiction
      | cons b rest => rfl

lemma outerTables_bind (tier : Tier) (name : String) (value : Option String) (s : Scopes) :
    (s.bind tier name value).outerTables = s.outerTables := by
  obtain ⟨global, blocks, opened⟩ := s
  cases tier <;> cases blocks <;> rfl

end Scopes

/-! ## The two ways of writing a step -/

/-- Where the parts of `x = (x)++` stand. -/
structure SpelledStep where
  whole : Span
  chain : Span
  group : Span
  name : Span
  /-- The place behind the operator, where an operand could stand. -/
  behind : Span

/-- A step as an assignment: `x = (x)++` for `x++`. -/
def Expr.spelledStep (name : String) (op : Operator) (places : SpelledStep) : Expr :=
  .assign name
    (.chain (.grouping (.read name places.name) places.group) [(op, .empty places.behind)]
      places.chain)
    places.whole

/-- The words of the assignment are those of `x = (x)++`. -/
lemma Expr.words_spelledStep (name : String) (op : Operator) (places : SpelledStep) :
    (Expr.spelledStep name op places).words =
      [⟨.name, name⟩, .symbol .assign, .symbol .leftParen, ⟨.name, name⟩, .symbol .rightParen,
        .symbol (.operator op)] := by
  simp [spelledStep, words, linkWords]

/-- How a run ends, without the places of errors. -/
def Run.ending {α : Type} (x : Run ν σ α) (m : Machine ν σ) :
    Option (Except Fault α × Machine ν σ) :=
  (x m).map fun (outcome, m') => (outcome.mapError ScriptError.fault, m')

/-- What a step comes to, whichever way it is written: the variable is unknown, or the operator cannot
be applied to its value, or it gets a new value in the tier that it was found in. -/
inductive StepEnds (name : String) (op : Operator) (m : Machine ν σ) :
    Except Fault String → Machine ν σ → Prop
  | unknown (unknown : m.scopes.lookup name = none) :
    StepEnds name op m (.error (.runtime (.undefinedVariable name))) m
  | refused {tier : Tier} {old : Option String} {fault : OperatorFault}
    (found : m.scopes.lookup name = some (tier, old)) (fails : op.apply (old.getD "") "" = .error fault) :
    StepEnds name op m (.error (.runtime (.operator fault))) m
  | stepped {tier : Tier} {old : Option String} {value : String}
    (found : m.scopes.lookup name = some (tier, old)) (computed : op.apply (old.getD "") "" = .ok value) :
    StepEnds name op m (.ok value) (m.setScopes (m.scopes.bind tier name (some value)))

namespace StepEnds

variable {name : String} {op : Operator} {m m' : Machine ν σ} {outcome : Except Fault String}

lemma exists_ends (name : String) (op : Operator) (m : Machine ν σ) :
    ∃ outcome m', StepEnds name op m outcome m' := by
  cases found : m.scopes.lookup name with
  | none => exact ⟨_, _, .unknown found⟩
  | some binding =>
    obtain ⟨tier, old⟩ := binding
    cases computed : op.apply (old.getD "") "" with
    | error fault => exact ⟨_, _, .refused found computed⟩
    | ok value => exact ⟨_, _, .stepped found computed⟩

/-- A step that fails changes nothing. -/
lemma machine_of_error (ends : StepEnds name op m outcome m') {fault : Fault}
    (fails : outcome = .error fault) : m' = m := by
  cases ends with
  | unknown | refused => rfl
  | stepped => cases fails

/-- A step changes no table but that of the tier in which the variable is found. -/
lemma table_of_ne (ends : StepEnds name op m outcome m') {tier other : Tier} {old : Option String}
    (found : m.scopes.lookup name = some (tier, old)) (different : other ≠ tier) :
    m'.scopes.table other = m.scopes.table other := by
  cases ends with
  | unknown | refused => rfl
  | stepped found' =>
    obtain ⟨rfl, rfl⟩ : _ = tier ∧ _ = old := by simpa [found'] using found
    rw [Machine.scopes_setScopes, Scopes.table_bind_of_ne found different]

lemma outerTables (ends : StepEnds name op m outcome m') :
    m'.scopes.outerTables = m.scopes.outerTables := by
  cases ends with
  | unknown | refused => rfl
  | stepped => rw [Machine.scopes_setScopes, Scopes.outerTables_bind]

end StepEnds

section

variable (i : Interpreter ν σ) {name : String} {op : Operator} {m m' : Machine ν σ}
  {outcome : Except Fault String}

lemma ending_step (ends : StepEnds name op m outcome m') (span : Span) :
    ((Expr.step name op span).eval i true).ending m = some (outcome, m') := by
  simp only [Expr.eval, if_true, Run.ending, stepVariable]
  cases ends with
  | unknown unknown => simp [bind, Run.bind, resolve, unknown, Run.fail, Run.throw, Except.mapError]
  | refused found fails =>
    simp [bind, Run.bind, resolve, found, fails, Run.ofOperator, Run.fail, Run.throw, Except.mapError]
  | stepped found computed =>
    simp [bind, Run.bind, resolve, found, computed, Run.ofOperator, Run.modify, pure, Run.pure,
      Except.mapError]

/-- The right side of the assignment leaves the scopes alone, so the second lookup finds what the first
one did. -/
lemma ending_spelledStep (ends : StepEnds name op m outcome m') (places : SpelledStep) :
    ((Expr.spelledStep name op places).eval i true).ending m = some (outcome, m') := by
  simp only [Expr.spelledStep, Expr.eval, evalChain, if_true, Run.ending]
  cases ends with
  | unknown unknown =>
    simp [bind, Run.bind, resolve, unknown, Run.fail, Run.throw, Except.mapError]
  | refused found fails =>
    simp [bind, Run.bind, resolve, found, fails, Run.ofOperator, Run.fail, Run.throw, pure, Run.pure,
      Except.mapError]
  | stepped found computed =>
    simp [bind, Run.bind, resolve, found, computed, Run.ofOperator, Run.onlyIf, Run.modify, pure,
      Run.pure, Except.mapError, Scopes.assign_of_lookup found]

/-- `x++` and `x = (x)++` do the same on every machine.  Both give the same value and leave the same
machine, or both fail with the same fault and leave the machine as it was; and they change no table but
that of the tier in which the variable is found. -/
theorem step_eq_assignment (name : String) (op : Operator) (span : Span) (places : SpelledStep)
    (m : Machine ν σ) :
    (Expr.spelledStep name op places).words =
      [⟨.name, name⟩, .symbol .assign, .symbol .leftParen, ⟨.name, name⟩, .symbol .rightParen,
        .symbol (.operator op)] ∧
    ∃ outcome m',
      StepEnds name op m outcome m' ∧
      ((Expr.step name op span).eval i true).ending m = some (outcome, m') ∧
      ((Expr.spelledStep name op places).eval i true).ending m = some (outcome, m') ∧
      (∀ fault, outcome = .error fault → m' = m) ∧
      (∀ tier old, m.scopes.lookup name = some (tier, old) →
        ∀ other, other ≠ tier → m'.scopes.table other = m.scopes.table other) ∧
      m'.scopes.outerTables = m.scopes.outerTables := by
  obtain ⟨outcome, m', ends⟩ := StepEnds.exists_ends name op m
  exact ⟨Expr.words_spelledStep name op places, outcome, m', ends, ending_step i ends span,
    ending_spelledStep i ends places, fun _ fails => ends.machine_of_error fails,
    fun _ _ found _ different => ends.table_of_ne found different, ends.outerTables⟩

end

end ScriptEngine
