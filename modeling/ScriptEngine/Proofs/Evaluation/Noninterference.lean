import Mathlib.Control.Monad.Basic
import Mathlib.Data.Set.Defs
import ScriptEngine.Proofs.Evaluation.Framing

/-!
# What an evaluation depends on

A script looks its variables up in the innermost table and in the global one, and it writes them
there.  So two engines on which those two tables give the same bindings to the variables that occur
in a script, and on which a block is open or none is, carry it out in the same way: with the same
outcome, the same calls of natives and the same bindings afterwards
(`evaluate_noninterference`).  The tables in between, other variables, the last result, the last
failure and the lines do not matter.

That takes natives that look at nothing but their arguments (`Callback.Closed`).  The value of a call
is the result that the native leaves, so the results of the two engines must not part on the way:
they are made equal at the beginning of an evaluation, and every native leaves the same on both
sides or leaves them alone.
-/

namespace ScriptEngine

variable {ν σ : Type}

/-! ## Scopes that agree -/

/-- The innermost and the global tables have the same bindings of the names, and if one scope has an
open block, so has the other. -/
structure Scopes.AgreeOn (names : Set String) (s s' : Scopes) : Prop where
  flat : s.blocks = [] ↔ s'.blocks = []
  current : ∀ name ∈ names, s.current[name]? = s'.current[name]?
  global : ∀ name ∈ names, s.global[name]? = s'.global[name]?

/-- Tables that have the same bindings of names have them after the same change. -/
lemma VariableTable.insert_agree {names : Set String} {t t' : VariableTable}
    (same : ∀ name ∈ names, t[name]? = t'[name]?) (name : String) (value : Option String) :
    ∀ other ∈ names, (t.insert name value)[other]? = (t'.insert name value)[other]? := by
  intro other mem
  simp only [Std.ExtTreeMap.getElem?_insert, same other mem]

namespace Scopes.AgreeOn

variable {names : Set String} {s s' : Scopes} {name : String}

lemma refl (names : Set String) (s : Scopes) : AgreeOn names s s :=
  ⟨Iff.rfl, fun _ _ => rfl, fun _ _ => rfl⟩

lemma lookup (agree : AgreeOn names s s') (mem : name ∈ names) : s.lookup name = s'.lookup name := by
  obtain ⟨flat, current, global⟩ := agree
  obtain ⟨_, blocks, _⟩ := s
  obtain ⟨_, blocks', _⟩ := s'
  cases blocks with
  | nil =>
    obtain rfl : blocks' = [] := flat.1 rfl
    simp only [Scopes.lookup, global name mem]
  | cons b rest =>
    cases blocks' with
    | nil => cases flat.2 rfl
    | cons b' rest' =>
      have same : b.table[name]? = b'.table[name]? := current name mem
      simp only [Scopes.lookup, same, global name mem]

lemma bindGlobal (agree : AgreeOn names s s') (name : String) (value : Option String) :
    AgreeOn names (s.bindGlobal name value) (s'.bindGlobal name value) := by
  obtain ⟨flat, current, global⟩ := agree
  have written := VariableTable.insert_agree global name value
  obtain ⟨_, blocks, _⟩ := s
  obtain ⟨_, blocks', _⟩ := s'
  cases blocks with
  | nil =>
    obtain rfl : blocks' = [] := flat.1 rfl
    exact ⟨flat, written, written⟩
  | cons b rest =>
    cases blocks' with
    | nil => cases flat.2 rfl
    | cons b' rest' => exact ⟨flat, current, written⟩

lemma bindCurrent (agree : AgreeOn names s s') (name : String) (value : Option String) :
    AgreeOn names (s.bindCurrent name value) (s'.bindCurrent name value) := by
  have globally := agree.bindGlobal name value
  obtain ⟨flat, current, global⟩ := agree
  obtain ⟨_, blocks, _⟩ := s
  obtain ⟨_, blocks', _⟩ := s'
  cases blocks with
  | nil =>
    obtain rfl : blocks' = [] := flat.1 rfl
    exact globally
  | cons b rest =>
    cases blocks' with
    | nil => cases flat.2 rfl
    | cons b' rest' => exact ⟨by simp [Scopes.bindCurrent], VariableTable.insert_agree current name value, global⟩

lemma bind (agree : AgreeOn names s s') (tier : Tier) (name : String) (value : Option String) :
    AgreeOn names (s.bind tier name value) (s'.bind tier name value) := by
  cases tier with
  | block => exact agree.bindCurrent name value
  | global => exact agree.bindGlobal name value

lemma assign (agree : AgreeOn names s s') (mem : name ∈ names) (v : String) :
    AgreeOn names (s.assign name v) (s'.assign name v) := by
  have tier : s.assignTier name = s'.assignTier name := by
    rw [assignTier, assignTier, agree.lookup mem]
  rw [Scopes.assign, Scopes.assign, tier]
  exact agree.bind _ name (some v)

end Scopes.AgreeOn

/-! ## Closed natives -/

/-- A native that looks at nothing but its arguments and changes nothing but the result: it may leave
a text there, the same on every machine, and then it is done or gives up. -/
def Callback.Closed (x : Callback ν σ Unit) : Prop :=
  ∃ (left : Option String) (outcome : Except String Unit), ∀ evaluate m,
    x.run evaluate m = some (outcome, left.elim m fun text => m.setResult text)

/-- All natives in a table are closed. -/
def Host.ClosedOn (host : Host ν σ) (table : FunctionTable ν) : Prop :=
  ∀ (name : String) (native : ν), table[name]? = some native → ∀ args, (host native args).Closed

namespace Callback.Closed

lemma fail (message : String) : (Callback.fail message : Callback ν σ Unit).Closed :=
  ⟨none, .error message, fun _ _ => rfl⟩

lemma setResult (text : String) : (Callback.setResult text : Callback ν σ Unit).Closed :=
  ⟨some text, .ok (), fun _ _ => rfl⟩

lemma orFail {ε α : Type} {message : ε → String} {result : Except ε α}
    {k : α → Callback ν σ Unit} (rest : ∀ a, (k a).Closed) :
    (Callback.orFail message result >>= k).Closed := by
  cases result with
  | ok a => exact rest a
  | error e => exact fail (message e)

end Callback.Closed

/-- The natives of the console are closed, but for the one that prints. -/
lemma ConsoleNative.host_closed {native : ConsoleNative} (quiet : native ≠ print)
    (args : List String) : (ConsoleNative.host native args).Closed := by
  cases native with
  | print => exact absurd rfl quiet
  | length =>
    apply Callback.Closed.orFail
    intro _
    exact .orFail fun _ => .setResult _
  | repeated =>
    apply Callback.Closed.orFail
    intro _
    apply Callback.Closed.orFail
    intro _
    exact .orFail fun _ => .setResult _

/-! ## Machines that agree -/

/-- What has been called on two machines since they were `m₀` and `n₀`. -/
def Machine.SameCalls (m₀ n₀ m n : Machine ν σ) : Prop :=
  ∃ calls, m.world.calls = calls ++ m₀.world.calls ∧ n.world.calls = calls ++ n₀.world.calls

/-- The machines agree on all that the evaluation of a script with these variables can see; it began
on the machines `m₀` and `n₀`. -/
structure Machine.Alike (names : Set String) (table : FunctionTable ν) (m₀ n₀ m n : Machine ν σ) :
    Prop where
  left : m.functions = table
  right : n.functions = table
  scopes : m.scopes.AgreeOn names n.scopes
  result : m.engine.result = n.engine.result
  calls : Machine.SameCalls m₀ n₀ m n

namespace Machine.Alike

variable {names : Set String} {table : FunctionTable ν} {m₀ n₀ m n : Machine ν σ}

lemma markLine (alike : Alike names table m₀ n₀ m n) (line : Nat) :
    Alike names table m₀ n₀ (m.markLine line) (n.markLine line) := by
  obtain ⟨left, right, scopes, result, calls⟩ := alike
  obtain ⟨⟨_, _, _, _, _, _, _, inputs, _⟩, _⟩ := m
  obtain ⟨⟨_, _, _, _, _, _, _, inputs', _⟩, _⟩ := n
  cases inputs <;> cases inputs' <;> exact ⟨left, right, scopes, result, calls⟩

lemma setResult (alike : Alike names table m₀ n₀ m n) (text : String) :
    Alike names table m₀ n₀ (m.setResult text) (n.setResult text) :=
  { alike with result := rfl }

lemma noteCall (alike : Alike names table m₀ n₀ m n) (call : NativeCall) :
    Alike names table m₀ n₀ (m.noteCall call) (n.noteCall call) := by
  obtain ⟨calls, left, right⟩ := alike.calls
  refine { alike with calls := ⟨call :: calls, ?_, ?_⟩ }
  · exact congrArg (call :: ·) left
  · exact congrArg (call :: ·) right

lemma setScopes (alike : Alike names table m₀ n₀ m n) {s s' : Scopes}
    (agree : s.AgreeOn names s') : Alike names table m₀ n₀ (m.setScopes s) (n.setScopes s') where
  left := alike.left
  right := alike.right
  scopes := by
    rw [scopes_setScopes, scopes_setScopes]
    exact agree
  result := alike.result
  calls := alike.calls

lemma endInput (alike : Alike names table m₀ n₀ m n) :
    Alike names table m₀ n₀ m.endInput n.endInput := by
  obtain ⟨left, right, scopes, result, calls⟩ := alike
  obtain ⟨⟨_, _, _, _, _, _, _, inputs, _⟩, _⟩ := m
  obtain ⟨⟨_, _, _, _, _, _, _, inputs', _⟩, _⟩ := n
  cases inputs <;> cases inputs' <;> exact ⟨left, right, scopes, result, calls⟩

lemma noteFailure (alike : Alike names table m₀ n₀ m n) (script : String) (e : ScriptError) :
    Alike names table m₀ n₀ (m.noteFailure script e) (n.noteFailure script e) :=
  ⟨alike.left, alike.right, alike.scopes, alike.result, alike.calls⟩

end Machine.Alike

/-! ## Runs on machines that agree -/

section

open RunRelation

variable {names : Set String} {table : FunctionTable ν} {m₀ n₀ : Machine ν σ}

lemma resolve_alike {name : String} (mem : name ∈ names) (span : Span) :
    Run.Pairs (Machine.Alike names table m₀ n₀) (resolve name span) (resolve name span) := by
  intro m n alike
  unfold resolve
  rw [alike.scopes.lookup mem]
  cases n.scopes.lookup name with
  | none => exact .some ⟨rfl, alike⟩
  | some found => exact .some ⟨rfl, alike⟩

lemma checkUndeclared_alike {d : Declarator} (mem : d.name ∈ names) :
    Run.Pairs (Machine.Alike names table m₀ n₀) (checkUndeclared d) (checkUndeclared d) := by
  intro m n alike
  unfold checkUndeclared
  rw [alike.scopes.lookup mem]
  cases n.scopes.lookup d.name with
  | none => exact .some ⟨rfl, alike⟩
  | some found => exact .some ⟨rfl, alike⟩

lemma modifyScopes_alike {change : Scopes → Scopes}
    (agree : ∀ s s', s.AgreeOn names s' → (change s).AgreeOn names (change s')) :
    Run.Pairs (Machine.Alike names table m₀ n₀) (Run.modify fun m => m.setScopes (change m.scopes))
      (Run.modify fun m => m.setScopes (change m.scopes)) :=
  .modify fun _ _ alike => alike.setScopes (agree _ _ alike.scopes)

/-- A closed native does on both machines what it does on one. -/
lemma callNative_alike {host : Host ν σ} (closed : host.ClosedOn table)
    (evaluate : String → Run ν σ String) (name : String) (args : List String) (span : Span) :
    Run.Pairs (Machine.Alike names table m₀ n₀) (callNative host evaluate name args span)
      (callNative host evaluate name args span) := by
  intro m n alike
  unfold callNative
  rw [alike.left, alike.right]
  cases found : table[name]? with
  | none => exact .some ⟨rfl, alike⟩
  | some native =>
    have noted := alike.noteCall ⟨name, args⟩
    obtain ⟨left, outcome, runs⟩ := closed name native found args
    simp only [runs]
    have left_alike : Machine.Alike names table m₀ n₀
        (left.elim (m.noteCall ⟨name, args⟩) fun text => (m.noteCall ⟨name, args⟩).setResult text)
        (left.elim (n.noteCall ⟨name, args⟩) fun text =>
          (n.noteCall ⟨name, args⟩).setResult text) := by
      cases left with
      | none => exact noted
      | some text => exact noted.setResult text
    cases outcome with
    | error message => exact .some ⟨rfl, left_alike⟩
    | ok done => exact .some ⟨congrArg Except.ok left_alike.result, left_alike⟩

lemma covers_alike {host : Host ν σ} (closed : host.ClosedOn table) (fuel : Nat)
    {mention : Mention} (mem : ∀ name, mention.variableName? = some name → name ∈ names) :
    Covers (Run.Pairs (Machine.Alike names table m₀ n₀)) id (.ofHost host fuel) (.ofHost host fuel)
      mention := by
  refine Run.Pairs.composes.covers mention (fun name mentioned => ?_) fun name _ =>
    callNative_alike closed (evaluate host fuel) name
  refine ⟨resolve_alike (mem name mentioned), fun d same => ?_,
    fun v => modifyScopes_alike fun _ _ agree => agree.assign (mem name mentioned) v,
    fun tier value => modifyScopes_alike fun _ _ agree => agree.bind tier name value⟩
  rw [Declarator.mapSpan_id]
  exact checkUndeclared_alike (same ▸ mem name mentioned)

end

/-! ## Evaluations -/

/-- Of two computations that end alike, the second ends if the first does. -/
lemma exists_of_rel {α β : Type} {R : α → β → Prop} {x : Option α} {y : Option β} {a : α}
    (both : Option.Rel R x y) (first : x = some a) : ∃ b, y = some b ∧ R a b := by
  cases both with
  | none => cases first
  | @some _ b related =>
    cases first
    exact ⟨b, rfl, related⟩

/-- Two evaluations that began on `m` and `n` have ended in the same way: with the same outcome, the
same calls of natives, and the same bindings of the names. -/
structure EndedAlike (names : Set String) (m n : Machine ν σ)
    (r r' : Except ScriptError String × Machine ν σ) : Prop where
  outcome : r.1 = r'.1
  calls : Machine.SameCalls m n r.2 r'.2
  scopes : r.2.scopes.AgreeOn names r'.2.scopes
  left : r.2.functions = m.functions
  right : r'.2.functions = n.functions

lemma Machine.Alike.ended {names : Set String} {m₀ n₀ m n : Machine ν σ}
    (functions : m₀.functions = n₀.functions) (alike : Alike names m₀.functions m₀ n₀ m n)
    (outcome : Except ScriptError String) : EndedAlike names m₀ n₀ (outcome, m) (outcome, n) :=
  ⟨rfl, alike.calls, alike.scopes, alike.left, alike.right.trans functions⟩

lemma evaluate_endedAlike {host : Host ν σ} {names : Set String} {script : String}
    (occur : ∀ name ∈ (Script.ofText script).variableNames, name ∈ names) {m n : Machine ν σ}
    (closed : host.ClosedOn m.functions) (functions : m.functions = n.functions)
    (agree : m.scopes.AgreeOn names n.scopes) (fuel : Nat) :
    Option.Rel (EndedAlike names m n) (evaluate host fuel script m) (evaluate host fuel script n) := by
  cases fuel with
  | zero => exact .none
  | succ fuel =>
    have composes : RunRelation.ComposesStatements
        (Run.Pairs (Machine.Alike names m.functions m n) : RunRelation ν σ) id :=
      Run.Pairs.composesStatements (fun line _ _ alike => alike.markLine line)
        fun v _ _ alike => alike.setResult v
    have covers : RunRelation.CoversAll (Run.Pairs (Machine.Alike names m.functions m n)) id
        (.ofHost host fuel) (.ofHost host fuel) (Script.ofText script).mentions := by
      intro mention mem
      apply covers_alike closed
      intro name here
      exact occur name (List.mem_filterMap.2 ⟨mention, mem, here⟩)
    have began : Machine.Alike names m.functions m n m.beginInput n.beginInput :=
      ⟨rfl, functions.symm, agree, rfl, [], rfl, rfl⟩
    have both := Script.runText_related composes rfl script covers _ _ began
    simp only [Interpreter.ofHost] at both
    simp only [evaluate, evaluateWith]
    obtain ⟨left, right⟩ | ⟨outcome, m', n', left, right, alike⟩ := EndAlike.cases both
    · simp only [left, right]
      exact .none
    · simp only [left, right]
      have ended := alike.endInput
      cases outcome with
      | error e => exact .some ((ended.noteFailure script e).ended functions _)
      | ok flow =>
        dsimp only
        rw [ended.result]
        exact .some (ended.ended functions _)

/-- The machine with a fresh engine that has the tables and the blocks of the running one. -/
def Machine.refreshed (m : Machine ν σ) : Machine ν σ :=
  { m with engine :=
    { globals := m.engine.globals, functions := m.engine.functions, blocks := m.engine.blocks,
      opened := m.engine.opened } }

/-- Take two engines with the same closed natives whose innermost and global tables have the same
bindings of the variables of a script, and of any other names that are looked at.  Then the script is
evaluated on both with the same outcome, the same calls and the same bindings afterwards.  In
particular a failure leaves nothing behind but what it did to the variables: every later script is
evaluated as on a fresh engine. -/
theorem evaluate_noninterference {host : Host ν σ} {names : Set String} {script : String}
    (occur : ∀ name ∈ (Script.ofText script).variableNames, name ∈ names) {m n : Machine ν σ}
    (closed : host.ClosedOn m.functions) (functions : m.functions = n.functions)
    (agree : m.scopes.AgreeOn names n.scopes) (fuel : Nat) :
    Option.Rel (EndedAlike names m n) (evaluate host fuel script m) (evaluate host fuel script n) ∧
    ∀ e m', evaluate host fuel script m = some (.error e, m') → ∀ later fuel,
      Option.Rel (EndedAlike Set.univ m' m'.refreshed) (evaluate host fuel later m')
        (evaluate host fuel later m'.refreshed) := by
  constructor
  · exact evaluate_endedAlike occur closed functions agree fuel
  · intro e m' failed later fuel'
    obtain ⟨_, _, alike⟩ :=
      exists_of_rel (evaluate_endedAlike occur closed functions agree fuel) failed
    apply evaluate_endedAlike (fun _ _ => trivial)
    · rw [alike.left]
      exact closed
    · rfl
    · exact .refl _ _

/-- One engine has a block open, the other two blocks, a variable `x` in the table between, another
variable and a stale result.  The global `x` is the same on both, and so is what a script makes of
it. -/
theorem evaluate_noninterference_length :
    let fresh : Engine ConsoleNative × World ConsoleNative Unit := World.newEngine { host := () }
    let base := Machine.register "len" .length ⟨fresh.1, fresh.2⟩
    let m := (base.setScopes (base.scopes.bindGlobal "x" (some "abc"))).openBlock.2
    let n₁ := (m.setScopes (m.scopes.bindCurrent "x" (some "hidden"))).openBlock.2
    let n := (n₁.setScopes (n₁.scopes.bindGlobal "y" (some "7"))).setResult "stale"
    ∃ m' n', evaluate ConsoleNative.host 9 "x = len(x) + 1" m = some (.ok "4", m') ∧
      evaluate ConsoleNative.host 9 "x = len(x) + 1" n = some (.ok "4", n') ∧
      m'.scopes.global["x"]? = n'.scopes.global["x"]? := by
  intro fresh base m n₁ n
  have listed : m.functions.toList = [("len", .length)] := by decide +kernel
  -- `len` looks at its arguments only.
  have closed : ConsoleNative.host.ClosedOn m.functions := by
    intro name native found args
    rw [← Std.ExtTreeMap.mem_toList_iff_getElem?_eq_some, listed] at found
    obtain ⟨-, rfl⟩ := Prod.mk.inj (List.mem_singleton.1 found)
    exact ConsoleNative.host_closed (by decide) args
  have agree : m.scopes.AgreeOn {"x"} n.scopes := by
    constructor
    · exact iff_of_false nofun nofun
    · rintro _ rfl
      decide +kernel
    · rintro _ rfl
      decide +kernel
  have occurring : (Script.ofText "x = len(x) + 1").variableNames = ["x", "x"] := by decide +kernel
  have occur : ∀ name ∈ (Script.ofText "x = len(x) + 1").variableNames, name ∈ ({"x"} : Set String) := by
    intro name mem
    have same : name = "x" := by simpa [occurring] using mem
    exact same
  have functions (k : ConsoleMachine) (s s' : Scopes) :
      k.functions = (((k.setScopes s).openBlock.2.setScopes s').setResult "stale").functions := rfl
  have ended : (evaluate ConsoleNative.host 9 "x = len(x) + 1" m).map Prod.fst = some (.ok "4") := by
    decide +kernel
  obtain ⟨⟨_, m'⟩, run, rfl⟩ := Option.map_eq_some_iff.1 ended
  obtain ⟨⟨outcome, n'⟩, run', alike⟩ :=
    exists_of_rel (evaluate_noninterference occur closed (functions m _ _) agree 9).1 run
  obtain rfl : Except.ok "4" = outcome := alike.outcome
  exact ⟨m', n', run, run', alike.scopes.global "x" rfl⟩

end ScriptEngine
