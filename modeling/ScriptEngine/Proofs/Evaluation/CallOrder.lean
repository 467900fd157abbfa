import Mathlib.Control.Monad.Basic
import ScriptEngine.Proofs.Evaluation.Related

/-!
# The order of calls

Evaluating an expression makes its calls once each and from left to right, a call behind those in its
own arguments.  No operator passes over an operand, so the calls of an expression are a list that can
be read off the tree (`Expr.calls`), and an evaluation goes through this list from the front until it
fails or is at the end (`calls_once_in_order`).

Which calls are made is kept in the world.  What becomes of them is said by going into the tree:
`Comes i sub m' e m` says that the evaluation of `e` on `m` gets to evaluate the expression `sub` on
`m'`.  Each call that is made belongs to a call of the tree that the evaluation gets to that way; what
comes of it there is what comes of running the native on the values that the arguments have from there
(`Logged`).

Natives that evaluate scripts make calls in between that are not in the tree, so the statement is about
natives that do not.
-/

namespace ScriptEngine

variable {ν σ α β : Type}

/-! ## Calls of an expression -/

/-- A call in an expression. -/
structure CallSite where
  name : String
  args : List Expr
  span : Span

/-- The call as an expression. -/
def CallSite.expr (site : CallSite) : Expr :=
  .call site.name site.args site.span

mutual

/-- The calls of an expression: from left to right, and each behind those in its arguments. -/
def Expr.calls : Expr → List CallSite
  | .empty _ | .literal _ _ | .read _ _ | .step _ _ _ => []
  | .assign _ value _ => value.calls
  | .chain first rest _ => first.calls ++ chainCalls rest
  | .connect left _ right _ => left.calls ++ right.calls
  | .call name args span => allCalls args ++ [⟨name, args, span⟩]
  | .grouping inner _ => inner.calls

def chainCalls : List (Operator × Expr) → List CallSite
  | [] => []
  | (_, operand) :: rest => operand.calls ++ chainCalls rest

def allCalls : List Expr → List CallSite
  | [] => []
  | e :: rest => e.calls ++ allCalls rest

end

section

variable (i : Interpreter ν σ)

mutual

/-- The evaluation of an expression on a machine gets to evaluate `sub` on `m'`. -/
inductive Comes (sub : Expr) (m' : Machine ν σ) : Expr → Machine ν σ → Prop
  | here : Comes sub m' sub m'
  | assigned {name value span m} (comes : Comes sub m' value m) :
    Comes sub m' (.assign name value span) m
  | first {first rest span m} (comes : Comes sub m' first m) :
    Comes sub m' (.chain first rest span) m
  | rest {first rest span m v m₁} (evaluated : first.eval i true m = some (.ok v, m₁))
    (comes : ComesChain sub m' v rest m₁) : Comes sub m' (.chain first rest span) m
  | left {left op right span m} (comes : Comes sub m' left m) :
    Comes sub m' (.connect left op right span) m
  | right {left op right span m v m₁} (evaluated : left.eval i true m = some (.ok v, m₁))
    (comes : Comes sub m' right m₁) : Comes sub m' (.connect left op right span) m
  | args {name args span m} (comes : ComesAll sub m' args m) : Comes sub m' (.call name args span) m
  | inner {inner span m} (comes : Comes sub m' inner m) : Comes sub m' (.grouping inner span) m

/-- So does going on with a chain whose operands so far have a value. -/
inductive ComesChain (sub : Expr) (m' : Machine ν σ) :
    String → List (Operator × Expr) → Machine ν σ → Prop
  | operand {v op operand rest m} (comes : Comes sub m' operand m) :
    ComesChain sub m' v ((op, operand) :: rest) m
  | behind {v op operand rest m r v' m₁} (evaluated : operand.eval i true m = some (.ok r, m₁))
    (applied : op.apply v r = .ok v') (comes : ComesChain sub m' v' rest m₁) :
    ComesChain sub m' v ((op, operand) :: rest) m

/-- So does the evaluation of expressions from left to right. -/
inductive ComesAll (sub : Expr) (m' : Machine ν σ) : List Expr → Machine ν σ → Prop
  | head {e rest m} (comes : Comes sub m' e m) : ComesAll sub m' (e :: rest) m
  | tail {e rest m v m₁} (evaluated : e.eval i true m = some (.ok v, m₁))
    (comes : ComesAll sub m' rest m₁) : ComesAll sub m' (e :: rest) m

end

end

/-! ## Calls of an evaluation -/

/-- What a call at `span` comes to when the native has ended: the result that the native has left, or the
message that it has failed with. -/
def callEnd (span : Span) (ended : Except String Unit × Machine ν σ) :
    Except ScriptError String × Machine ν σ :=
  match ended.1 with
  | .ok () => (.ok ended.2.engine.result, ended.2)
  | .error message => (.error ⟨.runtime (.native message), span⟩, ended.2)

section

variable (host : Host ν σ) (fuel : Nat)

/-- The calls `log` were made at the first of the sites, one at each and in order, when `before` had been
recorded.  Each site was reached, and its arguments were evaluated from there.  The native of the call was
known by then; it was run on the values of the arguments, in their order, and the value or the error of
the call is what came of that run.  What had been recorded when the arguments were evaluated tells apart
calls that are written alike. -/
inductive Logged (reached : Expr → Machine ν σ → Prop) :
    List CallSite → (before : List NativeCall) → (log : List NativeCall) → Prop
  | nil {sites before} : Logged reached sites before []
  | call {sites site before log native m₁ m₂ values ended} (reach : reached site.expr m₁)
    (args : evalAll (.ofHost host fuel) true site.args m₁ = some (.ok values, m₂))
    (record : m₂.world.calls = before) (known : m₂.functions[site.name]? = some native)
    (ran : (host native values).run (evaluate host fuel) (m₂.noteCall ⟨site.name, values⟩) = some ended)
    (value : site.expr.eval (.ofHost host fuel) true m₁ = some (callEnd site.span ended))
    (rest : Logged reached sites (⟨site.name, values⟩ :: before) log) :
    Logged reached (site :: sites) before (⟨site.name, values⟩ :: log)

/-- The native of a call is not known.  The call was reached, and its arguments had values. -/
def FailsAtUnknown (reached : Expr → Machine ν σ → Prop) (site : CallSite) (m : Machine ν σ) : Prop :=
  site.name ∉ m.functions ∧ ∃ m₁ values, reached site.expr m₁ ∧
    evalAll (.ofHost host fuel) true site.args m₁ = some (.ok values, m)

/-- What comes of the calls at some sites between two machines. -/
structure CallsAt (reached : Expr → Machine ν σ → Prop) (sites : List CallSite)
    (m m' : Machine ν σ) (outcome : Except ScriptError α) (log : List NativeCall) : Prop where
  record : m'.world.calls = log.reverse ++ m.world.calls
  logged : Logged host fuel reached sites m.world.calls log
  whole : ∀ a, outcome = .ok a → log.length = sites.length
  unknown : ∀ name span, outcome = .error ⟨.runtime (.undefinedProcedure name), span⟩ →
    ∃ site, sites[log.length]? = some site ∧ site.name = name ∧ site.span = span ∧
      FailsAtUnknown host fuel reached site m'

end

namespace Logged

variable {host : Host ν σ} {fuel : Nat} {reached reached' : Expr → Machine ν σ → Prop}
  {sites sites' : List CallSite} {before log log' : List NativeCall}

lemma mono (wider : ∀ sub m, reached sub m → reached' sub m)
    (logged : Logged host fuel reached sites before log) : Logged host fuel reached' sites before log := by
  induction logged with
  | nil => exact .nil
  | call reach args record known ran value _ ih => exact .call (wider _ _ reach) args record known ran value ih

lemma weaken (logged : Logged host fuel reached sites before log) :
    Logged host fuel reached (sites ++ sites') before log := by
  induction logged with
  | nil => exact .nil
  | call reach args record known ran value _ ih => exact .call reach args record known ran value ih

lemma append (first : Logged host fuel reached sites before log) (whole : log.length = sites.length)
    (second : Logged host fuel reached sites' (log.reverse ++ before) log') :
    Logged host fuel reached (sites ++ sites') before (log ++ log') := by
  induction first with
  | nil =>
    rw [List.eq_nil_of_length_eq_zero whole.symm]
    exact second
  | call reach args record known ran value _ ih =>
    refine .call reach args record known ran value (ih (Nat.succ.inj whole) ?_)
    simpa using second

lemma names_prefix (logged : Logged host fuel reached sites before log) :
    log.map NativeCall.name <+: sites.map CallSite.name := by
  induction logged with
  | nil => exact List.nil_prefix
  | call _ _ _ _ _ _ _ ih => exact List.cons_prefix_cons.2 ⟨rfl, ih⟩

end Logged

/-! ## Runs that make calls -/

namespace Run

variable {host : Host ν σ} {fuel : Nat} {reached reached' : Expr → Machine ν σ → Prop}
  {sites sites' : List CallSite} {m : Machine ν σ}

lemma ofOperator_eq_ok {span : Span} {result : Except OperatorFault String} {v : String}
    {m' : Machine ν σ} : ofOperator span result m = some (.ok v, m') ↔ result = .ok v ∧ m = m' := by
  cases result with
  | ok value => simp [ofOperator, Run.pure]
  | error fault => simp [ofOperator, fail, throw]

/-- The run comes to an end, and makes its calls at the sites. -/
def MakesCalls (host : Host ν σ) (fuel : Nat) (reached : Expr → Machine ν σ → Prop)
    (sites : List CallSite) (x : Run ν σ α) (m : Machine ν σ) : Prop :=
  ∃ outcome m' log, x m = some (outcome, m') ∧ CallsAt host fuel reached sites m m' outcome log

/-- The run comes to an end without a call, also of an unknown native. -/
def MakesNoCall (x : Run ν σ α) : Prop :=
  ∀ m, ∃ outcome m', x m = some (outcome, m') ∧ m'.world.calls = m.world.calls ∧
    ∀ name span, outcome ≠ .error ⟨.runtime (.undefinedProcedure name), span⟩

namespace MakesNoCall

lemma pure (a : α) : MakesNoCall (pure a : Run ν σ α) := fun m =>
  ⟨_, m, rfl, rfl, by simp⟩

lemma fail (span : Span) {fault : RuntimeFault} (other : ∀ name, fault ≠ .undefinedProcedure name) :
    MakesNoCall (fail span fault : Run ν σ α) := fun m =>
  ⟨_, m, rfl, rfl, by simpa using other⟩

lemma bind {x : Run ν σ α} {k : α → Run ν σ β} (first : MakesNoCall x)
    (rest : ∀ a, MakesNoCall (k a)) : MakesNoCall (x >>= k) := by
  intro m
  obtain ⟨outcome, m₁, ended, record, other⟩ := first m
  cases outcome with
  | error e =>
    refine ⟨.error e, m₁, bind_of_error ended k, record, fun name span is => ?_⟩
    exact other name span (congrArg _ (Except.error.inj is))
  | ok a =>
    obtain ⟨outcome, m₂, ended', record', other'⟩ := rest a m₁
    exact ⟨outcome, m₂, (bind_of_ok ended k).trans ended', record'.trans record, other'⟩

lemma setScopes (change : Machine ν σ → Scopes) :
    MakesNoCall (modify fun m => m.setScopes (change m) : Run ν σ Unit) := fun m =>
  ⟨_, _, rfl, rfl, by simp⟩

lemma resolve (name : String) (span : Span) : MakesNoCall (resolve name span : Run ν σ _) := by
  intro m
  unfold ScriptEngine.resolve
  split
  · exact ⟨_, m, rfl, rfl, by simp⟩
  · exact fail span (by simp) m

lemma ofOperator (span : Span) (result : Except OperatorFault String) :
    MakesNoCall (ofOperator span result : Run ν σ String) := by
  cases result with
  | ok v => exact pure v
  | error fault => exact fail span (by simp)

lemma stepVariable (name : String) (op : Operator) (span : Span) :
    MakesNoCall (stepVariable name op span : Run ν σ String) := by
  refine (resolve name span).bind fun (tier, value) => ?_
  refine (ofOperator span _).bind fun stepped => ?_
  exact (setScopes _).bind fun _ => pure stepped

end MakesNoCall

namespace MakesCalls

lemma of_makesNoCall {x : Run ν σ α} (silent : MakesNoCall x) : MakesCalls host fuel reached [] x m := by
  obtain ⟨outcome, m', ended, record, other⟩ := silent m
  exact ⟨outcome, m', [], ended, record, .nil, fun _ _ => rfl, fun name span is =>
    absurd is (other name span)⟩

lemma mono (wider : ∀ sub m, reached sub m → reached' sub m) {x : Run ν σ α}
    (calls : MakesCalls host fuel reached sites x m) : MakesCalls host fuel reached' sites x m := by
  obtain ⟨outcome, m', log, ended, made⟩ := calls
  refine ⟨outcome, m', log, ended, made.record, made.logged.mono wider, made.whole,
    fun name span is => ?_⟩
  obtain ⟨site, there, same, same', unknown, m₁, values, reach, args⟩ := made.unknown name span is
  exact ⟨site, there, same, same', unknown, m₁, values, wider _ _ reach, args⟩

lemma bind {x : Run ν σ α} {k : α → Run ν σ β} (first : MakesCalls host fuel reached sites x m)
    (rest : ∀ a m₁, x m = some (.ok a, m₁) → MakesCalls host fuel reached sites' (k a) m₁) :
    MakesCalls host fuel reached (sites ++ sites') (x >>= k) m := by
  obtain ⟨outcome, m₁, log, ended, made⟩ := first
  cases outcome with
  | error e =>
    refine ⟨.error e, m₁, log, bind_of_error ended k, made.record, made.logged.weaken, by simp,
      fun name span is => ?_⟩
    obtain ⟨site, there, fails⟩ := made.unknown name span (congrArg _ (Except.error.inj is))
    refine ⟨site, ?_, fails⟩
    rw [List.getElem?_append_left (List.getElem?_eq_some_iff.1 there).1, there]
  | ok a =>
    -- All calls of `x` have been made, so those behind it go on where its sites end.
    obtain ⟨outcome, m₂, log', ended', made'⟩ := rest a m₁ ended
    have whole := made.whole a rfl
    have logged' := made'.logged
    rw [made.record] at logged'
    refine ⟨outcome, m₂, log ++ log', (bind_of_ok ended k).trans ended', ?_,
      made.logged.append whole logged', fun b is => ?_, fun name span is => ?_⟩
    · simp [made'.record, made.record]
    · simp [whole, made'.whole b is]
    · obtain ⟨site, there, fails⟩ := made'.unknown name span is
      refine ⟨site, ?_, fails⟩
      rw [List.length_append, whole, List.getElem?_append_right (Nat.le_add_right ..),
        Nat.add_sub_cancel_left, there]

lemma bind_makesNoCall {x : Run ν σ α} {k : α → Run ν σ β} (first : MakesCalls host fuel reached sites x m)
    (rest : ∀ a, MakesNoCall (k a)) : MakesCalls host fuel reached sites (x >>= k) m := by
  have calls := first.bind fun a m₁ _ => of_makesNoCall (rest a)
  rwa [List.append_nil] at calls

end MakesCalls
end Run

/-! ## Walks -/

section

variable {host : Host ν σ} {fuel : Nat}

lemma callEnd_ne_undefinedProcedure (span : Span) (ended : Except String Unit × Machine ν σ)
    (name : String) (span' : Span) :
    (callEnd span ended).1 ≠ .error ⟨.runtime (.undefinedProcedure name), span'⟩ := by
  unfold callEnd
  split <;> simp

lemma callEnd_machine (span : Span) (ended : Except String Unit × Machine ν σ) :
    (callEnd span ended).2 = ended.2 := by
  unfold callEnd
  split <;> rfl

lemma callNative_of_not_mem {name : String} {m : Machine ν σ} (unknown : name ∉ m.functions)
    (args : List String) (span : Span) :
    callNative host (evaluate host fuel) name args span m =
      some (.error ⟨.runtime (.undefinedProcedure name), span⟩, m) := by
  rw [callNative, Std.ExtTreeMap.getElem?_eq_none unknown]
  rfl

lemma callNative_of_run {name : String} {native : ν} {args : List String} {m : Machine ν σ}
    {ended : Except String Unit × Machine ν σ} (known : m.functions[name]? = some native)
    (ran : (host native args).run (evaluate host fuel) (m.noteCall ⟨name, args⟩) = some ended)
    (span : Span) :
    callNative host (evaluate host fuel) name args span m = some (callEnd span ended) := by
  obtain ⟨outcome, m'⟩ := ended
  simp only [callNative, known, ran]
  cases outcome <;> rfl

/-- Natives come to an end, and no native is called meanwhile. -/
def Host.EndsWithoutCalls (host : Host ν σ) (fuel : Nat) : Prop :=
  ∀ native args m, ∃ ended, (host native args).run (evaluate host fuel) m = some ended ∧
    ended.2.world.calls = m.world.calls

/-- The call itself, behind the evaluation of its arguments. -/
lemma callNative_makesCalls (ends : host.EndsWithoutCalls fuel) {site : CallSite}
    {reached : Expr → Machine ν σ → Prop} {m m₁ : Machine ν σ} {values : List String}
    (reach : reached site.expr m)
    (args : evalAll (.ofHost host fuel) true site.args m = some (.ok values, m₁)) :
    Run.MakesCalls host fuel reached [site]
      (callNative host (evaluate host fuel) site.name values site.span) m₁ := by
  by_cases known : site.name ∈ m₁.functions
  · obtain ⟨native, found⟩ :=
      Option.isSome_iff_exists.1 (Std.ExtTreeMap.isSome_getElem?_iff_mem.2 known)
    obtain ⟨ended, ran, record⟩ := ends native values (m₁.noteCall ⟨site.name, values⟩)
    have called := callNative_of_run found ran site.span
    have value : site.expr.eval (.ofHost host fuel) true m = some (callEnd site.span ended) := by
      rw [CallSite.expr, Expr.eval]
      exact (Run.bind_of_ok args _).trans called
    rw [← callEnd_machine site.span ended] at record
    exact ⟨_, _, [⟨site.name, values⟩], called, record,
      .call reach args rfl found ran value .nil, fun _ _ => rfl,
      fun name span is => absurd is (callEnd_ne_undefinedProcedure _ _ _ _)⟩
  · refine ⟨_, m₁, [], callNative_of_not_mem known values site.span, rfl, .nil, by simp,
      fun name span is => ?_⟩
    cases is
    exact ⟨site, rfl, rfl, rfl, known, m, values, reach, args⟩

mutual

lemma eval_makesCalls (ends : host.EndsWithoutCalls fuel) : ∀ (e : Expr) (m : Machine ν σ),
    Run.MakesCalls host fuel (fun sub m' => Comes (.ofHost host fuel) sub m' e m) e.calls
      (e.eval (.ofHost host fuel) true) m
  | .empty _, m => by
    rw [Expr.eval, Expr.calls]
    exact .of_makesNoCall (.pure _)
  | .literal _ _, m => by
    rw [Expr.eval, Expr.calls]
    exact .of_makesNoCall (.pure _)
  | .read name span, m => by
    rw [Expr.eval, Expr.calls]
    exact .of_makesNoCall ((Run.MakesNoCall.resolve name span).bind fun _ => .pure _)
  | .assign name value _, m => by
    rw [Expr.eval, Expr.calls]
    refine ((eval_makesCalls ends value m).mono fun _ _ => .assigned).bind_makesNoCall fun v => ?_
    exact (Run.MakesNoCall.setScopes _).bind fun _ => .pure v
  -- A step calls nothing: it reads and writes one variable.
  | .step name op span, m => by
    rw [Expr.eval, Expr.calls]
    exact .of_makesNoCall (.stepVariable name op span)
  | .chain first rest span, m => by
    rw [Expr.eval, Expr.calls]
    refine ((eval_makesCalls ends first m).mono fun _ _ => .first).bind fun v m₁ evaluated => ?_
    exact (evalChain_makesCalls ends span v rest m₁).mono fun _ _ => .rest evaluated
  | .connect left op right span, m => by
    rw [Expr.eval, Expr.calls]
    refine ((eval_makesCalls ends left m).mono fun _ _ => .left).bind fun l m₁ evaluated => ?_
    refine ((eval_makesCalls ends right m₁).mono fun _ _ => .right evaluated).bind_makesNoCall ?_
    exact fun r => .ofOperator span _
  | .call name args span, m => by
    rw [Expr.eval, Expr.calls]
    refine ((evalAll_makesCalls ends args m).mono fun _ _ => .args).bind fun values m₁ evaluated => ?_
    exact @callNative_makesCalls _ _ _ _ ends ⟨name, args, span⟩ _ _ _ _ .here evaluated
  | .grouping inner _, m => by
    rw [Expr.eval, Expr.calls]
    exact (eval_makesCalls ends inner m).mono fun _ _ => .inner

lemma evalChain_makesCalls (ends : host.EndsWithoutCalls fuel) (span : Span) (v : String) :
    ∀ (rest : List (Operator × Expr)) (m : Machine ν σ),
      Run.MakesCalls host fuel (fun sub m' => ComesChain (.ofHost host fuel) sub m' v rest m)
        (chainCalls rest) (evalChain (.ofHost host fuel) true span v rest) m
  | [], m => by
    rw [evalChain, chainCalls]
    exact .of_makesNoCall (.pure _)
  | (op, operand) :: rest, m => by
    rw [evalChain, chainCalls]
    refine ((eval_makesCalls ends operand m).mono fun _ _ => .operand).bind fun r m₁ evaluated => ?_
    -- If the operator cannot be applied, the operands behind it are not evaluated.
    refine (Run.MakesCalls.of_makesNoCall (.ofOperator span _)).bind fun v' m₂ done => ?_
    obtain ⟨applied, rfl⟩ := Run.ofOperator_eq_ok.1 done
    exact (evalChain_makesCalls ends span v' rest m₁).mono fun _ _ => .behind evaluated applied

lemma evalAll_makesCalls (ends : host.EndsWithoutCalls fuel) : ∀ (es : List Expr) (m : Machine ν σ),
    Run.MakesCalls host fuel (fun sub m' => ComesAll (.ofHost host fuel) sub m' es m) (allCalls es)
      (evalAll (.ofHost host fuel) true es) m
  | [], m => by
    rw [evalAll, allCalls]
    exact .of_makesNoCall (.pure _)
  | e :: rest, m => by
    rw [evalAll, allCalls]
    refine ((eval_makesCalls ends e m).mono fun _ _ => .head).bind fun v m₁ evaluated => ?_
    refine ((evalAll_makesCalls ends rest m₁).mono fun _ _ => .tail evaluated).bind_makesNoCall ?_
    exact fun vs => .pure _

end
end

/-! ## Natives that evaluate no scripts -/

/-- What a native can ask without having a script evaluated. -/
def Request.RunsNoScript : Request ν σ → Prop
  | .evaluate _ | .evaluateBlock _ | .evaluateOn _ _ => False
  | _ => True

/-- No native has a script evaluated. -/
def Host.RunsNoScripts (host : Host ν σ) : Prop :=
  ∀ native args, (host native args).OnlyAsks Request.RunsNoScript

lemma answer_recordsNothing (evaluate : String → Run ν σ String) {request : Request ν σ}
    (plain : request.RunsNoScript) (m : Machine ν σ) :
    ∃ a m', answer evaluate request m = some (a, m') ∧ m'.world.calls = m.world.calls := by
  cases request with
  | evaluate | evaluateBlock | evaluateOn => exact plain.elim
  | closeBlock id =>
    refine ⟨_, _, rfl, ?_⟩
    cases m.scopes.closeBlock id <;> rfl
  | _ => exact ⟨_, _, rfl, rfl⟩

lemma Callback.OnlyAsks.run_recordsNothing (evaluate : String → Run ν σ String)
    {callback : Callback ν σ α} (plain : callback.OnlyAsks Request.RunsNoScript) (m : Machine ν σ) :
    ∃ outcome m', callback.run evaluate m = some (outcome, m') ∧ m'.world.calls = m.world.calls := by
  induction callback generalizing m with
  | done a => exact ⟨_, m, rfl, rfl⟩
  | fail message => exact ⟨_, m, rfl, rfl⟩
  | ask request next ih =>
    obtain ⟨a, m₁, answered, record⟩ := answer_recordsNothing evaluate plain.1 m
    obtain ⟨outcome, m₂, ended, record'⟩ := ih a (plain.2 a) m₁
    exact ⟨outcome, m₂, by simp only [Callback.run, answered, ended], record'.trans record⟩

lemma Host.RunsNoScripts.endsWithoutCalls {host : Host ν σ} (plain : host.RunsNoScripts)
    (fuel : Nat) : host.EndsWithoutCalls fuel := by
  intro native args m
  obtain ⟨outcome, m', ended, record⟩ := (plain native args).run_recordsNothing (evaluate host fuel) m
  exact ⟨(outcome, m'), ended, record⟩

/-- Calls are made once each, from left to right, and none is passed over.  If no native evaluates
scripts, the evaluation of an expression comes to an end, whatever the machine.  The calls that it has
made by then, in order, are a prefix of the calls of the expression, and all of them if the evaluation
succeeds.  At each the native is run on the values of the arguments, evaluated one after the other from
where the evaluation gets to the call, and the call comes to what this run comes to.  And if the
evaluation fails for an unknown native, then at the next call of the expression, and when its arguments
have been evaluated. -/
theorem calls_once_in_order {host : Host ν σ} (plain : host.RunsNoScripts) (fuel : Nat) (e : Expr)
    (m : Machine ν σ) :
    let i : Interpreter ν σ := .ofHost host fuel
    let reached sub m' := Comes i sub m' e m
    ∃ outcome m' log, e.eval i true m = some (outcome, m') ∧
      m'.world.calls = log.reverse ++ m.world.calls ∧
      log.map NativeCall.name <+: e.calls.map CallSite.name ∧
      (∀ v, outcome = .ok v → log.map NativeCall.name = e.calls.map CallSite.name) ∧
      Logged host fuel reached e.calls m.world.calls log ∧
      ∀ name span, outcome = .error ⟨.runtime (.undefinedProcedure name), span⟩ →
        ∃ site, e.calls[log.length]? = some site ∧ site.name = name ∧ site.span = span ∧
          FailsAtUnknown host fuel reached site m' := by
  intro i reached
  obtain ⟨outcome, m', log, ended, made⟩ := eval_makesCalls (plain.endsWithoutCalls fuel) e m
  have names := made.logged.names_prefix
  refine ⟨outcome, m', log, ended, made.record, names, fun v ok => ?_, made.logged, made.unknown⟩
  exact names.eq_of_length (by simpa using made.whole v ok)

/-- In `first('1', '2') || second(first('3', '4'), '5')` the left operand is true, and yet all calls are
made.  The natives of this host keep a list of what they are called with, and leave the first of it as
their value: they receive just the arguments that are recorded for the calls. -/
theorem calls_once_in_order_either :
    let host : Host String (List NativeCall) := fun native args => do
      let received ← .request .hostState
      .request (.setHostState (received ++ [⟨native, args⟩]))
      .setResult (args.headD "")
    let fresh := World.newEngine { host := ([] : List NativeCall) }
    let m := (Machine.mk fresh.1 fresh.2).register "first" "first" |>.register "second" "second"
    let e : Expr :=
      .connect (.call "first" [.literal "1" ⟨6, 9, 1⟩, .literal "2" ⟨11, 14, 1⟩] ⟨0, 15, 1⟩) .either
        (.call "second" [.call "first" [.literal "3" ⟨32, 35, 1⟩, .literal "4" ⟨37, 40, 1⟩] ⟨26, 41, 1⟩,
          .literal "5" ⟨43, 46, 1⟩] ⟨19, 47, 1⟩) ⟨0, 47, 1⟩
    ∃ m' log, e.eval (.ofHost host 1) true m = some (.ok "1", m') ∧
      Logged host 1 (fun sub m' => Comes (.ofHost host 1) sub m' e m) e.calls [] log ∧
      log = [⟨"first", ["1", "2"]⟩, ⟨"first", ["3", "4"]⟩, ⟨"second", ["3", "5"]⟩] ∧
      m'.world.host = log := by
  intro host fresh m e
  have plain : host.RunsNoScripts := fun _ _ =>
    ⟨trivial, fun _ => ⟨trivial, fun _ => ⟨trivial, fun _ => trivial⟩⟩⟩
  obtain ⟨outcome, m', log, ended, record, -, -, logged, -⟩ := calls_once_in_order plain 1 e m
  have kept : (e.eval (.ofHost host 1) true m).map
      (fun r => (r.1, r.2.world.calls.reverse, r.2.world.host)) =
        some (.ok "1", [⟨"first", ["1", "2"]⟩, ⟨"first", ["3", "4"]⟩, ⟨"second", ["3", "5"]⟩],
          [⟨"first", ["1", "2"]⟩, ⟨"first", ["3", "4"]⟩, ⟨"second", ["3", "5"]⟩]) := by
    decide +kernel
  rw [ended] at kept
  simp only [Option.map_some, Option.some.injEq, Prod.mk.injEq] at kept
  obtain ⟨rfl, calls, received⟩ := kept
  have start : m.world.calls = [] := rfl
  have same : m'.world.calls.reverse = log := by rw [record, start]; simp
  rw [calls] at same
  exact ⟨m', log, ended, logged, same.symm, received.trans same⟩

end ScriptEngine
