import ScriptEngine.Proofs.Evaluation.Related

/-!
# Moving a script

The spans of a tree matter for two things when it is carried out: for where an error is reported,
and for the line that the running evaluation notes.  If no native asks for that line, a tree with
other spans does the same (`Script.run_follows`): it calls the same natives, leaves the same machine
but for the line, and fails with the same errors at the other spans.

Natives may evaluate more scripts meanwhile.  Those run inside the evaluation whose line differs, so
the statements below are about the evaluation number `n`, counted from the innermost one outward.
-/

namespace ScriptEngine

variable {ν σ α β : Type}

/-! ## Machines on another line -/

namespace Machine

/-- Notes another line for an evaluation in progress.  The innermost evaluation has number 0. -/
def setLine (n line : Nat) (m : Machine ν σ) : Machine ν σ :=
  { m with engine := { m.engine with inputs := m.engine.inputs.set n line } }

lemma scopes_setLine (n line : Nat) (m : Machine ν σ) :
    (m.setLine n line).scopes = m.scopes := rfl

lemma world_setLine (n line : Nat) (m : Machine ν σ) : (m.setLine n line).world = m.world := rfl

lemma functions_setLine (n line : Nat) (m : Machine ν σ) :
    (m.setLine n line).functions = m.functions := rfl

lemma noteCall_setLine (n line : Nat) (call : NativeCall) (m : Machine ν σ) :
    (m.setLine n line).noteCall call = (m.noteCall call).setLine n line := rfl

lemma openBlock_setLine (n line : Nat) (m : Machine ν σ) :
    (m.setLine n line).openBlock = (m.openBlock.1, m.openBlock.2.setLine n line) := rfl

lemma closeBlock_setLine (n line id : Nat) (m : Machine ν σ) :
    (m.setLine n line).closeBlock id =
      ((m.closeBlock id).1, (m.closeBlock id).2.setLine n line) := by
  unfold closeBlock
  rw [scopes_setLine]
  cases m.scopes.closeBlock id <;> rfl

lemma exists_setLine_eq_self (n : Nat) (m : Machine ν σ) : ∃ line, m.setLine n line = m := by
  obtain ⟨⟨_, _, _, _, _, _, _, inputs, _⟩, _⟩ := m
  rcases Nat.lt_or_ge n inputs.length with inside | outside
  · refine ⟨inputs[n], ?_⟩
    simp only [setLine, List.set_getElem_self]
  · refine ⟨0, ?_⟩
    simp only [setLine, List.set_eq_of_length_le outside]

lemma setLine_zero (line : Nat) (m : Machine ν σ) : m.setLine 0 line = m.markLine line := by
  obtain ⟨⟨_, _, _, _, _, _, _, inputs, _⟩, _⟩ := m
  cases inputs <;> rfl

lemma markLine_setLine_zero (line line' line'' : Nat) (m : Machine ν σ) :
    (m.setLine 0 line).markLine line' = (m.markLine line'').setLine 0 line' := by
  obtain ⟨⟨_, _, _, _, _, _, _, inputs, _⟩, _⟩ := m
  cases inputs <;> rfl

lemma markLine_setLine (n line line' : Nat) (m : Machine ν σ) :
    ∃ line'', (m.setLine n line).markLine line' = (m.markLine line').setLine n line'' := by
  obtain ⟨⟨_, _, _, _, _, _, _, inputs, _⟩, _⟩ := m
  cases inputs with
  | nil => exact ⟨line, rfl⟩
  | cons first outer =>
    cases n with
    | zero => exact ⟨line', rfl⟩
    | succ n => exact ⟨line, rfl⟩

lemma beginInput_setLine (n line : Nat) (m : Machine ν σ) :
    (m.setLine n line).beginInput = m.beginInput.setLine (n + 1) line := rfl

lemma endInput_setLine (n line : Nat) (m : Machine ν σ) :
    (m.setLine (n + 1) line).endInput = m.endInput.setLine n line := by
  obtain ⟨⟨_, _, _, _, _, _, _, inputs, _⟩, _⟩ := m
  cases inputs <;> rfl

end Machine

/-! ## Following a computation -/

/-- The second computation does what the first does when another line is noted for the evaluation
number `n`; its results are those of the first changed by `g`. -/
def Follows (n : Nat) (g : α → β) (x : Machine ν σ → Option (α × Machine ν σ))
    (y : Machine ν σ → Option (β × Machine ν σ)) : Prop :=
  ∀ m line, ∃ line', y (m.setLine n line) = (x m).map fun (a, m) => (g a, m.setLine n line')

namespace Run

/-- The second run follows the first, and its errors have the spans of the first changed by `f`. -/
def Follows (f : Span → Span) (n : Nat) (x y : Run ν σ α) : Prop :=
  ScriptEngine.Follows n (Except.mapError (ScriptError.mapSpan f)) x y

namespace Follows

variable {f : Span → Span} {n : Nat}

lemma pure (a : α) : Follows f n (pure a : Run ν σ α) (pure a) := fun _ line =>
  ⟨line, rfl⟩

lemma cutShort : Follows f n (cutShort : Run ν σ α) cutShort := fun _ line =>
  ⟨line, rfl⟩

lemma throw (e : ScriptError) : Follows f n (throw e : Run ν σ α) (throw (e.mapSpan f)) :=
  fun _ line => ⟨line, rfl⟩

lemma fail (span : Span) (fault : RuntimeFault) :
    Follows f n (fail span fault : Run ν σ α) (fail (f span) fault) :=
  throw _

lemma bind {x y : Run ν σ α} {k k' : α → Run ν σ β} (first : Follows f n x y)
    (rest : ∀ a, Follows f n (k a) (k' a)) : Follows f n (x >>= k) (y >>= k') := by
  intro m line
  obtain ⟨line', run⟩ := first m line
  simp only [Bind.bind, Run.bind, run]
  rcases x m with _ | ⟨e | a, m'⟩
  · exact ⟨line, rfl⟩
  · exact ⟨line', rfl⟩
  · exact rest a m' line'

/-- A change of the machine that does not depend on the line. -/
lemma modify {change : Machine ν σ → Machine ν σ}
    (blind : ∀ m line, change (m.setLine n line) = (change m).setLine n line) :
    Follows f n (modify change) (modify change) := fun m line =>
  ⟨line, by simp only [Run.modify, blind]; rfl⟩

end Follows
end Run

/-! ## Trees -/

section

open RunRelation

variable {f : Span → Span} {n : Nat} {i : Interpreter ν σ}

/-- Calls at other spans follow the calls at the spans before. -/
def Interpreter.Relocatable (f : Span → Span) (n : Nat) (i : Interpreter ν σ) : Prop :=
  ∀ name args span, Run.Follows f n (i.invoke name args span) (i.invoke name args (f span))

lemma resolve_follows (name : String) (span : Span) :
    Run.Follows f n (resolve name span : Run ν σ _) (resolve name (f span)) := by
  intro m line
  refine ⟨line, ?_⟩
  unfold resolve
  rw [Machine.scopes_setLine]
  cases m.scopes.lookup name <;> rfl

lemma setScopes_follows (change : Scopes → Scopes) :
    Run.Follows f n (Run.modify fun m : Machine ν σ => m.setScopes (change m.scopes))
      (Run.modify fun m => m.setScopes (change m.scopes)) :=
  .modify fun _ _ => rfl

lemma checkUndeclared_follows (d : Declarator) :
    Run.Follows f n (checkUndeclared d : Run ν σ _) (checkUndeclared (d.mapSpan f)) := by
  intro m line
  refine ⟨line, ?_⟩
  unfold checkUndeclared
  rw [Machine.scopes_setLine, Declarator.name_mapSpan]
  cases m.scopes.lookup d.name <;> rfl

lemma arrive_follows (front : n = 0 ∨ f = id) (span : Span) :
    Run.Follows f n (Plain.arrive span : Run ν σ Unit) (Plain.arrive (f span)) := by
  intro m line
  rcases front with rfl | rfl
  · have eq := Machine.markLine_setLine_zero line (f span).line span.line m
    refine ⟨(f span).line, ?_⟩
    simp only [Plain.arrive, Run.modify, eq]
    rfl
  · obtain ⟨line', eq⟩ := Machine.markLine_setLine n line span.line m
    refine ⟨line', ?_⟩
    simp only [Plain.arrive, Run.modify, id, eq]
    rfl

namespace Run.Follows

lemma composes : Composes (Run.Follows f n : RunRelation ν σ) f :=
  ⟨pure, throw, bind⟩

lemma composesStatements (front : n = 0 ∨ f = id) :
    ComposesStatements (Run.Follows f n : RunRelation ν σ) f :=
  { composes with
    arrive := arrive_follows front
    leave := fun _ => modify fun _ _ => rfl
    cutShort := cutShort }

end Run.Follows

/-- What is done with variables does not depend on the line. -/
lemma Interpreter.Relocatable.covers (free : i.Relocatable f n) (mention : Mention) :
    Covers (Run.Follows f n) f i i mention := by
  refine Run.Follows.composes.covers mention (fun name _ => ?_) fun name _ => free name
  exact ⟨resolve_follows name, fun d _ => checkUndeclared_follows d,
    fun v => setScopes_follows fun scopes => scopes.assign name v,
    fun tier value => setScopes_follows fun scopes => scopes.bind tier name value⟩

/-- A script with other spans follows the script as it was. -/
lemma Script.run_follows (front : n = 0 ∨ f = id) (free : i.Relocatable f n) (script : Script) :
    Run.Follows f n (Script.run i script.error script.statements)
      (Script.run i (script.mapSpan f).error (script.mapSpan f).statements) :=
  run_related (Run.Follows.composesStatements front) rfl script fun mention _ =>
    free.covers mention

end

/-! ## Natives -/

/-- A native that never asks for the line. -/
def Callback.LineBlind : Callback ν σ α → Prop
  | .done _ => True
  | .fail _ => True
  | .ask request next => request ≠ .lineNumber ∧ ∀ answer, (next answer).LineBlind

/-- A native is blind to the line if it asks for anything but the line. -/
lemma Callback.OnlyAsks.lineBlind {x : Callback ν σ α} (only : x.OnlyAsks (· ≠ .lineNumber)) :
    x.LineBlind := by
  induction x with
  | done a => exact trivial
  | fail message => exact trivial
  | ask request next ih => exact ⟨only.1, fun answer => ih answer (only.2 answer)⟩

/-- A host none of whose natives asks for the line. -/
def Host.LineBlind (host : Host ν σ) : Prop :=
  ∀ native args, (host native args).LineBlind

/-- The natives of the console never ask for the line. -/
lemma ConsoleNative.host_lineBlind : Host.LineBlind ConsoleNative.host := by
  intro native args
  apply Callback.OnlyAsks.lineBlind
  apply (ConsoleNative.host_onlyAsks native args).mono
  rintro _ (⟨text, rfl⟩ | ⟨text, rfl⟩) <;> simp

section

variable {evaluate : String → Run ν σ String} {n : Nat}

lemma answer_follows
    (nested : ∀ script, Follows n id (evaluate script) (evaluate script))
    {request : Request ν σ} (blind : request ≠ .lineNumber) :
    Follows n id (answer evaluate request) (answer evaluate request) := by
  intro m line
  cases request with
  | lineNumber => exact absurd rfl blind
  | evaluate script => exact nested script m line
  | closeBlock id =>
    refine ⟨line, ?_⟩
    simp only [answer, Machine.closeBlock_setLine]
    rfl
  | evaluateBlock script =>
    obtain ⟨line', run⟩ := nested script m.openBlock.2 line
    refine ⟨line', ?_⟩
    simp only [answer, evaluateBlockWith, Machine.openBlock_setLine, run]
    rcases evaluate script m.openBlock.2 with _ | ⟨outcome, m'⟩
    · rfl
    · simp only [Option.map_some, Machine.closeBlock_setLine, id]
  | evaluateOn handle script =>
    -- The other engine runs in the same world.
    refine ⟨line, ?_⟩
    simp only [answer, Machine.world_setLine]
    rcases evaluateOnWith evaluate handle script m.world with _ | ⟨outcome, world⟩ <;> rfl
  | _ => exact ⟨line, rfl⟩

lemma callback_follows (nested : ∀ script, Follows n id (evaluate script) (evaluate script))
    (callback : Callback ν σ α) (blind : callback.LineBlind) :
    Follows n id (callback.run evaluate) (callback.run evaluate) := by
  induction callback with
  | done a => exact fun _ line => ⟨line, rfl⟩
  | fail message => exact fun _ line => ⟨line, rfl⟩
  | ask request next ih =>
    intro m line
    obtain ⟨line', asked⟩ := answer_follows nested blind.1 m line
    simp only [Callback.run, asked]
    rcases answer evaluate request m with _ | ⟨a, m'⟩
    · exact ⟨line, rfl⟩
    · exact ih a (blind.2 a) m' line'

lemma callNative_follows {host : Host ν σ} {f : Span → Span} (blind : host.LineBlind)
    (nested : ∀ script, Follows n id (evaluate script) (evaluate script)) (name : String)
    (args : List String) (span : Span) :
    Run.Follows f n (callNative host evaluate name args span)
      (callNative host evaluate name args (f span)) := by
  intro m line
  simp only [callNative, Machine.functions_setLine]
  cases m.functions[name]? with
  | none => exact ⟨line, rfl⟩
  | some native =>
    obtain ⟨line', called⟩ :=
      callback_follows nested _ (blind native args) (m.noteCall ⟨name, args⟩) line
    refine ⟨line', ?_⟩
    simp only [Machine.noteCall_setLine, called]
    rcases (host native args).run evaluate (m.noteCall ⟨name, args⟩) with _ | ⟨_ | _, m'⟩ <;> rfl

end

/-! ## Evaluations -/

/-- An evaluation inside one whose line differs. -/
theorem evaluate_follows {host : Host ν σ} (blind : host.LineBlind) (fuel n : Nat)
    (script : String) : Follows n id (evaluate host fuel script) (evaluate host fuel script) := by
  induction fuel generalizing n script with
  | zero => exact fun _ line => ⟨line, rfl⟩
  | succ fuel ih =>
    intro m line
    have free : Interpreter.Relocatable id (n + 1) (Interpreter.ofHost host fuel) :=
      callNative_follows blind (ih (n + 1))
    obtain ⟨line', run⟩ :=
      Script.run_follows (.inr rfl) free (Script.ofText script) m.beginInput line
    rw [Script.mapSpan_id] at run
    simp only [Interpreter.ofHost] at run
    refine ⟨line', ?_⟩
    simp only [evaluate, evaluateWith, Script.runText, Machine.beginInput_setLine, run]
    rcases Script.run _ _ _ m.beginInput with _ | ⟨e | flow, m'⟩
    · rfl
    · simp only [Option.map_some, Machine.endInput_setLine]
      rfl
    · simp only [Option.map_some, Machine.endInput_setLine]
      rfl

end ScriptEngine
