import ScriptEngine.Session
import ScriptEngine.Proofs.Evaluation.Clauses
import ScriptEngine.Proofs.Evaluation.Persistence

/-!
# The line that natives see

A native can ask for the line of the statement that is being carried out.  The line is noted when a
statement is entered, and at no other time.  So an expression of a statement is evaluated on the
line of that statement, as long as no other statement has been entered in between.  That can only
happen in a loop: behind the first round its increment and its condition are evaluated on the line of
the statement that was entered last in the body.  (It happens in front of the first round, too, if a
statement stands in front of the loop that is neither a declaration nor an expression; there is none in a
script.)

To say this of every single call, the evaluator is set up a second time with the line that is due for
each expression (`Tracked.perform`).  A native that is called on another line does not run; `stray`
runs in its place.  If that evaluator does the same as the original one, whatever `stray` may be, then
all calls are made on the line that is due (`natives_see_line_entered_last`).  With the line of the
loop itself due for its clauses in all rounds the two do differ (`increment_sees_line_of_body`).
-/

namespace ScriptEngine

variable {ν σ α β : Type}

/-! ## Evaluating on a line -/

/-- Calls natives as `i` does while the evaluation is on `line`, and does `stray` otherwise. -/
def Interpreter.onLine (line : Nat) (stray : Run ν σ String) (i : Interpreter ν σ) :
    Interpreter ν σ :=
  { i with invoke := fun name args span m =>
      if m.engine.lineNumber = line then i.invoke name args span m else stray m }

namespace Tracked

/-- The rounds of a loop, when the statement entered last is on the line `last`. -/
def rounds (condition increment : (last : Nat) → Run ν σ String) (body : Run ν σ (Flow × Nat)) :
    (rounds : Nat) → (last : Nat) → Run ν σ (Flow × Nat)
  | 0, last => do
    if continuesLoop (← condition last) then Run.cutShort else return (.normal, last)
  | n + 1, last => do
    if continuesLoop (← condition last) then
      match ← body with
      | (.returned, last) => return (.returned, last)
      | (.normal, last) =>
        let _ ← increment last
        rounds condition increment body n last
    else
      return (.normal, last)

section

-- Which line is due for the condition and the increment of a loop: it may depend on the line of the loop
-- and on the line of the statement entered last, which is the same in front of the first round.
variable (due : (own last : Nat) → Nat) (stray : Run ν σ String) (i : Interpreter ν σ)

mutual

/-- Carries out a statement and evaluates each of its expressions on the line that is due.  Returns
the line of the statement entered last, too. -/
def perform : Stmt → Run ν σ (Flow × Nat)
  | .empty span => do
    Plain.arrive span
    return (.normal, span.line)
  | .expression expr span => do
    Plain.arrive span
    Plain.leave (← Plain.value (i.onLine span.line stray) expr)
    return (.normal, span.line)
  | .block statements span => do
    Plain.arrive span
    performAll span.line statements
  | .choice condition thenBranch elseBranch span => do
    Plain.arrive span
    let v ← Plain.value (i.onLine span.line stray) condition
    if selectsThen v then
      perform thenBranch
    else
      match elseBranch with
      | none => return (.normal, span.line)
      | some other => perform other
  | .loop start condition increment body span => do
    Plain.arrive span
    let ((), last) ← performStart span.line start
    rounds (fun last => Plain.optionalValue (i.onLine (due span.line last) stray) condition)
      (fun last => Plain.optionalValue (i.onLine (due span.line last) stray) increment)
      (perform body) i.rounds last
  | .declare ds span => do
    Plain.arrive span
    Plain.leave (← Plain.declareAll (i.onLine span.line stray) "" ds)
    return (.normal, span.line)
  | .giveBack given span => do
    Plain.arrive span
    Plain.leave (← Plain.optionalValue (i.onLine span.line stray) given)
    return (.returned, span.line)

/-- Carries out what stands in front of a loop on the line `own`. -/
def performStart (own : Nat) : Option Stmt → Run ν σ (Unit × Nat)
  | none => pure ((), own)
  | some (.declare ds _) => do
    let _ ← Plain.declareAll (i.onLine own stray) "" ds
    return ((), own)
  | some (.expression e _) => do
    let _ ← Plain.value (i.onLine own stray) e
    return ((), own)
  | some other => do
    let (_, last) ← perform other
    return ((), last)

/-- Carries out statements in order, up to the first that returns. -/
def performAll (last : Nat) : List Stmt → Run ν σ (Flow × Nat)
  | [] => pure (.normal, last)
  | s :: rest => do
    match ← perform s with
    | (.returned, last) => return (.returned, last)
    | (.normal, last) => performAll last rest

end

/-- Reads a script and carries it out. -/
def runText (text : String) : Run ν σ Flow := do
  let (flow, _) ← performAll due stray i 1 (Script.ofText text).trees
  flow.andThen (Script.ending (Script.ofText text).error)

end
end Tracked

/-! ## Lines of statements -/

namespace Stmt

mutual

/-- The lines where a statement and those inside it begin.  A declaration or an expression in front of a
loop is not a statement of its own. -/
def lines : Stmt → List Nat
  | empty span | expression _ span | declare _ span | giveBack _ span => [span.line]
  | block statements span => span.line :: allLines statements
  | choice _ thenBranch elseBranch span => span.line :: (thenBranch.lines ++ branchLines elseBranch)
  | loop start _ _ body span => span.line :: (startLines start ++ body.lines)

def branchLines : Option Stmt → List Nat
  | none => []
  | some other => other.lines

def startLines : Option Stmt → List Nat
  | none | some (declare _ _) | some (expression _ _) => []
  | some other => other.lines

def allLines : List Stmt → List Nat
  | [] => []
  | s :: rest => s.lines ++ allLines rest

end

mutual

/-- In every loop, the condition and the increment call no natives, or all statements in front of it and
of the body begin on the line of the loop. -/
def clausesOnLine : Stmt → Bool
  | empty _ | expression _ _ | declare _ _ | giveBack _ _ => true
  | block statements _ => allClausesOnLine statements
  | choice _ thenBranch elseBranch _ => thenBranch.clausesOnLine && branchClausesOnLine elseBranch
  | loop start condition increment body span =>
    ((condition.elim [] Expr.callees ++ increment.elim [] Expr.callees).isEmpty ||
      (startLines start ++ body.lines).all (· == span.line)) &&
      (branchClausesOnLine start && body.clausesOnLine)

def branchClausesOnLine : Option Stmt → Bool
  | none => true
  | some other => other.clausesOnLine

def allClausesOnLine : List Stmt → Bool
  | [] => true
  | s :: rest => s.clausesOnLine && allClausesOnLine rest

end
end Stmt

/-! ## Runs on a line -/

/-- The innermost evaluation has come to the line. -/
def Machine.OnLine (line : Nat) (m : Machine ν σ) : Prop :=
  ∃ outer, m.engine.inputs = line :: outer

lemma Machine.onLine_markLine {before : Nat} {m : Machine ν σ} (on : m.OnLine before) (line : Nat) :
    (m.markLine line).OnLine line := by
  obtain ⟨outer, inputs⟩ := on
  unfold markLine
  rw [inputs]
  exact ⟨outer, rfl⟩

lemma Engine.Standing.onLine {line : Nat} {m m' : Machine ν σ}
    (standing : m.engine.Standing m'.engine) (on : m.OnLine line) : m'.OnLine line := by
  obtain ⟨outer, inputs⟩ := on
  exact ⟨outer, standing.inputs.trans inputs⟩

namespace Run

/-- On machines where `P` holds the runs do the same, and `P` goes on to hold. -/
def SameWhere (P : Machine ν σ → Prop) (x y : Run ν σ α) : Prop :=
  ∀ m, P m → x m = y m ∧ ∀ outcome m', y m = some (outcome, m') → P m'

namespace SameWhere

variable {P : Machine ν σ → Prop}

/-- A run that keeps `P`. -/
lemma of_refines {x : Run ν σ α} (keeps : Refines (fun m m' => P m → P m') x x) :
    SameWhere P x x :=
  fun m holds => ⟨rfl, fun outcome m' run => (keeps m outcome m' run).2 holds⟩

lemma bind {x y : Run ν σ α} {k k' : α → Run ν σ β} (first : SameWhere P x y)
    (rest : ∀ a, SameWhere P (k a) (k' a)) : SameWhere P (x >>= k) (y >>= k') := by
  intro m holds
  obtain ⟨same, kept⟩ := first m holds
  simp only [Bind.bind, Run.bind, same]
  rcases ended : y m with _ | ⟨e | a, m'⟩
  · exact ⟨rfl, by rintro _ _ ⟨⟩⟩
  · refine ⟨rfl, ?_⟩
    rintro _ _ ⟨⟩
    exact kept _ _ ended
  · exact rest a m' (kept _ _ ended)

lemma composes : RunRelation.Composes (SameWhere P : RunRelation ν σ) id where
  pure a := by
    refine fun m holds => ⟨rfl, ?_⟩
    rintro _ _ ⟨⟩
    exact holds
  throw e := by
    refine fun m holds => ⟨rfl, ?_⟩
    rintro _ _ ⟨⟩
    exact holds
  bind := bind

/-- What is done with variables is the same, and it keeps what does not depend on the scopes. -/
lemma covers (scopes : ∀ m s, P m → P (m.setScopes s)) {i i' : Interpreter ν σ} (mention : Mention)
    (calls : ∀ name, mention = .call name → ∀ args span,
      SameWhere P (i.invoke name args span) (i'.invoke name args span)) :
    RunRelation.Covers (SameWhere P) id i i' mention := by
  refine composes.covers mention (fun name _ => ?_) calls
  obtain ⟨found, unknown, assigns, binds⟩ : RunRelation.Handles (Refines fun m m' => P m → P m') id
      name := Refines.handles (fun _ => id) fun m tier value => scopes m _
  refine ⟨fun span => of_refines (found span), fun d same => ?_, fun v => of_refines (assigns v),
    fun tier value => of_refines (binds tier value)⟩
  have checked := unknown d same
  rw [Declarator.mapSpan_id] at checked ⊢
  exact of_refines checked

end SameWhere
end Run

section

variable (host : Host ν σ) (fuel : Nat) (line : Nat) (stray : Run ν σ String)

/-- On the line itself, an interpreter that is held to the line does what the original one does. -/
lemma covers_onLine (mentions : List Mention) :
    RunRelation.CoversAll (Run.SameWhere (Machine.OnLine line)) id
      ((Interpreter.ofHost host fuel).onLine line stray) (.ofHost host fuel) mentions := by
  intro mention _
  apply Run.SameWhere.covers (fun m s on => (m.setScopes_standing s).onLine on)
  rintro name - args span m on
  constructor
  · obtain ⟨outer, inputs⟩ := on
    have here : m.engine.lineNumber = line := by simp [Engine.lineNumber, inputs]
    exact if_pos here
  · intro outcome m' run
    exact (callNative_standing (evaluate_standing host fuel) host run).onLine on

/-- Without calls it does so on any line. -/
lemma covers_without_calls (due : Nat) {mentions : List Mention}
    (none_called : ∀ name, .call name ∉ mentions) :
    RunRelation.CoversAll (Run.SameWhere (Machine.OnLine line)) id
      ((Interpreter.ofHost host fuel).onLine due stray) (.ofHost host fuel) mentions := by
  intro mention mem
  apply Run.SameWhere.covers (fun m s on => (m.setScopes_standing s).onLine on)
  rintro name rfl
  exact absurd mem (none_called name)

/-! ## The tracked evaluator -/

namespace Tracked

open Plain (value optionalValue arrive leave)

lemma value_onLine (e : Expr) : Run.SameWhere (Machine.OnLine line)
    (value ((Interpreter.ofHost host fuel).onLine line stray) e) (value (.ofHost host fuel) e) := by
  have related := Plain.value_related Run.SameWhere.composes e
    (covers_onLine host fuel line stray e.mentions)
  rwa [Expr.mapSpan_id] at related

lemma declareAll_onLine (last : String) (ds : List Declarator) :
    Run.SameWhere (Machine.OnLine line)
      (Plain.declareAll ((Interpreter.ofHost host fuel).onLine line stray) last ds)
      (Plain.declareAll (.ofHost host fuel) last ds) := by
  have related := Plain.declareAll_related Run.SameWhere.composes last ds
    (Plain.relatesParts_of_covers Run.SameWhere.composes (covers_onLine host fuel line stray _))
  rwa [show Declarator.mapSpan id = id from funext Declarator.mapSpan_id, List.map_id] at related

/-- An expression does not depend on the line that is due if it is the actual one, or if no native is
called. -/
lemma optionalValue_onLine {due : Nat} (e : Option Expr)
    (right : due = line ∨ e.elim [] Expr.callees = []) : Run.SameWhere (Machine.OnLine line)
      (optionalValue ((Interpreter.ofHost host fuel).onLine due stray) e)
      (optionalValue (.ofHost host fuel) e) := by
  have covers : RunRelation.CoversAll (Run.SameWhere (Machine.OnLine line)) id
      ((Interpreter.ofHost host fuel).onLine due stray) (.ofHost host fuel)
      (Expr.optionMentions e) := by
    rcases right with rfl | quiet
    · exact covers_onLine host fuel due stray _
    · refine covers_without_calls host fuel line stray due fun name mem => ?_
      have called := Expr.mem_optionCallees e mem
      rw [quiet] at called
      cases called
  have related := Plain.optionalValue_related Run.SameWhere.composes e covers
  rwa [show Expr.mapSpan id = id from funext Expr.mapSpan_id, Option.map_id, id] at related

/-- The results of a tracked run and of a plain one: the same outcome on the same machine, which is on
the line that the tracked run has returned, one of `lines`. -/
inductive SameEnd (lines : List Nat) : Option (Except ScriptError (α × Nat) × Machine ν σ) →
    Option (Except ScriptError α × Machine ν σ) → Prop
  | cutShort : SameEnd lines none none
  | failed (e : ScriptError) (m : Machine ν σ) :
    SameEnd lines (some (.error e, m)) (some (.error e, m))
  | done (a : α) {last : Nat} {m : Machine ν σ} (entered : last ∈ lines)
    (on : m.OnLine last) : SameEnd lines (some (.ok (a, last), m)) (some (.ok a, m))

/-- Begun on `line`, the runs end in the same way, on one of `lines`. -/
def Leads (line : Nat) (lines : List Nat) (x : Run ν σ (α × Nat)) (y : Run ν σ α) : Prop :=
  ∀ m, m.OnLine line → SameEnd lines (x m) (y m)

namespace Leads

variable {line : Nat} {lines lines' : List Nat} {x : Run ν σ (α × Nat)} {y : Run ν σ α}

lemma pure (a : α) (entered : line ∈ lines) :
    Leads line lines (pure (a, line) : Run ν σ (α × Nat)) (pure a) :=
  fun _ on => .done a entered on

lemma mono (leads : Leads line lines x y) (subset : lines ⊆ lines') : Leads line lines' x y := by
  intro m on
  have ended := leads m on
  generalize x m = r, y m = r' at ended
  cases ended with
  | cutShort => exact .cutShort
  | failed e m' => exact .failed e m'
  | done a entered on => exact .done a (subset entered) on

lemma bind {k : α × Nat → Run ν σ (β × Nat)} {k' : α → Run ν σ β} (first : Leads line lines x y)
    (rest : ∀ a, ∀ last ∈ lines, Leads last lines' (k (a, last)) (k' a)) :
    Leads line lines' (x >>= k) (y >>= k') := by
  intro m on
  have ended := first m on
  simp only [Bind.bind, Run.bind]
  generalize x m = r, y m = r' at ended
  cases ended with
  | cutShort => exact .cutShort
  | failed e m' => exact .failed e m'
  | done a entered on => exact rest a _ entered _ on

/-- An expression is evaluated. -/
lemma after {v w : Run ν σ α} (same : Run.SameWhere (Machine.OnLine line) v w)
    {k : α → Run ν σ (β × Nat)} {k' : α → Run ν σ β}
    (rest : ∀ a, Leads line lines (k a) (k' a)) : Leads line lines (v >>= k) (w >>= k') := by
  intro m on
  obtain ⟨same, kept⟩ := same m on
  simp only [Bind.bind, Run.bind, same]
  rcases ended : w m with _ | ⟨e | a, m'⟩
  · exact .cutShort
  · exact .failed e m'
  · exact rest a m' (kept _ _ ended)

/-- A statement is entered. -/
lemma arrived {before : Nat} {span : Span} (rest : Leads span.line lines x y) :
    Leads before lines (arrive span >>= fun _ => x) (arrive span >>= fun _ => y) :=
  fun m on => rest (m.markLine span.line) (Machine.onLine_markLine on span.line)

/-- A statement ends with a value. -/
lemma left (v : String) (flow : Flow) (entered : line ∈ lines) :
    Leads line lines (leave v >>= fun _ => Pure.pure (flow, line) : Run ν σ (Flow × Nat))
      (leave v >>= fun _ => Pure.pure flow) :=
  fun m on => .done flow entered ((m.setResult_standing v).onLine on)

end Leads

lemma rounds_leads {condition increment : Nat → Run ν σ String} {condition' increment' : Run ν σ String}
    {body : Run ν σ (Flow × Nat)} {body' : Run ν σ Flow} {entered : List Nat}
    (conditions : ∀ last ∈ entered, Run.SameWhere (Machine.OnLine last) (condition last) condition')
    (increments : ∀ last ∈ entered, Run.SameWhere (Machine.OnLine last) (increment last) increment')
    (bodies : ∀ line, Leads line entered body body') (n : Nat) {last : Nat} (mem : last ∈ entered) :
    Leads last entered (rounds condition increment body n last)
      (Plain.repeatWhile condition' increment' body' n) := by
  induction n generalizing last with
  | zero =>
    unfold rounds Plain.repeatWhile
    apply Leads.after (conditions last mem)
    intro v
    split
    · exact fun _ _ => .cutShort
    · exact .pure Flow.normal mem
  | succ n ih =>
    unfold rounds Plain.repeatWhile
    apply Leads.after (conditions last mem)
    intro v
    split
    · apply (bodies last).bind
      intro flow last' mem
      cases flow with
      | returned => exact .pure Flow.returned mem
      | normal => exact Leads.after (increments last' mem) fun _ => ih mem
    · exact .pure Flow.normal mem

section

variable {host fuel stray} {due : Nat → Nat → Nat}

mutual

lemma perform_leads (same : ∀ line, due line line = line) (line : Nat) : ∀ s : Stmt,
    ((∀ own last, due own last = last) ∨ s.clausesOnLine) →
    Leads line s.lines (perform due stray (.ofHost host fuel) s) (Plain.perform (.ofHost host fuel) s)
  | .empty span, _ => by
    simp only [perform, Plain.perform]
    exact .arrived (.pure Flow.normal List.mem_cons_self)
  | .expression expr span, _ => by
    simp only [perform, Plain.perform]
    apply Leads.arrived
    apply Leads.after (value_onLine host fuel span.line stray expr)
    intro v
    exact .left v .normal List.mem_cons_self
  | .block statements span, tracks => by
    simp only [perform, Plain.perform]
    apply Leads.arrived
    exact performAll_leads same span.line statements tracks
  | .choice condition thenBranch none span, tracks => by
    simp only [perform, Plain.perform]
    apply Leads.arrived
    apply Leads.after (value_onLine host fuel span.line stray condition)
    intro v
    simp only [Stmt.clausesOnLine, Bool.and_eq_true] at tracks
    split
    · apply (perform_leads same span.line thenBranch (tracks.imp_right And.left)).mono
      exact List.subset_cons_of_subset _ (List.subset_append_left _ _)
    · exact .pure Flow.normal List.mem_cons_self
  | .choice condition thenBranch (some other) span, tracks => by
    simp only [perform, Plain.perform]
    apply Leads.arrived
    apply Leads.after (value_onLine host fuel span.line stray condition)
    intro v
    simp only [Stmt.clausesOnLine, Bool.and_eq_true] at tracks
    split
    · apply (perform_leads same span.line thenBranch (tracks.imp_right And.left)).mono
      exact List.subset_cons_of_subset _ (List.subset_append_left _ _)
    · apply (perform_leads same span.line other (tracks.imp_right And.right)).mono
      exact List.subset_cons_of_subset _ (List.subset_append_right _ _)
  -- The only case in which a line is due that is not the one entered last: the clauses behind a
  -- round are evaluated with the line that the body left.
  | .loop start condition increment body span, tracks => by
    simp only [perform, Plain.perform]
    simp only [Stmt.clausesOnLine, Bool.and_eq_true, Bool.or_eq_true, List.isEmpty_iff,
      List.append_eq_nil_iff, List.all_eq_true, beq_iff_eq] at tracks
    apply Leads.arrived
    apply (performStart_leads same span.line start (tracks.imp_right fun t => t.2.1)).bind
    intro _ last mem
    -- On each line that may have been entered last, that line is due, or no native is called.
    have due_or_quiet (last : Nat) (mem : last ∈ (Stmt.loop start condition increment body span).lines) :
        due span.line last = last ∨
          condition.elim [] Expr.callees = [] ∧ increment.elim [] Expr.callees = [] := by
      rcases tracks with last_due | ⟨quiet | on_line, -⟩
      · exact .inl (last_due span.line last)
      · exact .inr quiet
      · refine .inl ?_
        rcases List.mem_cons.1 mem with rfl | mem
        · exact same span.line
        · exact on_line last mem ▸ same span.line
    have entered : last ∈ (Stmt.loop start condition increment body span).lines :=
      List.cons_subset_cons _ (List.subset_append_left _ _) mem
    refine rounds_leads (fun last mem => ?_) (fun last mem => ?_) (fun line => ?_) _ entered
    · exact optionalValue_onLine host fuel last stray condition
        ((due_or_quiet last mem).imp_right And.left)
    · exact optionalValue_onLine host fuel last stray increment
        ((due_or_quiet last mem).imp_right And.right)
    · apply (perform_leads same line body (tracks.imp_right fun t => t.2.2)).mono
      exact List.subset_cons_of_subset _ (List.subset_append_right _ _)
  | .declare ds span, _ => by
    simp only [perform, Plain.perform]
    apply Leads.arrived
    apply Leads.after (declareAll_onLine host fuel span.line stray "" ds)
    intro v
    exact .left v .normal List.mem_cons_self
  | .giveBack given span, _ => by
    simp only [perform, Plain.perform]
    apply Leads.arrived
    apply Leads.after (optionalValue_onLine host fuel span.line stray given (.inl rfl))
    intro v
    exact .left v .returned List.mem_cons_self

lemma performStart_leads (same : ∀ line, due line line = line) (own : Nat) : ∀ start : Option Stmt,
    ((∀ own last, due own last = last) ∨ Stmt.branchClausesOnLine start) →
    Leads own (own :: Stmt.startLines start) (performStart due stray (.ofHost host fuel) own start)
      (Plain.performStart (.ofHost host fuel) start)
  | none, _ => by
    simp only [performStart, Plain.performStart]
    exact .pure () List.mem_cons_self
  | some s, tracks => by
    have whole := perform_leads same own s tracks
    cases s with
    | declare ds span =>
      exact .after (declareAll_onLine host fuel own stray "" ds) fun _ => .pure () List.mem_cons_self
    | expression e span =>
      exact .after (value_onLine host fuel own stray e) fun _ => .pure () List.mem_cons_self
    | _ => exact whole.bind fun _ last mem => .pure () (List.mem_cons_of_mem _ mem)

lemma performAll_leads (same : ∀ line, due line line = line) (line : Nat) : ∀ statements : List Stmt,
    ((∀ own last, due own last = last) ∨ Stmt.allClausesOnLine statements) →
    Leads line (line :: Stmt.allLines statements)
      (performAll due stray (.ofHost host fuel) line statements)
      (Plain.performAll (.ofHost host fuel) statements)
  | [], _ => by
    simp only [performAll, Plain.performAll]
    exact .pure Flow.normal List.mem_cons_self
  | s :: rest, tracks => by
    simp only [performAll, Plain.performAll]
    simp only [Stmt.allClausesOnLine, Bool.and_eq_true] at tracks
    apply (perform_leads same line s (tracks.imp_right And.left)).bind
    intro flow last mem
    cases flow with
    | returned =>
      exact .pure Flow.returned (List.mem_cons_of_mem _ (List.mem_append_left _ mem))
    | normal =>
      apply (performAll_leads same last rest (tracks.imp_right And.right)).mono
      refine List.cons_subset.2 ⟨List.mem_cons_of_mem _ (List.mem_append_left _ mem), ?_⟩
      exact List.subset_cons_of_subset _ (List.subset_append_right _ _)

end

/-- At the beginning of an evaluation the tracked evaluator does what the original one does. -/
lemma runText_eq (same : ∀ line, due line line = line) {text : String}
    (tracks : (∀ own last, due own last = last) ∨
      Stmt.allClausesOnLine (Script.ofText text).trees) (m : Machine ν σ) :
    runText due stray (.ofHost host fuel) text m.beginInput =
      Script.runText (.ofHost host fuel) text m.beginInput := by
  have leads : Leads 1 _ (performAll due stray (.ofHost host fuel) 1 (Script.ofText text).trees)
      (Plain.performAll (.ofHost host fuel) (Script.ofText text).trees) :=
    performAll_leads same 1 _ tracks
  have ended := leads m.beginInput ⟨m.engine.inputs, rfl⟩
  rw [Script.runText, Script.run_eq]
  simp only [runText, Bind.bind, Run.bind]
  generalize performAll due stray (.ofHost host fuel) 1 _ m.beginInput = r,
    Plain.performAll (.ofHost host fuel) _ m.beginInput = r' at ended
  cases ended <;> rfl

end
end Tracked
end

/-- Every native that a script calls sees, when it is called, the line of the innermost statement whose
expression the call is in; but behind the first round of a loop, in the condition and in the increment,
it sees the line of the statement that was entered last in the body.

So where the conditions and increments of loops call no natives, or the whole body of the loop begins
on the loop's line, the line is that of the innermost statement in all rounds. -/
theorem natives_see_line_entered_last (host : Host ν σ) (fuel : Nat) (stray : Run ν σ String)
    (text : String) (m : Machine ν σ) :
    Tracked.runText (fun _ last => last) stray (.ofHost host fuel) text m.beginInput =
        Script.runText (.ofHost host fuel) text m.beginInput ∧
      (Stmt.allClausesOnLine (Script.ofText text).trees →
        Tracked.runText (fun own _ => own) stray (.ofHost host fuel) text m.beginInput =
          Script.runText (.ofHost host fuel) text m.beginInput) :=
  ⟨Tracked.runText_eq (fun _ => rfl) (.inl fun _ _ => rfl) m,
    fun on_line => Tracked.runText_eq (fun _ => rfl) (.inr on_line) m⟩

/-- All of this loop is on line 2, and natives are called in each of its clauses and in its body, eight
times in two rounds.  Held to line 2, not one of the calls goes astray. -/
theorem natives_see_line_entered_last_in_clauses :
    Stmt.allClausesOnLine
        (Script.ofText "0\nfor (i = line(); line() + 3 > i; i = i + line()) line()").trees = true ∧
      ∃ m', Tracked.runText (fun own _ => own) Run.cutShort (.ofHost SessionNative.host 8)
          "0\nfor (i = line(); line() + 3 > i; i = i + line()) line()" Session.lone.beginInput =
            some (.ok .normal, m') ∧
        m'.engine.result = "2" ∧ m'.world.calls.length = 8 := by
  have on_line : Stmt.allClausesOnLine
      (Script.ofText "0\nfor (i = line(); line() + 3 > i; i = i + line()) line()").trees = true := by
    decide +kernel
  have same := (natives_see_line_entered_last SessionNative.host 8 Run.cutShort _ Session.lone).2 on_line
  have ended : (Script.runText (.ofHost SessionNative.host 8)
      "0\nfor (i = line(); line() + 3 > i; i = i + line()) line()" Session.lone.beginInput).map
        (fun r => (r.1, r.2.engine.result, r.2.world.calls.length)) = some (.ok .normal, "2", 8) := by
    decide +kernel
  obtain ⟨⟨_, m'⟩, run, shown⟩ := Option.map_eq_some_iff.1 ended
  simp only [Prod.mk.injEq] at shown
  obtain ⟨rfl, result, calls⟩ := shown
  exact ⟨on_line, m', same.trans run, result, calls⟩

/-- The increment of a loop that begins on line 1 calls a native.  The body is on line 2, and that is
the line which the native sees: it sets `i` to 2.  With line 1 due it does not run at all. -/
theorem increment_sees_line_of_body :
    (∃ m', evaluate SessionNative.host 9 "for (i = 0; i < 1; i = line())\n0\ni" Session.lone =
        some (.ok "2", m')) ∧
      Tracked.runText (fun own _ => own) Run.cutShort (.ofHost SessionNative.host 8)
        "for (i = 0; i < 1; i = line())\n0\ni" Session.lone.beginInput = none := by
  constructor
  · have ended : (evaluate SessionNative.host 9 "for (i = 0; i < 1; i = line())\n0\ni"
        Session.lone).map Prod.fst = some (.ok "2") := by
      decide +kernel
    obtain ⟨⟨_, m'⟩, run, rfl⟩ := Option.map_eq_some_iff.1 ended
    exact ⟨m', run⟩
  · apply Option.isNone_iff_eq_none.1
    decide +kernel

end ScriptEngine
