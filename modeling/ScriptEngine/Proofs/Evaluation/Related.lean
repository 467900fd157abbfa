import ScriptEngine.Native.Console
import ScriptEngine.Proofs.Evaluation.Mentions
import ScriptEngine.Proofs.Evaluation.Plain
import ScriptEngine.Proofs.Tree.StatementGrammar

/-!
# Relations between runs

To compare what two interpreters do on a tree, or to follow what one of them keeps, it is enough to
look at the expressions and declarators of the tree: a relation between runs that composes holds of
carrying out a statement as soon as it holds of its parts (`perform_related_of_parts`).  Of those it
holds as soon as it holds of what is done to each name that they mention (`Covers`): the theorem
`value_related` and its companions, one for each walk.  The spans of the tree may differ on the two
sides by a function `f`.

Two such relations are set up below.  `Run.Refines Q` says that the second run does all that the
first does, and that `Q` relates the machines before and after it.  `Run.Pairs Q` says that the two
runs have the same outcome on machines related by `Q`, and leave such machines.
-/

namespace ScriptEngine

variable {ν σ σ' : Type}

/-! ## Relations that compose -/

/-- A relation between runs with values of the same type.  The hosts of the two sides may keep states
of different types. -/
abbrev RunRelation (ν σ : Type) (σ' : Type := σ) := ∀ {α : Type}, Run ν σ α → Run ν σ' α → Prop

namespace RunRelation

/-- The relation holds of runs that are put together of related ones.  On the right the spans of
errors are changed by `f`. -/
structure Composes (R : RunRelation ν σ σ') (f : Span → Span) : Prop where
  pure {α : Type} (a : α) : R (pure a : Run ν σ α) (pure a)
  throw {α : Type} (e : ScriptError) : R (Run.throw e : Run ν σ α) (Run.throw (e.mapSpan f))
  bind {α β : Type} {x : Run ν σ α} {y : Run ν σ' α} {k : α → Run ν σ β} {k' : α → Run ν σ' β} :
    R x y → (∀ a, R (k a) (k' a)) → R (x >>= k) (y >>= k')

/-- The relation holds of what statements do besides evaluating expressions, too. -/
structure ComposesStatements (R : RunRelation ν σ σ') (f : Span → Span) : Prop
    extends Composes R f where
  arrive (span : Span) : R (Plain.arrive span) (Plain.arrive (f span))
  leave (v : String) : R (Plain.leave v) (Plain.leave v)
  cutShort : R (Run.cutShort : Run ν σ Flow) Run.cutShort

/-- The relation holds of what `i` and `i'` do with a name that is mentioned. -/
def Covers (R : RunRelation ν σ σ') (f : Span → Span) (i : Interpreter ν σ)
    (i' : Interpreter ν σ') : Mention → Prop
  | .read name => ∀ span, R (resolve name span) (resolve name (f span))
  | .assign name => ∀ v, R (Run.modify fun m => m.setScopes (m.scopes.assign name v))
      (Run.modify fun m => m.setScopes (m.scopes.assign name v))
  | .step name => ∀ op span, R (stepVariable name op span) (stepVariable name op (f span))
  | .declare name =>
    (∀ span, R (Plain.declareOne i ⟨name, none, span⟩) (Plain.declareOne i' ⟨name, none, f span⟩)) ∧
    (∀ initializer span, R (checkUndeclared ⟨name, initializer, span⟩)
      (checkUndeclared (Declarator.mapSpan f ⟨name, initializer, span⟩))) ∧
    ∀ v, R (Run.modify fun m => m.setScopes (m.scopes.bindCurrent name (some v)))
      (Run.modify fun m => m.setScopes (m.scopes.bindCurrent name (some v)))
  | .call name => ∀ args span, R (i.invoke name args span) (i'.invoke name args (f span))

/-- The relation holds of what `i` and `i'` do with each of the names. -/
def CoversAll (R : RunRelation ν σ σ') (f : Span → Span) (i : Interpreter ν σ)
    (i' : Interpreter ν σ') (mentions : List Mention) : Prop :=
  ∀ mention ∈ mentions, Covers R f i i' mention

section

variable {R : RunRelation ν σ σ'} {f : Span → Span} {i : Interpreter ν σ}
  {i' : Interpreter ν σ'} {xs ys : List Mention}

lemma CoversAll.left (covers : CoversAll R f i i' (xs ++ ys)) : CoversAll R f i i' xs :=
  fun mention mem => covers mention (List.mem_append_left ys mem)

lemma CoversAll.right (covers : CoversAll R f i i' (xs ++ ys)) : CoversAll R f i i' ys :=
  fun mention mem => covers mention (List.mem_append_right xs mem)

lemma CoversAll.single {mention : Mention} (covers : CoversAll R f i i' [mention]) :
    Covers R f i i' mention :=
  covers mention List.mem_cons_self

lemma Composes.ofOperator (composes : Composes R f) (span : Span)
    (result : Except OperatorFault String) :
    R (Run.ofOperator span result) (Run.ofOperator (f span) result) := by
  cases result with
  | ok value => exact composes.pure value
  | error fault => exact composes.throw _

/-- The relation holds of what is done with a variable. -/
structure Handles (R : RunRelation ν σ σ') (f : Span → Span) (name : String) : Prop where
  found (span : Span) : R (resolve name span) (resolve name (f span))
  unknown (d : Declarator) : d.name = name → R (checkUndeclared d) (checkUndeclared (d.mapSpan f))
  assigns (v : String) : R (Run.modify fun m => m.setScopes (m.scopes.assign name v))
    (Run.modify fun m => m.setScopes (m.scopes.assign name v))
  binds (tier : Tier) (value : Option String) :
    R (Run.modify fun m => m.setScopes (m.scopes.bind tier name value))
      (Run.modify fun m => m.setScopes (m.scopes.bind tier name value))

/-- A step looks a variable up and binds it. -/
lemma Composes.stepVariable (composes : Composes R f) {name : String}
    (found : ∀ span, R (resolve name span) (resolve name (f span)))
    (binds : ∀ tier value, R (Run.modify fun m => m.setScopes (m.scopes.bind tier name (some value)))
      (Run.modify fun m => m.setScopes (m.scopes.bind tier name (some value))))
    (op : Operator) (span : Span) :
    R (stepVariable name op span) (stepVariable name op (f span)) := by
  apply composes.bind (found span)
  intro (tier, value)
  apply composes.bind (composes.ofOperator span _)
  intro stepped
  exact composes.bind (binds tier stepped) fun _ => composes.pure stepped

/-- A relation that composes holds of all that is done with a name that is mentioned, if it holds of
what is done with variables and of calls. -/
lemma Composes.covers (composes : Composes R f) (mention : Mention)
    (handles : ∀ name, mention.variableName? = some name → Handles R f name)
    (calls : ∀ name, mention = .call name → ∀ args span,
      R (i.invoke name args span) (i'.invoke name args (f span))) : Covers R f i i' mention := by
  cases mention with
  | read name => exact (handles name rfl).found
  | assign name => exact (handles name rfl).assigns
  | step name =>
    have handled := handles name rfl
    exact composes.stepVariable handled.found fun tier v => handled.binds tier (some v)
  | declare name =>
    have handled := handles name rfl
    refine ⟨fun span => ?_, fun initializer span => handled.unknown _ rfl, fun v =>
      handled.binds .block (some v)⟩
    apply composes.bind (handled.unknown ⟨name, none, span⟩ rfl)
    intro _
    exact composes.bind (handled.binds .block none) fun _ => composes.pure ""
  | call name => exact calls name rfl

end

end RunRelation

/-! ## Trees -/

namespace Plain

open RunRelation

variable {R : RunRelation ν σ σ'} {f : Span → Span} {i : Interpreter ν σ} {i' : Interpreter ν σ'}

section

variable (composes : Composes R f)
include composes

mutual

lemma value_related : ∀ e : Expr, CoversAll R f i i' e.mentions →
    R (value i e) (value i' (e.mapSpan f))
  | .empty _, _ => by
    simp only [value, Expr.mapSpan]
    exact composes.pure _
  | .literal text _, _ => by
    simp only [value, Expr.mapSpan]
    exact composes.pure _
  | .read name span, covers => by
    simp only [value, Expr.mapSpan]
    exact composes.bind (covers.single span) fun _ => composes.pure _
  | .assign name assigned _, covers => by
    simp only [value, Expr.mapSpan]
    apply composes.bind (value_related assigned covers.left)
    intro v
    exact composes.bind (covers.right.single v) fun _ => composes.pure v
  | .step name op span, covers => by
    simp only [value, Expr.mapSpan]
    exact covers.single op span
  | .chain first rest span, covers => by
    simp only [value, Expr.mapSpan]
    apply composes.bind (value_related first covers.left)
    intro v
    exact chainValue_related span v rest covers.right
  | .connect left op right span, covers => by
    simp only [value, Expr.mapSpan]
    apply composes.bind (value_related left covers.left)
    intro l
    exact composes.bind (value_related right covers.right) fun r => composes.ofOperator span _
  | .call name args span, covers => by
    simp only [value, Expr.mapSpan]
    apply composes.bind (values_related args covers.left)
    intro vs
    exact covers.right.single vs span
  | .grouping inner _, covers => by
    simp only [value, Expr.mapSpan]
    exact value_related inner covers

lemma chainValue_related (span : Span) (v : String) : ∀ rest : List (Operator × Expr),
    CoversAll R f i i' (chainMentions rest) →
    R (chainValue i span v rest) (chainValue i' (f span) v (Expr.mapLinkSpans f rest))
  | [], _ => by
    simp only [chainValue, Expr.mapLinkSpans]
    exact composes.pure v
  | (op, operand) :: rest, covers => by
    simp only [chainValue, Expr.mapLinkSpans]
    apply composes.bind (value_related operand covers.left)
    intro r
    apply composes.bind (composes.ofOperator span _)
    intro v
    exact chainValue_related span v rest covers.right

lemma values_related : ∀ es : List Expr, CoversAll R f i i' (allMentions es) →
    R (values i es) (values i' (Expr.mapSpans f es))
  | [], _ => by
    simp only [values, Expr.mapSpans]
    exact composes.pure []
  | e :: rest, covers => by
    simp only [values, Expr.mapSpans]
    apply composes.bind (value_related e covers.left)
    intro v
    exact composes.bind (values_related rest covers.right) fun vs => composes.pure (v :: vs)

end

lemma declareOne_related (d : Declarator) (covers : CoversAll R f i i' d.mentions) :
    R (declareOne i d) (declareOne i' (d.mapSpan f)) := by
  obtain ⟨name, initializer, span⟩ := d
  obtain ⟨bare, undeclared, binds⟩ := covers.right.single
  cases initializer with
  | none => exact bare span
  | some e =>
    apply composes.bind (undeclared (some e) span)
    intro _
    apply composes.bind (value_related composes e covers.left)
    intro v
    exact composes.bind (binds v) fun _ => composes.pure v

end

/-! ### Parts -/

/-- The relation holds of evaluating or carrying out a part. -/
def RelatesPart (R : RunRelation ν σ σ') (f : Span → Span) (i : Interpreter ν σ)
    (i' : Interpreter ν σ') : Part → Prop
  | .expression e => R (value i e) (value i' (e.mapSpan f))
  | .declarator d => R (declareOne i d) (declareOne i' (d.mapSpan f))

/-- The relation holds of each of the parts. -/
def RelatesParts (R : RunRelation ν σ σ') (f : Span → Span) (i : Interpreter ν σ)
    (i' : Interpreter ν σ') (parts : List Part) : Prop :=
  ∀ part ∈ parts, RelatesPart R f i i' part

lemma RelatesParts.left {xs ys : List Part} (related : RelatesParts R f i i' (xs ++ ys)) :
    RelatesParts R f i i' xs :=
  fun part mem => related part (List.mem_append_left ys mem)

lemma RelatesParts.right {xs ys : List Part} (related : RelatesParts R f i i' (xs ++ ys)) :
    RelatesParts R f i i' ys :=
  fun part mem => related part (List.mem_append_right xs mem)

lemma RelatesParts.head {part : Part} {rest : List Part}
    (related : RelatesParts R f i i' (part :: rest)) : RelatesPart R f i i' part :=
  related part List.mem_cons_self

lemma RelatesParts.tail {part : Part} {rest : List Part}
    (related : RelatesParts R f i i' (part :: rest)) : RelatesParts R f i i' rest :=
  fun part mem => related part (List.mem_cons_of_mem _ mem)

section

variable (composes : Composes R f)
include composes

/-- The parts are related if what is done with the names that they mention is. -/
lemma relatesParts_of_covers {parts : List Part}
    (covers : CoversAll R f i i' (parts.flatMap Part.mentions)) : RelatesParts R f i i' parts := by
  intro part mem
  have covers : CoversAll R f i i' part.mentions := fun mention mem' =>
    covers mention (List.mem_flatMap_of_mem mem mem')
  cases part with
  | expression e => exact value_related composes e covers
  | declarator d => exact declareOne_related composes d covers

lemma optionalValue_related_of_parts (e : Option Expr)
    (related : RelatesParts R f i i' (Part.optional e)) :
    R (optionalValue i e) (optionalValue i' (e.map (Expr.mapSpan f))) := by
  cases e with
  | none => exact composes.pure ""
  | some e => exact related.head

lemma optionalValue_related (e : Option Expr)
    (covers : CoversAll R f i i' (Expr.optionMentions e)) :
    R (optionalValue i e) (optionalValue i' (e.map (Expr.mapSpan f))) := by
  rw [Stmt.optional_mentions] at covers
  exact optionalValue_related_of_parts composes e (relatesParts_of_covers composes covers)

lemma declareAll_related (last : String) (ds : List Declarator)
    (related : RelatesParts R f i i' (ds.map Part.declarator)) :
    R (declareAll i last ds) (declareAll i' last (ds.map (Declarator.mapSpan f))) := by
  induction ds generalizing last with
  | nil => exact composes.pure last
  | cons d rest ih => exact composes.bind related.head fun v => ih v related.tail

/-- A declaration or an expression in front of a loop is no more than its parts. -/
lemma performClause_related_of_parts (start : Option Stmt) (clause : start.all Stmt.isClause = true)
    (related : RelatesParts R f i i' (Stmt.branchParts start)) :
    R (performStart i start) (performStart i' (Stmt.mapBranchSpan f start)) := by
  cases start with
  | none => exact composes.pure ()
  | some s =>
    cases s with
    | declare ds span =>
      exact composes.bind (declareAll_related composes "" ds related) fun _ => composes.pure ()
    | expression e span => exact composes.bind related.head fun _ => composes.pure ()
    | _ => cases clause

lemma performClause_related (start : Option Stmt) (clause : start.all Stmt.isClause = true)
    (covers : CoversAll R f i i' (Stmt.branchMentions start)) :
    R (performStart i start) (performStart i' (Stmt.mapBranchSpan f start)) := by
  rw [Stmt.branchMentions_eq] at covers
  exact performClause_related_of_parts composes start clause (relatesParts_of_covers composes covers)

end

/-! ### Statements -/

section

variable (composes : ComposesStatements R f)
include composes

lemma repeatWhile_related {condition increment : Run ν σ String}
    {condition' increment' : Run ν σ' String} {body : Run ν σ Flow} {body' : Run ν σ' Flow}
    (conditions : R condition condition')
    (increments : R increment increment') (bodies : R body body') (rounds : Nat) :
    R (repeatWhile condition increment body rounds)
      (repeatWhile condition' increment' body' rounds) := by
  induction rounds with
  | zero =>
    unfold repeatWhile
    apply composes.bind conditions
    intro v
    split
    · exact composes.cutShort
    · exact composes.pure _
  | succ rounds ih =>
    unfold repeatWhile
    apply composes.bind conditions
    intro v
    split
    · apply composes.bind bodies
      intro flow
      cases flow with
      | returned => exact composes.pure _
      | normal => exact composes.bind increments fun _ => ih
    · exact composes.pure _

mutual

/-- A relation that holds of the parts of a statement holds of carrying out the statement. -/
lemma perform_related_of_parts (rounds : i.rounds = i'.rounds) : ∀ s : Stmt,
    RelatesParts R f i i' s.parts → R (perform i s) (perform i' (s.mapSpan f))
  | .empty span, _ => by
    simp only [perform, Stmt.mapSpan]
    exact composes.bind (composes.arrive span) fun _ => composes.pure _
  | .expression expr span, related => by
    simp only [perform, Stmt.mapSpan]
    apply composes.bind (composes.arrive span)
    intro _
    apply composes.bind related.head
    intro v
    exact composes.bind (composes.leave v) fun _ => composes.pure _
  | .block statements span, related => by
    simp only [perform, Stmt.mapSpan]
    exact composes.bind (composes.arrive span) fun _ =>
      performAll_related_of_parts rounds statements related
  | .choice condition thenBranch none span, related => by
    simp only [perform, Stmt.mapSpan, Stmt.mapBranchSpan]
    apply composes.bind (composes.arrive span)
    intro _
    apply composes.bind related.head
    intro v
    split
    · exact perform_related_of_parts rounds thenBranch related.tail.left
    · exact composes.pure _
  | .choice condition thenBranch (some other) span, related => by
    simp only [perform, Stmt.mapSpan, Stmt.mapBranchSpan]
    apply composes.bind (composes.arrive span)
    intro _
    apply composes.bind related.head
    intro v
    split
    · exact perform_related_of_parts rounds thenBranch related.tail.left
    · exact perform_related_of_parts rounds other related.tail.right
  | .loop start condition increment body span, related => by
    simp only [perform, Stmt.mapSpan]
    -- The clauses and the body are carried out many times, so what is known of them is fixed
    -- before the rounds begin.
    have conditions := optionalValue_related_of_parts composes.toComposes condition related.right.left
    have increments := optionalValue_related_of_parts composes.toComposes increment related.right.right.left
    have bodies := perform_related_of_parts rounds body related.right.right.right
    apply composes.bind (composes.arrive span)
    intro _
    apply composes.bind (performStart_related_of_parts rounds start related.left)
    intro _
    rw [rounds]
    exact repeatWhile_related composes conditions increments bodies i'.rounds
  | .declare ds span, related => by
    simp only [perform, Stmt.mapSpan]
    apply composes.bind (composes.arrive span)
    intro _
    apply composes.bind (declareAll_related composes.toComposes "" ds related)
    intro v
    exact composes.bind (composes.leave v) fun _ => composes.pure _
  | .giveBack given span, related => by
    simp only [perform, Stmt.mapSpan]
    apply composes.bind (composes.arrive span)
    intro _
    apply composes.bind (optionalValue_related_of_parts composes.toComposes given related)
    intro v
    exact composes.bind (composes.leave v) fun _ => composes.pure _

lemma performStart_related_of_parts (rounds : i.rounds = i'.rounds) : ∀ start : Option Stmt,
    RelatesParts R f i i' (Stmt.branchParts start) →
    R (performStart i start) (performStart i' (Stmt.mapBranchSpan f start))
  | none, related => performClause_related_of_parts composes.toComposes none rfl related
  | some s, related => by
    have whole := perform_related_of_parts rounds s related
    cases s with
    | declare | expression =>
      exact performClause_related_of_parts composes.toComposes _ rfl related
    | _ => exact composes.bind whole fun _ => composes.pure ()

lemma performAll_related_of_parts (rounds : i.rounds = i'.rounds) : ∀ statements : List Stmt,
    RelatesParts R f i i' (Stmt.allParts statements) →
    R (performAll i statements) (performAll i' (Stmt.mapSpans f statements))
  | [], _ => by
    simp only [performAll, Stmt.mapSpans]
    exact composes.pure _
  | s :: rest, related => by
    simp only [performAll, Stmt.mapSpans]
    apply composes.bind (perform_related_of_parts rounds s related.left)
    intro flow
    cases flow with
    | returned => exact composes.pure _
    | normal => exact performAll_related_of_parts rounds rest related.right

end

end
end Plain

/-! ## Scripts -/

/-- Goes on with `next`, unless a `return` has been carried out. -/
def Flow.andThen (next : Run ν σ Flow) : Flow → Run ν σ Flow
  | .returned => pure .returned
  | .normal => next

namespace Script

/-- What is left to do behind the statements of a script. -/
def ending (error : Option ScriptError) : Run ν σ Flow :=
  match error with
  | some e => Run.throw e
  | none => pure .normal

/-- A script is its statements in order, and then its error unless one of them returns. -/
lemma run_eq (i : Interpreter ν σ) (script : Script) :
    Script.run i script.error script.statements =
      Plain.performAll i script.trees >>= Flow.andThen (ending script.error) := by
  obtain ⟨statements, error, line⟩ := script
  rw [scriptRun_eq_performScript]
  induction statements with
  | nil => rfl
  | cons s rest ih =>
    simp only [trees] at ih
    simp only [trees, Plain.performScript, Plain.performAll, List.map_cons, ih, bind_assoc]
    refine bind_congr fun flow => ?_
    cases flow <;> rfl

open RunRelation

variable {R : RunRelation ν σ σ'} {f : Span → Span} {i : Interpreter ν σ} {i' : Interpreter ν σ'}

/-- A relation that holds of the parts of a script holds of carrying out the script. -/
lemma run_related_of_parts (composes : ComposesStatements R f) (rounds : i.rounds = i'.rounds)
    (script : Script) (related : Plain.RelatesParts R f i i' script.parts) :
    R (Script.run i script.error script.statements)
      (Script.run i' (script.mapSpan f).error (script.mapSpan f).statements) := by
  rw [run_eq, run_eq, trees_mapSpan, ← Stmt.mapSpans_eq_map, error_mapSpan]
  apply composes.bind (Plain.performAll_related_of_parts composes rounds script.trees related)
  intro flow
  cases flow with
  | returned => exact composes.pure _
  | normal =>
    cases script.error with
    | none => exact composes.pure _
    | some e => exact composes.throw e

/-- A relation that holds of what is done with the names that a script mentions holds of carrying
out the script. -/
lemma run_related (composes : ComposesStatements R f) (rounds : i.rounds = i'.rounds)
    (script : Script) (covers : CoversAll R f i i' script.mentions) :
    R (Script.run i script.error script.statements)
      (Script.run i' (script.mapSpan f).error (script.mapSpan f).statements) := by
  rw [mentions, Stmt.allMentions_eq] at covers
  exact run_related_of_parts composes rounds script
    (Plain.relatesParts_of_covers composes.toComposes covers)

/-- Where the spans are the same, so are the scripts. -/
lemma runText_related_of_parts (composes : ComposesStatements R id) (rounds : i.rounds = i'.rounds)
    (text : String) (related : Plain.RelatesParts R id i i' (ofText text).parts) :
    R (runText i text) (runText i' text) := by
  have whole := run_related_of_parts composes rounds (ofText text) related
  rw [mapSpan_id] at whole
  exact whole

lemma runText_related (composes : ComposesStatements R id) (rounds : i.rounds = i'.rounds)
    (text : String) (covers : CoversAll R id i i' (ofText text).mentions) :
    R (runText i text) (runText i' text) := by
  have related := run_related composes rounds (ofText text) covers
  rw [mapSpan_id] at related
  exact related

end Script

/-! ## Two relations -/

/-- Two computations end in the same way: with the same outcome, in states that `Q` relates; or both are
cut short. -/
abbrev EndAlike {α τ τ' : Type} (Q : τ → τ' → Prop) : Option (α × τ) → Option (α × τ') → Prop :=
  Option.Rel fun r r' => r.1 = r'.1 ∧ Q r.2 r'.2

lemma EndAlike.cases {α τ τ' : Type} {Q : τ → τ' → Prop} {x : Option (α × τ)} {y : Option (α × τ')}
    (both : EndAlike Q x y) :
    (x = none ∧ y = none) ∨ ∃ a s s', x = some (a, s) ∧ y = some (a, s') ∧ Q s s' := by
  cases both with
  | none => exact .inl ⟨rfl, rfl⟩
  | @some r r' same =>
    obtain ⟨a, s⟩ := r
    obtain ⟨a', s'⟩ := r'
    obtain ⟨rfl, related⟩ := same
    exact .inr ⟨a, s, s', rfl, rfl, related⟩

namespace Run

open RunRelation

variable {α β : Type} {Q : Machine ν σ → Machine ν σ → Prop}

/-- All that `x` does `y` does as well, and `Q` relates the machines before and after it. -/
def Refines (Q : Machine ν σ → Machine ν σ → Prop) (x y : Run ν σ α) : Prop :=
  ∀ m outcome m', x m = some (outcome, m') → y m = some (outcome, m') ∧ Q m m'

namespace Refines

lemma modify {change : Machine ν σ → Machine ν σ} (kept : ∀ m, Q m (change m)) :
    Refines Q (modify change) (modify change) := by
  rintro m outcome m' ⟨⟩
  exact ⟨rfl, kept m⟩

lemma bind {x y : Run ν σ α} {k k' : α → Run ν σ β}
    (trans : ∀ m₀ m₁ m₂, Q m₀ m₁ → Q m₁ m₂ → Q m₀ m₂) (first : Refines Q x y)
    (rest : ∀ a, Refines Q (k a) (k' a)) : Refines Q (x >>= k) (y >>= k') := by
  intro m outcome m' run
  rcases bind_eq_some run with ⟨e, failed, rfl⟩ | ⟨a, m₁, done, run⟩
  · obtain ⟨same, kept⟩ := first m _ m' failed
    exact ⟨bind_of_error same k', kept⟩
  · obtain ⟨same, kept⟩ := first m _ m₁ done
    obtain ⟨onward, kept'⟩ := rest a m₁ outcome m' run
    exact ⟨(bind_of_ok same k').trans onward, trans _ _ _ kept kept'⟩

/-- A preorder is kept by runs that are put together of runs that keep it. -/
lemma composes (refl : ∀ m, Q m m) (trans : ∀ m₀ m₁ m₂, Q m₀ m₁ → Q m₁ m₂ → Q m₀ m₂) :
    Composes (Refines Q : RunRelation ν σ) id where
  pure a := by
    rintro m outcome m' ⟨⟩
    exact ⟨rfl, refl m⟩
  throw e := by
    rintro m outcome m' ⟨⟩
    exact ⟨rfl, refl m⟩
  bind := bind trans

lemma composesStatements (refl : ∀ m, Q m m) (trans : ∀ m₀ m₁ m₂, Q m₀ m₁ → Q m₁ m₂ → Q m₀ m₂)
    (lines : ∀ line m, Q m (m.markLine line)) (results : ∀ v m, Q m (m.setResult v)) :
    ComposesStatements (Refines Q : RunRelation ν σ) id :=
  { composes refl trans with
    arrive := fun span => modify (lines span.line)
    leave := fun v => modify (results v)
    cutShort := by rintro m outcome m' ⟨⟩ }

section

variable (refl : ∀ m, Q m m)
include refl

lemma resolve (name : String) (span : Span) :
    Refines Q (resolve name span) (resolve name span) := by
  intro m outcome m' run
  refine ⟨run, ?_⟩
  unfold ScriptEngine.resolve at run
  split at run <;> cases run <;> exact refl m

lemma checkUndeclared (d : Declarator) :
    Refines Q (checkUndeclared d) (checkUndeclared d) := by
  intro m outcome m' run
  refine ⟨run, ?_⟩
  unfold ScriptEngine.checkUndeclared at run
  split at run <;> cases run <;> exact refl m

/-- What is done with a variable is kept where every binding of it is. -/
lemma handles {name : String}
    (binds : ∀ m tier value, Q m (m.setScopes (m.scopes.bind tier name value))) :
    Handles (Refines Q) id name where
  found := resolve refl name
  unknown d _ := by
    rw [Declarator.mapSpan_id]
    exact checkUndeclared refl d
  assigns v := modify fun m => binds m (m.scopes.assignTier name) (some v)
  binds tier value := modify fun m => binds m tier value

lemma covers_of_bind (trans : ∀ m₀ m₁ m₂, Q m₀ m₁ → Q m₁ m₂ → Q m₀ m₂)
    (binds : ∀ m tier name value, Q m (m.setScopes (m.scopes.bind tier name value)))
    {i i' : Interpreter ν σ} (mention : Mention)
    (calls : ∀ name, mention = .call name → ∀ args span,
      Refines Q (i.invoke name args span) (i'.invoke name args span)) :
    Covers (Refines Q) id i i' mention :=
  (composes refl trans).covers mention
    (fun name _ => handles refl fun m tier value => binds m tier name value) calls

/-- What is done with variables is kept where every change of the scopes is. -/
lemma covers (trans : ∀ m₀ m₁ m₂, Q m₀ m₁ → Q m₁ m₂ → Q m₀ m₂)
    (scopes : ∀ m s, Q m (m.setScopes s)) {i i' : Interpreter ν σ} (mention : Mention)
    (calls : ∀ name, mention = .call name → ∀ args span,
      Refines Q (i.invoke name args span) (i'.invoke name args span)) :
    Covers (Refines Q) id i i' mention :=
  covers_of_bind refl trans (fun m _ _ _ => scopes m _) mention calls

end
end Refines

/-- The runs have the same outcome on machines that `Q` relates, and `Q` relates the machines that
they leave; if one is cut short, so is the other. -/
def Pairs (Q : Machine ν σ → Machine ν σ' → Prop) (x : Run ν σ α) (y : Run ν σ' α) : Prop :=
  ∀ m n, Q m n → Option.Rel (fun r r' => r.1 = r'.1 ∧ Q r.2 r'.2) (x m) (y n)

namespace Pairs

variable {Q : Machine ν σ → Machine ν σ' → Prop}

lemma modify {change : Machine ν σ → Machine ν σ} {change' : Machine ν σ' → Machine ν σ'}
    (kept : ∀ m n, Q m n → Q (change m) (change' n)) : Pairs Q (modify change) (modify change') :=
  fun m n related => .some ⟨rfl, kept m n related⟩

lemma bind {x : Run ν σ α} {y : Run ν σ' α} {k : α → Run ν σ β} {k' : α → Run ν σ' β}
    (first : Pairs Q x y) (rest : ∀ a, Pairs Q (k a) (k' a)) : Pairs Q (x >>= k) (y >>= k') := by
  intro m n related
  simp only [Bind.bind, Run.bind]
  obtain ⟨left, right⟩ | ⟨outcome, m', n', left, right, related'⟩ :=
    EndAlike.cases (first m n related)
  · rw [left, right]
    exact .none
  · rw [left, right]
    cases outcome with
    | error e => exact .some ⟨rfl, related'⟩
    | ok a => exact rest a m' n' related'

lemma composes : Composes (Pairs Q : RunRelation ν σ σ') id where
  pure _ := fun _ _ related => .some ⟨rfl, related⟩
  throw _ := fun _ _ related => .some ⟨rfl, related⟩
  bind := bind

lemma composesStatements (lines : ∀ line m n, Q m n → Q (m.markLine line) (n.markLine line))
    (results : ∀ v m n, Q m n → Q (m.setResult v) (n.setResult v)) :
    ComposesStatements (Pairs Q : RunRelation ν σ σ') id :=
  { composes with
    arrive := fun span => modify (lines span.line)
    leave := fun v => modify (results v)
    cutShort := fun _ _ _ => .none }

end Pairs
end Run

/-! ## Natives -/

/-- A native all of whose requests are allowed. -/
def Callback.OnlyAsks {α : Type} (allowed : Request ν σ → Prop) : Callback ν σ α → Prop
  | .done _ => True
  | .fail _ => True
  | .ask request next => allowed request ∧ ∀ answer, (next answer).OnlyAsks allowed

namespace Callback.OnlyAsks

variable {α β : Type} {allowed : Request ν σ → Prop}

lemma of_all (all : ∀ request, allowed request) (x : Callback ν σ α) : x.OnlyAsks allowed := by
  induction x with
  | done a => exact trivial
  | fail message => exact trivial
  | ask request next ih => exact ⟨all request, ih⟩

lemma mono {allowed' : Request ν σ → Prop} (weaker : ∀ request, allowed request → allowed' request)
    {x : Callback ν σ α} (only : x.OnlyAsks allowed) : x.OnlyAsks allowed' := by
  induction x with
  | done a => exact trivial
  | fail message => exact trivial
  | ask request next ih => exact ⟨weaker request only.1, fun answer => ih answer (only.2 answer)⟩

lemma bind {x : Callback ν σ α} {k : α → Callback ν σ β} (first : x.OnlyAsks allowed)
    (rest : ∀ a, (k a).OnlyAsks allowed) : (x >>= k).OnlyAsks allowed := by
  induction x with
  | done a => exact rest a
  | fail message => exact trivial
  | ask request next ih => exact ⟨first.1, fun answer => ih answer (first.2 answer)⟩

lemma orFail {ε : Type} (message : ε → String) (result : Except ε α) :
    (Callback.orFail message result : Callback ν σ α).OnlyAsks allowed := by
  cases result <;> exact trivial

lemma request {r : Request ν σ} (here : allowed r) :
    (Callback.request r).OnlyAsks allowed :=
  ⟨here, fun _ => trivial⟩

end Callback.OnlyAsks

/-- The natives of the console ask for two things: to print, and to leave a result. -/
lemma ConsoleNative.host_onlyAsks (native : ConsoleNative) (args : List String) :
    (ConsoleNative.host native args).OnlyAsks
      fun r => (∃ text, r = .print text) ∨ ∃ text, r = .setResult text := by
  cases native with
  | print => exact .request (.inl ⟨_, rfl⟩)
  | length =>
    apply Callback.OnlyAsks.bind (.orFail _ _)
    intro _
    exact (Callback.OnlyAsks.orFail _ _).bind fun _ => .request (.inr ⟨_, rfl⟩)
  | repeated =>
    apply Callback.OnlyAsks.bind (.orFail _ _)
    intro _
    apply Callback.OnlyAsks.bind (.orFail _ _)
    intro _
    exact (Callback.OnlyAsks.orFail _ _).bind fun _ => .request (.inr ⟨_, rfl⟩)

section

variable {Q : Machine ν σ → Machine ν σ → Prop} (refl : ∀ m, Q m m)
  (trans : ∀ m₀ m₁ m₂, Q m₀ m₁ → Q m₁ m₂ → Q m₀ m₂) {evaluate : String → Run ν σ String}
include refl trans

/-- A native keeps what the answers to its requests keep. -/
lemma Callback.run_keeps {α : Type} {allowed : Request ν σ → Prop}
    (answers : ∀ request, allowed request → ∀ m a m',
      answer evaluate request m = some (a, m') → Q m m')
    {callback : Callback ν σ α} (only : callback.OnlyAsks allowed) {m m' : Machine ν σ}
    {outcome : Except String α} (run : callback.run evaluate m = some (outcome, m')) : Q m m' := by
  induction callback generalizing m with
  | done a =>
    cases run
    exact refl _
  | fail message =>
    cases run
    exact refl _
  | ask request next ih =>
    simp only [Callback.run] at run
    rcases asked : answer evaluate request m with _ | ⟨a, m₁⟩ <;> simp only [asked] at run
    · cases run
    · exact trans m m₁ m' (answers request only.1 m a m₁ asked) (ih a (only.2 a) run)

/-- A call keeps what every native keeps. -/
lemma callNative_keeps {host : Host ν σ} (noted : ∀ call m, Q m (m.noteCall call))
    (natives : ∀ native args m outcome m',
      (host native args).run evaluate m = some (outcome, m') → Q m m')
    {name : String} {args : List String} {span : Span} {m m' : Machine ν σ}
    {outcome : Except ScriptError String}
    (run : callNative host evaluate name args span m = some (outcome, m')) : Q m m' := by
  unfold callNative at run
  split at run
  · cases run
    exact refl m
  · split at run
    · cases run
    · next gaveUp =>
      cases run
      exact trans _ _ _ (noted _ _) (natives _ _ _ _ _ gaveUp)
    · next returned =>
      cases run
      exact trans _ _ _ (noted _ _) (natives _ _ _ _ _ returned)

end

/-- An evaluation keeps what is kept by carrying out its script, and at its beginning and end. -/
theorem evaluateWith_keeps {Q : Machine ν σ → Machine ν σ → Prop}
    (trans : ∀ m₀ m₁ m₂, Q m₀ m₁ → Q m₁ m₂ → Q m₀ m₂) (begins : ∀ m, Q m m.beginInput)
    (ends : ∀ m, Q m m.endInput) (notes : ∀ script e m, Q m (m.noteFailure script e))
    {i i' : Interpreter ν σ} {script : String}
    (carried : Run.Refines Q (Script.runText i script) (Script.runText i' script)) {m m' : Machine ν σ}
    {outcome : Except ScriptError String} (run : evaluateWith i script m = some (outcome, m')) :
    Q m m' := by
  unfold evaluateWith at run
  rcases done : Script.runText i script m.beginInput with _ | ⟨flow, m₁⟩ <;> simp only [done] at run
  · cases run
  have kept := trans _ _ _ (trans _ _ _ (begins m) (carried _ flow m₁ done).2) (ends m₁)
  cases flow with
  | ok _ =>
    cases run
    exact kept
  | error e =>
    cases run
    exact trans _ _ _ kept (notes script e _)

end ScriptEngine
