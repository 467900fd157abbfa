import ScriptEngine.Proofs.Evaluation.Framing

/-!
# Declarations and names that are known

A declarator is refused if its name is known, in the innermost block or globally.  The check comes
first, then the initializer is evaluated, and then the name is bound in the innermost table, without
another look.  What was true when the check was made is still true when the name is bound, provided
that the initializer does not assign the name itself: natives that leave the variables alone bind
nothing, steps bind only what is bound already, and of the assignments only one to the same name can
make it known.

So no declaration overwrites a variable or hides a global one, but for declarators whose initializer
assigns their own name (`declares_unknown_unless_self_assigned`).  Those do
(`self_assigned_hides_global`).
-/

namespace ScriptEngine

variable {ν σ : Type}

/-! ## Names in the innermost block and names that are global -/

namespace Scopes

/-- The name is bound in the innermost open block. -/
def InBlock (name : String) (s : Scopes) : Prop :=
  ∃ b ∈ s.blocks.head?, name ∈ b.table

/-- The name is bound in the innermost open block, and hides a global variable there. -/
def Shadows (name : String) (s : Scopes) : Prop :=
  s.InBlock name ∧ name ∈ s.global

variable {name other : String} {assigned : Prop} {s s' s'' : Scopes}

lemma lookup_eq_none : s.lookup name = none ↔ ¬ s.InBlock name ∧ name ∉ s.global := by
  obtain ⟨global, blocks, opened⟩ := s
  cases blocks with
  | nil => simp [lookup, InBlock]
  | cons b rest =>
    have bound : name ∈ b.table ↔ b.table[name]?.isSome := Std.ExtTreeMap.mem_iff_isSome_getElem?
    cases found : b.table[name]? with
    | none => simp [lookup, InBlock, bound, found]
    | some value => simp [lookup, InBlock, bound, found]

lemma inBlock_of_lookup {value : Option String} (found : s.lookup name = some (.block, value)) :
    s.InBlock name := by
  obtain ⟨global, blocks, opened⟩ := s
  cases blocks with
  | nil => simp [lookup] at found
  | cons b rest =>
    refine ⟨b, rfl, Std.ExtTreeMap.mem_iff_isSome_getElem?.2 ?_⟩
    cases bound : b.table[name]? with
    | none => simp [lookup, bound] at found
    | some _ => rfl

lemma mem_global_of_lookup {value : Option String}
    (found : s.lookup name = some (.global, value)) : name ∈ s.global := by
  obtain ⟨global, blocks, opened⟩ := s
  apply Std.ExtTreeMap.mem_iff_isSome_getElem?.2
  cases bound : global[name]? with
  | none =>
    cases blocks with
    | nil => simp [lookup, bound] at found
    | cons b rest => cases inside : b.table[name]? <;> simp [lookup, bound, inside] at found
  | some _ => rfl

lemma inBlock_bindCurrent {value : Option String} :
    (s.bindCurrent other value).InBlock name ↔ other = name ∧ s.blocks ≠ [] ∨ s.InBlock name := by
  obtain ⟨global, blocks, opened⟩ := s
  cases blocks with
  | nil => simp [bindCurrent, Scopes.bindGlobal, InBlock]
  | cons b rest => simp [bindCurrent, InBlock]

lemma mem_global_bindGlobal {value : Option String} :
    name ∈ (s.bindGlobal other value).global ↔ other = name ∨ name ∈ s.global := by
  simp [Scopes.bindGlobal]

lemma mem_global_bindCurrent {value : Option String} :
    name ∈ (s.bindCurrent other value).global ↔ other = name ∧ s.blocks = [] ∨ name ∈ s.global := by
  obtain ⟨global, blocks, opened⟩ := s
  cases blocks with
  | nil => simp [bindCurrent, Scopes.bindGlobal]
  | cons b rest => simp [bindCurrent]

/-- From one state to the next the name is not bound in the innermost block, unless it was; and it is
not bound globally, unless it was or has been assigned, and then it is in no block that hides it. -/
structure KeepsApart (name : String) (assigned : Prop) (s s' : Scopes) : Prop where
  block : s'.InBlock name → s.InBlock name
  global : name ∈ s'.global → name ∈ s.global ∨ assigned ∧ ¬ s'.InBlock name

namespace KeepsApart

lemma refl (s : Scopes) : KeepsApart name assigned s s :=
  ⟨id, .inl⟩

lemma trans (first : KeepsApart name assigned s s') (second : KeepsApart name assigned s' s'') :
    KeepsApart name assigned s s'' where
  block inside := first.block (second.block inside)
  global bound := by
    rcases second.global bound with bound | new
    · exact (first.global bound).imp_right fun ⟨asked, outside⟩ =>
        ⟨asked, fun inside => outside (second.block inside)⟩
    · exact .inr new

/-- No global variable comes to be hidden. -/
lemma shadows (apart : KeepsApart name assigned s s') (hidden : s'.Shadows name) :
    s.Shadows name := by
  refine ⟨apart.block hidden.1, (apart.global hidden.2).resolve_right ?_⟩
  exact fun new => new.2 hidden.1

/-- A name that is not known does not become known unless it is assigned. -/
lemma unknown (apart : KeepsApart name assigned s s') (never : ¬ assigned)
    (unknown : s.lookup name = none) : s'.lookup name = none := by
  obtain ⟨outside, unbound⟩ := lookup_eq_none.1 unknown
  exact lookup_eq_none.2 ⟨fun inside => outside (apart.block inside),
    fun bound => (apart.global bound).elim unbound fun new => never new.1⟩

/-- A name is written where it is found. -/
lemma bind {tier : Tier} {old value : Option String} (found : s.lookup other = some (tier, old)) :
    KeepsApart name assigned s (s.bind tier other value) := by
  cases tier with
  | block =>
    have inside := inBlock_of_lookup found
    have blocks : s.blocks ≠ [] := by
      obtain ⟨b, top, -⟩ := inside
      exact List.ne_nil_of_mem (List.mem_of_mem_head? top)
    refine ⟨fun bound => ?_, fun bound => .inl ?_⟩
    · rcases inBlock_bindCurrent.1 bound with ⟨rfl, -⟩ | bound
      · exact inside
      · exact bound
    · exact (mem_global_bindCurrent.1 bound).resolve_left fun new => blocks new.2
  | global =>
    refine ⟨id, fun bound => .inl ?_⟩
    rcases mem_global_bindGlobal.1 bound with rfl | bound
    · exact mem_global_of_lookup found
    · exact bound

/-- A name that is not known is assigned globally. -/
lemma bindGlobal {value : Option String} (unknown : s.lookup other = none)
    (asked : other = name → assigned) : KeepsApart name assigned s (s.bindGlobal other value) := by
  refine ⟨id, fun bound => ?_⟩
  rcases mem_global_bindGlobal.1 bound with rfl | bound
  · exact .inr ⟨asked rfl, (lookup_eq_none.1 unknown).1⟩
  · exact .inl bound

lemma assign (asked : other = name → assigned) (value : String) :
    KeepsApart name assigned s (s.assign other value) := by
  unfold Scopes.assign assignTier
  cases found : s.lookup other with
  | some at_ => exact bind found
  | none => exact bindGlobal found asked

/-- Blocks without variables are put on the stack. -/
lemma fresh {opened : List Block} (global : s'.global = s.global)
    (blocks : s'.blocks = opened ++ s.blocks) (empty : ∀ b ∈ opened, b.table = ∅) :
    KeepsApart name assigned s s' where
  block := by
    rintro ⟨b, top, bound⟩
    rw [blocks] at top
    cases opened with
    | nil => exact ⟨b, top, bound⟩
    | cons first opened =>
      obtain rfl : first = b := Option.some.inj top
      rw [empty first List.mem_cons_self] at bound
      exact absurd bound Std.ExtTreeMap.not_mem_empty
  global bound := .inl (global ▸ bound)

end KeepsApart
end Scopes

/-- From one machine to the next, `Scopes.KeepsApart` holds of the scopes. -/
abbrev Machine.KeepsApart (name : String) (assigned : Prop) (m m' : Machine ν σ) : Prop :=
  m.scopes.KeepsApart name assigned m'.scopes

/-- A block that has just been opened hides nothing. -/
lemma Machine.not_shadows_openBlock (m : Machine ν σ) (name : String) :
    ¬ m.openBlock.2.scopes.Shadows name := by
  change ¬ (m.setScopes m.scopes.openBlock.2).scopes.Shadows name
  rw [scopes_setScopes]
  rintro ⟨⟨b, ⟨⟩, bound⟩, -⟩
  exact Std.ExtTreeMap.not_mem_empty bound

/-! ## Natives -/

/-- The natives of the host leave the variables as they are.  They may leave blocks open that hold
none. -/
def Host.SparesVariables (host : Host ν σ) : Prop :=
  ∀ fuel native args m outcome m', (host native args).run (evaluate host fuel) m = some (outcome, m') →
    m'.scopes.global = m.scopes.global ∧
      ∃ opened, m'.scopes.blocks = opened ++ m.scopes.blocks ∧ ∀ b ∈ opened, b.table = ∅

lemma Host.SparesScopes.sparesVariables {host : Host ν σ} (spares : host.SparesScopes) :
    host.SparesVariables := by
  intro fuel native args m outcome m' run
  rw [spares fuel native args m outcome m' run]
  exact ⟨rfl, [], rfl, by simp⟩

lemma Host.SparesVariables.invoke {host : Host ν σ} (spares : host.SparesVariables) (fuel : Nat)
    {name : String} (assigned : Prop) (callee : String) (args : List String) (span : Span)
    (m : Machine ν σ) (outcome : Except ScriptError String) (m' : Machine ν σ)
    (run : (Interpreter.ofHost host fuel).invoke callee args span m = some (outcome, m')) :
    m.KeepsApart name assigned m' := by
  apply callNative_keeps (Q := Machine.KeepsApart name assigned) (fun m => .refl m.scopes)
    (fun _ _ _ => .trans) (fun _ m => .refl m.scopes) _ run
  intro native args m outcome m' called
  obtain ⟨global, opened, blocks, empty⟩ := spares fuel native args m outcome m' called
  exact .fresh global blocks empty

/-! ## Expressions -/

mutual

/-- Declarations are no expressions. -/
lemma Expr.declare_not_mem_mentions (name : String) : ∀ e : Expr, .declare name ∉ e.mentions
  | .empty _ | .literal _ _ | .read _ _ | .step _ _ _ => by simp [Expr.mentions]
  | .assign _ value _ => by simp [Expr.mentions, declare_not_mem_mentions name value]
  | .chain first rest _ => by
    simp [Expr.mentions, declare_not_mem_mentions name first, declare_not_mem_chainMentions name rest]
  | .connect left _ right _ => by
    simp [Expr.mentions, declare_not_mem_mentions name left, declare_not_mem_mentions name right]
  | .call _ args _ => by simp [Expr.mentions, declare_not_mem_allMentions name args]
  | .grouping inner _ => declare_not_mem_mentions name inner

lemma Expr.declare_not_mem_chainMentions (name : String) : ∀ rest : List (Operator × Expr),
    .declare name ∉ chainMentions rest
  | [] => by simp [chainMentions]
  | (_, operand) :: rest => by
    simp [chainMentions, declare_not_mem_mentions name operand,
      declare_not_mem_chainMentions name rest]

lemma Expr.declare_not_mem_allMentions (name : String) : ∀ es : List Expr,
    .declare name ∉ allMentions es
  | [] => by simp [allMentions]
  | e :: rest => by
    simp [allMentions, declare_not_mem_mentions name e, declare_not_mem_allMentions name rest]

end

/-- A step binds a name only where it has found it. -/
lemma stepVariable_keepsApart {name : String} {assigned : Prop} (other : String) (op : Operator) (span : Span) :
    Run.Refines (Machine.KeepsApart name assigned) (stepVariable other op span : Run ν σ String)
      (stepVariable other op span) := by
  intro m outcome m' run
  refine ⟨run, ?_⟩
  unfold stepVariable at run
  cases found : m.scopes.lookup other with
  | none =>
    have refused : resolve other span m =
        some (.error ⟨.runtime (.undefinedVariable other), span⟩, m) := by
      simp [resolve, found, Run.fail, Run.throw]
    rw [Run.bind_of_error refused] at run
    cases run
    exact .refl m.scopes
  | some place =>
    have resolved : resolve other span m = some (.ok place, m) := by simp [resolve, found]
    rw [Run.bind_of_ok resolved] at run
    cases stepped : op.apply (place.2.getD "") "" with
    | error fault =>
      simp only [stepped] at run
      cases run
      exact .refl m.scopes
    | ok value =>
      simp only [stepped] at run
      cases run
      unfold Machine.KeepsApart
      rw [Machine.scopes_setScopes]
      exact .bind found

/-- An expression makes a name known only by assigning it. -/
lemma value_keepsApart {i : Interpreter ν σ} {name : String} {assigned : Prop}
    (calls : ∀ callee args span m outcome m', i.invoke callee args span m = some (outcome, m') →
      m.KeepsApart name assigned m')
    (e : Expr) (asked : .assign name ∈ e.mentions → assigned) :
    Run.Refines (Machine.KeepsApart name assigned) (Plain.value i e) (Plain.value i e) := by
  have refl (m : Machine ν σ) : m.KeepsApart name assigned m := .refl m.scopes
  have composes := Run.Refines.composes refl fun _ _ _ => .trans
  suffices covers : RunRelation.CoversAll (Run.Refines (Machine.KeepsApart name assigned)) id i i
      e.mentions by
    have related := Plain.value_related composes e covers
    rw [Expr.mapSpan_id] at related
    exact related
  intro mention mem
  cases mention with
  | read other => exact Run.Refines.resolve refl other
  | assign other =>
    intro v
    apply Run.Refines.modify
    intro m
    unfold Machine.KeepsApart
    rw [Machine.scopes_setScopes]
    refine .assign ?_ v
    rintro rfl
    exact asked mem
  | step other => exact stepVariable_keepsApart other
  | declare other => exact absurd mem (Expr.declare_not_mem_mentions other e)
  | call other =>
    intro args span m outcome m' run
    exact ⟨run, calls other args span m outcome m' run⟩

/-! ## Declarators -/

/-- The initializer assigns the name that is being declared. -/
def Declarator.AssignsItself (d : Declarator) : Prop :=
  .assign d.name ∈ Expr.optionMentions d.initializer

instance (d : Declarator) : Decidable d.AssignsItself :=
  inferInstanceAs (Decidable (_ ∈ _))

/-- What carrying out a declarator can come to: the name is refused; it is not known, but its
initializer fails; or it is not known, and is bound to the value of the initializer. -/
inductive Declares (i : Interpreter ν σ) (d : Declarator) (m : Machine ν σ) :
    Except ScriptError String → Machine ν σ → Prop
  | refused (e : ScriptError) : Declares i d m (.error e) m
  | failed {e : ScriptError} {m' : Machine ν σ} (unknown : m.scopes.lookup d.name = none)
    (initialized : Plain.optionalValue i d.initializer m = some (.error e, m')) :
    Declares i d m (.error e) m'
  | bound {v : String} {m₁ : Machine ν σ} (unknown : m.scopes.lookup d.name = none)
    (initialized : Plain.optionalValue i d.initializer m = some (.ok v, m₁)) :
    Declares i d m (.ok v)
      (m₁.setScopes (m₁.scopes.bindCurrent d.name (d.initializer.map fun _ => v)))

lemma Plain.declares_of_declareOne {i : Interpreter ν σ} {d : Declarator} {m m' : Machine ν σ}
    {outcome : Except ScriptError String} (run : declareOne i d m = some (outcome, m')) :
    Declares i d m outcome m' := by
  cases unknown : m.scopes.lookup d.name with
  | some known =>
    have checked : checkUndeclared d m =
        some (.error ⟨.runtime (.alreadyDeclared d.name), d.span⟩, m) := by
      simp [checkUndeclared, unknown, Run.fail, Run.throw]
    rw [declareOne, Run.bind_of_error checked] at run
    cases run
    exact .refused _
  | none =>
    have checked : checkUndeclared d m = some (.ok (), m) := by simp [checkUndeclared, unknown]
    rw [declareOne, Run.bind_of_ok checked] at run
    obtain ⟨name, initializer, span⟩ := d
    cases initializer with
    | none =>
      cases run
      exact .bound (d := ⟨name, none, span⟩) unknown rfl
    | some e =>
      rcases Run.bind_eq_some run with ⟨e, failed, rfl⟩ | ⟨v, m₁, initialized, run⟩
      · exact .failed unknown failed
      · cases run
        exact .bound (d := ⟨name, some _, span⟩) unknown initialized

/-! ## Statements -/

/-- The name hides a global variable only if it did before. -/
def Machine.HidesNoMore (name : String) (m m' : Machine ν σ) : Prop :=
  m'.scopes.Shadows name → m.scopes.Shadows name

section

variable {i : Interpreter ν σ} {name : String}
  (calls : ∀ assigned callee args span m outcome m',
    i.invoke callee args span m = some (outcome, m') → m.KeepsApart name assigned m')
include calls

lemma optionalValue_keepsApart (e : Option Expr) :
    Run.Refines (Machine.KeepsApart name (.assign name ∈ Expr.optionMentions e))
      (Plain.optionalValue i e) (Plain.optionalValue i e) := by
  cases e with
  | none =>
    rintro m outcome m' ⟨⟩
    exact ⟨rfl, .refl m.scopes⟩
  | some e => exact value_keepsApart (calls _) e id

/-- A declarator binds a name that is not known, unless it assigns itself; so it hides nothing. -/
lemma declareOne_hidesNoMore (d : Declarator) (apart : d.name = name → ¬ d.AssignsItself) :
    Run.Refines (Machine.HidesNoMore name) (Plain.declareOne i d) (Plain.declareOne i d) := by
  intro m outcome m' run
  refine ⟨run, ?_⟩
  have keeps := optionalValue_keepsApart calls d.initializer
  cases Plain.declares_of_declareOne run with
  | refused e => exact id
  | failed unknown failed => exact (keeps m _ _ failed).2.shadows
  | @bound v m₁ unknown initialized =>
    intro hidden
    rw [Machine.scopes_setScopes] at hidden
    obtain ⟨inside, bound⟩ := hidden
    rw [Scopes.inBlock_bindCurrent] at inside
    rw [Scopes.mem_global_bindCurrent] at bound
    have kept := (keeps m _ m₁ initialized).2
    by_cases same : d.name = name
    · subst same
      obtain ⟨outside, unbound⟩ :=
        Scopes.lookup_eq_none.1 (kept.unknown (apart rfl) unknown)
      rcases inside with ⟨-, blocks⟩ | inside
      · exact absurd bound (by simp [blocks, unbound])
      · exact absurd inside outside
    · exact kept.shadows ⟨inside.resolve_left fun new => same new.1,
        bound.resolve_left fun new => same new.1⟩

end

lemma Script.runText_hidesNoMore {host : Host ν σ} (spares : host.SparesVariables) {fuel : Nat}
    {text name : String} (apart : ∀ d ∈ (ofText text).declarators, d.name = name → ¬ d.AssignsItself) :
    Run.Refines (Machine.HidesNoMore name) (runText (.ofHost host fuel) text : Run ν σ Flow)
      (runText (.ofHost host fuel) text) := by
  have refl (m : Machine ν σ) : m.HidesNoMore name m := id
  have trans (m₀ m₁ m₂ : Machine ν σ) (first : m₀.HidesNoMore name m₁)
      (second : m₁.HidesNoMore name m₂) : m₀.HidesNoMore name m₂ := first ∘ second
  have composes : RunRelation.ComposesStatements
      (Run.Refines (Machine.HidesNoMore name) : RunRelation ν σ) id := by
    refine Run.Refines.composesStatements refl trans (fun line m => ?_) fun v m => id
    unfold Machine.HidesNoMore
    rw [Machine.scopes_markLine]
    exact id
  apply runText_related_of_parts composes rfl
  intro part mem
  cases part with
  | expression e =>
    intro m outcome m' run
    rw [Expr.mapSpan_id]
    exact ⟨run, (value_keepsApart (spares.invoke fuel _) e id m outcome m' run).2.shadows⟩
  | declarator d =>
    intro m outcome m' run
    rw [Declarator.mapSpan_id]
    have apart := apart d (List.mem_filterMap.2 ⟨_, mem, rfl⟩)
    exact declareOne_hidesNoMore (spares.invoke fuel) d apart m outcome m' run

/-- If the natives leave the variables as they are, declarations bind names that are not known, unless
their initializer assigns the name that is being declared.

After an evaluation, however it ended, a variable of the innermost block hides a global one only if
it did before, or if the script has a declarator of its name that assigns itself.  And a declarator
that is carried out with success binds its name on the machine that its initializer leaves, where
the name is not known unless the declarator assigns itself. -/
theorem declares_unknown_unless_self_assigned {host : Host ν σ} (spares : host.SparesVariables)
    (fuel : Nat) :
    (∀ script m outcome m', evaluate host fuel script m = some (outcome, m') →
      ∀ name, m'.scopes.Shadows name → m.scopes.Shadows name ∨
        ∃ d ∈ (Script.ofText script).declarators, d.name = name ∧ d.AssignsItself) ∧
    ∀ d m v m', declareOne (.ofHost host fuel) true d m = some (.ok v, m') →
      ∃ m₁, evalOptional (.ofHost host fuel) true d.initializer m = some (.ok v, m₁) ∧
        m' = m₁.setScopes (m₁.scopes.bindCurrent d.name (d.initializer.map fun _ => v)) ∧
        (m₁.scopes.lookup d.name = none ∨ d.AssignsItself) := by
  refine ⟨fun script m outcome m' run name hidden => ?_, fun d m v m' run => ?_⟩
  · by_contra cause
    rw [not_or] at cause
    obtain ⟨before, none_itself⟩ := cause
    have apart : ∀ d ∈ (Script.ofText script).declarators, d.name = name → ¬ d.AssignsItself :=
      fun d mem same itself => none_itself ⟨d, mem, same, itself⟩
    cases fuel with
    | zero => cases run
    | succ fuel =>
      simp only [evaluate, evaluateWith] at run
      rcases carried : Script.runText (.ofHost host fuel) script m.beginInput with
        _ | ⟨e | flow, m₁⟩ <;> simp only [Interpreter.ofHost] at carried <;>
        simp only [carried] at run
      · cases run
      all_goals
        cases run
        apply before
        exact (Script.runText_hidesNoMore spares apart _ _ m₁ carried).2 (by simpa using hidden)
  · rw [declareOne_eq] at run
    rw [evalOptional_eq]
    cases Plain.declares_of_declareOne run with
    | @bound _ m₁ unknown initialized =>
      refine ⟨m₁, initialized, rfl, ?_⟩
      by_cases itself : d.AssignsItself
      · exact .inr itself
      · have kept : m.KeepsApart d.name d.AssignsItself m₁ :=
          (optionalValue_keepsApart (spares.invoke fuel) d.initializer m _ m₁ initialized).2
        exact .inl (kept.unknown itself unknown)

/-- In a block, `x` is declared and stepped, `y` becomes a global variable, and a second declaration of
`y` is refused. -/
theorem declares_unknown_unless_self_assigned_refused :
    ConsoleNative.host.SparesVariables ∧
      ∃ m', evaluate ConsoleNative.host 9 "var x = len('abc')\ny = x++\nvar y"
          ConsoleMachine.start.openBlock.2 =
        some (.error ⟨.runtime (.alreadyDeclared "y"), ⟨31, 32, 3⟩⟩, m') ∧
      ∀ name, ¬ m'.scopes.Shadows name := by
  have spares := ConsoleNative.host_sparesScopes.sparesVariables
  have ended : (evaluate ConsoleNative.host 9 "var x = len('abc')\ny = x++\nvar y"
      ConsoleMachine.start.openBlock.2).map Prod.fst =
        some (.error ⟨.runtime (.alreadyDeclared "y"), ⟨31, 32, 3⟩⟩) := by
    decide +kernel
  have apart : ∀ d ∈ (Script.ofText "var x = len('abc')\ny = x++\nvar y").declarators,
      ¬ d.AssignsItself := by
    decide +kernel
  obtain ⟨⟨_, m'⟩, run, rfl⟩ := Option.map_eq_some_iff.1 ended
  refine ⟨spares, m', run, fun name hidden => ?_⟩
  rcases (declares_unknown_unless_self_assigned spares 9).1 _ _ _ _ run name hidden with
    before | ⟨d, mem, -, itself⟩
  · exact Machine.not_shadows_openBlock _ name before
  · exact apart d mem itself

/-- In a block, the initializer makes `x` a global variable after the check, and then it is declared all
the same: what was assigned is hidden. -/
theorem self_assigned_hides_global :
    (∀ name, ¬ ConsoleMachine.start.openBlock.2.scopes.Shadows name) ∧
      ∃ m', evaluate ConsoleNative.host 9 "var x = x = 5" ConsoleMachine.start.openBlock.2 =
          some (.ok "5", m') ∧
        m'.scopes.Shadows "x" := by
  have ended : (evaluate ConsoleNative.host 9 "var x = x = 5"
      ConsoleMachine.start.openBlock.2).map (fun r => (r.1, r.2.scopes.lookup "x")) =
        some (.ok "5", some (.block, some "5")) := by
    decide +kernel
  have global : ((evaluate ConsoleNative.host 9 "var x = x = 5"
      ConsoleMachine.start.openBlock.2).bind fun r => r.2.scopes.global["x"]?) =
        some (some "5") := by
    decide +kernel
  obtain ⟨⟨_, m'⟩, run, found⟩ := Option.map_eq_some_iff.1 ended
  obtain ⟨rfl, inside⟩ := Prod.mk.inj found
  rw [run, Option.bind_some] at global
  refine ⟨Machine.not_shadows_openBlock _, m', run, Scopes.inBlock_of_lookup inside, ?_⟩
  rw [Std.ExtTreeMap.mem_iff_isSome_getElem?, global]
  rfl

end ScriptEngine
