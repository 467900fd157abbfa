import ScriptEngine.Proofs.Evaluation.BlockHistory
import ScriptEngine.Proofs.Evaluation.BlockScope
import ScriptEngine.Proofs.Evaluation.Declaration

/-!
# The surroundings of a block

A block is opened, all kinds of things are done with the engine, and the block is closed.  If they are
balanced, each leaves open the blocks that were open before, except that further blocks are opened and
closed in the right order (`Balanced`).  Then the block can be closed, and afterwards the tables of all
other blocks are as they were before it was opened (`block_leaves_surroundings`).

Tables below the innermost one are out of reach, so it may look as if there were nothing to prove.  But
the stack is known by its numbers only, and a block below could have been closed and others put in its
place.  They would have other numbers: a number is never given out twice, which is what
`Scopes.Over` keeps track of.

Names that are not bound in the innermost block are looked up in the global table, and that table can
be written from inside.  So a lookup can differ afterwards after all, but only for these names, and
only if their global binding has changed.
-/

namespace ScriptEngine

variable {ν σ α : Type}

/-! ## Lookups and assignments -/

namespace Scopes

variable {name other : String} {s s' : Scopes}

lemma lookup_of_not_inBlock (outside : ¬ s.InBlock name) :
    s.lookup name = s.global[name]?.map (Tier.global, ·) := by
  obtain ⟨global, blocks, opened⟩ := s
  cases blocks with
  | nil => rfl
  | cons b rest =>
    have unbound : name ∉ b.table := fun bound => outside ⟨b, rfl, bound⟩
    simp only [lookup, Std.ExtTreeMap.getElem?_eq_none unbound]

lemma lookup_of_inBlock (inside : s.InBlock name) (blocks : s'.blocks = s.blocks) :
    s'.lookup name = s.lookup name := by
  obtain ⟨b, top, bound⟩ := inside
  obtain ⟨rest, stack⟩ := List.head?_eq_some_iff.1 top
  obtain ⟨value, found⟩ := Option.isSome_iff_exists.1 (Std.ExtTreeMap.isSome_getElem?_iff_mem.2 bound)
  simp only [lookup, blocks, stack, found]

/-- With the same blocks a lookup finds the same, unless it is left to a global table that has changed
there. -/
lemma lookup_eq_or_global_ne (blocks : s'.blocks = s.blocks) (name : String) :
    s'.lookup name = s.lookup name ∨
      ¬ s.InBlock name ∧ s'.global[name]? ≠ s.global[name]? := by
  by_cases inside : s.InBlock name
  · exact .inl (lookup_of_inBlock inside blocks)
  · have outside : ¬ s'.InBlock name := by rwa [InBlock, blocks]
    rw [lookup_of_not_inBlock inside, lookup_of_not_inBlock outside]
    by_cases same : s'.global[name]? = s.global[name]?
    · exact .inl (by rw [same])
    · exact .inr ⟨inside, same⟩

lemma lookup_bind_of_ne (different : other ≠ name) (tier : Tier) (value : Option String) :
    (s.bind tier name value).lookup other = s.lookup other := by
  have different : name ≠ other := different.symm
  obtain ⟨global, blocks, opened⟩ := s
  cases blocks <;> cases tier <;>
    simp [bind, bindCurrent, bindGlobal, lookup, Std.ExtTreeMap.getElem?_insert, different]

/-- A name that is assigned is found afterwards where it was found before, or in the global table. -/
lemma lookup_assign (name value : String) (s : Scopes) :
    (s.assign name value).lookup name =
      some (((s.lookup name).map Prod.fst).getD .global, some value) := by
  obtain ⟨global, blocks, opened⟩ := s
  cases blocks with
  | nil =>
    cases bound : global[name]? <;> simp [assign, assignTier, lookup, bind, bindGlobal, bound]
  | cons b rest =>
    cases inside : b.table[name]? <;> cases bound : global[name]? <;>
      simp [assign, assignTier, lookup, bind, bindCurrent, bindGlobal, inside, bound]

end Scopes

/-! ## Balanced operations -/

namespace Machine

/-- The numbers of the open blocks, the innermost first. -/
def blockNumbers (m : Machine ν σ) : List Nat :=
  m.engine.blocks.map Block.id

/-- What can be done with an engine between two machines.  Scripts are evaluated and natives are called
with the natives of `host`. -/
inductive Operation (host : Host ν σ) (m m' : Machine ν σ) : Prop
  /-- Whatever a native can ask for: to evaluate a script, to set a variable, and so on. -/
  | request {fuel : Nat} {r : Request ν σ} {a : r.Answer}
    (answered : answer (evaluate host fuel) r m = some (a, m'))
  /-- A statement is carried out outside of any evaluation. -/
  | statement {fuel : Nat} {exec : Bool} {s : Stmt} {outcome : Except ScriptError Flow}
    (run : s.run (.ofHost host fuel) exec m = some (outcome, m'))
  | expression {fuel : Nat} {exec : Bool} {e : Expr} {outcome : Except ScriptError String}
    (run : e.eval (.ofHost host fuel) exec m = some (outcome, m'))
  | assign {name value : String} (assigned : m' = m.setScopes (m.scopes.assign name value))
  /-- Anything that leaves the blocks alone, such as what other engines do to a shared global table. -/
  | elsewhere (blocks : m'.engine.blocks = m.engine.blocks)
    (opened : m'.engine.opened = m.engine.opened)

/-- A balanced sequence of operations.  Each leaves the same blocks open as before it, but a block can be
opened and closed again behind a balanced sequence. -/
inductive Balanced (host : Host ν σ) : Machine ν σ → Machine ν σ → Prop
  | done (m : Machine ν σ) : Balanced host m m
  | step {m m₁ m' : Machine ν σ} (operation : Operation host m m₁)
    (same : m₁.blockNumbers = m.blockNumbers) (rest : Balanced host m₁ m') : Balanced host m m'
  | block {m m₁ m' : Machine ν σ} (inside : Balanced host m.openBlock.2 m₁)
    (rest : Balanced host (m₁.closeBlock m.openBlock.1).2 m') : Balanced host m m'

variable {host : Host ν σ} {m m' : Machine ν σ} {number : Nat} {below : List Block}

lemma Operation.evaluation {fuel : Nat} {script : String} {outcome : Except ScriptError String}
    (run : evaluate host fuel script m = some (outcome, m')) : Operation host m m' :=
  .request (r := .evaluate script) run

lemma Operation.keepsOver (operation : Operation host m m') : KeepsOver number below m m' := by
  have nested (fuel : Nat) := @evaluate_keepsOver _ _ number below host fuel
  cases operation with
  | request answered => exact answer_keepsOver (nested _) answered
  | @statement fuel exec s outcome run =>
    cases exec with
    | false =>
      rw [run_dry] at run
      cases run
      exact .refl m
    | true =>
      rw [run_eq_perform] at run
      exact (Plain.perform_related_of_parts composesStatements_keepsOver rfl s
        (Plain.relatesParts_of_covers composesStatements_keepsOver.toComposes
          (covers_keepsOver (nested fuel) host fuel _)) m outcome m' run).2
  | @expression fuel exec e outcome run =>
    cases exec with
    | false =>
      rw [eval_dry] at run
      cases run
      exact .refl m
    | true =>
      rw [eval_eq_value] at run
      exact (Plain.value_related composesStatements_keepsOver.toComposes e
        (covers_keepsOver (nested fuel) host fuel _) m outcome m' run).2
  | assign assigned =>
    rw [assigned]
    exact .bind m _ _ _
  | elsewhere blocks opened => exact .of_same blocks opened

/-- The innermost block can be closed. -/
lemma closeBlock_innermost {rest : List Nat} (given : number ≠ 0)
    (numbers : m.blockNumbers = number :: rest) :
    m.closeBlock number = (.ok (), m.setScopes { m.scopes with blocks := m.engine.blocks.tail }) := by
  obtain ⟨-, -, closed⟩ | ⟨zero | other, -⟩ := closeBlock_cases number m
  · exact closed
  · exact absurd zero given
  · exact absurd (congrArg List.head? numbers) other

lemma blockNumbers_closeBlock {rest : List Nat} (given : number ≠ 0)
    (numbers : m.blockNumbers = number :: rest) : (m.closeBlock number).2.blockNumbers = rest := by
  rw [closeBlock_innermost given numbers]
  have tail := congrArg List.tail numbers
  rwa [blockNumbers, ← List.map_tail] at tail

namespace Balanced

lemma keepsOver (balanced : Balanced host m m') : KeepsOver number below m m' := by
  induction balanced with
  | done m => exact .refl m
  | step operation _ _ ih => exact .trans _ _ _ operation.keepsOver ih
  | @block m m₁ m' _ _ inside rest =>
    exact .trans _ _ _ (.trans _ _ _ (.openBlock m) (.trans _ _ _ inside (.closeBlock _ m₁))) rest

lemma blockNumbers_eq (balanced : Balanced host m m') : m'.blockNumbers = m.blockNumbers := by
  induction balanced with
  | done m => rfl
  | step _ same _ ih => exact ih.trans same
  | @block m m₁ m' _ _ inside rest =>
    have closed : (m₁.closeBlock m.openBlock.1).2.blockNumbers = m.blockNumbers :=
      blockNumbers_closeBlock (Nat.succ_ne_zero _) inside
    exact rest.trans closed

end Balanced
end Machine

/-- With the same numbers as just after it was opened, the stack is the block on the blocks that it was
opened on. -/
lemma Scopes.Over.blocks_eq {number : Nat} {below : List Block} {s : Scopes}
    (stays : s.Over number below)
    (numbers : s.blocks.map Block.id = number :: below.map Block.id) :
    ∃ table, s.blocks = ⟨number, table⟩ :: below := by
  obtain ⟨-, -, above, rest, stack, later, remains⟩ := stays
  rw [stack, List.map_append] at numbers
  cases above with
  | cons top above =>
    have innermost : top.id = number := (List.cons.inj numbers).1
    exact absurd (later top List.mem_cons_self) (by omega)
  | nil =>
    cases remains with
    | whole table => exact ⟨table, stack⟩
    | part kept =>
      have shorter := kept.length_le
      rw [List.map_nil, List.nil_append] at numbers
      rw [numbers] at shorter
      exact absurd shorter (Nat.not_succ_le_self _)

/-! ## Natives that keep balance -/

/-- Every native leaves those blocks open that were open when it was called. -/
def Host.KeepsBalance (host : Host ν σ) : Prop :=
  ∀ fuel native args m outcome m', (host native args).run (evaluate host fuel) m = some (outcome, m') →
    m'.blockNumbers = m.blockNumbers

lemma Host.SparesScopes.keepsBalance {host : Host ν σ} (spares : host.SparesScopes) :
    host.KeepsBalance := by
  intro fuel native args m outcome m' run
  have same : m'.scopes = m.scopes := spares fuel native args m outcome m' run
  exact congrArg (fun s : Scopes => s.blocks.map Block.id) same

/-- Scripts open and close no blocks of their own. -/
lemma Host.KeepsBalance.evaluate_blockNumbers {host : Host ν σ} (balance : host.KeepsBalance)
    {fuel : Nat} {script : String} {m m' : Machine ν σ} {outcome : Except ScriptError String}
    (run : evaluate host fuel script m = some (outcome, m')) : m'.blockNumbers = m.blockNumbers := by
  cases fuel with
  | zero => cases run
  | succ fuel =>
    let Q (m m' : Machine ν σ) : Prop := m'.blockNumbers = m.blockNumbers
    have refl (m : Machine ν σ) : Q m m := rfl
    have trans (m₀ m₁ m₂ : Machine ν σ) (first : Q m₀ m₁) (second : Q m₁ m₂) : Q m₀ m₂ :=
      second.trans first
    have composes : RunRelation.ComposesStatements (Run.Refines Q : RunRelation ν σ) id := by
      refine Run.Refines.composesStatements refl trans (fun line m => ?_) fun _ _ => rfl
      unfold Machine.markLine
      split <;> rfl
    have covers (mention : Mention) : RunRelation.Covers (Run.Refines Q) id
        (Interpreter.ofHost host fuel) (.ofHost host fuel) mention := by
      refine Run.Refines.covers_of_bind refl trans (fun m tier name value => ?_) mention ?_
      · exact Scopes.bind_ids tier name value m.scopes
      · rintro name - args span m outcome m' called
        exact ⟨called, callNative_keeps refl trans (fun _ _ => rfl) (balance fuel) called⟩
    refine evaluateWith_keeps trans (fun _ => rfl) (fun m => ?_) (fun _ _ _ => rfl)
      (Script.runText_related composes rfl script fun mention _ => covers mention) run
    unfold Machine.endInput
    split <;> rfl

/-! ## Open, balanced operations, close -/

/-- The block that is opened on a machine counts as opened on the blocks that are open there. -/
lemma Machine.over_openBlock {m : Machine ν σ} (numbered : m.scopes.Numbered) :
    m.openBlock.2.scopes.Over m.openBlock.1 m.engine.blocks := by
  change (m.setScopes m.scopes.openBlock.2).scopes.Over _ _
  rw [scopes_setScopes]
  exact .opened numbered

/-- A block leaves its surroundings intact.  The numbers of the open blocks have been given out, as on an
engine without blocks, and every operation keeps it so.  When a block is opened and the operations behind
it are balanced, it can be closed.  Then the tables of the other blocks are what they were before it was
opened, and the global one is what the operations have made of it; so a lookup differs only if the name
was not bound in the innermost block and its global binding has changed.

Inside and elsewhere, an assignment writes the name where it is found, or globally if it is not, and
changes no other lookup.  Evaluations are balanced if the natives are. -/
theorem block_leaves_surroundings (host : Host ν σ) :
    (∀ m m₁ : Machine ν σ, m.scopes.Numbered → Machine.Balanced host m.openBlock.2 m₁ →
      ∃ m', m₁.closeBlock m.openBlock.1 = (.ok (), m') ∧ m'.engine.blocks = m.engine.blocks ∧
        m'.scopes.global = m₁.scopes.global ∧
        ∀ name, m'.scopes.lookup name = m.scopes.lookup name ∨
          ¬ m.scopes.InBlock name ∧ m'.scopes.global[name]? ≠ m.scopes.global[name]?) ∧
    (∀ (s : Scopes) (name value : String),
      (s.assign name value).lookup name =
        some (((s.lookup name).map Prod.fst).getD .global, some value) ∧
      ∀ other, other ≠ name → (s.assign name value).lookup other = s.lookup other) ∧
    (host.KeepsBalance → ∀ fuel script m outcome m',
      evaluate host fuel script m = some (outcome, m') → m'.blockNumbers = m.blockNumbers) ∧
    ∀ m m', Machine.Operation host m m' → m.scopes.Numbered → m'.scopes.Numbered := by
  refine ⟨fun m m₁ numbered balanced => ?closed, fun s name value => ⟨s.lookup_assign name value, ?_⟩,
    fun balance fuel script m outcome m' run => balance.evaluate_blockNumbers run,
    fun m m' operation numbered => (operation.keepsOver (.start numbered)).numbered⟩
  case closed =>
    -- The numbers are the same as at the beginning, and with the history of the stack so are the tables.
    have stays := balanced.keepsOver (Machine.over_openBlock numbered)
    have numbers := balanced.blockNumbers_eq
    obtain ⟨table, stack⟩ := stays.blocks_eq numbers
    have closed := Machine.closeBlock_innermost (Nat.succ_ne_zero m.engine.opened) numbers
    have tail : m₁.engine.blocks.tail = m.engine.blocks := congrArg List.tail stack
    rw [tail] at closed
    refine ⟨_, closed, rfl, by rw [Machine.scopes_setScopes], ?_⟩
    apply Scopes.lookup_eq_or_global_ne
    rw [Machine.scopes_setScopes]
    rfl
  · exact fun other different => Scopes.lookup_bind_of_ne different _ _

/-- In a block on top of one with a variable `x`, the assignment `x = 5` makes a global variable, as the
table in between is out of reach.  When the upper block is closed, the `x` of the lower one is found
again.  The natives of the console open no blocks. -/
theorem block_leaves_surroundings_between :
    (∃ outer m₁ m' : Machine SessionNative Notebook,
      evaluate SessionNative.host 9 "var x = 1" Session.lone.openBlock.2 = some (.ok "1", outer) ∧
      outer.scopes.Numbered ∧ Machine.Balanced SessionNative.host outer.openBlock.2 m₁ ∧
      m₁.scopes.global["x"]? = some (some "5") ∧
      m₁.closeBlock outer.openBlock.1 = (.ok (), m') ∧
      m'.scopes.lookup "x" = some (.block, some "1")) ∧
    ConsoleNative.host.KeepsBalance ∧
    ∃ m', evaluate ConsoleNative.host 9 "print(1)" ConsoleMachine.start.openBlock.2 =
        some (.ok "", m') ∧
      m'.blockNumbers = [1] := by
  have ended : ((evaluate SessionNative.host 9 "var x = 1" Session.lone.openBlock.2).map fun r =>
      (r.1, r.2.scopes.lookup "x")) = some (.ok "1", some (.block, some "1")) := by
    decide +kernel
  have inside : ((evaluate SessionNative.host 9 "var x = 1" Session.lone.openBlock.2).bind fun r =>
      (evaluate SessionNative.host 9 "x = 5\nclose(open())" r.2.openBlock.2).map fun r' =>
        (r'.1, r'.2.blockNumbers == r.2.openBlock.2.blockNumbers, r'.2.scopes.global["x"]?)) =
      some (.ok "3", true, some (some "5")) := by
    decide +kernel
  obtain ⟨⟨_, outer⟩, run, shown⟩ := Option.map_eq_some_iff.1 ended
  obtain ⟨rfl, bound⟩ := Prod.mk.inj shown
  rw [run, Option.bind_some] at inside
  obtain ⟨⟨_, m₁⟩, run', shown⟩ := Option.map_eq_some_iff.1 inside
  simp only [Prod.mk.injEq, beq_iff_eq] at shown
  obtain ⟨rfl, numbers, global⟩ := shown
  obtain ⟨surroundings, -, -, kept⟩ := block_leaves_surroundings SessionNative.host
  have lone : Session.lone.scopes.Numbered := fun b mem => absurd mem List.not_mem_nil
  have numbered : outer.scopes.Numbered :=
    kept _ _ (.evaluation run) (Machine.over_openBlock lone).numbered
  have balanced : Machine.Balanced SessionNative.host outer.openBlock.2 m₁ :=
    .step (.evaluation run') numbers (.done m₁)
  obtain ⟨m', closed, -, -, found⟩ := surroundings outer m₁ numbered balanced
  have same := (found "x").resolve_right fun new => new.1 (Scopes.inBlock_of_lookup bound)
  refine ⟨⟨outer, m₁, m', run, numbered, balanced, global, closed, same.trans bound⟩, ?_⟩
  have balance := ConsoleNative.host_sparesScopes.keepsBalance
  have printed : (evaluate ConsoleNative.host 9 "print(1)" ConsoleMachine.start.openBlock.2).map
      Prod.fst = some (.ok "") := by
    decide +kernel
  obtain ⟨⟨_, m'⟩, run, rfl⟩ := Option.map_eq_some_iff.1 printed
  obtain ⟨-, -, balanced, -⟩ := block_leaves_surroundings ConsoleNative.host
  exact ⟨balance, m', run, balanced balance 9 _ _ _ _ run⟩

end ScriptEngine
