import Mathlib.Logic.Function.Basic
import ScriptEngine.Proofs.Evaluation.Stores

/-!
# Who owns a table

An engine has its blocks, and a block has its table.  The tables may as well be entries of one store,
those of blocks like the global ones, with references to them in the scopes.  Then it is no longer for
nothing that binding a variable in one block is not seen in another: each table of a block has to
belong to that block alone, while a global table may be shared by any number of engines.

Here the scopes of all engines are kept in that way (`ScopeStacks`).  Opening and closing blocks and
binding variables on one of the stacks keeps the tables of blocks owned (`ScopeStacks.Owned.act`),
does to that stack what it does to `Scopes` (`ScopeStack.Owns.scopes_act`), and does nothing to the
others, but for a global table that they share (`ScopeStacks.Owned.spares_act`).
-/

namespace ScriptEngine

/-! ## What is done with scopes -/

inductive ScopeAction
  | openBlock
  | closeBlock (id : Nat)
  | bind (tier : Tier) (name : String) (value : Option String)
deriving DecidableEq, Repr

namespace ScopeAction

/-- Asking for another block than the innermost one to be closed has no effect. -/
def run : ScopeAction → Scopes → Scopes
  | openBlock, s => s.openBlock.2
  | closeBlock id, s =>
    match s.closeBlock id with
    | .ok s => s
    | .error _ => s
  | bind tier name value, s => s.bind tier name value

lemma run_closeBlock {id : Nat} {s s' : Scopes} (closed : s.closeBlock id = .ok s') :
    run (.closeBlock id) s = s' := by
  simp only [run, closed]

/-- Does one thing after the other. -/
def runAll (actions : List ScopeAction) (s : Scopes) : Scopes :=
  actions.foldl (fun s action => action.run s) s

end ScopeAction

/-! ## Scopes by reference -/

/-- Scopes with references to their tables. -/
structure ScopeStack where
  global : Ref VariableTable
  /-- The numbers and the tables of the open blocks, the innermost first. -/
  blocks : List (Nat × Ref VariableTable) := []
  opened : Nat := 0

namespace ScopeStack

/-- The tables of the open blocks. -/
def locals (k : ScopeStack) : List (Ref VariableTable) :=
  k.blocks.map Prod.snd

/-- The scopes with the tables themselves. -/
def scopes (k : ScopeStack) (tables : Store VariableTable) : Scopes where
  global := tables.get k.global
  blocks := k.blocks.map fun b => ⟨b.1, tables.get b.2⟩
  opened := k.opened

/-- The number of the innermost open block, or 0 if none is open. -/
def innermost (k : ScopeStack) : Nat :=
  match k.blocks with
  | [] => 0
  | b :: _ => b.1

/-- The table that variables of a tier are bound in. -/
def target (tier : Tier) (k : ScopeStack) : Ref VariableTable :=
  match tier, k.blocks with
  | .block, b :: _ => b.2
  | _, _ => k.global

/-- A block gets a new table.  One that is closed leaves its table behind. -/
def act (tables : Store VariableTable) : ScopeAction → ScopeStack → ScopeStack × Store VariableTable
  | .openBlock, k =>
    let (r, tables) := tables.add ∅
    ({ k with blocks := (k.opened + 1, r) :: k.blocks, opened := k.opened + 1 }, tables)
  | .closeBlock id, k =>
    (if id ≠ 0 ∧ id = k.innermost then { k with blocks := k.blocks.tail } else k, tables)
  | .bind tier name value, k =>
    (k, tables.set (k.target tier) ((tables.get (k.target tier)).insert name value))

/-- Every block has a table of its own, which is neither the global one nor one that is `held` by
another stack. -/
structure Owns (held : Ref VariableTable → Prop) (tables : Store VariableTable) (k : ScopeStack) :
    Prop where
  distinct : k.locals.Nodup
  notGlobal : k.global ∉ k.locals
  unheld : ∀ r ∈ k.locals, ¬ held r
  /-- There are no references to entries to come. -/
  known : ∀ r ∈ k.global :: k.locals, r.index < tables.next

variable {held : Ref VariableTable → Prop} {tables : Store VariableTable} {k : ScopeStack}

lemma global_act (action : ScopeAction) : (k.act tables action).1.global = k.global := by
  cases action with
  | closeBlock id =>
    unfold act
    dsimp only
    split <;> rfl
  | _ => rfl

/-- The only table to come in is new. -/
lemma locals_act {action : ScopeAction} {r : Ref VariableTable}
    (mem : r ∈ (k.act tables action).1.locals) : r ∈ k.locals ∨ r = ⟨tables.next⟩ := by
  cases action with
  | openBlock => exact (List.mem_cons.1 mem).symm
  | closeBlock id =>
    unfold act at mem
    dsimp only at mem
    split at mem
    · exact .inl (List.mem_of_mem_tail (List.map_tail .. ▸ mem))
    · exact .inl mem
  | bind tier name value => exact .inl mem

lemma next_act (action : ScopeAction) : tables.next ≤ (k.act tables action).2.next := by
  cases action with
  | openBlock => exact Nat.le_succ _
  | _ => exact Nat.le_refl _

lemma target_mem (tier : Tier) (k : ScopeStack) : k.target tier ∈ k.global :: k.locals := by
  unfold target locals
  split
  · next blocks => simp [blocks]
  · exact List.mem_cons_self

/-- Nothing is written but tables of the stack and new ones. -/
lemma get_act {action : ScopeAction} {r : Ref VariableTable} (known : r.index < tables.next)
    (elsewhere : r ∉ k.global :: k.locals) : (k.act tables action).2.get r = tables.get r := by
  cases action with
  | openBlock => exact Store.get_add_of_ne (fun new => Nat.ne_of_lt known (congrArg Ref.index new)) ∅
  | closeBlock id => rfl
  | bind tier name value =>
    refine Store.get_set_of_ne ?_ _ _
    rintro rfl
    exact elsewhere (k.target_mem tier)

/-- The scopes depend on the tables that the stack refers to. -/
lemma scopes_congr {tables' : Store VariableTable}
    (same : ∀ r ∈ k.global :: k.locals, tables'.get r = tables.get r) :
    k.scopes tables' = k.scopes tables := by
  obtain ⟨global, locals⟩ := List.forall_mem_cons.1 same
  unfold scopes
  rw [global]
  congr 1
  refine List.map_congr_left fun b mem => ?_
  rw [locals b.2 (List.mem_map_of_mem mem)]

lemma innermost_scopes (k : ScopeStack) (tables : Store VariableTable) :
    (k.scopes tables).innermost = k.innermost := by
  unfold Scopes.innermost innermost scopes
  cases k.blocks <;> rfl

namespace Owns

/-- The next table to be added is none that the stack refers to. -/
lemma ne_new (owns : k.Owns held tables) {r : Ref VariableTable} (mem : r ∈ k.global :: k.locals) :
    r ≠ ⟨tables.next⟩ :=
  fun new => Nat.ne_of_lt (owns.known r mem) (congrArg Ref.index new)

/-- Fewer tables may be held by other stacks. -/
lemma mono {held' : Ref VariableTable → Prop} (fewer : ∀ r, held' r → held r)
    (owns : k.Owns held tables) : k.Owns held' tables :=
  { owns with unheld := fun r mem there => owns.unheld r mem (fewer r there) }

/-- Writing the global table leaves those of blocks alone. -/
lemma scopes_set_global (owns : k.Owns held tables) (table : VariableTable) :
    k.scopes (tables.set k.global table) = { k.scopes tables with global := table } := by
  have blocks : ∀ b ∈ k.blocks, (tables.set k.global table).get b.2 = tables.get b.2 := by
    intro b mem
    refine Store.get_set_of_ne ?_ table tables
    intro same
    exact owns.notGlobal (same ▸ List.mem_map_of_mem mem)
  simp only [scopes, Store.get_set]
  congr 1
  exact List.map_congr_left fun b mem => by rw [blocks b mem]

/-- Writing the innermost table leaves the others alone. -/
lemma scopes_set_block (owns : k.Owns held tables) (name : String) (value : Option String) :
    k.scopes (tables.set (k.target .block) ((tables.get (k.target .block)).insert name value)) =
      (k.scopes tables).bindCurrent name value := by
  obtain ⟨global, blocks, opened⟩ := k
  cases blocks with
  | nil => exact owns.scopes_set_global _
  | cons b rest =>
    obtain ⟨first, -⟩ := List.nodup_cons.1 owns.distinct
    have apart : b.2 ≠ global := fun same => owns.notGlobal (same ▸ List.mem_cons_self)
    have others : ∀ b' ∈ rest, b.2 ≠ b'.2 := fun b' mem same =>
      first (same ▸ List.mem_map_of_mem mem)
    simp only [target, scopes, List.map_cons, Scopes.bindCurrent, Store.get_set,
      Store.get_set_of_ne apart]
    congr 2
    exact List.map_congr_left fun b' mem => by rw [Store.get_set_of_ne (others b' mem)]

/-- What is done to a stack is done to the scopes that it stands for. -/
lemma scopes_act (owns : k.Owns held tables) (action : ScopeAction) :
    (k.act tables action).1.scopes (k.act tables action).2 = action.run (k.scopes tables) := by
  cases action with
  | openBlock =>
    have same : k.scopes (tables.add ∅).2 = k.scopes tables :=
      scopes_congr fun _ mem => Store.get_add_of_ne (owns.ne_new mem) ∅
    have global := congrArg Scopes.global same
    have blocks := congrArg Scopes.blocks same
    simp only [scopes] at global blocks
    simp only [act, scopes, ScopeAction.run, Scopes.openBlock, List.map_cons, Store.get_add]
    rw [global, blocks]
  | closeBlock id =>
    simp only [act, ScopeAction.run, Scopes.closeBlock, innermost_scopes]
    by_cases outermost : id = 0
    · rw [if_pos outermost, if_neg fun closes => closes.1 outermost]
    · rw [if_neg outermost]
      by_cases top : id = k.innermost
      · rw [if_pos top, if_pos ⟨outermost, top⟩]
        simp only [scopes, List.map_tail]
      · rw [if_neg top, if_neg fun closes => top closes.2]
  | bind tier name value =>
    cases tier with
    | global => exact owns.scopes_set_global _
    | block => exact owns.scopes_set_block name value

/-- The tables of blocks stay owned. -/
lemma act (owns : k.Owns held tables) (heldKnown : ∀ r, held r → r.index < tables.next)
    (action : ScopeAction) : (k.act tables action).1.Owns held (k.act tables action).2 := by
  obtain ⟨newGlobal, newLocal⟩ := List.forall_mem_cons.1 fun _ => owns.ne_new
  obtain ⟨knownGlobal, knownLocal⟩ := List.forall_mem_cons.1 owns.known
  cases action with
  | openBlock =>
    constructor
    · exact List.nodup_cons.2 ⟨fun mem => newLocal _ mem rfl, owns.distinct⟩
    · exact List.not_mem_cons_of_ne_of_not_mem newGlobal owns.notGlobal
    · refine List.forall_mem_cons.2 ⟨fun there => ?_, owns.unheld⟩
      exact Nat.lt_irrefl _ (heldKnown _ there)
    · refine List.forall_mem_cons.2 ⟨Nat.lt_succ_of_lt knownGlobal, ?_⟩
      exact List.forall_mem_cons.2 ⟨Nat.lt_succ_self _, fun r mem =>
        Nat.lt_succ_of_lt (knownLocal r mem)⟩
  | closeBlock id =>
    unfold ScopeStack.act
    dsimp only
    split
    · have fewer : (List.map Prod.snd k.blocks.tail).Sublist k.locals :=
        List.map_tail ▸ List.tail_sublist _
      constructor
      · exact owns.distinct.sublist fewer
      · exact fun mem => owns.notGlobal (fewer.subset mem)
      · exact fun r mem => owns.unheld r (fewer.subset mem)
      · exact List.forall_mem_cons.2 ⟨knownGlobal, fun r mem => knownLocal r (fewer.subset mem)⟩
    · exact owns
  | bind tier name value => exact ⟨owns.distinct, owns.notGlobal, owns.unheld, owns.known⟩

end Owns
end ScopeStack

/-! ## The scopes of several engines -/

/-- The scopes of engines by handle, with all tables in one store. -/
structure ScopeStacks where
  tables : Store VariableTable
  stack : Nat → Option ScopeStack

namespace ScopeStacks

/-- Does something with the scopes of the engine of a handle. -/
def act (handle : Nat) (s : ScopeStacks) (action : ScopeAction) : ScopeStacks :=
  match s.stack handle with
  | none => s
  | some k =>
    let (k, tables) := k.act s.tables action
    { tables, stack := Function.update s.stack handle (some k) }

/-- Does one thing after the other with them. -/
def actAll (handle : Nat) (actions : List ScopeAction) (s : ScopeStacks) : ScopeStacks :=
  actions.foldl (act handle) s

/-- The table is in the scopes of another engine than that of the handle. -/
def HeldBesides (handle : Nat) (s : ScopeStacks) (r : Ref VariableTable) : Prop :=
  ∃ other k, other ≠ handle ∧ s.stack other = some k ∧ r ∈ k.global :: k.locals

/-- Every block has a table of its own: one that no other block has, on the same engine or on another
one, and that is no engine's global table.  Global tables may be shared. -/
def Owned (s : ScopeStacks) : Prop :=
  ∀ handle k, s.stack handle = some k → k.Owns (s.HeldBesides handle) s.tables

/-- The scopes of the other engines are the same, and so are their tables, but for a global table that
is also that of the engine of the handle. -/
structure Spares (handle : Nat) (s s' : ScopeStacks) : Prop where
  stack : ∀ other, other ≠ handle → s'.stack other = s.stack other
  tables : ∀ r, s.HeldBesides handle r → (∀ k, s.stack handle = some k → r ≠ k.global) →
    s'.tables.get r = s.tables.get r
  /-- The engine of the handle itself keeps its global table. -/
  global : ∀ k', s'.stack handle = some k' → ∃ k, s.stack handle = some k ∧ k'.global = k.global

variable {handle : Nat} {s s' s'' : ScopeStacks} {k : ScopeStack}

lemma act_of_some (found : s.stack handle = some k) (action : ScopeAction) :
    s.act handle action = ⟨(k.act s.tables action).2,
      Function.update s.stack handle (some (k.act s.tables action).1)⟩ := by
  unfold act
  rw [found]

lemma act_of_none (missing : s.stack handle = none) (action : ScopeAction) :
    s.act handle action = s := by
  unfold act
  rw [missing]

/-- Whatever is done, an engine comes to hold no table but new ones. -/
lemma heldBesides_act {action : ScopeAction} {other : Nat} {r : Ref VariableTable}
    (distinct : handle ≠ other) (there : (s.act handle action).HeldBesides other r) :
    s.HeldBesides other r ∨ r = ⟨s.tables.next⟩ := by
  cases found : s.stack handle with
  | none => exact .inl (act_of_none found action ▸ there)
  | some k =>
    obtain ⟨third, k', apart, found', mem⟩ := there
    rw [act_of_some found] at found'
    by_cases same : third = handle
    · subst same
      cases (Function.update_self third _ s.stack).symm.trans found'
      rw [List.mem_cons, ScopeStack.global_act] at mem
      have old (mem : r ∈ k.global :: k.locals) : s.HeldBesides other r :=
        ⟨third, k, distinct, found, mem⟩
      rcases mem with rfl | mem
      · exact .inl (old List.mem_cons_self)
      · exact (ScopeStack.locals_act mem).imp_left fun mem => old (List.mem_cons_of_mem _ mem)
    · have before := (Function.update_of_ne same _ s.stack).symm.trans found'
      exact .inl ⟨third, k', apart, before, mem⟩

lemma Spares.refl (handle : Nat) (s : ScopeStacks) : Spares handle s s :=
  ⟨fun _ _ => rfl, fun _ _ _ => rfl, fun k found => ⟨k, found, rfl⟩⟩

/-- What others hold, they still hold. -/
lemma Spares.heldBesides_iff (spares : Spares handle s s') (r : Ref VariableTable) :
    s'.HeldBesides handle r ↔ s.HeldBesides handle r := by
  constructor
  · rintro ⟨other, k, distinct, found, mem⟩
    exact ⟨other, k, distinct, (spares.stack other distinct).symm.trans found, mem⟩
  · rintro ⟨other, k, distinct, found, mem⟩
    exact ⟨other, k, distinct, (spares.stack other distinct).trans found, mem⟩

lemma Spares.trans (first : Spares handle s s') (second : Spares handle s' s'') :
    Spares handle s s'' where
  stack other distinct := (second.stack other distinct).trans (first.stack other distinct)
  tables r there unshared := by
    refine (second.tables r ((first.heldBesides_iff r).2 there) fun k' found' => ?_).trans
      (first.tables r there unshared)
    obtain ⟨k, found, same⟩ := first.global k' found'
    rw [same]
    exact unshared k found
  global k'' found'' := by
    obtain ⟨k', found', same'⟩ := second.global k'' found''
    obtain ⟨k, found, same⟩ := first.global k' found'
    exact ⟨k, found, same'.trans same⟩

namespace Owned

/-- What other engines hold is in the store. -/
lemma known (owned : s.Owned) {r : Ref VariableTable} (there : s.HeldBesides handle r) :
    r.index < s.tables.next := by
  obtain ⟨other, k, -, found, mem⟩ := there
  exact (owned other k found).known r mem

/-- As long as no block is open there is nothing to own. -/
lemma of_no_blocks (none_open : ∀ handle k, s.stack handle = some k →
    k.blocks = [] ∧ k.global.index < s.tables.next) : s.Owned := by
  intro handle k found
  obtain ⟨blocks, known⟩ := none_open handle k found
  have locals : k.locals = [] := by rw [ScopeStack.locals, blocks, List.map_nil]
  constructor <;> rw [locals]
  · exact List.nodup_nil
  · exact List.not_mem_nil
  · exact nofun
  · exact List.forall_mem_singleton.2 known

/-- What is done with the scopes of one engine spares those of the others. -/
lemma spares_act (owned : s.Owned) (handle : Nat) (action : ScopeAction) :
    Spares handle s (s.act handle action) := by
  cases found : s.stack handle with
  | none =>
    rw [act_of_none found]
    exact .refl handle s
  | some k =>
    rw [act_of_some found]
    refine ⟨fun other distinct => Function.update_of_ne distinct _ _, fun r there unshared => ?_,
      fun k' found' => ?_⟩
    · apply ScopeStack.get_act (owned.known there)
      refine List.not_mem_cons_of_ne_of_not_mem (unshared k found) fun mem => ?_
      exact (owned handle k found).unheld r mem there
    · cases (Function.update_self handle _ s.stack).symm.trans found'
      exact ⟨k, found, ScopeStack.global_act action⟩

/-- The tables of blocks stay owned. -/
lemma act (owned : s.Owned) (handle : Nat) (action : ScopeAction) :
    (s.act handle action).Owned := by
  have spares := owned.spares_act handle action
  cases found : s.stack handle with
  | none => rwa [act_of_none found]
  | some k =>
    intro other k' found'
    by_cases same : other = handle
    · subst same
      rw [act_of_some found] at spares found' ⊢
      cases (Function.update_self other _ s.stack).symm.trans found'
      have owns := (owned other k found).act (fun _ => owned.known) action
      exact owns.mono fun r => (spares.heldBesides_iff r).1
    · have owns := owned other k' ((spares.stack other same).symm.trans found')
      refine ⟨owns.distinct, owns.notGlobal, fun r mem there => ?_, fun r mem => ?_⟩
      · rcases heldBesides_act (Ne.symm same) there with there | new
        · exact owns.unheld r mem there
        · exact owns.ne_new (List.mem_cons_of_mem _ mem) new
      · rw [act_of_some found]
        exact Nat.lt_of_lt_of_le (owns.known r mem) (ScopeStack.next_act action)

/-- Of the scopes of another engine only the global table can have changed. -/
lemma scopes_spared (owned : s.Owned) (spares : Spares handle s s') {other : Nat}
    (distinct : other ≠ handle) (found : s.stack other = some k) :
    k.scopes s'.tables = { k.scopes s.tables with global := s'.tables.get k.global } := by
  have blocks : ∀ b ∈ k.blocks, s'.tables.get b.2 = s.tables.get b.2 := by
    intro b mem
    have own : b.2 ∈ k.locals := List.mem_map_of_mem mem
    refine spares.tables b.2 ⟨other, k, distinct, found, List.mem_cons_of_mem _ own⟩ ?_
    intro k' found' global
    refine (owned other k found).unheld b.2 own ⟨handle, k', distinct.symm, found', ?_⟩
    rw [global]
    exact List.mem_cons_self
  unfold ScopeStack.scopes
  congr 1
  exact List.map_congr_left fun b mem => by rw [blocks b mem]

/-- The same for many things one after the other: the tables of blocks stay owned, and the scopes of
the other engines are spared. -/
lemma actAll (owned : s.Owned) (handle : Nat) (actions : List ScopeAction) :
    (s.actAll handle actions).Owned ∧ Spares handle s (s.actAll handle actions) := by
  induction actions generalizing s with
  | nil => exact ⟨owned, .refl handle s⟩
  | cons action rest ih =>
    obtain ⟨after, spares⟩ := ih (owned.act handle action)
    exact ⟨after, (owned.spares_act handle action).trans spares⟩

/-- What is done to the stack of an engine is done to the scopes that it stands for. -/
lemma scopes_actAll (owned : s.Owned) (found : s.stack handle = some k)
    (actions : List ScopeAction) : ∃ k', (s.actAll handle actions).stack handle = some k' ∧
      k'.global = k.global ∧ k'.scopes (s.actAll handle actions).tables =
        ScopeAction.runAll actions (k.scopes s.tables) := by
  induction actions generalizing s k with
  | nil => exact ⟨k, found, rfl, rfl⟩
  | cons action rest ih =>
    have here := act_of_some found action
    have onStack : (s.act handle action).stack handle = some (k.act s.tables action).1 := by
      rw [here]
      exact Function.update_self handle _ s.stack
    obtain ⟨k', found', global, scopes⟩ := ih (owned.act handle action) onStack
    refine ⟨k', found', global.trans (ScopeStack.global_act action), scopes.trans ?_⟩
    rw [here, (owned handle k found).scopes_act action]
    rfl

variable {other : Nat} {k' : ScopeStack}

/-- Engines with different global tables do not see what is done with each other's scopes. -/
theorem scopes_of_unshared (owned : s.Owned) (found : s.stack handle = some k)
    (found' : s.stack other = some k') (distinct : other ≠ handle) (unshared : k'.global ≠ k.global)
    (actions : List ScopeAction) :
    k'.scopes (s.actAll handle actions).tables = k'.scopes s.tables := by
  have spares := (owned.actAll handle actions).2
  have there : s.HeldBesides handle k'.global := ⟨other, k', distinct, found', List.mem_cons_self⟩
  rw [owned.scopes_spared spares distinct found', spares.tables _ there fun k₀ found₀ => ?_]
  · rfl
  · cases found.symm.trans found₀
    exact unshared

/-- Engines with the same global table see what becomes of it, and nothing else. -/
theorem scopes_of_shared (owned : s.Owned) (found : s.stack handle = some k)
    (found' : s.stack other = some k') (distinct : other ≠ handle) (shared : k'.global = k.global)
    (actions : List ScopeAction) : k'.scopes (s.actAll handle actions).tables =
      { k'.scopes s.tables with global := (ScopeAction.runAll actions (k.scopes s.tables)).global } := by
  obtain ⟨after, -, global, scopes⟩ := owned.scopes_actAll found actions
  rw [owned.scopes_spared (owned.actAll handle actions).2 distinct found', shared, ← global, ← scopes]
  rfl

end Owned
end ScopeStacks
end ScriptEngine
