import ScriptEngine.Session
import ScriptEngine.Proofs.Evaluation.Framing

/-!
# The scope of a block evaluation

`evaluateBlockWith` opens a block, evaluates a script in it and asks for the block to be closed.
Meanwhile natives may open and close blocks on the same engine, so when it asks, the block need not be
the innermost one any more.

Numbers are given out once and blocks are closed from the top, so the stack can only have changed in
one way (`Scopes.Over`): above the block stand later ones, and below it everything is as it was; or
the block is gone, and later blocks stand on some of those below it.  From this it follows what
becomes of the block (`evaluateBlock_discards_unless_buried`).  If the natives have left no block of
their own open, the block is discarded with all that was declared in it.  If they have, closing it
fails without a word to the caller and nothing is taken off the stack; the block stays buried under
theirs (`evaluateBlock_leaves_buried_scope`).
-/

namespace ScriptEngine

variable {ν σ α : Type}

/-! ## A block and the blocks below it -/

/-- What is left of the block `number` and of the blocks that were open below it: all of them, those below
with the same tables, or without the block itself some of those below. -/
inductive Block.Remains (number : Nat) (below : List Block) : List Block → Prop
  | whole (table : VariableTable) : Remains number below (⟨number, table⟩ :: below)
  | part {rest : List Block} (kept : rest.map Block.id <:+ below.map Block.id) :
    Remains number below rest

namespace Block.Remains

variable {number : Nat} {below rest : List Block}

/-- The uppermost block may be closed. -/
lemma tail (remains : Remains number below rest) : Remains number below rest.tail := by
  cases remains with
  | whole table => exact .part List.suffix_rfl
  | part kept =>
    refine .part ?_
    rw [List.map_tail]
    exact (List.tail_suffix _).trans kept

/-- The uppermost table may be written. -/
lemma write {b : Block} (remains : Remains number below (b :: rest)) (table : VariableTable) :
    Remains number below ({ b with table } :: rest) := by
  cases remains with
  | whole _ => exact .whole table
  | part kept => exact .part kept

/-- None of them is later than the block. -/
lemma le (remains : Remains number below rest) (older : ∀ id ∈ below.map Block.id, id < number) :
    ∀ id ∈ rest.map Block.id, id ≤ number := by
  cases remains with
  | whole table => exact List.forall_mem_cons.2 ⟨Nat.le_refl _, fun id mem => Nat.le_of_lt (older id mem)⟩
  | part kept => exact fun id mem => Nat.le_of_lt (older id (kept.subset mem))

end Block.Remains

/-- The numbers of the open blocks have been given out. -/
def Scopes.Numbered (s : Scopes) : Prop :=
  ∀ b ∈ s.blocks, b.id ≤ s.opened

/-- The block `number` was opened on the blocks `below`.  What is left of them lies at the bottom of the
stack, and above it stand only blocks that were opened later. -/
structure Scopes.Over (number : Nat) (below : List Block) (s : Scopes) : Prop where
  counted : number ≤ s.opened
  numbered : s.Numbered
  stack : ∃ above rest, s.blocks = above ++ rest ∧ (∀ b ∈ above, number < b.id) ∧
    Block.Remains number below rest

namespace Scopes.Over

variable {number : Nat} {below : List Block} {s : Scopes}

/-- Nothing has been opened yet on the blocks that are open. -/
lemma start (numbered : s.Numbered) : Over s.opened s.blocks s :=
  ⟨Nat.le_refl _, numbered, [], _, rfl, by simp, .part List.suffix_rfl⟩

/-- The block `number` is the next one. -/
lemma opened (numbered : s.Numbered) : Over (s.opened + 1) s.blocks s.openBlock.2 := by
  refine ⟨Nat.le_refl _, ?_, [], _, rfl, by simp, .whole ∅⟩
  exact List.forall_mem_cons.2 ⟨Nat.le_refl _, fun b mem => Nat.le_succ_of_le (numbered b mem)⟩

lemma openBlock (stays : s.Over number below) : s.openBlock.2.Over number below := by
  obtain ⟨counted, numbered, above, rest, blocks, later, remains⟩ := stays
  refine ⟨Nat.le_succ_of_le counted, ?_, ⟨s.opened + 1, ∅⟩ :: above, rest, ?_, ?_, remains⟩
  · exact List.forall_mem_cons.2 ⟨Nat.le_refl _, fun b mem => Nat.le_succ_of_le (numbered b mem)⟩
  · exact congrArg (List.cons ⟨s.opened + 1, ∅⟩) blocks
  · exact List.forall_mem_cons.2 ⟨Nat.lt_succ_of_le counted, later⟩

/-- Whatever block is closed is the uppermost one. -/
lemma closeBlock (stays : s.Over number below) {n : Nat} {s' : Scopes}
    (closed : s.closeBlock n = .ok s') : s'.Over number below := by
  obtain ⟨counted, numbered, above, rest, blocks, later, remains⟩ := stays
  unfold Scopes.closeBlock at closed
  split_ifs at closed
  cases closed
  refine ⟨counted, fun b mem => numbered b (List.mem_of_mem_tail mem), above.tail,
    if above = [] then rest.tail else rest, ?_, fun b mem => ?_, ?_⟩
  · cases above <;> simp [blocks]
  · exact later b (List.mem_of_mem_tail mem)
  · split
    · exact remains.tail
    · exact remains

lemma bindCurrent (stays : s.Over number below) (name : String) (value : Option String) :
    (s.bindCurrent name value).Over number below := by
  obtain ⟨counted, numbered, above, rest, blocks, later, remains⟩ := stays
  obtain ⟨global, stack, opened⟩ := s
  cases stack with
  | nil => exact ⟨counted, numbered, above, rest, blocks, later, remains⟩
  | cons b stack =>
    have written : Scopes.Numbered ⟨global, { b with table := b.table.insert name value } :: stack,
        opened⟩ :=
      List.forall_mem_cons.2 (List.forall_mem_cons.1 numbered)
    refine ⟨counted, written, ?_⟩
    cases above with
    | cons _ above =>
      obtain ⟨rfl, rfl⟩ := List.cons.inj blocks
      exact ⟨_ :: above, rest, rfl, List.forall_mem_cons.2 (List.forall_mem_cons.1 later), remains⟩
    | nil =>
      obtain rfl : b :: stack = rest := blocks
      exact ⟨[], _, rfl, later, remains.write _⟩

lemma bind (stays : s.Over number below) (tier : Tier) (name : String) (value : Option String) :
    (s.bind tier name value).Over number below := by
  cases tier with
  | block => exact stays.bindCurrent name value
  | global => exact ⟨stays.counted, stays.numbered, stays.stack⟩

end Scopes.Over

/-! ## Evaluations on top of the block -/

namespace Machine

/-- The block `number` still counts as opened on the blocks `below` if it did before. -/
def KeepsOver (number : Nat) (below : List Block) (m m' : Machine ν σ) : Prop :=
  m.scopes.Over number below → m'.scopes.Over number below

namespace KeepsOver

variable {number : Nat} {below : List Block}

lemma refl (m : Machine ν σ) : KeepsOver number below m m :=
  fun stays => stays

lemma trans (m₀ m₁ m₂ : Machine ν σ) (first : KeepsOver number below m₀ m₁)
    (second : KeepsOver number below m₁ m₂) : KeepsOver number below m₀ m₂ :=
  fun stays => second (first stays)

/-- Of the scopes only the stack of blocks matters, and how many have been opened. -/
lemma of_same {m m' : Machine ν σ} (blocks : m'.engine.blocks = m.engine.blocks)
    (opened : m'.engine.opened = m.engine.opened) : KeepsOver number below m m' := by
  rintro ⟨counted, numbered, above, rest, stack, later, remains⟩
  refine ⟨Nat.le_trans counted (Nat.le_of_eq opened.symm), ?_, above, rest, blocks.trans stack, later,
    remains⟩
  change ∀ b ∈ m'.engine.blocks, b.id ≤ m'.engine.opened
  rw [blocks, opened]
  exact numbered

lemma bind (m : Machine ν σ) (tier : Tier) (name : String) (value : Option String) :
    KeepsOver number below m (m.setScopes (m.scopes.bind tier name value)) := by
  intro stays
  rw [scopes_setScopes]
  exact stays.bind tier name value

lemma openBlock (m : Machine ν σ) : KeepsOver number below m m.openBlock.2 := by
  intro stays
  change ((m.setScopes m.scopes.openBlock.2).scopes).Over number below
  rw [scopes_setScopes]
  exact stays.openBlock

lemma closeBlock (n : Nat) (m : Machine ν σ) : KeepsOver number below m (m.closeBlock n).2 := by
  intro stays
  unfold Machine.closeBlock
  split
  · next closed =>
    rw [scopes_setScopes]
    exact stays.closeBlock closed
  · exact stays

end KeepsOver
end Machine

open Machine (KeepsOver)

section

variable {number : Nat} {below : List Block} {evaluate : String → Run ν σ String} {m m' : Machine ν σ}
  (nested : ∀ script m outcome m', evaluate script m = some (outcome, m') → KeepsOver number below m m')
include nested

lemma answer_keepsOver {request : Request ν σ} {a : request.Answer}
    (asked : answer evaluate request m = some (a, m')) : KeepsOver number below m m' := by
  cases request with
  | bindCurrent name value =>
    cases asked
    exact .bind m .block name value
  | bindGlobal name value =>
    cases asked
    exact .bind m .global name value
  | openBlock =>
    cases asked
    exact .openBlock m
  | closeBlock n =>
    obtain ⟨rfl, rfl⟩ := Prod.mk.inj (Option.some.inj asked)
    exact .closeBlock n m
  | evaluate script => exact nested script m a m' asked
  | evaluateBlock script =>
    simp only [answer, evaluateBlockWith] at asked
    rcases run : evaluate script m.openBlock.2 with _ | ⟨outcome, m₁⟩ <;> simp only [run] at asked
    · cases asked
    · cases asked
      have inside := KeepsOver.trans _ _ _ (.openBlock m) (nested script _ _ m₁ run)
      exact .trans _ m₁ _ inside (.closeBlock _ m₁)
  | evaluateOn handle script =>
    -- The running engine is not the one that is asked.
    simp only [answer] at asked
    split at asked
    · cases asked
    · cases asked
      exact .of_same rfl rfl
  | _ =>
    cases asked
    exact .of_same rfl rfl

lemma callNative_keepsOver (host : Host ν σ) {name : String} {args : List String} {span : Span}
    {outcome : Except ScriptError String}
    (run : callNative host evaluate name args span m = some (outcome, m')) :
    KeepsOver number below m m' := by
  apply callNative_keeps (Q := KeepsOver number below) .refl .trans (fun _ _ => .of_same rfl rfl) _ run
  intro native args m outcome m' called
  exact Callback.run_keeps (Q := KeepsOver number below) .refl .trans
    (fun _ _ _ _ _ => answer_keepsOver nested)
    (.of_all (fun _ => trivial) (host native args)) called

/-- The block still counts as opened on those blocks after all that is done with a name. -/
lemma covers_keepsOver (host : Host ν σ) (rounds : Nat) (mentions : List Mention) :
    RunRelation.CoversAll (Run.Refines (KeepsOver number below)) id
      ⟨callNative host evaluate, rounds⟩ ⟨callNative host evaluate, rounds⟩ mentions := by
  intro mention _
  apply Run.Refines.covers_of_bind .refl .trans .bind
  rintro name - args span m outcome m' called
  exact ⟨called, callNative_keepsOver nested host called⟩

end

lemma composesStatements_keepsOver {number : Nat} {below : List Block} :
    RunRelation.ComposesStatements (Run.Refines (KeepsOver number below) : RunRelation ν σ) id := by
  refine Run.Refines.composesStatements .refl .trans (fun line m => ?_) fun v m => .of_same rfl rfl
  unfold Machine.markLine
  split <;> exact .of_same rfl rfl

/-- Whatever an evaluation and its natives do, the block and the blocks below it are only taken off
the stack from the top. -/
lemma evaluate_keepsOver {number : Nat} {below : List Block} (host : Host ν σ) (fuel : Nat)
    (script : String) (m : Machine ν σ) (outcome : Except ScriptError String) (m' : Machine ν σ)
    (run : evaluate host fuel script m = some (outcome, m')) : KeepsOver number below m m' := by
  induction fuel generalizing script m outcome m' with
  | zero => cases run
  | succ fuel ih =>
    have carried := Script.runText_related composesStatements_keepsOver rfl script
      (covers_keepsOver ih host fuel _)
    refine evaluateWith_keeps .trans (fun _ => .of_same rfl rfl) (fun m => ?_)
      (fun _ _ _ => .of_same rfl rfl) carried run
    unfold Machine.endInput
    split <;> exact .of_same rfl rfl

/-- The numbers of the open blocks have been given out after an evaluation if they had been before. -/
theorem evaluate_numbered {host : Host ν σ} {fuel : Nat} {script : String} {m m' : Machine ν σ}
    {outcome : Except ScriptError String} (numbered : m.scopes.Numbered)
    (run : evaluate host fuel script m = some (outcome, m')) : m'.scopes.Numbered :=
  (evaluate_keepsOver host fuel script m outcome m' run (.start numbered)).numbered

/-! ## What becomes of the block -/

namespace Machine

variable {number : Nat} {below : List Block} {m : Machine ν σ}

/-- A block numbered later than `number` is open. -/
def HasLaterBlock (number : Nat) (m : Machine ν σ) : Prop :=
  ∃ b ∈ m.engine.blocks, number < b.id

/-- Only the innermost block can be closed; for another one nothing happens. -/
lemma closeBlock_of_ne (other : number ≠ m.scopes.innermost) : (m.closeBlock number).2 = m := by
  unfold closeBlock Scopes.closeBlock
  rw [if_neg other]
  split_ifs <;> rfl

lemma closeBlock_blocks {table : VariableTable} {rest : List Block} (numbered : number ≠ 0)
    (blocks : m.engine.blocks = ⟨number, table⟩ :: rest) :
    (m.closeBlock number).2.engine.blocks = rest := by
  have innermost : number = m.scopes.innermost := by simp [Scopes.innermost, scopes, blocks]
  have tail : m.scopes.blocks.tail = rest := by simp [scopes, blocks]
  unfold closeBlock Scopes.closeBlock
  rw [if_neg numbered, if_pos innermost]
  exact tail

/-- Under a later block the block cannot be closed. -/
lemma closeBlock_of_hasLaterBlock (stays : m.scopes.Over number below)
    (older : ∀ id ∈ below.map Block.id, id < number) (buried : m.HasLaterBlock number) :
    (m.closeBlock number).2 = m := by
  obtain ⟨b, mem, after⟩ := buried
  obtain ⟨above, rest, blocks, later, remains⟩ := stays.stack
  change m.engine.blocks = above ++ rest at blocks
  cases above with
  | nil =>
    rw [blocks] at mem
    exact absurd (remains.le older b.id (List.mem_map_of_mem mem)) (Nat.not_le_of_lt after)
  | cons top above =>
    apply closeBlock_of_ne
    simp only [Scopes.innermost, scopes, blocks]
    exact Nat.ne_of_lt (later top List.mem_cons_self)

/-- Without a later block on it, closing the block brings the stack back; and if the block is gone
already, nothing happens. -/
lemma closeBlock_of_not_hasLaterBlock (stays : m.scopes.Over number below) (numbered : number ≠ 0)
    (older : ∀ id ∈ below.map Block.id, id < number) (uppermost : ¬ m.HasLaterBlock number) :
    (m.closeBlock number).2.engine.blocks.map Block.id <:+ below.map Block.id ∧
      (number ∈ m.engine.blocks.map Block.id → (m.closeBlock number).2.engine.blocks = below) := by
  obtain ⟨above, rest, blocks, later, remains⟩ := stays.stack
  change m.engine.blocks = above ++ rest at blocks
  obtain rfl : above = [] := by
    refine List.eq_nil_iff_forall_not_mem.2 fun b mem => uppermost ⟨b, ?_, later b mem⟩
    rw [blocks]
    exact List.mem_append_left _ mem
  rw [List.nil_append] at blocks
  cases remains with
  | whole table =>
    have closed := closeBlock_blocks numbered blocks
    exact ⟨by simp only [closed, List.suffix_rfl], fun _ => closed⟩
  | part kept =>
    rw [← blocks] at kept
    have gone : number ∉ m.engine.blocks.map Block.id :=
      fun mem => Nat.lt_irrefl _ (older number (kept.subset mem))
    have refused : (m.closeBlock number).2 = m := by
      apply closeBlock_of_ne
      cases stack : m.engine.blocks with
      | nil => simpa only [Scopes.innermost, scopes, stack] using numbered
      | cons top _ =>
        simp only [stack, List.map_cons, List.mem_cons, not_or] at gone
        simpa only [Scopes.innermost, scopes, stack] using gone.1
    exact ⟨by rw [refused]; exact kept, fun mem => absurd mem gone⟩

end Machine

/-- An evaluation in a block of its own.  The numbers of the open blocks have been given out, as on an
engine without blocks, and that stays so.  The evaluation ends on some machine, and then the block is to
be closed.

If the natives have left no block open that they opened meanwhile, the block is gone afterwards, with
all that was declared in it, and nothing has been put on the stack; unless they have closed it
themselves, the stack is just as it was.  If they have left a block open, the stack stays as they left
it, with the block on it unless they have closed it. -/
theorem evaluateBlock_discards_unless_buried {host : Host ν σ} {fuel : Nat} {script : String}
    {m m' : Machine ν σ} {outcome : Except ScriptError String} (numbered : m.scopes.Numbered)
    (run : evaluateBlockWith (evaluate host fuel) script m = some (outcome, m')) :
    let number := m.engine.opened + 1
    m'.scopes.Numbered ∧ ∃ m₁, evaluate host fuel script m.openBlock.2 = some (outcome, m₁) ∧
      (¬ m₁.HasLaterBlock number →
        number ∉ m'.engine.blocks.map Block.id ∧ m'.scopes.depth ≤ m.scopes.depth ∧
        m'.engine.blocks.map Block.id <:+ m.engine.blocks.map Block.id ∧
        (number ∈ m₁.engine.blocks.map Block.id → m'.engine.blocks = m.engine.blocks)) ∧
      (m₁.HasLaterBlock number → m' = m₁) := by
  intro number
  unfold evaluateBlockWith at run
  rcases ended : evaluate host fuel script m.openBlock.2 with _ | ⟨outcome, m₁⟩ <;>
    simp only [ended] at run
  · cases run
  cases run
  have opened : m.openBlock.2.scopes.Over number m.engine.blocks := by
    change ((m.setScopes m.scopes.openBlock.2).scopes).Over _ _
    rw [Machine.scopes_setScopes]
    exact .opened numbered
  have stays := evaluate_keepsOver host fuel script _ _ _ ended opened
  have older : ∀ id ∈ m.engine.blocks.map Block.id, id < number := by
    simp only [List.forall_mem_map]
    exact fun b mem => Nat.lt_succ_of_le (numbered b mem)
  refine ⟨(Machine.KeepsOver.closeBlock _ m₁ stays).numbered, m₁, rfl, fun uppermost => ?_,
    Machine.closeBlock_of_hasLaterBlock stays older⟩
  obtain ⟨suffix, restored⟩ :=
    Machine.closeBlock_of_not_hasLaterBlock stays (Nat.succ_ne_zero _) older uppermost
  refine ⟨fun mem => Nat.lt_irrefl _ (older number (suffix.subset mem)), ?_, suffix, restored⟩
  have shorter := suffix.length_le
  rw [List.length_map, List.length_map] at shorter
  exact Nat.succ_le_succ shorter

/-- A block that a native has opened and closed again is no hindrance. -/
theorem evaluateBlock_discards_unless_buried_closed :
    Session.lone.scopes.Numbered ∧
      ∃ m', evaluateBlockWith (evaluate SessionNative.host 9) "var x = 1\nclose(open())"
          Session.lone = some (.ok "2", m') ∧
        m'.engine.blocks = [] := by
  have numbered : Session.lone.scopes.Numbered :=
    fun b mem => absurd mem List.not_mem_nil
  have inside : ((evaluate SessionNative.host 9 "var x = 1\nclose(open())"
      Session.lone.openBlock.2).map fun r => (r.1, r.2.engine.blocks.map Block.id)) =
        some (.ok "2", [1]) := by
    decide +kernel
  obtain ⟨⟨_, m₁⟩, ended, found⟩ := Option.map_eq_some_iff.1 inside
  obtain ⟨rfl, ids⟩ := Prod.mk.inj found
  have run : evaluateBlockWith (evaluate SessionNative.host 9) "var x = 1\nclose(open())"
      Session.lone = some (.ok "2", (m₁.closeBlock 1).2) := by
    simp only [evaluateBlockWith, ended]
    rfl
  obtain ⟨-, _, same, discarded, -⟩ := evaluateBlock_discards_unless_buried numbered run
  obtain ⟨-, rfl⟩ := Prod.mk.inj (Option.some.inj (ended.symm.trans same))
  refine ⟨numbered, _, run, (discarded ?_).2.2.2 ?_⟩
  · rintro ⟨b, mem, later⟩
    have own : b.id ∈ m₁.engine.blocks.map Block.id := List.mem_map_of_mem mem
    rw [ids, List.mem_singleton] at own
    rw [own] at later
    exact Nat.lt_irrefl 1 later
  · rw [ids]
    exact List.mem_singleton.2 rfl

/-- A native opens a block in the block and leaves it open.  Then both stay on the stack, and when the
upper one is closed, the variable that was declared inside is found again. -/
theorem evaluateBlock_leaves_buried_scope :
    Session.lone.scopes.depth = 1 ∧
      ∃ m', evaluateBlockWith (evaluate SessionNative.host 9) "var x = 1\nopen()" Session.lone =
          some (.ok "2", m') ∧
        m'.scopes.depth = 3 ∧ m'.engine.blocks.map Block.id = [2, 1] ∧
        (m'.closeBlock 2).2.scopes.lookup "x" = some (.block, some "1") := by
  have ended : ((evaluateBlockWith (evaluate SessionNative.host 9) "var x = 1\nopen()"
      Session.lone).map fun r => (r.1, r.2.scopes.depth, r.2.engine.blocks.map Block.id)) =
        some (.ok "2", 3, [2, 1]) := by
    decide +kernel
  have found : ((evaluateBlockWith (evaluate SessionNative.host 9) "var x = 1\nopen()"
      Session.lone).bind fun r => (r.2.closeBlock 2).2.scopes.lookup "x") =
        some (.block, some "1") := by
    decide +kernel
  obtain ⟨⟨_, m'⟩, run, shown⟩ := Option.map_eq_some_iff.1 ended
  simp only [Prod.mk.injEq] at shown
  obtain ⟨rfl, depth, blocks⟩ := shown
  rw [run, Option.bind_some] at found
  exact ⟨rfl, m', run, depth, blocks, found⟩

end ScriptEngine
