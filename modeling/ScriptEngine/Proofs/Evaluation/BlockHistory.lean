import ScriptEngine.Session
import ScriptEngine.Proofs.Evaluation.Framing
import ScriptEngine.Proofs.Evaluation.InStep

/-!
# The history of blocks

Blocks are opened and closed by the host and by the natives that scripts call, in any order and with
any numbers.  To say what has become of a number over a whole run, the run is carried out a second
time with natives that keep a history: `Callback.recorded` asks what a native asks, and notes beside
the state of the host which blocks the engine has opened, closed or refused to close.  The recorded
run does the same as the original one, whatever the natives do.

Which histories there can be is said by `Lifo`: a block gets the next number, only the innermost one
is closed, and every other request to close is refused.  Numbers are never given out again, so the
open blocks are numbered upwards, and a number that has been closed never closes anything again
(`closed_blocks_never_come_back`).
-/

namespace ScriptEngine

variable {ν σ α β : Type}

/-! ## Histories -/

/-- What an engine has done with a block. -/
inductive BlockEvent
  | opened (id : Nat)
  | closed (id : Nat)
  /-- The block was to be closed, but the engine has refused. -/
  | refused (id : Nat) (fault : BlockFault)
deriving DecidableEq, Repr

namespace BlockEvent

/-- What comes of asking for a block to be closed. -/
def ofClosing (id : Nat) : Except BlockFault Unit → BlockEvent
  | .ok _ => closed id
  | .error fault => refused id fault

def isOpening : BlockEvent → Bool
  | opened _ => true
  | _ => false

end BlockEvent

/-- What an engine has done with its blocks, the latest event first. -/
abbrev BlockHistory := List BlockEvent

/-- The number of blocks that have been opened. -/
def BlockHistory.openings (history : BlockHistory) : Nat :=
  history.countP BlockEvent.isOpening

/-- The history leads from one stack of numbers to another, the innermost first, and from one count of
blocks to another. -/
inductive Lifo (stack₀ : List Nat) (count₀ : Nat) : BlockHistory → List Nat → Nat → Prop
  | start : Lifo stack₀ count₀ [] stack₀ count₀
  | opened {history : BlockHistory} {stack : List Nat} {count : Nat}
    (before : Lifo stack₀ count₀ history stack count) :
    Lifo stack₀ count₀ (.opened (count + 1) :: history) ((count + 1) :: stack) (count + 1)
  | closed {history : BlockHistory} {stack : List Nat} {count id : Nat}
    (before : Lifo stack₀ count₀ history (id :: stack) count) (numbered : id ≠ 0) :
    Lifo stack₀ count₀ (.closed id :: history) stack count
  | refused {history : BlockHistory} {stack : List Nat} {count id : Nat} {fault : BlockFault}
    (before : Lifo stack₀ count₀ history stack count) (other : id = 0 ∨ stack.head? ≠ some id) :
    Lifo stack₀ count₀ (.refused id fault :: history) stack count

namespace Lifo

variable {stack₀ stack : List Nat} {count₀ count id : Nat} {history : BlockHistory}

lemma count_eq (lifo : Lifo stack₀ count₀ history stack count) :
    count = count₀ + history.openings := by
  induction lifo with
  | start => rfl
  | @opened history _ _ before ih =>
    rw [ih, Nat.add_assoc, BlockHistory.openings, BlockHistory.openings, List.countP_cons_of_pos rfl]
  | closed before numbered ih => exact ih
  | refused before other ih => exact ih

/-- At every earlier moment the history so far led to some stack. -/
lemma earlier {later history : BlockHistory} (lifo : Lifo stack₀ count₀ (later ++ history) stack count) :
    ∃ stack' count', Lifo stack₀ count₀ history stack' count' := by
  induction later generalizing stack count with
  | nil => exact ⟨stack, count, lifo⟩
  | cons event later ih =>
    cases lifo with
    | opened before => exact ih before
    | closed before numbered => exact ih before
    | refused before other => exact ih before

/-- The blocks that are open on an engine that began without any are numbered upwards, from 1 on, and
with numbers that have been given out. -/
lemma ascending (lifo : Lifo [] 0 history stack count) :
    (0 :: stack.reverse).Pairwise (· < ·) ∧ ∀ id ∈ stack, id ≤ count := by
  induction lifo with
  | start => exact ⟨List.pairwise_singleton _ _, nofun⟩
  | @opened history stack count before ih =>
    obtain ⟨sorted, given⟩ := ih
    refine ⟨?_, List.forall_mem_cons.2 ⟨Nat.le_refl _, fun id mem => Nat.le_succ_of_le (given id mem)⟩⟩
    rw [List.reverse_cons, ← List.cons_append, List.pairwise_append]
    refine ⟨sorted, List.pairwise_singleton _ _, ?_⟩
    simp only [List.mem_cons, List.mem_reverse, List.not_mem_nil, or_false]
    rintro id (rfl | mem) _ rfl
    · exact Nat.succ_pos count
    · exact Nat.lt_succ_of_le (given id mem)
  | closed before numbered ih =>
    obtain ⟨sorted, given⟩ := ih
    rw [List.reverse_cons, ← List.cons_append] at sorted
    exact ⟨(List.pairwise_append.1 sorted).1, (List.forall_mem_cons.1 given).2⟩
  | refused before other ih => exact ih

/-- The innermost block stands on blocks with smaller numbers. -/
lemma lt_innermost (lifo : Lifo [] 0 history (id :: stack) count) : ∀ id' ∈ stack, id' < id := by
  have sorted := lifo.ascending.1
  rw [List.reverse_cons, ← List.cons_append, List.pairwise_append] at sorted
  intro id' mem
  exact sorted.2.2 id' (List.mem_cons_of_mem _ (List.mem_reverse.2 mem)) id (List.mem_singleton.2 rfl)

/-- A number that has been closed is given out already and not open any more, and from then on it has
closed nothing. -/
lemma gone {later earlier : BlockHistory}
    (lifo : Lifo [] 0 (later ++ .closed id :: earlier) stack count) :
    id ≤ count ∧ id ∉ stack ∧ .closed id ∉ later := by
  induction later generalizing stack count with
  | nil =>
    cases lifo with
    | closed before numbered =>
      refine ⟨before.ascending.2 id List.mem_cons_self, fun mem => ?_, List.not_mem_nil⟩
      exact Nat.lt_irrefl id (before.lt_innermost id mem)
  | cons event later ih =>
    cases lifo with
    | opened before =>
      obtain ⟨given, away, none⟩ := ih before
      have other := Nat.ne_of_lt (Nat.lt_succ_of_le given)
      exact ⟨Nat.le_succ_of_le given, List.not_mem_cons_of_ne_of_not_mem other away,
        List.not_mem_cons_of_ne_of_not_mem nofun none⟩
    | closed before numbered =>
      obtain ⟨given, away, none⟩ := ih before
      obtain ⟨other, away⟩ := List.ne_and_not_mem_of_not_mem_cons away
      refine ⟨given, away, List.not_mem_cons_of_ne_of_not_mem ?_ none⟩
      exact fun same => other (BlockEvent.closed.inj same)
    | refused before other =>
      obtain ⟨given, away, none⟩ := ih before
      exact ⟨given, away, List.not_mem_cons_of_ne_of_not_mem nofun none⟩

end Lifo

/-! ## Keeping a history -/

/-- Notes an event beside the state of the host. -/
def Callback.noteBlock (event : BlockEvent) : Callback ν (σ × BlockHistory) Unit := do
  let (state, history) ← .request .hostState
  .request (.setHostState (state, event :: history))

/-- Asks what the request asks and notes what is done with blocks of the engine that is asked.  Another
engine begins a history of its own, which is dropped in the end. -/
def Request.recorded : (r : Request ν σ) → Callback ν (σ × BlockHistory) r.Answer
  | .openBlock => do
    let id ← .request .openBlock
    .noteBlock (.opened id)
    return id
  | .closeBlock id => do
    let outcome ← .request (.closeBlock id)
    .noteBlock (.ofClosing id outcome)
    return outcome
  | .evaluateBlock script => do
    let id ← .request .openBlock
    .noteBlock (.opened id)
    let outcome ← .request (.evaluate script)
    let closing ← .request (.closeBlock id)
    .noteBlock (.ofClosing id closing)
    return outcome
  | .evaluateOn handle script => do
    let (state, history) ← .request .hostState
    .request (.setHostState (state, []))
    let outcome ← .request (.evaluateOn handle script)
    let (state, _) ← .request .hostState
    .request (.setHostState (state, history))
    return outcome
  | .hostState => do
    let (state, _) ← .request .hostState
    return state
  | .setHostState state => do
    let (_, history) ← .request .hostState
    .request (.setHostState (state, history))
  | .result => .request .result
  | .setResult text => .request (.setResult text)
  | .lastDiagnostic => .request .lastDiagnostic
  | .lineNumber => .request .lineNumber
  | .scopeDepth => .request .scopeDepth
  | .lookup name => .request (.lookup name)
  | .bindCurrent name value => .request (.bindCurrent name value)
  | .bindGlobal name value => .request (.bindGlobal name value)
  | .globalNames => .request .globalNames
  | .register name native => .request (.register name native)
  | .unregister name => .request (.unregister name)
  | .functionNames => .request .functionNames
  | .userData => .request .userData
  | .evaluate script => .request (.evaluate script)
  | .print text => .request (.print text)

/-- Does the same and keeps the history of blocks. -/
def Callback.recorded : Callback ν σ α → Callback ν (σ × BlockHistory) α
  | .done a => .done a
  | .fail message => .fail message
  | .ask request next => request.recorded >>= fun answer => (next answer).recorded

/-- The host whose natives keep the history of blocks. -/
def Host.recorded (host : Host ν σ) : Host ν (σ × BlockHistory) := fun native args =>
  (host native args).recorded

/-- The world with a history beside the state of the host. -/
def World.recording (history : BlockHistory) (w : World ν σ) : World ν (σ × BlockHistory) :=
  { w with host := (w.host, history) }

/-- The machine with a history beside the state of the host. -/
def Machine.recording (history : BlockHistory) (m : Machine ν σ) : Machine ν (σ × BlockHistory) :=
  ⟨m.engine, m.world.recording history⟩

/-- The first machine is the second one with a history that has led to the blocks that are open. -/
def Machine.Records (stack₀ : List Nat) (count₀ : Nat) (m : Machine ν (σ × BlockHistory))
    (n : Machine ν σ) : Prop :=
  ∃ history, m = n.recording history ∧
    Lifo stack₀ count₀ history (n.engine.blocks.map Block.id) n.engine.opened

lemma Scopes.bind_ids (tier : Tier) (name : String) (value : Option String) (s : Scopes) :
    (s.bind tier name value).blocks.map Block.id = s.blocks.map Block.id := by
  obtain ⟨global, blocks, opened⟩ := s
  cases tier with
  | global => rfl
  | block => cases blocks <;> rfl

lemma Scopes.bind_opened (tier : Tier) (name : String) (value : Option String) (s : Scopes) :
    (s.bind tier name value).opened = s.opened := by
  obtain ⟨global, blocks, opened⟩ := s
  cases tier with
  | global => rfl
  | block => cases blocks <;> rfl

namespace Machine

variable {stack₀ : List Nat} {count₀ : Nat}

/-- A script does nothing to the blocks but write their tables. -/
lemma inStep_records :
    InStep (Records stack₀ count₀ : Machine ν (σ × BlockHistory) → Machine ν σ → Prop) where
  scopes := by
    rintro _ n ⟨history, rfl, lifo⟩
    rfl
  functions := by
    rintro _ n ⟨history, rfl, lifo⟩
    rfl
  result := by
    rintro _ n ⟨history, rfl, lifo⟩
    rfl
  bind := by
    rintro _ n tier name value ⟨history, rfl, lifo⟩
    refine ⟨history, rfl, ?_⟩
    change Lifo _ _ _ ((n.scopes.bind tier name value).blocks.map Block.id)
      (n.scopes.bind tier name value).opened
    rw [Scopes.bind_ids, Scopes.bind_opened]
    exact lifo
  markLine := by
    rintro _ ⟨⟨_, _, _, _, _, _, _, inputs, _⟩, _⟩ line ⟨history, rfl, lifo⟩
    cases inputs <;> exact ⟨history, rfl, lifo⟩
  setResult := by
    rintro _ n text ⟨history, rfl, lifo⟩
    exact ⟨history, rfl, lifo⟩
  noteCall := by
    rintro _ n call ⟨history, rfl, lifo⟩
    exact ⟨history, rfl, lifo⟩
  beginInput := by
    rintro _ n ⟨history, rfl, lifo⟩
    exact ⟨history, rfl, lifo⟩
  endInput := by
    rintro _ ⟨⟨_, _, _, _, _, _, _, inputs, _⟩, _⟩ ⟨history, rfl, lifo⟩
    cases inputs <;> exact ⟨history, rfl, lifo⟩
  noteFailure := by
    rintro _ n script e ⟨history, rfl, lifo⟩
    exact ⟨history, rfl, lifo⟩

/-- Notes an event beside the state of the host. -/
def noteBlock (event : BlockEvent) (m : Machine ν (σ × BlockHistory)) :
    Machine ν (σ × BlockHistory) :=
  { m with world := { m.world with host := (m.world.host.1, event :: m.world.host.2) } }

/-- Only the innermost block is closed.  For any other number there is an error and nothing happens. -/
lemma closeBlock_cases (id : Nat) (n : Machine ν σ) :
    (id ≠ 0 ∧ n.engine.blocks.map Block.id = id :: (n.engine.blocks.map Block.id).tail ∧
      n.closeBlock id =
        (.ok (), n.setScopes { n.scopes with blocks := n.engine.blocks.tail })) ∨
    ((id = 0 ∨ (n.engine.blocks.map Block.id).head? ≠ some id) ∧
      ∃ fault, n.closeBlock id = (.error fault, n)) := by
  unfold closeBlock Scopes.closeBlock
  by_cases numbered : id = 0
  · rw [if_pos numbered]
    exact .inr ⟨.inl numbered, _, rfl⟩
  rw [if_neg numbered]
  by_cases innermost : id = n.scopes.innermost
  · rw [if_pos innermost]
    refine .inl ⟨numbered, ?_, rfl⟩
    simp only [Scopes.innermost, scopes] at innermost
    cases blocks : n.engine.blocks with
    | nil =>
      rw [blocks] at innermost
      exact absurd innermost numbered
    | cons b rest =>
      rw [blocks] at innermost
      rw [innermost]
      rfl
  · rw [if_neg innermost]
    refine .inr ⟨.inr fun first => innermost ?_, _, rfl⟩
    simp only [Scopes.innermost, scopes]
    cases blocks : n.engine.blocks with
    | nil =>
      rw [blocks] at first
      cases first
    | cons b rest =>
      rw [blocks] at first
      exact (Option.some.inj first).symm

lemma closeBlock_recording (history : BlockHistory) (id : Nat) (n : Machine ν σ) :
    (n.recording history).closeBlock id =
      ((n.closeBlock id).1, (n.closeBlock id).2.recording history) := by
  have same : (n.recording history).scopes = n.scopes := rfl
  unfold closeBlock
  rw [same]
  cases n.scopes.closeBlock id <;> rfl

namespace Records

variable {m : Machine ν (σ × BlockHistory)} {n : Machine ν σ}

/-- A block is opened, and that is noted. -/
lemma openBlock (here : Records stack₀ count₀ m n) :
    Records stack₀ count₀ (m.openBlock.2.noteBlock (.opened m.openBlock.1)) n.openBlock.2 := by
  obtain ⟨history, rfl, lifo⟩ := here
  exact ⟨_, rfl, lifo.opened⟩

/-- A block is to be closed, and what comes of it is noted. -/
lemma closeBlock (here : Records stack₀ count₀ m n) (id : Nat) :
    (m.closeBlock id).1 = (n.closeBlock id).1 ∧
      Records stack₀ count₀ ((m.closeBlock id).2.noteBlock (.ofClosing id (m.closeBlock id).1))
        (n.closeBlock id).2 := by
  obtain ⟨history, rfl, lifo⟩ := here
  rw [closeBlock_recording]
  rcases n.closeBlock_cases id with ⟨numbered, ids, closed⟩ | ⟨other, fault, refused⟩
  · rw [ids] at lifo
    rw [closed]
    refine ⟨rfl, _, rfl, ?_⟩
    change Lifo _ _ _ (n.engine.blocks.tail.map Block.id) _
    rw [List.map_tail]
    exact lifo.closed numbered
  · rw [refused]
    exact ⟨rfl, _, rfl, lifo.refused other⟩

end Records
end Machine

/-! ## Recorded natives -/

lemma Callback.run_bind (evaluate : String → Run ν σ String) (x : Callback ν σ α)
    (k : α → Callback ν σ β) (m : Machine ν σ) :
    (x >>= k).run evaluate m =
      match x.run evaluate m with
      | none => none
      | some (.error message, m) => some (.error message, m)
      | some (.ok a, m) => (k a).run evaluate m := by
  induction x generalizing m with
  | done a => rfl
  | fail message => rfl
  | ask request next ih =>
    change (Callback.ask request fun answer => (next answer).bind k).run evaluate m = _
    simp only [Callback.run]
    cases answer evaluate request m with
    | none => rfl
    | some asked => exact ih asked.1 asked.2

lemma Callback.run_noteBlock (evaluate : String → Run ν (σ × BlockHistory) String)
    (event : BlockEvent) (m : Machine ν (σ × BlockHistory)) :
    (noteBlock event).run evaluate m = some (.ok (), m.noteBlock event) :=
  rfl

section

variable {recording : String → Run ν (σ × BlockHistory) String} {evaluate : String → Run ν σ String}
  (nested : ∀ stack₀ count₀ script,
    Run.Pairs (Machine.Records stack₀ count₀) (recording script) (evaluate script))
include nested

/-- Another engine that is evaluated on keeps a history of its own. -/
lemma evaluateOnWith_recording (handle : Nat) (script : String) (w : World ν σ) :
    EndAlike (fun w' w'' => ∃ history, w' = World.recording history w'')
      (evaluateOnWith recording handle script (w.recording []))
      (evaluateOnWith evaluate handle script w) := by
  unfold evaluateOnWith World.onEngine
  have same : (w.recording []).registry = w.registry := rfl
  rw [same]
  cases found : w.registry.slot handle with
  | free => exact .some ⟨rfl, [], rfl⟩
  | busy => exact .some ⟨rfl, [], rfl⟩
  | idle engine =>
    let n : Machine ν σ := ⟨engine, { w with registry := w.registry.setSlot handle .busy }⟩
    have both := nested (engine.blocks.map Block.id) engine.opened script (n.recording []) n
      ⟨[], rfl, .start⟩
    obtain ⟨left, right⟩ | ⟨outcome, _, n', left, right, history, rfl, -⟩ := EndAlike.cases both
    all_goals
      simp only [n, Machine.recording, World.recording] at left right
      simp only [World.recording, left, right]
    · exact .none
    · cases outcome with
      | error e => exact .some ⟨rfl, history, rfl⟩
      | ok value => exact .some ⟨rfl, history, rfl⟩

/-- A request is answered as it is without a history. -/
lemma Request.recorded_run (request : Request ν σ) {stack₀ : List Nat} {count₀ : Nat}
    {m : Machine ν (σ × BlockHistory)} {n : Machine ν σ} (here : m.Records stack₀ count₀ n) :
    EndAlike (Machine.Records stack₀ count₀) (request.recorded.run recording m)
      ((answer evaluate request n).map fun asked => (.ok asked.1, asked.2)) := by
  cases request with
  | openBlock =>
    have opened := here.openBlock
    obtain ⟨history, rfl, lifo⟩ := here
    exact .some ⟨rfl, opened⟩
  | closeBlock id =>
    obtain ⟨same, closed⟩ := here.closeBlock id
    exact .some ⟨congrArg Except.ok same, closed⟩
  -- The natives that the script calls note what they open and close; nothing is added to that.
  | evaluate script =>
    have both := nested _ _ script m n here
    simp only [recorded, Callback.request, Callback.run, answer]
    obtain ⟨left, right⟩ | ⟨outcome, m', n', left, right, after⟩ := EndAlike.cases both
    · rw [left, right]
      exact .none
    · rw [left, right]
      exact .some ⟨rfl, after⟩
  -- The block is noted before the script runs and crossed out behind it, around whatever the
  -- script notes.
  | evaluateBlock script =>
    have both := nested _ _ script _ _ here.openBlock
    have number : m.openBlock.1 = n.openBlock.1 := by
      obtain ⟨history, rfl, lifo⟩ := here
      rfl
    simp only [recorded, Callback.run_bind, Callback.request, Callback.run, Callback.run_noteBlock,
      answer, evaluateBlockWith]
    obtain ⟨left, right⟩ | ⟨outcome, m', n', left, right, after⟩ := EndAlike.cases both
    · simp only [left, right]
      exact .none
    · simp only [left, right]
      rw [number]
      exact .some ⟨rfl, (after.closeBlock _).2⟩
  -- Another engine has blocks of its own: they are no part of this history.
  | evaluateOn handle script =>
    obtain ⟨history, rfl, lifo⟩ := here
    have both := evaluateOnWith_recording nested handle script n.world
    simp only [recorded, Callback.run_bind, Callback.request, Callback.run, answer, Machine.recording]
    obtain ⟨left, right⟩ | ⟨outcome, _, w, left, right, _, rfl⟩ := both.cases
    all_goals
      simp only [World.recording] at left ⊢
      simp only [left, right]
    · exact .none
    · exact .some ⟨rfl, history, rfl, lifo⟩
  | bindCurrent name value => exact .some ⟨rfl, Machine.inStep_records.bind .block name value here⟩
  | bindGlobal name value => exact .some ⟨rfl, Machine.inStep_records.bind .global name value here⟩
  | _ =>
    obtain ⟨history, rfl, lifo⟩ := here
    exact .some ⟨rfl, history, rfl, lifo⟩

/-- A native does the same and keeps the history. -/
lemma Callback.recorded_run (x : Callback ν σ α) {stack₀ : List Nat} {count₀ : Nat}
    {m : Machine ν (σ × BlockHistory)} {n : Machine ν σ} (here : m.Records stack₀ count₀ n) :
    EndAlike (Machine.Records stack₀ count₀) (x.recorded.run recording m)
      (x.run evaluate n) := by
  induction x generalizing m n with
  | done a => exact .some ⟨rfl, here⟩
  | fail message => exact .some ⟨rfl, here⟩
  | ask request next ih =>
    have both := request.recorded_run nested here
    simp only [recorded, run_bind, run]
    obtain ⟨left, right⟩ | ⟨outcome, m', n', left, right, after⟩ := both.cases
    · rw [left, Option.map_eq_none_iff.1 right]
      exact .none
    · obtain ⟨⟨a, _⟩, asked, same⟩ := Option.map_eq_some_iff.1 right
      cases same
      rw [left, asked]
      exact ih a after

end

/-- An evaluation whose natives keep the history does the same. -/
lemma evaluate_recorded (host : Host ν σ) (fuel : Nat) (stack₀ : List Nat) (count₀ : Nat)
    (script : String) : Run.Pairs (Machine.Records stack₀ count₀)
      (evaluate host.recorded fuel script) (evaluate host fuel script) := by
  induction fuel generalizing stack₀ count₀ script with
  | zero => exact fun _ _ _ => .none
  | succ fuel ih =>
    apply Machine.inStep_records.evaluateWith_pairs rfl
    simp only [callNative_eq_callWith]
    apply Machine.inStep_records.callWith_pairs
    intro native args m n here
    exact (host native args).recorded_run ih here

/-! ## Runs on one engine -/

/-- On an engine that began without blocks, `0` is never the number of a block. -/
lemma Lifo.closeBlock {history : BlockHistory} {count : Nat} {m : Machine ν σ}
    (lifo : Lifo [] 0 history (m.engine.blocks.map Block.id) count) (id : Nat) :
    ((m.engine.blocks.map Block.id).head? = some id ∧ (m.closeBlock id).1 = .ok () ∧
        (m.closeBlock id).2.scopes = { m.scopes with blocks := m.engine.blocks.tail }) ∨
      ((m.engine.blocks.map Block.id).head? ≠ some id ∧
        ∃ fault, m.closeBlock id = (.error fault, m)) := by
  rcases m.closeBlock_cases id with ⟨-, ids, closed⟩ | ⟨other, refused⟩
  · refine .inl ⟨?_, ?_⟩
    · rw [ids]
      rfl
    · rw [closed]
      exact ⟨rfl, Machine.scopes_setScopes _ m⟩
  · refine .inr ⟨?_, refused⟩
    rcases other with rfl | other
    · intro first
      have positive := List.rel_of_pairwise_cons lifo.ascending.1
        (List.mem_reverse.2 (List.mem_of_head? first))
      exact Nat.lt_irrefl 0 positive
    · exact other

/-- The open blocks are numbered upwards from the global scope, which counts as 0, and no number
exceeds the number of blocks opened so far. -/
def BlockHistory.Numbers (history : BlockHistory) (stack : List Nat) : Prop :=
  (0 :: stack.reverse).Pairwise (· < ·) ∧ ∀ id ∈ stack, id ≤ history.openings

lemma Lifo.numbers {history : BlockHistory} {stack : List Nat} {count : Nat}
    (lifo : Lifo [] 0 history stack count) : history.Numbers stack := by
  have counted := lifo.count_eq
  rw [Nat.zero_add] at counted
  have ascending := lifo.ascending
  rwa [counted] at ascending

/-- A host does what it likes with one engine that began without blocks: it opens and closes blocks,
with whatever numbers, reads and writes variables, and evaluates scripts whose natives may do the
same.  Then the global table is still the one that the engine began with.  The innermost block can be
closed, and asking for any other number is an error that changes nothing.

The natives of a second run do the same and keep a history.  By this history only the innermost block
was ever closed, and at every moment the open blocks were numbered upwards.  A number that has been
closed once has closed nothing since, and it does not close anything in the end. -/
theorem closed_blocks_never_come_back (host : Host ν σ) (fuel : Nat) (program : Callback ν σ α)
    {m m' : Machine ν σ} {outcome : Except String α}
    (unopened : m.engine.blocks = [] ∧ m.engine.opened = 0)
    (run : program.run (evaluate host fuel) m = some (outcome, m')) :
    m'.engine.globals = m.engine.globals ∧
    (∀ id, ((m'.engine.blocks.map Block.id).head? = some id ∧ (m'.closeBlock id).1 = .ok () ∧
        (m'.closeBlock id).2.scopes = { m'.scopes with blocks := m'.engine.blocks.tail }) ∨
      ((m'.engine.blocks.map Block.id).head? ≠ some id ∧
        ∃ fault, m'.closeBlock id = (.error fault, m'))) ∧
    ∃ history,
      program.recorded.run (evaluate host.recorded fuel) (m.recording []) =
        some (outcome, m'.recording history) ∧
      Lifo [] 0 history (m'.engine.blocks.map Block.id) m'.engine.opened ∧
      history.Numbers (m'.engine.blocks.map Block.id) ∧
      (∀ later earlier, history = later ++ earlier →
        ∃ stack count, Lifo [] 0 earlier stack count ∧ earlier.Numbers stack) ∧
      ∀ later id earlier, history = later ++ .closed id :: earlier →
        .closed id ∉ later ∧ ∃ fault, m'.closeBlock id = (.error fault, m') := by
  obtain ⟨blocks, opened⟩ := unopened
  have began : (m.recording []).Records [] 0 m := by
    refine ⟨[], rfl, ?_⟩
    rw [blocks, opened]
    exact .start
  -- The run with a history ends together with the one without it, and what it has noted is a
  -- history of the blocks that are open then.
  have both := program.recorded_run (evaluate_recorded host fuel) began
  rw [run] at both
  obtain ⟨-, ended⟩ | ⟨_, _, _, recorded, ended, history, rfl, lifo⟩ := both.cases
  · cases ended
  cases ended
  refine ⟨?_, lifo.closeBlock, history, recorded, lifo, lifo.numbers, ?_, ?_⟩
  · have standing := Callback.run_keeps (Q := fun m m' : Machine ν σ => m.engine.Standing m'.engine)
      (fun _ => .refl _) (fun _ _ _ first second => first.trans second)
      (fun _ _ _ _ _ => answer_standing (evaluate_standing host fuel))
      (.of_all (fun _ => trivial) program) run
    exact standing.globals
  · rintro later earlier rfl
    obtain ⟨stack, count, before⟩ := lifo.earlier
    exact ⟨stack, count, before, before.numbers⟩
  · rintro later id earlier rfl
    obtain ⟨-, away, none⟩ := lifo.gone
    refine ⟨none, ?_⟩
    rcases lifo.closeBlock id with ⟨first, -⟩ | ⟨-, refused⟩
    · exact absurd (List.mem_of_head? first) away
    · exact refused

/-- Two blocks are opened.  The lower one cannot be closed first, and once the upper one is closed its
number is of no use any more, also when a native has opened a third block where it stood. -/
theorem closed_blocks_never_come_back_reopened :
    let program : Callback SessionNative Notebook (List (Except BlockFault Unit)) := do
      let lower ← .request .openBlock
      let upper ← .request .openBlock
      let early ← .request (.closeBlock lower)
      let due ← .request (.closeBlock upper)
      let _ ← .request (.evaluate "open()")
      let stale ← .request (.closeBlock upper)
      return [early, due, stale]
    (Session.lone.engine.blocks = [] ∧ Session.lone.engine.opened = 0) ∧
      ∃ m', program.run (evaluate SessionNative.host 9) Session.lone =
          some (.ok [.error (.order 2 1), .ok (), .error (.order 3 2)], m') ∧
        ∃ fault, m'.closeBlock 2 = (.error fault, m') := by
  intro program
  have ended : (program.run (evaluate SessionNative.host 9) Session.lone).map Prod.fst =
      some (.ok [.error (.order 2 1), .ok (), .error (.order 3 2)]) := by
    decide +kernel
  have noted : (program.recorded.run (evaluate SessionNative.host.recorded 9)
      (Session.lone.recording [])).map (fun r => r.2.world.host.2) =
        some [.refused 2 (.order 3 2), .opened 3, .closed 2, .refused 1 (.order 2 1), .opened 2,
          .opened 1] := by
    decide +kernel
  obtain ⟨⟨_, m'⟩, run, rfl⟩ := Option.map_eq_some_iff.1 ended
  obtain ⟨-, -, history, recorded, -, -, -, gone⟩ :=
    closed_blocks_never_come_back SessionNative.host 9 program ⟨rfl, rfl⟩ run
  rw [recorded] at noted
  refine ⟨⟨rfl, rfl⟩, m', run, ?_⟩
  exact (gone [.refused 2 (.order 3 2), .opened 3] 2 [.refused 1 (.order 2 1), .opened 2, .opened 1]
    (Option.some.inj noted)).2

end ScriptEngine
