import ScriptEngine.Proofs.Token.Scanner

/-!
# Reading the same again

A snapshot holds a place in the script and the token that was handed back there.  It holds nothing of the
registers in which a scanner keeps the start of the token that it is reading; when a snapshot is restored
they are left over from the last token that was read, wherever that was.

What can be observed of a scanner are the tokens and errors that it returns, its snapshots, and the
position and the line that it reports.  None of them ever shows what was left over
(`Reader.observe_scanner`): after a restore, whatever is done next is answered as it would have been
answered right after the save, and so it is when the snapshot is restored again
(`snapshots_replay`).
-/

namespace ScriptEngine

/-! ## What can be done with a reader -/

/-- What reads a script token by token and can be sent back to a snapshot. -/
class Reader (σ : Type) where
  next : TokenContext → σ → Except ScriptError Token × σ
  pushBack : Token → σ → σ
  save : σ → Lexer.Snapshot
  restore : Lexer.Snapshot → σ → σ
  /-- Where the next token starts if it was handed back, and else where reading goes on. -/
  position : σ → Nat
  line : σ → Nat

instance : Reader Lexer where
  next := Lexer.next
  pushBack := Lexer.pushBack
  save := Lexer.save
  restore := Lexer.restore
  position := Lexer.position
  line := Lexer.line

/-- Going back leaves the registers as they are. -/
instance : Reader Scanner where
  next := Scanner.next
  pushBack token s := { s with pending := some token }
  save s := ⟨s.cursor.mark, s.pending⟩
  restore snapshot s := { s with cursor := s.cursor.moveTo snapshot.mark, pending := snapshot.pending }
  position s := s.pending.elim s.cursor.position (·.span.start)
  line s := s.pending.elim s.cursor.line (·.span.line)

namespace Reader

inductive Operation
  | next (context : TokenContext)
  /-- Hands back a token, in place of any that was handed back before. -/
  | pushBack (token : Token)
  | save
  /-- Goes back to a snapshot, whenever it was taken. -/
  | restore (snapshot : Lexer.Snapshot)
  /-- Asks for the position and the line. -/
  | look

inductive Answer
  | read (result : Except ScriptError Token)
  | saved (snapshot : Lexer.Snapshot)
  | done

/-- What an operation shows: its answer, and the position and the line afterwards. -/
structure Observation where
  answer : Answer
  position : Nat
  line : Nat

variable {σ : Type} [Reader σ]

def carryOut : Operation → σ → Answer × σ
  | .next context, s => ((.read (next context s).1), (next context s).2)
  | .pushBack token, s => (.done, pushBack token s)
  | .save, s => (.saved (save s), s)
  | .restore snapshot, s => (.done, restore snapshot s)
  | .look, s => (.done, s)

/-- The reader after some operations. -/
def run (operations : List Operation) (s : σ) : σ :=
  operations.foldl (fun s operation => (carryOut operation s).2) s

/-- A client decides what to do next by all that it has seen so far, the latest observation first. -/
def Client : Type :=
  List Observation → Operation

/-- What a client has seen after `n` more operations. -/
def observe (client : Client) : (n : Nat) → (seen : List Observation) → σ → List Observation
  | 0, seen, _ => seen
  | n + 1, seen, s =>
    let answered := carryOut (client seen) s
    observe client n (⟨answered.1, position answered.2, line answered.2⟩ :: seen) answered.2

/-! ## Scanners and lexers -/

lemma position_lexer (s : Scanner) : position s.lexer = position s := by
  obtain ⟨cursor, _ | token, start, line⟩ := s <;> rfl

lemma line_lexer (s : Scanner) : line s.lexer = line s := by
  obtain ⟨cursor, _ | token, start, line⟩ := s <;> rfl

/-- An operation on a scanner is answered as on the lexer that it is without its registers. -/
lemma carryOut_scanner (operation : Operation) (s : Scanner) :
    (carryOut operation s).1 = (carryOut operation s.lexer).1 ∧
      (carryOut operation s).2.lexer = (carryOut operation s.lexer).2 := by
  cases operation with
  | next context =>
    obtain ⟨result, place⟩ := s.next_lexer context
    exact ⟨congrArg Answer.read result, place⟩
  | pushBack | save | restore | look => exact ⟨rfl, rfl⟩

lemma run_scanner (operations : List Operation) (s : Scanner) :
    (run operations s).lexer = run operations s.lexer := by
  induction operations generalizing s with
  | nil => rfl
  | cons operation operations ih =>
    rw [run, run, List.foldl_cons, List.foldl_cons, ← (carryOut_scanner operation s).2]
    exact ih _

/-- Whatever is done with a scanner, its registers are never seen. -/
lemma observe_scanner (client : Client) (n : Nat) (seen : List Observation) (s : Scanner) :
    observe client n seen s = observe client n seen s.lexer := by
  induction n generalizing seen s with
  | zero => rfl
  | succ n ih =>
    obtain ⟨answer, behind⟩ := carryOut_scanner (client seen) s
    rw [observe, observe, ih, ← behind, position_lexer, line_lexer, answer]

/-! ## Snapshots -/

lemma text_carryOut (operation : Operation) (l : Lexer) :
    (carryOut operation l).2.cursor.text = l.cursor.text := by
  cases operation with
  | next context => exact Lexer.text_next context l
  | pushBack | save | restore | look => rfl

lemma text_run (operations : List Operation) (l : Lexer) :
    (run operations l).cursor.text = l.cursor.text := by
  induction operations generalizing l with
  | nil => rfl
  | cons operation operations ih => exact (ih _).trans (text_carryOut operation l)

/-- A scanner that goes back to a snapshot, and does so again after each of some rounds of operations. -/
def rewind (snapshot : Lexer.Snapshot) (rounds : List (List Operation)) (s : Scanner) : Scanner :=
  rounds.foldl (fun s meanwhile => restore snapshot (run meanwhile s)) s

/-- But for its registers a scanner is each time what it was when the snapshot was taken. -/
lemma lexer_rewind (s : Scanner) (rounds : List (List Operation)) {now : Scanner}
    (same : now.lexer = s.lexer) : (rewind (save s) rounds now).lexer = s.lexer := by
  induction rounds generalizing now with
  | nil => exact same
  | cons meanwhile rounds ih =>
    refine ih ?_
    have text : (run meanwhile now).lexer.cursor.text = s.lexer.cursor.text := by
      rw [run_scanner, text_run, same]
    exact Lexer.restore_save text

end Reader

open Reader in
/-- Snapshots replay.  Take a scanner on any script after any operations, and save a snapshot.  Whatever
is done then, and however often the snapshot is restored in between, after the last restore a client sees
what it would have seen right after the save: the same tokens, the same errors, the same positions and
lines, whatever it does and however that depends on what it sees.  And what it sees is what it would see
of a lexer, which has no registers. -/
theorem snapshots_replay (script : String) (before : List Operation)
    (rounds : List (List Operation)) (client : Client) (n : Nat) :
    let s := run before (Scanner.ofScript script)
    observe client n [] (rewind (save s) rounds s) = observe client n [] s ∧
      observe client n [] s = observe client n [] (run before (Lexer.ofScript script)) := by
  intro s
  constructor
  · rw [observe_scanner, lexer_rewind s rounds rfl, ← observe_scanner]
  · rw [observe_scanner, run_scanner]
    rfl

end ScriptEngine
