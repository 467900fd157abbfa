import ScriptEngine.Proofs.Token.Location
import ScriptEngine.Proofs.Token.Lookahead

/-!
# A source that keeps a record

Of a cursor one sees only where it stands, and not how it came there.  A `Source` is a cursor that also
keeps a record of what was done with it, each access with the place at which it was made.

`Deed.Fair` says what may be asked of the text at a place.  Most of it concerns the place alone; a
character may be put back only right after it has been read.  A `FairRecord` leaves nothing out: each
access is made where the one before has led.  The readers that look one character ahead come to the same
place with a record as without one, and whatever they do is fair (`Source.Does`).
-/

namespace ScriptEngine

/-- What is done with a text that is being read. -/
inductive Access
  | next (result : Option Char)
  | putBack (ch : Char)
  /-- Takes the characters from `first` up to but not including `stop`. -/
  | slice (first stop : Nat)
  /-- Asks for the place `n` characters back. -/
  | back (n : Nat)
  | moveTo (m : Mark)

/-- An access, and the place at which it was made. -/
structure Deed where
  place : Mark
  access : Access

/-- The place is in the text, and the line is that of its position. -/
structure Mark.Located (text : List Char) (m : Mark) : Prop where
  inside : m.position ≤ text.length
  line : m.line = lineAt text m.position

/-- The place behind a character. -/
def Mark.behind (ch : Char) (m : Mark) : Mark :=
  ⟨m.position + 1, if ch = '\n' then m.line + 1 else m.line⟩

/-- Where the access leads. -/
def Deed.after (e : Deed) : Mark :=
  match e.access with
  | .next (some ch) => e.place.behind ch
  | .putBack ch => ⟨e.place.position - 1, if ch = '\n' then e.place.line - 1 else e.place.line⟩
  | .moveTo m => m
  | .next none | .slice _ _ | .back _ => e.place

/-- Where what has been done so far leads, the latest first; nothing leads away from the start. -/
def placeAfter : List Deed → Mark
  | [] => ⟨0, 1⟩
  | e :: _ => e.after

/-- It may be done after what was done earlier, the latest first.  What is read is the character at the
place.  What is put back is the character that was read right before; neither the position nor the line
falls below zero.  What is taken out lies in the text, and so does every place that is asked for or gone
to. -/
def Deed.Fair (text : List Char) (earlier : List Deed) (e : Deed) : Prop :=
  match e.access with
  | .next result => result = text[e.place.position]?
  | .putBack ch =>
    earlier.head?.map Deed.access = some (.next (some ch)) ∧
      0 < e.place.position ∧ (ch = '\n' → 0 < e.place.line)
  | .slice first stop => first ≤ stop ∧ stop ≤ text.length
  | .back n => n ≤ e.place.position
  | .moveTo m => m.Located text

/-- Everything on record, the latest first, was fair, and was done in the text at the place where what is
before it leads. -/
inductive FairRecord (text : List Char) : List Deed → Prop
  | nil : FairRecord text []
  | cons {e : Deed} {earlier : List Deed} (place : e.place = placeAfter earlier)
    (located : e.place.Located text) (fair : e.Fair text earlier) (rest : FairRecord text earlier) :
    FairRecord text (e :: earlier)

namespace Cursor.Located

variable {text : List Char} {c onward : Cursor} {ch : Char}

lemma mark (located : c.Located text) : c.mark.Located text :=
  ⟨located.inside, located.line⟩

lemma moveTo {m : Mark} (located : c.Located text) (place : m.Located text) :
    (c.moveTo m).Located text :=
  ⟨located.text_eq, place.inside, place.line⟩

lemma head?_ahead (located : c.Located text) : c.ahead.head? = text[c.position]? := by
  rw [c.ahead_eq, located.text_eq, List.head?_drop]

lemma next? (located : c.Located text) (read : c.next? = some (ch, onward)) :
    onward.Located text ∧ onward.mark = c.mark.behind ch := by
  have ahead := ahead_of_next? read
  obtain ⟨_, same, -, position, line, -⟩ := next?_of_ahead_cons ahead
  obtain ⟨-, rfl⟩ := Prod.mk.inj (Option.some.inj (same.symm.trans read))
  refine ⟨?_, Mark.mk.injEq .. ▸ ⟨position, line⟩⟩
  rw [← advance_one read]
  exact located.advance (by simp [ahead])

end Cursor.Located

namespace Cursor

/-! ## Readers by their first character -/

lemma readWhile_step (p : Char → Bool) (c : Cursor) : c.readWhile p =
    match c.next? with
    | none => ([], c)
    | some (ch, onward) =>
      if p ch then (ch :: (onward.readWhile p).1, (onward.readWhile p).2)
      else ([], onward.putBack ch) := by
  rw [readWhile]
  split <;> simp only [*]

lemma skipWhile_step (p : Char → Bool) (c : Cursor) : c.skipWhile p =
    if c.peek?.any p then
      match c.next? with
      | none => c
      | some (_, onward) => onward.skipWhile p
    else
      c := by
  rw [skipWhile]
  congr 1
  split <;> simp only [*]

lemma readComment_step (c : Cursor) : c.readComment =
    match c.next? with
    | none => (false, c)
    | some (ch, onward) =>
      if ch = '*' then
        if (onward.accept '/').1 then onward.accept '/' else (onward.accept '/').2.readComment
      else
        onward.readComment := by
  rw [readComment]
  split <;> simp only [*]

end Cursor

/-- A text that is being read, and a record of what was done with it, the latest first. -/
structure Source where
  cursor : Cursor
  record : List Deed := []

namespace Source

/-! ## What is recorded -/

/-- The source with one more access on record, and the cursor where it leads. -/
def note (access : Access) (cursor : Cursor) (s : Source) : Source :=
  ⟨cursor, ⟨s.cursor.mark, access⟩ :: s.record⟩

/-- Reads the next character, if there is one. -/
def next (s : Source) : Option Char × Source :=
  match s.cursor.next? with
  | none => (none, s.note (.next none) s.cursor)
  | some (ch, onward) => (some ch, s.note (.next (some ch)) onward)

def putBack (ch : Char) (s : Source) : Source :=
  s.note (.putBack ch) (s.cursor.putBack ch)

def slice (first stop : Nat) (s : Source) : List Char × Source :=
  (s.cursor.slice first stop, s.note (.slice first stop) s.cursor)

/-- The place `n` characters back. -/
def back (n : Nat) (s : Source) : Nat × Source :=
  (s.cursor.position - n, s.note (.back n) s.cursor)

def moveTo (m : Mark) (s : Source) : Source :=
  s.note (.moveTo m) (s.cursor.moveTo m)

variable {text : List Char} {n : Nat} {s s' : Source} {ch : Char}

lemma next_eq_none (read : s.next = (none, s')) :
    s.cursor.next? = none ∧ s' = s.note (.next none) s.cursor := by
  unfold next at read
  split at read
  · next spent => exact ⟨spent, (Prod.mk.inj read).2.symm⟩
  · cases (Prod.mk.inj read).1

lemma next_eq_some (read : s.next = (some ch, s')) :
    s.cursor.next? = some (ch, s'.cursor) ∧ s' = s.note (.next (some ch)) s'.cursor := by
  unfold next at read
  split at read
  · cases (Prod.mk.inj read).1
  · next first onward here =>
    obtain ⟨⟨⟩, rfl⟩ := Prod.mk.inj read
    exact ⟨here, rfl⟩

lemma ahead_length_lt (read : s.next = (some ch, s')) :
    s'.cursor.ahead.length < s.cursor.ahead.length :=
  Cursor.ahead_length_lt (next_eq_some read).1

lemma cursor_putBack (read : s.next = (some ch, s')) : (s'.putBack ch).cursor = s.cursor :=
  Cursor.putBack_of_next? (next_eq_some read).1

/-! ## What is sound -/

/-- The source stands in the text, at `n` or behind it, where what is on record leads, and all of that was
fair. -/
structure Sound (text : List Char) (n : Nat) (s : Source) : Prop where
  cursor : s.cursor.Located text
  record : FairRecord text s.record
  place : s.cursor.mark = placeAfter s.record
  onward : n ≤ s.cursor.position

namespace Sound

lemma mono {m : Nat} (sound : s.Sound text n) (le : m ≤ n) : s.Sound text m :=
  { sound with onward := le.trans sound.onward }

/-- One more access, if it is fair and leads to where the cursor is in the text. -/
lemma note {cursor : Cursor} (sound : s.Sound text n) (access : Access)
    (fair : Deed.Fair text s.record ⟨s.cursor.mark, access⟩) (located : cursor.Located text)
    (place : cursor.mark = Deed.after ⟨s.cursor.mark, access⟩) :
    (s.note access cursor).Sound text cursor.position :=
  ⟨located, .cons sound.place sound.cursor.mark fair sound.record, place, Nat.le_refl _⟩

lemma next_none (sound : s.Sound text n) (read : s.next = (none, s')) : s'.Sound text n := by
  obtain ⟨spent, rfl⟩ := next_eq_none read
  have nothing : none = text[s.cursor.position]? := by
    rw [← sound.cursor.head?_ahead, Cursor.ahead_of_next?_eq_none spent]
    rfl
  exact (sound.note (.next none) nothing sound.cursor rfl).mono sound.onward

lemma next (sound : s.Sound text n) (read : s.next = (some ch, s')) : s'.Sound text (n + 1) := by
  obtain ⟨here, noted⟩ := next_eq_some read
  obtain ⟨located, place⟩ := sound.cursor.next? here
  have character : some ch = text[s.cursor.position]? := by
    rw [← sound.cursor.head?_ahead, Cursor.ahead_of_next? here]
    rfl
  have position : s'.cursor.position = s.cursor.position + 1 := congrArg Mark.position place
  rw [noted]
  refine (sound.note (.next (some ch)) character located place).mono ?_
  rw [position]
  exact Nat.succ_le_succ sound.onward

/-- What has just been read may be put back. -/
lemma putBack (sound : s.Sound text n) (read : s.next = (some ch, s')) :
    (s'.putBack ch).Sound text n := by
  have behind := sound.next read
  have same := cursor_putBack read
  have fair : Deed.Fair text s'.record ⟨s'.cursor.mark, .putBack ch⟩ := by
    refine ⟨?_, Nat.lt_of_lt_of_le (Nat.succ_pos n) behind.onward, fun _ => ?_⟩
    · rw [(next_eq_some read).2]
      rfl
    · rw [behind.cursor.mark.line]
      exact Nat.succ_pos _
  have located : (s'.putBack ch).cursor.Located text := by
    rw [same]
    exact sound.cursor
  refine (behind.note (.putBack ch) fair located rfl).mono ?_
  rw [same]
  exact sound.onward

lemma slice (sound : s.Sound text n) {first stop : Nat} (le : first ≤ stop)
    (inside : stop ≤ text.length) : (s.slice first stop).2.Sound text n :=
  (sound.note (.slice first stop) ⟨le, inside⟩ sound.cursor rfl).mono sound.onward

lemma back (sound : s.Sound text n) {m : Nat} (le : m ≤ n) : (s.back m).2.Sound text n :=
  (sound.note (.back m) (le.trans sound.onward) sound.cursor rfl).mono sound.onward

lemma moveTo (sound : s.Sound text n) {m : Mark} (place : m.Located text) :
    (s.moveTo m).Sound text m.position :=
  sound.note (.moveTo m) place (sound.cursor.moveTo place) rfl

end Sound

/-- What a reader did on a source is what it does on the cursor alone, and all of it was fair: wherever the
source had come to, it is there or behind it. -/
structure Does {α : Type} (s : Source) (did : α × Source) (alone : α × Cursor) : Prop where
  same : (did.1, did.2.cursor) = alone
  sound : ∀ {text n}, s.Sound text n → did.2.Sound text n

namespace Does

variable {α β : Type} {did : α × Source} {alone : α × Cursor}

lemma nothing (a : α) (s : Source) : Does s (a, s) (a, s.cursor) :=
  ⟨rfl, id⟩

lemma atEnd (read : s.next = (none, s')) (a : α) : Does s (a, s') (a, s.cursor) := by
  refine ⟨?_, fun sound => sound.next_none read⟩
  rw [(next_eq_none read).2]
  rfl

lemma handedBack (read : s.next = (some ch, s')) (a : α) :
    Does s (a, s'.putBack ch) (a, s'.cursor.putBack ch) :=
  ⟨rfl, fun sound => sound.putBack read⟩

lemma onward (read : s.next = (some ch, s')) (does : Does s' did alone) : Does s did alone :=
  ⟨does.same, fun sound => does.sound ((sound.next read).mono (Nat.le_succ _))⟩

lemma andThen {first : β × Source} {firstAlone : β × Cursor} (before : Does s first firstAlone)
    (does : Does first.2 did alone) : Does s did alone :=
  ⟨does.same, fun sound => does.sound (before.sound sound)⟩

lemma cursor_eq (does : Does s did alone) : did.2.cursor = alone.2 :=
  congrArg Prod.snd does.same

lemma result_eq (does : Does s did alone) : did.1 = alone.1 :=
  congrArg Prod.fst does.same

lemma map (f : α → β) (does : Does s did alone) :
    Does s (f did.1, did.2) (f alone.1, alone.2) :=
  ⟨by rw [does.result_eq, does.cursor_eq], does.sound⟩

end Does

/-! ## Readers that look ahead -/

/-- Reads the next character if it is the expected one. -/
def accept (expected : Char) (s : Source) : Bool × Source :=
  match s.next with
  | (none, s) => (false, s)
  | (some ch, onward) => if ch = expected then (true, onward) else (false, onward.putBack ch)

/-- Reads characters as long as `p` holds of them. -/
def readWhile (p : Char → Bool) (s : Source) : List Char × Source :=
  match _ : s.next with
  | (none, s) => ([], s)
  | (some ch, onward) =>
    if p ch then
      let more := onward.readWhile p
      (ch :: more.1, more.2)
    else
      ([], onward.putBack ch)
termination_by s.cursor.ahead.length
decreasing_by exact ahead_length_lt ‹_›

/-- Passes over characters as long as `p` holds of the next one. -/
def skipWhile (p : Char → Bool) (s : Source) : Source :=
  if s.cursor.peek?.any p then
    match _ : s.next with
    | (none, s) => s
    | (some _, onward) => onward.skipWhile p
  else
    s
termination_by s.cursor.ahead.length
decreasing_by exact ahead_length_lt ‹_›

/-- Reads up to `most` digits onto a number `value`. -/
def readDigits (base : Nat) : (most value : Nat) → Source → Nat × Source
  | 0, value, s => (value, s)
  | most + 1, value, s =>
    match s.next with
    | (none, s) => (value, s)
    | (some ch, onward) =>
      match Quotation.digitIn? base ch with
      | some digit => readDigits base most (value * base + digit) onward
      | none => (value, onward.putBack ch)

lemma accept_does (expected : Char) (s : Source) :
    Does s (s.accept expected) (s.cursor.accept expected) := by
  unfold accept Cursor.accept
  split
  · next s' read =>
    rw [(next_eq_none read).1]
    exact .atEnd read false
  · next ch onward read =>
    rw [(next_eq_some read).1]
    by_cases expects : ch = expected
    · simp only [if_pos expects]
      exact .onward read (.nothing true onward)
    · simp only [if_neg expects]
      exact .handedBack read false

lemma accept_length_le (expected : Char) (s : Source) :
    (s.accept expected).2.cursor.ahead.length ≤ s.cursor.ahead.length := by
  rw [(accept_does expected s).cursor_eq]
  exact Cursor.accept_length_le expected s.cursor

/-- Reads a comment that has been opened up to its end and over it.  Returns whether it has one. -/
def readComment (s : Source) : Bool × Source :=
  match _ : s.next with
  | (none, s) => (false, s)
  | (some ch, onward) =>
    if ch = '*' then
      let looked := onward.accept '/'
      if looked.1 then looked else looked.2.readComment
    else
      onward.readComment
termination_by s.cursor.ahead.length
decreasing_by
  · exact (accept_length_le _ _).trans_lt (ahead_length_lt ‹_›)
  · exact ahead_length_lt ‹_›

/-! ## The same without a record -/

lemma readWhile_does (p : Char → Bool) (s : Source) :
    Does s (s.readWhile p) (s.cursor.readWhile p) := by
  fun_induction readWhile p s with
  | case1 s s' read =>
    rw [Cursor.readWhile_step, (next_eq_none read).1]
    exact .atEnd read []
  | case2 s ch onward read holds more ih =>
    simp only [Cursor.readWhile_step p s.cursor, (next_eq_some read).1, if_pos holds]
    exact .onward read (ih.map (ch :: ·))
  | case3 s ch onward read fails =>
    simp only [Cursor.readWhile_step p s.cursor, (next_eq_some read).1, if_neg fails]
    exact .handedBack read []

lemma skipWhile_does (p : Char → Bool) (s : Source) :
    Does s ((), s.skipWhile p) ((), s.cursor.skipWhile p) := by
  fun_induction skipWhile p s with
  | case1 s looked s' read =>
    rw [Cursor.skipWhile_step, if_pos looked, (next_eq_none read).1]
    exact .atEnd read ()
  | case2 s looked ch onward read ih =>
    rw [Cursor.skipWhile_step, if_pos looked, (next_eq_some read).1]
    exact .onward read ih
  | case3 s looked =>
    rw [Cursor.skipWhile_step, if_neg looked]
    exact .nothing () s

lemma readDigits_does (base most value : Nat) (s : Source) :
    Does s (s.readDigits base most value) (s.cursor.readDigits base most value) := by
  induction most generalizing value s with
  | zero => exact .nothing value s
  | succ most ih =>
    unfold readDigits Cursor.readDigits
    split
    · next s' read =>
      rw [(next_eq_none read).1]
      exact .atEnd read value
    · next ch onward read =>
      rw [(next_eq_some read).1]
      dsimp only
      cases Quotation.digitIn? base ch with
      | some digit => exact .onward read (ih _ onward)
      | none => exact .handedBack read value

lemma readComment_does (s : Source) : Does s s.readComment s.cursor.readComment := by
  fun_induction readComment s with
  | case1 s s' read =>
    rw [Cursor.readComment_step, (next_eq_none read).1]
    exact .atEnd read false
  | case2 s onward looked closes read =>
    have does := accept_does '/' onward
    simp only [Cursor.readComment_step s.cursor, (next_eq_some read).1, if_true, ← does.result_eq]
    rw [if_pos closes]
    exact .onward read does
  | case3 s onward looked noClose read ih =>
    have does := accept_does '/' onward
    simp only [Cursor.readComment_step s.cursor, (next_eq_some read).1, if_true, ← does.result_eq,
      ← does.cursor_eq]
    rw [if_neg noClose]
    exact .onward read (does.andThen ih)
  | case4 s ch onward read inside ih =>
    simp only [Cursor.readComment_step s.cursor, (next_eq_some read).1, if_neg inside]
    exact .onward read ih

lemma readWhile_length_le (p : Char → Bool) (s : Source) :
    (s.readWhile p).2.cursor.ahead.length ≤ s.cursor.ahead.length := by
  rw [(readWhile_does p s).cursor_eq]
  exact Cursor.readWhile_length_le p s.cursor

lemma readComment_length_le (s : Source) :
    s.readComment.2.cursor.ahead.length ≤ s.cursor.ahead.length := by
  rw [(readComment_does s).cursor_eq]
  exact Cursor.readComment_length_le s.cursor

end Source
end ScriptEngine
