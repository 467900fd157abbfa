/-!
# A cursor over a text

A cursor stands between two characters of a text and knows the line it is on.  Reading a character
moves it forward; it can be sent back to any mark taken before, and indeed to any place at all.

The characters ahead of the cursor are kept at hand, so that reading does not walk over the text
again; `ahead_eq` says that they are what the position says they are.

`advance` moves over several characters at once.  Its effect is given by `ahead_advance`,
`position_advance` and `line_advance`: the line grows by the line feeds passed over.
-/

namespace ScriptEngine

/-- A place in a text: how many characters lie before it, and which line it is on. -/
structure Mark where
  position : Nat
  line : Nat
deriving DecidableEq, Repr, Inhabited

/-- A place in a text together with the text. -/
structure Cursor where
  text : List Char
  position : Nat := 0
  line : Nat := 1
  ahead : List Char := text.drop position
  ahead_eq : ahead = text.drop position := by rfl

namespace Cursor

/-- A cursor in front of the first character. -/
def start (text : List Char) : Cursor :=
  { text, ahead := text }

@[simp] theorem text_start (text : List Char) : (start text).text = text := rfl

@[simp] theorem position_start (text : List Char) : (start text).position = 0 := rfl

@[simp] theorem line_start (text : List Char) : (start text).line = 1 := rfl

@[simp] theorem ahead_start (text : List Char) : (start text).ahead = text := rfl

@[ext] theorem ext {a b : Cursor} (text : a.text = b.text) (position : a.position = b.position)
    (line : a.line = b.line) : a = b := by
  obtain ⟨ta, pa, la, aa, ha⟩ := a
  obtain ⟨tb, pb, lb, ab, hb⟩ := b
  subst text position line ha hb
  rfl

/-- The next character, left unread. -/
def peek? (c : Cursor) : Option Char :=
  c.ahead.head?

theorem drop_succ_of_drop_eq_cons {text rest : List Char} {n : Nat} {ch : Char}
    (h : ch :: rest = text.drop n) : rest = text.drop (n + 1) := by
  rw [← List.drop_drop, ← h]
  rfl

/-- Reads the next character, if there is one. -/
def next? (c : Cursor) : Option (Char × Cursor) :=
  match h : c.ahead with
  | [] => none
  | ch :: rest =>
    some (ch, {
      text := c.text
      position := c.position + 1
      line := if ch = '\n' then c.line + 1 else c.line
      ahead := rest
      ahead_eq := drop_succ_of_drop_eq_cons (h ▸ c.ahead_eq) })

/-- Reads up to `n` characters. -/
def advance : Nat → Cursor → Cursor
  | 0, c => c
  | n + 1, c =>
    match c.next? with
    | none => c
    | some (_, c) => advance n c

/-- Where the cursor stands. -/
def mark (c : Cursor) : Mark :=
  ⟨c.position, c.line⟩

/-- The cursor sent to a mark.  The mark need not lie in the text. -/
def moveTo (m : Mark) (c : Cursor) : Cursor :=
  { text := c.text, position := m.position, line := m.line }

/-- Unreads `ch`, the character read last. -/
def putBack (ch : Char) (c : Cursor) : Cursor :=
  c.moveTo ⟨c.position - 1, if ch = '\n' then c.line - 1 else c.line⟩

/-- The characters from `start` up to but not including `stop`, as far as the text goes. -/
def slice (first stop : Nat) (c : Cursor) : List Char :=
  (c.text.take stop).drop (min first stop)

/-! ## What `advance` does -/

theorem next?_of_ahead_nil {c : Cursor} (h : c.ahead = []) : c.next? = none := by
  unfold next?
  split
  · rfl
  · simp_all

theorem next?_of_ahead_cons {c : Cursor} {ch : Char} {rest : List Char}
    (h : c.ahead = ch :: rest) : ∃ c', c.next? = some (ch, c') ∧ c'.text = c.text ∧
      c'.position = c.position + 1 ∧ c'.line = (if ch = '\n' then c.line + 1 else c.line) ∧
      c'.ahead = rest := by
  unfold next?
  split
  · simp_all
  · next ch' rest' h' =>
    obtain ⟨rfl, rfl⟩ := List.cons.inj (h'.symm.trans h)
    exact ⟨_, rfl, rfl, rfl, rfl, rfl⟩

@[simp] theorem text_advance (n : Nat) (c : Cursor) : (c.advance n).text = c.text := by
  induction n generalizing c with
  | zero => rfl
  | succ n ih =>
    cases h : c.ahead with
    | nil => simp [advance, next?_of_ahead_nil h]
    | cons ch rest =>
      obtain ⟨c', hc, ht, _⟩ := next?_of_ahead_cons h
      simp [advance, hc, ih, ht]

@[simp] theorem ahead_advance (n : Nat) (c : Cursor) : (c.advance n).ahead = c.ahead.drop n := by
  induction n generalizing c with
  | zero => rfl
  | succ n ih =>
    cases h : c.ahead with
    | nil => simp [advance, next?_of_ahead_nil h, h]
    | cons ch rest =>
      obtain ⟨c', hc, _, _, _, ha⟩ := next?_of_ahead_cons h
      simp [advance, hc, ih, ha]

theorem position_advance {n : Nat} {c : Cursor} (h : n ≤ c.ahead.length) :
    (c.advance n).position = c.position + n := by
  induction n generalizing c with
  | zero => rfl
  | succ n ih =>
    cases hc : c.ahead with
    | nil => simp [hc] at h
    | cons ch rest =>
      obtain ⟨c', hn, _, hp, _, ha⟩ := next?_of_ahead_cons hc
      simp only [hc, List.length_cons] at h
      simp only [advance, hn]
      rw [ih (by rw [ha]; omega), hp]
      omega

theorem line_advance (n : Nat) (c : Cursor) :
    (c.advance n).line = c.line + (c.ahead.take n).count '\n' := by
  induction n generalizing c with
  | zero => simp [advance]
  | succ n ih =>
    cases h : c.ahead with
    | nil => simp [advance, next?_of_ahead_nil h]
    | cons ch rest =>
      obtain ⟨c', hc, _, _, hl, ha⟩ := next?_of_ahead_cons h
      simp only [advance, hc, ih, ha, hl, List.take_succ_cons, List.count_cons]
      by_cases hch : ch = '\n'
      · simp only [hch, if_true, beq_self_eq_true]
        omega
      · simp [hch]

end Cursor
end ScriptEngine
