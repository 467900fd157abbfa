import ScriptEngine.Proofs.Token.Boundaries
import ScriptEngine.Proofs.Token.QuotedText

/-!
# Looking one character ahead

A reader that takes one character after the other has to read a character in order to look at it, and puts
it back if it does not belong to what is being read (`Cursor.accept`, `Cursor.readWhile`,
`Cursor.readDigits`).  A character that is put back has not been read (`Cursor.putBack_of_next?`), so each
of these readers stops right behind what it returns.
-/

namespace ScriptEngine

/-! ## Escapes -/

lemma Quotation.numberFrom_count (base value count most : Nat) (chars : List Char) :
    numberFrom base value count most chars = ((numberFrom base value 0 most chars).1,
      count + (numberFrom base value 0 most chars).2) := by
  induction chars generalizing value count most with
  | nil => cases most <;> rfl
  | cons c rest ih =>
    cases most with
    | zero => rfl
    | succ most =>
      simp only [numberFrom]
      cases digitIn? base c with
      | none => rfl
      | some digit =>
        simp only
        rw [ih, ih _ (0 + 1)]
        simp only [Nat.zero_add, Nat.add_assoc]

/-- An escape takes no more characters than there are. -/
lemma Quotation.Escape.length_le {chars : List Char} {value length : Nat}
    (escape : ofChars chars = .code value length) : length ≤ chars.length := by
  cases chars with
  | nil => cases escape
  | cons letter rest =>
    have high := number_le 16 2 rest
    have low := number_le 16 2 (rest.drop (number 16 2 rest).2)
    have octal := number_le 8 3 (letter :: rest)
    rw [List.length_drop] at low
    simp only [ofChars] at escape
    split at escape
    case h_11 =>
      split at escape
      · obtain ⟨-, rfl⟩ := Escape.code.inj escape
        exact octal
      · cases escape
    all_goals
      obtain ⟨-, rfl⟩ := Escape.code.inj escape
      simp only [List.length_cons]
      omega

lemma Quotation.decodeFrom_drop {quote : Char} {skip : Nat} {chars : List Char}
    (le : skip ≤ chars.length) (read : Nat) (value : List Char) :
    decodeFrom quote skip read value chars =
      decodeFrom quote 0 (read + skip) value (chars.drop skip) := by
  have front : decodeFrom quote _ read value _ = _ :=
    decodeFrom_skip (chars.take skip) (chars.drop skip) read value
  rwa [List.length_take_of_le le, List.take_append_drop] at front

/-! ## Gaps -/

namespace Gap

lemma lengthFrom_between (read : Nat) (chars : List Char) :
    lengthFrom .between 0 read chars = read + length chars := by
  have onward := lengthFrom_add read chars .between 0 0
  rwa [Nat.zero_add, Nat.add_comm] at onward

/-- A comment behind `//` belongs to the gap up to the end of the line, and reading goes on there. -/
lemma lengthFrom_lineComment (read : Nat) (chars : List Char) :
    lengthFrom .lineComment 0 read chars = read + (chars.takeWhile (· != '\n')).length +
      length (chars.drop (chars.takeWhile (· != '\n')).length) := by
  induction chars generalizing read with
  | nil => rfl
  | cons c chars ih =>
    rw [lengthFrom]
    split
    · next lineFeed => subst lineFeed; rfl
    · next inside =>
      rw [ih, List.takeWhile_cons_of_pos (by simpa using inside), List.length_cons,
        List.drop_succ_cons]
      omega

lemma length_lineComment (rest : List Char) : length ('/' :: '/' :: rest) =
    2 + (rest.takeWhile (· != '\n')).length +
      length (rest.drop (rest.takeWhile (· != '\n')).length) :=
  lengthFrom_lineComment 2 rest

lemma length_blockComment (rest : List Char) :
    length ('/' :: '*' :: rest) = lengthFrom (.blockComment 0) 0 2 rest :=
  rfl

/-- Nothing is left of a gap where neither a blank nor a comment stands. -/
lemma length_eq_zero {c : Char} {rest : List Char} (proper : isBlank c = false)
    (noComment : c = '/' → rest.head? ≠ some '/' ∧ rest.head? ≠ some '*') :
    length (c :: rest) = 0 := by
  rw [length, lengthFrom, if_neg (by simp [proper])]
  rw [if_neg fun opens => (noComment opens.1).1 opens.2]
  rw [if_neg fun opens => (noComment opens.1).2 opens.2]

end Gap

namespace Cursor

/-! ## Cursors -/

variable {c c' : Cursor} {ch : Char}

lemma ahead_of_next? (read : c.next? = some (ch, c')) : c.ahead = ch :: c'.ahead := by
  cases ahead : c.ahead with
  | nil => simp [next?_of_ahead_nil ahead] at read
  | cons first rest =>
    obtain ⟨_, same, -, -, -, behind⟩ := next?_of_ahead_cons ahead
    obtain ⟨rfl, rfl⟩ := Prod.mk.inj (Option.some.inj (same.symm.trans read))
    rw [behind]

lemma ahead_of_next?_eq_none (at_end : c.next? = none) : c.ahead = [] := by
  cases ahead : c.ahead with
  | nil => rfl
  | cons first rest =>
    obtain ⟨_, read, -⟩ := next?_of_ahead_cons ahead
    cases read.symm.trans at_end

lemma advance_one (read : c.next? = some (ch, c')) : c.advance 1 = c' := by
  simp only [advance, read]

lemma ahead_length_lt (read : c.next? = some (ch, c')) : c'.ahead.length < c.ahead.length := by
  rw [ahead_of_next? read]
  exact Nat.lt_succ_self _

lemma next?_advance {n : Nat} (read : (c.advance n).next? = some (ch, c')) :
    c.ahead.drop n = ch :: c.ahead.drop (n + 1) ∧ c' = c.advance (n + 1) ∧
      n + 1 ≤ c.ahead.length := by
  have ahead := ahead_of_next? read
  have onward := (advance_one read).symm
  rw [advance_advance] at onward
  rw [onward, ahead_advance, ahead_advance] at ahead
  refine ⟨ahead, onward, Nat.lt_of_not_le fun beyond => ?_⟩
  rw [List.drop_eq_nil_of_le beyond] at ahead
  cases ahead

/-- A character that is put back has not been read. -/
lemma putBack_of_next? (read : c.next? = some (ch, c')) : c'.putBack ch = c := by
  obtain ⟨_, same, text, position, line, -⟩ := next?_of_ahead_cons (ahead_of_next? read)
  obtain ⟨-, rfl⟩ := Prod.mk.inj (Option.some.inj (same.symm.trans read))
  refine Cursor.ext text ?_ ?_
  · simp only [putBack, moveTo, position, Nat.add_sub_cancel]
  · simp only [putBack, moveTo, line]
    split <;> simp

/-- Reads the next character if it is the expected one. -/
def accept (expected : Char) (c : Cursor) : Bool × Cursor :=
  match c.next? with
  | none => (false, c)
  | some (ch, onward) => if ch = expected then (true, onward) else (false, onward.putBack ch)

lemma accept_eq (expected : Char) (c : Cursor) : c.accept expected =
    if c.ahead.head? = some expected then (true, c.advance 1) else (false, c) := by
  rw [accept]
  rcases read : c.next? with _ | ⟨ch, onward⟩
  · simp [ahead_of_next?_eq_none read]
  · simp only [ahead_of_next? read, List.head?_cons, Option.some.injEq, advance_one read,
      putBack_of_next? read]

lemma accept_of_true {expected : Char} (accepted : (c.accept expected).1 = true) :
    c.accept expected = (true, c.advance 1) ∧ ∃ rest, c.ahead = expected :: rest := by
  rw [accept_eq] at accepted ⊢
  split at accepted
  · next follows => exact ⟨if_pos follows, List.head?_eq_some_iff.1 follows⟩
  · cases accepted

lemma accept_of_false {expected : Char} (refused : ¬ (c.accept expected).1 = true) :
    c.accept expected = (false, c) ∧ c.ahead.head? ≠ some expected := by
  rw [accept_eq] at refused ⊢
  split at refused
  · exact absurd rfl refused
  · next other => exact ⟨if_neg other, other⟩

/-- Both characters of a sign have been read. -/
lemma accept_behind {expected : Char} (read : c.next? = some (ch, c'))
    (accepted : (c'.accept expected).1 = true) :
    (c'.accept expected).2 = c.advance 2 ∧ ∃ rest, c.ahead = ch :: expected :: rest := by
  obtain ⟨both, rest, behind⟩ := accept_of_true accepted
  refine ⟨?_, rest, behind ▸ ahead_of_next? read⟩
  rw [both, ← advance_one read, advance_advance]

lemma accept_length_le (expected : Char) (c : Cursor) :
    (c.accept expected).2.ahead.length ≤ c.ahead.length := by
  rw [accept_eq]
  split
  · simp
  · exact Nat.le_refl _

/-- Reads characters as long as `p` holds of them. -/
def readWhile (p : Char → Bool) (c : Cursor) : List Char × Cursor :=
  match _ : c.next? with
  | none => ([], c)
  | some (ch, onward) =>
    if p ch then
      let more := onward.readWhile p
      (ch :: more.1, more.2)
    else
      ([], onward.putBack ch)
termination_by c.ahead.length
decreasing_by exact ahead_length_lt ‹_›

lemma readWhile_eq (p : Char → Bool) (c : Cursor) :
    c.readWhile p = (c.ahead.takeWhile p, c.advance (c.ahead.takeWhile p).length) := by
  fun_induction readWhile p c with
  | case1 c at_end => rw [ahead_of_next?_eq_none at_end]; rfl
  | case2 c ch onward read holds more ih =>
    rw [show more = onward.readWhile p from rfl, ih, ahead_of_next? read,
      List.takeWhile_cons_of_pos holds, List.length_cons, Nat.add_comm, ← advance_advance,
      advance_one read]
  | case3 c ch onward read fails =>
    rw [ahead_of_next? read, List.takeWhile_cons_of_neg (by simpa using fails), putBack_of_next? read]
    rfl

lemma readWhile_length_le (p : Char → Bool) (c : Cursor) :
    (c.readWhile p).2.ahead.length ≤ c.ahead.length := by
  rw [readWhile_eq]
  simp

/-- Passes over characters as long as `p` holds of the next one. -/
def skipWhile (p : Char → Bool) (c : Cursor) : Cursor :=
  if c.peek?.any p then
    match _ : c.next? with
    | none => c
    | some (_, onward) => onward.skipWhile p
  else
    c
termination_by c.ahead.length
decreasing_by exact ahead_length_lt ‹_›

lemma skipWhile_eq (p : Char → Bool) (c : Cursor) :
    c.skipWhile p = c.advance (c.ahead.takeWhile p).length := by
  fun_induction skipWhile p c with
  | case1 c looked at_end => rw [ahead_of_next?_eq_none at_end]; rfl
  | case2 c looked ch onward read ih =>
    have holds : p ch = true := by
      simpa [peek?, ahead_of_next? read] using looked
    rw [ih, ahead_of_next? read, List.takeWhile_cons_of_pos holds, List.length_cons, Nat.add_comm,
      ← advance_advance, advance_one read]
  | case3 c looked =>
    cases ahead : c.ahead with
    | nil => rfl
    | cons ch rest =>
      rw [List.takeWhile_cons_of_neg (by simpa [peek?, ahead] using looked)]
      rfl

/-- Reads up to `most` digits onto a number `value`. -/
def readDigits (base : Nat) : (most value : Nat) → Cursor → Nat × Cursor
  | 0, value, c => (value, c)
  | most + 1, value, c =>
    match c.next? with
    | none => (value, c)
    | some (ch, onward) =>
      match Quotation.digitIn? base ch with
      | some digit => readDigits base most (value * base + digit) onward
      | none => (value, onward.putBack ch)

lemma readDigits_eq (base most value : Nat) (c : Cursor) :
    c.readDigits base most value = ((Quotation.numberFrom base value 0 most c.ahead).1,
      c.advance (Quotation.numberFrom base value 0 most c.ahead).2) := by
  induction most generalizing value c with
  | zero => rfl
  | succ most ih =>
    rw [readDigits]
    rcases read : c.next? with _ | ⟨ch, onward⟩
    · rw [ahead_of_next?_eq_none read]
      rfl
    · rw [ahead_of_next? read, Quotation.numberFrom]
      cases digit : Quotation.digitIn? base ch with
      | none => simp only [putBack_of_next? read, digit]; rfl
      | some digit =>
        simp only [digit]
        rw [ih, Quotation.numberFrom_count base _ (0 + 1), ← advance_advance, advance_one read]

/-- Reads a comment that has been opened up to its end and over it.  Returns whether it has one. -/
def readComment (c : Cursor) : Bool × Cursor :=
  match _ : c.next? with
  | none => (false, c)
  | some (ch, onward) =>
    if ch = '*' then
      let looked := onward.accept '/'
      if looked.1 then looked else looked.2.readComment
    else
      onward.readComment
termination_by c.ahead.length
decreasing_by
  · exact (accept_length_le _ _).trans_lt (ahead_length_lt ‹_›)
  · exact ahead_length_lt ‹_›

/-- How reading the rest of a comment ends, and what the comment is to the gap.  One that is closed belongs
to it, and the gap goes on behind; one that is not is read to the end of the text, and the gap ends where
it opens. -/
inductive CommentRead (c : Cursor) : Bool × Cursor → Prop
  | closed {n : Nat} (le : n ≤ c.ahead.length)
    (gap : ∀ opened read, Gap.lengthFrom (.blockComment opened) 0 read c.ahead =
      read + n + Gap.length (c.ahead.drop n)) : CommentRead c (true, c.advance n)
  | unclosed (gap : ∀ opened read, Gap.lengthFrom (.blockComment opened) 0 read c.ahead = opened) :
    CommentRead c (false, c.advance c.ahead.length)

/-- Inside a comment a character that does not close it is read. -/
lemma CommentRead.inside (read : c.next? = some (ch, c'))
    (inside : ¬ (ch = '*' ∧ c'.ahead.head? = some '/')) {result : Bool × Cursor}
    (onward : CommentRead c' result) : CommentRead c result := by
  have ahead := ahead_of_next? read
  have step (opened from_ : Nat) : Gap.lengthFrom (.blockComment opened) 0 from_ c.ahead =
      Gap.lengthFrom (.blockComment opened) 0 (from_ + 1) c'.ahead := by
    rw [ahead, Gap.lengthFrom, if_neg inside]
  have place (n : Nat) : c'.advance n = c.advance (n + 1) := by
    rw [Nat.add_comm, ← advance_advance, advance_one read]
  cases onward with
  | @closed n le gap =>
    rw [place]
    refine .closed (by rw [ahead]; exact Nat.succ_le_succ le) fun opened from_ => ?_
    rw [step, gap, ahead, List.drop_succ_cons, Nat.add_assoc from_, Nat.add_comm 1]
  | unclosed gap =>
    rw [place, ← List.length_cons (a := ch), ← ahead]
    exact .unclosed fun opened from_ => (step opened from_).trans (gap opened _)

lemma readComment_commentRead (c : Cursor) : CommentRead c c.readComment := by
  fun_induction readComment c with
  | case1 c at_end =>
    have spent := ahead_of_next?_eq_none at_end
    have unclosed : CommentRead c (false, c.advance c.ahead.length) :=
      .unclosed fun _ _ => by rw [spent]; rfl
    rwa [spent] at unclosed
  | case2 c onward looked closes read =>
    obtain ⟨place, rest, ahead⟩ := accept_behind read closes
    have result : looked = (true, c.advance 2) := Prod.ext closes place
    rw [result]
    refine .closed (by simp [ahead]) fun opened from_ => ?_
    rw [ahead, Gap.lengthFrom, if_pos ⟨rfl, rfl⟩, Gap.lengthFrom, Gap.lengthFrom_between]
    rfl
  | case3 c onward looked noClose read ih =>
    obtain ⟨refused, noSign⟩ := accept_of_false noClose
    rw [show looked = _ from refused] at ih ⊢
    exact ih.inside read fun closes => noSign closes.2
  | case4 c ch onward read other ih => exact ih.inside read fun closes => other closes.1

lemma readComment_length_le (c : Cursor) : c.readComment.2.ahead.length ≤ c.ahead.length := by
  have read := readComment_commentRead c
  generalize c.readComment = result at read
  cases read <;> simp

end Cursor

end ScriptEngine
