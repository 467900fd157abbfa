import ScriptEngine.Proofs.Token.Lexing

/-!
# Reading in front of a line feed

What is read off the front of a text stays the same when a line feed and more text are put behind:
no name, number, operator, escape or gap goes on over a line feed.  The exceptions are a comment and
a quoted text that are not closed in the first text; reading them fails there.
-/

namespace ScriptEngine

variable {more : List Char}

lemma head?_append_cons {c stop : Char} (h : c ≠ stop) (chars more : List Char) :
    (chars ++ stop :: more).head? = some c ↔ chars.head? = some c := by
  cases chars with
  | nil => simp [h.symm]
  | cons d chars => simp

lemma takeWhile_append_cons {p : Char → Bool} {stop : Char} (h : p stop = false)
    (chars more : List Char) : (chars ++ stop :: more).takeWhile p = chars.takeWhile p := by
  induction chars with
  | nil => simp [h]
  | cons c chars ih => simp [List.takeWhile_cons, ih]

lemma isPrefixOf_append_cons {front : List Char} {stop : Char} (h : stop ∉ front)
    (chars more : List Char) :
    front.isPrefixOf (chars ++ stop :: more) = front.isPrefixOf chars := by
  induction front generalizing chars with
  | nil => simp
  | cons c front ih =>
    simp only [List.mem_cons, not_or] at h
    cases chars with
    | nil => simp [List.isPrefixOf, Ne.symm h.1]
    | cons d chars => simp [List.isPrefixOf, ih h.2]

/-! ## Gaps -/

namespace Gap

/-- A comment opens that may never be closed. -/
def OpensComment (chars : List Char) : Prop :=
  chars.head? = some '/' ∧ chars.tail.head? = some '*'

lemma lengthFrom_append (chars : List Char) (mode : Mode) (skip read : Nat)
    (enough : skip ≤ chars.length) :
    lengthFrom mode skip read (chars ++ '\n' :: more) = lengthFrom mode skip read chars ∨
      (∃ opened, mode = .blockComment opened ∧ lengthFrom mode skip read chars = opened) ∨
      read ≤ lengthFrom mode skip read chars ∧
        OpensComment (chars.drop (lengthFrom mode skip read chars - read)) := by
  induction chars generalizing mode skip read with
  | nil =>
    obtain rfl : skip = 0 := by simpa using enough
    cases mode with
    | between => exact .inl (by simp [lengthFrom, isBlank])
    | lineComment => exact .inl (by simp [lengthFrom])
    | blockComment opened => exact .inr (.inl ⟨opened, rfl, rfl⟩)
  | cons c rest ih =>
    -- Whatever the rest turns out to be holds of the whole, one character further on.
    have onward {mode' : Mode} {skip' : Nat} (enough : skip' ≤ rest.length)
        (comment : ∀ opened, mode' = .blockComment opened →
          mode = .blockComment opened ∨ opened = read ∧ OpensComment (c :: rest)) :
        lengthFrom mode' skip' (read + 1) (rest ++ '\n' :: more) =
            lengthFrom mode' skip' (read + 1) rest ∨
          (∃ opened, mode = .blockComment opened ∧
            lengthFrom mode' skip' (read + 1) rest = opened) ∨
          read ≤ lengthFrom mode' skip' (read + 1) rest ∧
            OpensComment ((c :: rest).drop (lengthFrom mode' skip' (read + 1) rest - read)) := by
      rcases ih mode' skip' (read + 1) enough with same | ⟨opened, is, eq⟩ | ⟨le, opens⟩
      · exact .inl same
      · rcases comment opened is with before | ⟨rfl, opens⟩
        · exact .inr (.inl ⟨opened, before, eq⟩)
        · rw [eq]
          exact .inr (.inr ⟨Nat.le_refl _, by simpa using opens⟩)
      · refine .inr (.inr ⟨by omega, ?_⟩)
        obtain ⟨n, eq⟩ : ∃ n, lengthFrom mode' skip' (read + 1) rest = read + 1 + n :=
          ⟨_, (Nat.add_sub_cancel' le).symm⟩
        rw [eq] at opens ⊢
        rw [Nat.add_sub_cancel_left] at opens
        rw [show read + 1 + n - read = n + 1 by omega, List.drop_succ_cons]
        exact opens
    have slash := head?_append_cons (show '/' ≠ '\n' by decide) rest more
    have star := head?_append_cons (show '*' ≠ '\n' by decide) rest more
    have present {c' : Char} (h : rest.head? = some c') : 1 ≤ rest.length := by
      cases rest <;> simp at h ⊢
    -- A line feed opens and closes no comment, so what is looked for in the second place is found
    -- in the longer text only where it was found already.
    simp only [List.length_cons] at enough
    rw [List.cons_append]
    cases skip with
    | succ skip => exact onward (by omega) fun opened is => .inl is
    | zero =>
      cases mode with
      | between =>
        simp only [lengthFrom, slash, star]
        split
        · exact onward (Nat.zero_le _) (by simp)
        split
        · next opens => exact onward (present opens.2) (by simp)
        split
        · next opens => exact onward (present opens.2) (by simp [OpensComment, opens])
        · exact .inl rfl
      | lineComment =>
        simp only [lengthFrom]
        split
        · exact .inl rfl
        · exact onward (Nat.zero_le _) (by simp)
      | blockComment opened =>
        simp only [lengthFrom, slash]
        split
        · next closes => exact onward (present closes.2) (by simp)
        · exact onward (Nat.zero_le _) (by simp)

/-- A gap ends where it ended, unless a comment is opened there and never closed. -/
lemma length_append {chars : List Char} (closed : ¬ OpensComment (chars.drop (length chars))) :
    length (chars ++ '\n' :: more) = length chars := by
  rcases lengthFrom_append chars .between 0 0 (Nat.zero_le _) with
    same | ⟨_, ⟨⟩, _⟩ | ⟨_, opens⟩
  · exact same
  · exact absurd opens closed

end Gap

/-! ## Quoted texts -/

namespace Quotation

lemma digitIn?_lineFeed (base : Nat) : digitIn? base '\n' = none := by
  simp [digitIn?]

lemma numberFrom_append (base value count most : Nat) (chars : List Char) :
    numberFrom base value count most (chars ++ '\n' :: more) =
      numberFrom base value count most chars := by
  induction chars generalizing value count most with
  | nil => cases most <;> simp [numberFrom, digitIn?_lineFeed]
  | cons c rest ih =>
    cases most with
    | zero => rfl
    | succ most =>
      rw [List.cons_append, numberFrom, numberFrom]
      cases digitIn? base c with
      | none => rfl
      | some digit => exact ih _ _ _

lemma number_append (base most : Nat) (chars more : List Char) :
    number base most (chars ++ '\n' :: more) = number base most chars :=
  numberFrom_append base 0 0 most chars

/-- No more digits are read than there are. -/
lemma numberFrom_le (base value count most : Nat) (chars : List Char) :
    (numberFrom base value count most chars).2 ≤ count + chars.length := by
  induction chars generalizing value count most with
  | nil => cases most <;> simp [numberFrom]
  | cons c rest ih =>
    cases most with
    | zero => simp [numberFrom]
    | succ most =>
      rw [numberFrom]
      cases digitIn? base c with
      | none => simp
      | some digit =>
        have := ih (value * base + digit) (count + 1) most
        simp only [List.length_cons]
        omega

lemma number_le (base most : Nat) (chars : List Char) :
    (number base most chars).2 ≤ chars.length := by
  have := numberFrom_le base 0 0 most chars
  rwa [Nat.zero_add] at this

lemma escape_append {letter : Char} (rest : List Char) :
    Escape.ofChars (letter :: (rest ++ '\n' :: more)) = Escape.ofChars (letter :: rest) := by
  have hex := number_append 16 2 rest more
  have low := number_append 16 2 (rest.drop (number 16 2 rest).2) more
  have octal := number_append 8 3 (letter :: rest) more
  rw [List.cons_append] at octal
  rw [← List.drop_append_of_le_length (number_le 16 2 rest)] at low
  simp only [Escape.ofChars, hex, low, octal]

/-- A quoted text that is closed stays as it is. -/
lemma decodeFrom_append {quote : Char} {skip read : Nat} {value chars : List Char}
    {r : List Char × Nat} (h : decodeFrom quote skip read value chars = .ok r) :
    decodeFrom quote skip read value (chars ++ '\n' :: more) = .ok r := by
  induction chars generalizing skip read value with
  -- A text that ends here is not closed.
  | nil => simp [decodeFrom] at h
  | cons c rest ih =>
    rw [List.cons_append]
    cases skip with
    | succ skip => exact ih h
    | zero =>
      simp only [decodeFrom] at h ⊢
      split at h
      · next closes => rw [if_pos closes, h]
      · next inside =>
        rw [if_neg inside]
        split at h
        · next escapes =>
          rw [if_pos escapes]
          cases rest with
          | nil => simp [Escape.ofChars] at h
          | cons letter rest =>
            rw [List.cons_append, escape_append]
            cases escape : Escape.ofChars (letter :: rest) with
            | code code length =>
              simp only [escape] at h ⊢
              cases decoded : charOf? code with
              | none => simp [decoded] at h
              | some char =>
                simp only [decoded] at h ⊢
                exact ih h
            | unknown letter => simp [escape] at h
            | unfinished => simp [escape] at h
        · next plain =>
          rw [if_neg plain]
          exact ih h

lemma decode_append {quote : Char} {chars : List Char} {r : List Char × Nat}
    (h : decode quote chars = .ok r) : decode quote (chars ++ '\n' :: more) = .ok r := by
  unfold decode at h ⊢
  cases decoded : decodeFrom quote 0 1 [] chars with
  | error misread => simp [decoded] at h
  | ok result => rwa [decodeFrom_append decoded, ← decoded]

end Quotation

/-! ## Lexemes -/

namespace Lexeme

lemma operator?_append {stop : Char} (h : ∀ op : Operator, stop ∉ op.symbol.toList)
    (chars more : List Char) : operator? (chars ++ stop :: more) = operator? chars := by
  unfold operator?
  congr 1
  funext op
  exact isPrefixOf_append_cons (h op) chars more

lemma verbatim_append {kind : TokenKind} {width : Nat} {chars : List Char}
    (h : width ≤ chars.length) :
    verbatim kind width (chars ++ more) = verbatim kind width chars := by
  simp only [verbatim, List.take_append_of_le_length h]

lemma name_append (context : TokenContext) (first : Char) (rest : List Char) :
    name context first (rest ++ '\n' :: more) = name context first rest := by
  have run : (rest ++ '\n' :: more).takeWhile (fun c => c == '\\' || isNamePart c) =
      rest.takeWhile fun c => c == '\\' || isNamePart c := takeWhile_append_cons (by decide) rest more
  have run_le : (rest.takeWhile fun c => c == '\\' || isNamePart c).length ≤ rest.length :=
    (List.takeWhile_prefix _).length_le
  have blanks (behind : List Char) : (behind ++ '\n' :: more).takeWhile Gap.isBlank =
      behind.takeWhile Gap.isBlank := takeWhile_append_cons (by decide) behind more
  have called (behind : List Char) :
      (((behind ++ '\n' :: more).drop (behind.takeWhile Gap.isBlank).length).head? == some '(') =
        ((behind.drop (behind.takeWhile Gap.isBlank).length).head? == some '(') := by
    rw [List.drop_append_of_le_length (List.takeWhile_prefix _).length_le, Bool.eq_iff_iff,
      beq_iff_eq, beq_iff_eq]
    exact head?_append_cons (by decide) _ more
  unfold name
  simp only [run, List.drop_append_of_le_length run_le, blanks, called]

/-- A lexeme is read in the same way when a line feed and more follow. -/
theorem ofChars_append {context : TokenContext} {chars : List Char} {x : Lexeme}
    (h : ofChars context chars = .ok x) (proper : x.kind ≠ .endOfInput) :
    ofChars context (chars ++ '\n' :: more) = .ok x := by
  cases chars with
  | nil =>
    obtain rfl := Except.ok.inj h
    exact absurd rfl proper
  | cons c rest =>
    have star := head?_append_cons (show '*' ≠ '\n' by decide) rest more
    have one : 1 ≤ (c :: rest).length := by simp
    rw [List.cons_append]
    -- The tests of `ofChars` in their order.  None of them looks past the line feed, since no
    -- sign, number, name or closed quotation contains one outside its text.
    simp only [ofChars] at h ⊢
    by_cases comment : c = '/' ∧ rest.head? = some '*'
    · rw [if_pos comment] at h
      simp at h
    rw [if_neg comment] at h
    rw [if_neg (by rwa [star])]
    cases punctuation : punctuation? c with
    | some kind =>
      simp only [punctuation] at h ⊢
      rwa [← List.cons_append, verbatim_append one]
    | none =>
      simp only [punctuation] at h ⊢
      by_cases quote : c = '"' ∨ c = '\''
      · rw [if_pos quote] at h ⊢
        cases decoded : Quotation.decode c rest with
        | ok result => rwa [Quotation.decode_append decoded, ← decoded]
        | error misread => simp [decoded] at h
      rw [if_neg quote] at h ⊢
      by_cases digit : c.isDigit
      · rw [if_pos digit] at h ⊢
        have digits : ((c :: rest).takeWhile Char.isDigit).length ≤ (c :: rest).length :=
          (List.takeWhile_prefix _).length_le
        rwa [← List.cons_append, takeWhile_append_cons (by decide), verbatim_append digits]
      rw [if_neg digit] at h ⊢
      have op_same := operator?_append Operator.lineFeed_not_mem_symbol (c :: rest) more
      rw [List.cons_append] at op_same
      cases operator : operator? (c :: rest) with
      | some op =>
        have symbol : op.symbol.length ≤ (c :: rest).length :=
          (isPrefixOf_of_operator? operator).length_le
        simp only [op_same, operator] at h ⊢
        rwa [← List.cons_append, verbatim_append symbol]
      | none =>
        simp only [op_same, operator] at h ⊢
        rwa [← List.cons_append, verbatim_append one, name_append]

end Lexeme
end ScriptEngine
