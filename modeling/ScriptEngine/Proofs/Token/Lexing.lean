import ScriptEngine.Proofs.Token.Context
import ScriptEngine.Proofs.Token.Reading
import ScriptEngine.Proofs.Token.Word

/-!
# The tokens of a script

What reading a lexeme yields (`Lexeme.Fits`), and from it that a lexer is a lawful token stream:
what was handed back is read again, every token but the end of the input brings the end nearer, and
a snapshot restores the lexer.  The lexeme of a token whose kind is written in one way only is written
that way (`Lexer.spelled_of_reads`).
-/

namespace ScriptEngine

/-! ## Gaps -/

namespace Gap

lemma lengthFrom_le (mode : Mode) (skip read : Nat)
    (opened_le : ∀ opened, mode = .blockComment opened → opened ≤ read) (chars : List Char) :
    lengthFrom mode skip read chars ≤ read + chars.length := by
  induction chars generalizing mode skip read with
  | nil =>
    cases mode with
    | blockComment opened => exact opened_le opened rfl
    | _ => exact Nat.le_refl _
  | cons c rest ih =>
    -- One more character is read, and the rest is one character shorter.
    have onward {mode' : Mode} {skip' : Nat}
        (opened_le : ∀ opened, mode' = .blockComment opened → opened ≤ read + 1) :
        lengthFrom mode' skip' (read + 1) rest ≤ read + (c :: rest).length := by
      have := ih mode' skip' (read + 1) opened_le
      simp only [List.length_cons]
      omega
    cases skip with
    | succ skip => exact onward fun opened h => (opened_le opened h).trans (Nat.le_succ read)
    | zero =>
      cases mode with
      | between =>
        simp only [lengthFrom]
        split
        · exact onward (by simp)
        split
        · exact onward (by simp)
        split
        · exact onward (by simp)
        · exact Nat.le_add_right _ _
      | lineComment =>
        simp only [lengthFrom]
        split
        · exact Nat.le_add_right _ _
        · exact onward (by simp)
      | blockComment opened =>
        have := opened_le opened rfl
        simp only [lengthFrom]
        split
        · exact onward (by simp)
        · exact onward (by simp; omega)

lemma length_le (chars : List Char) : length chars ≤ chars.length := by
  have := lengthFrom_le .between 0 0 (by simp) chars
  rwa [Nat.zero_add] at this

end Gap

/-! ## Quoted texts -/

namespace Quotation

/-- A quoted text ends behind what has been read and within the characters to come. -/
lemma decodeFrom_bounds {quote : Char} {skip read width : Nat} {value text chars : List Char}
    (h : decodeFrom quote skip read value chars = .ok (text, width)) :
    read < width ∧ width ≤ read + chars.length := by
  induction chars generalizing skip read value with
  | nil => simp [decodeFrom] at h
  | cons c rest ih =>
    have onward {skip : Nat} {value : List Char}
        (h : decodeFrom quote skip (read + 1) value rest = .ok (text, width)) :
        read < width ∧ width ≤ read + (c :: rest).length := by
      have := ih h
      simp only [List.length_cons]
      omega
    cases skip with
    | succ skip => exact onward h
    | zero =>
      simp only [decodeFrom] at h
      split at h
      · obtain ⟨rfl, rfl⟩ : value = text ∧ read + 1 = width := by simpa using h
        simp
      · split at h
        · split at h
          · split at h
            · exact onward h
            · simp at h
          · simp at h
          · simp at h
        · exact onward h

lemma decode_bounds {quote : Char} {width : Nat} {text chars : List Char}
    (h : decode quote chars = .ok (text, width)) : 0 < width ∧ width ≤ chars.length + 1 := by
  unfold decode at h
  split at h
  · next value width' read =>
    obtain ⟨-, rfl⟩ : _ = text ∧ width' = width := by simpa using h
    have := decodeFrom_bounds read
    omega
  · simp at h

end Quotation

/-! ## Lexemes -/

/-- No operator has a line feed in it. -/
lemma Operator.lineFeed_not_mem_symbol (op : Operator) : '\n' ∉ op.symbol.toList := by
  cases op <;> decide

namespace Lexeme

/-- What is true of a lexeme read off the front of some characters. -/
structure Fits (chars : List Char) (x : Lexeme) : Prop where
  width_le_read : x.width ≤ x.read
  read_le : x.read ≤ chars.length
  /-- Only the end of the input takes no characters. -/
  end_iff : x.kind = .endOfInput ↔ chars = []
  read_pos : x.kind ≠ .endOfInput → 0 < x.read
  spelled : ∀ text, x.kind.spelling? = some text → String.ofList x.text = text

lemma isPrefixOf_of_operator? {chars : List Char} {op : Operator}
    (h : operator? chars = some op) : op.symbol.toList <+: chars := by
  have := List.find?_some h
  simpa using this

lemma punctuation?_spelling {c : Char} {kind : TokenKind} (h : punctuation? c = some kind) :
    kind.spelling? = some (String.ofList [c]) ∧ kind ≠ .endOfInput := by
  unfold punctuation? at h
  split at h <;> first | (obtain rfl := Option.some.inj h; exact ⟨rfl, by simp⟩) | simp at h

lemma spelling_ofSpelling? {text : String} {word : Keyword}
    (h : Keyword.ofSpelling? text = some word) : word.spelling = text := by
  have := List.find?_some h
  simpa using this

lemma name_fits {context : TokenContext} {first : Char} {rest : List Char} {x : Lexeme}
    (h : name context first rest = .ok x) : Fits (first :: rest) x := by
  have run_le : (rest.takeWhile fun c => c == '\\' || isNamePart c).length ≤ rest.length :=
    (List.takeWhile_prefix _).length_le
  unfold name at h
  extract_lets run width text at h
  split at h
  · simp at h
  · split at h
    · next word spelling =>
      obtain rfl := Except.ok.inj h
      refine ⟨Nat.le_refl _, by simpa [width, run] using run_le, by simp, by simp [width], ?_⟩
      intro text' eq
      obtain rfl : word.spelling = text' := by simpa [TokenKind.spelling?] using eq
      exact (spelling_ofSpelling? spelling).symm
    · obtain rfl := Except.ok.inj h
      have blanks_le : ((rest.drop run.length).takeWhile Gap.isBlank).length ≤
          (rest.drop run.length).length := (List.takeWhile_prefix _).length_le
      refine ⟨Nat.le_add_right _ _, ?_, ?_, fun _ => by simp only [width]; omega, ?_⟩
      · change width + ((rest.drop run.length).takeWhile Gap.isBlank).length ≤ _
        simp only [List.length_drop] at blanks_le
        simp only [width, List.length_cons]
        have : run.length ≤ rest.length := run_le
        omega
      · split <;> simp
      · split <;> simp [TokenKind.spelling?]

lemma ofChars_fits {context : TokenContext} {chars : List Char} {x : Lexeme}
    (h : ofChars context chars = .ok x) : Fits chars x := by
  obtain ⟨_, rule, read⟩ := exists_rule h
  cases rule with
  | endOfInput =>
    obtain rfl := Except.ok.inj read
    exact ⟨Nat.le_refl _, Nat.le_refl _, by simp [verbatim], by simp [verbatim],
      by simp [verbatim, TokenKind.spelling?]⟩
  | comment | misquoted | bar | ampersand => cases read
  | punctuation sign =>
    obtain rfl := Except.ok.inj read
    obtain ⟨spelling, proper⟩ := punctuation?_spelling sign
    exact ⟨Nat.le_refl _, by simp [verbatim], by simp [verbatim, proper], by simp [verbatim],
      by simp [verbatim, spelling]⟩
  | quoted decoded =>
    obtain rfl := Except.ok.inj read
    obtain ⟨pos, le⟩ := Quotation.decode_bounds decoded
    exact ⟨Nat.le_refl _, by simpa using le, by simp, fun _ => pos, by simp [TokenKind.spelling?]⟩
  | digits digit =>
    obtain rfl := Except.ok.inj read
    exact ⟨Nat.le_refl _, (List.takeWhile_prefix _).length_le, by simp [verbatim],
      by simp [verbatim, digit], by simp [verbatim, TokenKind.spelling?]⟩
  | @operator _ _ op found =>
    obtain rfl := Except.ok.inj read
    obtain ⟨behind, eq⟩ := isPrefixOf_of_operator? found
    have length_eq : op.symbol.length = op.symbol.toList.length := rfl
    have pos : 0 < op.symbol.length := by cases op <;> decide
    refine ⟨Nat.le_refl _, ?_, by simp [verbatim], fun _ => pos, ?_⟩
    · simp only [verbatim, length_eq, ← eq, List.length_append]
      omega
    · simp [verbatim, length_eq, ← eq, TokenKind.spelling?]
  | assign =>
    obtain rfl := Except.ok.inj read
    exact ⟨Nat.le_refl _, by simp [verbatim], by simp [verbatim], by simp [verbatim],
      by simp [verbatim, TokenKind.spelling?]⟩
  | name => exact name_fits read

end Lexeme

/-! ## Lexers -/

namespace Lexer

open TokenStream

variable {c : TokenContext} {l l' : Lexer} {t : Token}

/-- The next token is the one that was handed back, or else it is read off the script. -/
lemma next_eq_ok : l.next c = (.ok t, l') ↔
    (l.pending = some t ∧ l' = ⟨l.cursor, none⟩) ∨
      (l.pending = none ∧ ∃ x, Lexeme.ofChars c (atToken l.cursor).ahead = .ok x ∧
        t = place (atToken l.cursor) x ∧ l' = ⟨(atToken l.cursor).advance x.read, none⟩) := by
  unfold next
  cases pending : l.pending with
  | some token => simp [eq_comm]
  | none =>
    cases read : Lexeme.ofChars c (atToken l.cursor).ahead <;> simp [read, eq_comm]

lemma next_eq_error {e : ScriptError} : l.next c = (.error e, l') ↔
    l.pending = none ∧ ∃ m, Lexeme.ofChars c (atToken l.cursor).ahead = .error m ∧
      e = misplace (atToken l.cursor) m ∧ l' = ⟨(atToken l.cursor).advance m.read, none⟩ := by
  unfold next
  cases pending : l.pending with
  | some token => simp
  | none =>
    cases read : Lexeme.ofChars c (atToken l.cursor).ahead <;> simp [read, eq_comm]

lemma pending_next (h : l.next c = (.ok t, l')) : l'.pending = none := by
  rcases next_eq_ok.1 h with ⟨-, rfl⟩ | ⟨-, x, -, -, rfl⟩ <;> rfl

lemma text_next (c : TokenContext) (l : Lexer) :
    (l.next c).2.cursor.text = l.cursor.text := by
  unfold next
  split
  · rfl
  · extract_lets start
    split <;> simp [start, atToken]

lemma remaining_next_lt (h : l.next c = (.ok t, l')) (proper : t.kind ≠ .endOfInput) :
    remaining l' < remaining l := by
  change l'.cursor.ahead.length + l'.pending.toList.length <
    l.cursor.ahead.length + l.pending.toList.length
  rcases next_eq_ok.1 h with ⟨pending, rfl⟩ | ⟨pending, x, read, rfl, rfl⟩
  · simp [pending]
  · have fits := Lexeme.ofChars_fits read
    have := fits.read_pos proper
    have := fits.read_le
    simp only [atToken, Cursor.ahead_advance, List.length_drop] at this
    simp only [pending, atToken, Cursor.ahead_advance, List.length_drop]
    omega

instance : LawfulTokenStream Lexer where
  next_pushBack {c c' l l' t} h := by
    have pending := pending_next h
    obtain ⟨cursor, _⟩ := l'
    obtain rfl : _ = none := pending
    rfl
  remaining_next := remaining_next_lt
  restore_self l := restore_save rfl
  restore_next c l now := by
    change (now.next c).2.restore l.save = now.restore l.save
    simp only [restore, Cursor.moveTo, text_next]

/-! ## Spelling -/

/-- A token that was handed back is written as its kind is. -/
def PendingSpelled (l : Lexer) : Prop :=
  ∀ t ∈ l.pending, t.Spelled

lemma pendingSpelled_ofScript (script : String) : (ofScript script).PendingSpelled := by
  simp [PendingSpelled, ofScript]

lemma spelled_of_next (h : l.next c = (.ok t, l')) (spelled : l.PendingSpelled) : t.Spelled := by
  rcases next_eq_ok.1 h with ⟨pending, rfl⟩ | ⟨pending, x, read, rfl, rfl⟩
  · exact spelled t pending
  · exact (Lexeme.ofChars_fits read).spelled

lemma spelled_of_reads {cs : Set TokenContext} {ts : List Token} (reads : Reads cs l ts l')
    (spelled : l.PendingSpelled) : ∀ t ∈ ts, t.Spelled := by
  induction reads with
  | nil => simp
  | cons context read rest ih =>
    have pending := pending_next read
    simp only [List.mem_cons, forall_eq_or_imp]
    exact ⟨spelled_of_next read spelled, ih (by simp [PendingSpelled, pending])⟩

end Lexer
end ScriptEngine
