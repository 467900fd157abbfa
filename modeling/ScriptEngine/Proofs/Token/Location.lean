import ScriptEngine.Proofs.Text.Line
import ScriptEngine.Proofs.Token.Context
import ScriptEngine.Proofs.Token.Lexing

/-!
# Where tokens stand

A span is located in a text if it is the span of some of its characters and carries the line of the
first one.  Every token that a lexer reads off a text is located (`Lexer.At.next`), and so is every
error that it reports, with one exception: an unknown escape is reported with the place of its
backslash, but with the line where the quoted text begins (`ScriptError.Misquoted`).

A lexer stands at a position or behind it, and reaches to another at least (`Lexer.At`).  Reading
a token leads it behind the token; handing the token back leads it to the start of the token again,
but it still reaches to the end of it.
-/

namespace ScriptEngine

/-! ## Spans -/

/-- The span of characters of the text, with the line of its start. -/
structure Span.Located (text : List Char) (s : Span) : Prop where
  start_le_stop : s.start ≤ s.stop
  stop_le : s.stop ≤ text.length
  line : s.line = lineAt text s.start

instance (text : List Char) (s : Span) : Decidable (s.Located text) :=
  decidable_of_iff (s.start ≤ s.stop ∧ s.stop ≤ text.length ∧ s.line = lineAt text s.start)
    ⟨fun ⟨le, inside, line⟩ => ⟨le, inside, line⟩, fun located =>
      ⟨located.start_le_stop, located.stop_le, located.line⟩⟩

namespace Span.Located

variable {text : List Char} {a b : Span}

lemma through (first : a.Located text) (last : b.Located text) : (a.through b).Located text where
  start_le_stop := first.start_le_stop.trans (stop_le_stop_through a b)
  stop_le := max_le last.stop_le first.stop_le
  line := first.line

lemma empty_start (located : a.Located text) : (Span.empty a.start a.line).Located text where
  start_le_stop := Nat.le_refl _
  stop_le := located.start_le_stop.trans located.stop_le
  line := located.line

lemma start_le (located : a.Located text) : a.start ≤ text.length :=
  located.start_le_stop.trans located.stop_le

end Span.Located

/-- The token is located, and an operator is on one line. -/
structure Token.Located (text : List Char) (t : Token) : Prop where
  span : t.span.Located text
  line_stop : ∀ op, t.kind = .operator op → lineAt text t.span.stop = t.span.line

/-- The token is located, starts at `p` or behind it and ends at `r` or behind it. -/
structure Token.Beyond (text : List Char) (p r : Nat) (t : Token) : Prop where
  located : t.Located text
  start : p ≤ t.span.start
  stop : r ≤ t.span.stop

/-- What is behind a token that has been read for good is behind what was in front of it, too. -/
lemma Token.Beyond.trans {text : List Char} {p r : Nat} {t u : Token} (first : t.Beyond text p r)
    (second : u.Beyond text t.span.stop t.span.stop) : u.Beyond text p r where
  located := second.located
  start := first.start.trans (first.located.span.start_le_stop.trans second.start)
  stop := first.stop.trans second.stop

/-- The error is an unknown escape in a quoted text that begins at `opening`.  It starts at the
backslash, and is on the line of `opening`. -/
def ScriptError.Misquoted (text : List Char) (opening : Nat) (e : ScriptError) : Prop :=
  ∃ context m letter, Lexeme.ofChars context (text.drop opening) = .error m ∧
    m.fault = .unknownEscape letter ∧
    e = ⟨.lexical m.fault, ⟨opening + m.offset, opening + m.read, lineAt text opening⟩⟩

/-- The error starts in the text and carries the line of its start, unless it is an unknown escape. -/
structure ScriptError.Located (text : List Char) (e : ScriptError) : Prop where
  start_le : e.span.start ≤ text.length
  line : e.span.line = lineAt text e.span.start ∨ ∃ opening, e.Misquoted text opening

/-! ## Lexemes -/

lemma Lexeme.lineFeed_not_mem_operator {c : TokenContext} {chars : List Char} {x : Lexeme}
    {op : Operator} (read : ofChars c chars = .ok x) (kind : x.kind = .operator op) :
    '\n' ∉ chars.take x.width := by
  obtain ⟨_, rule, read⟩ := exists_rule read
  cases rule with
  | comment | misquoted | bar | ampersand => cases read
  | endOfInput | quoted | digits | assign =>
    obtain rfl := Except.ok.inj read
    cases kind
  | punctuation sign =>
    obtain rfl := Except.ok.inj read
    obtain rfl : _ = TokenKind.operator op := kind
    unfold punctuation? at sign
    split at sign <;> cases sign
  | @operator _ _ op' found =>
    obtain rfl := Except.ok.inj read
    obtain ⟨behind, eq⟩ := isPrefixOf_of_operator? found
    have symbol : (op'.symbol.toList ++ behind).take op'.symbol.length = op'.symbol.toList :=
      List.take_left
    simp only [verbatim, ← eq, symbol]
    exact op'.lineFeed_not_mem_symbol
  | name => exact absurd (isWord_of_name read) (by simp [kind, TokenKind.isWord])

/-- Only an unknown escape is found behind the start of what cannot be read. -/
structure Misread.Fits (length : Nat) (m : Misread) : Prop where
  offset_le : m.offset ≤ length
  at_start : (∀ letter, m.fault ≠ .unknownEscape letter) → m.offset = 0

lemma Quotation.decodeFrom_misread {quote : Char} {skip read : Nat} {value chars : List Char}
    {m : Misread} (failed : decodeFrom quote skip read value chars = .error m) :
    m.Fits (read + chars.length) := by
  induction chars generalizing skip read value with
  | nil =>
    obtain rfl := Except.error.inj failed
    exact ⟨Nat.zero_le _, fun _ => rfl⟩
  | cons c rest ih =>
    have onward {skip : Nat} {value : List Char}
        (failed : decodeFrom quote skip (read + 1) value rest = .error m) :
        m.Fits (read + (c :: rest).length) := by
      rw [List.length_cons, Nat.add_comm rest.length, ← Nat.add_assoc]
      exact ih failed
    cases skip with
    | succ skip => exact onward failed
    | zero =>
      simp only [decodeFrom] at failed
      split at failed
      · cases failed
      split at failed
      · split at failed
        · split at failed
          · exact onward failed
          · obtain rfl := Except.error.inj failed
            exact ⟨Nat.zero_le _, fun _ => rfl⟩
        · next letter _ =>
          obtain rfl := Except.error.inj failed
          exact ⟨Nat.le_add_right _ _, fun known => absurd rfl (known letter)⟩
        · obtain rfl := Except.error.inj failed
          exact ⟨Nat.zero_le _, fun _ => rfl⟩
      · exact onward failed

lemma Lexeme.misread_fits {c : TokenContext} {chars : List Char} {m : Misread}
    (failed : ofChars c chars = .error m) : m.Fits chars.length := by
  obtain ⟨_, rule, read⟩ := exists_rule failed
  cases rule with
  | endOfInput | punctuation | quoted | digits | operator | assign => cases read
  | comment | bar | ampersand =>
    obtain rfl := Except.error.inj read
    exact ⟨Nat.zero_le _, fun _ => rfl⟩
  | misquoted stopped =>
    obtain rfl := Except.error.inj read
    unfold Quotation.decode at stopped
    split at stopped
    · cases stopped
    · next stopped' =>
      obtain rfl := Except.error.inj stopped
      rw [List.length_cons, Nat.add_comm]
      exact Quotation.decodeFrom_misread stopped'
  | @name ch rest =>
    have failed : name c ch rest = .error m := read
    unfold name at failed
    extract_lets run width text at failed
    split at failed
    · obtain rfl := Except.error.inj failed
      exact ⟨Nat.zero_le _, fun _ => rfl⟩
    · split at failed <;> cases failed

/-! ## Cursors -/

/-- The cursor stands in the text, on the line of its position. -/
structure Cursor.Located (text : List Char) (c : Cursor) : Prop where
  text_eq : c.text = text
  inside : c.position ≤ text.length
  line : c.line = lineAt text c.position

namespace Cursor.Located

variable {text : List Char} {c : Cursor}

lemma start (text : List Char) : (Cursor.start text).Located text :=
  ⟨rfl, Nat.zero_le _, by simp [lineAt]⟩

lemma ahead_length (located : c.Located text) : c.ahead.length = text.length - c.position := by
  rw [c.ahead_eq, located.text_eq, List.length_drop]

/-- The line of a place further on. -/
lemma lineAt_onward (located : c.Located text) (n : Nat) :
    lineAt text (c.position + n) = c.line + (c.ahead.take n).count '\n' := by
  rw [lineAt_add, located.line, c.ahead_eq, located.text_eq]

lemma advance (located : c.Located text) {n : Nat} (le : n ≤ c.ahead.length) :
    (c.advance n).Located text := by
  have position := position_advance le
  have inside := located.inside
  rw [located.ahead_length] at le
  refine ⟨(text_advance n c).trans located.text_eq, by omega, ?_⟩
  rw [position, located.lineAt_onward, line_advance]

lemma atToken (located : c.Located text) : (Lexer.atToken c).Located text :=
  located.advance (Gap.length_le c.ahead)

end Cursor.Located

/-! ## Lexers -/

namespace Lexer

variable {text : List Char} {c : TokenContext} {cursor : Cursor} {l l' : Lexer} {t : Token}
  {e : ScriptError} {p r : Nat}

/-- Where the next token ends if it was handed back, and else where reading goes on. -/
def reach (l : Lexer) : Nat :=
  match l.pending with
  | some token => token.span.stop
  | none => l.cursor.position

/-- The lexer is located in the text, and so is the token that was handed back; it ends in front of
the cursor. -/
structure Located (text : List Char) (l : Lexer) : Prop where
  cursor : l.cursor.Located text
  pending : ∀ t ∈ l.pending, t.Located text ∧ t.span.stop ≤ l.cursor.position

/-- The lexer stands at `p` or behind it and reaches to `r` at least. -/
structure At (text : List Char) (p r : Nat) (l : Lexer) : Prop where
  located : l.Located text
  onward : p ≤ l.position
  reach : r ≤ l.reach

/-- The lexer stands behind the token, and in front of it when the token is handed back. -/
structure Past (text : List Char) (t : Token) (l : Lexer) : Prop where
  onward : l.At text t.span.stop t.span.stop
  returned : (l.pushBack t).At text t.span.start t.span.stop

lemma at_ofScript (script : String) : (ofScript script).At script.toList 0 0 :=
  ⟨⟨.start _, by simp [ofScript]⟩, Nat.zero_le _, Nat.zero_le _⟩

lemma At.mono {p' r' : Nat} (here : l.At text p r) (before : p' ≤ p) (less : r' ≤ r) :
    l.At text p' r' :=
  ⟨here.located, before.trans here.onward, less.trans here.reach⟩

/-- The place of the lexer, as an error reports it. -/
lemma Located.here (located : l.Located text) :
    l.position ≤ text.length ∧ l.line = lineAt text l.position := by
  unfold position line
  cases pending : l.pending with
  | none => exact ⟨located.cursor.inside, located.cursor.line⟩
  | some t =>
    obtain ⟨token, -⟩ := located.pending t pending
    exact ⟨token.span.start_le, token.span.line⟩

lemma past_of_located (token : t.Located text) (located : cursor.Located text)
    (behind : t.span.stop ≤ cursor.position) : Past text t ⟨cursor, none⟩ where
  onward := ⟨⟨located, by simp⟩, behind, behind⟩
  returned := by
    refine ⟨⟨located, ?_⟩, Nat.le_refl _, Nat.le_refl _⟩
    rintro _ ⟨⟩
    exact ⟨token, behind⟩

/-- A token that is read off the text is located. -/
lemma place_located (located : cursor.Located text) {x : Lexeme}
    (lexeme : Lexeme.ofChars c cursor.ahead = .ok x) : (place cursor x).Located text := by
  have fits := Lexeme.ofChars_fits lexeme
  have within := fits.width_le_read.trans fits.read_le
  rw [located.ahead_length] at within
  have inside := located.inside
  refine ⟨⟨Nat.le_add_right _ _, ?_, located.line⟩, fun op kind => ?_⟩
  · simp only [place]
    omega
  · have none_inside := Lexeme.lineFeed_not_mem_operator lexeme kind
    simp only [place]
    rw [located.lineAt_onward, List.count_eq_zero_of_not_mem none_inside, Nat.add_zero]

/-- So is the error that failing to read one is. -/
lemma misplace_located (located : cursor.Located text) {m : Misread}
    (lexeme : Lexeme.ofChars c cursor.ahead = .error m) : (misplace cursor m).Located text := by
  have fits := Lexeme.misread_fits lexeme
  have within := fits.offset_le
  rw [located.ahead_length] at within
  have inside := located.inside
  refine ⟨?_, ?_⟩
  · simp only [misplace]
    omega
  · by_cases escape : ∃ letter, m.fault = .unknownEscape letter
    · obtain ⟨letter, escape⟩ := escape
      rw [cursor.ahead_eq, located.text_eq] at lexeme
      refine .inr ⟨cursor.position, c, m, letter, lexeme, escape, ?_⟩
      rw [misplace, located.line]
    · have offset := fits.at_start fun letter is => escape ⟨letter, is⟩
      refine .inl ?_
      simp only [misplace, offset, Nat.add_zero]
      exact located.line

/-- Reading a token leads behind it. -/
lemma At.next (here : l.At text p r) (read : l.next c = (.ok t, l')) :
    t.Beyond text p r ∧ l'.Past text t := by
  obtain ⟨located, onward, reach⟩ := here
  rcases next_eq_ok.1 read with ⟨pending, rfl⟩ | ⟨pending, x, lexeme, rfl, rfl⟩
  · obtain ⟨token, behind⟩ := located.pending t pending
    simp only [position, Lexer.reach, pending] at onward reach
    exact ⟨⟨token, onward, reach⟩, past_of_located token located.cursor behind⟩
  · have fits := Lexeme.ofChars_fits lexeme
    have gap := Cursor.position_advance (Gap.length_le l.cursor.ahead)
    have moved := Cursor.position_advance fits.read_le
    have token := place_located located.cursor.atToken lexeme
    simp only [position, Lexer.reach, pending] at onward reach
    have start : l.cursor.position ≤ (place (atToken l.cursor) x).span.start := by
      simp only [place, atToken, gap]
      exact Nat.le_add_right _ _
    have stop := start.trans token.span.start_le_stop
    refine ⟨⟨token, onward.trans start, reach.trans stop⟩, ?_⟩
    apply past_of_located token (located.cursor.atToken.advance fits.read_le)
    rw [moved]
    exact Nat.add_le_add_left fits.width_le_read _

lemma At.next_error (here : l.At text p r) (failed : l.next c = (.error e, l')) :
    e.Located text := by
  obtain ⟨-, m, lexeme, rfl, -⟩ := next_eq_error.1 failed
  exact misplace_located here.located.cursor.atToken lexeme

end Lexer
end ScriptEngine
