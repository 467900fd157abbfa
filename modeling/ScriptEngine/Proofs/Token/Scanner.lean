import ScriptEngine.Proofs.Token.Lookahead

/-!
# Reading character by character

A `Lexer` is told at one go how long a gap or a lexeme is.  A `Scanner` reads one character after the
other and puts back the one that it has read too much.  While it reads a token it keeps in two registers
where the token starts and which line it is on; spans, texts and errors are made from the registers and
the place that it has come to.

The registers are not cleared behind a token, and nothing puts them back when the scanner goes back.
`Scanner.next_lexer` says that they do not matter: whatever is left in them, the scanner reads what a
lexer reads, and comes to the same place.
-/

namespace ScriptEngine

/-! ## Scanners -/

/-- A script being read character by character, the token that was handed back, if any, and two registers:
where the token that is being read starts, and on which line. -/
@[ext] structure Scanner where
  cursor : Cursor
  pending : Option Token := none
  start : Nat := 0
  line : Nat := 1

namespace Scanner

/-- A scanner at the start of `script`. -/
def ofScript (script : String) : Scanner :=
  { cursor := .start script.toList }

/-- The scanner without its registers. -/
def lexer (s : Scanner) : Lexer :=
  ⟨s.cursor, s.pending⟩

/-- From the start of the token up to the place that has been read. -/
def span (s : Scanner) : Span :=
  ⟨s.start, s.cursor.position, s.line⟩

/-- The token whose text is what has been read. -/
def token (kind : TokenKind) (s : Scanner) : Token :=
  ⟨kind, String.ofList (s.cursor.slice s.start s.cursor.position), s.span⟩

/-- The error that concerns all that has been read of the token. -/
def failure (fault : LexicalFault) (s : Scanner) : ScriptError :=
  ⟨.lexical fault, s.span⟩

/-- Reads what stands behind a backslash in a quoted text: the code point that is meant. -/
def escape (s : Scanner) : Except ScriptError Nat × Scanner :=
  match s.cursor.next? with
  | none => (.error (s.failure .unmatchedQuote), s)
  | some (letter, c) =>
    match letter with
    | 'n' => (.ok 10, { s with cursor := c })
    | 'b' => (.ok 8, { s with cursor := c })
    | 'f' => (.ok 12, { s with cursor := c })
    | 'r' => (.ok 13, { s with cursor := c })
    | 't' => (.ok 9, { s with cursor := c })
    | '\'' | '"' | '\\' => (.ok letter.toNat, { s with cursor := c })
    | 'x' =>
      let (value, c) := c.readDigits 16 2 0
      (.ok value, { s with cursor := c })
    | 'u' =>
      let (high, c) := c.readDigits 16 2 0
      let (low, c) := c.readDigits 16 2 0
      (.ok (high * 256 + low), { s with cursor := c })
    | _ =>
      if letter.isDigit then
        let (value, c) := (c.putBack letter).readDigits 8 3 0
        (.ok value, { s with cursor := c })
      else
        (.error ⟨.lexical (.unknownEscape letter), ⟨c.position - 2, c.position, s.line⟩⟩,
          { s with cursor := c })

/-- Behind a backslash a scanner reads the escape that is written there. -/
lemma escape_eq (s : Scanner) : s.escape =
    match Quotation.Escape.ofChars s.cursor.ahead with
    | .code value length => (.ok value, { s with cursor := s.cursor.advance length })
    | .unknown letter =>
      (.error ⟨.lexical (.unknownEscape letter),
        ⟨s.cursor.position - 1, s.cursor.position + 1, s.line⟩⟩,
        { s with cursor := s.cursor.advance 1 })
    | .unfinished => (.error (s.failure .unmatchedQuote), s) := by
  rw [escape]
  rcases read : s.cursor.next? with _ | ⟨letter, c⟩
  · rw [Cursor.ahead_of_next?_eq_none read]
    rfl
  · rw [Cursor.ahead_of_next? read]
    have one := Cursor.advance_one read
    have digits (base most : Nat) (c : Cursor) : c.readDigits base most 0 =
      ((Quotation.number base most c.ahead).1, c.advance (Quotation.number base most c.ahead).2) :=
      Cursor.readDigits_eq base most 0 c
    have behind (n : Nat) : s.cursor.advance (n + 1) = c.advance n := by
      rw [Nat.add_comm, ← Cursor.advance_advance, one]
    have position : c.position = s.cursor.position + 1 := by
      rw [← one, Cursor.position_advance (by simp [Cursor.ahead_of_next? read])]
    simp only [Quotation.Escape.ofChars]
    split
    case h_9 => simp only [digits, behind]
    case h_10 =>
      simp only [digits, behind, Cursor.ahead_advance, Cursor.advance_advance]
    case h_11 =>
      split
      · simp only [Cursor.putBack_of_next? read, digits, Cursor.ahead_of_next? read]
      · simp only [one, position]
        rfl
    all_goals simp only [one]

/-- Reads what stands behind a backslash in a quoted text: the character that is meant. -/
def escapedChar (s : Scanner) : Except ScriptError Char × Scanner :=
  match s.escape with
  | (.error e, s) => (.error e, s)
  | (.ok code, s) =>
    match Quotation.charOf? code with
    | some decoded => (.ok decoded, s)
    | none => (.error (s.failure (.invalidCodePoint code)), s)

lemma escapedChar_length_le (s : Scanner) :
    s.escapedChar.2.cursor.ahead.length ≤ s.cursor.ahead.length := by
  have cursor : s.escapedChar.2 = s.escape.2 := by
    rw [escapedChar]
    split <;> (try split) <;> simp_all
  rw [cursor, escape_eq]
  split <;> simp

/-- Reads on in a quoted text up to the closing quote.  What has been read stands for `value`, its last
character first. -/
def string (quote : Char) (value : List Char) (s : Scanner) : Except ScriptError Token × Scanner :=
  match _ : s.cursor.next? with
  | none => (.error (s.failure .unmatchedQuote), s)
  | some (c, onward) =>
    let behind : Scanner := { s with cursor := onward }
    if c = quote then
      (.ok ⟨.literal, String.ofList value.reverse, behind.span⟩, behind)
    else if c = '\\' then
      match _ : behind.escapedChar with
      | (.error e, s) => (.error e, s)
      | (.ok decoded, s) => s.string quote (decoded :: value)
    else
      behind.string quote (c :: value)
termination_by s.cursor.ahead.length
decreasing_by
  · rename_i read _ _ escaped
    have behind_le := escapedChar_length_le behind
    rw [escaped] at behind_le
    exact behind_le.trans_lt (Cursor.ahead_length_lt read)
  · exact Cursor.ahead_length_lt ‹_›

/-- Reads on in a number. -/
def number (s : Scanner) : Except ScriptError Token × Scanner :=
  let s := { s with cursor := (s.cursor.readWhile Char.isDigit).2 }
  (.ok (s.token .literal), s)

/-- Reads on in a name whose first character has been read, and behind it up to a parenthesis, if there is
one behind the blanks. -/
def name (context : TokenContext) (first : Char) (s : Scanner) : Except ScriptError Token × Scanner :=
  let more := s.cursor.readWhile fun c => c == '\\' || Lexeme.isNamePart c
  let text := (first :: more.1).filter (· != '\\')
  let s := { s with cursor := more.2 }
  if !text.head?.any Lexeme.isNameStart then
    (.error (s.failure (.invalidName (String.ofList text))), s)
  else
    match context, Keyword.ofSpelling? (String.ofList text) with
    | .statement, some word => (.ok ⟨.keyword word, String.ofList text, s.span⟩, s)
    | _, _ =>
      let behind := s.cursor.skipWhile Gap.isBlank
      let called := behind.peek? == some '('
      (.ok ⟨if called then .callName else .name, String.ofList text, s.span⟩,
        { s with cursor := behind })

/-- The second characters that a sign can go on with, in the order in which they are tried, with the
operators that they make of it, and what the first character is by itself. -/
def signs? : Char → Option (List (Char × Operator) × Except LexicalFault TokenKind)
  | '+' => some ([('+', .increment)], .ok (.operator .plus))
  | '-' => some ([('-', .decrement)], .ok (.operator .minus))
  | '*' => some ([], .ok (.operator .multiply))
  | '%' => some ([], .ok (.operator .modulo))
  | '<' => some ([('<', .shiftLeft), ('=', .lessEqual)], .ok (.operator .less))
  | '>' => some ([('>', .shiftRight), ('=', .greaterEqual)], .ok (.operator .greater))
  | '=' => some ([('=', .equal)], .ok .assign)
  | '!' => some ([('=', .notEqual)], .ok (.operator .complement))
  | '|' => some ([('|', .either)], .error .loneBar)
  | '&' => some ([('&', .both)], .error .loneAmpersand)
  | _ => none

/-- Reads the second character of a sign if it is one that the sign can go on with. -/
def sign (alone : Except LexicalFault TokenKind) :
    List (Char × Operator) → Scanner → Except ScriptError Token × Scanner
  | [], s =>
    match alone with
    | .ok kind => (.ok (s.token kind), s)
    | .error fault => (.error (s.failure fault), s)
  | (second, op) :: others, s =>
    let looked := s.cursor.accept second
    let s := { s with cursor := looked.2 }
    if looked.1 then (.ok (s.token (.operator op)), s) else s.sign alone others

/-- Reads the next token off the script. -/
def scan (context : TokenContext) (s : Scanner) : Except ScriptError Token × Scanner :=
  let s : Scanner := { s with start := s.cursor.position, line := s.cursor.line }
  match _ : s.cursor.next? with
  | none => (.ok (s.token .endOfInput), s)
  | some (c, onward) =>
    if Gap.isBlank c then
      scan context { s with cursor := onward }
    else if c = '/' then
      let line := onward.accept '/'
      let block := line.2.accept '*'
      if line.1 then
        scan context { s with cursor := (line.2.readWhile (· != '\n')).2 }
      else if block.1 then
        match _ : block.2.readComment with
        | (true, behind) => scan context { s with cursor := behind }
        | (false, behind) =>
          let s := { s with cursor := behind }
          (.error (s.failure .unterminatedComment), s)
      else
        let s := { s with cursor := block.2 }
        (.ok (s.token (.operator .divide)), s)
    else
      let s := { s with cursor := onward }
      if let some kind := Lexeme.punctuation? c then (.ok (s.token kind), s)
      else if let some (seconds, alone) := signs? c then s.sign alone seconds
      else if c = '"' ∨ c = '\'' then s.string c []
      else if c.isDigit then s.number
      else s.name context c
termination_by s.cursor.ahead.length
decreasing_by
  · exact Cursor.ahead_length_lt ‹_›
  · exact ((Cursor.readWhile_length_le _ _).trans (Cursor.accept_length_le _ _)).trans_lt
      (Cursor.ahead_length_lt ‹_›)
  · rename_i read _ _ _ _ comment
    have behind_le := Cursor.readComment_length_le block.2
    rw [comment] at behind_le
    exact (behind_le.trans ((Cursor.accept_length_le _ _).trans (Cursor.accept_length_le _ _))).trans_lt
      (Cursor.ahead_length_lt read)

/-- Reads the next token, or returns the one handed back. -/
def next (context : TokenContext) (s : Scanner) : Except ScriptError Token × Scanner :=
  match s.pending with
  | some token => (.ok token, { s with pending := none })
  | none => s.scan context

/-! ## In the middle of a token -/

/-- A scanner that has read `n` characters of the token that starts at a cursor. -/
def within (front : Cursor) (n : Nat) (pending : Option Token) : Scanner :=
  ⟨front.advance n, pending, front.position, front.line⟩

/-- What a scanner returns that has read a lexeme, or failed to read one, and where it stands then. -/
def reading (front : Cursor) (pending : Option Token) :
    Except Misread Lexeme → Except ScriptError Token × Scanner
  | .ok x => (.ok (Lexer.place front x), within front x.read pending)
  | .error m => (.error (Lexer.misplace front m), within front m.read pending)

variable {front : Cursor} {n : Nat} (pending : Option Token)

lemma span_within (le : n ≤ front.ahead.length) : (within front n pending).span =
    ⟨front.position, front.position + n, front.line⟩ := by
  simp only [span, within, Cursor.position_advance le]

/-- What has been read is the text of the token. -/
lemma token_within (le : n ≤ front.ahead.length) (kind : TokenKind) :
    (within front n pending).token kind =
      Lexer.place front (Lexeme.verbatim kind n front.ahead) := by
  have slice : (front.advance n).slice front.position (front.position + n) = front.ahead.take n := by
    rw [Cursor.slice, Cursor.text_advance, Nat.min_eq_left (Nat.le_add_right _ _), List.drop_take,
      Nat.add_sub_cancel_left, ← front.ahead_eq]
  rw [token, span_within pending le]
  simp only [within, Cursor.position_advance le, slice]
  rfl

lemma failure_within (le : n ≤ front.ahead.length) (fault : LexicalFault) :
    (within front n pending).failure fault = Lexer.misplace front ⟨fault, 0, n⟩ := by
  rw [failure, span_within pending le]
  rfl

lemma reading_verbatim (le : n ≤ front.ahead.length) (kind : TokenKind) :
    reading front pending (.ok (Lexeme.verbatim kind n front.ahead)) =
      (.ok ((within front n pending).token kind), within front n pending) := by
  rw [token_within pending le]
  rfl

lemma reading_failure (le : n ≤ front.ahead.length) (fault : LexicalFault) :
    reading front pending (.error ⟨fault, 0, n⟩) =
      (.error ((within front n pending).failure fault), within front n pending) := by
  rw [failure_within pending le]
  rfl

/-- What stands behind a backslash is read as the escape that is written there. -/
lemma escapedChar_within (le : n ≤ front.ahead.length) (begun : 0 < n) :
    (within front n pending).escapedChar =
      match Quotation.Escape.ofChars (front.ahead.drop n) with
      | .code code length =>
        match Quotation.charOf? code with
        | some decoded => (.ok decoded, within front (n + length) pending)
        | none =>
          (.error (Lexer.misplace front ⟨.invalidCodePoint code, 0, n + length⟩),
            within front (n + length) pending)
      | .unknown letter =>
        (.error (Lexer.misplace front ⟨.unknownEscape letter, n - 1, n + 1⟩),
          within front (n + 1) pending)
      | .unfinished =>
        (.error (Lexer.misplace front ⟨.unmatchedQuote, 0, n⟩), within front n pending) := by
  have ahead : (within front n pending).cursor.ahead = front.ahead.drop n :=
    Cursor.ahead_advance n front
  have onward (m : Nat) : { within front n pending with
      cursor := (within front n pending).cursor.advance m } = within front (n + m) pending := by
    simp only [within, Cursor.advance_advance]
  have position : (within front n pending).cursor.position = front.position + n :=
    Cursor.position_advance le
  rw [escapedChar, escape_eq, ahead]
  cases escape : Quotation.Escape.ofChars (front.ahead.drop n) with
  | code code length =>
    have within_text := Quotation.Escape.length_le escape
    rw [List.length_drop] at within_text
    simp only [onward]
    cases Quotation.charOf? code with
    | some decoded => rfl
    | none => rw [failure_within pending (by omega)]
  | unknown letter =>
    simp only [onward, position, Nat.add_sub_assoc begun]
    rfl
  | unfinished => simp only [failure_within pending le]

lemma string_within (quote : Char) (value : List Char) (le : n ≤ front.ahead.length)
    (begun : 0 < n) : (within front n pending).string quote value =
      reading front pending (match Quotation.decodeFrom quote 0 n value (front.ahead.drop n) with
        | .ok (text, width) => .ok ⟨.literal, text.reverse, width, width⟩
        | .error m => .error m) := by
  -- The induction is on the rest of the script; `n` counts what has been read of the token and
  -- grows along, so it stays general.
  generalize here : within front n pending = s
  fun_induction string quote value s generalizing n with
  -- The script is used up inside the text.
  | case1 value s at_end =>
    subst here
    have spent := Cursor.ahead_of_next?_eq_none at_end
    rw [within, Cursor.ahead_advance] at spent
    rw [failure_within pending le, spent]
    rfl
  -- The closing quote.
  | case2 value s onward behind =>
    rename_i read
    subst here
    obtain ⟨ahead, rfl, le⟩ := Cursor.next?_advance read
    have span : behind.span = _ := span_within pending le
    rw [ahead, Quotation.decodeFrom, if_pos rfl, span]
    rfl
  -- An escape that means no character; where it is found out, both stand at the same place.
  | case3 value s onward behind e s' escaped read =>
    rename_i inside
    subst here
    obtain ⟨ahead, rfl, le⟩ := Cursor.next?_advance read
    have escape : behind.escapedChar = _ := escapedChar_within pending le n.succ_pos
    rw [escaped] at escape
    rw [ahead, Quotation.decodeFrom, if_neg inside, if_pos rfl]
    generalize Quotation.Escape.ofChars (front.ahead.drop (n + 1)) = meant at escape ⊢
    cases meant with
    | code code length =>
      dsimp only at escape ⊢
      cases decoded : Quotation.charOf? code with
      | some _ => simp [decoded] at escape
      | none =>
        simp only [decoded, Prod.mk.injEq, Except.error.injEq] at escape
        obtain ⟨rfl, rfl⟩ := escape
        rfl
    | unknown | unfinished =>
      obtain ⟨rfl, rfl⟩ : e = _ ∧ s' = _ := by simpa using escape
      rfl
  -- An escape that means a character: `length` characters are read at once, and decoding goes on
  -- behind them.
  | case4 value s onward behind decoded s' escaped read inside =>
    rename_i ih
    subst here
    obtain ⟨ahead, rfl, le⟩ := Cursor.next?_advance read
    have escape : behind.escapedChar = _ := escapedChar_within pending le n.succ_pos
    rw [escaped] at escape
    rw [ahead, Quotation.decodeFrom, if_neg inside, if_pos rfl]
    cases meant : Quotation.Escape.ofChars (front.ahead.drop (n + 1)) with
    | code code length =>
      have length_le := Quotation.Escape.length_le meant
      have within_text := length_le
      rw [List.length_drop] at within_text
      cases char : Quotation.charOf? code with
      | some _ =>
        simp only [meant, char, Prod.mk.injEq, Except.ok.injEq] at escape ⊢
        obtain ⟨rfl, rfl⟩ := escape
        rw [ih (by omega) (by omega) rfl, Quotation.decodeFrom_drop length_le, List.drop_drop]
      | none => simp [meant, char] at escape
    | unknown | unfinished => simp [meant] at escape
  -- Any other character stands for itself.
  | case5 value s ch onward read behind inside plain =>
    rename_i ih
    subst here
    obtain ⟨ahead, rfl, le⟩ := Cursor.next?_advance read
    rw [ahead, Quotation.decodeFrom, if_neg inside, if_neg plain]
    exact ih le n.succ_pos rfl

lemma number_within {digit : Char} {rest : List Char} (ahead : front.ahead = digit :: rest)
    (isDigit : digit.isDigit) : (within front 1 pending).number =
      reading front pending
        (.ok (Lexeme.verbatim .literal (front.ahead.takeWhile Char.isDigit).length front.ahead)) := by
  have width : (front.ahead.takeWhile Char.isDigit).length =
      1 + (rest.takeWhile Char.isDigit).length := by
    rw [ahead, List.takeWhile_cons_of_pos isDigit, List.length_cons, Nat.add_comm]
  have le : (front.ahead.takeWhile Char.isDigit).length ≤ front.ahead.length :=
    (List.takeWhile_prefix _).length_le
  have cursor : ((within front 1 pending).cursor.readWhile Char.isDigit).2 =
      front.advance (front.ahead.takeWhile Char.isDigit).length := by
    rw [Cursor.readWhile_eq, within, Cursor.ahead_advance, Cursor.advance_advance, width, ahead]
    rfl
  rw [number, cursor, reading_verbatim pending le]
  rfl

lemma name_within {ch : Char} {rest : List Char} (ahead : front.ahead = ch :: rest)
    (context : TokenContext) : (within front 1 pending).name context ch =
      reading front pending (Lexeme.name context ch rest) := by
  have behind (n : Nat) : (within front 1 pending).cursor.advance n = front.advance (n + 1) := by
    rw [within, Cursor.advance_advance, Nat.add_comm]
  have cursor : (within front 1 pending).cursor.ahead = rest := by
    rw [within, Cursor.ahead_advance, ahead]
    rfl
  simp only [name, Lexeme.name, Cursor.readWhile_eq, cursor, behind]
  have le : (rest.takeWhile fun c => c == '\\' || Lexeme.isNamePart c).length + 1 ≤
      front.ahead.length := by
    rw [ahead]
    exact Nat.succ_le_succ (List.takeWhile_prefix _).length_le
  generalize (rest.takeWhile fun c => c == '\\' || Lexeme.isNamePart c) = run at le ⊢
  have span := span_within pending le
  have failure := failure_within pending le
  have skipped : (front.advance (run.length + 1)).skipWhile Gap.isBlank =
      front.advance (run.length + 1 + ((rest.drop run.length).takeWhile Gap.isBlank).length) := by
    rw [Cursor.skipWhile_eq, Cursor.ahead_advance, Cursor.advance_advance, ahead, List.drop_succ_cons]
  have called : ((front.advance (run.length + 1)).skipWhile Gap.isBlank).peek? =
      ((rest.drop run.length).drop ((rest.drop run.length).takeWhile Gap.isBlank).length).head? := by
    rw [skipped, Cursor.peek?, Cursor.ahead_advance, ← List.drop_drop, ahead, List.drop_succ_cons]
  simp only [within] at span failure ⊢
  generalize (ch :: run).filter (· != '\\') = text
  by_cases improper : (!text.head?.any Lexeme.isNameStart) = true
  · rw [if_pos improper, if_pos improper, failure]
    rfl
  · rw [if_neg improper, if_neg improper, called, skipped, span]
    cases context with
    | expression => rfl
    | statement => cases Keyword.ofSpelling? (String.ofList text) <;> rfl

/-- The sign at the front of some characters, with the first of the second characters that follows. -/
def signLexeme (alone : Except LexicalFault TokenKind) (chars : List Char) :
    List (Char × Operator) → Except Misread Lexeme
  | [] =>
    match alone with
    | .ok kind => .ok (Lexeme.verbatim kind 1 chars)
    | .error fault => .error ⟨fault, 0, 1⟩
  | (second, op) :: others =>
    if chars.tail.head? = some second then .ok (Lexeme.verbatim (.operator op) 2 chars)
    else signLexeme alone chars others

lemma sign_within (alone : Except LexicalFault TokenKind) (seconds : List (Char × Operator))
    (le : 1 ≤ front.ahead.length) : (within front 1 pending).sign alone seconds =
      reading front pending (signLexeme alone front.ahead seconds) := by
  induction seconds with
  | nil =>
    cases alone with
    | ok kind => exact (reading_verbatim pending le kind).symm
    | error fault => exact (reading_failure pending le fault).symm
  | cons second others ih =>
    have cursor : (within front 1 pending).cursor.ahead = front.ahead.tail := by
      rw [within, Cursor.ahead_advance, List.drop_one]
    rw [sign, signLexeme, Cursor.accept_eq, cursor]
    split
    · next follows =>
      have pair : 2 ≤ front.ahead.length := by
        cases ahead : front.ahead with
        | nil => simp [ahead] at follows
        | cons c rest => cases rest <;> simp_all
      have token := token_within pending pair (.operator second.2)
      simp only [within] at token ⊢
      simp only [Cursor.advance_advance, token, if_true]
      rfl
    · exact ih

/-- The symbols of the operators in the order in which they are tried. -/
def symbols : List (List Char × Operator) :=
  [(['<', '<'], .shiftLeft), (['>', '>'], .shiftRight), (['=', '='], .equal), (['!', '='], .notEqual),
    (['<', '='], .lessEqual), (['>', '='], .greaterEqual), (['+', '+'], .increment),
    (['-', '-'], .decrement), (['&', '&'], .both), (['|', '|'], .either), (['+'], .plus), (['-'], .minus),
    (['*'], .multiply), (['/'], .divide), (['%'], .modulo), (['<'], .less), (['>'], .greater),
    (['!'], .complement)]

lemma operator?_eq_symbols (chars : List Char) :
    Lexeme.operator? chars = (symbols.find? (·.1.isPrefixOf chars)).map (·.2) := by
  have table : symbols = Lexeme.operators.map fun op => (op.symbol.toList, op) := by decide
  rw [Lexeme.operator?, table, List.find?_map, Option.map_map]
  exact (congrFun Option.map_id _).symm

lemma ofChars_sign {c : Char} {rest : List Char} {alone : Except LexicalFault TokenKind}
    {seconds : List (Char × Operator)} (sign : signs? c = some (seconds, alone))
    (context : TokenContext) :
    Lexeme.ofChars context (c :: rest) = signLexeme alone (c :: rest) seconds := by
  unfold signs? at sign
  cases rest with
  | nil => split at sign <;> cases sign <;> rfl
  | cons d rest =>
    -- A second character is the first one again, or `=`.
    by_cases again : d = c
    · subst again
      split at sign <;> cases sign <;> rfl
    by_cases equals : d = '='
    · subst equals
      split at sign <;> cases sign <;> rfl
    split at sign <;> cases sign
    all_goals
      simp [Lexeme.ofChars, Lexeme.punctuation?, operator?_eq_symbols, symbols, List.isPrefixOf,
        signLexeme, again, equals, Ne.symm again, Ne.symm equals]
    all_goals rfl

lemma ofChars_comment (rest : List Char) (context : TokenContext) :
    Lexeme.ofChars context ('/' :: '*' :: rest) =
      .error ⟨.unterminatedComment, 0, ('/' :: '*' :: rest).length⟩ := by
  rw [Lexeme.ofChars, if_pos ⟨rfl, rfl⟩]

lemma ofChars_divide {rest : List Char} (noComment : rest.head? ≠ some '*')
    (context : TokenContext) : Lexeme.ofChars context ('/' :: rest) =
      .ok (Lexeme.verbatim (.operator .divide) 1 ('/' :: rest)) := by
  have found : Lexeme.operator? ('/' :: rest) = some .divide := by
    simp [operator?_eq_symbols, symbols, List.isPrefixOf]
  simp [Lexeme.ofChars, noComment, Lexeme.punctuation?, found]
  rfl

/-- No operator begins with a character that no sign begins with. -/
lemma operator?_eq_none {c : Char} (noSlash : c ≠ '/') (noSign : signs? c = none)
    (rest : List Char) : Lexeme.operator? (c :: rest) = none := by
  have heads : ∀ symbol ∈ symbols, symbol.1.head?.any fun a => a == '/' || (signs? a).isSome := by
    decide
  rw [operator?_eq_symbols, List.find?_eq_none.2, Option.map_none]
  intro symbol mem front
  obtain ⟨behind, eq⟩ := List.isPrefixOf_iff_prefix.1 front
  have head := heads symbol mem
  cases chars : symbol.1 with
  | nil => simp [chars] at head
  | cons a more =>
    rw [chars, List.cons_append] at eq
    obtain ⟨rfl, -⟩ := List.cons.inj eq
    simp [chars, noSlash, noSign] at head

lemma ofChars_punctuation {c : Char} {kind : TokenKind} (noSlash : c ≠ '/')
    (sign : Lexeme.punctuation? c = some kind) (rest : List Char) (context : TokenContext) :
    Lexeme.ofChars context (c :: rest) = .ok (Lexeme.verbatim kind 1 (c :: rest)) := by
  rw [Lexeme.ofChars, if_neg fun opens => noSlash opens.1]
  simp only [sign]

lemma ofChars_other {c : Char} (noSlash : c ≠ '/')
    (noSymbol : ∀ kind, Lexeme.punctuation? c = some kind → False)
    (noSign : ∀ seconds alone, signs? c = some (seconds, alone) → False) (rest : List Char)
    (context : TokenContext) :
    Lexeme.ofChars context (c :: rest) =
      if c = '"' ∨ c = '\'' then
        match Quotation.decode c rest with
        | .ok (text, width) => .ok ⟨.literal, text, width, width⟩
        | .error misread => .error misread
      else if c.isDigit then
        .ok (Lexeme.verbatim .literal ((c :: rest).takeWhile Char.isDigit).length (c :: rest))
      else
        Lexeme.name context c rest := by
  have none_of_symbol : Lexeme.punctuation? c = none := Option.eq_none_iff_forall_ne_some.2 noSymbol
  have none_of_sign : signs? c = none :=
    Option.eq_none_iff_forall_ne_some.2 fun pair => noSign pair.1 pair.2
  -- The signs that are not operators alone are looked for one by one behind the operators.
  have proper (sign : Char) (opens : (signs? sign).isSome = true) : c ≠ sign := by
    rintro rfl
    simp [none_of_sign] at opens
  have read := Lexeme.ofChars.eq_def context (c :: rest)
  dsimp only at read
  rw [if_neg fun opens => noSlash opens.1] at read
  simp only [none_of_symbol, operator?_eq_none noSlash none_of_sign, if_neg (proper '=' rfl),
    if_neg (proper '|' rfl), if_neg (proper '&' rfl)] at read
  exact read

/-! ## Whole tokens -/

/-- A scanner has read what a lexer reads, and has come to the same place. -/
structure ReadsAs (pending : Option Token) (here : Except ScriptError Token × Scanner)
    (there : Except ScriptError Token × Lexer) : Prop where
  result : here.1 = there.1
  cursor : here.2.cursor = there.2.cursor
  pending : here.2.pending = pending

/-- Where no gap is left, the lexeme at the front is read. -/
lemma ReadsAs.of_lexeme {context : TokenContext} (noGap : Gap.length front.ahead = 0)
    {here : Except ScriptError Token × Scanner}
    (read : here = reading front pending (Lexeme.ofChars context front.ahead)) :
    ReadsAs pending here (Lexer.next context ⟨front, none⟩) := by
  have start : Lexer.atToken front = front := by
    rw [Lexer.atToken, noGap]
    rfl
  subst read
  cases lexeme : Lexeme.ofChars context front.ahead <;>
    simp only [Lexer.next, start, lexeme] <;> exact ⟨rfl, rfl, rfl⟩

/-- A gap is passed over piece by piece. -/
lemma ReadsAs.behind_gap {context : TokenContext} {n : Nat} {here : Except ScriptError Token × Scanner}
    (onward : ReadsAs pending here (Lexer.next context ⟨front.advance n, none⟩))
    (gap : Gap.length front.ahead = n + Gap.length (front.ahead.drop n)) :
    ReadsAs pending here (Lexer.next context ⟨front, none⟩) := by
  have same : Lexer.atToken front = Lexer.atToken (front.advance n) := by
    rw [Lexer.atToken, Lexer.atToken, Cursor.ahead_advance, gap, Cursor.advance_advance]
  simp only [Lexer.next, same]
  exact onward

/-- No gap is left in front of a character that is no blank and opens no comment; `read` goes on in the
lexeme that it begins. -/
lemma ReadsAs.of_character {context : TokenContext} {ch : Char} {onward : Cursor}
    (first : front.next? = some (ch, onward)) (noBlank : ¬ Gap.isBlank ch = true) (noSlash : ch ≠ '/')
    (read : Scanner → Except ScriptError Token × Scanner)
    (lexeme : ∀ rest, front.ahead = ch :: rest →
      read (within front 1 pending) = reading front pending (Lexeme.ofChars context (ch :: rest))) :
    ReadsAs pending (read ⟨onward, pending, front.position, front.line⟩)
      (Lexer.next context ⟨front, none⟩) := by
  have ahead := Cursor.ahead_of_next? first
  have noGap : Gap.length front.ahead = 0 := by
    rw [ahead]
    exact Gap.length_eq_zero (by simpa using noBlank) fun slash => absurd slash noSlash
  have begun : within front 1 pending = ⟨onward, pending, front.position, front.line⟩ := by
    rw [within, Cursor.advance_one first]
  refine .of_lexeme pending noGap ?_
  rw [← begun, lexeme onward.ahead ahead, ← ahead]

/-- A line comment is a piece of the gap, and reading on until the line ends passes over it. -/
lemma lineComment_read {onward : Cursor} (first : front.next? = some ('/', onward))
    (opens : (onward.accept '/').1 = true) :
    ∃ n, ((onward.accept '/').2.readWhile (· != '\n')).2 = front.advance n ∧
      Gap.length front.ahead = n + Gap.length (front.ahead.drop n) := by
  obtain ⟨place, rest, ahead⟩ := Cursor.accept_behind first opens
  refine ⟨2 + (rest.takeWhile (· != '\n')).length, ?_, ?_⟩
  · rw [place, Cursor.readWhile_eq, Cursor.advance_advance, Cursor.ahead_advance, ahead]
    rfl
  · rw [ahead, Gap.length_lineComment, ← List.drop_drop]
    rfl

/-- A block comment that is closed is a piece of the gap. -/
lemma blockComment_closed {onward behind : Cursor} (first : front.next? = some ('/', onward))
    (opens : (onward.accept '*').1 = true)
    (comment : (onward.accept '*').2.readComment = (true, behind)) :
    ∃ n, behind = front.advance n ∧
      Gap.length front.ahead = n + Gap.length (front.ahead.drop n) := by
  obtain ⟨place, rest, ahead⟩ := Cursor.accept_behind first opens
  have read := (onward.accept '*').2.readComment_commentRead
  rw [comment, place] at read
  cases read with
  | @closed n le gap =>
    rw [Cursor.ahead_advance, ahead] at gap
    refine ⟨2 + n, Cursor.advance_advance .., ?_⟩
    rw [ahead, Gap.length_blockComment, ← List.drop_drop]
    exact gap 0 2

/-- A block comment that is never closed is no gap, and reading it uses the script up. -/
lemma blockComment_unclosed {onward behind : Cursor} (first : front.next? = some ('/', onward))
    (opens : (onward.accept '*').1 = true)
    (comment : (onward.accept '*').2.readComment = (false, behind)) :
    behind = front.advance front.ahead.length ∧ Gap.length front.ahead = 0 ∧
      ∃ rest, front.ahead = '/' :: '*' :: rest := by
  obtain ⟨place, rest, ahead⟩ := Cursor.accept_behind first opens
  have read := (onward.accept '*').2.readComment_commentRead
  rw [comment, place] at read
  cases read with
  | unclosed gap =>
    rw [Cursor.ahead_advance, ahead] at gap
    refine ⟨?_, ?_, rest, ahead⟩
    · rw [Cursor.advance_advance, Cursor.ahead_advance, ahead, List.length_cons, List.length_cons,
        Nat.add_comm 2]
      rfl
    · rw [ahead, Gap.length_blockComment]
      exact gap 0 2

/-- A slash that opens no comment is the sign of division, and none of what is behind it is read. -/
lemma slash_read {onward : Cursor} (first : front.next? = some ('/', onward))
    (noLine : ¬ (onward.accept '/').1 = true) (noBlock : ¬ (onward.accept '*').1 = true) :
    (onward.accept '*').2 = front.advance 1 ∧ Gap.length front.ahead = 0 ∧
      ∀ context, Lexeme.ofChars context front.ahead =
        .ok (Lexeme.verbatim (.operator .divide) 1 front.ahead) := by
  have noSlash := (Cursor.accept_of_false noLine).2
  obtain ⟨refused, noStar⟩ := Cursor.accept_of_false noBlock
  have ahead : front.ahead = '/' :: onward.ahead := Cursor.ahead_of_next? first
  refine ⟨?_, ?_, fun context => ?_⟩
  · rw [refused, Cursor.advance_one first]
  · rw [ahead]
    exact Gap.length_eq_zero rfl fun _ => And.intro noSlash noStar
  · rw [ahead, ofChars_divide noStar context]

/-- Whatever its registers hold, a scanner reads off the script what a lexer reads. -/
theorem scan_readsAs (context : TokenContext) (s : Scanner) :
    ReadsAs s.pending (s.scan context) (Lexer.next context ⟨s.cursor, none⟩) := by
  -- The scanner starts over behind each piece of a gap, so the induction carries the claim for every
  -- place within the gap; a lexer is at the same token from each of them.
  fun_induction scan context s with
  | case1 s here at_end =>
    -- The script is used up.
    have spent : s.cursor.ahead = [] := Cursor.ahead_of_next?_eq_none at_end
    refine .of_lexeme s.pending (by rw [spent]; rfl) ?_
    rw [show Lexeme.ofChars context s.cursor.ahead = .ok (Lexeme.verbatim .endOfInput 0 s.cursor.ahead)
      by rw [spent]; rfl, reading_verbatim s.pending (Nat.zero_le _)]
    rfl
  | case2 s here ch onward read blank ih =>
    -- A blank is passed over.
    obtain ⟨rest, ahead⟩ : ∃ rest, s.cursor.ahead = ch :: rest := ⟨_, Cursor.ahead_of_next? read⟩
    obtain rfl : s.cursor.advance 1 = onward := Cursor.advance_one read
    refine ih.behind_gap _ ?_
    have gap : Gap.length ([ch] ++ rest) = _ := Gap.length_append_blanks (by simpa using blank) rest
    rw [ahead]
    exact gap
  | case3 s here onward line opens read _ ih =>
    -- `//`: the line is passed over.
    obtain ⟨n, place, gap⟩ := lineComment_read read opens
    rw [show (line.2.readWhile (· != '\n')).2 = _ from place] at ih ⊢
    exact ih.behind_gap _ gap
  | case4 s here onward line block noLine opens behind comment read _ ih =>
    -- `/*` that is closed: the comment is passed over.
    have looked : block = onward.accept '*' := by
      simp only [block, line, (Cursor.accept_of_false noLine).1]
    rw [looked] at opens comment
    obtain ⟨n, rfl, gap⟩ := blockComment_closed read opens comment
    exact ih.behind_gap _ gap
  | case5 s here onward line block noLine opens behind comment here' read _ =>
    -- `/*` that is not closed: both fail, behind the rest of the script.
    have looked : block = onward.accept '*' := by
      simp only [block, line, (Cursor.accept_of_false noLine).1]
    rw [looked] at opens comment
    obtain ⟨rfl, noGap, rest, ahead⟩ := blockComment_unclosed read opens comment
    refine .of_lexeme s.pending noGap ?_
    rw [show s.cursor.ahead = _ from ahead, ofChars_comment, ← ahead,
      reading_failure s.pending (Nat.le_refl _)]
    rfl
  | case6 s here onward line block noLine noBlock here' read _ =>
    -- `/` alone.
    have looked : block = onward.accept '*' := by
      simp only [block, line, (Cursor.accept_of_false noLine).1]
    rw [looked] at noBlock
    obtain ⟨place, noGap, divides⟩ := slash_read read noLine noBlock
    have stop : here' = within s.cursor 1 s.pending := by
      simp only [here', looked, place]
      rfl
    refine .of_lexeme s.pending noGap ?_
    rw [divides, reading_verbatim s.pending (by simp [Cursor.ahead_of_next? read]), stop]
  -- From here on the first character is neither a blank nor a slash, so no gap is left.
  | case7 s here ch onward read noBlank noSlash here' kind symbol =>
    -- Punctuation.
    refine .of_character s.pending read noBlank noSlash (fun s => (.ok (s.token kind), s)) ?_
    intro rest ahead
    rw [ofChars_punctuation noSlash symbol, ← ahead, reading_verbatim s.pending (by simp [ahead])]
  | case8 s here ch onward read noBlank noSlash here' seconds alone signs noSymbol =>
    -- An operator of one sign or two.
    refine .of_character s.pending read noBlank noSlash (sign alone seconds) ?_
    intro rest ahead
    rw [sign_within s.pending alone seconds (by simp [ahead]), ofChars_sign signs, ahead]
  | case9 s here ch onward read noBlank noSlash here' quote noSymbol noSign =>
    -- Quoted text.
    refine .of_character s.pending read noBlank noSlash (string ch []) ?_
    intro rest ahead
    rw [ofChars_other noSlash noSymbol noSign, if_pos quote,
      string_within s.pending ch [] (by simp [ahead]) Nat.one_pos, ahead, Quotation.decode]
    cases decoded : Quotation.decodeFrom ch 0 1 [] rest <;> simp [decoded]
  | case10 s here ch onward read noBlank noSlash here' noQuote digit noSymbol noSign =>
    -- Digits.
    refine .of_character s.pending read noBlank noSlash number ?_
    intro rest ahead
    rw [ofChars_other noSlash noSymbol noSign, if_neg noQuote, if_pos digit,
      number_within s.pending ahead digit, ahead]
  | case11 s here ch onward read noBlank noSlash here' noQuote noDigit noSymbol noSign =>
    -- A name or a keyword, or a character that begins nothing.
    refine .of_character s.pending read noBlank noSlash (name context ch) ?_
    intro rest ahead
    rw [ofChars_other noSlash noSymbol noSign, if_neg noQuote, if_neg noDigit,
      name_within s.pending ahead context]

/-- A scanner reads what a lexer reads, and comes to the same place.  What its registers hold when the
read begins makes no difference. -/
theorem next_lexer (context : TokenContext) (s : Scanner) :
    (s.next context).1 = (s.lexer.next context).1 ∧
      (s.next context).2.lexer = (s.lexer.next context).2 := by
  obtain ⟨cursor, pending, start, line⟩ := s
  cases pending with
  | some token => exact ⟨rfl, rfl⟩
  | none =>
    obtain ⟨result, place, pending⟩ := scan_readsAs context ⟨cursor, none, start, line⟩
    refine ⟨result, Lexer.ext place ?_⟩
    exact pending.trans (Lexer.pending_next_eq_none context ⟨cursor, none⟩).symm

end Scanner

end ScriptEngine
