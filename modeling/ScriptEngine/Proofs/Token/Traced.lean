import ScriptEngine.Proofs.Token.Replay
import ScriptEngine.Proofs.Token.Source

/-!
# A scanner that keeps a record

A `Traced` scanner reads off a `Source`, so that all that it does with the text is on record: each character
that it reads or puts back, each text of a token that it takes out, and the place that it asks for when an
escape is unknown.

What it does is what a scanner does, and all of it is fair (`Traced.Does`), on every way out of a token.
To a client it is a lexer (`Reader.observe_traced`).
-/

namespace ScriptEngine

namespace Scanner

/-! ## Scanning by the first character -/

lemma string_step (quote : Char) (value : List Char) (s : Scanner) : s.string quote value =
    match s.cursor.next? with
    | none => (.error (s.failure .unmatchedQuote), s)
    | some (c, onward) =>
      let behind : Scanner := { s with cursor := onward }
      if c = quote then
        (.ok ⟨.literal, String.ofList value.reverse, behind.span⟩, behind)
      else if c = '\\' then
        match behind.escapedChar with
        | (.error e, s) => (.error e, s)
        | (.ok decoded, s) => s.string quote (decoded :: value)
      else
        behind.string quote (c :: value) := by
  rw [string]
  split <;> simp only [*]
  congr 2
  split <;> simp only [*]

/-- Reads on in a token whose first character has been read. -/
def lexeme (context : TokenContext) (first : Char) (s : Scanner) : Except ScriptError Token × Scanner :=
  if let some kind := Lexeme.punctuation? first then (.ok (s.token kind), s)
  else if let some (seconds, alone) := signs? first then s.sign alone seconds
  else if first = '"' ∨ first = '\'' then s.string first []
  else if first.isDigit then s.number
  else s.name context first

lemma scan_step (context : TokenContext) (s : Scanner) : s.scan context =
    let s : Scanner := { s with start := s.cursor.position, line := s.cursor.line }
    match s.cursor.next? with
    | none => (.ok (s.token .endOfInput), s)
    | some (c, onward) =>
      if Gap.isBlank c then
        scan context { s with cursor := onward }
      else if c = '/' then
        let line := onward.accept '/'
        let block := line.2.accept '*'
        if line.1 then
          scan context { s with cursor := (line.2.readWhile (· != '\n')).2 }
        else if block.1 then
          let comment := block.2.readComment
          let behind : Scanner := { s with cursor := comment.2 }
          if comment.1 then scan context behind
          else (.error (behind.failure .unterminatedComment), behind)
        else
          let s := { s with cursor := block.2 }
          (.ok (s.token (.operator .divide)), s)
      else
        lexeme context c { s with cursor := onward } := by
  rw [scan]
  dsimp only
  split
  · next here => simp only [here]
  · next c onward here =>
    simp only [here]
    split
    · rfl
    split
    · split
      · rfl
      split
      · split <;> simp only [*, if_true, if_false, Bool.false_eq_true]
      · rfl
    · rfl

end Scanner

/-- A scanner that reads off a source which keeps a record. -/
structure Traced where
  source : Source
  pending : Option Token := none
  start : Nat := 0
  line : Nat := 1

namespace Traced

/-- A traced scanner at the start of `script`, with nothing recorded. -/
def ofScript (script : String) : Traced :=
  { source := { cursor := .start script.toList } }

/-- The scanner without its record. -/
def scanner (s : Traced) : Scanner :=
  ⟨s.source.cursor, s.pending, s.start, s.line⟩

/-- The scanner without its record and its registers. -/
def lexer (s : Traced) : Lexer :=
  s.scanner.lexer

def span (s : Traced) : Span :=
  s.scanner.span

def failure (fault : LexicalFault) (s : Traced) : ScriptError :=
  s.scanner.failure fault

/-- Ends a token whose text is what has been read. -/
def finish (kind : TokenKind) (s : Traced) : Except ScriptError Token × Traced :=
  let taken := s.source.slice s.start s.source.cursor.position
  (.ok ⟨kind, String.ofList taken.1, s.span⟩, { s with source := taken.2 })

/-- Goes on where a reader has come to, with what `f` makes of its result. -/
def goOn {α : Type} (f : α → Except ScriptError Nat) (did : α × Source) (s : Traced) :
    Except ScriptError Nat × Traced :=
  (f did.1, { s with source := did.2 })

/-- Reads what stands behind a backslash in a quoted text: the code point that is meant. -/
def escape (s : Traced) : Except ScriptError Nat × Traced :=
  match s.source.next with
  | (none, source) => (.error (s.failure .unmatchedQuote), { s with source })
  | (some letter, source) =>
    match letter with
    | 'n' => (.ok 10, { s with source })
    | 'b' => (.ok 8, { s with source })
    | 'f' => (.ok 12, { s with source })
    | 'r' => (.ok 13, { s with source })
    | 't' => (.ok 9, { s with source })
    | '\'' | '"' | '\\' => (.ok letter.toNat, { s with source })
    | 'x' => s.goOn .ok (source.readDigits 16 2 0)
    | 'u' =>
      let high := source.readDigits 16 2 0
      s.goOn (fun low => .ok (high.1 * 256 + low)) (high.2.readDigits 16 2 0)
    | _ =>
      if letter.isDigit then
        s.goOn .ok ((source.putBack letter).readDigits 8 3 0)
      else
        let unknown (first : Nat) : ScriptError :=
          ⟨.lexical (.unknownEscape letter), ⟨first, source.cursor.position, s.line⟩⟩
        s.goOn (fun first => .error (unknown first)) (source.back 2)

/-- Reads what stands behind a backslash in a quoted text: the character that is meant. -/
def escapedChar (s : Traced) : Except ScriptError Char × Traced :=
  match s.escape with
  | (.error e, s) => (.error e, s)
  | (.ok code, s) =>
    match Quotation.charOf? code with
    | some decoded => (.ok decoded, s)
    | none => (.error (s.failure (.invalidCodePoint code)), s)

/-! ## With a record and without one -/

/-- What was done with a record is what a scanner does without one.  All of it was fair, if all before was
fair, and where `n` characters of the text had been read, at least as many still are. -/
structure Does {α : Type} (n : Nat) (s : Traced) (did : α × Traced) (alone : α × Scanner) : Prop where
  same : (did.1, did.2.scanner) = alone
  sound : ∀ {text}, s.source.Sound text n → did.2.source.Sound text n

section

variable {α β : Type} {n : Nat} {s : Traced} {did : α × Traced} {alone : α × Scanner}

lemma next?_eq_none {source : Source} (read : s.source.next = (none, source)) :
    s.scanner.cursor.next? = none :=
  (Source.next_eq_none read).1

lemma next?_eq_some {ch : Char} {source : Source} (read : s.source.next = (some ch, source)) :
    s.scanner.cursor.next? = some (ch, source.cursor) :=
  (Source.next_eq_some read).1

namespace Does

lemma nothing (a : α) (n : Nat) (s : Traced) : Does n s (a, s) (a, s.scanner) :=
  ⟨rfl, id⟩

lemma atEnd {source : Source} (read : s.source.next = (none, source)) (a : α) (n : Nat) :
    Does n s (a, { s with source }) (a, s.scanner) := by
  refine ⟨?_, fun sound => sound.next_none read⟩
  rw [(Source.next_eq_none read).2]
  rfl

lemma onward {ch : Char} {source : Source} (read : s.source.next = (some ch, source))
    (does : Does (n + 1) { s with source } did alone) : Does n s did alone :=
  ⟨does.same, fun sound => (does.sound (sound.next read)).mono (Nat.le_succ n)⟩

lemma behind {first : β × Source} {firstAlone : β × Cursor} (before : s.source.Does first firstAlone)
    (does : Does n { s with source := first.2 } did alone) : Does n s did alone :=
  ⟨does.same, fun sound => does.sound (before.sound sound)⟩

lemma andThen {first : β × Traced} {firstAlone : β × Scanner} (before : Does n s first firstAlone)
    (does : Does n first.2 did alone) : Does n s did alone :=
  ⟨does.same, fun sound => does.sound (before.sound sound)⟩

lemma scanner_eq (does : Does n s did alone) : did.2.scanner = alone.2 :=
  congrArg Prod.snd does.same

/-- At the start of a token the registers are set. -/
lemma begun (start line : Nat) (does : Does n { s with start, line } did alone) : Does n s did alone :=
  ⟨does.same, does.sound⟩

/-- As many characters have been read as stand in front of the place. -/
lemma fromHere (does : Does s.source.cursor.position s did alone) : Does 0 s did alone :=
  ⟨does.same, fun sound =>
    (does.sound { sound with onward := Nat.le_refl _ }).mono (Nat.zero_le _)⟩

end Does

/-- The text of a token may be taken out once its start has been passed. -/
lemma finish_does (kind : TokenKind) (passed : s.start ≤ n) :
    Does n s (s.finish kind) (.ok (s.scanner.token kind), s.scanner) :=
  ⟨rfl, fun sound => sound.slice (passed.trans sound.onward) sound.cursor.inside⟩

lemma goOn_does {did : α × Source} {alone : α × Cursor} (does : s.source.Does did alone) (n : Nat)
    (f : α → Except ScriptError Nat) :
    Does n s (s.goOn f did) (f alone.1, { s.scanner with cursor := alone.2 }) :=
  ⟨by rw [← does.same]; rfl, fun sound => does.sound sound⟩

end

/-- The place of an unknown escape lies two characters back: the backslash and the letter have been read. -/
lemma escape_does (n : Nat) (s : Traced) : Does (n + 1) s s.escape s.scanner.escape := by
  unfold escape Scanner.escape
  split
  · next source read =>
    rw [next?_eq_none read]
    exact .atEnd read _ (n + 1)
  · next letter source read =>
    rw [next?_eq_some read]
    have code (value : Nat) : Does (n + 1) s ((.ok value : Except ScriptError Nat), { s with source })
        (.ok value, { s.scanner with cursor := source.cursor }) :=
      .onward read (.nothing _ _ _)
    dsimp only
    split
    -- Three letters are left apart: `x`, `u`, and any that is not in the table.
    case h_9 =>
      exact goOn_does (.onward read (source.readDigits_does 16 2 0)) (n + 1) .ok
    case h_10 =>
      have high := source.readDigits_does 16 2 0
      have low := (source.readDigits 16 2 0).2.readDigits_does 16 2 0
      rw [← high.same]
      exact goOn_does (.onward read (high.andThen low)) (n + 1) fun low =>
        .ok ((source.readDigits 16 2 0).1 * 256 + low)
    case h_11 =>
      by_cases digit : letter.isDigit = true
      · simp only [*, if_true]
        exact goOn_does ((Source.Does.handedBack read ()).andThen
          ((source.putBack letter).readDigits_does 8 3 0)) (n + 1) .ok
      · simp only [*]
        refine ⟨rfl, fun sound => ?_⟩
        exact ((sound.next read).back (by omega)).mono (Nat.le_succ _)
    all_goals exact code _

lemma escapedChar_does (n : Nat) (s : Traced) :
    Does (n + 1) s s.escapedChar s.scanner.escapedChar := by
  have escape := escape_does n s
  unfold escapedChar Scanner.escapedChar
  rw [← escape.same]
  generalize s.escape = did at escape ⊢
  obtain ⟨e | code, behind⟩ := did
  · exact escape.andThen (.nothing _ _ _)
  · dsimp only
    cases Quotation.charOf? code with
    | some decoded => exact escape.andThen (.nothing _ _ _)
    | none => exact escape.andThen (.nothing _ _ _)

lemma escapedChar_length_le (s : Traced) :
    s.escapedChar.2.source.cursor.ahead.length ≤ s.source.cursor.ahead.length := by
  have same : s.escapedChar.2.source.cursor = s.scanner.escapedChar.2.cursor :=
    congrArg Scanner.cursor (escapedChar_does 0 s).scanner_eq
  rw [same]
  exact s.scanner.escapedChar_length_le

/-! ## Reading a token -/

/-- Reads on in a quoted text up to the closing quote.  What has been read stands for `value`, its last
character first. -/
def string (quote : Char) (value : List Char) (s : Traced) : Except ScriptError Token × Traced :=
  match _ : s.source.next with
  | (none, source) => (.error (s.failure .unmatchedQuote), { s with source })
  | (some ch, source) =>
    let behind : Traced := { s with source }
    if ch = quote then
      (.ok ⟨.literal, String.ofList value.reverse, behind.span⟩, behind)
    else if ch = '\\' then
      match _ : behind.escapedChar with
      | (.error e, s) => (.error e, s)
      | (.ok decoded, s) => s.string quote (decoded :: value)
    else
      behind.string quote (ch :: value)
termination_by s.source.cursor.ahead.length
decreasing_by
  · rename_i read _ _ escaped
    have behind_le := escapedChar_length_le behind
    rw [escaped] at behind_le
    exact behind_le.trans_lt (Source.ahead_length_lt read)
  · exact Source.ahead_length_lt ‹_›

/-- Reads on in a number. -/
def number (s : Traced) : Except ScriptError Token × Traced :=
  finish .literal { s with source := (s.source.readWhile Char.isDigit).2 }

/-- Reads on in a name whose first character has been read, and behind it up to a parenthesis, if there is
one behind the blanks. -/
def name (context : TokenContext) (first : Char) (s : Traced) : Except ScriptError Token × Traced :=
  let more := s.source.readWhile fun c => c == '\\' || Lexeme.isNamePart c
  let text := (first :: more.1).filter (· != '\\')
  let s := { s with source := more.2 }
  if !text.head?.any Lexeme.isNameStart then
    (.error (s.failure (.invalidName (String.ofList text))), s)
  else
    match context, Keyword.ofSpelling? (String.ofList text) with
    | .statement, some word => (.ok ⟨.keyword word, String.ofList text, s.span⟩, s)
    | _, _ =>
      let behind := s.source.skipWhile Gap.isBlank
      let called := behind.cursor.peek? == some '('
      (.ok ⟨if called then .callName else .name, String.ofList text, s.span⟩,
        { s with source := behind })

/-- Reads the second character of a sign if it is one that the sign can go on with. -/
def sign (alone : Except LexicalFault TokenKind) :
    List (Char × Operator) → Traced → Except ScriptError Token × Traced
  | [], s =>
    match alone with
    | .ok kind => s.finish kind
    | .error fault => (.error (s.failure fault), s)
  | (second, op) :: others, s =>
    let looked := s.source.accept second
    let s := { s with source := looked.2 }
    if looked.1 then s.finish (.operator op) else s.sign alone others

/-- Reads on in a token whose first character has been read. -/
def lexeme (context : TokenContext) (first : Char) (s : Traced) : Except ScriptError Token × Traced :=
  if let some kind := Lexeme.punctuation? first then s.finish kind
  else if let some (seconds, alone) := Scanner.signs? first then s.sign alone seconds
  else if first = '"' ∨ first = '\'' then s.string first []
  else if first.isDigit then s.number
  else s.name context first

/-- Reads the next token off the script. -/
def scan (context : TokenContext) (s : Traced) : Except ScriptError Token × Traced :=
  let s : Traced := { s with start := s.source.cursor.position, line := s.source.cursor.line }
  match _ : s.source.next with
  | (none, source) => finish .endOfInput { s with source }
  | (some ch, onward) =>
    if Gap.isBlank ch then
      scan context { s with source := onward }
    else if ch = '/' then
      let line := onward.accept '/'
      let block := line.2.accept '*'
      if line.1 then
        scan context { s with source := (line.2.readWhile (· != '\n')).2 }
      else if block.1 then
        let comment := block.2.readComment
        let behind : Traced := { s with source := comment.2 }
        if comment.1 then scan context behind
        else (.error (behind.failure .unterminatedComment), behind)
      else
        finish (.operator .divide) { s with source := block.2 }
    else
      lexeme context ch { s with source := onward }
termination_by s.source.cursor.ahead.length
decreasing_by
  · exact Source.ahead_length_lt ‹_›
  · exact ((Source.readWhile_length_le _ _).trans (Source.accept_length_le _ _)).trans_lt
      (Source.ahead_length_lt ‹_›)
  · exact (Source.readComment_length_le _).trans_lt ((Source.accept_length_le _ _).trans_lt
      ((Source.accept_length_le _ _).trans_lt (Source.ahead_length_lt ‹_›)))

/-! ## The same without a record -/

lemma string_does (quote : Char) (value : List Char) (n : Nat) (s : Traced) :
    Does n s (s.string quote value) (s.scanner.string quote value) := by
  fun_induction string quote value s generalizing n with
  | case1 value s source read =>
    rw [Scanner.string_step, next?_eq_none read]
    exact .atEnd read _ n
  | case2 value s source behind read =>
    rw [Scanner.string_step, next?_eq_some read]
    simp only [if_true]
    exact .onward read (.nothing _ _ behind)
  | case3 value s source behind e after escaped read noQuote =>
    have escape := escapedChar_does n behind
    rw [escaped] at escape
    rw [Scanner.string_step, next?_eq_some read]
    simp only [if_neg noQuote, if_true]
    rw [show Scanner.escapedChar ⟨source.cursor, s.scanner.pending, s.scanner.start, s.scanner.line⟩ = _
      from escape.same.symm]
    exact .onward read (escape.andThen (.nothing _ _ after))
  | case4 value s source behind decoded after escaped read noQuote ih =>
    have escape := escapedChar_does n behind
    rw [escaped] at escape
    rw [Scanner.string_step, next?_eq_some read]
    simp only [if_neg noQuote, if_true]
    rw [show Scanner.escapedChar ⟨source.cursor, s.scanner.pending, s.scanner.start, s.scanner.line⟩ = _
      from escape.same.symm]
    exact .onward read (escape.andThen (ih (n + 1)))
  | case5 value s ch source read behind noQuote noEscape ih =>
    rw [Scanner.string_step, next?_eq_some read]
    simp only [if_neg noQuote, if_neg noEscape]
    exact .onward read (ih (n + 1))

lemma number_does {n : Nat} {s : Traced} (passed : s.start ≤ n) :
    Does n s s.number s.scanner.number := by
  have digits := s.source.readWhile_does Char.isDigit
  unfold number Scanner.number
  rw [show (s.scanner.cursor.readWhile _).2 = _ from digits.cursor_eq.symm]
  exact .behind digits (finish_does .literal passed)

lemma name_does (context : TokenContext) (first : Char) (n : Nat) (s : Traced) :
    Does n s (s.name context first) (s.scanner.name context first) := by
  have more := s.source.readWhile_does fun c => c == '\\' || Lexeme.isNamePart c
  unfold name Scanner.name
  rw [show s.scanner.cursor.readWhile _ = _ from more.same.symm]
  generalize s.source.readWhile _ = did at more ⊢
  dsimp only
  split
  · exact .behind more (.nothing _ _ _)
  · have blanks := did.2.skipWhile_does Gap.isBlank
    rw [show did.2.cursor.skipWhile _ = _ from blanks.cursor_eq.symm]
    generalize Keyword.ofSpelling? _ = word
    cases context <;> cases word
    case statement.some => exact .behind more (.nothing _ _ _)
    all_goals exact .behind more (.behind blanks (.nothing _ _ _))

lemma sign_does (alone : Except LexicalFault TokenKind) (seconds : List (Char × Operator)) {n : Nat}
    {s : Traced} (passed : s.start ≤ n) :
    Does n s (s.sign alone seconds) (s.scanner.sign alone seconds) := by
  induction seconds generalizing s with
  | nil =>
    cases alone with
    | ok kind => exact finish_does kind passed
    | error fault => exact .nothing _ n s
  | cons second others ih =>
    have looked := s.source.accept_does second.1
    unfold sign Scanner.sign
    rw [show s.scanner.cursor.accept second.1 = _ from looked.same.symm]
    dsimp only
    split
    · exact .behind looked (finish_does _ passed)
    · exact .behind looked (ih passed)

lemma lexeme_does (context : TokenContext) (first : Char) {n : Nat} {s : Traced} (passed : s.start ≤ n) :
    Does n s (s.lexeme context first) (s.scanner.lexeme context first) := by
  unfold lexeme Scanner.lexeme
  split
  · exact finish_does _ passed
  split
  · exact sign_does _ _ passed
  split
  · exact string_does first [] n s
  split
  · exact number_does passed
  · exact name_does context first n s

lemma scan_does (context : TokenContext) (s : Traced) :
    Does 0 s (s.scan context) (s.scanner.scan context) := by
  have accept (ch : Char) (source : Source) : source.cursor.accept ch = _ :=
    (source.accept_does ch).same.symm
  have readComment (source : Source) : source.cursor.readComment = _ :=
    source.readComment_does.same.symm
  -- Behind each piece of the gap the registers are set again, so the induction can promise nothing about
  -- how much of the token has been read.
  fun_induction scan context s with
  | case1 s here source read =>
    have spent : s.scanner.cursor.next? = none := next?_eq_none read
    obtain ⟨-, rfl⟩ := Source.next_eq_none read
    simp only [Scanner.scan_step context s.scanner, spent]
    exact .begun _ _ (.fromHere (.behind (.atEnd read ()) (finish_does _ (Nat.le_refl _))))
  | case2 s here ch source read blank ih =>
    have next : s.scanner.cursor.next? = some (ch, source.cursor) := next?_eq_some read
    simp only [Scanner.scan_step context s.scanner, next, if_pos blank]
    exact .begun _ _ (.behind (.onward read (.nothing () source)) ih)
  | case3 s here source line opens read noBlank ih =>
    have next : s.scanner.cursor.next? = some ('/', source.cursor) := next?_eq_some read
    have toEnd := line.2.readWhile_does (· != '\n')
    simp only [Scanner.scan_step context s.scanner, next, if_neg noBlank, if_true, accept]
    rw [if_pos opens, show (Cursor.readWhile _ _).2 = _ from toEnd.cursor_eq.symm]
    exact .begun _ _ (.behind (.onward read ((source.accept_does '/').andThen toEnd)) ih)
  | case4 s here source line block noLine opens comment behind closed read noBlank ih =>
    have next : s.scanner.cursor.next? = some ('/', source.cursor) := next?_eq_some read
    simp only [Scanner.scan_step context s.scanner, next, if_neg noBlank, if_true, accept, readComment]
    rw [if_neg noLine, if_pos opens, if_pos closed]
    exact .begun _ _ (.behind (.onward read ((source.accept_does '/').andThen
      ((line.2.accept_does '*').andThen block.2.readComment_does))) ih)
  | case5 s here source line block noLine opens comment behind unclosed read noBlank =>
    have next : s.scanner.cursor.next? = some ('/', source.cursor) := next?_eq_some read
    simp only [Scanner.scan_step context s.scanner, next, if_neg noBlank, if_true, accept, readComment]
    rw [if_neg noLine, if_pos opens, if_neg unclosed]
    exact .begun _ _ (.behind (.onward read ((source.accept_does '/').andThen
      ((line.2.accept_does '*').andThen block.2.readComment_does))) (.nothing _ _ _))
  | case6 s here source line block noLine noBlock read noBlank =>
    have next : s.scanner.cursor.next? = some ('/', source.cursor) := next?_eq_some read
    simp only [Scanner.scan_step context s.scanner, next, if_neg noBlank, if_true, accept]
    rw [if_neg noLine, if_neg noBlock]
    exact .begun _ _ (.fromHere (.behind (.onward read ((source.accept_does '/').andThen
      (line.2.accept_does '*'))) (finish_does _ (Nat.le_refl _))))
  | case7 s here ch source read noBlank noSlash =>
    have next : s.scanner.cursor.next? = some (ch, source.cursor) := next?_eq_some read
    simp only [Scanner.scan_step context s.scanner, next, if_neg noBlank, if_neg noSlash]
    exact .begun _ _ (.fromHere (.onward read (lexeme_does context ch (Nat.le_succ _))))

/-- Reads the next token, or returns the one handed back. -/
def next (context : TokenContext) (s : Traced) : Except ScriptError Token × Traced :=
  match s.pending with
  | some token => (.ok token, { s with pending := none })
  | none => s.scan context

lemma next_does (context : TokenContext) (s : Traced) :
    Does 0 s (s.next context) (s.scanner.next context) := by
  obtain ⟨source, _ | token, start, line⟩ := s
  · exact scan_does context _
  · exact ⟨rfl, id⟩

/-- The first digit of an octal escape is read twice, and so is the character behind the last one. -/
example : ((ofScript "'\\19'").next .expression).2.source.record.reverse.map (·.access) =
    [.next (some '\''), .next (some '\\'), .next (some '1'), .putBack '1', .next (some '1'),
      .next (some '9'), .putBack '9', .next (some '9'), .next (some '\'')] := by
  with_unfolding_all rfl

end Traced

instance : Reader Traced where
  next := Traced.next
  pushBack token s := { s with pending := some token }
  save s := ⟨s.source.cursor.mark, s.pending⟩
  restore snapshot s :=
    { s with source := s.source.moveTo snapshot.mark, pending := snapshot.pending }
  position s := s.pending.elim s.source.cursor.position (·.span.start)
  line s := s.pending.elim s.source.cursor.line (·.span.line)

namespace Reader

lemma position_traced (s : Traced) : position s = position s.lexer := by
  obtain ⟨source, _ | token, start, line⟩ := s <;> rfl

lemma line_traced (s : Traced) : line s = line s.lexer := by
  obtain ⟨source, _ | token, start, line⟩ := s <;> rfl

/-- An operation on a traced scanner is answered as on a lexer. -/
lemma carryOut_traced (operation : Operation) (s : Traced) :
    (carryOut operation s).1 = (carryOut operation s.lexer).1 ∧
      (carryOut operation s).2.lexer = (carryOut operation s.lexer).2 := by
  cases operation with
  | next context =>
    have same := (s.next_does context).same
    obtain ⟨result, place⟩ := s.scanner.next_lexer context
    rw [← same] at result place
    exact ⟨congrArg Answer.read result, place⟩
  | pushBack | save | restore | look => exact ⟨rfl, rfl⟩

lemma run_traced (operations : List Operation) (s : Traced) :
    (run operations s).lexer = run operations s.lexer := by
  induction operations generalizing s with
  | nil => rfl
  | cons operation operations ih =>
    rw [run, run, List.foldl_cons, List.foldl_cons, ← (carryOut_traced operation s).2]
    exact ih _

/-- Whatever is done with a traced scanner, its record is never seen. -/
theorem observe_traced (client : Client) (n : Nat) (seen : List Observation) (s : Traced) :
    observe client n seen s = observe client n seen s.lexer := by
  induction n generalizing seen s with
  | zero => rfl
  | succ n ih =>
    obtain ⟨answer, behind⟩ := carryOut_traced (client seen) s
    rw [observe, observe, ih, ← behind, position_traced, line_traced, answer]

end Reader
end ScriptEngine
