import Mathlib.Data.List.Forall2
import ScriptEngine.Proofs.Token.Tiling

/-!
# Writing quoted texts

A character can be written between quotes in several ways: as it is, behind a backslash, by the letter
of an escape, or by the digits of its code point (`Quotation.Spelling`).  However each character of a
text is written, a lexer reads the text back, and it stops right behind the closing quote
(`quoted_text_reads_back`).

An escape takes as many characters as it is written with, even where the characters behind it could
belong to it: an octal escape has three digits and no more, and what follows stands for itself.
-/

namespace ScriptEngine
namespace Quotation

/-! ## Spellings -/

/-- The character is a digit of base sixteen, in either case if it is a letter. -/
def IsHexDigit (digit : Nat) (c : Char) : Prop :=
  digit < 16 ∧ (c = digit.digitChar ∨ c = digit.digitChar.toUpper)

/-- The letters that have a meaning of their own behind a backslash. -/
def letters : List (Char × Char) :=
  [('n', '\n'), ('b', '\x08'), ('f', '\x0c'), ('r', '\r'), ('t', '\t')]

/-- The ways to write the character `c` between two of these quotes. -/
inductive Spelling (quote c : Char) : List Char → Prop
  | plain (inside : c ≠ quote) (noEscape : c ≠ '\\') : Spelling quote c [c]
  | sign (sign : c = '\'' ∨ c = '"' ∨ c = '\\') : Spelling quote c ['\\', c]
  | letter {letter : Char} (meant : (letter, c) ∈ letters) : Spelling quote c ['\\', letter]
  /-- Three octal digits. -/
  | octal {a b d : Nat} (digits : a < 8 ∧ b < 8 ∧ d < 8) (code : c.toNat = (a * 8 + b) * 8 + d) :
    Spelling quote c ['\\', a.digitChar, b.digitChar, d.digitChar]
  /-- Two hexadecimal digits. -/
  | short {h l : Char} {a b : Nat} (high : IsHexDigit a h) (low : IsHexDigit b l)
    (code : c.toNat = a * 16 + b) : Spelling quote c ['\\', 'x', h, l]
  /-- Two times two hexadecimal digits.  The code point of a character is no surrogate. -/
  | long {h l h' l' : Char} {a b a' b' : Nat} (high : IsHexDigit a h) (low : IsHexDigit b l)
    (high' : IsHexDigit a' h') (low' : IsHexDigit b' l')
    (code : c.toNat = (a * 16 + b) * 256 + (a' * 16 + b')) :
    Spelling quote c ['\\', 'u', h, l, h', l']

variable {quote c : Char} {spelling rest : List Char}

/-- Every character can be written between any quotes that quotes can be written between. -/
lemma Spelling.exists (isQuote : quote = '"' ∨ quote = '\'') (c : Char) :
    ∃ spelling, Spelling quote c spelling := by
  by_cases closes : c = quote
  · exact ⟨_, .sign (by rcases isQuote with rfl | rfl <;> simp [closes])⟩
  by_cases escapes : c = '\\'
  · exact ⟨_, .sign (by simp [escapes])⟩
  · exact ⟨_, .plain closes escapes⟩

lemma exists_spellings (isQuote : quote = '"' ∨ quote = '\'') (text : List Char) :
    ∃ spellings, List.Forall₂ (Spelling quote) text spellings := by
  induction text with
  | nil => exact ⟨[], .nil⟩
  | cons c text ih =>
    obtain ⟨spelling, here⟩ := Spelling.exists isQuote c
    obtain ⟨spellings, onward⟩ := ih
    exact ⟨spelling :: spellings, .cons here onward⟩

/-! ## Escapes -/

lemma digitIn?_octal : ∀ digit < 8, digitIn? 8 digit.digitChar = some digit := by
  decide

lemma digitIn?_hex {digit : Nat} (isDigit : IsHexDigit digit c) : digitIn? 16 c = some digit := by
  have both : ∀ digit < 16, digitIn? 16 digit.digitChar = some digit ∧
      digitIn? 16 digit.digitChar.toUpper = some digit := by
    decide
  obtain ⟨within, rfl | rfl⟩ := isDigit
  · exact (both digit within).1
  · exact (both digit within).2

lemma ne_lineFeed_of_isHexDigit {digit : Nat} (isDigit : IsHexDigit digit c) : '\n' ≠ c := by
  rintro rfl
  cases digitIn?_hex isDigit

lemma numberFrom_cons {base digit : Nat} (isDigit : digitIn? base c = some digit)
    (value count most : Nat) (rest : List Char) :
    numberFrom base value count (most + 1) (c :: rest) =
      numberFrom base (value * base + digit) (count + 1) most rest := by
  rw [numberFrom, isDigit]

/-- Two hexadecimal digits are read as what they write, whatever stands behind them. -/
lemma number_hex {h l : Char} {a b : Nat} (high : IsHexDigit a h) (low : IsHexDigit b l)
    (rest : List Char) : number 16 2 (h :: l :: rest) = (a * 16 + b, 2) := by
  rw [number, numberFrom_cons (digitIn?_hex high), numberFrom_cons (digitIn?_hex low), numberFrom]
  simp

lemma number_octal {a b d : Nat} (digits : a < 8 ∧ b < 8 ∧ d < 8) (rest : List Char) :
    number 8 3 (a.digitChar :: b.digitChar :: d.digitChar :: rest) = ((a * 8 + b) * 8 + d, 3) := by
  obtain ⟨first, second, third⟩ := digits
  rw [number, numberFrom_cons (digitIn?_octal a first), numberFrom_cons (digitIn?_octal b second),
    numberFrom_cons (digitIn?_octal d third), numberFrom]
  simp

/-- Behind a backslash a decimal digit opens a number. -/
lemma ofChars_digit {letter : Char} (digit : letter.isDigit) (rest : List Char) :
    Escape.ofChars (letter :: rest) =
      .code (number 8 3 (letter :: rest)).1 (number 8 3 (letter :: rest)).2 := by
  simp only [Escape.ofChars]
  split <;> first | exact absurd digit (by decide) | exact if_pos digit

lemma charOf?_toNat (c : Char) : charOf? c.toNat = some c := by
  have valid : c.toNat.isValidChar := c.valid
  have back := Char.ofNat_toNat c
  rw [Char.ofNat, dif_pos valid] at back
  rw [charOf?, dif_pos valid, back]

/-- A character is written as it is, or by an escape that means it. -/
lemma Spelling.cases_escape (spelled : Spelling quote c spelling) :
    (spelling = [c] ∧ c ≠ quote ∧ c ≠ '\\') ∨
      ∃ escape, spelling = '\\' :: escape ∧ '\n' ∉ escape ∧
        ∀ rest, Escape.ofChars (escape ++ rest) = .code c.toNat escape.length := by
  cases spelled with
  | plain inside noEscape => exact .inl ⟨rfl, inside, noEscape⟩
  | sign sign =>
    refine .inr ⟨[c], rfl, ?_, fun rest => ?_⟩ <;> rcases sign with rfl | rfl | rfl
    all_goals first | decide | rfl
  | letter meant =>
    simp only [letters, List.mem_cons, Prod.mk.injEq, List.not_mem_nil, or_false] at meant
    rcases meant with ⟨rfl, rfl⟩ | ⟨rfl, rfl⟩ | ⟨rfl, rfl⟩ | ⟨rfl, rfl⟩ | ⟨rfl, rfl⟩
    all_goals exact .inr ⟨_, rfl, by decide, fun rest => rfl⟩
  | @octal a b d digits code =>
    have digit : ∀ n < 8, n.digitChar.isDigit ∧ n.digitChar ≠ '\n' := by decide
    obtain ⟨first, second, third⟩ := digits
    refine .inr ⟨_, rfl, ?_, fun rest => ?_⟩
    · simp [(digit a first).2.symm, (digit b second).2.symm, (digit d third).2.symm]
    · simp only [List.cons_append, List.nil_append]
      rw [ofChars_digit (digit a first).1, number_octal ⟨first, second, third⟩, code]
      rfl
  | short high low code =>
    refine .inr ⟨_, rfl, ?_, fun rest => ?_⟩
    · simp [ne_lineFeed_of_isHexDigit high, ne_lineFeed_of_isHexDigit low]
    · simp only [List.cons_append, List.nil_append, Escape.ofChars, number_hex high low, code]
      rfl
  | long high low high' low' code =>
    refine .inr ⟨_, rfl, ?_, fun rest => ?_⟩
    · simp [ne_lineFeed_of_isHexDigit high, ne_lineFeed_of_isHexDigit low,
        ne_lineFeed_of_isHexDigit high', ne_lineFeed_of_isHexDigit low']
    · simp only [List.cons_append, List.nil_append, Escape.ofChars, number_hex high low,
        List.drop_succ_cons, List.drop_zero, number_hex high' low', code]
      rfl

/-! ## Quoted texts -/

/-- The characters of an escape that has been decoded are passed over. -/
lemma decodeFrom_skip (front rest : List Char) (read : Nat) (value : List Char) :
    decodeFrom quote front.length read value (front ++ rest) =
      decodeFrom quote 0 (read + front.length) value rest := by
  induction front generalizing read with
  | nil => rfl
  | cons c front ih =>
    rw [List.cons_append, List.length_cons, decodeFrom, ih, Nat.add_right_comm]
    rfl

lemma decodeFrom_spelling (notEscape : quote ≠ '\\') (spelled : Spelling quote c spelling)
    (read : Nat) (value rest : List Char) :
    decodeFrom quote 0 read value (spelling ++ rest) =
      decodeFrom quote 0 (read + spelling.length) (c :: value) rest := by
  rcases spelled.cases_escape with ⟨rfl, inside, noEscape⟩ | ⟨escape, rfl, -, means⟩
  · rw [List.singleton_append, decodeFrom, if_neg inside, if_neg noEscape]
    rfl
  · rw [List.cons_append, decodeFrom, if_neg notEscape.symm, if_pos rfl, means rest]
    simp only [charOf?_toNat]
    rw [decodeFrom_skip, List.length_cons, Nat.add_right_comm]
    rfl

/-- The spellings up to the closing quote are read as the characters that they spell. -/
lemma decodeFrom_spellings (notEscape : quote ≠ '\\') {text : List Char}
    {spellings : List (List Char)} (spelled : List.Forall₂ (Spelling quote) text spellings)
    (read : Nat) (value rest : List Char) :
    decodeFrom quote 0 read value (spellings.flatten ++ quote :: rest) =
      .ok (text.reverse ++ value, read + spellings.flatten.length + 1) := by
  induction spelled generalizing read value with
  | nil => simp [decodeFrom]
  | @cons c spelling text spellings here onward ih =>
    rw [List.flatten_cons, List.append_assoc, decodeFrom_spelling notEscape here, ih,
      List.length_append, List.reverse_cons, List.append_assoc, Nat.add_assoc read]
    rfl

lemma decode_spellings (notEscape : quote ≠ '\\') {text : List Char}
    {spellings : List (List Char)} (spelled : List.Forall₂ (Spelling quote) text spellings)
    (rest : List Char) :
    decode quote (spellings.flatten ++ quote :: rest) =
      .ok (text, spellings.flatten.length + 2) := by
  rw [decode, decodeFrom_spellings notEscape spelled, List.append_nil]
  simp only [List.reverse_reverse]
  congr 2
  omega

/-- The spellings with a quote in front and a quote behind. -/
def quoted (quote : Char) (spellings : List (List Char)) : List Char :=
  quote :: (spellings.flatten ++ [quote])

/-- A line feed between the quotes is one that is written as it is. -/
lemma count_lineFeed_flatten {text : List Char} {spellings : List (List Char)}
    (spelled : List.Forall₂ (Spelling quote) text spellings) :
    spellings.flatten.count '\n' = spellings.count ['\n'] := by
  induction spelled with
  | nil => rfl
  | @cons c spelling text spellings here onward ih =>
    rw [List.flatten_cons, List.count_append, List.count_cons, ih, Nat.add_comm]
    congr 1
    rcases here.cases_escape with ⟨rfl, -⟩ | ⟨escape, rfl, proper, -⟩
    · by_cases lineFeed : c = '\n' <;> simp [lineFeed]
    · simp [List.count_eq_zero_of_not_mem proper]

lemma count_lineFeed_quoted (isQuote : quote = '"' ∨ quote = '\'') {text : List Char}
    {spellings : List (List Char)} (spelled : List.Forall₂ (Spelling quote) text spellings) :
    (quoted quote spellings).count '\n' = spellings.count ['\n'] := by
  have proper : quote ≠ '\n' := by rcases isQuote with rfl | rfl <;> decide
  rw [quoted, List.count_cons_of_ne proper, List.count_append, count_lineFeed_flatten spelled,
    List.count_singleton]
  simp [proper]

end Quotation

/-! ## Lexers -/

open Quotation

variable {quote : Char} {text : List Char} {spellings : List (List Char)}

lemma Lexeme.ofChars_quoted (isQuote : quote = '"' ∨ quote = '\'')
    (spelled : List.Forall₂ (Spelling quote) text spellings) (context : TokenContext)
    (rest : List Char) :
    ofChars context (quoted quote spellings ++ rest) = .ok
      ⟨.literal, text, (quoted quote spellings).length, (quoted quote spellings).length⟩ := by
  have noComment : quote ≠ '/' := by rcases isQuote with rfl | rfl <;> decide
  have noSymbol : punctuation? quote = none := by rcases isQuote with rfl | rfl <;> rfl
  have notEscape : quote ≠ '\\' := by rcases isQuote with rfl | rfl <;> decide
  have decoded := decode_spellings notEscape spelled rest
  simp only [quoted, List.cons_append, List.append_assoc, List.nil_append, List.length_cons,
    List.length_append, List.length_nil, Nat.zero_add]
  rw [ofChars, if_neg fun opens => noComment opens.1]
  simp only [noSymbol]
  rw [if_pos isQuote, decoded]

/-- No gap is in front of a quoted text. -/
lemma Gap.length_quoted (isQuote : quote = '"' ∨ quote = '\'') (spellings : List (List Char))
    (rest : List Char) : length (quoted quote spellings ++ rest) = 0 := by
  rcases isQuote with rfl | rfl <;> rfl

/-- What is written is read.  Every text can be written between quotes of either kind, and whichever
spelling is chosen for each of its characters, a lexer in front of the quoted text reads it as a literal
with just these characters, whatever stands behind.  The literal covers the quoted text from quote to
quote; the lexer stops right behind the closing quote, having passed over the line feeds that are written
as they are. -/
theorem quoted_text_reads_back (isQuote : quote = '"' ∨ quote = '\'') (text : List Char) :
    (∃ spellings, List.Forall₂ (Spelling quote) text spellings) ∧
      ∀ spellings, List.Forall₂ (Spelling quote) text spellings →
        ∀ (rest : List Char) (context : TokenContext) (l : Lexer), l.pending = none →
          l.cursor.ahead = quoted quote spellings ++ rest →
          let stop := l.cursor.position + (quoted quote spellings).length
          let t : Token :=
            ⟨.literal, String.ofList text, ⟨l.cursor.position, stop, l.cursor.line⟩⟩
          t.slice l.cursor.text = quoted quote spellings ∧
            ∃ l', l.next context = (.ok t, l') ∧ l'.pending = none ∧
              l'.cursor.text = l.cursor.text ∧ l'.cursor.position = stop ∧
              l'.cursor.line = l.cursor.line + spellings.count ['\n'] ∧ l'.cursor.ahead = rest := by
  refine ⟨exists_spellings isQuote text, ?_⟩
  intro spellings spelled rest context l none_pending ahead stop t
  have drop : l.cursor.text.drop l.cursor.position = quoted quote spellings ++ rest := by
    rw [← l.cursor.ahead_eq, ahead]
  have start : Lexer.atToken l.cursor = l.cursor := by
    rw [Lexer.atToken, ahead, Gap.length_quoted isQuote]
    rfl
  have within : (quoted quote spellings).length ≤ l.cursor.ahead.length := by
    rw [ahead, List.length_append]
    exact Nat.le_add_right _ _
  have read : Lexeme.ofChars context (Lexer.atToken l.cursor).ahead = .ok
      ⟨.literal, text, (quoted quote spellings).length, (quoted quote spellings).length⟩ := by
    rw [start, ahead]
    exact Lexeme.ofChars_quoted isQuote spelled context rest
  constructor
  · rw [Token.slice, List.drop_take, drop, Nat.add_sub_cancel_left, List.take_left]
  · refine ⟨⟨(Lexer.atToken l.cursor).advance (quoted quote spellings).length, none⟩,
      Lexer.next_eq_ok.2 (.inr ⟨none_pending, _, read, ?_, rfl⟩), rfl, ?_, ?_, ?_, ?_⟩
    · rw [start]
      rfl
    · rw [start, Cursor.text_advance]
    · rw [start, Cursor.position_advance within]
    · rw [start, Cursor.line_advance, ahead, List.take_left, count_lineFeed_quoted isQuote spelled]
    · rw [start, Cursor.ahead_advance, ahead, List.drop_left]

/-- A quote, a line feed, a tab, the letter `A` in octal and the letter `J` in hexadecimal digits, each
in front of a character that could be one digit more. -/
theorem quoted_text_reads_back_digits :
    ('\'' = '"' ∨ '\'' = '\'') ∧
      List.Forall₂ (Spelling '\'') ['\'', '\n', '\t', 'A', '7', 'J', 'f']
        [['\\', '\''], ['\n'], ['\\', 't'], ['\\', '1', '0', '1'], ['7'], ['\\', 'x', '4', 'A'],
          ['\\', 'u', '0', '0', '6', '6']] ∧
      ∃ l', (Lexer.ofScript "'\\'\n\\t\\1017\\x4A\\u0066'0").next .expression =
          (.ok ⟨.literal, "'\n\tA7Jf", ⟨0, 22, 1⟩⟩, l') ∧ l'.pending = none ∧
        l'.cursor.position = 22 ∧ l'.cursor.line = 2 ∧ l'.cursor.ahead = ['0'] := by
  have digit : ∀ n < 10, IsHexDigit n n.digitChar := fun n small => ⟨by omega, .inl rfl⟩
  have spelled : List.Forall₂ (Spelling '\'') ['\'', '\n', '\t', 'A', '7', 'J', 'f']
      [['\\', '\''], ['\n'], ['\\', 't'], ['\\', '1', '0', '1'], ['7'], ['\\', 'x', '4', 'A'],
        ['\\', 'u', '0', '0', '6', '6']] :=
    .cons (.sign (by decide)) <| .cons (.plain (by decide) (by decide)) <|
    .cons (.letter (by decide)) <|
    .cons (.octal (a := 1) (b := 0) (d := 1) (by decide) (by decide)) <|
    .cons (.plain (by decide) (by decide)) <|
    .cons (.short (digit 4 (by decide)) (b := 10) ⟨by decide, .inr rfl⟩ (by decide)) <|
    .cons (.long (digit 0 (by decide)) (digit 0 (by decide)) (digit 6 (by decide))
      (digit 6 (by decide)) (by decide)) .nil
  obtain ⟨-, read⟩ :=
    @quoted_text_reads_back '\'' (.inr rfl) ['\'', '\n', '\t', 'A', '7', 'J', 'f']
  obtain ⟨-, l', reads, none_pending, -, position, line, ahead⟩ := read _ spelled ['0'] .expression
    (Lexer.ofScript "'\\'\n\\t\\1017\\x4A\\u0066'0") rfl (by decide)
  exact ⟨.inr rfl, spelled, l', reads, none_pending, position, line, ahead⟩

end ScriptEngine
