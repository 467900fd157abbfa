import Mathlib.Data.List.Forall2
import Mathlib.Data.List.TakeWhile
import ScriptEngine.Proofs.Token.Lexing

/-!
# Tokens and gaps make up the text

A lexer that reaches the end of its script has looked at every character once.  Each token covers the
characters of its span, the spans follow one another, and what lies between them is a gap
(`Gap.Filler`): blanks and comments, each comment as long as the rules for comments say and no longer.
How the covered characters look depends on the kind of the token (`TokenKind.Written`); a name, a
number or an operator goes on as far as it can.

`Tiles` follows the reading of one token after the other, from a position on; `tokens_tile_script`
says what comes of it for a whole script, whatever the contexts are in which its tokens are read.
-/

namespace ScriptEngine

/-! ## Gaps -/

namespace Gap

/-- The characters of a gap in front of `behind`: blanks and comments.  A `//` comment ends in front of
a line feed or with the script, and a `/*` comment with the first `*/` in it. -/
inductive Filler (behind : List Char) : List Char → Prop
  | nothing : Filler behind []
  | blank {c : Char} {gap : List Char} (blank : isBlank c) (rest : Filler behind gap) :
    Filler behind (c :: gap)
  | lineComment {body : List Char} (sameLine : '\n' ∉ body)
    (ends : behind = [] ∨ behind.head? = some '\n') : Filler behind ('/' :: '/' :: body)
  | blockComment {body gap : List Char} (first : ¬ ['*', '/'] <:+: body ++ ['*'])
    (rest : Filler behind gap) : Filler behind ('/' :: '*' :: (body ++ '*' :: '/' :: gap))

lemma Filler.blanks {behind blanks gap : List Char} (blank : ∀ c ∈ blanks, isBlank c)
    (rest : Filler behind gap) : Filler behind (blanks ++ gap) := by
  induction blanks with
  | nil => exact rest
  | cons c blanks ih =>
    obtain ⟨here, onward⟩ := List.forall_mem_cons.1 blank
    exact .blank here (ih onward)

/-- What the characters from `read` on are up to `stop` and behind it, when a gap is being read. -/
def Explained (read stop : Nat) (chars : List Char) : Mode → Prop
  | .between => ∃ gap behind, chars = gap ++ behind ∧ stop = read + gap.length ∧
    Filler behind gap ∧ ¬ ['/', '/'] <+: behind
  | .lineComment => ∃ body behind, chars = body ++ behind ∧ stop = read + body.length ∧
    '\n' ∉ body ∧ (behind = [] ∨ behind.head? = some '\n')
  | .blockComment opened => stop = opened ∨ ∃ body gap behind,
    chars = body ++ '*' :: '/' :: (gap ++ behind) ∧ stop = read + body.length + 2 + gap.length ∧
    ¬ ['*', '/'] <:+: body ++ ['*'] ∧ Filler behind gap ∧ ¬ ['/', '/'] <+: behind

namespace Explained

variable {read stop opened : Nat} {c : Char} {rest : List Char}

lemma nothing (read : Nat) (mode : Mode) (opens : ∀ opened, mode ≠ .blockComment opened) :
    Explained read read [] mode := by
  cases mode with
  | between => exact ⟨[], [], rfl, rfl, .nothing, by simp⟩
  | lineComment => exact ⟨[], [], rfl, rfl, by simp, .inl rfl⟩
  | blockComment opened => exact absurd rfl (opens opened)

lemma blank (blank : isBlank c) (onward : Explained (read + 1) stop rest .between) :
    Explained read stop (c :: rest) .between := by
  obtain ⟨gap, behind, rfl, rfl, filler, noSign⟩ := onward
  refine ⟨c :: gap, behind, rfl, ?_, .blank blank filler, noSign⟩
  simp only [List.length_cons]
  omega

lemma token (noSign : ¬ (c = '/' ∧ rest.head? = some '/')) :
    Explained read read (c :: rest) .between := by
  refine ⟨[], c :: rest, rfl, rfl, .nothing, fun sign => noSign ?_⟩
  obtain ⟨slash, more⟩ := List.cons_prefix_cons.1 sign
  cases rest with
  | nil => simp at more
  | cons d rest => exact ⟨slash.symm, by simpa using (List.cons_prefix_cons.1 more).1.symm⟩

lemma lineSign (onward : Explained (read + 2) stop rest .lineComment) :
    Explained read stop ('/' :: '/' :: rest) .between := by
  obtain ⟨body, behind, rfl, rfl, sameLine, ends⟩ := onward
  refine ⟨'/' :: '/' :: body, behind, rfl, ?_, .lineComment sameLine ends, fun sign => ?_⟩
  · simp only [List.length_cons]
    omega
  · rcases ends with rfl | head
    · simp at sign
    · obtain ⟨_, rfl⟩ := sign
      cases head

lemma blockSign (onward : Explained (read + 2) stop rest (.blockComment read)) :
    Explained read stop ('/' :: '*' :: rest) .between := by
  rcases onward with rfl | ⟨body, gap, behind, rfl, rfl, first, filler, noSign⟩
  · exact token (by simp)
  · refine ⟨'/' :: '*' :: (body ++ '*' :: '/' :: gap), behind, by simp, ?_,
      .blockComment first filler, noSign⟩
    simp only [List.length_cons, List.length_append]
    omega

lemma lineFeed : Explained read read ('\n' :: rest) .lineComment :=
  ⟨[], '\n' :: rest, rfl, rfl, by simp, .inr rfl⟩

lemma inLine (inside : c ≠ '\n') (onward : Explained (read + 1) stop rest .lineComment) :
    Explained read stop (c :: rest) .lineComment := by
  obtain ⟨body, behind, rfl, rfl, sameLine, ends⟩ := onward
  refine ⟨c :: body, behind, rfl, ?_, ?_, ends⟩
  · simp only [List.length_cons]
    omega
  · simp [sameLine, inside.symm]

lemma blockEnd (onward : Explained (read + 2) stop rest .between) :
    Explained read stop ('*' :: '/' :: rest) (.blockComment opened) := by
  obtain ⟨gap, behind, rfl, rfl, filler, noSign⟩ := onward
  refine .inr ⟨[], gap, behind, rfl, rfl, fun inside => ?_, filler, noSign⟩
  simpa using inside.length_le

lemma inBlock (inside : ¬ (c = '*' ∧ rest.head? = some '/'))
    (onward : Explained (read + 1) stop rest (.blockComment opened)) :
    Explained read stop (c :: rest) (.blockComment opened) := by
  rcases onward with stop | ⟨body, gap, behind, rfl, rfl, first, filler, noSign⟩
  · exact .inl stop
  · refine .inr ⟨c :: body, gap, behind, rfl, ?_, fun sign => ?_, filler, noSign⟩
    · simp only [List.length_cons]
      omega
    · -- A sign that begins with `c` would have its second half where the body goes on or ends.
      rcases List.infix_cons_iff.1 sign with start | later
      · obtain ⟨star, slash⟩ := List.cons_prefix_cons.1 start
        refine inside ⟨star.symm, ?_⟩
        cases body with
        | nil => simp at slash
        | cons d body => simpa using (List.cons_prefix_cons.1 slash).1.symm
      · exact first later

end Explained

lemma lengthFrom_explained (chars : List Char) (mode : Mode) (skip read : Nat)
    (enough : skip ≤ chars.length) :
    Explained (read + skip) (lengthFrom mode skip read chars) (chars.drop skip) mode := by
  induction chars generalizing mode skip read with
  | nil =>
    obtain rfl : skip = 0 := by simpa using enough
    cases mode with
    | between | lineComment => exact .nothing read _ (by simp)
    | blockComment opened => exact .inl rfl
  | cons c rest ih =>
    -- Two signs are read together; the second one is what `skip` stands for.
    have twice {c' : Char} {mode : Mode} (head : rest.head? = some c') : ∃ rest', rest = c' :: rest' ∧
        Explained (read + 2) (lengthFrom mode 1 (read + 1) rest) rest' mode := by
      cases rest with
      | nil => cases head
      | cons d rest' => exact ⟨rest', by simpa using head, ih mode 1 (read + 1) (by simp)⟩
    cases skip with
    | succ skip =>
      rw [show read + (skip + 1) = read + 1 + skip by omega]
      exact ih mode skip (read + 1) (by simpa using enough)
    | zero =>
      have once (mode : Mode) := ih mode 0 (read + 1) (Nat.zero_le _)
      cases mode with
      | between =>
        simp only [lengthFrom]
        split
        · next blank => exact .blank blank (once .between)
        split
        · next sign =>
          obtain ⟨rfl, head⟩ := sign
          obtain ⟨rest', rfl, onward⟩ := twice head
          exact .lineSign onward
        split
        · next sign =>
          obtain ⟨rfl, head⟩ := sign
          obtain ⟨rest', rfl, onward⟩ := twice head
          exact .blockSign onward
        · next noSign _ => exact .token noSign
      | lineComment =>
        simp only [lengthFrom]
        split
        · next feed =>
          obtain rfl := feed
          exact .lineFeed
        · next inside => exact .inLine inside (once .lineComment)
      | blockComment opened =>
        simp only [lengthFrom]
        split
        · next closes =>
          obtain ⟨rfl, head⟩ := closes
          obtain ⟨rest', rfl, onward⟩ := twice head
          exact .blockEnd onward
        · next inside => exact .inBlock inside (once (.blockComment opened))

/-- The characters in front of a token fill a gap, and the token does not begin with a sign that opens
a line comment. -/
lemma filler_length (chars : List Char) :
    Filler (chars.drop (length chars)) (chars.take (length chars)) ∧
      ¬ ['/', '/'] <+: chars.drop (length chars) := by
  obtain ⟨gap, behind, eq, stop, filler, noSign⟩ :=
    lengthFrom_explained chars .between 0 0 (Nat.zero_le _)
  obtain rfl : chars = gap ++ behind := eq
  have stop : length (gap ++ behind) = gap.length := stop.trans (Nat.zero_add _)
  rw [stop, List.take_left, List.drop_left]
  exact ⟨filler, noSign⟩

end Gap

/-! ## Tokens -/

/-- The signs that are told apart by how far they go: all operators, and what opens a comment. -/
def Lexeme.signs : List (List Char) :=
  Operator.all.map (·.symbol.toList) ++ [['/', '/'], ['/', '*']]

namespace TokenKind

/-- A name with this text is written as `slice` in front of `behind`, with backslashes put in
anywhere, and ends where no name goes on. -/
structure WrittenName (text slice behind : List Char) : Prop where
  text_eq : text = slice.filter (· != '\\')
  begins : text.head?.any Lexeme.isNameStart
  inside : ∀ c ∈ slice, c = '\\' ∨ Lexeme.isNamePart c
  maximal : ∀ c ∈ behind.head?, c ≠ '\\' ∧ Lexeme.isNamePart c = false

/-- A number with this text is written as `slice` in front of `behind`. -/
structure WrittenNumber (text slice behind : List Char) : Prop where
  text_eq : text = slice
  nonempty : slice ≠ []
  inside : ∀ c ∈ slice, c.isDigit
  maximal : ∀ c ∈ behind.head?, c.isDigit = false

/-- The characters stand between two equal quotes. -/
def WrittenQuoted (slice : List Char) : Prop :=
  ∃ quote inner, (quote = '"' ∨ quote = '\'') ∧ slice = quote :: (inner ++ [quote])

/-- A symbol of this kind and text is written as `slice` in front of `behind`, where no longer sign
stands. -/
structure WrittenSymbol (kind : TokenKind) (text slice behind : List Char) : Prop where
  text_eq : text = slice
  spelled : kind.spelling? = some (String.ofList text)
  longest : ∀ sign ∈ Lexeme.signs, sign <+: slice ++ behind → sign.length ≤ slice.length

/-- A token of this kind and text is written as `slice` in front of `behind`. -/
def Written (text slice behind : List Char) : TokenKind → Prop
  | .endOfInput => slice = [] ∧ behind = []
  | .literal => WrittenNumber text slice behind ∨ WrittenQuoted slice
  | .keyword word => WrittenName text slice behind ∧ String.ofList text = word.spelling
  | .name => WrittenName text slice behind ∧ (behind.dropWhile Gap.isBlank).head? ≠ some '('
  | .callName => WrittenName text slice behind ∧ (behind.dropWhile Gap.isBlank).head? = some '('
  | kind => WrittenSymbol kind text slice behind

end TokenKind

/-! ## Lexemes -/

lemma take_length_takeWhile (p : Char → Bool) (chars : List Char) :
    chars.take (chars.takeWhile p).length = chars.takeWhile p :=
  (List.prefix_iff_eq_take.1 (List.takeWhile_prefix p)).symm

lemma drop_length_takeWhile (p : Char → Bool) (chars : List Char) :
    chars.drop (chars.takeWhile p).length = chars.dropWhile p := by
  induction chars with
  | nil => rfl
  | cons c chars ih => by_cases h : p c <;> simp [h, ih]

lemma head?_dropWhile {p : Char → Bool} {chars : List Char} {c : Char}
    (head : c ∈ (chars.dropWhile p).head?) : p c = false := by
  have not := List.head?_dropWhile_not p chars
  rwa [head] at not

/-- A quoted text ends with a quote like the one that opens it. -/
lemma Quotation.decodeFrom_ends {quote : Char} {skip read width : Nat} {value text chars : List Char}
    (decoded : decodeFrom quote skip read value chars = .ok (text, width)) :
    ∃ inner, chars.take (width - read) = inner ++ [quote] := by
  induction chars generalizing skip read value with
  | nil => cases decoded
  | cons c rest ih =>
    have onward {skip : Nat} {value : List Char}
        (decoded : decodeFrom quote skip (read + 1) value rest = .ok (text, width)) :
        ∃ inner, (c :: rest).take (width - read) = inner ++ [quote] := by
      obtain ⟨inner, eq⟩ := ih decoded
      obtain ⟨further, -⟩ := decodeFrom_bounds decoded
      refine ⟨c :: inner, ?_⟩
      rw [show width - read = (width - (read + 1)) + 1 by omega, List.take_succ_cons, eq]
      rfl
    cases skip with
    | succ skip => exact onward decoded
    | zero =>
      simp only [decodeFrom] at decoded
      split at decoded
      · next closes =>
        obtain ⟨-, rfl⟩ := Prod.mk.inj (Except.ok.inj decoded)
        exact ⟨[], by simp [closes]⟩
      split at decoded
      · split at decoded
        · split at decoded
          · exact onward decoded
          · cases decoded
        · cases decoded
        · cases decoded
      · exact onward decoded

lemma Quotation.decode_written {quote : Char} {width : Nat} {text chars : List Char}
    (decoded : decode quote chars = .ok (text, width)) (opens : quote = '"' ∨ quote = '\'') :
    TokenKind.WrittenQuoted ((quote :: chars).take width) := by
  unfold decode at decoded
  split at decoded
  · next value width' read =>
    obtain ⟨-, rfl⟩ := Prod.mk.inj (Except.ok.inj decoded)
    obtain ⟨inner, eq⟩ := decodeFrom_ends read
    obtain ⟨further, -⟩ := decodeFrom_bounds read
    refine ⟨quote, inner, opens, ?_⟩
    rw [show width' = (width' - 1) + 1 by omega, List.take_succ_cons, eq]
  · cases decoded

namespace Lexeme

variable {context : TokenContext} {chars rest : List Char} {first c : Char} {x : Lexeme}

lemma forall_mem_signs {P : List Char → Prop} : (∀ sign ∈ signs, P sign) ↔
    (∀ op : Operator, P op.symbol.toList) ∧ P ['/', '/'] ∧ P ['/', '*'] := by
  simp only [signs, List.forall_mem_append, List.forall_mem_map, List.forall_mem_cons,
    List.not_mem_nil, false_implies, implies_true, and_true, Operator.mem_all, true_implies]

/-- Where no sign begins, none is longer than one character. -/
lemma longest_of_head {width : Nat} (heads : ∀ sign ∈ signs, sign.head? ≠ some c) :
    ∀ sign ∈ signs, sign <+: c :: rest → sign.length ≤ width := by
  intro sign mem front
  cases sign with
  | nil => exact Nat.zero_le _
  | cons d sign =>
    obtain ⟨rfl, -⟩ := List.cons_prefix_cons.1 front
    exact absurd rfl (heads _ mem)

/-- No operator at the front is longer than the one that is found. -/
lemma operator?_longest {op op' : Operator} (found : operator? chars = some op)
    (front : op'.symbol.toList <+: chars) : op'.symbol.length ≤ op.symbol.length := by
  have short (op : Operator) : op.symbol.length = 1 ∨ op.symbol.length = 2 := by
    cases op <;> decide
  rcases short op with one | two
  · refine Nat.le_of_not_lt fun longer => ?_
    have pair : op'.symbol.length = 2 := by
      have := short op'
      omega
    unfold operator? operators at found
    rw [List.find?_append] at found
    cases sooner : (Operator.all.filter (·.symbol.length == 2)).find? (·.symbol.toList.isPrefixOf chars) with
    | none =>
      have absent := List.find?_eq_none.1 sooner op' (by simp [Operator.mem_all, pair])
      exact absent (by simpa using front)
    | some op₂ =>
      rw [sooner, Option.some_or] at found
      obtain rfl := Option.some.inj found
      have pair' := List.mem_filter.1 (List.mem_of_find?_eq_some sooner)
      simp [one] at pair'
  · have := short op'
    omega

lemma operator?_eq_none (none_found : operator? chars = none) (op : Operator) :
    ¬ op.symbol.toList <+: chars := by
  intro front
  unfold operator? operators at none_found
  refine List.find?_eq_none.1 none_found op ?_ (by simpa using front)
  have length : op.symbol.length = 2 ∨ op.symbol.length = 1 := by
    cases op <;> decide
  simpa [Operator.mem_all] using length

lemma not_blockSign (read : ofChars context chars = .ok x) : ¬ ['/', '*'] <+: chars := by
  rintro ⟨rest, rfl⟩
  simp [ofChars] at read

lemma isNamePart_of_isNameStart (start : isNameStart c) : isNamePart c := by
  simp only [isNameStart, isNamePart, Char.isAlphanum, Bool.or_eq_true] at start ⊢
  rcases start with (alpha | dollar) | underscore
  · exact .inl (.inl (.inl alpha))
  · exact .inl (.inr dollar)
  · exact .inr underscore

lemma name_written (read : name context first rest = .ok x) :
    x.kind.Written x.text ((first :: rest).take x.width) ((first :: rest).drop x.width) ∧
      ∀ c ∈ ((first :: rest).take x.read).drop x.width, Gap.isBlank c := by
  unfold name at read
  extract_lets run width text behind blanks called at read
  have slice : (first :: rest).take width = first :: run := by
    simp only [width, List.take_succ_cons, run, take_length_takeWhile]
  have drop : (first :: rest).drop width = behind := rfl
  have dropWhile : behind = rest.dropWhile fun c => c == '\\' || isNamePart c := by
    simp only [behind, run, drop_length_takeWhile]
  split at read
  · cases read
  next proper =>
  simp only [Bool.not_eq_true', Bool.not_eq_false] at proper
  -- The name is as long as it can be: it was cut where its characters end.
  have written : TokenKind.WrittenName text ((first :: rest).take width) behind := by
    rw [slice, dropWhile]
    refine ⟨rfl, proper, List.forall_mem_cons.2 ⟨?_, fun c mem => ?_⟩, fun c head => ?_⟩
    · by_cases backslash : first = '\\'
      · exact .inl backslash
      · simp only [text, List.filter_cons, bne_iff_ne, ne_eq, backslash, not_false_eq_true, if_true,
          List.head?_cons, Option.any_some] at proper
        exact .inr (isNamePart_of_isNameStart proper)
    · simpa using List.mem_takeWhile_imp mem
    · simpa using head?_dropWhile head
  split at read
  · next word spelling =>
    obtain rfl := Except.ok.inj read
    exact ⟨⟨written, (spelling_ofSpelling? spelling).symm⟩, by simp⟩
  · obtain rfl := Except.ok.inj read
    -- In front of a parenthesis, blanks apart, it is the name of a call.
    have paren : called = ((behind.dropWhile Gap.isBlank).head? == some '(') := by
      simp only [called, blanks, drop_length_takeWhile]
    constructor
    · dsimp only
      rw [drop, paren]
      split
      · next called => exact ⟨written, by simpa using called⟩
      · next uncalled => exact ⟨written, by simpa using uncalled⟩
    · dsimp only
      rw [List.drop_take, Nat.add_sub_cancel_left, drop, take_length_takeWhile]
      exact fun c mem => List.mem_takeWhile_imp mem

/-- What is read is written as its kind says.  Only blanks are read with it. -/
lemma ofChars_written (read : ofChars context chars = .ok x) (noSign : ¬ ['/', '/'] <+: chars) :
    x.kind.Written x.text (chars.take x.width) (chars.drop x.width) ∧
      ∀ c ∈ (chars.take x.read).drop x.width, Gap.isBlank c := by
  have noBlock := not_blockSign read
  obtain ⟨_, rule, read⟩ := exists_rule read
  cases rule with
  | comment | misquoted | bar | ampersand => cases read
  | endOfInput =>
    obtain rfl := Except.ok.inj read
    exact ⟨⟨rfl, rfl⟩, by simp⟩
  | @punctuation ch rest kind sign =>
    obtain rfl := Except.ok.inj read
    refine ⟨?_, by simp [verbatim]⟩
    -- Punctuation begins no sign of several characters, so it is its own longest match.
    have heads : ∀ sign ∈ signs, sign.head? ≠ some ch := by
      unfold punctuation? at sign
      split at sign <;> first | decide | cases sign
    have symbol : TokenKind.WrittenSymbol kind [ch] [ch] rest :=
      ⟨rfl, (punctuation?_spelling sign).1, longest_of_head heads⟩
    unfold punctuation? at sign
    split at sign <;> first | (obtain rfl := Option.some.inj sign; exact symbol) | cases sign
  | quoted decoded opens =>
    obtain rfl := Except.ok.inj read
    exact ⟨.inr (Quotation.decode_written decoded opens), by simp⟩
  | @digits ch rest digit =>
    obtain rfl := Except.ok.inj read
    refine ⟨.inl ?_, by simp [verbatim]⟩
    simp only [verbatim, take_length_takeWhile, drop_length_takeWhile]
    exact ⟨rfl, by simp [digit], fun c mem => List.mem_takeWhile_imp mem, fun c => head?_dropWhile⟩
  | @operator ch rest op found =>
    obtain rfl := Except.ok.inj read
    refine ⟨?_, by simp [verbatim]⟩
    obtain ⟨behind, eq⟩ := isPrefixOf_of_operator? found
    have length : op.symbol.length = op.symbol.toList.length := rfl
    have text : (ch :: rest).take op.symbol.length = op.symbol.toList := by
      rw [← eq, length, List.take_left]
    simp only [verbatim]
    refine ⟨rfl, by simp [text, TokenKind.spelling?], ?_⟩
    rw [List.take_append_drop, text]
    -- Operators are longest among themselves, and no comment opens where a lexeme is read.
    exact forall_mem_signs.2 ⟨fun op' front => operator?_longest found front,
      fun front => absurd front noSign, fun front => absurd front noBlock⟩
  | @assign rest noOperator =>
    obtain rfl := Except.ok.inj read
    refine ⟨⟨rfl, rfl, ?_⟩, by simp [verbatim]⟩
    exact forall_mem_signs.2 ⟨fun op front => absurd front (operator?_eq_none noOperator op),
      fun front => absurd front noSign, fun front => absurd front noBlock⟩
  | name => exact name_written read

end Lexeme

/-- Every token but the end of the input covers some characters. -/
lemma TokenKind.Written.ne_nil {kind : TokenKind} {text slice behind : List Char}
    (written : kind.Written text slice behind) (proper : kind ≠ .endOfInput) : slice ≠ [] := by
  have named (name : WrittenName text slice behind) : slice ≠ [] := by
    rintro rfl
    have begins := name.begins
    rw [name.text_eq] at begins
    cases begins
  have symbol {kind : TokenKind} (written : WrittenSymbol kind text slice behind)
      (proper : kind.spelling? ≠ some "") : slice ≠ [] := by
    rintro rfl
    have spelled := written.spelled
    rw [written.text_eq] at spelled
    exact proper spelled
  cases kind with
  | endOfInput => exact absurd rfl proper
  | literal =>
    rcases written with number | ⟨quote, inner, -, rfl⟩
    · exact number.nonempty
    · simp
  | name | callName | keyword => exact named written.1
  | operator op => exact symbol written (by cases op <;> decide)
  | _ => exact symbol written (by decide)

/-! ## Texts -/

namespace Token

/-- The characters of the text that the token covers. -/
def slice (text : List Char) (t : Token) : List Char :=
  (text.take t.span.stop).drop t.span.start

/-- The token is written in the text as its kind says. -/
def Written (text : List Char) (t : Token) : Prop :=
  t.kind.Written t.lexeme.toList (t.slice text) (text.drop t.span.stop)

end Token

/-- The characters, which begin at the position, are the tokens with a gap in front of each. -/
inductive Tiles : (position : Nat) → List Char → List Token → Prop
  | nil (position : Nat) : Tiles position [] []
  | cons {position : Nat} {gap slice behind : List Char} {t : Token} {ts : List Token}
    (filler : Gap.Filler (slice ++ behind) gap) (start : t.span.start = position + gap.length)
    (stop : t.span.stop = t.span.start + slice.length)
    (written : t.kind.Written t.lexeme.toList slice behind) (rest : Tiles t.span.stop behind ts) :
    Tiles position (gap ++ (slice ++ behind)) (t :: ts)

namespace Tiles

variable {position : Nat} {chars : List Char} {t : Token} {ts : List Token}

/-- Blanks in front belong to the first gap. -/
lemma blanks {blanks : List Char} (blank : ∀ c ∈ blanks, Gap.isBlank c) (some_token : ts ≠ [])
    (tiles : Tiles (position + blanks.length) chars ts) : Tiles position (blanks ++ chars) ts := by
  cases tiles with
  | nil => exact absurd rfl some_token
  | @cons _ gap slice behind t ts filler start stop written rest =>
    rw [← List.append_assoc]
    refine .cons (filler.blanks blank) ?_ stop written rest
    rw [start, List.length_append, Nat.add_assoc]

/-- No token begins in front of the position or in front of the end of an earlier one. -/
lemma ordered (tiles : Tiles position chars ts) :
    (∀ t ∈ ts, position ≤ t.span.start ∧ t.span.start ≤ t.span.stop ∧
      (t.kind ≠ .endOfInput → t.span.start < t.span.stop)) ∧
    ts.Pairwise fun t u => t.span.stop ≤ u.span.start := by
  induction tiles with
  | nil => simp
  | @cons position gap slice behind t ts filler start stop written rest ih =>
    obtain ⟨later, apart⟩ := ih
    refine ⟨List.forall_mem_cons.2 ⟨⟨by omega, by omega, fun proper => ?_⟩, fun u mem => ?_⟩,
      List.pairwise_cons.2 ⟨fun u mem => (later u mem).1, apart⟩⟩
    · have := List.length_pos_iff.2 (written.ne_nil proper)
      omega
    · obtain ⟨behind, upward⟩ := later u mem
      exact ⟨by omega, upward⟩

/-- The gaps and the covered characters, one behind the other, are the text from the position on. -/
lemma exists_gaps {front text : List Char} (tiles : Tiles position chars ts)
    (whole : text = front ++ chars) (here : position = front.length) :
    ∃ gaps, chars = (List.zipWith (fun gap t => gap ++ t.slice text) gaps ts).flatten ∧
      List.Forall₂ (fun gap t => Gap.Filler (text.drop t.span.start) gap) gaps ts ∧
      ∀ t ∈ ts, t.Written text := by
  induction tiles generalizing front with
  | nil => exact ⟨[], rfl, .nil, by simp⟩
  | @cons position gap slice behind t ts filler start stop written rest ih =>
    have at_start : text = (front ++ gap) ++ (slice ++ behind) := by simp [whole]
    have at_stop : text = (front ++ (gap ++ slice)) ++ behind := by simp [whole]
    have stop_eq : t.span.stop = (front ++ (gap ++ slice)).length := by
      simp only [List.length_append]
      omega
    have start_eq : t.span.start = (front ++ gap).length := by
      simp only [List.length_append]
      omega
    have drop_stop : text.drop t.span.stop = behind := by
      rw [at_stop, stop_eq, List.drop_left]
    have drop_start : text.drop t.span.start = slice ++ behind := by
      rw [at_start, start_eq, List.drop_left]
    have covered : t.slice text = slice := by
      rw [Token.slice, List.drop_take, drop_start, stop, Nat.add_sub_cancel_left, List.take_left]
    obtain ⟨gaps, eq, fillers, writtens⟩ := ih at_stop stop_eq
    refine ⟨gap :: gaps, ?_, .cons (drop_start ▸ filler) fillers,
      List.forall_mem_cons.2 ⟨?_, writtens⟩⟩
    · rw [List.zipWith_cons_cons, List.flatten_cons, covered, ← eq, List.append_assoc]
    · rw [Token.Written, covered, drop_stop]
      exact written

end Tiles

/-! ## Lexers -/

namespace Lexer

variable {c : TokenContext} {cs : Set TokenContext} {l l' : Lexer} {t last : Token} {ts : List Token}

/-- Reading a token puts it in front of the tokens that are read behind it. -/
lemma tiles_next {x : Lexeme} (lexeme : Lexeme.ofChars c (atToken l.cursor).ahead = .ok x)
    (rest : Tiles (place (atToken l.cursor) x).span.stop ((atToken l.cursor).ahead.drop x.width) ts) :
    Tiles l.cursor.position l.cursor.ahead (place (atToken l.cursor) x :: ts) := by
  have gap_le := Gap.length_le l.cursor.ahead
  obtain ⟨filler, noSign⟩ := Gap.filler_length l.cursor.ahead
  have ahead : (atToken l.cursor).ahead = l.cursor.ahead.drop (Gap.length l.cursor.ahead) :=
    Cursor.ahead_advance _ _
  rw [← ahead] at filler noSign
  have fits := Lexeme.ofChars_fits lexeme
  have width_le := fits.width_le_read.trans fits.read_le
  have eq : l.cursor.ahead = l.cursor.ahead.take (Gap.length l.cursor.ahead) ++
      ((atToken l.cursor).ahead.take x.width ++ (atToken l.cursor).ahead.drop x.width) := by
    rw [List.take_append_drop, ahead, List.take_append_drop]
  rw [eq]
  refine .cons ?_ ?_ ?_ ?_ rest
  · rwa [List.take_append_drop]
  · rw [List.length_take_of_le gap_le]
    exact Cursor.position_advance gap_le
  · rw [List.length_take_of_le width_le]
    rfl
  · simpa [place] using (Lexeme.ofChars_written lexeme noSign).1

/-- The tokens up to the end of the input, and the gaps in front of them, are what is ahead. -/
lemma tiles_of_reads (pending : l.pending = none) (reads : Reads cs l (ts ++ [last]) l')
    (ended : last.kind = .endOfInput) : Tiles l.cursor.position l.cursor.ahead (ts ++ [last]) := by
  induction ts generalizing l with
  | nil =>
    cases reads with
    | cons context read rest =>
      rcases next_eq_ok.1 read with ⟨returned, -⟩ | ⟨-, x, lexeme, rfl, rfl⟩
      · simp [pending] at returned
      · refine tiles_next lexeme ?_
        rw [(Lexeme.ofChars_fits lexeme).end_iff.1 ended, List.drop_nil]
        exact .nil _
  | cons t ts ih =>
    cases reads with
    | cons context read rest =>
      rcases next_eq_ok.1 read with ⟨returned, -⟩ | ⟨-, x, lexeme, rfl, rfl⟩
      · simp [pending] at returned
      · refine tiles_next lexeme ?_
        have fits := Lexeme.ofChars_fits lexeme
        have noSign := (Gap.filler_length l.cursor.ahead).2
        rw [← Cursor.ahead_advance] at noSign
        have blank := (Lexeme.ofChars_written lexeme noSign).2
        have onward := ih rfl rest
        rw [Cursor.position_advance fits.read_le, Cursor.ahead_advance] at onward
        -- Blanks that were read with a name stand in front of the next token.
        have split : (atToken l.cursor).ahead.drop x.width =
            ((atToken l.cursor).ahead.take x.read).drop x.width ++
              (atToken l.cursor).ahead.drop x.read := by
          rw [List.drop_take, ← Nat.add_sub_cancel' fits.width_le_read, ← List.drop_drop,
            Nat.add_sub_cancel_left, List.take_append_drop]
        rw [split]
        refine Tiles.blanks blank (by simp) ?_
        rw [List.length_drop, List.length_take_of_le fits.read_le]
        simp only [place]
        rwa [Nat.add_assoc, Nat.add_sub_cancel' fits.width_le_read]

/-- Reading all tokens of a script in one context is reading them one after the other. -/
lemma reads_of_tokensFrom {context : TokenContext} {limit : Nat} {read all : List Token}
    (done : tokensFrom context limit read l = (all, none, l')) :
    ∃ ts, all = read.reverse ++ ts ∧ Reads {context} l ts l' := by
  induction limit generalizing read l with
  | zero =>
    obtain ⟨rfl, rfl⟩ : read.reverse = all ∧ l = l' := by simpa [tokensFrom] using done
    exact ⟨[], by simp, .nil l⟩
  | succ limit ih =>
    rw [tokensFrom] at done
    split at done
    · cases done
    · next t l₁ next_eq =>
      split at done
      · obtain ⟨rfl, rfl⟩ : read.reverse ++ [t] = all ∧ l₁ = l' := by simpa using done
        exact ⟨[t], by simp, .single rfl next_eq⟩
      · obtain ⟨ts, rfl, rest⟩ := ih done
        exact ⟨t :: ts, by simp, .cons rfl next_eq rest⟩

end Lexer

/-- The tokens of a script tile it.  If a lexer comes from the start of the script to its end, in
whatever context it reads each token, the script is made up of the characters that the tokens cover,
with a gap in front of each.  The spans of the tokens follow one another, and each token is written as
its kind says. -/
theorem tokens_tile_script {script : String} {ts : List Token} {last : Token} {l : Lexer}
    (reads : Reads Set.univ (Lexer.ofScript script) (ts ++ [last]) l)
    (ended : last.kind = .endOfInput) :
    ∃ gaps,
      script.toList =
        (List.zipWith (fun gap t => gap ++ t.slice script.toList) gaps (ts ++ [last])).flatten ∧
      List.Forall₂ (fun gap t => Gap.Filler (script.toList.drop t.span.start) gap)
        gaps (ts ++ [last]) ∧
      (ts ++ [last]).Pairwise (fun t u => t.span.stop ≤ u.span.start) ∧
      ∀ t ∈ ts ++ [last], t.span.start ≤ t.span.stop ∧
        (t.kind ≠ .endOfInput → t.span.start < t.span.stop) ∧ t.Written script.toList := by
  have tiles : Tiles 0 script.toList (ts ++ [last]) := Lexer.tiles_of_reads rfl reads ended
  obtain ⟨upward, apart⟩ := tiles.ordered
  obtain ⟨gaps, whole, fillers, written⟩ := tiles.exists_gaps (List.nil_append _).symm rfl
  refine ⟨gaps, whole, fillers, apart, fun t mem => ?_⟩
  obtain ⟨-, le, lt⟩ := upward t mem
  exact ⟨le, lt, written t mem⟩

/-- A call whose name holds a backslash, a comment right behind the parenthesis, an operator between a
number and a quoted text, and a line comment that looks like the other kind. -/
theorem tokens_tile_script_comment :
    let ts : List Token := [⟨.callName, "f", ⟨0, 2, 1⟩⟩, ⟨.leftParen, "(", ⟨3, 4, 1⟩⟩,
      ⟨.literal, "12", ⟨10, 12, 1⟩⟩, ⟨.operator .shiftLeft, "<<", ⟨12, 14, 1⟩⟩,
      ⟨.literal, "<", ⟨14, 17, 1⟩⟩, ⟨.rightParen, ")", ⟨17, 18, 1⟩⟩, ⟨.newline, "\n", ⟨22, 23, 1⟩⟩]
    let last : Token := ⟨.endOfInput, "", ⟨23, 23, 2⟩⟩
    let script := "f\\ (/**/  12<<'<')\t//*\n"
    ∃ l, Reads Set.univ (Lexer.ofScript script) (ts ++ [last]) l ∧ last.kind = .endOfInput ∧
      ∃ gaps, script.toList =
        (List.zipWith (fun gap t => gap ++ t.slice script.toList) gaps (ts ++ [last])).flatten := by
  intro ts last script
  have all : (Lexer.tokens .statement script).1 = ts ++ [last] ∧
      (Lexer.tokens .statement script).2.1 = none := by
    decide +kernel
  obtain ⟨_, eq, reads⟩ := Lexer.reads_of_tokensFrom (Prod.ext all.1 (Prod.ext all.2 rfl))
  obtain rfl : ts ++ [last] = _ := eq
  have reads := reads.mono (Set.subset_univ _)
  obtain ⟨gaps, whole, -⟩ := tokens_tile_script reads rfl
  exact ⟨_, reads, rfl, gaps, whole⟩

end ScriptEngine
