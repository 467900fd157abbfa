import ScriptEngine.Proofs.Token.Lookahead

/-!
# Blanks put in between tokens

What is read off the front of some characters stays the same when blanks are put in where a gap or a
token ends.  A gap goes on over blanks at its end, also if it ends in a line comment
(`Gap.length_append_filler`).  A quoted text depends on nothing behind its closing quote, and no other
token goes on over a blank (`Lexeme.ofChars_spaced`); only the blanks that are read behind a name are
more than they were.
-/

namespace ScriptEngine

variable {front behind blanks : List Char}

/-- What is no blank and stands behind the blanks stood there without them. -/
lemma head?_of_spaced {ch : Char} (proper : Gap.isBlank ch = false)
    (blank : ∀ d ∈ blanks, Gap.isBlank d) (head : (front ++ (blanks ++ behind)).head? = some ch) :
    (front ++ behind).head? = some ch := by
  cases front with
  | cons c front => exact head
  | nil =>
    cases blanks with
    | nil => exact head
    | cons d blanks =>
      obtain rfl : d = ch := by simpa using head
      simp [blank d List.mem_cons_self] at proper

/-! ## Gaps -/

namespace Gap

variable {gap : List Char}

/-- A filler only asks whether what is behind it begins with a line feed. -/
lemma Filler.change {behind' : List Char} (filler : Filler behind gap)
    (ends : behind = [] ∨ behind.head? = some '\n' → behind' = [] ∨ behind'.head? = some '\n') :
    Filler behind' gap := by
  induction filler with
  | nothing => exact .nothing
  | blank isBlank _ ih => exact .blank isBlank ih
  | lineComment sameLine ended => exact .lineComment sameLine (ends ended)
  | blockComment first _ ih => exact .blockComment first ih

/-- Blanks behind a gap belong to it. -/
lemma Filler.append_blanks (filler : Filler behind gap) (blank : ∀ c ∈ blanks, isBlank c) :
    Filler behind (gap ++ blanks) := by
  induction filler with
  | nothing => simpa using Filler.blanks blank .nothing
  | blank isBlank _ ih => exact .blank isBlank ih
  | @lineComment body sameLine ended =>
    refine .lineComment (fun among => ?_) ended
    rcases List.mem_append.1 among with inside | added
    · exact sameLine inside
    · simpa [isBlank] using blank _ added
  | @blockComment body gap first _ ih =>
    have whole : '/' :: '*' :: (body ++ '*' :: '/' :: gap) ++ blanks =
        '/' :: '*' :: (body ++ '*' :: '/' :: (gap ++ blanks)) := by simp
    rw [whole]
    exact .blockComment first ih

/-- A block comment ends with the first sign that closes it, and reading goes on there. -/
lemma lengthFrom_blockComment (opened read : Nat) {body : List Char}
    (first : ¬ ['*', '/'] <:+: body ++ ['*']) (rest : List Char) :
    lengthFrom (.blockComment opened) 0 read (body ++ '*' :: '/' :: rest) =
      read + body.length + 2 + length rest := by
  induction body generalizing read with
  | nil =>
    rw [List.nil_append, lengthFrom, if_pos ⟨rfl, rfl⟩, lengthFrom, lengthFrom_between]
    rfl
  | cons c body ih =>
    have inside : ¬ (c = '*' ∧ (body ++ '*' :: '/' :: rest).head? = some '/') := by
      rintro ⟨rfl, slash⟩
      cases body with
      | nil => cases slash
      | cons d body =>
        obtain rfl : d = '/' := by simpa using slash
        exact first (List.prefix_append ['*', '/'] (body ++ ['*'])).isInfix
    rw [List.cons_append, lengthFrom, if_neg inside,
      ih (read + 1) fun sign => first (sign.trans (List.suffix_cons _ _).isInfix), List.length_cons]
    omega

/-- In front of a token a filler is the whole gap. -/
lemma length_append_filler (filler : Filler behind gap) (finished : length behind = 0) :
    length (gap ++ behind) = gap.length := by
  induction filler with
  | nothing => exact finished
  | @blank c gap isBlank _ ih =>
    have one : length ([c] ++ (gap ++ behind)) = 1 + length (gap ++ behind) :=
      length_append_blanks (by simpa using isBlank) _
    rw [List.singleton_append] at one
    rw [List.cons_append, one, ih, List.length_cons, Nat.add_comm]
  | @lineComment body sameLine ended =>
    have line : (body ++ behind).takeWhile (· != '\n') = body := by
      have all : ∀ c ∈ body, (c != '\n') = true := fun c among => by
        simpa using fun same : c = '\n' => sameLine (same ▸ among)
      rw [List.takeWhile_append_of_pos all]
      rcases ended with rfl | head
      · simp
      · cases behind with
        | nil => cases head
        | cons d behind =>
          obtain rfl : d = '\n' := by simpa using head
          simp
    change length ('/' :: '/' :: (body ++ behind)) = _
    rw [length_lineComment, line, List.drop_left, finished, List.length_cons, List.length_cons]
    omega
  | @blockComment body gap first _ ih =>
    have whole : '/' :: '*' :: (body ++ '*' :: '/' :: gap) ++ behind =
        '/' :: '*' :: (body ++ '*' :: '/' :: (gap ++ behind)) := by simp
    rw [whole, length_blockComment, lengthFrom_blockComment 0 2 first, ih]
    simp only [List.length_cons, List.length_append]
    omega

end Gap

/-! ## Quoted texts -/

namespace Quotation

variable {more : List Char}

/-- Digits that end in front of the last of some characters depend on no others. -/
lemma numberFrom_front {base value count most : Nat}
    (ends : (numberFrom base value count most (front ++ behind)).2 < count + front.length) :
    numberFrom base value count most (front ++ more) =
      numberFrom base value count most (front ++ behind) := by
  induction front generalizing value count most with
  | nil =>
    rw [numberFrom_count, List.length_nil] at ends
    exact absurd ends (by omega)
  | cons c front ih =>
    cases most with
    | zero => rfl
    | succ most =>
      simp only [List.cons_append, numberFrom] at ends ⊢
      cases digit : digitIn? base c with
      | none => rfl
      | some d =>
        simp only [digit, List.length_cons] at ends
        exact ih (by omega)

lemma number_front {base most : Nat} (more : List Char)
    (ends : (number base most (front ++ behind)).2 < front.length) :
    number base most (front ++ more) = number base most (front ++ behind) :=
  numberFrom_front (by rwa [Nat.zero_add])

/-- An escape that ends in front of the last of some characters depends on no others. -/
lemma escape_front {code length : Nat}
    (escape : Escape.ofChars (front ++ behind) = .code code length) (ends : length < front.length) :
    Escape.ofChars (front ++ more) = .code code length := by
  cases front with
  | nil => cases ends
  | cons letter front =>
    rw [List.cons_append] at escape ⊢
    simp only [List.length_cons] at ends
    simp only [Escape.ofChars] at escape ⊢
    split at escape
    -- `\x` and up to two digits.
    case h_9 =>
      obtain ⟨-, rfl⟩ := Escape.code.inj escape
      have hex : number 16 2 (front ++ more) = number 16 2 (front ++ behind) :=
        number_front more (by omega)
      rw [hex, escape]
    -- `\u`: up to two digits, and then up to two more behind them.
    case h_10 =>
      obtain ⟨-, rfl⟩ := Escape.code.inj escape
      have within : (number 16 2 (front ++ behind)).2 ≤ front.length := by omega
      have drop (chars : List Char) : (front ++ chars).drop (number 16 2 (front ++ behind)).2 =
          front.drop (number 16 2 (front ++ behind)).2 ++ chars :=
        List.drop_append_of_le_length within
      rw [drop] at ends escape
      have high : number 16 2 (front ++ more) = number 16 2 (front ++ behind) :=
        number_front more (by omega)
      have low : number 16 2 (front.drop (number 16 2 (front ++ behind)).2 ++ more) =
          number 16 2 (front.drop (number 16 2 (front ++ behind)).2 ++ behind) :=
        number_front more (by rw [List.length_drop]; omega)
      rw [high, drop, drop, low, escape]
    -- Up to three octal digits, the letter itself among them.
    case h_11 =>
      split at escape
      · next digit =>
        rw [if_pos digit]
        obtain ⟨-, rfl⟩ := Escape.code.inj escape
        have octal : number 8 3 (letter :: front ++ more) = number 8 3 (letter :: front ++ behind) :=
          number_front more ends
        rw [List.cons_append, List.cons_append] at octal
        rw [octal, escape]
      · cases escape
    all_goals exact escape

/-- A quoted text depends on nothing behind its closing quote. -/
lemma decodeFrom_front {quote : Char} {skip read width : Nat} {value text : List Char}
    (decoded : decodeFrom quote skip read value (front ++ behind) = .ok (text, width))
    (ends : width ≤ read + front.length) :
    decodeFrom quote skip read value (front ++ more) = .ok (text, width) := by
  induction front generalizing skip read value with
  | nil =>
    have := (decodeFrom_bounds decoded).1
    simp only [List.length_nil] at ends
    omega
  | cons c front ih =>
    simp only [List.length_cons] at ends
    cases skip with
    | succ skip => exact ih decoded (by omega)
    | zero =>
      rw [List.cons_append, decodeFrom] at decoded ⊢
      by_cases closes : c = quote
      · rwa [if_pos closes] at decoded ⊢
      rw [if_neg closes] at decoded ⊢
      by_cases escapes : c = '\\'
      -- A character that stands for itself is the short case.
      swap
      · rw [if_neg escapes] at decoded ⊢
        exact ih decoded (by omega)
      rw [if_pos escapes] at decoded ⊢
      cases escape : Escape.ofChars (front ++ behind) with
      | unknown letter => simp [escape] at decoded
      | unfinished => simp [escape] at decoded
      | code code length =>
        rw [escape] at decoded
        -- The closing quote is still to come behind the escape, so the escape ends before `front`
        -- does.
        have enough : length < front.length := by
          dsimp only at decoded
          split at decoded
          · rw [decodeFrom_drop (Escape.length_le escape)] at decoded
            have := (decodeFrom_bounds decoded).1
            omega
          · cases decoded
        rw [escape_front escape enough]
        dsimp only at decoded ⊢
        cases char : charOf? code with
        | none => simp [char] at decoded
        | some d =>
          rw [char] at decoded
          exact ih decoded (by omega)

lemma decode_front {quote : Char} {width : Nat} {text : List Char}
    (decoded : decode quote (front ++ behind) = .ok (text, width))
    (ends : width ≤ front.length + 1) : decode quote (front ++ more) = .ok (text, width) := by
  unfold decode at decoded ⊢
  split at decoded
  · next value width' read =>
    obtain ⟨rfl, rfl⟩ := Prod.mk.inj (Except.ok.inj decoded)
    rw [decodeFrom_front read (by omega)]
  · cases decoded

end Quotation

/-! ## Lexemes -/

/-- No operator has a blank in it. -/
lemma Operator.not_mem_symbol_of_isBlank {ch : Char} (blank : Gap.isBlank ch) (op : Operator) :
    ch ∉ op.symbol.toList := by
  intro among
  have none_blank : op.symbol.toList.all (fun c => !Gap.isBlank c) = true := by
    cases op <;> rfl
  simpa [blank] using List.all_eq_true.1 none_blank ch among

lemma Lexeme.not_isNamePart_of_isBlank {ch : Char} (blank : Gap.isBlank ch) :
    (ch == '\\' || isNamePart ch) = false := by
  simp only [Gap.isBlank, Bool.or_eq_true, beq_iff_eq] at blank
  rcases blank with (rfl | rfl) | rfl <;> decide

lemma not_isDigit_of_isBlank {ch : Char} (blank : Gap.isBlank ch) : ch.isDigit = false := by
  simp only [Gap.isBlank, Bool.or_eq_true, beq_iff_eq] at blank
  rcases blank with (rfl | rfl) | rfl <;> decide

/-- A run of characters that ends among the first ones depends on no others. -/
lemma takeWhile_append_of_length_le {p : Char → Bool}
    (within : ((front ++ behind).takeWhile p).length ≤ front.length) :
    (front ++ behind).takeWhile p = front.takeWhile p := by
  rw [List.takeWhile_append] at within ⊢
  split
  · next whole =>
    rw [if_pos whole, List.length_append] at within
    have stops : behind.takeWhile p = [] := List.eq_nil_of_length_eq_zero (by omega)
    rw [stops, List.append_nil, (List.takeWhile_prefix p).eq_of_length whole]
  · rfl

/-- Such a run is the same in front of a character that it does not go on with. -/
lemma takeWhile_spaced {p : Char → Bool} {d : Char} (stop : p d = false)
    (within : ((front ++ behind).takeWhile p).length ≤ front.length) :
    (front ++ (d :: blanks ++ behind)).takeWhile p = (front ++ behind).takeWhile p :=
  (takeWhile_append_cons stop _ _).trans (takeWhile_append_of_length_le within).symm

/-- Where blanks are put in, a run of blanks is longer by them, or else it ended before.  What comes
behind the run is the same. -/
lemma run_of_blanks (front behind : List Char) (blank : ∀ ch ∈ blanks, Gap.isBlank ch) :
    ((front ++ (blanks ++ behind)).dropWhile Gap.isBlank).head? =
        ((front ++ behind).dropWhile Gap.isBlank).head? ∧
      (((front ++ (blanks ++ behind)).takeWhile Gap.isBlank).length =
          ((front ++ behind).takeWhile Gap.isBlank).length ∧
            ((front ++ behind).takeWhile Gap.isBlank).length ≤ front.length ∨
        ((front ++ (blanks ++ behind)).takeWhile Gap.isBlank).length =
          ((front ++ behind).takeWhile Gap.isBlank).length + blanks.length ∧
            front.length ≤ ((front ++ behind).takeWhile Gap.isBlank).length) := by
  by_cases all : ∀ ch ∈ front, Gap.isBlank ch
  · rw [List.takeWhile_append_of_pos all, List.takeWhile_append_of_pos all,
      List.takeWhile_append_of_pos blank, List.dropWhile_append_of_pos all,
      List.dropWhile_append_of_pos all, List.dropWhile_append_of_pos blank]
    refine ⟨rfl, .inr ?_⟩
    simp only [List.length_append]
    omega
  · have short : (front.takeWhile Gap.isBlank).length ≠ front.length := fun whole => all <| by
      rw [← (List.takeWhile_prefix _).eq_of_length whole]
      exact fun ch among => List.mem_takeWhile_imp among
    have left : front.dropWhile Gap.isBlank ≠ [] := fun none_left => short <| by
      have split := congrArg List.length (List.takeWhile_append_dropWhile (p := Gap.isBlank) (l := front))
      rw [none_left, List.append_nil] at split
      exact split
    have head (chars : List Char) : ((front ++ chars).dropWhile Gap.isBlank).head? =
        (front.dropWhile Gap.isBlank).head? := by
      rw [List.dropWhile_append, if_neg (by simpa using left), List.head?_append_of_ne_nil _ left]
    rw [head, head, List.takeWhile_append, if_neg short, List.takeWhile_append, if_neg short]
    exact ⟨rfl, .inl ⟨rfl, (List.takeWhile_prefix _).length_le⟩⟩

namespace Lexeme

variable {c : TokenContext} {x : Lexeme} {first : Char} {rest : List Char}

/-- The same token in front of more blanks.  They are read with it if all that stands between them and
the token is. -/
structure Spaced (front blanks : List Char) (x y : Lexeme) : Prop where
  kind : y.kind = x.kind
  text : y.text = x.text
  width : y.width = x.width
  read : y.read = x.read ∧ x.read ≤ front.length ∨
    y.read = x.read + blanks.length ∧ front.length ≤ x.read

lemma Spaced.refl (within : x.read ≤ front.length) : Spaced front blanks x x :=
  ⟨rfl, rfl, rfl, .inl ⟨rfl, within⟩⟩

lemma width_of_name (read : name c first rest = .ok x) :
    x.width = (rest.takeWhile fun ch => ch == '\\' || isNamePart ch).length + 1 := by
  unfold name at read
  extract_lets run width text at read
  split at read
  · cases read
  · split at read <;>
    · obtain rfl := Except.ok.inj read
      rfl

lemma name_spaced {d : Char} (read : name c first (front ++ behind) = .ok x)
    (within : x.width ≤ front.length + 1) (blank : ∀ ch ∈ d :: blanks, Gap.isBlank ch) :
    ∃ y, name c first (front ++ (d :: blanks ++ behind)) = .ok y ∧
      Spaced (first :: front) (d :: blanks) x y := by
  rw [width_of_name read] at within
  have run := takeWhile_append_of_length_le (Nat.le_of_succ_le_succ within)
  have run' : (front ++ (d :: blanks ++ behind)).takeWhile (fun ch => ch == '\\' || isNamePart ch) =
      front.takeWhile fun ch => ch == '\\' || isNamePart ch :=
    takeWhile_append_cons (not_isNamePart_of_isBlank (blank d List.mem_cons_self)) _ _
  have run_le : (front.takeWhile fun ch => ch == '\\' || isNamePart ch).length ≤ front.length :=
    (List.takeWhile_prefix _).length_le
  simp only [name, run, List.drop_append_of_le_length run_le] at read
  simp only [name, run', List.drop_append_of_le_length run_le]
  split at read
  · cases read
  · next proper =>
    rw [if_neg proper]
    have left := List.length_drop (i := (front.takeWhile fun ch => ch == '\\' || isNamePart ch).length)
      (l := front)
    -- Behind the name only blanks and the next character decide whether it is called; the blanks
    -- put in lengthen what is read of them and change nothing about that character.
    generalize front.drop (front.takeWhile fun ch => ch == '\\' || isNamePart ch).length = run_end
      at read left ⊢
    obtain ⟨head, blanks_read⟩ := run_of_blanks run_end behind blank
    rw [← drop_length_takeWhile, ← drop_length_takeWhile] at head
    rw [head]
    have spaced (kind : TokenKind) (text : List Char) :
        let width := (front.takeWhile fun ch => ch == '\\' || isNamePart ch).length + 1
        Spaced (first :: front) (d :: blanks)
          ⟨kind, text, width, width + ((run_end ++ behind).takeWhile Gap.isBlank).length⟩
          ⟨kind, text, width,
            width + ((run_end ++ (d :: blanks ++ behind)).takeWhile Gap.isBlank).length⟩ := by
      refine ⟨rfl, rfl, rfl, ?_⟩
      simp only [List.length_cons] at blanks_read ⊢
      omega
    cases c with
    | expression =>
      obtain rfl := Except.ok.inj read
      exact ⟨_, rfl, spaced _ _⟩
    | statement =>
      generalize Keyword.ofSpelling? _ = spelled at read ⊢
      cases spelled with
      | some word =>
        obtain rfl := Except.ok.inj read
        exact ⟨_, rfl, .refl (by simpa using run_le)⟩
      | none =>
        obtain rfl := Except.ok.inj read
        exact ⟨_, rfl, spaced _ _⟩

/-- An operator that ends among the first characters, and likewise that there is none. -/
lemma operator?_front
    (within : ∀ op, operator? (front ++ behind) = some op → op.symbol.length ≤ front.length) :
    operator? front = operator? (front ++ behind) := by
  have shorter (op : Operator) (fits : op.symbol.toList.isPrefixOf front) :
      op.symbol.toList.isPrefixOf (front ++ behind) := by
    rw [List.isPrefixOf_iff_prefix] at fits ⊢
    exact fits.trans (List.prefix_append _ _)
  cases found : operator? (front ++ behind) with
  | none =>
    unfold operator? at found ⊢
    rw [List.find?_eq_none] at found ⊢
    exact fun op among fits => found op among (shorter op fits)
  | some op =>
    have fits := within op found
    unfold operator? at found ⊢
    obtain ⟨front_op, sooner, later, split, none_sooner⟩ := List.find?_eq_some_iff_append.1 found
    refine List.find?_eq_some_iff_append.2 ⟨?_, sooner, later, split, fun op' among => ?_⟩
    · rw [List.isPrefixOf_iff_prefix] at front_op ⊢
      exact List.prefix_of_prefix_length_le front_op (List.prefix_append _ _) fits
    · have := none_sooner op' among
      simp only [Bool.not_eq_true'] at this ⊢
      exact Bool.eq_false_iff.2 fun fits' => by simp [shorter op' fits'] at this

/-- An operator that ends among the first characters is read in front of a blank as well, and none is
read there if none was. -/
lemma operator?_spaced {d : Char} (stop : Gap.isBlank d)
    (within : ∀ op, operator? (front ++ behind) = some op → op.symbol.length ≤ front.length) :
    operator? (front ++ (d :: blanks ++ behind)) = operator? (front ++ behind) :=
  (operator?_append (Operator.not_mem_symbol_of_isBlank stop) _ _).trans (operator?_front within)

/-- A token that ends among the first characters is read in front of blanks as well. -/
lemma ofChars_spaced (read : ofChars c (front ++ behind) = .ok x) (begun : front ≠ [])
    (within : x.width ≤ front.length) (blank : ∀ ch ∈ blanks, Gap.isBlank ch) :
    ∃ y, ofChars c (front ++ (blanks ++ behind)) = .ok y ∧ Spaced front blanks x y := by
  cases blanks with
  | nil => exact ⟨x, by simpa using read, rfl, rfl, rfl, by simpa using le_total _ _⟩
  | cons d blanks =>
    cases front with
    | nil => exact absurd rfl begun
    | cons ch front =>
      have stop : Gap.isBlank d := blank d List.mem_cons_self
      have verbatim_eq {kind : TokenKind} {width : Nat} (le : width ≤ (ch :: front).length) :
          verbatim kind width (ch :: front ++ (d :: blanks ++ behind)) =
            verbatim kind width (ch :: front ++ behind) := by
        rw [verbatim_append le, verbatim_append le]
      have unchanged (exact : x.read = x.width) : Spaced (ch :: front) (d :: blanks) x x :=
        .refl (exact ▸ within)
      -- Blanks behind the first sign can part it from a star, but put none there.
      have star : (front ++ (d :: blanks ++ behind)).head? = some '*' →
          (front ++ behind).head? = some '*' := head?_of_spaced (by decide) blank
      rw [List.cons_append] at read ⊢
      simp only [ofChars] at read ⊢
      by_cases comment : ch = '/' ∧ (front ++ behind).head? = some '*'
      · simp [comment] at read
      rw [if_neg comment] at read
      rw [if_neg fun opens => comment ⟨opens.1, star opens.2⟩]
      -- The rest follows `ofChars`, in its order; each test gives the same answer in both texts,
      -- since it looks no further than the token reaches.
      cases sign : punctuation? ch with
      | some kind =>
        simp only [sign] at read ⊢
        obtain rfl := Except.ok.inj read
        exact ⟨_, congrArg Except.ok (verbatim_eq within), unchanged rfl⟩
      | none =>
        simp only [sign] at read ⊢
        by_cases quote : ch = '"' ∨ ch = '\''
        · rw [if_pos quote] at read ⊢
          cases decoded : Quotation.decode ch (front ++ behind) with
          | error misread => simp [decoded] at read
          | ok result =>
            rw [decoded] at read
            obtain rfl := Except.ok.inj read
            rw [Quotation.decode_front decoded within]
            exact ⟨_, rfl, unchanged rfl⟩
        rw [if_neg quote] at read ⊢
        by_cases digit : ch.isDigit
        · rw [if_pos digit] at read ⊢
          obtain rfl := Except.ok.inj read
          have run : (ch :: front ++ (d :: blanks ++ behind)).takeWhile Char.isDigit =
              (ch :: front ++ behind).takeWhile Char.isDigit :=
            takeWhile_spaced (not_isDigit_of_isBlank stop) within
          rw [← List.cons_append, run]
          exact ⟨_, congrArg Except.ok (verbatim_eq within), unchanged rfl⟩
        rw [if_neg digit] at read ⊢
        -- A longer operator could only be found across the blanks, and no operator contains one.
        have same : operator? (ch :: front ++ (d :: blanks ++ behind)) = operator? (ch :: front ++ behind) :=
          operator?_spaced stop fun op found => by
            simp only [List.cons_append] at found
            rw [found] at read
            obtain rfl := Except.ok.inj read
            exact within
        simp only [List.cons_append] at same
        rw [List.cons_append, same]
        cases found : operator? (ch :: (front ++ behind)) with
        | some op =>
          rw [found] at read
          obtain rfl := Except.ok.inj read
          exact ⟨_, congrArg Except.ok (verbatim_eq within), unchanged rfl⟩
        | none =>
          rw [found] at read
          dsimp only at read ⊢
          by_cases equals : ch = '='
          · rw [if_pos equals] at read ⊢
            obtain rfl := Except.ok.inj read
            exact ⟨_, congrArg Except.ok (verbatim_eq within), unchanged rfl⟩
          rw [if_neg equals] at read ⊢
          by_cases bar : ch = '|'
          · simp [bar] at read
          rw [if_neg bar] at read ⊢
          by_cases ampersand : ch = '&'
          · simp [ampersand] at read
          rw [if_neg ampersand] at read ⊢
          exact name_spaced read within blank

end Lexeme

/-! ## Gaps in front of tokens -/

namespace Gap

variable {c : TokenContext} {x : Lexeme}

/-- In front of a token the gap is over. -/
lemma length_drop_length {chars : List Char}
    (read : Lexeme.ofChars c (chars.drop (length chars)) = .ok x) :
    length (chars.drop (length chars)) = 0 :=
  (isOver_drop_length chars).resolve_right (Lexer.not_opensComment read)

/-- Blanks that are put in at the end of a gap belong to it. -/
lemma length_through_blanks (whole : length (front ++ behind) = front.length)
    (read : Lexeme.ofChars c behind = .ok x) (blank : ∀ ch ∈ blanks, isBlank ch) :
    length (front ++ (blanks ++ behind)) = front.length + blanks.length := by
  have filler := (filler_length (front ++ behind)).1
  rw [whole, List.drop_left, List.take_left] at filler
  have at_token : behind = (front ++ behind).drop (length (front ++ behind)) := by
    rw [whole, List.drop_left]
  have ended : length behind = 0 := by
    rw [at_token] at read ⊢
    exact length_drop_length read
  rw [← List.append_assoc, length_append_filler (filler.append_blanks blank) ended, List.length_append]

/-- Blanks that are put in behind a token leave the gap in front of it alone. -/
lemma length_before_blanks (ends : length (front ++ behind) < front.length)
    (read : Lexeme.ofChars c ((front ++ behind).drop (length (front ++ behind))) = .ok x)
    (blank : ∀ ch ∈ blanks, isBlank ch) :
    length (front ++ (blanks ++ behind)) = length (front ++ behind) := by
  have ended := length_drop_length read
  obtain ⟨filler, noLine⟩ := filler_length (front ++ behind)
  have noBlock := Lexeme.not_blockSign read
  generalize length (front ++ behind) = gap at *
  rw [List.drop_append_of_le_length ends.le] at filler ended noLine noBlock
  rw [List.take_append_of_le_length ends.le] at filler
  obtain ⟨ch, left, starts⟩ := List.exists_cons_of_ne_nil (List.drop_eq_nil_iff.not.2 ends.not_ge)
  rw [starts, List.cons_append] at filler ended noLine noBlock
  have proper : isBlank ch = false := by
    by_contra is_blank
    have one : length ([ch] ++ (left ++ behind)) = 1 + length (left ++ behind) :=
      length_append_blanks (by simpa using is_blank) _
    rw [List.singleton_append, ended] at one
    omega
  have noSign {d : Char} (other : isBlank d = false) (none_there : ¬ ['/', d] <+: ch :: (left ++ behind))
      (slash : ch = '/') : (left ++ (blanks ++ behind)).head? ≠ some d := by
    intro head
    obtain ⟨rest, split⟩ := List.head?_eq_some_iff.1 (head?_of_spaced other blank head)
    refine none_there ?_
    rw [slash, split]
    exact List.prefix_append ['/', d] rest
  have ended' : length (ch :: left ++ (blanks ++ behind)) = 0 :=
    length_eq_zero proper fun slash =>
      ⟨noSign (by decide) noLine slash, noSign (by decide) noBlock slash⟩
  have filler' : Filler (ch :: left ++ (blanks ++ behind)) (front.take gap) :=
    filler.change (by simp)
  have spaced := length_append_filler filler' ended'
  rwa [← starts, ← List.append_assoc, List.take_append_drop, List.length_take_of_le ends.le] at spaced

end Gap

end ScriptEngine
