import Mathlib.Tactic.Lemma
import ScriptEngine.Token.Lexeme

/-!
# The same characters in another context

`Lexeme.Rule` lists the ways in which the front of some characters is read; what holds of all of them
holds of every lexeme and of every failure to read one.  All of them but the last are the same
wherever the reader stands.

Where a statement may start keywords are told apart from names.  All other tokens are read alike in
both contexts (`Lexeme.ofChars_of_isWord_eq_false`), and so is every token at the start of a
statement that is no keyword (`Lexeme.ofChars_expression_of_statement`).  In an expression there are
no keywords; what would be one is a name (`Lexeme.ofChars_expression_of_keyword`).
-/

namespace ScriptEngine

/-- A token of this kind is read differently in different contexts. -/
def TokenKind.isWord : TokenKind → Bool
  | name | callName | keyword _ => true
  | _ => false

namespace Lexeme

variable {c : TokenContext} {first ch : Char} {rest chars : List Char} {x : Lexeme}

/-- A name is a word; where a statement may start it is a keyword if it is spelled like one. -/
lemma name_statement (read : name .statement first rest = .ok x) :
    (∃ word y, x.kind = .keyword word ∧ name .expression first rest = .ok y ∧
        (y.kind = .name ∨ y.kind = .callName) ∧ y.text = x.text ∧ y.width = x.width) ∨
      name .expression first rest = .ok x ∧ (x.kind = .name ∨ x.kind = .callName) := by
  have called (b : Bool) : (if b then TokenKind.callName else .name) = .name ∨
      (if b then TokenKind.callName else .name) = .callName := by
    cases b <;> simp
  unfold name at read ⊢
  extract_lets run width text at read
  split at read
  · cases read
  · next proper =>
    rw [if_neg proper]
    cases spelled : Keyword.ofSpelling? (String.ofList text) with
    | some word =>
      rw [spelled] at read
      obtain rfl := Except.ok.inj read
      exact .inl ⟨word, _, rfl, rfl, called _, rfl, rfl⟩
    | none =>
      rw [spelled] at read
      obtain rfl := Except.ok.inj read
      exact .inr ⟨rfl, called _⟩

lemma name_expression (read : name .expression first rest = .ok x) :
    x.kind = .name ∨ x.kind = .callName := by
  unfold name at read
  extract_lets run width text at read
  split at read
  · cases read
  · obtain rfl := Except.ok.inj read
    dsimp only
    split <;> simp

lemma isWord_of_name (read : name c first rest = .ok x) : x.kind.isWord = true := by
  cases c with
  | expression => rcases name_expression read with kind | kind <;> simp [kind, TokenKind.isWord]
  | statement =>
    rcases name_statement read with ⟨_, _, kind, -⟩ | ⟨-, kind | kind⟩ <;>
      simp [kind, TokenKind.isWord]

/-- How the front of some characters is read in each of the contexts. -/
inductive Rule : List Char → (TokenContext → Except Misread Lexeme) → Prop
  | endOfInput : Rule [] fun _ => .ok (verbatim .endOfInput 0 [])
  | comment {ch : Char} {rest : List Char} (opens : ch = '/' ∧ rest.head? = some '*') :
    Rule (ch :: rest) fun _ => .error ⟨.unterminatedComment, 0, (ch :: rest).length⟩
  | punctuation {ch : Char} {rest : List Char} {kind : TokenKind}
    (sign : punctuation? ch = some kind) :
    Rule (ch :: rest) fun _ => .ok (verbatim kind 1 (ch :: rest))
  | quoted {quote : Char} {rest text : List Char} {width : Nat}
    (decoded : Quotation.decode quote rest = .ok (text, width)) (opens : quote = '"' ∨ quote = '\'') :
    Rule (quote :: rest) fun _ => .ok ⟨.literal, text, width, width⟩
  | misquoted {quote : Char} {rest : List Char} {misread : Misread}
    (failed : Quotation.decode quote rest = .error misread) :
    Rule (quote :: rest) fun _ => .error misread
  | digits {ch : Char} {rest : List Char} (digit : ch.isDigit) : Rule (ch :: rest) fun _ =>
    .ok (verbatim .literal ((ch :: rest).takeWhile Char.isDigit).length (ch :: rest))
  | operator {ch : Char} {rest : List Char} {op : Operator}
    (found : operator? (ch :: rest) = some op) :
    Rule (ch :: rest) fun _ => .ok (verbatim (.operator op) op.symbol.length (ch :: rest))
  | assign {rest : List Char} (noOperator : operator? ('=' :: rest) = none) :
    Rule ('=' :: rest) fun _ => .ok (verbatim .assign 1 ('=' :: rest))
  | bar {rest : List Char} : Rule ('|' :: rest) fun _ => .error ⟨.loneBar, 0, 1⟩
  | ampersand {rest : List Char} : Rule ('&' :: rest) fun _ => .error ⟨.loneAmpersand, 0, 1⟩
  | name {ch : Char} {rest : List Char} : Rule (ch :: rest) fun c => name c ch rest

/-- Some rule applies. -/
lemma rule_ofChars (chars : List Char) : Rule chars fun c => ofChars c chars := by
  cases chars with
  | nil => exact .endOfInput
  | cons ch rest =>
    -- The tests of `ofChars` in their order; what each finds is a rule of its own, the same in
    -- both contexts but for names.
    simp only [ofChars]
    by_cases opens : ch = '/' ∧ rest.head? = some '*'
    · simp only [if_pos opens]
      exact .comment opens
    simp only [if_neg opens]
    cases sign : punctuation? ch with
    | some kind => exact .punctuation sign
    | none =>
      by_cases quote : ch = '"' ∨ ch = '\''
      · simp only [if_pos quote]
        cases decoded : Quotation.decode ch rest with
        | ok result => exact .quoted decoded quote
        | error misread => exact .misquoted decoded
      simp only [if_neg quote]
      by_cases digit : ch.isDigit
      · simp only [if_pos digit]
        exact .digits digit
      simp only [if_neg digit]
      cases found : operator? (ch :: rest) with
      | some op => exact .operator found
      | none =>
        dsimp only
        by_cases equals : ch = '='
        · subst equals
          exact .assign found
        simp only [if_neg equals]
        by_cases bar : ch = '|'
        · subst bar
          exact .bar
        simp only [if_neg bar]
        by_cases ampersand : ch = '&'
        · subst ampersand
          exact .ampersand
        simp only [if_neg ampersand]
        exact .name

/-- What is read is read by some rule. -/
lemma exists_rule {result : Except Misread Lexeme} (read : ofChars c chars = result) :
    ∃ rule, Rule chars rule ∧ rule c = result :=
  ⟨_, rule_ofChars chars, read⟩

/-- What is no name is read alike in both contexts, and is no word. -/
lemma ofChars_alike_or_name (ch : Char) (rest : List Char) :
    (∃ read, (∀ c, ofChars c (ch :: rest) = read) ∧ ∀ x, read = .ok x → x.kind.isWord = false) ∨
      ∀ c, ofChars c (ch :: rest) = name c ch rest := by
  have rule := rule_ofChars (ch :: rest)
  generalize reads : (fun c => ofChars c (ch :: rest)) = read at rule
  have alike (c : TokenContext) : ofChars c (ch :: rest) = read c := congrFun reads c
  cases rule with
  | name => exact .inr alike
  | comment | misquoted | bar | ampersand => exact .inl ⟨_, alike, nofun⟩
  | quoted | digits | operator | assign => exact .inl ⟨_, alike, by rintro x ⟨⟩; rfl⟩
  | punctuation sign =>
    refine .inl ⟨_, alike, ?_⟩
    rintro x ⟨⟩
    unfold punctuation? at sign
    split at sign <;> first
      | (obtain rfl := Option.some.inj sign; rfl)
      | cases sign

/-- What is no word is read alike in both contexts. -/
lemma ofChars_of_isWord_eq_false (read : ofChars c chars = .ok x)
    (noWord : x.kind.isWord = false) (c' : TokenContext) : ofChars c' chars = .ok x := by
  cases chars with
  | nil => exact read
  | cons ch rest =>
    rcases ofChars_alike_or_name ch rest with ⟨result, alike, -⟩ | named
    · rw [alike] at read ⊢
      exact read
    · rw [named] at read
      exact absurd (isWord_of_name read) (by simp [noWord])

/-- Where a statement may start all but the keywords are read as in an expression. -/
theorem ofChars_expression_of_statement (read : ofChars .statement chars = .ok x)
    (ordinary : ∀ word, x.kind ≠ .keyword word) : ofChars .expression chars = .ok x := by
  cases chars with
  | nil => exact read
  | cons ch rest =>
    rcases ofChars_alike_or_name ch rest with ⟨result, alike, -⟩ | named
    · rw [alike] at read ⊢
      exact read
    · rw [named] at read ⊢
      rcases name_statement read with ⟨word, _, kind, -⟩ | ⟨same, -⟩
      · exact absurd kind (ordinary word)
      · exact same

/-- In an expression there are no keywords. -/
lemma kind_ne_keyword_of_expression (read : ofChars .expression chars = .ok x)
    (word : Keyword) : x.kind ≠ .keyword word := by
  cases chars with
  | nil =>
    obtain rfl := Except.ok.inj read
    simp [verbatim]
  | cons ch rest =>
    rcases ofChars_alike_or_name ch rest with ⟨result, alike, noWord⟩ | named
    · rw [alike] at read
      intro kind
      have := noWord x read
      simp [kind, TokenKind.isWord] at this
    · rw [named] at read
      rcases name_expression read with kind | kind <;> simp [kind]

/-- What is a keyword where a statement may start is a name of that spelling in an expression. -/
lemma ofChars_expression_of_keyword {word : Keyword} (read : ofChars .statement chars = .ok x)
    (keyword : x.kind = .keyword word) :
    ∃ y, ofChars .expression chars = .ok y ∧ (y.kind = .name ∨ y.kind = .callName) ∧
      y.text = x.text ∧ y.width = x.width := by
  cases chars with
  | nil =>
    obtain rfl := Except.ok.inj read
    simp [verbatim] at keyword
  | cons ch rest =>
    rcases ofChars_alike_or_name ch rest with ⟨result, alike, noWord⟩ | named
    · rw [alike] at read
      have := noWord x read
      simp [keyword, TokenKind.isWord] at this
    · rw [named] at read ⊢
      rcases name_statement read with ⟨_, y, -, same, kind, text, width⟩ | ⟨-, kind | kind⟩
      · exact ⟨y, same, kind, text, width⟩
      · simp [kind] at keyword
      · simp [kind] at keyword

end Lexeme

end ScriptEngine
