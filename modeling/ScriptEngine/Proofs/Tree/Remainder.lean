import ScriptEngine.Proofs.Token.Context
import ScriptEngine.Proofs.Tree.Progress

/-!
# What is left of a script

How much a lexer has still to read (`Lexer.left`), and where it stands (`Lexer.Sound`).  Reading a
token leaves less, unless the token is the end of the input, and moves the lexer behind the start of
the token; a token that is handed back is one that stands in the text where its span says
(`Token.StandsIn`).

`Generous` is a lexer that claims to have more left than it has.  A parser on it reads the same
tokens, with more budget for its loops.
-/

namespace ScriptEngine

open TokenStream

/-- The token can be read from the text where its span starts. -/
def Token.StandsIn (text : List Char) (t : Token) : Prop :=
  ∃ c x, Lexeme.ofChars c (text.drop t.span.start) = .ok x ∧ x.kind = t.kind

/-- A token of this kind makes an empty statement and is left unread. -/
def TokenKind.isLeftUnread : TokenKind → Bool
  | comma | rightBrace | keyword .elseWord => true
  | _ => false

/-- Read where a statement may start, the text goes on at a position with a token that makes an empty
statement and is left unread. -/
def StopsAt (text : List Char) (position : Nat) : Prop :=
  ∃ x, Lexeme.ofChars .statement (text.drop position) = .ok x ∧ x.kind.isLeftUnread

/-- A token that is left unread would be read the same where a statement may start. -/
lemma Lexeme.ofChars_statement {c : TokenContext} {chars : List Char} {x : Lexeme}
    (read : ofChars c chars = .ok x) (unread : x.kind.isLeftUnread) :
    ofChars .statement chars = .ok x := by
  cases c with
  | statement => exact read
  | expression =>
    have ordinary := kind_ne_keyword_of_expression read
    have noWord : x.kind.isWord = false := by
      cases kind : x.kind <;> simp [kind, TokenKind.isLeftUnread] at unread
      · rfl
      · rfl
      · exact absurd kind (ordinary _)
    exact ofChars_of_isWord_eq_false read noWord .statement

lemma Token.StandsIn.stopsAt {text : List Char} {t : Token} (stands : t.StandsIn text)
    (unread : t.kind.isLeftUnread) : StopsAt text t.span.start := by
  obtain ⟨c, x, read, kind⟩ := stands
  rw [← kind] at unread
  exact ⟨x, Lexeme.ofChars_statement read unread, unread⟩

namespace Lexer

/-- How many tokens at most are left in front of the end of the input. -/
def left (l : Lexer) : Nat :=
  l.cursor.ahead.length + (l.pending.toList.filter (·.kind ≠ .endOfInput)).length

lemma left_le_remaining (l : Lexer) : l.left ≤ remaining l :=
  Nat.add_le_add_left (List.length_filter_le _ _) _

/-- The lexer stands in its text, and so does the token that was handed back. -/
structure Sound (text : List Char) (l : Lexer) : Prop where
  inside : l.Inside
  text_eq : l.cursor.text = text
  /-- A token that was handed back starts in front of the lexer, unless it is the end. -/
  behind : ∀ t ∈ l.pending, t.kind ≠ .endOfInput → t.span.start < l.cursor.position
  stands : ∀ t ∈ l.pending, t.StandsIn text

lemma sound_ofScript (script : String) : (ofScript script).Sound script.toList :=
  ⟨inside_ofScript script, rfl, by simp [ofScript], by simp [ofScript]⟩

variable {c : TokenContext} {text : List Char} {l l' : Lexer} {t : Token} {e : ScriptError}

/-- What is true of a token that has just been read. -/
structure Next (text : List Char) (l : Lexer) (t : Token) (l' : Lexer) : Prop where
  sound : l'.Sound text
  returned : (l'.pushBack t).Sound text
  start : l.position ≤ t.span.start
  onward : t.span.start ≤ l'.position
  left_le : l'.left ≤ l.left
  returned_left_le : (l'.pushBack t).left ≤ l.left
  /-- If something stood in front of the token, it is not there any more. -/
  gap_left : t.span.start ≠ l.position → (l'.pushBack t).left < l.left
  proper : t.kind ≠ .endOfInput → l'.left < l.left ∧ t.span.start < l'.position
  /-- What was handed back is read first, and is skipped only if it is a newline. -/
  given : ∀ u ∈ l.pending, u.kind ≠ .newline → t = u

/-- Newlines in front of a token may be read as well. -/
lemma Next.trans {u : Token} {m : Lexer} (first : Next text l u m) (newline : u.kind = .newline)
    (second : Next text m t l') : Next text l t l' := by
  obtain ⟨less, behind⟩ := first.proper (by simp [newline])
  refine ⟨second.sound, second.returned, ?_, second.onward, ?_, ?_, fun _ => ?_, fun kind => ?_, ?_⟩
  · exact first.start.trans (first.onward.trans second.start)
  · exact second.left_le.trans first.left_le
  · exact second.returned_left_le.trans first.left_le
  · exact second.returned_left_le.trans_lt less
  · exact ⟨(second.proper kind).1.trans_le first.left_le, (second.proper kind).2⟩
  · intro v pending other
    rw [first.given v pending other] at newline
    exact absurd newline other

lemma left_of_none (none_pending : l.pending = none) : l.left = l.cursor.ahead.length := by
  simp [left, none_pending]

lemma left_pushBack (t : Token) (l : Lexer) :
    (l.pushBack t).left = l.cursor.ahead.length + if t.kind = .endOfInput then 0 else 1 := by
  by_cases end_kind : t.kind = .endOfInput <;> simp [left, pushBack, end_kind]

lemma Sound.pushBack (h : l.Sound text) (here : t.span.start ≤ l.cursor.position)
    (behind : t.kind ≠ .endOfInput → t.span.start < l.cursor.position) (stands : t.StandsIn text) :
    (l.pushBack t).Sound text := by
  refine ⟨⟨h.inside.cursor, ?_⟩, h.text_eq, ?_, ?_⟩
  · rintro _ ⟨⟩
    exact here
  · rintro _ ⟨⟩
    exact behind
  · rintro _ ⟨⟩
    exact stands

/-- No more is left than the whole text. -/
lemma Sound.left_le (h : l.Sound text) : l.left ≤ text.length := by
  have cursor := h.inside.cursor
  have ahead : l.cursor.ahead.length = l.cursor.text.length - l.cursor.position := by
    rw [l.cursor.ahead_eq, List.length_drop]
  rw [h.text_eq] at cursor ahead
  cases pending : l.pending with
  | none =>
    rw [left_of_none pending, ahead]
    exact Nat.sub_le _ _
  | some t =>
    have handed_back : l = Lexer.pushBack t ⟨l.cursor, none⟩ := Lexer.ext rfl pending
    have left_eq : l.left = l.cursor.ahead.length + if t.kind = .endOfInput then 0 else 1 :=
      (congrArg left handed_back).trans (left_pushBack t _)
    rw [left_eq, ahead]
    split
    · omega
    · next proper =>
      have := h.behind t pending proper
      omega

/-- The next token is the one that was handed back. -/
lemma Sound.next_pending (h : l.Sound text) (pending : l.pending = some t) :
    Next text l t ⟨l.cursor, none⟩ := by
  have here := h.inside.pending t pending
  have sound : (⟨l.cursor, none⟩ : Lexer).Sound text :=
    ⟨⟨h.inside.cursor, by simp⟩, h.text_eq, by simp, by simp⟩
  have left_eq : l.left = l.cursor.ahead.length + if t.kind = .endOfInput then 0 else 1 := by
    obtain ⟨cursor, _⟩ := l
    obtain rfl : _ = some t := pending
    exact left_pushBack t ⟨cursor, none⟩
  have position : l.position = t.span.start := by simp [Lexer.position, pending]
  refine ⟨sound, sound.pushBack here (h.behind t pending) (h.stands t pending), position.le, here,
    ?_, ?_, fun other => absurd position.symm other, fun proper => ⟨?_, h.behind t pending proper⟩,
    fun u given _ => Option.some.inj (pending.symm.trans given)⟩
  · rw [left_of_none rfl, left_eq]
    exact Nat.le_add_right _ _
  · rw [left_pushBack, left_eq]
  · rw [left_of_none rfl, left_eq, if_neg proper]
    exact Nat.lt_succ_self _

/-- The next token is read off the script. -/
lemma Sound.next_place (h : l.Sound text) (pending : l.pending = none) {x : Lexeme}
    (lexeme : Lexeme.ofChars c (atToken l.cursor).ahead = .ok x) :
    Next text l (place (atToken l.cursor) x) ⟨(atToken l.cursor).advance x.read, none⟩ := by
  have read := next_eq_ok.2 (.inr ⟨pending, x, lexeme, rfl, rfl⟩)
  obtain ⟨start, onward, inside⟩ := position_next h.inside read
  have fits := Lexeme.ofChars_fits lexeme
  -- What is left counts the characters in front, and a token that was handed back.  All claims
  -- about it come down to arithmetic on the lengths of the gap and of the token.
  have gap := Gap.length_le l.cursor.ahead
  have read_le := fits.read_le
  have moved := Cursor.position_advance read_le
  have here : (atToken l.cursor).position = l.cursor.position + Gap.length l.cursor.ahead :=
    Cursor.position_advance gap
  have ahead : (atToken l.cursor).ahead.length = l.cursor.ahead.length - Gap.length l.cursor.ahead := by
    rw [atToken, Cursor.ahead_advance, List.length_drop]
  have ahead' : ((atToken l.cursor).advance x.read).ahead.length =
      l.cursor.ahead.length - Gap.length l.cursor.ahead - x.read := by
    rw [Cursor.ahead_advance, List.length_drop, ahead]
  have position : l.position = l.cursor.position := by simp [Lexer.position, pending]
  have text_eq : (atToken l.cursor).text = text := by rw [atToken, Cursor.text_advance, h.text_eq]
  have stands : (place (atToken l.cursor) x).StandsIn text := by
    refine ⟨c, x, ?_, rfl⟩
    rw [← lexeme, ← text_eq]
    exact congrArg _ (atToken l.cursor).ahead_eq.symm
  have proper (kind : x.kind ≠ .endOfInput) : 0 < x.read := fits.read_pos kind
  have sound : (⟨(atToken l.cursor).advance x.read, none⟩ : Lexer).Sound text :=
    ⟨inside, by rw [Cursor.text_advance, text_eq], by simp, by simp⟩
  have start_eq : (place (atToken l.cursor) x).span.start = (atToken l.cursor).position := rfl
  rw [ahead] at read_le
  refine ⟨sound, sound.pushBack onward ?_ stands, start, onward, ?_, ?_, ?_, ?_,
    by simp [pending]⟩
  · intro kind
    have := proper kind
    simp only [start_eq, moved]
    omega
  · rw [left_of_none rfl, left_of_none pending, ahead']
    omega
  · rw [left_pushBack, left_of_none pending, ahead']
    split
    · omega
    · next kind =>
      have := proper kind
      omega
  · intro other
    rw [left_pushBack, left_of_none pending, ahead']
    rw [start_eq, position, here] at other
    split
    · omega
    · next kind =>
      have := proper kind
      omega
  · intro kind
    have := proper kind
    rw [left_of_none rfl, left_of_none pending, ahead']
    refine ⟨by omega, ?_⟩
    rw [start_eq]
    change _ < ((atToken l.cursor).advance x.read).position
    omega

lemma Sound.next (h : l.Sound text) (read : l.next c = (.ok t, l')) : Next text l t l' := by
  rcases next_eq_ok.1 read with ⟨pending, rfl⟩ | ⟨pending, x, lexeme, rfl, rfl⟩
  · exact h.next_pending pending
  · exact h.next_place pending lexeme

/-- Failing to read a token is no fault of the grammar. -/
lemma fault_of_next (read : l.next c = (.error e, l')) : ∃ fault, e.fault = .lexical fault := by
  obtain ⟨-, m, -, rfl, -⟩ := next_eq_error.1 read
  exact ⟨m.fault, rfl⟩

end Lexer

/-! ## More budget -/

/-- A lexer that claims to have `more` left than it has. -/
structure Generous where
  lexer : Lexer
  more : Nat

instance : TokenStream Generous where
  next c g := ((g.lexer.next c).1, { g with lexer := (g.lexer.next c).2 })
  pushBack t g := { g with lexer := g.lexer.pushBack t }
  restore before now := { now with lexer := now.lexer.restore before.lexer.save }
  position g := g.lexer.position
  line g := g.lexer.line
  remaining g := remaining g.lexer + g.more

/-- The parser on a lexer that claims to have `more` left. -/
def Parser.generous (more : Nat) (p : Parser Lexer) : Parser Generous :=
  ⟨⟨p.tokens, more⟩, p.attempts⟩

lemma Parser.budget_le_generous (more : Nat) (p : Parser Lexer) :
    p.budget ≤ (p.generous more).budget :=
  Nat.mul_le_mul_left _ (Nat.add_le_add_right (Nat.le_add_right _ more) 2)

end ScriptEngine
