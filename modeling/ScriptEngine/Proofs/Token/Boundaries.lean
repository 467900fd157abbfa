import ScriptEngine.Proofs.Token.Rewinding
import ScriptEngine.Proofs.Token.Tiling

/-!
# Where tokens end

The context in which a token is read decides whether a word is a keyword or a name, and nothing else:
whatever the contexts of its reads, a lexer cuts a script into the same pieces and fails at the same
places (`context_keeps_boundaries`).

The lexers themselves do not stay together.  Behind a keyword a lexer stands right at its end; behind a
name it has read on over blanks, in search of a parenthesis.  What they have in common is the place
behind the blanks (`Cursor.pastBlanks`), and a token is read from there.
-/

namespace ScriptEngine

/-! ## Blanks in front of a gap -/

namespace Gap

/-- The mode of reading a gap in front of which `n` more characters stand. -/
def Mode.shift (n : Nat) : Mode → Mode
  | .blockComment opened => .blockComment (opened + n)
  | mode => mode

lemma lengthFrom_add (n : Nat) (chars : List Char) (mode : Mode) (skip read : Nat) :
    lengthFrom (mode.shift n) skip (read + n) chars = lengthFrom mode skip read chars + n := by
  induction chars generalizing mode skip read with
  | nil => cases mode <;> rfl
  | cons c rest ih =>
    have onward (mode' : Mode) (skip' : Nat) : lengthFrom (mode'.shift n) skip' (read + n + 1) rest =
        lengthFrom mode' skip' (read + 1) rest + n := by
      rw [Nat.add_right_comm]
      exact ih mode' skip' (read + 1)
    cases skip with
    | succ skip => exact onward mode skip
    | zero =>
      cases mode with
      | between =>
        simp only [lengthFrom, Mode.shift]
        split
        · exact onward .between 0
        split
        · exact onward .lineComment 1
        split
        · exact onward (.blockComment read) 1
        · rfl
      | lineComment =>
        simp only [lengthFrom, Mode.shift]
        split
        · rfl
        · exact onward .lineComment 0
      | blockComment opened =>
        simp only [lengthFrom, Mode.shift]
        split
        · exact onward .between 1
        · exact onward (.blockComment opened) 0

/-- Blanks belong to the gap in front of which they stand. -/
lemma length_append_blanks {blanks : List Char} (blank : ∀ c ∈ blanks, isBlank c)
    (chars : List Char) : length (blanks ++ chars) = blanks.length + length chars := by
  induction blanks with
  | nil => exact (Nat.zero_add _).symm
  | cons b blanks ih =>
    have first : isBlank b = true := blank b List.mem_cons_self
    have onward := lengthFrom_add 1 (blanks ++ chars) .between 0 0
    rw [List.cons_append, length, lengthFrom, if_pos first]
    simp only [Mode.shift] at onward
    rw [onward, ← length, ih fun c among => blank c (List.mem_cons_of_mem b among), List.length_cons,
      Nat.add_right_comm]

end Gap

namespace Cursor

lemma advance_advance (m n : Nat) (c : Cursor) : (c.advance m).advance n = c.advance (m + n) := by
  induction m generalizing c with
  | zero => rw [Nat.zero_add, advance]
  | succ m ih =>
    rw [Nat.succ_add]
    cases ahead : c.ahead with
    | nil =>
      simp only [advance, next?_of_ahead_nil ahead]
      cases n <;> simp [advance, next?_of_ahead_nil ahead]
    | cons ch rest =>
      obtain ⟨c', read, -⟩ := next?_of_ahead_cons ahead
      simp only [advance, read, ih]

/-- The cursor behind the blanks in front of which it stands. -/
def pastBlanks (c : Cursor) : Cursor :=
  c.advance (c.ahead.takeWhile Gap.isBlank).length

lemma atToken_pastBlanks (c : Cursor) : Lexer.atToken c.pastBlanks = Lexer.atToken c := by
  have blank : ∀ ch ∈ c.ahead.takeWhile Gap.isBlank, Gap.isBlank ch := fun ch among =>
    List.mem_takeWhile_imp among
  have ahead : c.pastBlanks.ahead = c.ahead.dropWhile Gap.isBlank := by
    rw [pastBlanks, ahead_advance, drop_length_takeWhile]
  have gap := Gap.length_append_blanks blank (c.ahead.dropWhile Gap.isBlank)
  rw [List.takeWhile_append_dropWhile] at gap
  rw [Lexer.atToken, Lexer.atToken, ahead, gap, ← advance_advance]
  rfl

/-- Reading on over the blanks behind some characters leads to the same place behind them. -/
lemma pastBlanks_advance (n : Nat) (c : Cursor) :
    (c.advance (n + ((c.ahead.drop n).takeWhile Gap.isBlank).length)).pastBlanks =
        c.advance (n + ((c.ahead.drop n).takeWhile Gap.isBlank).length) ∧
      (c.advance n).pastBlanks =
        c.advance (n + ((c.ahead.drop n).takeWhile Gap.isBlank).length) := by
  constructor
  · have spent : ((c.ahead.drop n).dropWhile Gap.isBlank).takeWhile Gap.isBlank = [] := by
      rw [List.takeWhile_eq_nil_iff]
      exact List.dropWhile_get_zero_not _ _
    rw [pastBlanks, ahead_advance, ← List.drop_drop, drop_length_takeWhile, spent]
    rfl
  · rw [pastBlanks, ahead_advance, advance_advance]

end Cursor

/-! ## Words -/

namespace Lexeme

variable {c : TokenContext} {first : Char} {rest : List Char} {x : Lexeme}

/-- Behind a name the blanks are read with it, behind a keyword they are not. -/
lemma name_read (read : name c first rest = .ok x) :
    x.read = x.width ∧ (∃ word, x.kind = .keyword word) ∨
      x.read = x.width + (((first :: rest).drop x.width).takeWhile Gap.isBlank).length ∧
        (x.kind = .name ∨ x.kind = .callName) := by
  unfold name at read
  extract_lets run width text at read
  split at read
  · cases read
  · split at read
    · next word _ =>
      obtain rfl := Except.ok.inj read
      exact .inl ⟨rfl, word, rfl⟩
    · obtain rfl := Except.ok.inj read
      refine .inr ⟨rfl, ?_⟩
      dsimp only
      split <;> simp

/-- The context of a name decides its kind if it is spelled like a keyword, and whether the blanks
behind it are read with it. -/
lemma name_context (first : Char) (rest : List Char) :
    name .statement first rest = name .expression first rest ∨
      ∃ (word : Keyword) (x y : Lexeme),
        name .statement first rest = .ok x ∧ name .expression first rest = .ok y ∧
        String.ofList x.text = word.spelling ∧ y.text = x.text ∧ y.width = x.width := by
  cases read : name .statement first rest with
  | ok x =>
    rcases name_statement read with ⟨word, y, kind, same, -, text, width⟩ | ⟨same, -⟩
    · exact .inr ⟨word, x, y, rfl, same, (name_fits read).spelled _ (by rw [kind]; rfl), text, width⟩
    · exact .inl same.symm
  | error m =>
    refine .inl ?_
    unfold name at read ⊢
    extract_lets at read ⊢
    split at read
    · next improper => rw [if_pos improper, read]
    · split at read <;> cases read

lemma ofChars_read {chars : List Char} (read : ofChars c chars = .ok x)
    (word : x.kind.isWord = true) :
    x.read = x.width ∧ (∃ word, x.kind = .keyword word) ∨
      x.read = x.width + ((chars.drop x.width).takeWhile Gap.isBlank).length ∧
        (x.kind = .name ∨ x.kind = .callName) := by
  cases chars with
  | nil =>
    obtain rfl := Except.ok.inj read
    cases word
  | cons first rest =>
    rcases ofChars_alike_or_name first rest with ⟨result, alike, noWord⟩ | named
    · rw [alike] at read
      exact absurd word (by simp [noWord x read])
    · rw [named] at read
      exact name_read read

lemma ofChars_context (chars : List Char) :
    ofChars .statement chars = ofChars .expression chars ∨
      ∃ (word : Keyword) (x y : Lexeme), ofChars .statement chars = .ok x ∧
        ofChars .expression chars = .ok y ∧ x.kind.isWord = true ∧ y.kind.isWord = true ∧
        String.ofList x.text = word.spelling ∧ y.text = x.text ∧ y.width = x.width := by
  cases chars with
  | nil => exact .inl rfl
  | cons first rest =>
    rcases ofChars_alike_or_name first rest with ⟨result, alike, -⟩ | named
    · exact .inl ((alike _).trans (alike _).symm)
    · simp only [named]
      refine (name_context first rest).imp_right ?_
      rintro ⟨word, x, y, read, read', spelled, text, width⟩
      exact ⟨word, x, y, read, read', isWord_of_name read, isWord_of_name read', spelled, text, width⟩

/-- Whether or not the blanks behind a word are read with it, behind them the place is the same. -/
lemma pastBlanks_advance_read {start : Cursor} (read : ofChars c start.ahead = .ok x)
    (word : x.kind.isWord = true) : (start.advance x.read).pastBlanks =
      start.advance (x.width + ((start.ahead.drop x.width).takeWhile Gap.isBlank).length) := by
  obtain ⟨behind, upTo⟩ := start.pastBlanks_advance x.width
  rcases ofChars_read read word with ⟨width, -⟩ | ⟨width, -⟩ <;> rw [width] <;> assumption

end Lexeme

/-! ## Runs -/

/-- What reading in one context and reading in another one have in common: the same failure, or a token
in the same place with the same text, and of the same kind unless it is spelled like a keyword. -/
inductive SamePiece : Except ScriptError Token → Except ScriptError Token → Prop
  | error (e : ScriptError) : SamePiece (.error e) (.error e)
  | token {t u : Token} (span : t.span = u.span) (lexeme : t.lexeme = u.lexeme)
    (kind : t.kind = u.kind ∨ ∃ word : Keyword, t.lexeme = word.spelling) : SamePiece (.ok t) (.ok u)

namespace SamePiece

lemma refl : ∀ read, SamePiece read read
  | .error e => error e
  | .ok _ => token rfl rfl (.inl rfl)

lemma symm {read read' : Except ScriptError Token} : SamePiece read read' → SamePiece read' read
  | error e => error e
  | token span lexeme kind =>
    token span.symm lexeme.symm (kind.imp Eq.symm fun ⟨word, spelled⟩ => ⟨word, lexeme ▸ spelled⟩)

end SamePiece

namespace Lexer

variable {l l' : Lexer} {c c' : TokenContext} {t : Token}

/-- The lexer after `k` reads, the first of them in the context `contexts 0`.  It reads on behind an
error. -/
def after (contexts : Nat → TokenContext) : (k : Nat) → Lexer → Lexer
  | 0, l => l
  | k + 1, l => ((l.after contexts k).next (contexts k)).2

lemma pending_after (contexts : Nat → TokenContext) (k : Nat) (none_pending : l.pending = none) :
    (l.after contexts k).pending = none := by
  cases k with
  | zero => exact none_pending
  | succ k => exact pending_next_eq_none _ _

/-- A token is read off the characters behind the blanks. -/
lemma next_pastBlanks (c : TokenContext) (cursor : Cursor) :
    next c ⟨cursor.pastBlanks, none⟩ = next c ⟨cursor, none⟩ := by
  simp only [next, Cursor.atToken_pastBlanks]

/-- Two reads that cut off the same piece and leave the same behind it but for blanks. -/
def CutAlike (read read' : Except ScriptError Token × Lexer) : Prop :=
  SamePiece read.1 read'.1 ∧ read.2.cursor.pastBlanks = read'.2.cursor.pastBlanks

lemma next_statement_expression (cursor : Cursor) :
    CutAlike (next .statement ⟨cursor, none⟩) (next .expression ⟨cursor, none⟩) := by
  rcases Lexeme.ofChars_context (atToken cursor).ahead with
    same | ⟨word, x, y, read, read', isWord, isWord', spelled, text, width⟩
  · have alike : next .statement ⟨cursor, none⟩ = next .expression ⟨cursor, none⟩ := by
      simp only [next, same]
    rw [alike]
    exact ⟨.refl _, rfl⟩
  · simp only [CutAlike, next, read, read']
    constructor
    · refine .token ?_ (congrArg String.ofList text.symm) (.inr ⟨word, spelled⟩)
      simp only [place, width]
    · rw [Lexeme.pastBlanks_advance_read read isWord, Lexeme.pastBlanks_advance_read read' isWord',
        width]

/-- From places that differ in blanks only, the same piece is cut off in any two contexts. -/
lemma next_cutAlike {cursor cursor' : Cursor} (same : cursor.pastBlanks = cursor'.pastBlanks)
    (c c' : TokenContext) : CutAlike (next c ⟨cursor, none⟩) (next c' ⟨cursor', none⟩) := by
  rw [← next_pastBlanks c', ← same, next_pastBlanks]
  obtain ⟨piece, behind⟩ := next_statement_expression cursor
  cases c <;> cases c'
  · exact ⟨.refl _, rfl⟩
  · exact ⟨piece, behind⟩
  · exact ⟨piece.symm, behind.symm⟩
  · exact ⟨.refl _, rfl⟩

lemma next_eq_of_none (none_pending : l.pending = none) (c : TokenContext) :
    l.next c = next c ⟨l.cursor, none⟩ := by
  obtain ⟨cursor, _⟩ := l
  obtain rfl : _ = none := none_pending
  rfl

/-- After any number of reads two lexers on one script stand at the same place but for blanks. -/
lemma pastBlanks_after (contexts contexts' : Nat → TokenContext) (script : String) (k : Nat) :
    ((ofScript script).after contexts k).cursor.pastBlanks =
      ((ofScript script).after contexts' k).cursor.pastBlanks := by
  induction k with
  | zero => rfl
  | succ k ih =>
    simp only [after, next_eq_of_none (pending_after _ k (l := ofScript script) rfl)]
    exact (next_cutAlike ih _ _).2

/-- Behind a keyword a lexer stands at its end, behind a name behind the blanks. -/
lemma cursor_behind_word (none_pending : l.pending = none) (read : l.next c = (.ok t, l')) :
    (∀ word, t.kind = .keyword word → l'.cursor.position = t.span.stop) ∧
      (t.kind = .name ∨ t.kind = .callName → l'.cursor.pastBlanks = l'.cursor) := by
  rcases next_eq_ok.1 read with ⟨pending, -⟩ | ⟨-, x, lexeme, rfl, rfl⟩
  · simp [none_pending] at pending
  · have within := (Lexeme.ofChars_fits lexeme).read_le
    constructor
    · intro word (keyword : x.kind = .keyword word)
      rcases Lexeme.ofChars_read lexeme (by simp [keyword, TokenKind.isWord]) with
        ⟨width, -⟩ | ⟨-, named⟩
      · simp only [place, ← width, Cursor.position_advance within]
      · simp [keyword] at named
    · intro (named : x.kind = .name ∨ x.kind = .callName)
      have isWord : x.kind.isWord = true := by
        rcases named with kind | kind <;> simp [kind, TokenKind.isWord]
      rcases Lexeme.ofChars_read lexeme isWord with ⟨-, word, keyword⟩ | ⟨width, -⟩
      · simp [keyword] at named
      · rw [width]
        exact ((atToken l.cursor).pastBlanks_advance x.width).1

end Lexer

/-- The context never moves the end of a token.  Whatever the contexts in which a script is read, the
results of the `k`-th reads are the same failure, or tokens with the same span and text, whose kinds
differ at most if that text is the spelling of a keyword.  This is so although the lexers need not stand
at the same place: a keyword leaves the blanks behind it unread, and a name does not. -/
theorem context_keeps_boundaries (script : String) (contexts contexts' : Nat → TokenContext)
    (k : Nat) :
    let l := (Lexer.ofScript script).after contexts k
    let l' := (Lexer.ofScript script).after contexts' k
    SamePiece (l.next (contexts k)).1 (l'.next (contexts' k)).1 ∧
      l.cursor.pastBlanks = l'.cursor.pastBlanks ∧
      ∀ t onward, l.next (contexts k) = (.ok t, onward) →
        (∀ word, t.kind = .keyword word → onward.cursor.position = t.span.stop) ∧
        (t.kind = .name ∨ t.kind = .callName → onward.cursor.pastBlanks = onward.cursor) := by
  intro l l'
  have none_pending : l.pending = none := Lexer.pending_after contexts k rfl
  have none_pending' : l'.pending = none := Lexer.pending_after contexts' k rfl
  have same := Lexer.pastBlanks_after contexts contexts' script k
  refine ⟨?_, same, fun t onward => Lexer.cursor_behind_word none_pending⟩
  rw [Lexer.next_eq_of_none none_pending, Lexer.next_eq_of_none none_pending']
  exact (Lexer.next_cutAlike same _ _).1

example : ((Lexer.ofScript "if (x").after (fun _ => .statement) 1).cursor.position = 2 ∧
    ((Lexer.ofScript "if (x").after (fun _ => .expression) 1).cursor.position = 3 := by
  decide

end ScriptEngine
