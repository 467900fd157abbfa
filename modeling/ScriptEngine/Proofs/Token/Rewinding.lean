import ScriptEngine.Proofs.Token.Context
import ScriptEngine.Proofs.Token.Joining

/-!
# Reading a token again

A lexer gives out a token that was handed back just as it was.  A `Rewinding` stream keeps no token:
it goes back to where the token starts and reads it off the script once more, in whatever context
the next read asks for.

`Lexer.Again c` says that the token which a lexer gives out is the one that would be read again in
the context `c`.  From there the two streams do the same (`Lexer.Again.next_rewound`).  A token that
has just been read would be read again in its own context, and as far as the context does not matter
in another one.
-/

namespace ScriptEngine

open TokenStream

/-! ## Behind a gap -/

namespace Gap

/-- No gap is left in front of the characters, unless a comment opens there. -/
def IsOver (chars : List Char) : Prop :=
  length chars = 0 ∨ OpensComment chars

/-- A gap ends where no gap is left, or in front of the comment that was being read. -/
lemma isOver_drop_lengthFrom (chars : List Char) (mode : Mode) (skip read : Nat) :
    (∃ opened, mode = .blockComment opened ∧ lengthFrom mode skip read chars = opened) ∨
      read ≤ lengthFrom mode skip read chars ∧
        IsOver (chars.drop (lengthFrom mode skip read chars - read)) := by
  induction chars generalizing mode skip read with
  | nil =>
    cases mode with
    | blockComment opened => exact .inl ⟨opened, rfl, rfl⟩
    | _ => exact .inr ⟨Nat.le_refl _, .inl (by simp [length, lengthFrom])⟩
  | cons c rest ih =>
    -- Whatever the rest turns out to be holds of the whole, one character further on.
    have onward {mode' : Mode} {skip' : Nat}
        (comment : ∀ opened, mode' = .blockComment opened →
          mode = .blockComment opened ∨ opened = read ∧ OpensComment (c :: rest)) :
        (∃ opened, mode = .blockComment opened ∧
          lengthFrom mode' skip' (read + 1) rest = opened) ∨
          read ≤ lengthFrom mode' skip' (read + 1) rest ∧
            IsOver ((c :: rest).drop (lengthFrom mode' skip' (read + 1) rest - read)) := by
      rcases ih mode' skip' (read + 1) with ⟨opened, is, eq⟩ | ⟨le, ended⟩
      · rcases comment opened is with before | ⟨rfl, opens⟩
        · exact .inl ⟨opened, before, eq⟩
        · rw [eq]
          exact .inr ⟨Nat.le_refl _, .inr (by simpa using opens)⟩
      · refine .inr ⟨by omega, ?_⟩
        rwa [show lengthFrom mode' skip' (read + 1) rest - read =
          lengthFrom mode' skip' (read + 1) rest - (read + 1) + 1 by omega, List.drop_succ_cons]
    cases skip with
    | succ skip => exact onward fun opened is => .inl is
    | zero =>
      cases mode with
      | between =>
        simp only [lengthFrom]
        split
        · exact onward (by simp)
        split
        · exact onward (by simp)
        split
        · next opens => exact onward (by simp [OpensComment, opens])
        · next blank line block =>
          refine .inr ⟨Nat.le_refl _, .inl ?_⟩
          simp [length, lengthFrom, blank, line, block]
      | lineComment =>
        simp only [lengthFrom]
        split
        · next lineFeed =>
          refine .inr ⟨Nat.le_refl _, .inl ?_⟩
          simp [length, lengthFrom, lineFeed, isBlank]
        · exact onward (by simp)
      | blockComment opened =>
        simp only [lengthFrom]
        split
        · exact onward (by simp)
        · exact onward (by simp)

lemma isOver_drop_length (chars : List Char) : IsOver (chars.drop (length chars)) := by
  rcases isOver_drop_lengthFrom chars .between 0 0 with ⟨_, ⟨⟩, _⟩ | ⟨-, ended⟩
  exact ended

end Gap

/-! ## Going back for a token -/

/-- Where a token starts. -/
def Token.mark (t : Token) : Mark :=
  ⟨t.span.start, t.span.line⟩

/-- A script being read by going back for a token that is handed back. -/
@[ext] structure Rewinding where
  cursor : Cursor
  /-- At most this many tokens can still be read before the input ends. -/
  remaining : Nat

namespace Rewinding

/-- At the start of `script`. -/
def ofScript (script : String) : Rewinding :=
  ⟨.start script.toList, script.toList.length⟩

/-- Reads the next token off the script. -/
def next (c : TokenContext) (s : Rewinding) : Except ScriptError Token × Rewinding :=
  let read := Lexer.next c ⟨s.cursor, none⟩
  (read.1, ⟨read.2.cursor, read.2.cursor.ahead.length⟩)

/-- Goes back to where the token starts. -/
def pushBack (t : Token) (s : Rewinding) : Rewinding :=
  ⟨s.cursor.moveTo t.mark, s.remaining + 1⟩

instance : TokenStream Rewinding where
  next := next
  pushBack := pushBack
  restore before _ := before
  position s := s.cursor.position
  line s := s.cursor.line
  remaining := remaining

end Rewinding

namespace Lexer

variable {c c' : TokenContext} {l l' : Lexer} {t : Token}

/-- The lexer gone back to the token that was handed back, if there is one. -/
def rewound (l : Lexer) : Rewinding :=
  ⟨l.pending.elim l.cursor fun t => l.cursor.moveTo t.mark, remaining l⟩

@[simp] lemma position_rewound (l : Lexer) :
    TokenStream.position l.rewound = TokenStream.position l := by
  obtain ⟨cursor, _ | t⟩ := l <;> rfl

@[simp] lemma line_rewound (l : Lexer) : TokenStream.line l.rewound = TokenStream.line l := by
  obtain ⟨cursor, _ | t⟩ := l <;> rfl

lemma rewound_of_none (none_pending : l.pending = none) :
    l.rewound = ⟨l.cursor, l.cursor.ahead.length⟩ := by
  obtain ⟨cursor, _⟩ := l
  obtain rfl : _ = none := none_pending
  rfl

lemma pushBack_rewound (none_pending : l.pending = none) (t : Token) :
    (l.pushBack t).rewound = Rewinding.pushBack t l.rewound := by
  obtain ⟨cursor, _⟩ := l
  obtain rfl : _ = none := none_pending
  rfl

/-- The token that was handed back is the one that would be read again in this context. -/
def Again (c : TokenContext) (l : Lexer) : Prop :=
  ∀ t ∈ l.pending, next c ⟨l.cursor.moveTo t.mark, none⟩ = (.ok t, ⟨l.cursor, none⟩)

lemma again_of_none (none_pending : l.pending = none) (c : TokenContext) : l.Again c := by
  simp [Again, none_pending]

lemma pending_next_eq_none (c : TokenContext) (l : Lexer) : (l.next c).2.pending = none := by
  rcases read : l.next c with ⟨e | t, l'⟩
  · obtain ⟨-, m, -, -, rfl⟩ := next_eq_error.1 read
    rfl
  · exact pending_next read

/-- What is in front of a token is read no differently once a token has been read there. -/
lemma atToken_atToken {cursor : Cursor} {x : Lexeme}
    (read : Lexeme.ofChars c (atToken cursor).ahead = .ok x) :
    atToken (atToken cursor) = atToken cursor := by
  have closed : Gap.length (atToken cursor).ahead = 0 := by
    have ended := Gap.isOver_drop_length cursor.ahead
    rw [← Cursor.ahead_advance] at ended
    exact ended.resolve_right (not_opensComment read)
  conv_lhs => rw [atToken, closed]
  rfl

namespace Again

/-- The lexer that goes back for its token reads what the lexer gives out. -/
theorem next_rewound (again : l.Again c) :
    TokenStream.next c l.rewound = ((l.next c).1, (l.next c).2.rewound) := by
  obtain ⟨cursor, _ | t⟩ := l
  · have none_pending := pending_next_eq_none c ⟨cursor, none⟩
    refine Prod.ext rfl ?_
    exact (rewound_of_none none_pending).symm
  · have read := again t rfl
    change Rewinding.next c ⟨cursor.moveTo t.mark, _⟩ = (.ok t, rewound ⟨cursor, none⟩)
    rw [Rewinding.next, read]
    rfl

/-- A token that has just been read would be read again in its context. -/
lemma pushBack (again : l.Again c) (read : l.next c = (.ok t, l')) :
    (l'.pushBack t).Again c := by
  rcases next_eq_ok.1 read with ⟨pending, rfl⟩ | ⟨-, x, lexeme, rfl, rfl⟩
  · rintro _ ⟨⟩
    exact again t pending
  · rintro _ ⟨⟩
    have back : ((atToken l.cursor).advance x.read).moveTo (place (atToken l.cursor) x).mark =
        atToken l.cursor :=
      Cursor.ext (Cursor.text_advance _ _) rfl rfl
    refine next_eq_ok.2 (.inr ⟨rfl, x, ?_, ?_, ?_⟩)
    · simp only [Lexer.pushBack, back, atToken_atToken lexeme, lexeme]
    · simp only [Lexer.pushBack, back, atToken_atToken lexeme]
    · simp only [Lexer.pushBack, back, atToken_atToken lexeme]

/-- A token is read again in another context if its characters are. -/
lemma change (again : l.Again c)
    (same : ∀ t ∈ l.pending, ∀ chars x, x.kind = t.kind → Lexeme.ofChars c chars = .ok x →
      Lexeme.ofChars c' chars = .ok x) : l.Again c' := by
  intro t pending
  rcases next_eq_ok.1 (again t pending) with ⟨⟨⟩, -⟩ | ⟨none_pending, x, lexeme, place, onward⟩
  refine next_eq_ok.2 (.inr ⟨none_pending, x, same t pending _ x ?_ lexeme, place, onward⟩)
  rw [place]
  rfl

/-- What is no word is read again in any context. -/
lemma anywhere (again : l.Again c) (noWord : ∀ t ∈ l.pending, t.kind.isWord = false)
    (c' : TokenContext) : l.Again c' :=
  again.change fun t pending _ _ kind read =>
    Lexeme.ofChars_of_isWord_eq_false read (kind ▸ noWord t pending) c'

/-- What is no keyword where a statement may start is read again in an expression. -/
lemma inExpression (again : l.Again .statement)
    (ordinary : ∀ t ∈ l.pending, ∀ word, t.kind ≠ .keyword word) : l.Again .expression :=
  again.change fun t pending _ _ kind read =>
    Lexeme.ofChars_expression_of_statement read (kind ▸ ordinary t pending)

end Again
end Lexer

/-! ## Keywords and names -/

namespace Rewinding

variable {s s' : Rewinding} {t : Token}

/-- A token is read off the script. -/
lemma next_eq_ok {c : TokenContext} : next c s = (.ok t, s') ↔
    ∃ x, Lexeme.ofChars c (Lexer.atToken s.cursor).ahead = .ok x ∧
      t = Lexer.place (Lexer.atToken s.cursor) x ∧
      s' = ⟨(Lexer.atToken s.cursor).advance x.read,
        ((Lexer.atToken s.cursor).advance x.read).ahead.length⟩ := by
  simp only [next, Lexer.next]
  cases Lexeme.ofChars c (Lexer.atToken s.cursor).ahead <;> simp [eq_comm]

/-- In an expression no token is a keyword. -/
lemma kind_ne_keyword (read : next .expression s = (.ok t, s')) (word : Keyword) :
    t.kind ≠ .keyword word := by
  obtain ⟨x, lexeme, rfl, -⟩ := next_eq_ok.1 read
  exact Lexeme.kind_ne_keyword_of_expression lexeme word

/-- Where a statement would begin with a keyword, an expression begins with a name that is spelled
the same. -/
lemma next_expression_of_keyword {word : Keyword} (read : next .statement s = (.ok t, s'))
    (keyword : t.kind = .keyword word) :
    ∃ u s₁, next .expression s = (.ok u, s₁) ∧ (u.kind = .name ∨ u.kind = .callName) ∧
      u.lexeme = t.lexeme ∧ u.span = t.span := by
  obtain ⟨x, lexeme, rfl, -⟩ := next_eq_ok.1 read
  obtain ⟨y, lexeme', kind, text, width⟩ := Lexeme.ofChars_expression_of_keyword lexeme keyword
  refine ⟨_, _, next_eq_ok.2 ⟨y, lexeme', rfl, rfl⟩, kind, congrArg String.ofList text, ?_⟩
  simp only [Lexer.place, width]

end Rewinding
end ScriptEngine
