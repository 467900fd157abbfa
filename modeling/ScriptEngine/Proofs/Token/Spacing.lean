import ScriptEngine.Proofs.Token.Blanks

/-!
# A lexer on a text with blanks put in

Blanks are put into a text at a place where one of its tokens begins or ends (`TokenBoundary`).  A lexer on
the text as it was and one on the text with the blanks read the same tokens, with the positions behind the
place moved (`Lexer.Spread.next_ok`), and fail alike (`Lexer.Spread.next_error`).

Up to the place the two stand at the same position, and behind it they differ by the blanks.  At the place
itself both can be the case: a lexer that has read the token in front of the blanks stands in front of them
or, if that token is a name, behind them.  That the place is a token boundary is needed as long as it is
ahead (`Cursor.Bounded`): it must not lie inside of a token or a comment.
-/

namespace ScriptEngine

open TokenStream

/-! ## Token boundaries -/

/-- One of the tokens that are read from the script before any error begins or ends at the position. -/
def TokenBoundary (script : String) (position : Nat) : Prop :=
  ∃ ts t l, Reads Set.univ (Lexer.ofScript script) (ts ++ [t]) l ∧
    (t.span.start = position ∨ t.span.stop = position)

namespace Lexeme

variable {c : TokenContext} {x : Lexeme}

/-- Where a token can be read, one of the same width can be read in any context. -/
lemma ofChars_width {chars : List Char} (read : ofChars c chars = .ok x) (c' : TokenContext) :
    ∃ y, ofChars c' chars = .ok y ∧ y.width = x.width := by
  rcases ofChars_context chars with same | ⟨word, y, z, read', read'', -, -, -, -, width⟩
  · refine ⟨x, ?_, rfl⟩
    cases c <;> cases c' <;> first | exact read | exact same ▸ read
  · cases c <;> cases c'
    · exact ⟨x, read, rfl⟩
    · obtain rfl := Except.ok.inj (read'.symm.trans read)
      exact ⟨z, read'', width⟩
    · obtain rfl := Except.ok.inj (read''.symm.trans read)
      exact ⟨y, read', width.symm⟩
    · exact ⟨x, read, rfl⟩

/-- What is no word is read up to its end and no further. -/
lemma read_eq_width {chars : List Char} (read : ofChars c chars = .ok x)
    (noWord : x.kind.isWord = false) : x.read = x.width := by
  obtain ⟨_, rule, read⟩ := exists_rule read
  cases rule with
  | comment | misquoted | bar | ampersand => cases read
  | endOfInput | punctuation | quoted | digits | operator | assign =>
    obtain rfl := Except.ok.inj read
    rfl
  | name => simp [isWord_of_name read] at noWord

/-- The next token is the same whether or not the blanks behind this one are read with it. -/
lemma atToken_advance_read {start : Cursor} (read : ofChars c start.ahead = .ok x) :
    Lexer.atToken (start.advance x.read) = Lexer.atToken (start.advance x.width) := by
  cases word : x.kind.isWord with
  | false => rw [read_eq_width read word]
  | true =>
    rw [← Cursor.atToken_pastBlanks (start.advance x.read),
      ← Cursor.atToken_pastBlanks (start.advance x.width), pastBlanks_advance_read read word,
      (start.pastBlanks_advance x.width).2]

end Lexeme

namespace Cursor

open Lexer (atToken)

lemma position_le_advance (n : Nat) (c : Cursor) : c.position ≤ (c.advance n).position := by
  induction n generalizing c with
  | zero => exact Nat.le_refl _
  | succ n ih =>
    cases ahead : c.ahead with
    | nil => simp [advance, next?_of_ahead_nil ahead]
    | cons ch rest =>
      obtain ⟨c', moved, -, position, -⟩ := next?_of_ahead_cons ahead
      have := ih c'
      simp only [advance, moved]
      omega

/-- Of the tokens ahead of the cursor one begins or ends at the position. -/
inductive Bounded (position : Nat) : Cursor → Prop
  | starts {cursor : Cursor} {c : TokenContext} {x : Lexeme}
    (read : Lexeme.ofChars c (atToken cursor).ahead = .ok x)
    (here : (atToken cursor).position = position) : Bounded position cursor
  | stops {cursor : Cursor} {c : TokenContext} {x : Lexeme}
    (read : Lexeme.ofChars c (atToken cursor).ahead = .ok x)
    (here : (atToken cursor).position + x.width = position) : Bounded position cursor
  | onward {cursor : Cursor} {c : TokenContext} {x : Lexeme}
    (read : Lexeme.ofChars c (atToken cursor).ahead = .ok x)
    (rest : Bounded position ((atToken cursor).advance x.width)) : Bounded position cursor

namespace Bounded

variable {position : Nat} {cursor cursor' : Cursor} {c : TokenContext} {x : Lexeme}

/-- Only the next token matters, and not how far away it is. -/
lemma of_atToken (same : atToken cursor' = atToken cursor) (bounded : Bounded position cursor) :
    Bounded position cursor' := by
  cases bounded with
  | starts read here => exact .starts (same ▸ read) (same ▸ here)
  | stops read here => exact .stops (same ▸ read) (same ▸ here)
  | onward read rest => exact .onward (same ▸ read) (same ▸ rest)

lemma atToken_le (bounded : Bounded position cursor) : (atToken cursor).position ≤ position := by
  induction bounded with
  | starts read here => exact here.le
  | stops read here => omega
  | @onward cursor c x read rest ih =>
    calc
      (atToken cursor).position ≤ ((atToken cursor).advance x.width).position :=
        position_le_advance _ _
      _ ≤ (atToken ((atToken cursor).advance x.width)).position := position_le_advance _ _
      _ ≤ position := ih

/-- The next token can be read, whatever the context.  It begins at the position, or it ends there or in
front of it. -/
lemma next (bounded : Bounded position cursor) (c : TokenContext) :
    ∃ x, Lexeme.ofChars c (atToken cursor).ahead = .ok x ∧
      ((atToken cursor).position = position ∨ (atToken cursor).position + x.width = position ∨
        Bounded position ((atToken cursor).advance x.width)) := by
  cases bounded with
  | starts read here =>
    obtain ⟨y, read', -⟩ := Lexeme.ofChars_width read c
    exact ⟨y, read', .inl here⟩
  | stops read here =>
    obtain ⟨y, read', width⟩ := Lexeme.ofChars_width read c
    exact ⟨y, read', .inr (.inl (width ▸ here))⟩
  | onward read rest =>
    obtain ⟨y, read', width⟩ := Lexeme.ofChars_width read c
    exact ⟨y, read', .inr (.inr (width ▸ rest))⟩

lemma of_reads {l l' : Lexer} {ts : List Token} {t : Token} (pending : l.pending = none)
    (reads : Reads Set.univ l (ts ++ [t]) l')
    (here : t.span.start = position ∨ t.span.stop = position) : Bounded position l.cursor := by
  induction ts generalizing l with
  | nil =>
    cases reads with
    | cons _ read _ =>
      rcases Lexer.next_eq_ok.1 read with ⟨returned, -⟩ | ⟨-, x, lexeme, rfl, -⟩
      · simp [pending] at returned
      · exact here.elim (.starts lexeme) (.stops lexeme)
  | cons u ts ih =>
    cases reads with
    | cons _ read rest =>
      rcases Lexer.next_eq_ok.1 read with ⟨returned, -⟩ | ⟨-, x, lexeme, -, rfl⟩
      · simp [pending] at returned
      · exact .onward lexeme ((ih rfl rest).of_atToken (Lexeme.atToken_advance_read lexeme).symm)

end Bounded
end Cursor

/-! ## Putting blanks in -/

/-- A text, a place in it and blanks to be put in there. -/
structure Spacing where
  front : List Char
  blanks : List Char
  behind : List Char
  blank : ∀ ch ∈ blanks, Gap.isBlank ch

namespace Spacing

variable (x : Spacing)

/-- The text as it was. -/
def tight : List Char :=
  x.front ++ x.behind

/-- The text with the blanks. -/
def wide : List Char :=
  x.front ++ (x.blanks ++ x.behind)

/-- Where a position of the text with the blanks was without them. -/
def close (position : Nat) : Nat :=
  min position x.front.length + (position - (x.front.length + x.blanks.length))

def closeSpan (s : Span) : Span :=
  ⟨x.close s.start, x.close s.stop, s.line⟩

/-- What is read from the text with the blanks, at its place without them. -/
def closeRead (read : Except ScriptError Token) : Except ScriptError Token :=
  (read.map (Token.mapSpan x.closeSpan)).mapError (ScriptError.mapSpan x.closeSpan)

variable {x}

lemma close_of_le {position : Nat} (le : position ≤ x.front.length) :
    x.close position = position := by
  unfold close
  omega

lemma close_of_ge {position : Nat} (ge : x.front.length ≤ position) :
    x.close (position + x.blanks.length) = position := by
  unfold close
  omega

lemma count_lineFeed_blanks (x : Spacing) : x.blanks.count '\n' = 0 :=
  List.count_eq_zero.2 fun among => by simpa [Gap.isBlank] using x.blank _ among

end Spacing

/-! ## Cursors -/

namespace Cursor

open Lexer (atToken)

variable {x : Spacing} {c c' : Cursor}

/-- The cursors stand at the same position, up to where the blanks are put in. -/
structure InFront (x : Spacing) (c c' : Cursor) : Prop where
  text : c.text = x.tight
  text' : c'.text = x.wide
  position : c'.position = c.position
  line : c'.line = c.line
  inside : c.position ≤ x.front.length

namespace InFront

lemma ahead (h : InFront x c c') : c.ahead = x.front.drop c.position ++ x.behind := by
  rw [c.ahead_eq, h.text, Spacing.tight, List.drop_append_of_le_length h.inside]

lemma ahead' (h : InFront x c c') :
    c'.ahead = x.front.drop c.position ++ (x.blanks ++ x.behind) := by
  rw [c'.ahead_eq, h.text', h.position, Spacing.wide, List.drop_append_of_le_length h.inside]

/-- Moving on in front of the blanks, or up to them. -/
lemma advance {n : Nat} (h : InFront x c c') (le : c.position + n ≤ x.front.length) :
    InFront x (c.advance n) (c'.advance n) := by
  have within : n ≤ (x.front.drop c.position).length := by
    rw [List.length_drop]
    omega
  have le_ahead : n ≤ c.ahead.length := by
    rw [h.ahead, List.length_append]
    omega
  have le_ahead' : n ≤ c'.ahead.length := by
    rw [h.ahead', List.length_append]
    omega
  have moved := position_advance le_ahead
  refine ⟨by rw [text_advance, h.text], by rw [text_advance, h.text'], ?_, ?_, by omega⟩
  · rw [moved, position_advance le_ahead', h.position]
  · rw [line_advance, line_advance, h.line, h.ahead, h.ahead',
      List.take_append_of_le_length within, List.take_append_of_le_length within]

/-- Moving on over the blanks. -/
lemma advance_over {n : Nat} (h : InFront x c c') (passes : x.front.length ≤ c.position + n)
    (le : n ≤ c.ahead.length) :
    Shifted x.blanks.length 0 (c.advance n) (c'.advance (n + x.blanks.length)) := by
  obtain ⟨more, rfl⟩ : ∃ more, n = (x.front.drop c.position).length + more := by
    refine ⟨n - (x.front.drop c.position).length, ?_⟩
    rw [List.length_drop]
    omega
  have reorder : (x.front.drop c.position).length + more + x.blanks.length =
      (x.front.drop c.position).length + (x.blanks.length + more) := by
    omega
  have le' : (x.front.drop c.position).length + (x.blanks.length + more) ≤ c'.ahead.length := by
    rw [h.ahead, List.length_append] at le
    rw [h.ahead', List.length_append, List.length_append]
    omega
  rw [reorder]
  refine ⟨?_, ?_, ?_⟩
  · simp only [ahead_advance, h.ahead, h.ahead', List.drop_length_add_append]
  · rw [position_advance le, position_advance le', h.position]
    omega
  · simp only [line_advance, h.line, h.ahead, h.ahead', List.take_length_add_append,
      List.count_append, x.count_lineFeed_blanks]
    omega

end InFront

/-- The cursors have come to the same place of the text. -/
inductive Spread (x : Spacing) : Cursor → Cursor → Prop
  | before {c c' : Cursor} (same : InFront x c c')
    (bounded : c.position = x.front.length ∨ Bounded x.front.length c) : Spread x c c'
  | behind {c c' : Cursor} (onward : x.front.length ≤ c.position)
    (shifted : Shifted x.blanks.length 0 c c') : Spread x c c'

namespace Spread

lemma atToken_behind (onward : x.front.length ≤ c.position)
    (shifted : Shifted x.blanks.length 0 c c') :
    x.front.length ≤ (atToken c).position ∧
      Shifted x.blanks.length 0 (atToken c) (atToken c') := by
  refine ⟨onward.trans (position_le_advance _ _), ?_⟩
  unfold Lexer.atToken
  rw [shifted.ahead]
  exact shifted.advance _

/-- The next token begins behind the blanks, or it begins in front of them and ends there or at them. -/
lemma atToken (h : Spread x c c') :
    x.front.length ≤ (atToken c).position ∧
        Shifted x.blanks.length 0 (Lexer.atToken c) (Lexer.atToken c') ∨
      InFront x (Lexer.atToken c) (Lexer.atToken c') ∧ (Lexer.atToken c).position < x.front.length ∧
        Bounded x.front.length c := by
  cases h with
  | behind onward shifted => exact .inl (atToken_behind onward shifted)
  | before same bounded =>
    have gap_le := Gap.length_le c.ahead
    have start : (Lexer.atToken c).position = c.position + Gap.length c.ahead :=
      position_advance gap_le
    -- The blanks belong to the gap.
    have passes (reaches : x.front.length ≤ c.position + Gap.length c.ahead)
        (gap : Gap.length c'.ahead = Gap.length c.ahead + x.blanks.length) :
        x.front.length ≤ (Lexer.atToken c).position ∧
          Shifted x.blanks.length 0 (Lexer.atToken c) (Lexer.atToken c') := by
      refine ⟨start ▸ reaches, ?_⟩
      unfold Lexer.atToken
      rw [gap]
      exact same.advance_over reaches gap_le
    -- Either the cursor stands where the blanks are put in, or tokens lead from it to that place,
    -- one of which begins or ends there.
    rcases bounded with here | bounded
    · refine .inl (passes (by omega) ?_)
      rw [same.ahead, same.ahead', here, List.drop_length, List.nil_append, List.nil_append,
        Gap.length_append_blanks x.blank, Nat.add_comm]
    · obtain ⟨y, read, -⟩ := bounded.next .statement
      have le := bounded.atToken_le
      rw [Lexer.atToken, ahead_advance] at read
      rcases Nat.eq_or_lt_of_le le with reaches | short
      · have whole : Gap.length c.ahead = (x.front.drop c.position).length := by
          rw [List.length_drop]
          omega
        refine .inl (passes (by omega) ?_)
        rw [whole, same.ahead, List.drop_left] at read
        rw [whole, same.ahead']
        exact Gap.length_through_blanks (by rw [← same.ahead, whole]) read x.blank
      · have short' : Gap.length c.ahead < (x.front.drop c.position).length := by
          rw [List.length_drop]
          omega
        have gap : Gap.length c'.ahead = Gap.length c.ahead := by
          rw [same.ahead] at short' read ⊢
          rw [same.ahead']
          exact Gap.length_before_blanks short' read x.blank
        refine .inr ⟨?_, short, bounded⟩
        unfold Lexer.atToken
        rw [gap]
        exact same.advance (by omega)

/-- Behind the blanks the same is read. -/
lemma place_behind {c c' : Cursor} (onward : x.front.length ≤ c.position)
    (shifted : Shifted x.blanks.length 0 c c') (y : Lexeme) :
    Lexer.place c y = (Lexer.place c' y).mapSpan x.closeSpan := by
  have stop : c.position + x.blanks.length + y.width = c.position + y.width + x.blanks.length := by
    omega
  simp only [Lexer.place, Token.mapSpan, Spacing.closeSpan, shifted.position, shifted.line, stop,
    Spacing.close_of_ge onward, Spacing.close_of_ge (onward.trans (Nat.le_add_right _ y.width)),
    Nat.add_zero]

lemma misplace_behind {c c' : Cursor} (onward : x.front.length ≤ c.position)
    (shifted : Shifted x.blanks.length 0 c c') (m : Misread) :
    Lexer.misplace c m = (Lexer.misplace c' m).mapSpan x.closeSpan := by
  have moved (n : Nat) : c.position + x.blanks.length + n = c.position + n + x.blanks.length := by
    omega
  simp only [Lexer.misplace, ScriptError.mapSpan, Spacing.closeSpan, shifted.position, shifted.line,
    moved, Spacing.close_of_ge (onward.trans (Nat.le_add_right _ _)), Nat.add_zero]

/-- Reading behind the blanks fails on both sides or on neither. -/
inductive Outcome (x : Spacing) (start start' : Cursor) :
    Except Misread Lexeme → Except Misread Lexeme → Prop
  | error {m : Misread} (onward : x.front.length ≤ start.position)
    (shifted : Shifted x.blanks.length 0 start start') : Outcome x start start' (.error m) (.error m)
  | ok {y z : Lexeme} (token : Lexer.place start y = (Lexer.place start' z).mapSpan x.closeSpan)
    (onward : Spread x (start.advance y.read) (start'.advance z.read)) :
    Outcome x start start' (.ok y) (.ok z)

/-- A token that begins in front of the blanks. -/
lemma read_inFront {context : TokenContext} {start start' : Cursor} {y : Lexeme}
    (same : InFront x start start') (short : start.position < x.front.length)
    (read : Lexeme.ofChars context start.ahead = .ok y)
    (ends : start.position + y.width = x.front.length ∨
      Bounded x.front.length (start.advance y.width)) :
    ∃ z, Lexeme.ofChars context start'.ahead = .ok z ∧
      Lexer.place start y = (Lexer.place start' z).mapSpan x.closeSpan ∧
      Spread x (start.advance y.read) (start'.advance z.read) := by
  have fits := Lexeme.ofChars_fits read
  have width_le := fits.width_le_read.trans fits.read_le
  have left : (x.front.drop start.position).length = x.front.length - start.position :=
    List.length_drop
  have within : start.position + y.width ≤ x.front.length := by
    rcases ends with here | rest
    · exact here.le
    · calc
        start.position + y.width = (start.advance y.width).position :=
          (position_advance width_le).symm
        _ ≤ (Lexer.atToken (start.advance y.width)).position := position_le_advance _ _
        _ ≤ x.front.length := rest.atToken_le
  obtain ⟨z, read', spaced⟩ := Lexeme.ofChars_spaced (by rwa [same.ahead] at read)
    (List.drop_eq_nil_iff.not.2 short.not_ge) (by omega) x.blank
  refine ⟨z, by rwa [same.ahead'], ?_, ?_⟩
  · simp only [Lexer.place, Token.mapSpan, Spacing.closeSpan, same.position, same.line, spaced.kind,
      spaced.text, spaced.width, Spacing.close_of_le short.le, Spacing.close_of_le within]
  · have moved := position_advance fits.read_le
    rcases spaced.read with ⟨alike, before⟩ | ⟨passes, behind⟩
    · rw [alike]
      refine .before (same.advance (by omega)) ?_
      rcases ends with here | rest
      · have := fits.width_le_read
        exact .inl (by omega)
      · exact .inr (rest.of_atToken (Lexeme.atToken_advance_read read))
    · rw [passes]
      exact .behind (by omega) (same.advance_over (by omega) fits.read_le)

lemma read (h : Spread x c c') (context : TokenContext) :
    Outcome x (Lexer.atToken c) (Lexer.atToken c') (Lexeme.ofChars context (Lexer.atToken c).ahead)
      (Lexeme.ofChars context (Lexer.atToken c').ahead) := by
  rcases h.atToken with ⟨onward, shifted⟩ | ⟨same, short, bounded⟩
  · rw [shifted.ahead]
    cases Lexeme.ofChars context (Lexer.atToken c).ahead with
    | error m => exact .error onward shifted
    | ok y =>
      exact .ok (place_behind onward shifted y)
        (.behind (onward.trans (position_le_advance _ _)) (shifted.advance _))
  · obtain ⟨y, read, ends⟩ := bounded.next context
    obtain ⟨z, read', token, spread⟩ := read_inFront same short read (ends.resolve_left short.ne)
    rw [read, read']
    exact .ok token spread

lemma position (h : Spread x c c') : c.position = x.close c'.position := by
  cases h with
  | before same => rw [same.position, Spacing.close_of_le same.inside]
  | behind onward shifted => rw [shifted.position, Spacing.close_of_ge onward]

lemma line (h : Spread x c c') : c'.line = c.line := by
  cases h with
  | before same => exact same.line
  | behind _ shifted => exact shifted.line

lemma length_ahead_le (h : Spread x c c') : c.ahead.length ≤ c'.ahead.length := by
  cases h with
  | before same =>
    rw [same.ahead, same.ahead', List.length_append, List.length_append, List.length_append]
    omega
  | behind _ shifted => exact (congrArg List.length shifted.ahead).ge

end Spread
end Cursor

/-! ## Lexers -/

namespace Lexer

variable {x : Spacing} {l l' l₁ : Lexer} {c : TokenContext} {t : Token}

/-- The lexers have come to the same place of the text, the first as it was and the second with the
blanks, and the same token has been handed back to them. -/
structure Spread (x : Spacing) (l l' : Lexer) : Prop where
  cursor : Cursor.Spread x l.cursor l'.cursor
  pending : l.pending = l'.pending.map (Token.mapSpan x.closeSpan)

namespace Spread

lemma position (h : Spread x l l') : l.position = x.close l'.position := by
  unfold Lexer.position
  rw [h.pending]
  cases l'.pending with
  | none => exact h.cursor.position
  | some t => rfl

lemma line (h : Spread x l l') : l'.line = l.line := by
  unfold Lexer.line
  rw [h.pending]
  cases l'.pending with
  | none => exact h.cursor.line
  | some t => rfl

lemma remaining (h : Spread x l l') : remaining l ≤ remaining l' := by
  change l.cursor.ahead.length + l.pending.toList.length ≤
    l'.cursor.ahead.length + l'.pending.toList.length
  have := h.cursor.length_ahead_le
  rw [h.pending]
  cases l'.pending <;> simpa

lemma pushBack (h : Spread x l l') (t : Token) :
    Spread x (l.pushBack (t.mapSpan x.closeSpan)) (l'.pushBack t) :=
  ⟨h.cursor, rfl⟩

/-- The lexers read the same token or fail with the same error, and go on alike. -/
lemma next (h : Spread x l l') (c : TokenContext) :
    (l.next c).1 = x.closeRead (l'.next c).1 ∧ Spread x (l.next c).2 (l'.next c).2 := by
  unfold Lexer.next
  rw [h.pending]
  cases l'.pending with
  | some t => exact ⟨rfl, h.cursor, rfl⟩
  | none =>
    have outcome := h.cursor.read c
    revert outcome
    dsimp only [Option.map_none]
    generalize Lexeme.ofChars c (atToken l.cursor).ahead = read
    generalize Lexeme.ofChars c (atToken l'.cursor).ahead = read'
    rintro (⟨onward, shifted⟩ | ⟨token, spread⟩)
    · refine ⟨congrArg Except.error (Cursor.Spread.misplace_behind onward shifted _), ?_, rfl⟩
      exact .behind (onward.trans (Cursor.position_le_advance _ _)) (shifted.advance _)
    · exact ⟨congrArg Except.ok token, spread, rfl⟩

lemma next_ok (h : Spread x l l') (read : l.next c = (.ok t, l₁)) :
    ∃ u l₁', l'.next c = (.ok u, l₁') ∧ t = u.mapSpan x.closeSpan ∧ Spread x l₁ l₁' := by
  obtain ⟨alike, spread⟩ := h.next c
  rw [read] at alike spread
  rcases read' : l'.next c with ⟨e | u, l₁'⟩
  · simp [read', Spacing.closeRead, Except.map, Except.mapError] at alike
  · rw [read'] at alike spread
    exact ⟨u, l₁', rfl, Except.ok.inj alike, spread⟩

lemma next_error {e : ScriptError} (h : Spread x l l') (read : l.next c = (.error e, l₁)) :
    ∃ e' l₁', l'.next c = (.error e', l₁') ∧ e = e'.mapSpan x.closeSpan ∧ Spread x l₁ l₁' := by
  obtain ⟨alike, spread⟩ := h.next c
  rw [read] at alike spread
  rcases read' : l'.next c with ⟨e' | u, l₁'⟩
  · rw [read'] at alike spread
    exact ⟨e', l₁', rfl, Except.error.inj alike, spread⟩
  · simp [read', Spacing.closeRead, Except.map, Except.mapError] at alike

lemma after (h : Spread x l l') (contexts : Nat → TokenContext) (k : Nat) :
    Spread x (l.after contexts k) (l'.after contexts k) := by
  induction k with
  | zero => exact h
  | succ k ih => exact (ih.next _).2

end Spread

/-- Both lexers start in front of the blanks. -/
theorem spread_ofScript (x : Spacing) {script script' : String} (tight : script.toList = x.tight)
    (wide : script'.toList = x.wide) (boundary : TokenBoundary script x.front.length) :
    Spread x (ofScript script) (ofScript script') := by
  obtain ⟨ts, t, l, reads, here⟩ := boundary
  refine ⟨.before ⟨?_, ?_, rfl, rfl, Nat.zero_le _⟩ (.inr (.of_reads rfl reads here)), rfl⟩
  · rwa [ofScript, Cursor.text_start]
  · rwa [ofScript, Cursor.text_start]

end Lexer
end ScriptEngine
