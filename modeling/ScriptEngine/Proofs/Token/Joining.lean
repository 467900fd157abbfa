import ScriptEngine.Proofs.Token.Continuation
import ScriptEngine.Proofs.Tree.Spans

/-!
# Two scripts in one

A script, a line feed and a second script make up one script.  A lexer on the first script and one
on both read the same, up to the end of the first (`Lexer.Alongside`); there the one finds the end
of its input and the other the line feed.  Behind the line feed the lexer reads what a lexer on the
second script alone reads (`Lexer.Shifted`), with every span shifted by the characters and lines
that stand in front.
-/

namespace ScriptEngine

open TokenStream

/-- The characters of a span when `chars` characters on `lines` lines have been put in front. -/
def Span.shift (chars lines : Nat) (s : Span) : Span :=
  ⟨s.start + chars, s.stop + chars, s.line + lines⟩

def Token.mapSpan (f : Span → Span) (t : Token) : Token :=
  { t with span := f t.span }

/-! ## Behind the line feed -/

/-- The second cursor has the same ahead, with `chars` more characters on `lines` more lines behind
it. -/
structure Cursor.Shifted (chars lines : Nat) (c c' : Cursor) : Prop where
  ahead : c'.ahead = c.ahead
  position : c'.position = c.position + chars
  line : c'.line = c.line + lines

lemma Cursor.Shifted.advance {chars lines : Nat} {c c' : Cursor}
    (h : Cursor.Shifted chars lines c c') (n : Nat) :
    Cursor.Shifted chars lines (c.advance n) (c'.advance n) := by
  induction n generalizing c c' with
  | zero => exact h
  | succ n ih =>
    cases ahead : c.ahead with
    | nil =>
      have ahead' := h.ahead.trans ahead
      simpa only [Cursor.advance, next?_of_ahead_nil ahead, next?_of_ahead_nil ahead'] using h
    | cons ch rest =>
      obtain ⟨d, moved, -, position, line, left⟩ := next?_of_ahead_cons ahead
      obtain ⟨d', moved', -, position', line', left'⟩ :=
        next?_of_ahead_cons (h.ahead.trans ahead)
      simp only [Cursor.advance, moved, moved']
      refine ih ⟨by rw [left, left'], ?_, ?_⟩
      · have := h.position
        omega
      · have := h.line
        split at line <;> split at line' <;> first | contradiction | omega

namespace Lexer

/-- The second lexer is to read what the first is, with `chars` more characters on `lines` more
lines behind it. -/
structure Shifted (chars lines : Nat) (l l' : Lexer) : Prop where
  cursor : Cursor.Shifted chars lines l.cursor l'.cursor
  pending : l'.pending = l.pending.map (Token.mapSpan (.shift chars lines))

namespace Shifted

variable {chars lines : Nat} {l l' l₁ : Lexer} {c : TokenContext} {t : Token}

lemma position (h : Shifted chars lines l l') : l'.position = l.position + chars := by
  unfold Lexer.position
  rw [h.pending]
  cases l.pending with
  | none => exact h.cursor.position
  | some t => rfl

lemma line (h : Shifted chars lines l l') : l'.line = l.line + lines := by
  unfold Lexer.line
  rw [h.pending]
  cases l.pending with
  | none => exact h.cursor.line
  | some t => rfl

lemma remaining (h : Shifted chars lines l l') : remaining l' = remaining l := by
  change l'.cursor.ahead.length + l'.pending.toList.length =
    l.cursor.ahead.length + l.pending.toList.length
  rw [h.cursor.ahead, h.pending]
  cases l.pending <;> rfl

lemma pushBack (h : Shifted chars lines l l') (t : Token) :
    Shifted chars lines (l.pushBack t) (l'.pushBack (t.mapSpan (.shift chars lines))) :=
  ⟨h.cursor, rfl⟩

lemma atToken (h : Shifted chars lines l l') :
    Cursor.Shifted chars lines (Lexer.atToken l.cursor) (Lexer.atToken l'.cursor) := by
  unfold Lexer.atToken
  rw [h.cursor.ahead]
  exact h.cursor.advance _

lemma next_ok (h : Shifted chars lines l l') (read : l.next c = (.ok t, l₁)) :
    ∃ l₁', l'.next c = (.ok (t.mapSpan (.shift chars lines)), l₁') ∧
      Shifted chars lines l₁ l₁' := by
  rcases next_eq_ok.1 read with ⟨pending, rfl⟩ | ⟨pending, x, lexeme, rfl, rfl⟩
  · exact ⟨_, next_eq_ok.2 (.inl ⟨by rw [h.pending, pending]; rfl, rfl⟩), h.cursor, rfl⟩
  · have start := h.atToken
    refine ⟨_, next_eq_ok.2 (.inr ⟨by rw [h.pending, pending]; rfl, x, ?_, ?_, rfl⟩),
      start.advance _, rfl⟩
    · rw [start.ahead, lexeme]
    · simp only [place, Token.mapSpan, Span.shift, start.position, start.line]
      congr 2
      omega

lemma next_error {e : ScriptError} (h : Shifted chars lines l l')
    (read : l.next c = (.error e, l₁)) :
    ∃ l₁', l'.next c = (.error (e.mapSpan (.shift chars lines)), l₁') ∧
      Shifted chars lines l₁ l₁' := by
  obtain ⟨pending, m, misread, rfl, rfl⟩ := next_eq_error.1 read
  have start := h.atToken
  refine ⟨_, next_eq_error.2 ⟨by rw [h.pending, pending]; rfl, m, ?_, ?_, rfl⟩,
    start.advance _, rfl⟩
  · rw [start.ahead, misread]
  · simp only [misplace, ScriptError.mapSpan, Span.shift, start.position, start.line]
    congr 2 <;> omega

lemma reads {cs : Set TokenContext} {ts : List Token} (h : Shifted chars lines l l')
    (reads : Reads cs l ts l₁) :
    ∃ l₁', Reads cs l' (ts.map (Token.mapSpan (.shift chars lines))) l₁' ∧
      Shifted chars lines l₁ l₁' := by
  induction reads generalizing l' with
  | nil l => exact ⟨l', .nil l', h⟩
  | cons context read rest ih =>
    obtain ⟨l₁', read', shifted⟩ := h.next_ok read
    obtain ⟨l₂', rest', shifted'⟩ := ih shifted
    exact ⟨l₂', .cons context read' rest', shifted'⟩

end Shifted

/-- The lexer on two scripts, behind the line feed between them. -/
def between (first second : List Char) : Lexer :=
  ⟨(Cursor.start (first ++ '\n' :: second)).moveTo ⟨first.length + 1, first.count '\n' + 2⟩, none⟩

/-- Behind the line feed the second script is read. -/
lemma shifted_between (first : List Char) (script : String) :
    Shifted (first.length + 1) (first.count '\n' + 1) (ofScript script)
      (between first script.toList) := by
  refine ⟨⟨?_, ?_, ?_⟩, rfl⟩
  · rw [Cursor.ahead_eq]
    simp [between, Cursor.moveTo, ofScript]
  · simp [between, Cursor.moveTo, ofScript]
  · simp only [between, Cursor.moveTo, ofScript, Cursor.line_start]
    omega

end Lexer

/-! ## In front of the line feed -/

/-- The cursors stand at the same place of the first script, which for the second cursor goes on. -/
structure Cursor.Alongside (first second : List Char) (c c' : Cursor) : Prop where
  text : c.text = first
  text' : c'.text = first ++ '\n' :: second
  position : c'.position = c.position
  line : c'.line = c.line
  inside : c.position ≤ first.length
  counted : c.line = (first.take c.position).count '\n' + 1

namespace Cursor.Alongside

variable {first second : List Char} {c c' : Cursor}

lemma ahead (h : Cursor.Alongside first second c c') :
    c'.ahead = c.ahead ++ '\n' :: second := by
  rw [c'.ahead_eq, c.ahead_eq, h.text', h.text, h.position,
    List.drop_append_of_le_length h.inside]

lemma advance {n : Nat} (h : Cursor.Alongside first second c c') (le : n ≤ c.ahead.length) :
    Cursor.Alongside first second (c.advance n) (c'.advance n) := by
  have ahead := h.ahead
  have le' : n ≤ c'.ahead.length := by
    simp only [ahead, List.length_append]
    omega
  have whole : c.position + n ≤ first.length := by
    have length : c.ahead.length = first.length - c.position := by
      rw [c.ahead_eq, List.length_drop, h.text]
    have := h.inside
    omega
  refine ⟨by simp [h.text], by simp [h.text'], ?_, ?_, ?_, ?_⟩
  · rw [position_advance le, position_advance le', h.position]
  · rw [line_advance, line_advance, ahead, List.take_append_of_le_length le, h.line]
  · rwa [position_advance le]
  · rw [line_advance, position_advance le, h.counted, List.take_add, List.count_append,
      c.ahead_eq, h.text]
    omega

/-- Over the line feed at the end of the first script. -/
lemma behind_lineFeed (h : Cursor.Alongside first second c c') (at_end : c.ahead = []) :
    c'.advance 1 = (Lexer.between first second).cursor := by
  have ahead : c'.ahead = '\n' :: second := by rw [h.ahead, at_end, List.nil_append]
  have position : c.position = first.length := by
    have := c.ahead_eq
    rw [at_end, h.text, eq_comm, List.drop_eq_nil_iff] at this
    exact Nat.le_antisymm h.inside this
  refine Cursor.ext ?_ ?_ ?_
  · rw [text_advance, h.text']
    rfl
  · rw [position_advance (by simp [ahead]), h.position, position]
    rfl
  · rw [line_advance, ahead, h.line, h.counted, position, List.take_length]
    rfl

end Cursor.Alongside

namespace Lexer

variable {first second : List Char} {l l' l₁ : Lexer} {c : TokenContext} {t : Token}

/-- The lexers have read the same of the first script, or looked at what is behind it. -/
inductive Alongside (first second : List Char) : Lexer → Lexer → Prop
  | reading {l l' : Lexer} (cursor : Cursor.Alongside first second l.cursor l'.cursor)
    (pending : l'.pending = l.pending) (proper : ∀ t ∈ l.pending, t.kind ≠ .endOfInput) :
    Alongside first second l l'
  | ended {l : Lexer} {t u : Token} (at_end : l.cursor.ahead = []) (pending : l.pending = some t)
    (end_kind : t.kind = .endOfInput) (newline : u.kind = .newline)
    (start : u.span.start = t.span.start) (line : u.span.line = t.span.line) :
    Alongside first second l ((between first second).pushBack u)

lemma alongside_ofScript (first second : String) :
    Alongside first.toList second.toList (ofScript first) (ofScript (first ++ "\n" ++ second)) := by
  refine .reading ⟨rfl, ?_, rfl, rfl, Nat.zero_le _, ?_⟩ rfl (by simp [ofScript])
  · simp [ofScript]
  · simp [ofScript]

/-- Two tokens that the lexers read, the first lexer being `l` afterwards and the second `l'`. -/
inductive ReadAlongside (first second : List Char) (t u : Token) (l l' : Lexer) : Prop
  | same (proper : t.kind ≠ .endOfInput) (token : u = t) (onward : Alongside first second l l')
  | ended (end_kind : t.kind = .endOfInput) (newline : u.kind = .newline)
    (behind : l' = between first second)

/-- A comment that is not closed is no lexeme. -/
lemma not_opensComment {x : Lexeme} {chars : List Char} (h : Lexeme.ofChars c chars = .ok x) :
    ¬ Gap.OpensComment chars := by
  rintro ⟨slash, star⟩
  cases chars with
  | nil => simp at slash
  | cons ch rest =>
    obtain rfl : ch = '/' := by simpa using slash
    simp [Lexeme.ofChars, show rest.head? = some '*' from star] at h

namespace Alongside

lemma position (h : Alongside first second l l') : l'.position = l.position := by
  unfold Lexer.position
  cases h with
  | reading cursor pending => rw [pending, cursor.position]
  | ended at_end pending end_kind newline start => rw [pending]; exact start

lemma remaining (h : Alongside first second l l') : remaining l ≤ remaining l' := by
  change l.cursor.ahead.length + l.pending.toList.length ≤
    l'.cursor.ahead.length + l'.pending.toList.length
  cases h with
  | reading cursor pending =>
    rw [pending, cursor.ahead, List.length_append]
    omega
  | ended at_end pending => simp [at_end, pending, Lexer.pushBack]

/-- The lexers read the same token, or the end of the first script and the line feed there. -/
lemma next (h : Alongside first second l l') (read : l.next c = (.ok t, l₁)) :
    ∃ u l₁', l'.next c = (.ok u, l₁') ∧ ReadAlongside first second t u l₁ l₁' ∧
      Alongside first second (l₁.pushBack t) (l₁'.pushBack u) := by
  -- Either the first script is used up and its end was handed back, or both cursors are in the
  -- first script.
  cases h with
  | ended at_end pending end_kind newline start line =>
    rcases next_eq_ok.1 read with ⟨pending', rfl⟩ | ⟨pending', -⟩
    · obtain rfl := Option.some.inj (pending.symm.trans pending')
      exact ⟨_, _, rfl, .ended end_kind newline rfl, .ended at_end rfl end_kind newline start line⟩
    · simp [pending] at pending'
  | reading cursor pending' proper =>
    rcases next_eq_ok.1 read with ⟨pending, rfl⟩ | ⟨pending, x, lexeme, rfl, rfl⟩
    · have kind := proper t pending
      refine ⟨t, _, next_eq_ok.2 (.inl ⟨pending'.trans pending, rfl⟩),
        .same kind rfl (.reading cursor rfl (by simp)), .reading cursor rfl ?_⟩
      rintro _ ⟨⟩
      exact kind
    · -- The gap is closed, since a lexeme has been read behind it.
      have gap : Gap.length l'.cursor.ahead = Gap.length l.cursor.ahead := by
        rw [cursor.ahead]
        refine Gap.length_append (not_opensComment (c := c) (x := x) ?_)
        rwa [atToken, Cursor.ahead_advance] at lexeme
      have start : Cursor.Alongside first second (atToken l.cursor) (atToken l'.cursor) := by
        unfold atToken
        rw [gap]
        exact cursor.advance (Gap.length_le _)
      have fits := Lexeme.ofChars_fits lexeme
      -- At the end of the first script the other lexer finds the line feed that joins the scripts,
      -- and stands at the beginning of the second.
      by_cases end_kind : x.kind = .endOfInput
      · have at_end := fits.end_iff.1 end_kind
        have ahead : (atToken l'.cursor).ahead = '\n' :: second := by
          rw [start.ahead, at_end, List.nil_append]
        have none_read : x.read = 0 := by
          have := fits.read_le
          rw [at_end] at this
          simpa using this
        have newline : Lexeme.ofChars c (atToken l'.cursor).ahead =
            .ok (Lexeme.verbatim .newline 1 ('\n' :: second)) := by
          rw [ahead]
          simp [Lexeme.ofChars, Lexeme.punctuation?]
        have behind : (⟨(atToken l'.cursor).advance 1, none⟩ : Lexer) = between first second := by
          rw [start.behind_lineFeed at_end]
          rfl
        refine ⟨_, _, next_eq_ok.2 (.inr ⟨pending'.trans pending, _, newline, rfl, rfl⟩),
          .ended end_kind rfl behind, ?_⟩
        change Alongside first second _ ((⟨(atToken l'.cursor).advance 1, none⟩ : Lexer).pushBack _)
        rw [behind]
        exact .ended (by simp [Lexer.pushBack, none_read, Cursor.advance, at_end]) rfl end_kind rfl
          start.position start.line
      · have same : Lexeme.ofChars c (atToken l'.cursor).ahead = .ok x := by
          rw [start.ahead]
          exact Lexeme.ofChars_append lexeme end_kind
        have placed : place (atToken l.cursor) x = place (atToken l'.cursor) x := by
          simp only [place, start.position, start.line]
        have onward := start.advance fits.read_le
        refine ⟨_, _, next_eq_ok.2 (.inr ⟨pending'.trans pending, x, same, rfl, rfl⟩),
          .same end_kind placed.symm (.reading onward rfl (by simp)), .reading onward ?_ ?_⟩
        · exact congrArg some placed.symm
        · rintro _ ⟨⟩
          exact end_kind

end Alongside
end Lexer
end ScriptEngine
