import ScriptEngine.Proofs.Token.Joining
import ScriptEngine.Proofs.Tree.Progress

/-!
# The statements of two scripts in one

A script, a line feed and a second script are read as the statements of the first script and then
those of the second, their spans shifted (`Script.ofText_continues`), provided that the second begins
with a token that is no `else` or that the last statement of the first takes none.  The parser of both
scripts carries nothing of the first into the second but attempts, which were made at other places.
-/

namespace ScriptEngine

open TokenStream

/-- The first token that is no newline can be read where a statement may start, and is no `else`. -/
def Lexer.Opens (l : Lexer) : Prop :=
  ∃ blanks t l', Reads {.statement} l (blanks ++ [t]) l' ∧ (∀ t ∈ blanks, t.IsNewline) ∧
    t.kind ≠ .newline ∧ t.kind ≠ .keyword .elseWord

lemma Lexer.opens_of_skipNewlines {p p' : Parser Lexer} {t : Token}
    (run : Parse.skipNewlines .statement p = .ok t p') (other : t.kind ≠ .keyword .elseWord) :
    p.tokens.Opens := by
  obtain ⟨blanks, l', -, reads, skipped, proper⟩ := Parse.skipNewlines_reads run
  exact ⟨blanks, t, l', reads, skipped, proper, other⟩

lemma Lexer.Shifted.opens {chars lines : Nat} {l l' : Lexer} (h : Shifted chars lines l l')
    (opens : l.Opens) : l'.Opens := by
  obtain ⟨blanks, t, l₁, reads, skipped, proper, other⟩ := opens
  obtain ⟨l₁', reads', -⟩ := h.reads reads
  rw [List.map_append] at reads'
  refine ⟨_, _, l₁', reads', ?_, proper, other⟩
  intro _ mem
  obtain ⟨u, mem', rfl⟩ := List.mem_map.1 mem
  exact skipped u mem'

/-! ## The second script -/

lemma Parser.lead_shift {chars position : Nat} {attempts old : List Nat}
    (before : ∀ a ∈ old, a < chars) :
    lead (position + chars) (attempts.map (· + chars) ++ old) = lead position attempts := by
  unfold lead
  induction attempts with
  | nil =>
    cases old with
    | nil => rfl
    | cons a old =>
      have := before a List.mem_cons_self
      simp [show a ≠ position + chars by omega]
  | cons a attempts ih =>
    by_cases same : a = position
    · simp only [List.map_cons, List.cons_append, same, decide_true, List.takeWhile_cons_of_pos,
        List.length_cons, ih]
    · simp [same]

namespace Pairing

lemma compatible_shift (chars lines : Nat) : Compatible (Span.shift chars lines) id := by
  refine ⟨?_, ?_, ?_⟩
  · rintro a b _ _ rfl rfl
    simp only [id, Span.shift, Span.through, Nat.add_max_add_right]
  · rintro a _ rfl
    rfl
  · rintro a _ rfl
    rfl

/-- A parser beside one that reads the same with more in front of it. -/
def shifted (chars lines : Nat) : Pairing Lexer Lexer where
  aligned p q := Lexer.Shifted chars lines p.tokens q.tokens ∧
    ∃ old, q.attempts = p.attempts.map (· + chars) ++ old ∧ ∀ a ∈ old, a < chars
  past _ _ := False
  strict := True
  stallsAlike := True
  left := .shift chars lines
  right := id

lemma shifted_lawful (chars lines : Nat) : (shifted chars lines).Lawful where
  next {p q} c aligned := by
    obtain ⟨same, noted⟩ := aligned
    refine .next (fun t l read => ?_) fun e l read _ => ?_
    · obtain ⟨l', read', same'⟩ := same.next_ok read
      exact ⟨_, l', read', ⟨same'.pushBack t, noted⟩, .inl ⟨⟨rfl, rfl, rfl⟩, same', noted⟩⟩
    · obtain ⟨l', read', same'⟩ := same.next_error read
      exact ⟨_, l', read', ⟨rfl, rfl⟩, same', noted⟩
  -- The notes of attempts are shifted along with the positions, apart from old ones, which lie in
  -- front of the whole script and count for nothing.
  attempt {p q} aligned := by
    obtain ⟨same, old, noted, before⟩ := aligned
    have position : position q.tokens = position p.tokens + chars := same.position
    have alike : Parser.stalledAt (TokenStream.position q.tokens) q.attempts =
        Parser.stalledAt (TokenStream.position p.tokens) p.attempts := by
      rw [Bool.eq_iff_iff, Parser.stalledAt_iff, Parser.stalledAt_iff, position, noted,
        Parser.lead_shift before]
    refine ⟨fun _ => alike.trans, fun moving => ⟨alike.trans moving, same, old, ?_, before⟩⟩
    · change TokenStream.position q.tokens :: q.attempts = _
      rw [position, noted]
      rfl
  here {p q} _ aligned := by
    have position : position q.tokens = position p.tokens + chars := aligned.1.position
    have line : line q.tokens = line p.tokens + lines := aligned.1.line
    simp only [shifted, id, Span.shift, Span.single, position, line]
    congr 1
    omega
  budget {p q} aligned := by
    have : q.budget = p.budget := by
      unfold Parser.budget
      rw [aligned.1.remaining]
    exact ⟨this.ge, fun _ => this.symm⟩
  past_lax past := past.elim
  past_end past := past.elim
  spans := compatible_shift chars lines

end Pairing

/-! ## The first script -/

namespace Pairing

/-- A parser of the first script beside one of both. -/
def alongside (first second : List Char) : Pairing Lexer Lexer where
  aligned p q := p.tokens.Alongside first second q.tokens ∧ q.attempts = p.attempts
  past p q := (∃ t, p.tokens.pending = some t ∧ t.kind = .endOfInput) ∧
    q = ⟨.between first second, p.attempts⟩
  strict := False
  stallsAlike := False
  left := id
  right := id

lemma alongside_lawful (first second : List Char) : (alongside first second).Lawful where
  next {p q} c aligned := by
    obtain ⟨along, noted⟩ := aligned
    refine .next (fun t l read => ?_) fun _ _ _ strict => strict.elim
    obtain ⟨u, l', read', tokens, returned⟩ := along.next read
    refine ⟨u, l', read', ⟨returned, noted⟩, ?_⟩
    cases tokens with
    | same _ token onward =>
      obtain rfl := token
      exact .inl ⟨⟨rfl, rfl, rfl⟩, onward, noted⟩
    | ended end_kind newline behind =>
      exact .inr ⟨id, end_kind, newline, ⟨t, rfl, end_kind⟩, by rw [behind, noted]⟩
  attempt {p q} aligned := by
    obtain ⟨along, noted⟩ := aligned
    have position : position q.tokens = position p.tokens := along.position
    rw [position, noted]
    exact ⟨False.elim, fun moving => ⟨moving, along, rfl⟩⟩
  here strict := strict.elim
  budget aligned := by
    refine ⟨Nat.mul_le_mul_left _ ?_, False.elim⟩
    have := aligned.1.remaining
    omega
  past_lax _ := id
  past_end past := by
    obtain ⟨⟨t, pending, end_kind⟩, -⟩ := past
    exact ⟨t, _, Lexer.next_eq_ok.2 (.inl ⟨pending, rfl⟩), end_kind⟩
  spans := compatible_id

lemma alongside_settles {first second : List Char} (opens : (Lexer.between first second).Opens) :
    (alongside first second).Settles := by
  rintro p _ ⟨-, rfl⟩
  exact opens

end Pairing

namespace Parse

variable {room : Nat} {p p' : Parser Lexer}

/-- At the end of its input a parser finds newlines only. -/
lemma reads_of_topLevel_none (run : topLevel room p = .ok none p') :
    ∃ blanks t l, Reads {.statement} p.tokens (blanks ++ [t]) l ∧ (∀ t ∈ blanks, t.IsNewline) ∧
      t.kind = .endOfInput := by
  obtain ⟨t, skip, end_kind⟩ := topLevel_eq_none run
  obtain ⟨blanks, l, -, reads, skipped, -⟩ := skipNewlines_reads skip
  exact ⟨blanks, t, l, reads, skipped, end_kind⟩

lemma topLevel_of_pending_end {t : Token} (pending : p.tokens.pending = some t)
    (end_kind : t.kind = .endOfInput) :
    topLevel room p = .ok none { p with tokens := ⟨p.tokens.cursor, none⟩ } := by
  have read : TokenStream.next .statement p.tokens = (.ok t, ⟨p.tokens.cursor, none⟩) :=
    Lexer.next_eq_ok.2 (.inl ⟨pending, rfl⟩)
  unfold topLevel
  rw [bind_of_ok (skipNewlines_of_next read (by simp [end_kind])), if_pos end_kind]
  rfl

/-- Newlines in front of a token make no difference. -/
lemma skipNewlines_of_blanks {l l' : Lexer} {attempts : List Nat} {blanks : List Token}
    (reads : Reads {.statement} l blanks l') (skipped : ∀ t ∈ blanks, t.IsNewline) :
    skipNewlines .statement ⟨l, attempts⟩ = skipNewlines .statement ⟨l', attempts⟩ := by
  induction reads with
  | nil l => rfl
  | cons context read _ ih =>
    obtain rfl := context
    obtain ⟨newline, skipped⟩ := List.forall_mem_cons.1 skipped
    exact (skipNewlines_of_newline (p := ⟨_, attempts⟩) read newline).trans (ih skipped)

lemma topLevel_of_blanks {l l' : Lexer} {attempts : List Nat} {blanks : List Token}
    (reads : Reads {.statement} l blanks l') (skipped : ∀ t ∈ blanks, t.IsNewline) :
    topLevel room ⟨l, attempts⟩ = topLevel room ⟨l', attempts⟩ := by
  simp only [topLevel, bind, EStateM.bind, skipNewlines_of_blanks reads skipped]

end Parse

/-- At the end of the first script the second lexer reads one newline more. -/
lemma Lexer.Alongside.reads_end {first second : List Char} {l l' l₁ : Lexer}
    {blanks : List Token} {t : Token} (along : Alongside first second l l')
    (reads : Reads {.statement} l (blanks ++ [t]) l₁) (skipped : ∀ t ∈ blanks, t.IsNewline)
    (end_kind : t.kind = .endOfInput) :
    ∃ blanks', Reads {.statement} l' blanks' (between first second) ∧
      ∀ t ∈ blanks', t.IsNewline := by
  induction blanks generalizing l l' with
  | nil =>
    obtain ⟨u, l₁', read', tokens, -⟩ := along.next reads.next_of_single
    cases tokens with
    | same proper => exact absurd end_kind proper
    | ended _ newline behind =>
      obtain rfl := behind
      exact ⟨[u], .single rfl read', by simpa [Token.IsNewline] using newline⟩
  | cons b blanks ih =>
    simp only [List.mem_cons, forall_eq_or_imp] at skipped
    obtain ⟨l₂, read, rest⟩ := reads.next_eq
    obtain ⟨u, l₂', read', tokens, -⟩ := along.next read
    cases tokens with
    | same _ token onward =>
      obtain rfl := token
      obtain ⟨blanks', reads', skipped'⟩ := ih onward rest skipped.2
      refine ⟨u :: blanks', .cons rfl read' reads', ?_⟩
      simpa only [List.mem_cons, forall_eq_or_imp] using ⟨skipped.1, skipped'⟩
    | ended end_kind' =>
      have newline : b.kind = .newline := skipped.1
      simp [newline] at end_kind'

/-! ## Scripts -/

namespace Script

variable {p q : Parser Lexer} {s s' : Script}

/-- What a parser reads depends on the next statement only. -/
lemma ReadFrom.congr
    (same : Parse.topLevel nestingLimit p = Parse.topLevel nestingLimit q)
    (reads : ReadFrom p s) : ReadFrom q s := by
  cases reads with
  | done run => exact .done (same ▸ run)
  | failed run => exact .failed (same ▸ run)
  | statement run onward => exact .statement (same ▸ run) onward

/-- The script that a parser reads with more in front of it. -/
lemma ReadFrom.shifted {chars lines : Nat} (reads : ReadFrom p s)
    (aligned : (Pairing.shifted chars lines).aligned p q) (reads' : ReadFrom q s') :
    s'.trees = s.trees.map (Stmt.mapSpan (.shift chars lines)) ∧
      s'.error = s.error.map (ScriptError.mapSpan (.shift chars lines)) := by
  have lawful := Pairing.shifted_lawful chars lines
  induction reads generalizing q s' with
  | @done p p' run =>
    obtain ⟨q', run', -⟩ := Pairing.topLevel_eq_ok lawful trivial rfl aligned run
    rw [reads'.of_none run']
    exact ⟨rfl, rfl⟩
  | @failed p p' e run =>
    obtain ⟨q', run', -⟩ := Pairing.topLevel_eq_error lawful trivial trivial rfl aligned run
    rw [reads'.of_error run']
    exact ⟨rfl, rfl⟩
  | @statement p p' s rest run onward ih =>
    obtain ⟨q', run', aligned'⟩ := Pairing.topLevel_eq_ok lawful trivial rfl aligned run
    obtain ⟨rest', onward', rfl⟩ := reads'.of_some run'
    obtain ⟨trees, error⟩ := ih aligned' onward'
    exact ⟨congrArg (s.mapSpan _ :: ·) trees, error⟩

/-- A script and then, unless there is an error in it, a second one. -/
structure Continues (first second both : Script) : Prop where
  front : first.trees <+: both.trees
  whole : first.error = none →
    both.trees = first.trees ++ second.trees ∧ both.error = second.error

/-- The script is read to its end, and its last statement takes no `else`. -/
def EndsClosed (s : Script) : Prop :=
  s.error = none ∧ ∀ t ∈ s.trees.getLast?, t.takesElse = false

/-- Behind the first of the statements of a script that ends closed, the parser is not at the end of
the input, unless this is the last one. -/
lemma EndsClosed.of_cons {t : Stmt} {line : Nat} {rest : Script}
    (closed : EndsClosed { rest with statements := (t, line) :: rest.statements })
    (onward : ReadFrom p rest) : rest.EndsClosed ∧ (t.takesElse = false ∨ ¬ p.AtEnd) := by
  obtain ⟨none_failed, last⟩ := closed
  cases onward with
  | done run => exact ⟨⟨rfl, by simp [trees]⟩, .inl (last t rfl)⟩
  | failed run => cases none_failed
  | @statement _ _ u rest run onward =>
    obtain ⟨v, p₁, skip, proper, -⟩ := Parse.topLevel_eq_some run
    exact ⟨⟨none_failed, fun v mem => last v (by simpa [trees] using mem)⟩,
      .inr (Parser.not_atEnd skip proper)⟩

/-- Both scripts in one are read as the first and then what a parser reads behind the line feed,
whose attempts were all made in front of it. -/
lemma ReadFrom.joined {first second : List Char}
    (sure : (Lexer.between first second).Opens ∨ s.EndsClosed)
    (reads : ReadFrom p s) (steady : p.Steady first.length)
    (placed : (Pairing.alongside first second).aligned p q ∨
      (Pairing.alongside first second).past p q) (reads' : ReadFrom q s') :
    ∃ attempts rest, (s.error = none → ReadFrom ⟨Lexer.between first second, attempts⟩ rest ∧
      ∀ a ∈ attempts, a ≤ first.length) ∧ Continues s rest s' := by
  -- The induction is on what is read of the first script.  Behind its end the parser of the whole
  -- goes on with the second.
  induction reads generalizing q s' with
  | @done p p' run =>
    have onward : ReadFrom ⟨Lexer.between first second, p.attempts⟩ s' := by
      rcases placed with ⟨along, noted⟩ | ⟨-, rfl⟩
      · obtain ⟨blanks, t, l, reads, skipped, end_kind⟩ := Parse.reads_of_topLevel_none run
        obtain ⟨blanks', reads_on, skipped'⟩ := along.reads_end reads skipped end_kind
        refine reads'.congr ?_
        rw [← noted]
        exact Parse.topLevel_of_blanks reads_on skipped'
      · exact reads'
    refine ⟨p.attempts, s', fun _ => ⟨onward, fun a mem => ?_⟩, List.nil_prefix,
      fun _ => ⟨rfl, rfl⟩⟩
    have := steady.paced.behind a mem
    have := Lexer.position_le_length steady.inside
    have := steady.length
    omega
  | failed run => exact ⟨[], s', by simp, List.nil_prefix, by simp⟩
  | @statement p p' t rest run onward ih =>
    rcases placed with aligned | ⟨⟨u, pending, end_kind⟩, -⟩
    -- The statement is sure to read the same in the whole: the second script does not open with an
    -- `else`, or this statement takes none or has others behind it.
    · have known : (Pairing.alongside first second).Sure t.takesElse p' :=
        sure.imp Pairing.alongside_settles fun closed => (closed.of_cons onward).2
      obtain ⟨t', q', run', same, placed'⟩ :=
        Pairing.topLevel_pairs (Pairing.alongside_lawful first second) aligned run known
      obtain rfl : t = t' := by
        simpa only [Pairing.SameStmt, Pairing.alongside, Stmt.mapSpan_id] using same
      obtain ⟨rest', onward', rfl⟩ := reads'.of_some run'
      obtain ⟨attempts, behind, reads_on, front, whole⟩ :=
        ih (sure.imp_right fun closed => (closed.of_cons onward).1) (steady.topLevel run) placed'
          onward'
      refine ⟨attempts, behind, reads_on, ?_, fun none_failed => ?_⟩
      · exact List.prefix_cons_inj t |>.2 front
      · obtain ⟨trees, error⟩ := whole none_failed
        exact ⟨congrArg (t :: ·) trees, error⟩
    · rw [Parse.topLevel_of_pending_end pending end_kind] at run
      simp at run

/-- Two scripts in one are the first script and, unless there is an error in it, the second one
shifted. -/
lemma ofText_continues (first second : String)
    (sure : (Lexer.ofScript second).Opens ∨ (ofText first).EndsClosed) :
    Continues (ofText first)
      ((ofText second).mapSpan (.shift (first.length + 1) (first.toList.count '\n' + 1)))
      (ofText (first ++ "\n" ++ second)) := by
  have behind := Lexer.shifted_between first.toList second
  have steady : (Parser.ofStream (Lexer.ofScript first)).Steady first.toList.length :=
    ⟨Lexer.inside_ofScript first, rfl, .nil _⟩
  obtain ⟨attempts, rest, reads, front, whole⟩ :=
    (ofText_readFrom first).joined (q := .ofStream (Lexer.ofScript (first ++ "\n" ++ second)))
      (sure.imp_left behind.opens) steady (.inl ⟨Lexer.alongside_ofScript first second, rfl⟩)
      (ofText_readFrom _)
  refine ⟨front, fun none_failed => ?_⟩
  obtain ⟨onward, before⟩ := reads none_failed
  obtain ⟨trees, error⟩ := whole none_failed
  obtain ⟨trees', error'⟩ := (ofText_readFrom second).shifted
    (q := ⟨Lexer.between first.toList second.toList, attempts⟩)
    ⟨behind, attempts, rfl, fun a mem => Nat.lt_succ_of_le (before a mem)⟩ onward
  rw [← String.length_toList, trees_mapSpan, error_mapSpan, ← trees', ← error']
  exact ⟨trees, error⟩

/-- The second script need only begin with a token that is no `else`. -/
theorem ofText_joined (first second : String) (opens : (Lexer.ofScript second).Opens) :
    Continues (ofText first)
      ((ofText second).mapSpan (.shift (first.length + 1) (first.toList.count '\n' + 1)))
      (ofText (first ++ "\n" ++ second)) :=
  ofText_continues first second (.inl opens)

end Script
end ScriptEngine
