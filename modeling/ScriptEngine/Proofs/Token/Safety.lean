import ScriptEngine.Proofs.Token.Traced

/-!
# Where a lexer can stand

A client reads tokens off a script, hands tokens back, and saves and restores snapshots, in any order and
also after errors.  As long as it restores only snapshots that it has saved (`Reader.Own`), the lexer
stands in the script on the line of its position, and whatever it did with the text to come there was
fair (`cursor_sound`).  A read that is served from the script comes to its end or further on in it.
-/

namespace ScriptEngine

/-! ## Coming further on -/

lemma Quotation.read_le_of_decodeFrom {quote : Char} {skip read : Nat} {value chars : List Char}
    {m : Misread} (failed : decodeFrom quote skip read value chars = .error m) : read ≤ m.read := by
  induction chars generalizing skip read value with
  | nil =>
    obtain rfl := Except.error.inj failed
    exact Nat.le_refl _
  | cons c rest ih =>
    have onward {skip : Nat} {value : List Char}
        (failed : decodeFrom quote skip (read + 1) value rest = .error m) : read ≤ m.read :=
      (Nat.le_succ read).trans (ih failed)
    cases skip with
    | succ skip => exact onward failed
    | zero =>
      simp only [decodeFrom] at failed
      split at failed
      · cases failed
      split at failed
      · split at failed
        · split at failed
          · exact onward failed
          · obtain rfl := Except.error.inj failed
            exact (Nat.le_succ read).trans (Nat.le_add_right _ _)
        · obtain rfl := Except.error.inj failed
          exact Nat.le_add_right read 2
        · obtain rfl := Except.error.inj failed
          exact Nat.le_succ read
      · exact onward failed

/-- Where no token can be read, there is something to read, and some of it has been read. -/
lemma Lexeme.misread_pos {c : TokenContext} {chars : List Char} {m : Misread}
    (failed : ofChars c chars = .error m) : chars ≠ [] ∧ 0 < m.read := by
  obtain ⟨_, rule, read⟩ := exists_rule failed
  cases rule with
  | endOfInput | punctuation | quoted | digits | operator | assign => cases read
  | comment | bar | ampersand =>
    obtain rfl := Except.error.inj read
    exact ⟨by simp, Nat.succ_pos _⟩
  | misquoted stopped =>
    obtain rfl := Except.error.inj read
    refine ⟨by simp, ?_⟩
    unfold Quotation.decode at stopped
    split at stopped
    · cases stopped
    · next stopped' =>
      obtain rfl := Except.error.inj stopped
      exact Quotation.read_le_of_decodeFrom stopped'
  | @name ch rest =>
    have failed : name c ch rest = .error m := read
    unfold name at failed
    extract_lets run width text at failed
    split at failed
    · obtain rfl := Except.error.inj failed
      exact ⟨by simp, Nat.succ_pos _⟩
    · split at failed <;> cases failed

/-- The end of the input has been read. -/
def EndRead (result : Except ScriptError Token) : Prop :=
  ∃ token, result = .ok token ∧ token.kind = .endOfInput

/-- Where no token was handed back, only the end of the input is read without coming further on. -/
lemma Lexer.next_onward (context : TokenContext) (l : Lexer) (fresh : l.pending = none) :
    EndRead (l.next context).1 ∧ (l.next context).2.cursor.ahead = [] ∨
      ¬ EndRead (l.next context).1 ∧
        (l.next context).2.cursor.ahead.length < l.cursor.ahead.length := by
  rcases read : l.next context with ⟨e | t, l'⟩
  · obtain ⟨-, m, lexeme, -, rfl⟩ := next_eq_error.1 read
    refine .inr ⟨by rintro ⟨_, ⟨⟩, _⟩, ?_⟩
    obtain ⟨nonempty, pos⟩ := Lexeme.misread_pos lexeme
    have more := List.length_pos_iff.2 nonempty
    simp only [atToken, Cursor.ahead_advance, List.length_drop] at more ⊢
    omega
  · by_cases ended : t.kind = .endOfInput
    · refine .inl ⟨⟨t, rfl, ended⟩, ?_⟩
      obtain ⟨pending, -⟩ | ⟨-, x, lexeme, rfl, rfl⟩ := next_eq_ok.1 read
      · simp [fresh] at pending
      · rw [Cursor.ahead_advance, (Lexeme.ofChars_fits lexeme).end_iff.1 ended, List.drop_nil]
    · refine .inr ⟨by rintro ⟨_, ⟨⟩, kind⟩; exact ended kind, ?_⟩
      have fewer := remaining_next_lt read ended
      simpa [TokenStream.remaining, fresh, pending_next read] using fewer

/-! ## What a client may do -/

namespace Reader

/-- A snapshot that is restored is one that has been taken. -/
def Operation.Known (answers : List Answer) : Operation → Prop
  | .restore snapshot => .saved snapshot ∈ answers
  | .next _ | .pushBack _ | .save | .look => True

/-- The operations, carried out one after the other, restore only snapshots that they have taken
themselves, or that are among the answers. -/
def Own {σ : Type} [Reader σ] : List Answer → List Operation → σ → Prop
  | _, [], _ => True
  | answers, operation :: operations, s =>
    operation.Known answers ∧
      Own ((carryOut operation s).1 :: answers) operations (carryOut operation s).2

variable {text : List Char} {answers : List Answer} {operation : Operation} {s : Traced}

lemma own_lexer (operations : List Operation) (answers : List Answer) (s : Traced) :
    Own answers operations s ↔ Own answers operations s.lexer := by
  induction operations generalizing answers s with
  | nil => exact Iff.rfl
  | cons operation operations ih =>
    obtain ⟨answer, behind⟩ := carryOut_traced operation s
    simp only [Own, ih, behind, answer]

/-- What was done with the text was fair, and every snapshot that was taken is of a place in it. -/
structure Kept (text : List Char) (answers : List Answer) (s : Traced) : Prop where
  source : s.source.Sound text 0
  taken : ∀ snapshot, .saved snapshot ∈ answers → snapshot.mark.Located text

lemma kept_ofScript (script : String) : Kept script.toList [] (Traced.ofScript script) :=
  ⟨⟨.start _, .nil, rfl, Nat.zero_le _⟩, by simp⟩

namespace Kept

lemma answered {s' : Traced} {answer : Answer} (kept : Kept text answers s)
    (source : s'.source.Sound text 0)
    (taken : ∀ snapshot, answer = .saved snapshot → snapshot.mark.Located text) :
    Kept text (answer :: answers) s' := by
  refine ⟨source, fun snapshot mem => ?_⟩
  obtain now | before := List.mem_cons.1 mem
  · exact taken snapshot now.symm
  · exact kept.taken snapshot before

/-- Every operation keeps to the text, if it goes back to no other places than to those of snapshots that
were taken. -/
lemma carryOut (kept : Kept text answers s) (known : operation.Known answers) :
    Kept text ((carryOut operation s).1 :: answers) (carryOut operation s).2 := by
  cases operation with
  | next context => exact kept.answered ((s.next_does context).sound kept.source) nofun
  | pushBack token => exact kept.answered kept.source nofun
  | save =>
    refine kept.answered kept.source fun snapshot now => ?_
    rw [← Answer.saved.inj now]
    exact kept.source.cursor.mark
  | restore snapshot =>
    have there := kept.source.moveTo (kept.taken snapshot known)
    exact kept.answered (there.mono (Nat.zero_le _)) nofun
  | look => exact kept.answered kept.source nofun

lemma run {operations : List Operation} (kept : Kept text answers s)
    (own : Own answers operations s) : (run operations s).source.Sound text 0 := by
  induction operations generalizing answers s with
  | nil => exact kept.source
  | cons operation operations ih => exact ih (kept.carryOut own.1) own.2

end Kept
end Reader

open Reader in
/-- The cursor is always sound.  Take a lexer on any script after any operations, failed reads among them,
in which only snapshots are restored that were saved before.  It is the lexer of a traced scanner after the
same operations, and nothing that a client does can tell the two apart.  It stands in the script, on the
line of its position.

Every access to the text on the way there is on record, and every one was fair: what was put back is the
character read right before, and position and line were above zero; the place two characters back from an
unknown escape is one; and what was taken out as the text of a token lies in the script.  And if no token
was handed back, the next read either comes to the end of the input at the end of the script, or takes at
least one character, whether it succeeds or fails. -/
theorem cursor_sound (script : String) (operations : List Operation)
    (own : Own [] operations (Lexer.ofScript script)) :
    let text := script.toList
    let l := run operations (Lexer.ofScript script)
    let s := run operations (Traced.ofScript script)
    s.lexer = l ∧ (∀ client n, observe client n [] s = observe client n [] l) ∧
      l.cursor.position ≤ text.length ∧ l.cursor.line = lineAt text l.cursor.position ∧
      FairRecord text s.source.record ∧ l.cursor.mark = placeAfter s.source.record ∧
      ∀ context, l.pending = none →
        let read := l.next context
        EndRead read.1 ∧ read.2.cursor.position = text.length ∨
          ¬ EndRead read.1 ∧ l.cursor.position < read.2.cursor.position := by
  intro text l s
  have same : s.lexer = l := run_traced operations (Traced.ofScript script)
  have sound : s.source.Sound text 0 :=
    (kept_ofScript script).run ((own_lexer operations [] (Traced.ofScript script)).2 own)
  have located : l.cursor.Located text := same ▸ sound.cursor
  refine ⟨same, fun client n => same ▸ observe_traced client n [] s, located.inside, located.line,
    sound.record, same ▸ sound.place, fun context fresh => ?_⟩
  have behind : (l.next context).2.cursor.Located text := by
    have next := (carryOut_traced (.next context) s).2
    rw [same] at next
    exact congrArg Lexer.cursor next ▸ ((s.next_does context).sound sound).cursor
  have onward := l.next_onward context fresh
  have inside := located.inside
  have inside' := behind.inside
  rw [← List.length_eq_zero_iff, located.ahead_length, behind.ahead_length] at onward
  obtain ⟨ended, nothing⟩ | ⟨going, less⟩ := onward
  · exact .inl ⟨ended, by omega⟩
  · exact .inr ⟨going, by omega⟩

open Reader in
/-- A snapshot is saved behind a quoted text and restored behind an unknown escape. -/
theorem cursor_sound_rewound :
    let script := "'\\19' '\\q"
    let operations : List Operation :=
      [.next .expression, .save, .next .expression, .restore ⟨⟨5, 1⟩, none⟩, .next .statement]
    Own [] operations (Lexer.ofScript script) ∧
      (run operations (Lexer.ofScript script)).cursor.position = 9 ∧
      FairRecord script.toList (run operations (Traced.ofScript script)).source.record := by
  intro script operations
  have own : Own [] operations (Lexer.ofScript script) := by
    have taken : ⟨⟨5, 1⟩, none⟩ = Reader.save (run [.next .expression] (Lexer.ofScript script)) := by
      decide
    exact ⟨trivial, trivial, trivial, .tail _ (taken ▸ .head _), trivial, trivial⟩
  obtain ⟨-, -, -, -, fair, -⟩ := cursor_sound script operations own
  exact ⟨own, by decide, fair⟩

end ScriptEngine
