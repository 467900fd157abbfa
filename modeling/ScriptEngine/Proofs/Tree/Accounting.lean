import ScriptEngine.Proofs.Token.Watched
import ScriptEngine.Proofs.Tree.StatementPairing
import ScriptEngine.Proofs.Tree.StatementWords

/-!
# Every token accounted for

What reading a top-level statement consumes is a derivation of the statement, and no token is lost
on the way: a lexer that is watched (`Watched`) gives the parser the same answers and never sees a
token replaced that was still to be read.
-/

namespace ScriptEngine

open TokenStream

/-- The parser on a lexer that is watched from now on. -/
def Parser.watched (p : Parser Lexer) : Parser Watched :=
  ⟨⟨p.tokens, []⟩, p.attempts⟩

namespace Pairing

/-- A parser and the same parser watched, nothing having been overwritten. -/
def watching : Pairing Lexer Watched where
  aligned p q := q = p.watched
  past _ _ := False
  strict := True
  stallsAlike := True
  left := id
  right := id

lemma watching_lawful : watching.Lawful where
  next {p q} c aligned := by
    obtain rfl := aligned
    refine .next (fun t l read => ?_) fun e l read _ => ?_
    · refine ⟨t, _, Watched.next_of_next read [], ?_, .inl ⟨⟨rfl, rfl, rfl⟩, rfl⟩⟩
      exact congrArg (Parser.mk · p.attempts) (Watched.pushBack_of_next read [])
    · exact ⟨e, _, Watched.next_of_next read [], ⟨rfl, rfl⟩, rfl⟩
  attempt {p q} aligned := by
    obtain rfl := aligned
    exact ⟨fun _ stalled => stalled, fun moving => ⟨moving, rfl⟩⟩
  here _ aligned := by
    obtain rfl := aligned
    rfl
  budget aligned := by
    obtain rfl := aligned
    exact ⟨Nat.le_refl _, fun _ => rfl⟩
  past_lax past := past.elim
  past_end past := past.elim
  spans := compatible_id

end Pairing

namespace Parse

variable {room : Nat} {p p' : Parser Lexer}

/-- The watched parser reads the same statements, and nothing has been overwritten. -/
lemma topLevel_watched_of_ok {s : Option Stmt} (run : topLevel room p = .ok s p') :
    topLevel room p.watched = .ok s p'.watched := by
  obtain ⟨q, run', rfl⟩ := Pairing.topLevel_eq_ok Pairing.watching_lawful trivial rfl rfl run
  rw [run', ← Stmt.mapBranchSpan_eq_map]
  exact congrArg (EStateM.Result.ok · p'.watched) (Stmt.mapBranchSpan_id s)

lemma topLevel_watched_of_error {e : ScriptError} (run : topLevel room p = .error e p') :
    topLevel room p.watched = .error e p'.watched := by
  obtain ⟨q, run', rfl⟩ := Pairing.topLevel_eq_error Pairing.watching_lawful trivial trivial rfl rfl run
  exact run'

/-- From any place in any script, the tokens that reading a statement consumes, each once and in
order, derive the statement that is returned; all but newlines and the ends of simple statements are
words of its tree, and if it ends in an `if` without an `else`, no `else` follows.  Watched, the
lexer gives the same answers without ever losing a token that was handed back, whether the statement
is accepted or not.  An `if` that has no `else` leaves the parser as its branch left it. -/
theorem topLevel_accounts_for_every_token (room : Nat) (p : Parser Lexer) :
    (∀ s p', topLevel room p = .ok (some s) p' →
      ∃ ts rest, Consumes everywhere p.tokens ts p'.tokens ∧ p'.Awaits rest ∧
        s.DerivedFrom ts rest.toList ∧ (∃ n ≤ s.simpleCount, Thins ts s.words n) ∧
        (s.takesElse → p'.ElseFree)) ∧
    (∀ s p', topLevel room p = .ok s p' → topLevel room p.watched = .ok s p'.watched) ∧
    (∀ e p', topLevel room p = .error e p' → topLevel room p.watched = .error e p'.watched) ∧
    (∀ start span condition branch p',
      choice (statement room) (expression room) start p =
        .ok (.choice condition branch none span) p' →
      ∃ p₁, statement room p₁ = .ok branch p') := by
  refine ⟨fun s p' run => ?_, fun s p' => topLevel_watched_of_ok, fun e p' =>
    topLevel_watched_of_error, fun start span condition branch p' =>
    choice_without_else (statement_reads room)⟩
  obtain ⟨ts, rest, read, -⟩ := topLevel_reads run
  exact ⟨ts, rest, read.moves.tokens, read.awaits, read.derived, read.derived.thins, read.nearest⟩

theorem topLevel_accounts_for_every_token_choice :
    ∃ s p' ts, topLevel nestingLimit (.ofStream (Lexer.ofScript "if (a) ;\nelse b")) =
        .ok (some s) p' ∧
      Consumes everywhere (Lexer.ofScript "if (a) ;\nelse b") ts p'.tokens := by
  have accepted : ((topLevel nestingLimit).value?
      (.ofStream (Lexer.ofScript "if (a) ;\nelse b"))).any Option.isSome := by
    decide +kernel
  obtain ⟨s, read, present⟩ := (Option.any_eq_true _ _).1 accepted
  obtain ⟨s, rfl⟩ := Option.isSome_iff_exists.1 present
  obtain ⟨p', run⟩ := value?_eq_some.1 read
  obtain ⟨ts, rest, consumes, -⟩ := (topLevel_accounts_for_every_token _ _).1 s p' run
  exact ⟨s, p', ts, run, consumes⟩

end Parse
end ScriptEngine
