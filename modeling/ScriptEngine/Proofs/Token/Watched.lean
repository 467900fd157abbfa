import ScriptEngine.Proofs.Token.Lexing

/-!
# A lexer that is watched

A lexer holds one token that was handed back; handing back another replaces it.  A watched lexer
also keeps a list of the tokens that were replaced in this way, which nothing removes: going back to
an earlier place does not shorten it.
-/

namespace ScriptEngine

open TokenStream

/-- A lexer and the tokens that were handed back to it and lost before they were read again. -/
@[ext] structure Watched where
  lexer : Lexer
  overwritten : List Token := []

namespace Watched

instance : TokenStream Watched where
  next c w := ((w.lexer.next c).1, { w with lexer := (w.lexer.next c).2 })
  pushBack t w := ⟨w.lexer.pushBack t, w.lexer.pending.toList ++ w.overwritten⟩
  restore before now := { now with lexer := now.lexer.restore before.lexer.save }
  position w := w.lexer.position
  line w := w.lexer.line
  remaining w := remaining w.lexer

variable {c : TokenContext} {w w' : Watched} {t : Token}

lemma next_eq (c : TokenContext) (w : Watched) :
    next c w = ((next c w.lexer).1, { w with lexer := (next c w.lexer).2 }) := rfl

lemma next_of_next {l l' : Lexer} {result : Except ScriptError Token}
    (read : next c l = (result, l')) (lost : List Token) :
    next c (⟨l, lost⟩ : Watched) = (result, ⟨l', lost⟩) := by
  rw [next_eq, read]

/-- A watched lexer reads what the lexer reads. -/
lemma next_eq_ok : next c w = (.ok t, w') ↔
    ∃ l, next c w.lexer = (.ok t, l) ∧ w' = { w with lexer := l } := by
  rw [next_eq]
  constructor
  · intro h
    obtain ⟨read, rfl⟩ := Prod.ext_iff.1 h
    exact ⟨_, Prod.ext read rfl, rfl⟩
  · rintro ⟨l, read, rfl⟩
    rw [read]

/-- Right behind a token nothing is lost by handing it back. -/
lemma pushBack_of_next {l l' : Lexer} (read : next c l = (.ok t, l')) (lost : List Token) :
    pushBack t (⟨l', lost⟩ : Watched) = ⟨pushBack t l', lost⟩ := by
  have pending : l'.pending = none := Lexer.pending_next read
  change (⟨l'.pushBack t, l'.pending.toList ++ lost⟩ : Watched) = ⟨l'.pushBack t, lost⟩
  rw [pending]
  rfl

instance : LawfulTokenStream Watched where
  next_pushBack {c c' w w' t} h := by
    obtain ⟨l, read, rfl⟩ := next_eq_ok.1 h
    rw [pushBack_of_next read, next_eq, next_pushBack read]
  remaining_next {c w w' t} h proper := by
    obtain ⟨l, read, rfl⟩ := next_eq_ok.1 h
    exact Lexer.remaining_next_lt read proper
  restore_self w := Watched.ext (restore_self w.lexer) rfl
  restore_next c w now := Watched.ext (restore_next c w.lexer now.lexer) rfl

end Watched
end ScriptEngine
