import ScriptEngine.Proofs.Tree.Counted
import ScriptEngine.Proofs.Tree.StatementLayout

/-!
# Trees read after errors

A parser can be asked for one tree after the other, for statements and for expressions as one likes, and
it goes on after an error where the error left it.  Whatever happens, its lexer stays located in the text
(`Parser.Located`), so the spans of every tree that it ever returns are well nested
(`Parse.trees_wellNested`).

That the lexer stays located on errors, too, is seen by putting the parser beside itself
(`Pairing.located`): aligned parsers are aligned again when they fail.
-/

namespace ScriptEngine

/-! ## Lexers after errors -/

/-- A cursor stays in the text however far it is moved. -/
lemma Cursor.Located.advance_any {text : List Char} {c : Cursor} (located : c.Located text) (n : Nat) :
    (c.advance n).Located text := by
  induction n generalizing c with
  | zero => exact located
  | succ n ih =>
    cases ahead : c.ahead with
    | nil => rwa [Cursor.advance, next?_of_ahead_nil ahead]
    | cons ch rest =>
      obtain ⟨c', read, -⟩ := next?_of_ahead_cons ahead
      have one : c.advance 1 = c' := by simp only [Cursor.advance, read]
      rw [Cursor.advance, read]
      exact ih (one ▸ located.advance (by simp [ahead]))

lemma Lexer.Located.next_error {text : List Char} {c : TokenContext} {l l' : Lexer} {e : ScriptError}
    (located : l.Located text) (failed : l.next c = (.error e, l')) : l'.Located text := by
  obtain ⟨-, m, -, -, rfl⟩ := next_eq_error.1 failed
  exact ⟨located.cursor.atToken.advance_any m.read, by simp⟩

/-! ## Parsers after errors -/

/-- The lexer of the parser is located in the text. -/
def Parser.Located (text : List Char) (p : Parser Lexer) : Prop :=
  p.tokens.Located text

namespace Pairing

/-- A located parser beside itself. -/
def located (text : List Char) : Pairing Lexer Lexer where
  aligned p q := q = p ∧ p.Located text
  past _ _ := False
  strict := True
  stallsAlike := True
  left := id
  right := id

lemma located_lawful (text : List Char) : (located text).Lawful where
  next {p q} c aligned := by
    obtain ⟨rfl, here⟩ := aligned
    refine .next (fun t l read => ?_) fun e l failed _ => ?_
    · have standing : q.tokens.At text 0 0 := ⟨here, Nat.zero_le _, Nat.zero_le _⟩
      obtain ⟨-, past⟩ := standing.next read
      exact ⟨t, l, read, ⟨rfl, past.returned.located⟩,
        .inl ⟨⟨rfl, rfl, rfl⟩, rfl, past.onward.located⟩⟩
    · exact ⟨e, l, failed, ⟨rfl, rfl⟩, rfl, here.next_error failed⟩
  attempt aligned := by
    obtain ⟨rfl, here⟩ := aligned
    exact ⟨fun _ stalled => stalled, fun moving => ⟨moving, rfl, here⟩⟩
  here _ aligned := by
    obtain ⟨rfl, -⟩ := aligned
    rfl
  budget aligned := by
    obtain ⟨rfl, -⟩ := aligned
    exact ⟨Nat.le_refl _, fun _ => rfl⟩
  past_lax past := past.elim
  past_end past := past.elim
  spans := compatible_id

end Pairing

namespace Parse

variable {text : List Char} {p : Parser Lexer}

lemma located_of_ends {α : Type} {same : α → α → Prop} {x : Parse Lexer α}
    (ends : (Pairing.located text).Ends ((Pairing.located text).Both same) (x p) (x p)) :
    (endOf (x p)).Located text := by
  cases run : x p with
  | ok a p' =>
    rw [run] at ends
    obtain ⟨_, _, -, -, -, here⟩ := ends
    exact here
  | error e p' =>
    rw [run] at ends
    obtain ⟨_, _, -, -, -, here⟩ := ends ⟨trivial, fun _ => trivial⟩
    exact here

lemma topLevel_located (room : Nat) (here : p.Located text) :
    (endOf (topLevel room p)).Located text :=
  located_of_ends <|
    Pairing.topLevel_pairs_of_strict (Pairing.located_lawful text) trivial room ⟨rfl, here⟩

lemma expression_located (room : Nat) (here : p.Located text) :
    (endOf (expression room p)).Located text :=
  located_of_ends <|
    Pairing.expression_pairs (Pairing.located_lawful text) room p p ⟨rfl, here⟩

/-! ## Calls -/

/-- What a parser can be asked for: the next statement, or an expression. -/
inductive Call
  | statement
  | expression
deriving DecidableEq, Repr

namespace Call

/-- The outline of the tree that a call returns, if it returns one. -/
def tree (p : Parser Lexer) : Call → Option Outline
  | statement => ((topLevel nestingLimit).value? p).bind fun found => found.map Stmt.outline
  | expression => ((Parse.expression nestingLimit).value? p).map Expr.outline

/-- The parser after a call, whether it has returned a tree or failed. -/
def after (p : Parser Lexer) : Call → Parser Lexer
  | statement => endOf (topLevel nestingLimit p)
  | expression => endOf (Parse.expression nestingLimit p)

lemma located_after (here : p.Located text) : ∀ call : Call, (call.after p).Located text
  | statement => topLevel_located nestingLimit here
  | expression => expression_located nestingLimit here

/-- A located parser returns well nested trees only. -/
lemma wellNested_tree (here : p.Located text) (call : Call) :
    ∀ o ∈ call.tree p, o.WellNested text := by
  have standing : p.tokens.At text 0 0 := ⟨here, Nat.zero_le _, Nat.zero_le _⟩
  intro o returned
  cases call with
  | statement =>
    obtain ⟨found, read, tree⟩ := Option.bind_eq_some_iff.1 returned
    obtain ⟨s, rfl, rfl⟩ := Option.map_eq_some_iff.1 tree
    obtain ⟨p', run⟩ := value?_eq_some.1 read
    have lays := topLevel_lays nestingLimit 0 0 p standing
    rw [run] at lays
    obtain ⟨q, r, row, -⟩ := lays
    exact row.only.1
  | expression =>
    obtain ⟨e, read, rfl⟩ := Option.map_eq_some_iff.1 returned
    obtain ⟨p', run⟩ := value?_eq_some.1 read
    have lays := expression_lays nestingLimit 0 0 p standing
    rw [run] at lays
    obtain ⟨q, r, row, -⟩ := lays
    exact row.only.1

end Call

/-- The outlines of all the trees that calls made one after the other return, whichever of them
fail. -/
def trees : List Call → Parser Lexer → List Outline
  | [], _ => []
  | call :: calls, p => (call.tree p).toList ++ trees calls (call.after p)

lemma wellNested_trees (calls : List Call) (here : p.Located text) :
    ∀ o ∈ trees calls p, o.WellNested text := by
  induction calls generalizing p with
  | nil => simp [trees]
  | cons call calls ih =>
    intro o mem
    rcases List.mem_append.1 mem with mem | mem
    · exact call.wellNested_tree here o (Option.mem_toList.1 mem)
    · exact ih (call.located_after here) o mem

/-- Whatever a parser is asked for, in whatever order and however often it fails: every node of every
tree that it returns carries a span of the script with the line of its start, the spans of its children
are inside its own, and they start one behind the other. -/
theorem every_tree_wellNested (script : String) (calls : List Call) (o : Outline)
    (returned : o ∈ trees calls (.ofStream (Lexer.ofScript script))) :
    o.WellNested script.toList :=
  wellNested_trees (p := .ofStream (Lexer.ofScript script)) calls (Lexer.at_ofScript script).located o
    returned

/-- The first statement fails at its semicolon; the declaration behind it is read all the same. -/
theorem every_tree_wellNested_after_failure :
    ∃ o ∈ trees [.statement, .statement, .expression]
        (.ofStream (Lexer.ofScript "1 + ; var x = 'a\nb', y\n(z)")),
      o.span = ⟨6, 22, 1⟩ ∧ o.WellNested "1 + ; var x = 'a\nb', y\n(z)".toList := by
  have declared : ((trees [.statement, .statement, .expression]
      (.ofStream (Lexer.ofScript "1 + ; var x = 'a\nb', y\n(z)")))[0]?.map Outline.span) =
        some ⟨6, 22, 1⟩ := by
    decide +kernel
  obtain ⟨o, first, span⟩ := Option.map_eq_some_iff.1 declared
  have returned := List.mem_of_getElem? first
  exact ⟨o, returned, span, every_tree_wellNested _ _ o returned⟩

end Parse
end ScriptEngine
