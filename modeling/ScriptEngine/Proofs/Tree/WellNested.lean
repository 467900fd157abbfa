import ScriptEngine.Proofs.Token.Location
import ScriptEngine.Proofs.Tree.Outline

/-!
# Well nested outlines

An outline is well nested in a text if every span is located in the text and stands inside the span
of its parent, and if the spans of siblings start one behind the other (`Outline.WellNested`).

Outlines that are read one behind the other make up a row.  A row leads from one place in the text to
another, rows that lead on from each other are put together (`Outline.Row.append`), and a row becomes
the children of a node (`Outline.Row.node`).  A place is given by two positions: nothing that is read
from there on starts in front of the first, and nothing that was read before ends behind the second.
The second may be further on, because a token that is left unread may have become a statement
nevertheless.
-/

namespace ScriptEngine
namespace Outline

/-- Every span is located in the text and inside the span of its parent, and the children of a node
start one behind the other. -/
inductive WellNested (text : List Char) : Outline → Prop
  | node {span : Span} {children : List Outline} (located : span.Located text)
    (nested : ∀ child ∈ children, WellNested text child)
    (inside : ∀ child ∈ children, span.start ≤ child.span.start ∧ child.span.stop ≤ span.stop)
    (ordered : children.Pairwise fun a b => a.span.start ≤ b.span.start) :
    WellNested text (node span children)

/-- Well nested outlines that start one behind the other, read from the place `p`, `r` on as far as
the place `q`, `s`. -/
structure Row (text : List Char) (p r q s : Nat) (children : List Outline) : Prop where
  onward : p ≤ q
  reach : r ≤ s
  nested : ∀ child ∈ children, child.WellNested text
  start : ∀ child ∈ children, p ≤ child.span.start ∧ child.span.start ≤ q
  stop : ∀ child ∈ children, child.span.stop ≤ s
  ordered : children.Pairwise fun a b => a.span.start ≤ b.span.start

variable {text : List Char} {span : Span} {children xs ys : List Outline} {o : Outline}
  {p r q s q' s' : Nat}

namespace WellNested

lemma located (nested : o.WellNested text) : o.span.Located text := by
  cases nested with
  | node located => exact located

lemma leaf (located : span.Located text) : (Outline.node span []).WellNested text :=
  .node located (by simp) (by simp) .nil

lemma all_located (nested : o.WellNested text) : o.All (Span.Located text) := by
  induction nested with
  | node located _ _ _ ih => exact .node located ih

end WellNested

namespace Row

lemma nil (onward : p ≤ q) (reach : r ≤ s) : Row text p r q s [] :=
  ⟨onward, reach, by simp, by simp, by simp, .nil⟩

/-- A token that has been read for good leads behind it. -/
lemma token {t : Token} (beyond : t.Beyond text p r) :
    Row text p r t.span.stop t.span.stop [] :=
  .nil (beyond.start.trans beyond.located.span.start_le_stop) beyond.stop

lemma single (nested : o.WellNested text) (start : p ≤ o.span.start) (onward : o.span.start ≤ q)
    (stop : o.span.stop ≤ s) (reach : r ≤ s) : Row text p r q s [o] :=
  ⟨start.trans onward, reach, by simpa using nested, by simpa using ⟨start, onward⟩,
    by simpa using stop, List.pairwise_singleton _ _⟩

lemma append (row : Row text p r q s xs) (row' : Row text q s q' s' ys) :
    Row text p r q' s' (xs ++ ys) where
  onward := row.onward.trans row'.onward
  reach := row.reach.trans row'.reach
  nested o mem := (List.mem_append.1 mem).elim (row.nested o) (row'.nested o)
  start o mem := (List.mem_append.1 mem).elim
    (fun mem => ⟨(row.start o mem).1, (row.start o mem).2.trans row'.onward⟩)
    (fun mem => ⟨row.onward.trans (row'.start o mem).1, (row'.start o mem).2⟩)
  stop o mem := (List.mem_append.1 mem).elim
    (fun mem => (row.stop o mem).trans row'.reach) (row'.stop o)
  ordered := List.pairwise_append.2 ⟨row.ordered, row'.ordered, fun a mem b mem' =>
    (row.start a mem).2.trans (row'.start b mem').1⟩

/-- A row goes on behind the token that was read after it. -/
lemma before {t : Token} (row : Row text p r q s xs) (beyond : t.Beyond text q s) :
    Row text p r t.span.stop t.span.stop xs := by
  have onward := row.append (.token beyond)
  rwa [List.append_nil] at onward

/-- A row may begin in front of the token that was read before it. -/
lemma behind {t : Token} (row : Row text t.span.stop t.span.stop q s xs)
    (beyond : t.Beyond text p r) : Row text p r q s xs :=
  (Row.token beyond).append row

/-- A row becomes the children of a node around it. -/
lemma node (row : Row text p r q s children) (located : span.Located text) (start : span.start ≤ p)
    (inside : ∀ child ∈ children, child.span.stop ≤ span.stop) :
    (Outline.node span children).WellNested text :=
  .node located row.nested (fun o mem => ⟨start.trans (row.start o mem).1, inside o mem⟩) row.ordered

/-- Where the only outline of a row stands. -/
lemma only (row : Row text p r q s [o]) :
    o.WellNested text ∧ p ≤ o.span.start ∧ o.span.stop ≤ s :=
  ⟨row.nested o List.mem_cons_self, (row.start o List.mem_cons_self).1, row.stop o List.mem_cons_self⟩

/-- An outline that starts behind all of a row ends behind all of it. -/
lemma stop_le_last (row : Row text p r q s xs) (nested : o.WellNested text)
    (behind : s ≤ o.span.start) : ∀ child ∈ xs ++ [o], child.span.stop ≤ o.span.stop := by
  intro child mem
  rcases List.mem_append.1 mem with mem | mem
  · exact (row.stop child mem).trans (behind.trans nested.located.start_le_stop)
  · rw [List.mem_singleton.1 mem]

/-- A row starts no earlier than the first of its outlines. -/
lemma from_head (row : Row text p r q s (o :: xs)) : Row text o.span.start r q s (o :: xs) where
  onward := (row.start o List.mem_cons_self).2
  reach := row.reach
  nested := row.nested
  start child mem := by
    refine ⟨?_, (row.start child mem).2⟩
    rcases List.mem_cons.1 mem with rfl | mem
    · exact Nat.le_refl _
    · exact List.rel_of_pairwise_cons row.ordered mem
  stop := row.stop
  ordered := row.ordered

/-- The token by itself. -/
lemma leaf {t : Token} (beyond : t.Beyond text p r) :
    Row text p r t.span.stop t.span.stop [.node t.span []] :=
  .single (.leaf beyond.located.span) beyond.start beyond.located.span.start_le_stop (Nat.le_refl _)
    beyond.stop

/-- An outline with one of the same span around it. -/
lemma around (row : Row text p r q s [o]) : Row text p r q s [.node o.span [o]] := by
  obtain ⟨nested, start, stop⟩ := row.only
  have onward := (row.start o List.mem_cons_self).2
  exact .single (row.from_head.node nested.located (Nat.le_refl _) (by simp)) start onward stop
    row.reach

/-- A construct that begins with a token, goes on with a row and ends where `last` does. -/
lemma construct {t : Token} {last : Span} (row : Row text t.span.stop t.span.stop q s children)
    (beyond : t.Beyond text p r) (located : last.Located text) (stop : last.stop ≤ s)
    (inside : ∀ child ∈ children, child.span.stop ≤ last.stop) :
    Row text p r q s [.node (t.span.through last) children] := by
  have token := beyond.located.span
  refine .single (row.node (token.through located) token.start_le_stop fun o mem => ?_) beyond.start
    (token.start_le_stop.trans row.onward) (max_le stop row.reach) (beyond.stop.trans row.reach)
  exact (inside o mem).trans (le_max_left _ _)

/-- A construct that begins with its first part and ends where `last` does. -/
lemma wrap {last : Span} (row : Row text p r q s (o :: xs)) (located : last.Located text)
    (stop : last.stop ≤ s) (inside : ∀ child ∈ o :: xs, child.span.stop ≤ last.stop) :
    Row text p r q s [.node (o.span.through last) (o :: xs)] := by
  have first := row.nested o List.mem_cons_self
  refine .single (row.from_head.node (first.located.through located) (Nat.le_refl _) fun o mem => ?_)
    (row.start o List.mem_cons_self).1 (row.start o List.mem_cons_self).2
    (max_le stop (row.stop o List.mem_cons_self)) row.reach
  exact (inside o mem).trans (le_max_left _ _)

end Row
end Outline
end ScriptEngine
