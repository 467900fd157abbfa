import Mathlib.Data.List.TakeWhile
import ScriptEngine.Text.Line

/-!
# The line of a position

The line that a position is on has a number, one more than the line feeds in front of the position
(`lineAt`), and a text, which stands between the line feeds on both sides (`Line.around`).  Asking a
text for the line of that number yields that text (`Line.textOf_lineAt`).
-/

namespace ScriptEngine

/-- The line of a position in a text, counted from 1. -/
def lineAt (text : List Char) (position : Nat) : Nat :=
  (text.take position).count '\n' + 1

/-- Behind some more characters the line has grown by the line feeds among them. -/
lemma lineAt_add (text : List Char) (position n : Nat) :
    lineAt text (position + n) = lineAt text position + ((text.drop position).take n).count '\n' := by
  unfold lineAt
  rw [List.take_add, List.count_append]
  omega

namespace Line

/-- The line around a position in a text in front of which `before`, last character first, has been
read of the same line. -/
def aroundFrom (before text : List Char) (position : Nat) : List Char :=
  let behind := ((text.take position).reverse ++ before).takeWhile (· != '\n')
  let line := behind.reverse ++ (text.drop position).takeWhile (· != '\n')
  if '\n' ∈ text.drop position then (dropReturn line.reverse).reverse else line

/-- The characters between the line feed in front of a position and the one behind it.  A carriage
return in front of the latter is left out. -/
def around (text : List Char) (position : Nat) : List Char :=
  aroundFrom [] text position

section

variable {before rest : List Char} {c : Char}

lemma takeWhile_eq_self (current : '\n' ∉ before) : before.takeWhile (· != '\n') = before := by
  refine List.takeWhile_eq_self_iff.2 fun c mem => bne_iff_ne.2 fun feed => current ?_
  rwa [← feed]

lemma aroundFrom_feed (before rest : List Char) (position : Nat) :
    aroundFrom before ('\n' :: rest) (position + 1) = aroundFrom [] rest position := by
  have behind (xs : List Char) :
      (xs ++ '\n' :: before).takeWhile (· != '\n') = (xs ++ []).takeWhile (· != '\n') := by
    induction xs with
    | nil => simp
    | cons x xs ih =>
      rw [List.cons_append, List.cons_append, List.takeWhile_cons, List.takeWhile_cons, ih]
  simp only [aroundFrom, List.take_succ_cons, List.reverse_cons, List.append_assoc,
    List.singleton_append, List.drop_succ_cons, behind]

lemma aroundFrom_cons (before rest : List Char) (c : Char) (position : Nat) :
    aroundFrom before (c :: rest) (position + 1) = aroundFrom (c :: before) rest position := by
  simp only [aroundFrom, List.take_succ_cons, List.reverse_cons, List.append_assoc,
    List.singleton_append, List.drop_succ_cons]

lemma aroundFrom_nil (current : '\n' ∉ before) (position : Nat) :
    aroundFrom before [] position = before.reverse := by
  simp [aroundFrom, takeWhile_eq_self current]

lemma aroundFrom_zero_feed (current : '\n' ∉ before) (rest : List Char) :
    aroundFrom before ('\n' :: rest) 0 = (dropReturn before).reverse := by
  simp [aroundFrom, takeWhile_eq_self current]

lemma aroundFrom_zero_cons (current : '\n' ∉ before) (other : c ≠ '\n') (rest : List Char) :
    aroundFrom before (c :: rest) 0 = aroundFrom (c :: before) rest 0 := by
  have longer : '\n' ∉ c :: before := by simp [current, other.symm]
  simp [aroundFrom, takeWhile_eq_self current, takeWhile_eq_self longer, other, other.symm]

lemma getD_splitFrom (before text : List Char) (position : Nat) (current : '\n' ∉ before) :
    (splitFrom before text).getD ((text.take position).count '\n') [] =
      aroundFrom before text position := by
  induction text generalizing before position with
  | nil =>
    rw [aroundFrom_nil current]
    cases before <;> simp [splitFrom]
  | cons c rest ih =>
    rw [splitFrom]
    split
    · next feed =>
      subst feed
      cases position with
      | zero =>
        rw [aroundFrom_zero_feed current]
        rfl
      | succ position =>
        rw [aroundFrom_feed, List.take_succ_cons, List.count_cons_self, List.getD_cons_succ]
        exact ih [] position (by simp)
    · next other =>
      have longer : '\n' ∉ c :: before := by simp [current, Ne.symm other]
      cases position with
      | zero =>
        rw [aroundFrom_zero_cons current other]
        exact ih (c :: before) 0 longer
      | succ position =>
        rw [aroundFrom_cons, List.take_succ_cons, List.count_cons_of_ne other]
        exact ih (c :: before) position longer

end

/-- The line of the number that a position is on is the line around it. -/
theorem textOf_lineAt (text : String) (position : Nat) :
    textOf (lineAt text.toList position) text = String.ofList (around text.toList position) := by
  rw [textOf, lineAt, Nat.add_sub_cancel, split, getD_splitFrom [] _ position (by simp), around]

end Line
end ScriptEngine
