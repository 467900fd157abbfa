import Mathlib.Logic.ExistsUnique
import ScriptEngine.Operator.Apply

/-!
# Comparing texts

Two digit strings are compared as 64-bit integers, and all other texts character by character.  Which of
the two orders applies is decided by both texts together: one that is no digit string makes a text of the
other as well.

`Operator.order` is the order that the two make up between them.  Each of the six comparisons asks how two
texts stand to one another in this order and about nothing else (`Operator.apply_comparison`), and from
either side they stand alike (`Operator.order_swap`), so no two comparisons contradict each other.  As a
whole the order is not transitive; it is so among the digit strings and among the other texts, where the
rule does not change.
-/

namespace ScriptEngine

open Digits

namespace Operator

/-! ## The order of two texts -/

/-- How `a` stands to `b`: as integers if both are digit strings, and else by their characters. -/
def order (a b : String) : Ordering :=
  if isNumeric a && isNumeric b then compare (ofText a) (ofText b) else compare a b

lemma order_swap (a b : String) : order b a = (order a b).swap := by
  unfold order
  rw [Bool.and_comm]
  split <;> exact Std.OrientedOrd.eq_swap

/-- Between texts to all of which the same rule applies, the order is transitive. -/
lemma order_trans {digits : Bool} {a b c : String} (first : isNumeric a = digits)
    (second : isNumeric b = digits) (third : isNumeric c = digits) (below : order a b = .lt)
    (above : order b c = .lt) : order a c = .lt := by
  cases digits with
  | false =>
    simp only [order, first, second, third, Bool.and_self, Bool.false_eq_true, if_false] at below above ⊢
    exact Std.TransCmp.lt_trans below above
  | true =>
    simp only [order, first, second, third, Bool.and_self, if_true] at below above ⊢
    exact Std.TransCmp.lt_trans below above

example : order "10" "5 apples" = .lt ∧ order "5 apples" "9" = .lt ∧ order "10" "9" = .gt := by
  decide

/-! ## The comparisons -/

/-- The operator compares its operands. -/
def isComparison : Operator → Bool
  | equal | notEqual | less | lessEqual | greater | greaterEqual => true
  | _ => false

/-- The comparison is true of operands that stand to one another in this way. -/
def accepts (op : Operator) (order : Ordering) : Bool :=
  match op with
  | equal => order.isEq
  | notEqual => order.isNe
  | less => order.isLT
  | lessEqual => order.isLE
  | greater => order.isGT
  | greaterEqual => order.isGE
  | _ => false

/-- However two texts stand to one another, one of the three says so. -/
lemma existsUnique_accepts (order : Ordering) :
    ∃! op : Operator, op ∈ [less, equal, greater] ∧ op.accepts order := by
  have only (op : Operator) (accepted : op ∈ [less, equal, greater] ∧ op.accepts order)
      (others : ∀ other ∈ [less, equal, greater], other.accepts order → other = op) :
      ∃! op : Operator, op ∈ [less, equal, greater] ∧ op.accepts order :=
    ⟨op, accepted, fun other accepted => others other accepted.1 accepted.2⟩
  cases order with
  | lt => exact only less (by decide) (by decide)
  | eq => exact only equal (by decide) (by decide)
  | gt => exact only greater (by decide) (by decide)

lemma render_flag (b : Bool) : render (flag b) = if b then "1" else "0" := by
  cases b <;> rfl

section

variable {op : Operator} (comparison : op.isComparison)

include comparison

lemma applyInt_comparison (l r : Int64) :
    op.applyInt l r = some (flag (op.accepts (compare l r))) := by
  have eq : (l == r) = (compare l r).isEq := by
    rw [Bool.eq_iff_iff, beq_iff_eq, Ordering.isEq_iff_eq_eq, Std.compare_eq_iff_eq]
  have lt : decide (l < r) = (compare l r).isLT := by
    rw [Bool.eq_iff_iff, decide_eq_true_iff, Ordering.isLT_iff_eq_lt, Std.compare_eq_lt]
  have gt : decide (r < l) = (compare l r).isGT := by
    rw [Bool.eq_iff_iff, decide_eq_true_iff, Ordering.isGT_iff_eq_gt, Std.compare_eq_gt]
  have le : decide (l ≤ r) = (compare l r).isLE := by
    rw [Bool.eq_iff_iff, decide_eq_true_iff, Std.isLE_compare]
  have ge : decide (r ≤ l) = (compare l r).isGE := by
    rw [Bool.eq_iff_iff, decide_eq_true_iff, Std.isGE_compare]
  cases op with
  | equal => rw [applyInt, eq]; rfl
  | notEqual => rw [applyInt, bne, eq]; cases compare l r <;> rfl
  | less => rw [applyInt, lt]; rfl
  | greater => rw [applyInt, gt]; rfl
  | lessEqual => rw [applyInt, le]; rfl
  | greaterEqual => rw [applyInt, ge]; rfl
  | _ => cases comparison

lemma compareText_comparison (l r : String) :
    op.compareText l r = some (op.accepts (compare l r)) := by
  have below (l r : String) : compare l r = .lt ↔ l < r := compareOfLessAndEq_eq_lt
  have eq : (l == r) = (compare l r).isEq := by
    rw [Bool.eq_iff_iff, beq_iff_eq, Ordering.isEq_iff_eq_eq, Std.compare_eq_iff_eq]
  have lt : decide (l < r) = (compare l r).isLT := by
    rw [Bool.eq_iff_iff, decide_eq_true_iff, Ordering.isLT_iff_eq_lt, below]
  have gt : decide (r < l) = (compare l r).isGT := by
    rw [Bool.eq_iff_iff, decide_eq_true_iff, Ordering.isGT_iff_eq_gt, Std.OrientedOrd.eq_swap,
      Ordering.swap_eq_gt, below]
  cases op with
  | equal => rw [compareText, eq]; rfl
  | notEqual => rw [compareText, bne, eq]; cases compare l r <;> rfl
  | less => rw [compareText, lt]; rfl
  | greater => rw [compareText, gt]; rfl
  | lessEqual => rw [compareText, gt]; cases compare l r <;> rfl
  | greaterEqual => rw [compareText, lt]; cases compare l r <;> rfl
  | _ => cases comparison

/-- A comparison never fails, and its answer depends only on how its operands stand to one another. -/
lemma apply_comparison (a b : String) :
    op.apply a b = .ok (if op.accepts (order a b) then "1" else "0") := by
  have noConnective : op.isConnective = false := by cases op <;> first | rfl | cases comparison
  have noSum : op ≠ plus := by rintro rfl; cases comparison
  rw [← render_flag]
  unfold apply order
  rw [noConnective, if_neg Bool.false_ne_true]
  split
  · rw [applyInt_comparison comparison]
  · simp only [compareText_comparison comparison]

end

/-- The operator answers 1. -/
def Holds (op : Operator) (a b : String) : Prop :=
  op.apply a b = .ok "1"

lemma holds_iff {op : Operator} (comparison : op.isComparison) (a b : String) :
    op.Holds a b ↔ op.accepts (order a b) := by
  rw [Holds, apply_comparison comparison, Except.ok.injEq]
  cases op.accepts (order a b) <;> decide

end Operator

open Operator in
/-- The six comparisons are coherent.  Between any two texts each of them answers 0 or 1.  Exactly one of
`a < b`, `a == b` and `a > b` is true; `<=`, `>=` and `!=` are true exactly where `>`, `<` and `==` are
not; and `a < b` says what `b > a` says.  Among the digit strings, and among the texts that are none, `<`
is transitive. -/
theorem comparisons_coherent :
    (∀ a b : String,
      (∀ op : Operator, op.isComparison → op.apply a b = .ok "0" ∨ op.apply a b = .ok "1") ∧
      (∃! op : Operator, op ∈ [less, equal, greater] ∧ op.Holds a b) ∧
      (lessEqual.Holds a b ↔ ¬ greater.Holds a b) ∧
      (greaterEqual.Holds a b ↔ ¬ less.Holds a b) ∧
      (notEqual.Holds a b ↔ ¬ equal.Holds a b) ∧
      less.apply a b = greater.apply b a) ∧
    ∀ (digits : Bool) (a b c : String),
      isNumeric a = digits → isNumeric b = digits → isNumeric c = digits →
      less.Holds a b → less.Holds b c → less.Holds a c := by
  refine ⟨fun a b => ⟨fun op comparison => ?answers, ?one, ?noGreater, ?noLess, ?noEqual, ?sides⟩, ?trans⟩
  case answers =>
    rw [apply_comparison comparison]
    cases op.accepts (order a b)
    · exact .inl rfl
    · exact .inr rfl
  case one =>
    have holds (op : Operator) (mem : op ∈ [less, equal, greater]) :
        op.Holds a b ↔ op.accepts (order a b) :=
      holds_iff ((by decide : ∀ op ∈ [less, equal, greater], op.isComparison) op mem) a b
    obtain ⟨op, ⟨mem, accepted⟩, only⟩ := existsUnique_accepts (order a b)
    exact ⟨op, ⟨mem, (holds op mem).2 accepted⟩, fun other ⟨mem, answer⟩ =>
      only other ⟨mem, (holds other mem).1 answer⟩⟩
  case noGreater =>
    rw [holds_iff rfl, holds_iff rfl]
    cases order a b <;> decide
  case noLess =>
    rw [holds_iff rfl, holds_iff rfl]
    cases order a b <;> decide
  case noEqual =>
    rw [holds_iff rfl, holds_iff rfl]
    cases order a b <;> decide
  case sides =>
    rw [apply_comparison rfl, apply_comparison rfl, order_swap a b]
    cases order a b <;> rfl
  case trans =>
    intro digits a b c first second third below above
    rw [holds_iff rfl] at below above ⊢
    rw [accepts, Ordering.isLT_iff_eq_lt] at below above ⊢
    exact order_trans first second third below above

open Operator in
/-- Among digit strings one that is too long for 64 bits can be the least; among other texts a minus sign
counts as a character. -/
theorem comparisons_coherent_wrapped :
    (isNumeric "18446744073709551615" = true ∧ isNumeric "" = true ∧ isNumeric "007" = true ∧
      less.Holds "18446744073709551615" "" ∧ less.Holds "" "007" ∧
      less.Holds "18446744073709551615" "007") ∧
    (isNumeric "-1" = false ∧ isNumeric "-2" = false ∧ isNumeric "-x" = false ∧
      less.Holds "-1" "-2" ∧ less.Holds "-2" "-x" ∧ less.Holds "-1" "-x") ∧
    ∃! op : Operator, op ∈ [less, equal, greater] ∧ op.Holds "-1" "18446744073709551615" := by
  obtain ⟨pairs, trans⟩ := comparisons_coherent
  have below : less.Holds "18446744073709551615" "" := by rfl
  have above : less.Holds "" "007" := by rfl
  have first : less.Holds "-1" "-2" := by rfl
  have second : less.Holds "-2" "-x" := by rfl
  refine ⟨⟨by decide, by decide, by decide, below, above, ?_⟩,
    ⟨by decide, by decide, by decide, first, second, ?_⟩, (pairs _ _).2.1⟩
  · exact trans true _ _ _ (by decide) (by decide) (by decide) below above
  · exact trans false _ _ _ (by decide) (by decide) (by decide) first second

end ScriptEngine
