import ScriptEngine.Proofs.Integer.Rendering

/-!
# Exactness of integer arithmetic

What an operator computes from two digit strings is said here on the integers themselves, without a
width: `onIntegers` takes the exact sum, product, quotient and so on, and wraps it around at 64 bits
where it can leave them.  The operators compute with 64-bit integers, and `applyInt_toInt` says that
this comes to the same.

Two points are not on the surface.  The count of a shift is the right operand modulo 64, so a negative
one counts from 64 downwards.  And the quotient needs a wrap only for the least integer divided by -1,
operands that a script can write only as digit strings too long for 64 bits.
-/

namespace ScriptEngine

open Digits

namespace Operator

/-- How far a shift by `r` moves the bits. -/
def shiftCount (r : Int) : Nat :=
  (r % 64).toNat

/-- What the operator gives on the integers `l` and `r`; `none` for the connectives. -/
def onIntegers (op : Operator) (l r : Int) : Option Int :=
  match op with
  | plus => some (wrap (l + r))
  | minus => some (wrap (l - r))
  | multiply => some (wrap (l * r))
  | divide => some (if r = 0 then 0 else wrap (l.tdiv r))
  | modulo => some (if r = 0 then 0 else l.tmod r)
  | shiftLeft => some (wrap (l * 2 ^ shiftCount r))
  | shiftRight => some (l.fdiv (2 ^ shiftCount r))
  | equal => some (if l = r then 1 else 0)
  | notEqual => some (if l ≠ r then 1 else 0)
  | less => some (if l < r then 1 else 0)
  | lessEqual => some (if l ≤ r then 1 else 0)
  | greater => some (if r < l then 1 else 0)
  | greaterEqual => some (if r ≤ l then 1 else 0)
  | complement => some (if r = 0 then 1 else 0)
  | increment => some (wrap (l + 1))
  | decrement => some (wrap (l - 1))
  | both | either => none

/-! ## Shifts -/

lemma toNat_smod_width (b : Int64) : (b.toBitVec.smod 64).toNat = shiftCount b.toInt := by
  have count : (b.toBitVec.smod 64).toInt = b.toInt % 64 := by
    rw [BitVec.toInt_smod, Int64.toInt_toBitVec]
    exact Int.fmod_eq_emod_of_nonneg _ (by decide)
  have nonneg : 0 ≤ b.toInt % 64 := Int.emod_nonneg _ (by decide)
  rw [BitVec.toInt_eq_toNat_cond] at count
  unfold shiftCount
  split at count <;> omega

lemma toInt_shiftLeft (a b : Int64) :
    (a <<< b).toInt = wrap (a.toInt * 2 ^ shiftCount b.toInt) := by
  rw [← Int64.toInt_toBitVec, Int64.toBitVec_shiftLeft, BitVec.shiftLeft_eq', toNat_smod_width,
    BitVec.toInt_shiftLeft, Nat.shiftLeft_eq, ← Int64.toInt_toBitVec a, BitVec.toInt_eq_toNat_bmod, wrap,
    Int.bmod_mul_bmod]
  push_cast
  rfl

lemma toInt_shiftRight (a b : Int64) :
    (a >>> b).toInt = a.toInt.fdiv (2 ^ shiftCount b.toInt) := by
  rw [← Int64.toInt_toBitVec, Int64.toBitVec_shiftRight, BitVec.sshiftRight', BitVec.toInt_sshiftRight,
    toNat_smod_width, Int64.toInt_toBitVec, Int.shiftRight_eq_div_pow]
  rw [Int.fdiv_eq_ediv_of_nonneg _ (Int.le_of_lt (Int.pow_pos (by decide)))]
  push_cast
  rfl

/-! ## All operators -/

lemma toInt_flag (b : Bool) : (flag b).toInt = if b then 1 else 0 := by
  cases b <;> rfl

lemma toInt_eq_zero {v : Int64} : v.toInt = 0 ↔ v = 0 :=
  Int64.toInt_inj (y := 0)

lemma applyInt_eq_none {op : Operator} {l r : Int64} :
    op.applyInt l r = none ↔ op.isConnective := by
  cases op <;> simp [applyInt, isConnective]

/-- An operator computes with 64-bit integers what it gives on the integers themselves. -/
lemma applyInt_toInt (op : Operator) (l r : Int64) :
    (op.applyInt l r).map Int64.toInt = op.onIntegers l.toInt r.toInt := by
  cases op with
  | plus | minus | multiply | increment | decrement =>
    simp only [applyInt, onIntegers, Option.map_some, Int64.toInt_add, Int64.toInt_sub, Int64.toInt_mul]
    rfl
  | shiftLeft => exact congrArg some (toInt_shiftLeft l r)
  | shiftRight => exact congrArg some (toInt_shiftRight l r)
  | divide =>
    by_cases zero : r = 0
    · simp [applyInt, onIntegers, zero]
    · simp only [applyInt, onIntegers, Option.map_some, if_neg zero, if_neg (mt toInt_eq_zero.1 zero)]
      exact congrArg some (Int64.toInt_div l r)
  | modulo =>
    by_cases zero : r = 0
    · simp [applyInt, onIntegers, zero]
    · simp only [applyInt, onIntegers, Option.map_some, if_neg zero, if_neg (mt toInt_eq_zero.1 zero)]
      exact congrArg some (Int64.toInt_mod l r)
  | equal | notEqual | complement =>
    simp [applyInt, onIntegers, toInt_flag, Int64.toInt_inj, toInt_eq_zero]
  | less | greater =>
    simp [applyInt, onIntegers, toInt_flag, Int64.lt_iff_toInt_lt]
  | lessEqual | greaterEqual =>
    simp [applyInt, onIntegers, toInt_flag, Int64.le_iff_toInt_le]
  | both | either => rfl

end Operator

/-- Arithmetic is exact modulo `2 ^ 64`.  Let `l` and `r` be the integers that two digit strings of any
length denote, wrapped around at 64 bits.  Every operator but the connectives then gives the decimal text
of its integer, whatever `l` and `r` are; only the connectives have none. -/
theorem arithmetic_exact {op : Operator} {a b : String} (left : isNumeric a) (right : isNumeric b) :
    (¬ op.isConnective →
      ∃ n, op.onIntegers (wrap (value a.toList)) (wrap (value b.toList)) = some n ∧
        op.apply a b = .ok (toString n)) ∧
    (op.isConnective → op.apply a b = .error (.unsupported op)) := by
  have integers := Operator.applyInt_toInt op (ofText a) (ofText b)
  rw [toInt_ofText, toInt_ofText] at integers
  rw [Operator.apply_of_isNumeric left right]
  constructor
  · intro numeric
    obtain ⟨v, computed⟩ := Option.ne_none_iff_exists'.1 (mt Operator.applyInt_eq_none.1 numeric)
    rw [computed] at integers
    exact ⟨v.toInt, integers.symm, by simp only [computed, render_eq]⟩
  · intro connective
    rw [Operator.applyInt_eq_none.2 connective]

/-- The least integer divided by -1, both written with digits only; and a connective, which is refused. -/
theorem arithmetic_exact_least_by_minus_one :
    isNumeric "9223372036854775808" ∧ isNumeric "18446744073709551615" ∧
    Operator.apply .divide "9223372036854775808" "18446744073709551615" =
      .ok "-9223372036854775808" ∧
    Operator.apply .both "9223372036854775808" "18446744073709551615" =
      .error (.unsupported .both) := by
  have left : isNumeric "9223372036854775808" := by decide
  have right : isNumeric "18446744073709551615" := by decide
  obtain ⟨n, quotient, result⟩ := (@arithmetic_exact .divide _ _ left right).1 (by decide)
  have value : n = -2 ^ 63 := Option.some.inj (quotient.symm.trans (by decide +kernel))
  refine ⟨left, right, result.trans ?_, (arithmetic_exact left right).2 rfl⟩
  rw [value]
  rfl

end ScriptEngine
