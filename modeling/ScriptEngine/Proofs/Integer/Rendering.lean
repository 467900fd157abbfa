import Mathlib.Algebra.Group.Int.Defs
import Mathlib.Algebra.Group.Nat.Defs
import ScriptEngine.Native.Arguments
import ScriptEngine.Operator.Apply

/-!
# Integers and their texts

Every value is a text, so an integer that an operator has computed goes on as its decimal text.  Two
readers take it up again.  The next operator takes a text for a number only if it consists of digits, so
it reads the integers that are not negative (`isNumeric_toString`, `ofText_toString`).  A native reads
what stands in front of a text, an optional minus sign and digits (`LeadingInteger`), and so it reads
back every integer.

What is read from digits wraps around at 64 bits, and so does taking the negative of it.  The least
integer is where both happen: the digits behind its sign are one more than the greatest integer, so they
read as the least integer already, and its negative is itself.
-/

namespace ScriptEngine
namespace Digits

/-- The signed 64-bit integer that `n` wraps around to. -/
def wrap (n : Int) : Int :=
  n.bmod (2 ^ 64)

lemma wrap_toInt (v : Int64) : wrap v.toInt = v.toInt :=
  Int.bmod_eq_of_le v.le_toInt v.toInt_lt

lemma toInt_toInt64 (digits : List Char) : (toInt64 digits).toInt = wrap (value digits) := by
  rw [toInt64_eq, Int64.toInt_ofNat']
  rfl

lemma toInt_ofText (text : String) : (ofText text).toInt = wrap (value text.toList) :=
  toInt_toInt64 text.toList

/-! ## Decimal texts -/

lemma toList_toString (n : Int) :
    (toString n).toList = (if n < 0 then ['-'] else []) ++ Nat.toDigits 10 n.natAbs := by
  rw [Int.toString_eq_repr, Int.repr_eq_if]
  by_cases negative : n < 0
  · have magnitude : (-n).toNat = n.natAbs := by omega
    simp [negative, Int.not_le.2 negative, magnitude]
  · have magnitude : n.toNat = n.natAbs := by omega
    simp [negative, Int.not_lt.1 negative, magnitude]

lemma render_eq (v : Int64) : render v = toString v.toInt := by
  rw [← String.toList_inj, toList_toString, render]
  by_cases negative : v.toInt < 0 <;> simp [negative]

lemma value_toDigits (n : Nat) : value (Nat.toDigits 10 n) = n := by
  have digits := Nat.ofDigitChars_ten_toDigits (n := n)
  rw [Nat.ofDigitChars_eq_foldl] at digits
  simpa only [value, digitValue, Nat.mul_comm 10] using digits

lemma isDigit_of_mem_toDigits {n : Nat} : ∀ c ∈ Nat.toDigits 10 n, c.isDigit :=
  fun _ mem => Nat.isDigit_of_mem_toDigits (by decide) (by decide) mem

/-- The decimal text of an integer consists of digits exactly when it has no minus sign. -/
lemma isNumeric_toString (n : Int) : isNumeric (toString n) ↔ 0 ≤ n := by
  have digits : (Nat.toDigits 10 n.natAbs).all Char.isDigit :=
    List.all_eq_true.2 isDigit_of_mem_toDigits
  rw [isNumeric, toList_toString, List.all_append, digits, Bool.and_true]
  by_cases negative : n < 0
  · simp [negative]
  · simp [negative, Int.not_lt.1 negative]

lemma ofText_toString {v : Int64} (nonneg : 0 ≤ v.toInt) : ofText (toString v.toInt) = v := by
  rw [← Int64.toInt_inj, toInt_ofText, toList_toString, if_neg (Int.not_lt.2 nonneg), List.nil_append,
    value_toDigits, Int.natAbs_of_nonneg nonneg, wrap_toInt]

/-! ## Integers in front of a text -/

/-- Digits, and behind them something that does not go on with a digit. -/
structure DigitRun (digits rest : List Char) : Prop where
  all : ∀ c ∈ digits, c.isDigit
  longest : ∀ c ∈ rest.head?, ¬ c.isDigit

namespace DigitRun

lemma of_split (chars : List Char) :
    DigitRun (chars.takeWhile Char.isDigit) (chars.dropWhile Char.isDigit) where
  all := List.all_eq_true.1 List.all_takeWhile
  longest c first := by
    have other := List.head?_dropWhile_not Char.isDigit chars
    rw [Option.mem_def.1 first] at other
    exact Bool.eq_false_iff.1 other

lemma takeWhile_eq {digits rest : List Char} (run : DigitRun digits rest) :
    (digits ++ rest).takeWhile Char.isDigit = digits := by
  rw [List.takeWhile_append_of_pos run.all]
  cases rest with
  | nil => simp
  | cons c rest => rw [List.takeWhile_cons_of_neg (run.longest c rfl), List.append_nil]

end DigitRun

/-- The integer `n` stands in front of a text: an optional minus sign, and all the digits that follow.
No digits denote 0. -/
inductive LeadingInteger : (n : Int) → List Char → Prop
  | unsigned {digits rest : List Char} (run : DigitRun digits rest)
    (sign : (digits ++ rest).head? ≠ some '-') : LeadingInteger (value digits) (digits ++ rest)
  | negative {digits rest : List Char} (run : DigitRun digits rest) :
    LeadingInteger (-value digits) ('-' :: (digits ++ rest))

namespace LeadingInteger

lemma exists_of_text (chars : List Char) : ∃ n, LeadingInteger n chars := by
  by_cases signed : chars.head? = some '-'
  · obtain ⟨rest, rfl⟩ := List.head?_eq_some_iff.1 signed
    have leading := negative (.of_split rest)
    rw [List.takeWhile_append_dropWhile] at leading
    exact ⟨_, leading⟩
  · have leading := unsigned (.of_split chars)
    rw [List.takeWhile_append_dropWhile] at leading
    exact ⟨_, leading signed⟩

/-- An integer stands in front of its own decimal text. -/
lemma of_toString (n : Int) : LeadingInteger n (toString n).toList := by
  have run : DigitRun (Nat.toDigits 10 n.natAbs) [] := ⟨isDigit_of_mem_toDigits, by simp⟩
  rw [toList_toString]
  by_cases sign : n < 0
  · have leading := negative run
    have denoted : -(n.natAbs : Int) = n := by omega
    rw [value_toDigits, denoted, List.append_nil] at leading
    rwa [if_pos sign]
  · have leading := unsigned run
    have denoted : (n.natAbs : Int) = n := by omega
    rw [value_toDigits, denoted, List.append_nil] at leading
    rw [if_neg sign]
    refine leading fun first => ?_
    have digit := isDigit_of_mem_toDigits '-' (List.mem_of_head? first)
    simp at digit

/-- A native reads the integer in front of its argument, wrapped. -/
lemma toInt_leadingInteger {n : Int} {text : String} (leading : LeadingInteger n text.toList) :
    (Arguments.leadingInteger text).toInt = wrap n := by
  unfold Arguments.leadingInteger
  generalize text.toList = chars at leading
  cases leading with
  | unsigned run sign =>
    split
    · next signed => exact absurd (by rw [signed]; rfl) sign
    · rw [run.takeWhile_eq, toInt_toInt64]
  | negative run =>
    simp only [run.takeWhile_eq, Int64.toInt_neg, toInt_toInt64]
    exact Int.bmod_neg_bmod

/-- What a native reads back from a decimal text is the integer itself. -/
lemma leadingInteger_toString (v : Int64) : Arguments.leadingInteger (toString v.toInt) = v := by
  rw [← Int64.toInt_inj, toInt_leadingInteger (of_toString v.toInt), wrap_toInt]

end LeadingInteger
end Digits

lemma Arguments.integer_of_getElem? {args : List String} {index : Nat} {text : String}
    (argument : args[index]? = some text) :
    Arguments.integer args index = .ok (Arguments.leadingInteger text) := by
  simp [Arguments.integer, Arguments.string, argument, bind, Except.bind, pure, Except.pure]

lemma Arguments.integer_of_render {args : List String} {index : Nat} {v : Int64}
    (argument : args[index]? = some (Digits.render v)) : Arguments.integer args index = .ok v := by
  rw [integer_of_getElem? argument, Digits.render_eq, Digits.LeadingInteger.leadingInteger_toString]

namespace Operator

/-- Between numbers, what an operator computes is the decimal text of an integer. -/
lemma apply_of_isNumeric {op : Operator} {l r : String} (left : Digits.isNumeric l)
    (right : Digits.isNumeric r) :
    op.apply l r =
      match op.applyInt (Digits.ofText l) (Digits.ofText r) with
      | some v => .ok (Digits.render v)
      | none => .error (.unsupported op) := by
  cases op <;> simp [apply, isConnective, applyInt, left, right]

lemma connect_eq_ok {op : Operator} {l r result : String} (connected : op.connect l r = .ok result) :
    ∃ b, result = Digits.render (flag b) := by
  unfold connect at connected
  cases first : truth l with
  | error fault => simp [first, bind, Except.bind] at connected
  | ok left =>
    cases second : truth r with
    | error fault => simp [first, second, bind, Except.bind] at connected
    | ok right =>
      simp only [first, second, bind, Except.bind] at connected
      split at connected
      · exact ⟨_, (Except.ok.inj connected).symm⟩
      · exact ⟨_, (Except.ok.inj connected).symm⟩
      · cases connected

end Operator

open Digits

/-- Integers survive in texts.  A native reads back every 64-bit integer from its decimal text.  An
operator takes the text for a number exactly if the integer is not negative, and then reads it back,
too.

So a native reads back what any operator has computed from numbers, and the truth values of the
connectives.  And from a text of any kind it reads the integer in front, wrapped around at 64 bits. -/
theorem integers_survive_in_texts :
    (∀ v : Int64,
      render v = toString v.toInt ∧
      (∀ args index, args[index]? = some (render v) → Arguments.integer args index = .ok v) ∧
      (isNumeric (render v) ↔ 0 ≤ v.toInt) ∧
      (0 ≤ v.toInt → ofText (render v) = v)) ∧
    (∀ (op : Operator) l r result,
      (isNumeric l ∧ isNumeric r ∧ op.apply l r = .ok result →
        ∃ v, op.applyInt (ofText l) (ofText r) = some v ∧
          ∀ args index, args[index]? = some result → Arguments.integer args index = .ok v) ∧
      (op.connect l r = .ok result →
        ∃ b, ∀ args index, args[index]? = some result →
          Arguments.integer args index = .ok (Operator.flag b))) ∧
    ∀ text args index, args[index]? = some text →
      (∃ n, LeadingInteger n text.toList) ∧
      ∀ n, LeadingInteger n text.toList →
        ∃ v, Arguments.integer args index = .ok v ∧ v.toInt = wrap n := by
  refine ⟨fun v => ⟨render_eq v, fun _ _ => Arguments.integer_of_render, ?numeric, ?digits⟩,
    fun op l r result => ⟨?computed, fun connected => ?connected⟩, fun text args index argument =>
    ⟨LeadingInteger.exists_of_text _, fun n leading => ?leading⟩⟩
  case numeric => rw [render_eq, isNumeric_toString]
  case digits => rw [render_eq]; exact ofText_toString
  case computed =>
    rintro ⟨left, right, applied⟩
    rw [Operator.apply_of_isNumeric left right] at applied
    split at applied
    · next v computed =>
      obtain rfl := Except.ok.inj applied
      exact ⟨v, computed, fun _ _ => Arguments.integer_of_render⟩
    · cases applied
  case connected =>
    obtain ⟨b, rfl⟩ := Operator.connect_eq_ok connected
    exact ⟨b, fun _ _ => Arguments.integer_of_render⟩
  case leading =>
    exact ⟨_, Arguments.integer_of_getElem? argument, leading.toInt_leadingInteger⟩

/-- Twice `2 ^ 62` is the least integer, and a native reads it back.  One less, in front of a text, is read
as the greatest integer, which an operator reads back, too. -/
theorem integers_survive_in_texts_least :
    (Operator.apply .multiply "4611686018427387904" "2" = .ok (render Int64.minValue) ∧
      Arguments.integer [render Int64.minValue] 0 = .ok Int64.minValue ∧
      ¬ isNumeric (render Int64.minValue)) ∧
    (∃ v, Arguments.integer ["-9223372036854775809 or so"] 0 = .ok v ∧ v.toInt = 2 ^ 63 - 1) ∧
    ofText (render Int64.maxValue) = Int64.maxValue ∧
    Operator.connect .both "2" "3" = .ok "1" ∧ ∃ b, Arguments.integer ["1"] 0 = .ok (Operator.flag b) := by
  obtain ⟨decimal, computed, leading⟩ := integers_survive_in_texts
  have least : Operator.applyInt .multiply (ofText "4611686018427387904") (ofText "2") =
      some Int64.minValue := by decide +kernel
  have product : Operator.apply .multiply "4611686018427387904" "2" = .ok (render Int64.minValue) := by
    rw [Operator.apply_of_isNumeric (by decide) (by decide), least]
  have connected : Operator.connect .both "2" "3" = .ok "1" := rfl
  have run : DigitRun "9223372036854775809".toList " or so".toList :=
    ⟨List.all_eq_true.1 rfl, by rintro c ⟨⟩; decide⟩
  obtain ⟨v, read, wrapped⟩ :=
    (leading "-9223372036854775809 or so" ["-9223372036854775809 or so"] 0 rfl).2 _ (.negative run)
  obtain ⟨b, truth⟩ := (computed .both "2" "3" "1").2 connected
  refine ⟨⟨product, ?_, mt (decimal Int64.minValue).2.2.1.1 (by decide)⟩,
    ⟨v, read, wrapped.trans (by decide +kernel)⟩, (decimal Int64.maxValue).2.2.2 (by decide),
    connected, b, truth _ 0 rfl⟩
  obtain ⟨v, same, read⟩ := (computed .multiply _ _ _).1 ⟨by decide, by decide, product⟩
  obtain rfl := Option.some.inj (least.symm.trans same)
  exact read _ 0 rfl

end ScriptEngine
