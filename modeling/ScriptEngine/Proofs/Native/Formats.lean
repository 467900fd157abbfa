import Mathlib.Tactic.Lemma
import ScriptEngine.Native.Arguments

/-!
# Formats

A format is passed over character by character, and the arguments are taken one by one as its specs come
up.  Of the format only the specs matter (`Arguments.specs`), and of those only as many as there are
arguments: the first of them that converts nothing is the error, and without one the values are the specs
applied to the arguments, as far as both go (`Arguments.scanChars_eq`).

`Arguments.scanFrom` does the same and asks for every argument by its number, which could fail.
-/

namespace ScriptEngine
namespace Arguments

/-! ## Specs -/

/-- A spec of a format: the character behind a `%`, if the format does not end there. -/
inductive Spec
  | letter (c : Char)
  | unfinished
deriving DecidableEq, Repr

namespace Spec

/-- Why the spec converts no argument; `none` for `%s` and `%d`. -/
def fault? : Spec → Option ArgumentFault
  | letter 's' | letter 'd' => none
  | letter other => some (.unsupportedSpec other)
  | unfinished => some .unfinishedSpec

/-- What the spec makes of an argument, if it converts one. -/
def value : Spec → String → Argument
  | letter 'd', text => .integer (leadingInteger text)
  | _, text => .text text

/-- The spec converts the argument at `index` to `value`: `%s` to its text and `%d` to its integer. -/
inductive Converts (args : List String) (index : Nat) : Spec → Argument → Prop
  | text {text : String} (read : string args index = .ok text) :
    Converts args index (letter 's') (.text text)
  | integer {n : Int64} (read : integer args index = .ok n) :
    Converts args index (letter 'd') (.integer n)

lemma fault?_eq_none {spec : Spec} : spec.fault? = none ↔ spec = letter 's' ∨ spec = letter 'd' := by
  unfold fault?
  split <;> simp_all

end Spec

/-- The specs of a format from left to right.  The character behind a `%` opens no spec of its own. -/
def specs : List Char → List Spec
  | [] => []
  | c :: behind =>
    if c = '%' then
      match behind with
      | [] => [.unfinished]
      | letter :: format => .letter letter :: specs format
    else
      specs behind

lemma specs_cons_of_ne {c : Char} (plain : c ≠ '%') (format : List Char) :
    specs (c :: format) = specs format := by
  rw [specs.eq_def]
  exact if_neg plain

/-- A format that is complete goes on with the specs of what follows. -/
lemma specs_append {front : List Char} (complete : .unfinished ∉ specs front) (behind : List Char) :
    specs (front ++ behind) = specs front ++ specs behind := by
  fun_induction specs front with
  | case1 => rfl
  | case2 => simp at complete
  | case3 letter format ih =>
    rw [List.cons_append, List.cons_append, specs, if_pos rfl]
    simp only [ih (by simpa using complete), List.cons_append]
  | case4 c format plain ih => rw [List.cons_append, specs_cons_of_ne plain, ih complete]

/-! ## Scanning -/

lemma scanChars_cons_of_ne {c : Char} (plain : c ≠ '%') (format : List Char) (args : List String) :
    scanChars (c :: format) args = scanChars format args := by
  cases args with
  | nil => rw [scanChars, scanChars]
  | cons text rest => rw [scanChars] <;> simp [plain]

lemma readSpec_eq (c : Char) (text : String) :
    readSpec c text =
      match (Spec.letter c).fault? with
      | some fault => .error fault
      | none => .ok ((Spec.letter c).value text) := by
  unfold readSpec
  split
  · rfl
  · rfl
  · next other noText noInteger =>
    have fault : (Spec.letter c).fault? = some (.unsupportedSpec c) := by
      simp [Spec.fault?]
    rw [fault]

/-- The specs of a format that are reached when there are `count` arguments. -/
def reached (format : List Char) (count : Nat) : List Spec :=
  (specs format).take count

/-- Scanning applies the specs that are reached to the arguments, unless one of them converts nothing. -/
lemma scanChars_eq (format : List Char) (args : List String) :
    scanChars format args =
      match (reached format args.length).findSome? Spec.fault? with
      | some fault => .error fault
      | none => .ok (List.zipWith Spec.value (reached format args.length) args) := by
  unfold reached
  fun_induction specs format generalizing args with
  | case1 => cases args <;> rfl
  | case2 => cases args <;> rfl
  | case3 c format ih =>
    cases args with
    | nil => rw [scanChars]; rfl
    | cons text rest =>
      rw [scanChars, readSpec_eq, List.length_cons, List.take_succ_cons, List.findSome?_cons]
      cases fault : (Spec.letter c).fault? with
      | some fault => rfl
      | none =>
        simp only [ih]
        cases ((specs format).take rest.length).findSome? Spec.fault? <;> rfl
  | case4 c format plain ih => rw [scanChars_cons_of_ne plain, ih]

/-- Reads on by a format when `values` have been read, and asks for each argument by its number. -/
def scanFrom (args : List String) (values : List Argument) (format : List Char) :
    Except ArgumentFault (List Argument) :=
  if values.length < args.length then
    match format with
    | [] => .ok values
    | '%' :: behind =>
      match behind with
      | [] => .error .unfinishedSpec
      | 's' :: format => do
        let text ← string args values.length
        scanFrom args (values ++ [.text text]) format
      | 'd' :: format => do
        let n ← integer args values.length
        scanFrom args (values ++ [.integer n]) format
      | other :: _ => .error (.unsupportedSpec other)
    | _ :: format => scanFrom args values format
  else
    .ok values

lemma string_of_lt {args : List String} {index : Nat} (h : index < args.length) :
    string args index = .ok args[index] := by
  simp only [string, List.getElem?_eq_getElem h]

lemma integer_of_lt {args : List String} {index : Nat} (h : index < args.length) :
    integer args index = .ok (leadingInteger args[index]) := by
  rw [integer, string_of_lt h]
  rfl

/-- A spec that converts its argument is done with, and its value comes behind those before it. -/
lemma map_scanChars_spec {c : Char} {text : String} {first : Argument}
    (read : readSpec c text = .ok first) (values : List Argument) (format : List Char)
    (rest : List String) :
    (scanChars ('%' :: c :: format) (text :: rest)).map (values ++ ·) =
      (scanChars format rest).map (values ++ [first] ++ ·) := by
  rw [scanChars, read]
  cases scanChars format rest with
  | error fault => rfl
  | ok others => exact congrArg Except.ok (List.append_cons values first others)

/-- Asked for by its number, no argument is missing. -/
lemma scanFrom_eq (args : List String) (values : List Argument) (format : List Char) :
    scanFrom args values format =
      (scanChars format (args.drop values.length)).map (values ++ ·) := by
  fun_induction scanFrom args values format with
  | case1 values left =>
    rw [List.drop_eq_getElem_cons left, scanChars, Except.map, List.append_nil]
  | case2 values left =>
    rw [List.drop_eq_getElem_cons left, scanChars]
    rfl
  | case3 values left format ih =>
    rw [string_of_lt left, List.drop_eq_getElem_cons left, map_scanChars_spec rfl]
    have onward := ih args[values.length]
    rwa [List.length_append, List.length_singleton] at onward
  | case4 values left format ih =>
    rw [integer_of_lt left, List.drop_eq_getElem_cons left, map_scanChars_spec rfl]
    have onward := ih (leadingInteger args[values.length])
    rwa [List.length_append, List.length_singleton] at onward
  | case5 values left other format noText noInteger =>
    rw [List.drop_eq_getElem_cons left, scanChars, readSpec]
    · rfl
    · exact noText
    · exact noInteger
  | case6 values left c format plain ih => rw [scanChars_cons_of_ne plain, ih]
  | case7 format values spent =>
    rw [List.drop_eq_nil_of_le (Nat.le_of_not_lt spent), scanChars, Except.map, List.append_nil]

/-- The values are the specs applied to the arguments, one by one. -/
lemma converts_of_getElem? {args : List String} {specs : List Spec}
    (converting : ∀ spec ∈ specs, spec = .letter 's' ∨ spec = .letter 'd') {index : Nat}
    {value : Argument} (entry : (List.zipWith Spec.value specs args)[index]? = some value) :
    ∃ spec : Spec, specs[index]? = some spec ∧ spec.Converts args index value := by
  obtain ⟨spec, text, spec_at, text_at, rfl⟩ := List.getElem?_zipWith_eq_some.1 entry
  obtain ⟨inside, rfl⟩ := List.getElem?_eq_some_iff.1 text_at
  refine ⟨spec, spec_at, ?_⟩
  obtain rfl | rfl := converting spec (List.mem_of_getElem? spec_at)
  · exact .text (string_of_lt inside)
  · exact .integer (integer_of_lt inside)

/-- Scanning fails with the first fault among the specs that are reached, and with no other. -/
lemma scanChars_eq_error {format : List Char} {args : List String} {fault : ArgumentFault} :
    scanChars format args = .error fault ↔
      (reached format args.length).findSome? Spec.fault? = some fault := by
  rw [scanChars_eq]
  split
  · next first found => rw [found, Except.error.injEq, Option.some.injEq]
  · next noFault => simp [noFault]

lemma Spec.fault?_ne_missing (spec : Spec) (number : Nat) : spec.fault? ≠ some (.missing number) := by
  unfold fault?
  split <;> simp

end Arguments

open Arguments in
/-- Scanning converts as many arguments as there are, or as there are specs, whichever are fewer.  Only as
many specs as there are arguments are reached.

If all of these are `%s` or `%d`, the values are the texts and the integers of the first arguments.
Otherwise the first of them that is neither is the error, be it another letter or a `%` at the end of the
format.  Whatever stands behind as many complete specs as there are arguments makes no difference.  And
although every argument could be asked for by its number, none is ever missing. -/
theorem scan_converts_shorter (format : String) (args : List String) :
    ((∀ spec ∈ reached format.toList args.length, spec = .letter 's' ∨ spec = .letter 'd') →
      ∃ values, scan format args = .ok values ∧
        values.length = min (specs format.toList).length args.length ∧
        ∀ index value, values[index]? = some value →
          ∃ spec : Spec, (reached format.toList args.length)[index]? = some spec ∧
            spec.Converts args index value) ∧
    (∀ before spec behind fault, reached format.toList args.length = before ++ spec :: behind →
      (∀ spec ∈ before, spec = .letter 's' ∨ spec = .letter 'd') → spec.fault? = some fault →
      scan format args = .error fault) ∧
    (∀ front behind : String, format = front ++ behind → .unfinished ∉ specs front.toList →
      args.length ≤ (specs front.toList).length → scan format args = scan front args) ∧
    scanFrom args [] format.toList = scan format args ∧
    ∀ number, scan format args ≠ .error (.missing number) := by
  refine ⟨fun converting => ?values, fun before spec behind fault parts converting found => ?fault,
    fun front behind parts complete enough => ?ignored, ?asked, fun number failed => ?missing⟩
  case values =>
    have noFault : (reached format.toList args.length).findSome? Spec.fault? = none :=
      List.findSome?_eq_none_iff.2 fun spec mem => Spec.fault?_eq_none.2 (converting spec mem)
    have read : scan format args = _ := scanChars_eq format.toList args
    rw [noFault] at read
    refine ⟨_, read, ?_, fun index value entry => converts_of_getElem? converting entry⟩
    rw [List.length_zipWith, reached, List.length_take]
    omega
  case fault =>
    refine scanChars_eq_error.2 (List.findSome?_eq_some_iff.2 ?_)
    exact ⟨before, spec, behind, parts, found, fun spec mem => Spec.fault?_eq_none.2 (converting spec mem)⟩
  case ignored =>
    have same : reached format.toList args.length = reached front.toList args.length := by
      rw [reached, parts, String.toList_append, specs_append complete,
        List.take_append_of_le_length enough, reached]
    rw [scan, scan, scanChars_eq, scanChars_eq, same]
  case asked =>
    rw [scanFrom_eq, List.length_nil, List.drop_zero, scan]
    cases scanChars format.toList args <;> rfl
  case missing =>
    obtain ⟨spec, -, found⟩ := List.exists_of_findSome?_eq_some (scanChars_eq_error.1 failed)
    exact spec.fault?_ne_missing number found

open Arguments in
/-- Of the specs of `%s: %d%% %`, the first two convert; behind them come one with the letter `%` and one
without a letter.  So two arguments are read, and three are too many. -/
theorem scan_converts_shorter_percent :
    (∃ values, scan "%s: %d%% %" ["pears", "12 or so"] = .ok values ∧ values.length = 2 ∧
      ∀ index value, values[index]? = some value →
        ∃ spec : Spec, [Spec.letter 's', .letter 'd'][index]? = some spec ∧
          spec.Converts ["pears", "12 or so"] index value) ∧
    scan "%s: %d%% %" ["pears", "12 or so", "3"] = .error (.unsupportedSpec '%') ∧
    scan "%s: %d%% %" ["pears", "12 or so"] = scan "%s: %d" ["pears", "12 or so"] := by
  have all : specs "%s: %d%% %".toList = [.letter 's', .letter 'd', .letter '%', .unfinished] := by
    simp [specs]
  have front : specs "%s: %d".toList = [.letter 's', .letter 'd'] := by simp [specs]
  have two : reached "%s: %d%% %".toList 2 = [.letter 's', .letter 'd'] := by rw [reached, all]; rfl
  have three : reached "%s: %d%% %".toList 3 = [.letter 's', .letter 'd'] ++ .letter '%' :: [] := by
    rw [reached, all]
    rfl
  obtain ⟨values, -, ignored, -⟩ := scan_converts_shorter "%s: %d%% %" ["pears", "12 or so"]
  obtain ⟨-, fault, -⟩ := scan_converts_shorter "%s: %d%% %" ["pears", "12 or so", "3"]
  rw [List.length_cons, List.length_singleton, two, all] at values
  refine ⟨values (by decide), ?_, ignored "%s: %d" "%% %" (by decide) ?_ ?_⟩
  · exact fault _ _ _ _ three (by decide) rfl
  · rw [front]
    decide
  · rw [front]
    decide

end ScriptEngine
