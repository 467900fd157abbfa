import ScriptEngine.Operator
import ScriptEngine.Integer.Digits

/-!
# Applying operators

Every value is a text.  Two digit strings are taken as 64-bit integers, whose arithmetic wraps
around; as soon as one operand is anything else both are texts, which can be joined and compared
but not computed with.  The connectives have a rule of their own and accept only digit strings.
-/

namespace ScriptEngine

/-- Why an operator cannot be applied. -/
inductive OperatorFault
  /-- The operator computes with numbers and an operand is not one. -/
  | nonNumeric (op : Operator)
  /-- The operator does not belong to this kind of expression. -/
  | unsupported (op : Operator)
  /-- An operand of a connective is empty or not a number. -/
  | nonNumericCondition (operand : String)
deriving DecidableEq, Repr, Inhabited

namespace OperatorFault

def message : OperatorFault → String
  | nonNumeric op => "Bad operator '" ++ op.symbol ++ "' for non-numeric operands"
  | unsupported op => "Bad operator '" ++ op.symbol ++ "'"
  | nonNumericCondition operand => "Conditional must be numeric, got '" ++ operand ++ "'"

end OperatorFault

namespace Operator

/-- A truth value as a number. -/
def flag (b : Bool) : Int64 :=
  if b then 1 else 0

/-- What the operator computes from two 64-bit integers; `none` for the connectives.  Dividing by
zero gives zero, and only the low six bits of a shift's right operand count. -/
def applyInt (op : Operator) (l r : Int64) : Option Int64 :=
  match op with
  | plus => some (l + r)
  | minus => some (l - r)
  | multiply => some (l * r)
  | divide => some (if r = 0 then 0 else l / r)
  | modulo => some (if r = 0 then 0 else l % r)
  | shiftLeft => some (l <<< r)
  | shiftRight => some (l >>> r)
  | equal => some (flag (l == r))
  | notEqual => some (flag (l != r))
  | less => some (flag (l < r))
  | lessEqual => some (flag (l ≤ r))
  | greater => some (flag (r < l))
  | greaterEqual => some (flag (r ≤ l))
  | complement => some (flag (r == 0))
  | increment => some (l + 1)
  | decrement => some (l - 1)
  | both | either => none

/-- How the operator compares two texts by the order of their characters; `none` if it does not
compare. -/
def compareText (op : Operator) (l r : String) : Option Bool :=
  match op with
  | equal => some (l == r)
  | notEqual => some (l != r)
  | less => some (l < r)
  | lessEqual => some (!decide (r < l))
  | greater => some (r < l)
  | greaterEqual => some (!decide (l < r))
  | _ => none

/-- The value of `l op r`. -/
def apply (op : Operator) (l r : String) : Except OperatorFault String :=
  if op.isConnective then
    .error (.unsupported op)
  else if Digits.isNumeric l && Digits.isNumeric r then
    match op.applyInt (Digits.ofText l) (Digits.ofText r) with
    | some n => .ok (Digits.render n)
    | none => .error (.unsupported op)
  else if op = plus then
    .ok (l ++ r)
  else
    match op.compareText l r with
    | some b => .ok (Digits.render (flag b))
    | none => .error (.nonNumeric op)

/-- A connective reads its operand as a truth value: any number but zero is true. -/
def truth (operand : String) : Except OperatorFault Bool :=
  if operand.isEmpty || !Digits.isNumeric operand then
    .error (.nonNumericCondition operand)
  else
    .ok (Digits.ofText operand != 0)

/-- The value of `l && r` or `l || r`.  Both operands are looked at, the left one first. -/
def connect (op : Operator) (l r : String) : Except OperatorFault String := do
  let left ← truth l
  let right ← truth r
  match op with
  | both => .ok (Digits.render (flag (left && right)))
  | either => .ok (Digits.render (flag (left || right)))
  | _ => .error (.unsupported op)

end Operator

/-- An `if` takes its first branch when the condition's text starts with `1`. -/
def selectsThen (condition : String) : Bool :=
  condition.toList.head? == some '1'

/-- A loop goes on while its condition's text does not start with `0`. -/
def continuesLoop (condition : String) : Bool :=
  condition.toList.head? != some '0'

end ScriptEngine
