/-!
# Operators

Every operator that a script can write.  Three classes matter to the grammar: the steps `++` and
`--`, the connectives `&&` and `||`, and all the others, which join the operands of a chain.
-/

namespace ScriptEngine

/-- An operator of the script language. -/
inductive Operator
  | plus
  | minus
  | multiply
  | divide
  | modulo
  | shiftLeft
  | shiftRight
  | equal
  | notEqual
  | less
  | lessEqual
  | greater
  | greaterEqual
  /-- Written `!` in front of its operand; a left operand is ignored. -/
  | complement
  /-- Between two operands, one more than the left one. -/
  | increment
  /-- Between two operands, one less than the left one. -/
  | decrement
  | both
  | either
deriving DecidableEq, Repr, Inhabited

namespace Operator

/-- The characters that write the operator. -/
def symbol : Operator → String
  | plus => "+"
  | minus => "-"
  | multiply => "*"
  | divide => "/"
  | modulo => "%"
  | shiftLeft => "<<"
  | shiftRight => ">>"
  | equal => "=="
  | notEqual => "!="
  | less => "<"
  | lessEqual => "<="
  | greater => ">"
  | greaterEqual => ">="
  | complement => "!"
  | increment => "++"
  | decrement => "--"
  | both => "&&"
  | either => "||"

/-- Every operator, in the order in which they are declared. -/
def all : List Operator :=
  [plus, minus, multiply, divide, modulo, shiftLeft, shiftRight, equal, notEqual, less, lessEqual,
    greater, greaterEqual, complement, increment, decrement, both, either]

theorem mem_all (op : Operator) : op ∈ all := by
  cases op <;> decide

/-- The operator written by `text`, if there is one. -/
def ofSymbol? (text : String) : Option Operator :=
  all.find? (·.symbol == text)

/-- `++` and `--` may stand without a right operand. -/
def isStep : Operator → Bool
  | increment | decrement => true
  | _ => false

/-- `&&` and `||` take the whole rest of an expression as their right operand. -/
def isConnective : Operator → Bool
  | both | either => true
  | _ => false

end Operator
end ScriptEngine
