import ScriptEngine.Token

/-!
# Grammar faults

Why the tokens of a script do not form a statement.  Each fault has a message and most have a help
text that says what a correct script looks like.
-/

namespace ScriptEngine

/-- How deeply statements and expressions may nest in one top-level statement. -/
def nestingLimit : Nat := 64

/-- The places where the grammar asks for one particular symbol. -/
inductive Place
  | ifOpen
  | ifClose
  | forOpen
  | initializerEnd
  | conditionEnd
  | forClose
  | groupClose
  | callOpen
  | argumentsClose
deriving DecidableEq, Repr, Inhabited

namespace Place

/-- The symbol that the grammar asks for. -/
def kind : Place → TokenKind
  | ifOpen | forOpen | callOpen => .leftParen
  | initializerEnd | conditionEnd => .semicolon
  | ifClose | forClose | groupClose | argumentsClose => .rightParen

def message : Place → String
  | ifOpen => "Expected '(' after 'if'"
  | ifClose => "Expected ')' after if condition"
  | forOpen => "Expected '(' after 'for'"
  | initializerEnd => "Expected ';' after loop initializer"
  | conditionEnd => "Expected ';' after loop condition"
  | forClose => "Expected ')' after for clauses"
  | groupClose => "Expected ')' after expression"
  | callOpen => "Expected '(' after function name"
  | argumentsClose => "Expected ')' after arguments"

def help : Place → Option String
  | ifOpen =>
    some "If statements require parentheses around the condition: if (condition) statement"
  | ifClose =>
    some "If conditions must be enclosed in parentheses: if (condition) statement"
  | groupClose =>
    some "Every opening parenthesis '(' must have a matching closing parenthesis ')'."
  | argumentsClose =>
    some ("Function calls must be closed with ')' after the arguments. " ++
      "Example: func(arg1, arg2)")
  | _ => none

end Place

/-- The statements that end with a semicolon or a line break. -/
inductive Terminated
  | declaration
  | giveBack
  | expression
deriving DecidableEq, Repr, Inhabited

namespace Terminated

def word : Terminated → String
  | declaration => "declaration"
  | giveBack => "return"
  | expression => "expression"

end Terminated

inductive GrammarFault
  /-- Statements were attempted over and over without reading anything. -/
  | stalled
  | tooDeep
  /-- The script ends where a statement has to follow. -/
  | statementMissing
  | blockUnclosed
  | expressionExpected (found : Found)
  | operandExpected (operator : String) (found : Found)
  /-- Nothing that can begin an expression follows a connective. -/
  | connectiveOperandExpected (connective : String)
  /-- Nothing that can begin an expression follows `name =`. -/
  | valueExpected (name : String)
  /-- A declaration lacks its name. -/
  | nameExpected (found : Found)
  | terminatorExpected (after : Terminated) (found : Found)
  | symbolExpected (place : Place) (found : Found)
deriving DecidableEq, Repr, Inhabited

namespace GrammarFault

def message : GrammarFault → String
  | stalled => "Syntax error"
  | tooDeep => "Nesting too deep"
  | statementMissing => "Expected statement, found end of input"
  | blockUnclosed => "Expected '\x7d' after block"
  | expressionExpected found => "Expected expression, found " ++ found.describe
  | operandExpected operator found =>
    "Expected expression after '" ++ operator ++ "', found " ++ found.describe
  | connectiveOperandExpected connective => "Expected expression after '" ++ connective ++ "'"
  | valueExpected name => "Expected expression after '" ++ name ++ " ='"
  | nameExpected found => "Expected variable name, found " ++ found.describe
  | terminatorExpected after found =>
    "Expected ';' or newline after " ++ after.word ++ ", found " ++ found.describe
  | symbolExpected place found => place.message ++ ", found " ++ found.describe

/-- What to do about a token that cannot begin an expression. -/
def expressionHelp : Found → String
  | .lexeme ")" => "Found ')' without matching '('. Check for unbalanced parentheses."
  | .lexeme "\x7d" => "Found '\x7d' without matching '\x7b'. Check for unbalanced braces."
  | .endOfInput => "Reached end of input while expecting an expression."
  | _ => "Expected a literal, variable, function call or parenthesized expression here."

def help : GrammarFault → Option String
  | stalled => some "This token cannot start a statement here."
  | tooDeep =>
    some ("Statements, parentheses and logical operators nest at most " ++
      toString nestingLimit ++ " levels.")
  | statementMissing => some "A statement is missing after 'if', 'else' or a loop header."
  | blockUnclosed =>
    some "Block statements must be closed with '\x7d' after the opening '\x7b'."
  | expressionExpected found => some (expressionHelp found)
  | operandExpected _ _ =>
    some "Operators like '+' and '<' require expressions on both sides."
  | connectiveOperandExpected _ =>
    some "Logical operators like '&&' and '||' require expressions on both sides."
  | valueExpected _ => some "Assignments look like: name = expression"
  | nameExpected _ => some "Declarations look like: var x, y = 1"
  | terminatorExpected _ _ => some "Statements end with ';' or a line break."
  | symbolExpected place _ => place.help

end GrammarFault
end ScriptEngine
