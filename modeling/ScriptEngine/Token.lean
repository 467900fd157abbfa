import ScriptEngine.Operator
import ScriptEngine.Span

/-!
# Tokens

The words and symbols that a script is made of.  A keyword is recognised only where a statement
may start; everywhere else its spelling is an ordinary name.
-/

namespace ScriptEngine

/-- The words that shape statements. -/
inductive Keyword
  | ifWord
  | elseWord
  | varWord
  | forWord
  | returnWord
deriving DecidableEq, Repr, Inhabited

namespace Keyword

def spelling : Keyword → String
  | ifWord => "if"
  | elseWord => "else"
  | varWord => "var"
  | forWord => "for"
  | returnWord => "return"

def all : List Keyword :=
  [ifWord, elseWord, varWord, forWord, returnWord]

/-- The keyword spelled by `text`, if there is one. -/
def ofSpelling? (text : String) : Option Keyword :=
  all.find? (·.spelling == text)

end Keyword

/-- Where the reader of a token stands.  Only at the start of a statement are keywords told apart
from names. -/
inductive TokenContext
  | statement
  | expression
deriving DecidableEq, Repr, Inhabited

inductive TokenKind
  | leftParen
  | rightParen
  | leftBrace
  | rightBrace
  | comma
  | semicolon
  | newline
  | assign
  | operator (op : Operator)
  | name
  /-- A name in front of an opening parenthesis. -/
  | callName
  /-- A number or a quoted text. -/
  | literal
  | keyword (word : Keyword)
  | endOfInput
deriving DecidableEq, Repr, Inhabited

namespace TokenKind

/-- A token of this kind can begin an operand. -/
def startsOperand : TokenKind → Bool
  | literal | name | callName | leftParen => true
  | _ => false

/-- A token of this kind can begin an expression: an operand, or an operator whose left operand is
missing. -/
def startsExpression : TokenKind → Bool
  | operator _ => true
  | kind => kind.startsOperand

/-- A token of this kind ends a statement. -/
def endsStatement : TokenKind → Bool
  | semicolon | newline | endOfInput | rightBrace => true
  | _ => false

end TokenKind

/-- How a message names a token. -/
inductive Found
  | endOfInput
  | newline
  | lexeme (text : String)
deriving DecidableEq, Repr, Inhabited

namespace Found

def describe : Found → String
  | endOfInput => "end of input"
  | newline => "newline"
  | lexeme text => "'" ++ text ++ "'"

end Found

/-- A token read from a script.  The lexeme is the text that was read, except for a name, which
loses its backslashes, and for a quoted text, whose escapes are decoded. -/
structure Token where
  kind : TokenKind
  lexeme : String
  span : Span
deriving DecidableEq, Repr, Inhabited

namespace Token

def found (token : Token) : Found :=
  match token.kind with
  | .endOfInput => .endOfInput
  | .newline => .newline
  | _ => .lexeme token.lexeme

end Token
end ScriptEngine
