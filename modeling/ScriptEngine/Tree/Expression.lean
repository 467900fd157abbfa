import ScriptEngine.Tree.Parser

/-!
# Reading expressions

An expression is a chain of operands and operators, or such a chain, a connective and another
expression.  Parentheses, arguments, assigned values and right sides of connectives are expressions
of their own, one level deeper.  The functions below take the reader of those deeper expressions as
an argument; `Parse.expression` ties the knot for as many levels as there is room.
-/

namespace ScriptEngine
namespace Parse

variable {τ : Type} [TokenStream τ]

/-- Reads the arguments of a call behind the opening parenthesis, up to the closing one. -/
def argumentsWithin (expression : Parse τ Expr) :
    (budget : Nat) → (before : List Expr) → Parse τ (List Expr × Token)
  | 0, _ => failHere .stalled
  | budget + 1, before => do
    let argument ← expression
    let token ← next .expression
    match token.kind with
    | .comma => argumentsWithin expression budget (argument :: before)
    | .rightParen => return ((argument :: before).reverse, token)
    | _ => fail token.span (.symbolExpected .argumentsClose token.found)

/-- Reads the rest of a call whose name has just been read. -/
def call (expression : Parse τ Expr) (callee : Token) : Parse τ Expr := do
  let _ ← expect .callOpen
  let token ← next .expression
  if token.kind = .rightParen then
    return .call callee.lexeme [] (callee.span.through token.span)
  else
    pushBack token
    let (args, close) ← argumentsWithin expression (← get).budget []
    return .call callee.lexeme args (callee.span.through close.span)

/-- Reads what a name that has just been read begins: an assignment, a step, or only itself. -/
def named (expression : Parse τ Expr) (name : Token) : Parse τ Expr := do
  let token ← next .expression
  match token.kind with
  | .assign =>
    if (← peekKind).startsExpression then
      let value ← expression
      return .assign name.lexeme value (name.span.through value.span)
    else
      fail token.span (.valueExpected name.lexeme)
  | .operator .increment => return .step name.lexeme .increment (name.span.through token.span)
  | .operator .decrement => return .step name.lexeme .decrement (name.span.through token.span)
  | _ =>
    pushBack token
    return .read name.lexeme name.span

/-- Reads an operand. -/
def operand (expression : Parse τ Expr) : Parse τ Expr := do
  let token ← next .expression
  match token.kind with
  | .literal => return .literal token.lexeme token.span
  | .name => named expression token
  | .callName => call expression token
  | .leftParen =>
    let inner ← expression
    let close ← expect .groupClose
    return .grouping inner (token.span.through close.span)
  | _ => fail token.span (.expressionExpected token.found)

/-- Reads the operand that has to follow an operator. -/
def operandAfter (expression : Parse τ Expr) (operator : Token) : Parse τ Expr := do
  if (← peekKind).startsOperand then
    operand expression
  else
    let token ← next .expression
    fail token.span (.operandExpected operator.lexeme token.found)

/-- Reads the operand behind an operator; behind a step there need not be one. -/
def rightOperand (expression : Parse τ Expr) (op : Operator) (operator : Token) :
    Parse τ Expr := do
  if op.isStep then
    if (← peekKind).startsOperand then
      operandAfter expression operator
    else
      return .empty (.empty operator.span.stop operator.span.line)
  else
    operandAfter expression operator

/-- Reads on in a chain of which `first` and, latest first, `before` have been read.  `last` is the
span of what was read last. -/
def chainWithin (expression : Parse τ Expr) (first : Expr) :
    (budget : Nat) → (before : List (Operator × Expr)) → (last : Span) → Parse τ Expr
  | 0, _, _ => failHere .stalled
  | budget + 1, before, last => do
    let token ← next .expression
    match token.kind with
    | .operator op =>
      if op.isConnective then
        if (← peekKind).startsExpression then
          let right ← expression
          let left := Expr.join first before.reverse last
          return .connect left op right (left.span.through right.span)
        else
          fail token.span (.connectiveOperandExpected token.lexeme)
      else
        let right ← rightOperand expression op token
        chainWithin expression first budget ((op, right) :: before) right.span
    | _ =>
      pushBack token
      return .join first before.reverse last

/-- Reads the operand that an expression begins with; in front of an operator it is missing. -/
def firstOperand (expression : Parse τ Expr) : Parse τ Expr := do
  let token ← next .expression
  pushBack token
  match token.kind with
  | .operator _ => return .empty (.empty token.span.start token.span.line)
  | _ => operand expression

/-- Reads an expression whose parts are read by `expression`. -/
def expressionBody (expression : Parse τ Expr) : Parse τ Expr := do
  let first ← firstOperand expression
  chainWithin expression first (← get).budget [] first.span

/-- Reads an expression that nests at most `room` levels deep. -/
def expression : (room : Nat) → Parse τ Expr
  | 0 => failHere .tooDeep
  | room + 1 => expressionBody (expression room)

end Parse
end ScriptEngine
