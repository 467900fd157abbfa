import ScriptEngine.Tree.Expression

/-!
# Reading statements

A statement is attempted at the next token that is no newline.  A comma, an `else` or a closing
brace there is left for the enclosing construct and makes an empty statement.  As with expressions,
the readers of the statements and expressions one level deeper are arguments, and `Parse.statement`
ties the knot.
-/

namespace ScriptEngine
namespace Parse

variable {τ : Type} [TokenStream τ]

/-- Reads the end of a statement: a semicolon or a newline.  The end of the input and a closing
brace will do as well, and are left where they are. -/
def terminator (after : Terminated) : Parse τ Unit := do
  let token ← next .expression
  match token.kind with
  | .semicolon | .newline => return
  | .endOfInput | .rightBrace => pushBack token
  | _ => fail token.span (.terminatorExpected after token.found)

/-- Reads one declarator. -/
def declarator (expression : Parse τ Expr) : Parse τ Declarator := do
  let name ← next .expression
  if name.kind = .name then
    let token ← next .expression
    if token.kind = .assign then
      let value ← expression
      return ⟨name.lexeme, some value, name.span.through value.span⟩
    else
      pushBack token
      return ⟨name.lexeme, none, name.span.through name.span⟩
  else
    fail name.span (.nameExpected name.found)

/-- Reads declarators separated by commas, of which there is at least one. -/
def declaratorsWithin (expression : Parse τ Expr) :
    (budget : Nat) → (before : List Declarator) → Parse τ (List Declarator)
  | 0, _ => failHere .stalled
  | budget + 1, before => do
    let one ← declarator expression
    let token ← next .expression
    if token.kind = .comma then
      declaratorsWithin expression budget (one :: before)
    else
      pushBack token
      return (one :: before).reverse

/-- Reads the declarators behind a `var` at `start`, without the end of the statement. -/
def declaration (expression : Parse τ Expr) (start : Span) :
    Parse τ (List Declarator × Span) := do
  let declarators ← declaratorsWithin expression (← get).budget []
  let last := declarators.getLast?.elim start Declarator.span
  return (declarators, start.through last)

/-- Reads statements up to the brace that closes a block. -/
def blockWithin (statement : Parse τ Stmt) (start : Span) :
    (budget : Nat) → (before : List Stmt) → Parse τ Stmt
  | 0, _ => failHere .stalled
  | budget + 1, before => do
    let token ← skipNewlines .statement
    match token.kind with
    | .rightBrace => return .block before.reverse (start.through token.span)
    | .endOfInput => fail token.span .blockUnclosed
    | _ =>
      pushBack token
      let one ← statement
      blockWithin statement start budget (one :: before)

/-- Reads the `else` branch of an `if`, if there is one.  It may stand behind newlines; without it,
the tokens are left as they were. -/
def elseBranch (statement : Parse τ Stmt) : Parse τ (Option Stmt) := do
  let before := (← get).tokens
  let token ← skipNewlines .statement
  if token.kind = .keyword .elseWord then
    return some (← statement)
  else
    modify fun p => { p with tokens := TokenStream.restore before p.tokens }
    return none

/-- Reads an `if` statement behind its keyword. -/
def choice (statement : Parse τ Stmt) (expression : Parse τ Expr) (start : Span) :
    Parse τ Stmt := do
  let _ ← expect .ifOpen
  let condition ← expression
  let _ ← expect .ifClose
  let thenBranch ← statement
  match ← elseBranch statement with
  | some other => return .choice condition thenBranch (some other) (start.through other.span)
  | none => return .choice condition thenBranch none (start.through thenBranch.span)

/-- Reads the first clause of a loop.  This is the one place besides the start of a statement where
`var` is a keyword. -/
def loopStart (expression : Parse τ Expr) : Parse τ (Option Stmt) := do
  let token ← next .statement
  match token.kind with
  | .semicolon =>
    pushBack token
    return none
  | .keyword .varWord =>
    let (declarators, span) ← declaration expression token.span
    return some (.declare declarators span)
  | _ =>
    pushBack token
    let expr ← expression
    return some (.expression expr expr.span)

/-- Reads an expression, unless the symbol that has to follow it comes at once. -/
def optionalExpression (expression : Parse τ Expr) (closer : TokenKind) :
    Parse τ (Option Expr) := do
  if (← peekKind) = closer then return none else return some (← expression)

/-- Reads a `for` statement behind its keyword. -/
def loop (statement : Parse τ Stmt) (expression : Parse τ Expr) (start : Span) :
    Parse τ Stmt := do
  let _ ← expect .forOpen
  let first ← loopStart expression
  let _ ← expect .initializerEnd
  let condition ← optionalExpression expression .semicolon
  let _ ← expect .conditionEnd
  let increment ← optionalExpression expression .rightParen
  let _ ← expect .forClose
  let body ← statement
  return .loop first condition increment body (start.through body.span)

/-- Reads a `return` statement behind its keyword. -/
def giveBack (expression : Parse τ Expr) (start : Span) : Parse τ Stmt := do
  if (← peekKind).endsStatement then
    terminator .giveBack
    return .giveBack none start
  else
    let value ← expression
    terminator .giveBack
    return .giveBack (some value) (start.through value.span)

def expressionStatement (expression : Parse τ Expr) : Parse τ Stmt := do
  let expr ← expression
  terminator .expression
  return .expression expr expr.span

/-- Reads a statement whose parts are read by `statement` and `expression`. -/
def statementBody (statement : Parse τ Stmt) (expression : Parse τ Expr) : Parse τ Stmt := do
  attempt
  let token ← skipNewlines .statement
  match token.kind with
  | .semicolon => return .empty token.span
  | .leftBrace => blockWithin statement token.span (← get).budget []
  | .keyword .ifWord => choice statement expression token.span
  | .keyword .forWord => loop statement expression token.span
  | .keyword .varWord =>
    let (declarators, span) ← declaration expression token.span
    terminator .declaration
    return .declare declarators span
  | .keyword .returnWord => giveBack expression token.span
  | .comma | .rightBrace | .keyword .elseWord =>
    pushBack token
    return .empty token.span
  | .endOfInput => fail token.span .statementMissing
  | .rightParen => fail token.span (.expressionExpected token.found)
  | _ =>
    pushBack token
    expressionStatement expression

/-- Reads a statement that nests at most `room` levels deep. -/
def statement : (room : Nat) → Parse τ Stmt
  | 0 => failHere .tooDeep
  | room + 1 => statementBody (statement room) (expression room)

/-- Reads the next top-level statement, or nothing at the end of the input. -/
def topLevel (room : Nat) : Parse τ (Option Stmt) := do
  let token ← skipNewlines .statement
  if token.kind = .endOfInput then
    return none
  else
    pushBack token
    return some (← statement room)

end Parse
end ScriptEngine
