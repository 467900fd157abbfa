import ScriptEngine.Evaluation.Run
import ScriptEngine.Tree

/-!
# Carrying out trees

Every walk over a tree takes a flag that says whether to carry it out.  A walk without the flag
visits the tree but reads, writes, calls and computes nothing, and yields the empty text.  The
branch of an `if` that is not taken is walked that way, and so are the increment and the body of a
loop once before its first round.

How a native is called, and how many rounds a loop may take before it is cut short, is given by an
`Interpreter`.
-/

namespace ScriptEngine

/-- How a statement ended. -/
inductive Flow
  | normal
  /-- A `return` was carried out. -/
  | returned
deriving DecidableEq, Repr, Inhabited

/-- What the walk over a tree depends on besides the tree. -/
structure Interpreter (ν σ : Type) where
  /-- Calls a native by name; the call stands at the span. -/
  invoke : String → List String → Span → Run ν σ String
  /-- The number of rounds after which a loop is cut short. -/
  rounds : Nat

variable {ν σ : Type}

/-! ## Expressions -/

/-- The tier and value of a variable that has to be known. -/
def resolve (name : String) (span : Span) : Run ν σ (Tier × Option String) := fun m =>
  match m.scopes.lookup name with
  | some found => some (.ok found, m)
  | none => Run.fail span (.undefinedVariable name) m

/-- Carries out `name++` or `name--`. -/
def stepVariable (name : String) (op : Operator) (span : Span) : Run ν σ String := do
  let (tier, value) ← resolve name span
  let stepped ← Run.ofOperator span (op.apply (value.getD "") "")
  Run.modify fun m => m.setScopes (m.scopes.bind tier name (some stepped))
  return stepped

mutual

/-- The value of an expression. -/
def Expr.eval (i : Interpreter ν σ) (exec : Bool) : Expr → Run ν σ String
  | .empty _ => pure ""
  | .literal value _ => pure (if exec then value else "")
  | .read name span => do
    if exec then
      let (_, value) ← resolve name span
      return value.getD ""
    else
      return ""
  | .assign name value _ => do
    let value ← value.eval i exec
    Run.onlyIf exec (Run.modify fun m => m.setScopes (m.scopes.assign name value))
    return value
  | .step name op span => if exec then stepVariable name op span else pure ""
  | .chain first rest span => do
    let value ← first.eval i exec
    evalChain i exec span value rest
  | .connect left op right span => do
    let l ← left.eval i exec
    let r ← right.eval i exec
    if exec then Run.ofOperator span (op.connect l r) else return ""
  | .call name args span => do
    let values ← evalAll i exec args
    if exec then i.invoke name values span else return ""
  | .grouping inner _ => inner.eval i exec

/-- The value of a chain at `span` whose operands so far have the value `value`. -/
def evalChain (i : Interpreter ν σ) (exec : Bool) (span : Span) (value : String) :
    List (Operator × Expr) → Run ν σ String
  | [] => pure (if exec then value else "")
  | (op, operand) :: rest => do
    let right ← operand.eval i exec
    let value ← if exec then Run.ofOperator span (op.apply value right) else pure value
    evalChain i exec span value rest

/-- The values of expressions, from left to right. -/
def evalAll (i : Interpreter ν σ) (exec : Bool) : List Expr → Run ν σ (List String)
  | [] => pure []
  | e :: rest => do
    let value ← e.eval i exec
    let values ← evalAll i exec rest
    return value :: values

end

/-- The value of an expression that may be missing; the empty text if it is. -/
def evalOptional (i : Interpreter ν σ) (exec : Bool) : Option Expr → Run ν σ String
  | none => pure ""
  | some e => e.eval i exec

/-! ## Statements -/

/-- Refuses a declarator whose name is already known. -/
def checkUndeclared (d : Declarator) : Run ν σ Unit := fun m =>
  match m.scopes.lookup d.name with
  | some _ => Run.fail d.span (.alreadyDeclared d.name) m
  | none => some (.ok (), m)

/-- Carries out one declarator; returns its value, empty if it has none. -/
def declareOne (i : Interpreter ν σ) (exec : Bool) (d : Declarator) : Run ν σ String := do
  Run.onlyIf exec (checkUndeclared d)
  match d.initializer with
  | none =>
    Run.onlyIf exec (Run.modify fun m => m.setScopes (m.scopes.bindCurrent d.name none))
    return ""
  | some e =>
    let value ← e.eval i exec
    Run.onlyIf exec (Run.modify fun m => m.setScopes (m.scopes.bindCurrent d.name (some value)))
    return value

/-- Carries out declarators in order; returns the value of the last one. -/
def declareAll (i : Interpreter ν σ) (exec : Bool) (last : String) :
    List Declarator → Run ν σ String
  | [] => pure last
  | d :: rest => do
    let value ← declareOne i exec d
    declareAll i exec value rest

/-- Carries out the rounds of a loop whose condition has the value `value`, until the condition ends
it or the body returns. -/
def loopRounds (condition : Run ν σ String) (increment : Run ν σ String) (body : Run ν σ Flow) :
    (rounds : Nat) → (value : String) → Run ν σ Flow
  | 0, value => if continuesLoop value then Run.cutShort else pure .normal
  | rounds + 1, value =>
    if continuesLoop value then do
      match ← body with
      | .returned => return .returned
      | .normal =>
        let _ ← increment
        let value ← condition
        loopRounds condition increment body rounds value
    else
      pure .normal

/-- Starts a statement that begins at `span`: the evaluation has come to its line. -/
def enter (exec : Bool) (span : Span) : Run ν σ Unit :=
  Run.onlyIf exec (Run.modify (Machine.markLine span.line))

/-- Makes the value of a statement the result of the evaluation. -/
def yieldResult (exec : Bool) (value : String) : Run ν σ Unit :=
  Run.onlyIf exec (Run.modify (Machine.setResult value))

mutual

/-- Carries out a statement. -/
def Stmt.run (i : Interpreter ν σ) (exec : Bool) : Stmt → Run ν σ Flow
  | .empty span => do
    enter exec span
    return .normal
  | .expression expr span => do
    enter exec span
    let value ← expr.eval i exec
    yieldResult exec value
    return .normal
  | .block statements span => do
    enter exec span
    runAll i exec statements
  | .choice condition thenBranch elseBranch span => do
    enter exec span
    let value ← condition.eval i exec
    let taken := exec && selectsThen value
    match ← thenBranch.run i taken with
    | .returned => return .returned
    | .normal =>
      match elseBranch with
      | none => return .normal
      | some other => other.run i (exec && !taken)
  | .loop start condition increment body span => do
    enter exec span
    runStart i exec start
    let value ← evalOptional i exec condition
    let _ ← evalOptional i false increment
    let _ ← body.run i false
    if exec then
      loopRounds (evalOptional i true condition) (evalOptional i true increment)
        (body.run i true) i.rounds value
    else
      return .normal
  | .declare declarators span => do
    enter exec span
    let value ← declareAll i exec "" declarators
    yieldResult exec value
    return .normal
  | .giveBack value span => do
    enter exec span
    let value ← evalOptional i exec value
    yieldResult exec value
    return if exec then .returned else .normal

/-- Carries out what stands in front of a loop.  A declaration or an expression there is not entered
as a statement, and it has no result.  Any other statement is carried out as such, but the loop goes
on however it ends, also with a `return`. -/
def runStart (i : Interpreter ν σ) (exec : Bool) : Option Stmt → Run ν σ Unit
  | none => pure ()
  | some (.declare declarators _) => do
    let _ ← declareAll i exec "" declarators
  | some (.expression e _) => do
    let _ ← e.eval i exec
  | some other => do
    let _ ← other.run i exec

/-- Carries out statements in order, up to the first that returns. -/
def runAll (i : Interpreter ν σ) (exec : Bool) : List Stmt → Run ν σ Flow
  | [] => pure .normal
  | s :: rest => do
    match ← s.run i exec with
    | .returned => return .returned
    | .normal => runAll i exec rest

end

end ScriptEngine
