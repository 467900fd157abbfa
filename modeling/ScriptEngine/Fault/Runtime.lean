import ScriptEngine.Operator.Apply

/-!
# Runtime faults

Why a statement that was read cannot be carried out.
-/

namespace ScriptEngine

inductive RuntimeFault
  | alreadyDeclared (name : String)
  | undefinedVariable (name : String)
  | undefinedProcedure (name : String)
  | operator (fault : OperatorFault)
  /-- A native gave up with a message of its own. -/
  | native (message : String)
deriving DecidableEq, Repr, Inhabited

namespace RuntimeFault

def message : RuntimeFault → String
  | alreadyDeclared _ => "Variable already declared"
  | undefinedVariable name => "Undefined variable " ++ name
  | undefinedProcedure name => "Undefined procedure " ++ name
  | operator fault => fault.message
  | native message => message

def help : RuntimeFault → Option String
  | alreadyDeclared name => some ("'" ++ name ++ "' is already defined in this scope or globally.")
  | undefinedVariable name => some ("Declare it first with 'var " ++ name ++ "'.")
  | undefinedProcedure _ => some "Only functions registered by the host can be called."
  | operator _ | native _ => none

end RuntimeFault
end ScriptEngine
