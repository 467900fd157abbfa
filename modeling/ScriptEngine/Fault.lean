import ScriptEngine.Fault.Lexical
import ScriptEngine.Fault.Grammar
import ScriptEngine.Fault.Runtime

/-!
# Script errors

A script error is a cause and the span of the script that it concerns.  The phase in which it
arose, its message and its help text follow from the cause.
-/

namespace ScriptEngine

/-- The phase of a script's processing in which an error arises. -/
inductive Phase
  | lexical
  | grammar
  | runtime
deriving DecidableEq, Repr, Inhabited

inductive Fault
  | lexical (fault : LexicalFault)
  | grammar (fault : GrammarFault)
  | runtime (fault : RuntimeFault)
  /-- An error stated by the host in its own words. -/
  | stated (phase : Phase) (message : String) (help : Option String)
deriving DecidableEq, Repr, Inhabited

namespace Fault

def phase : Fault → Phase
  | lexical _ => .lexical
  | grammar _ => .grammar
  | runtime _ => .runtime
  | stated phase _ _ => phase

def message : Fault → String
  | lexical fault => fault.message
  | grammar fault => fault.message
  | runtime fault => fault.message
  | stated _ message _ => message

def help : Fault → Option String
  | lexical _ => none
  | grammar fault => fault.help
  | runtime fault => fault.help
  | stated _ _ help => help

end Fault

@[ext] structure ScriptError where
  fault : Fault
  span : Span
deriving DecidableEq, Repr, Inhabited

namespace ScriptError

/-- The line on which the error's span starts. -/
def line (e : ScriptError) : Nat :=
  e.span.line

def message (e : ScriptError) : String :=
  e.fault.message

def help (e : ScriptError) : Option String :=
  e.fault.help

end ScriptError
end ScriptEngine
