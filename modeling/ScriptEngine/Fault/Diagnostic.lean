import ScriptEngine.Fault
import ScriptEngine.Text.Line

/-!
# Diagnostics

The plain text that an engine keeps of its last failure: the message, the line, and what that line
of the script says.
-/

namespace ScriptEngine
namespace ScriptError

/-- The diagnostic of an error in `script`. -/
def diagnostic (script : String) (e : ScriptError) : String :=
  e.message ++ "\n At line " ++ toString e.line ++ ", line => \n\n" ++
    Line.textOf e.line script ++ "\n"

end ScriptError
end ScriptEngine
