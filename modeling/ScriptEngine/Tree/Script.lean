import ScriptEngine.Token.Lexer
import ScriptEngine.Tree.Statement

/-!
# Scripts

A script is its top-level statements up to the first error.  Each statement is carried out before an
error behind it is raised, so both belong to what the script means.
-/

namespace ScriptEngine

/-- What reading a whole script yields. -/
structure Script where
  /-- The top-level statements, each with the line on which reading went on. -/
  statements : List (Stmt × Nat)
  /-- The error that ended the reading, if one did. -/
  error : Option ScriptError
  /-- The line on which reading ended. -/
  line : Nat
deriving Repr, Inhabited

namespace Script

variable {τ : Type} [TokenStream τ]

/-- Reads on in a script of which the statements `before`, latest first, have been read. -/
def readWithin : (budget : Nat) → (before : List (Stmt × Nat)) → Parser τ → Script
  | 0, before, p => ⟨before.reverse, none, p.line⟩
  | budget + 1, before, p =>
    match Parse.topLevel nestingLimit p with
    | .ok (some stmt) p => readWithin budget ((stmt, p.line) :: before) p
    | .ok none p => ⟨before.reverse, none, p.line⟩
    | .error e p => ⟨before.reverse, some e, p.line⟩

/-- Reads the statements of a token stream. -/
def ofStream (tokens : τ) : Script :=
  let p := Parser.ofStream tokens
  readWithin p.budget [] p

/-- Reads a script. -/
def ofText (text : String) : Script :=
  ofStream (Lexer.ofScript text)

end Script
end ScriptEngine
