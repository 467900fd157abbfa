/-!
# Lines of a text

A line ends with a line feed, or with a carriage return and a line feed.  The last line need not end
so, and an empty last line is none.
-/

namespace ScriptEngine
namespace Line

/-- A line's characters, last first, without the carriage return in front of its line feed. -/
def dropReturn : List Char → List Char
  | '\r' :: rest => rest
  | chars => chars

/-- The lines of a text of which `before`, last character first, has been read of the current
line. -/
def splitFrom (before : List Char) : List Char → List (List Char)
  | [] => if before.isEmpty then [] else [before.reverse]
  | c :: rest =>
    if c = '\n' then (dropReturn before).reverse :: splitFrom [] rest
    else splitFrom (c :: before) rest

/-- The lines of a text, without their ends. -/
def split (chars : List Char) : List (List Char) :=
  splitFrom [] chars

/-- The text of a line, counted from 1; empty if there is no such line. -/
def textOf (line : Nat) (text : String) : String :=
  String.ofList ((split text.toList).getD (line - 1) [])

end Line

end ScriptEngine
