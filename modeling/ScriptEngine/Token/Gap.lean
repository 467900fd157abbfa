/-!
# Gaps between tokens

Between tokens stand spaces, tabs, carriage returns and comments.  A `//` comment runs up to the
next line feed, which is a token of its own; a `/*` comment runs to the first `*/`.  A `/*` comment
that is never closed does not belong to the gap: the gap ends in front of it.
-/

namespace ScriptEngine
namespace Gap

/-- A character that separates tokens and nothing else. -/
def isBlank (c : Char) : Bool :=
  c == ' ' || c == '\t' || c == '\r'

/-- What part of a gap is being read. -/
inductive Mode
  | between
  | lineComment
  /-- Inside a comment that opened after `opened` characters of the gap. -/
  | blockComment (opened : Nat)

/-- The length of the gap whose first `read` characters have been read.  The first `skip` of the
characters to come are the second half of a comment sign that has been recognised. -/
def lengthFrom (mode : Mode) (skip read : Nat) : List Char → Nat
  | [] =>
    match mode with
    | .blockComment opened => opened
    | _ => read
  | c :: rest =>
    match skip, mode with
    | skip + 1, mode => lengthFrom mode skip (read + 1) rest
    | 0, .between =>
      if isBlank c then lengthFrom .between 0 (read + 1) rest
      else if c = '/' ∧ rest.head? = some '/' then lengthFrom .lineComment 1 (read + 1) rest
      else if c = '/' ∧ rest.head? = some '*' then lengthFrom (.blockComment read) 1 (read + 1) rest
      else read
    | 0, .lineComment => if c = '\n' then read else lengthFrom .lineComment 0 (read + 1) rest
    | 0, .blockComment opened =>
      if c = '*' ∧ rest.head? = some '/' then lengthFrom .between 1 (read + 1) rest
      else lengthFrom (.blockComment opened) 0 (read + 1) rest

/-- The length of the gap at the front of `chars`. -/
def length (chars : List Char) : Nat :=
  lengthFrom .between 0 0 chars

end Gap
end ScriptEngine
