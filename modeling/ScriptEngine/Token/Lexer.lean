import ScriptEngine.Text.Cursor
import ScriptEngine.Token.Lexeme
import ScriptEngine.Token.Stream

/-!
# The lexer

Reads a script token by token.  One token can be handed back, and is then read again just as it was,
whatever context the next read asks for.  A snapshot restored makes the lexer read the same again.
-/

namespace ScriptEngine

/-- A script being read, and the token that was handed back, if any. -/
@[ext] structure Lexer where
  cursor : Cursor
  pending : Option Token := none

namespace Lexer

/-- A lexer at the start of `script`. -/
def ofScript (script : String) : Lexer :=
  { cursor := .start script.toList }

/-- The cursor in front of the next token, behind the gap. -/
def atToken (c : Cursor) : Cursor :=
  c.advance (Gap.length c.ahead)

/-- The token that a lexeme at `start` is. -/
def place (start : Cursor) (x : Lexeme) : Token :=
  ⟨x.kind, String.ofList x.text, ⟨start.position, start.position + x.width, start.line⟩⟩

/-- The error that failing to read a token at `start` is. -/
def misplace (start : Cursor) (m : Misread) : ScriptError :=
  ⟨.lexical m.fault, ⟨start.position + m.offset, start.position + m.read, start.line⟩⟩

/-- Reads the next token, or returns the one handed back. -/
def next (context : TokenContext) (l : Lexer) : Except ScriptError Token × Lexer :=
  match l.pending with
  | some token => (.ok token, { l with pending := none })
  | none =>
    let start := atToken l.cursor
    match Lexeme.ofChars context start.ahead with
    | .ok x => (.ok (place start x), ⟨start.advance x.read, none⟩)
    | .error m => (.error (misplace start m), ⟨start.advance m.read, none⟩)

/-- Hands back a token, in place of any that was handed back before. -/
def pushBack (token : Token) (l : Lexer) : Lexer :=
  { l with pending := some token }

/-- Where the next token starts if it was handed back, and else where reading goes on. -/
def position (l : Lexer) : Nat :=
  match l.pending with
  | some token => token.span.start
  | none => l.cursor.position

def line (l : Lexer) : Nat :=
  match l.pending with
  | some token => token.span.line
  | none => l.cursor.line

/-- What a lexer has to remember in order to read on from where it is. -/
structure Snapshot where
  mark : Mark
  pending : Option Token
deriving DecidableEq, Repr

def save (l : Lexer) : Snapshot :=
  ⟨l.cursor.mark, l.pending⟩

def restore (s : Snapshot) (l : Lexer) : Lexer :=
  ⟨l.cursor.moveTo s.mark, s.pending⟩

@[simp] theorem restore_save {l now : Lexer} (h : now.cursor.text = l.cursor.text) :
    now.restore l.save = l := by
  ext1
  · exact Cursor.ext h rfl rfl
  · rfl

instance : TokenStream Lexer where
  next := next
  pushBack := pushBack
  restore before now := now.restore before.save
  position := position
  line := line
  remaining l := l.cursor.ahead.length + l.pending.toList.length

/-- Reads tokens in one context until the input ends or an error occurs: the tokens, the error if
there was one, and the lexer afterwards.  At most `limit` tokens are read. -/
def tokensFrom (context : TokenContext) :
    Nat → List Token → Lexer → List Token × Option ScriptError × Lexer
  | 0, read, l => (read.reverse, none, l)
  | limit + 1, read, l =>
    match l.next context with
    | (.error e, l) => (read.reverse, some e, l)
    | (.ok token, l) =>
      if token.kind = .endOfInput then ((token :: read).reverse, none, l)
      else tokensFrom context limit (token :: read) l

/-- All the tokens of a script, read in one context, up to the end or to the first error. -/
def tokens (context : TokenContext) (script : String) : List Token × Option ScriptError × Lexer :=
  tokensFrom context (script.length + 1) [] (ofScript script)

end Lexer
end ScriptEngine
