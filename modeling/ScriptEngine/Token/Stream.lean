import ScriptEngine.Fault

/-!
# Token streams

What a parser needs of the tokens it reads: the next one, a way to hand back one that it looked at,
and a way back to where it was.  The parser is written against this interface, so that it can be run
on the tokens of a script and on tokens from elsewhere.
-/

namespace ScriptEngine

/-- A source of tokens.  A stream goes on after an error: reading returns the stream either way. -/
class TokenStream (τ : Type) where
  /-- Reads the next token. -/
  next : TokenContext → τ → Except ScriptError Token × τ
  /-- Hands back a token, to be read next. -/
  pushBack : Token → τ → τ
  /-- Goes back from a later state to an earlier one. -/
  restore : (before now : τ) → τ
  /-- Where the next token starts, or where reading goes on. -/
  position : τ → Nat
  /-- The line of that place. -/
  line : τ → Nat
  /-- At most this many tokens can still be read before the input ends. -/
  remaining : τ → Nat

end ScriptEngine
