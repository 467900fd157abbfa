import ScriptEngine.Fault
import ScriptEngine.Variable.Scopes

/-!
# Natives

A native is a function of the host that scripts can call.  It gets the values of its arguments and
works by asking the engine that calls it, one request after the other; each answer decides what it
asks next.  In the end it is done or gives up with a message.

What a native asks is data, so that statements about natives of all kinds, or of one kind only, can
be made by looking at their requests.  `ν` is the type of the natives that a host provides and `σ`
the type of the state that it keeps for them.
-/

namespace ScriptEngine

/-- Misuse of an engine by the host, as opposed to a fault in a script. -/
inductive EngineError
  | badHandle (handle : Nat)
  | busy (handle : Nat)
  | block (fault : BlockFault)
  | script (error : ScriptError)
deriving DecidableEq, Repr, Inhabited

namespace EngineError

def message : EngineError → String
  | badHandle handle => "Bad handle " ++ toString handle
  | busy handle =>
    "engine " ++ toString handle ++
      " is already evaluating; use the engine passed to the callback"
  | block fault => fault.message
  | script error => error.message

end EngineError

/-- What the host attaches to an engine for its natives to find. -/
inductive UserData
  | text (value : String)
  | integer (value : Int64)
deriving DecidableEq, Repr, Inhabited

/-- What a native can ask of the engine that calls it.  Statements about all natives are about those
that do no more than this.  Left out is what else a host could do while one of its natives runs: take a
name out of the global table or look past an open block into it, call a native that it has looked up,
change the user data, carry out a tree that it has built itself, open and close engines of the registry,
or put another engine in the place of the one it was given. -/
inductive Request (ν σ : Type)
  | result
  | setResult (text : String)
  /-- The text of the last failure. -/
  | lastDiagnostic
  | lineNumber
  | scopeDepth
  | lookup (name : String)
  | bindCurrent (name : String) (value : Option String)
  | bindGlobal (name : String) (value : Option String)
  | globalNames
  | register (name : String) (native : ν)
  /-- Forgets a native; says whether there was one. -/
  | unregister (name : String)
  | functionNames
  | userData
  | openBlock
  | closeBlock (id : Nat)
  | evaluate (script : String)
  | evaluateBlock (script : String)
  /-- Evaluates on another engine of the registry. -/
  | evaluateOn (handle : Nat) (script : String)
  | print (text : String)
  | hostState
  | setHostState (state : σ)

/-- The type of the answer to a request. -/
abbrev Request.Answer {ν σ : Type} : Request ν σ → Type
  | .result => String
  | .lastDiagnostic => Option String
  | .lineNumber | .scopeDepth | .openBlock => Nat
  | .lookup _ => Option (Tier × Option String)
  | .globalNames | .functionNames => List String
  | .unregister _ => Bool
  | .userData => Option UserData
  | .closeBlock _ => Except BlockFault Unit
  | .evaluate _ | .evaluateBlock _ => Except ScriptError String
  | .evaluateOn _ _ => Except EngineError String
  | .hostState => σ
  | .setResult _ | .bindCurrent _ _ | .bindGlobal _ _ | .register _ _ | .print _
  | .setHostState _ => Unit

/-- What a native does when it is called. -/
inductive Callback (ν σ α : Type)
  | done (value : α)
  | fail (message : String)
  | ask (request : Request ν σ) (next : request.Answer → Callback ν σ α)

namespace Callback

variable {ν σ α β : Type}

protected def bind : Callback ν σ α → (α → Callback ν σ β) → Callback ν σ β
  | done a, f => f a
  | fail message, _ => fail message
  | ask request next, f => ask request fun answer => (next answer).bind f

instance : Monad (Callback ν σ) where
  pure := done
  bind := Callback.bind

/-- Asks one thing and returns the answer. -/
def request (r : Request ν σ) : Callback ν σ r.Answer :=
  ask r done

def setResult (text : String) : Callback ν σ Unit :=
  request (.setResult text)

/-- Goes on with a result, or gives up with the message of a fault. -/
def orFail {ε : Type} (message : ε → String) : Except ε α → Callback ν σ α
  | .ok a => done a
  | .error e => fail (message e)

end Callback

/-- A host: what each of its natives does with the arguments it is called with. -/
abbrev Host (ν σ : Type) := ν → List String → Callback ν σ Unit

/-- The natives that scripts can call, by name. -/
abbrev FunctionTable (ν : Type) := Std.ExtTreeMap String ν

end ScriptEngine
