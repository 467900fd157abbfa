import ScriptEngine.Native.Console
import ScriptEngine.Text.Quoted

/-!
# Probes

Natives with which a script can look into the engine that runs it and make it do what a host does:
read and set variables, open and close blocks, evaluate further scripts, and keep a log.
-/

namespace ScriptEngine

inductive Probe
  | noop
  | fail
  | join
  | note
  | peek
  | tick
  | line
  | depth
  | eval
  | attempt
  | block
  | get
  | set
  | setLocal
  | setGlobal
  | lastError
  | scan
  | sum
  | count
  | define
  | undefine
  | openBlock
  | closeBlock
  | other
  | context
  | variableNames
  | functionNames
deriving DecidableEq, Repr, Inhabited

namespace Probe

def all : List Probe :=
  [noop, fail, join, note, peek, tick, line, depth, eval, attempt, block, get, set, setLocal,
    setGlobal, lastError, scan, sum, count, define, undefine, openBlock, closeBlock, other, context,
    variableNames, functionNames]

/-- The name under which scripts call the probe. -/
def name : Probe → String
  | noop => "noop"
  | fail => "fail"
  | join => "join"
  | note => "note"
  | peek => "peek"
  | tick => "tick"
  | line => "line"
  | depth => "depth"
  | eval => "eval"
  | attempt => "try"
  | block => "block"
  | get => "get"
  | set => "set"
  | setLocal => "setlocal"
  | setGlobal => "setglobal"
  | lastError => "lasterror"
  | scan => "scan"
  | sum => "sum"
  | count => "count"
  | define => "def"
  | undefine => "undef"
  | openBlock => "open"
  | closeBlock => "close"
  | other => "other"
  | context => "context"
  | variableNames => "vars"
  | functionNames => "funcs"

def ofName? (text : String) : Option Probe :=
  all.find? (·.name == text)

end Probe

/-- The natives of a session: those of the console, and the probes. -/
inductive SessionNative
  | console (native : ConsoleNative)
  | probe (probe : Probe)
deriving DecidableEq, Repr, Inhabited

/-- What the probes of a session share. -/
structure Notebook where
  /-- The log, its last entry first. -/
  log : List String := []
  ticks : Nat := 0
  /-- The numbers of all blocks that were opened by hand. -/
  blocks : List Nat := []
deriving Repr, Inhabited

namespace Notebook

def note (text : String) (n : Notebook) : Notebook :=
  { n with log := text :: n.log }

def noteBlock (id : Nat) (n : Notebook) : Notebook :=
  { n with blocks := id :: n.blocks }

/-- The block that a text names, among those that were opened by hand. -/
def block? (text : String) (n : Notebook) : Option Nat :=
  n.blocks.find? (toString · == text)

end Notebook

namespace SessionNative

def all : List SessionNative :=
  ConsoleNative.all.map console ++ Probe.all.map probe

def name : SessionNative → String
  | console native => native.name
  | probe p => p.name

end SessionNative

namespace Probe

/-- What a probe does in a session. -/
abbrev Action := Callback SessionNative Notebook

/-- The argument at `index`; a missing one reads as the empty text. -/
def argument (args : List String) (index : Nat) : String :=
  args[index]?.getD ""

def notebook : Action Notebook :=
  .request .hostState

def updateNotebook (f : Notebook → Notebook) : Action Unit := do
  let n ← notebook
  .request (.setHostState (f n))

def tierName : Tier → String
  | .block => "Local"
  | .global => "Global"

/-- How `get` tells what it found. -/
def showLookup : Option (Tier × Option String) → String
  | none => "none"
  | some (tier, none) => tierName tier
  | some (tier, some value) => tierName tier ++ ":" ++ value

def showArgument : Argument → String
  | .text value => "\x7b\"s\":" ++ Quoted.encode .json value ++ "\x7d"
  | .integer value => "\x7b\"d\":\"" ++ Digits.render value ++ "\"\x7d"

/-- Arguments as compact JSON. -/
def showArguments (values : List Argument) : String :=
  "[" ++ ",".intercalate (values.map showArgument) ++ "]"

/-- The sum of all arguments read as integers. -/
def total (args : List String) : Int64 :=
  args.foldl (fun n text => n + Arguments.leadingInteger text) 0

/-- What a probe does. -/
def call (probe : Probe) (args : List String) : Action Unit :=
  match probe with
  | noop => .done ()
  | fail => .fail (" ".intercalate args)
  | join => .setResult (toString args.length ++ ":" ++ "|".intercalate args)
  | note => updateNotebook (.note (",".intercalate args))
  | peek => do
    let result ← .request .result
    updateNotebook (.note result)
  | tick => do
    let n ← notebook
    .request (.setHostState { n with ticks := n.ticks + 1 })
    .setResult (toString (n.ticks + 1))
  | line => do .setResult (toString (← .request .lineNumber))
  | depth => do .setResult (toString (← .request .scopeDepth))
  | eval => do
    let outcome ← .request (.evaluate (argument args 0))
    .setResult (← .orFail ScriptError.message outcome)
  | attempt => do
    match ← .request (.evaluate (argument args 0)) with
    | .ok value => .setResult ("ok:" ++ value)
    | .error e => .setResult ("err:" ++ e.message)
  | block => do
    let outcome ← .request (.evaluateBlock (argument args 0))
    .setResult (← .orFail ScriptError.message outcome)
  | get => do .setResult (showLookup (← .request (.lookup (argument args 0))))
  | set | setLocal => .request (.bindCurrent (argument args 0) args[1]?)
  | setGlobal => .request (.bindGlobal (argument args 0) args[1]?)
  | lastError => do
    let diagnostic ← .request .lastDiagnostic
    .setResult (diagnostic.getD "none")
  | scan => do
    let format ← .orFail ArgumentFault.message (Arguments.string args 0)
    let values ← .orFail ArgumentFault.message (Arguments.scan format args.tail)
    .setResult (showArguments values)
  | sum => .setResult (Digits.render (total args))
  | count => do
    let n ← .orFail ArgumentFault.message (Arguments.integer args 0)
    .orFail ArgumentFault.message (Arguments.expectCount n.toInt.toNat args.tail)
    .setResult "counted"
  | define =>
    match ofName? (argument args 1) with
    | some kind => .request (.register (argument args 0) (.probe kind))
    | none => .fail "no such kind"
  | undefine => do
    let known ← .request (.unregister (argument args 0))
    .setResult (if known then "1" else "0")
  | openBlock => do
    let id ← .request .openBlock
    updateNotebook (.noteBlock id)
    .setResult (toString id)
  | closeBlock => do
    let n ← notebook
    match n.block? (argument args 0) with
    | none => .fail "no such block"
    | some id =>
      let outcome ← .request (.closeBlock id)
      .orFail BlockFault.message outcome
  | other => do
    let handle := (Arguments.leadingInteger (argument args 0)).toUInt64.toNat
    let outcome ← .request (.evaluateOn handle (argument args 1))
    .setResult (← .orFail EngineError.message outcome)
  | context => do
    match ← .request .userData with
    | some (.text value) => .setResult value
    | _ => .fail "no user data"
  | variableNames => do
    let names ← .request .globalNames
    .setResult (",".intercalate names)
  | functionNames => do
    let names ← .request .functionNames
    .setResult (",".intercalate names)

end Probe

namespace SessionNative

/-- The host of a session. -/
def host : Host SessionNative Notebook
  | console native, args => native.call args
  | probe p, args => p.call args

end SessionNative
end ScriptEngine
