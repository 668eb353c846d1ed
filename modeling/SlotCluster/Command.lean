import SlotCluster.Resp.Value
import SlotCluster.Text.UpperCase

/-!
# Commands

A command is its name in upper case and its arguments, which are any bytes.  The
name tells where the keys stand among the arguments, and that is all that
routing needs to know about a command.
-/

namespace SlotCluster

/-- Where the keys stand among the arguments of a command. -/
inductive KeyLayout where
  /-- There is no key. -/
  | keyless
  /-- The first argument is the key. -/
  | single
  /-- The first of every `step` arguments is a key. -/
  | multi (step : Nat)
  deriving DecidableEq, Repr

/-- Why a command is refused. -/
inductive CommandError where
  | emptyCommand
  | wrongArity (name : String)
  | invalidArgument
  | invalidFormat
  deriving DecidableEq, Repr

namespace CommandError

def message : CommandError -> String
  | .emptyCommand => "Empty command"
  | .wrongArity name => "wrong number of arguments for '" ++ name ++ "' command"
  | .invalidArgument => "Invalid argument type"
  | .invalidFormat => "Command must be an array"

def display (e : CommandError) : String :=
  "ERR " ++ e.message

end CommandError

/-- A request. -/
structure Command where
  name : String
  args : List Bytes
  deriving DecidableEq, Repr, Inhabited

namespace Command

def keylessNames : List String :=
  ["AUTH", "BGREWRITEAOF", "BGSAVE", "CLIENT", "CLUSTER", "COMMAND", "CONFIG",
    "DBSIZE", "DISCARD", "ECHO", "EXEC", "FLUSHALL", "FLUSHDB", "HELLO", "INFO",
    "KEYS", "LASTSAVE", "MULTI", "PING", "PUBLISH", "QUIT", "RANDOMKEY",
    "READONLY", "READWRITE", "SAVE", "SCAN", "SCRIPT", "SELECT", "TIME",
    "UNWATCH", "WAIT", "WATCH"]

def keyListNames : List String :=
  ["DEL", "EXISTS", "MGET", "TOUCH", "UNLINK"]

def keyValueNames : List String :=
  ["MSET", "MSETNX"]

def make (name : String) (args : List Bytes) : Command :=
  ⟨Text.upperCase name, args⟩

def keyLayout (c : Command) : KeyLayout :=
  if c.args.isEmpty || c.name ∈ keylessNames then .keyless
  else if c.name ∈ keyListNames then .multi 1
  else if c.name ∈ keyValueNames then .multi 2
  else .single

def everyNth {α : Type} (step : Nat) (items : List α) : List α :=
  match items with
  | [] => []
  | first :: rest => first :: everyNth step (rest.drop (step - 1))
termination_by items.length
decreasing_by
  simp only [List.length_drop, List.length_cons]
  omega

def keys (c : Command) : List Bytes :=
  match c.keyLayout with
  | .keyless => []
  | .single => c.args.take 1
  | .multi step => everyNth step c.args

def firstKey? (c : Command) : Option Bytes :=
  match c.keyLayout with
  | .keyless => none
  | _ => c.args.head?

def checkArity (c : Command) : Except CommandError Unit :=
  match c.keyLayout with
  | .multi step =>
      if c.args.length % step = 0 then .ok () else .error (.wrongArity c.name)
  | _ => .ok ()

/-- The key at a position with what belongs to it, if it is complete. -/
def keyGroup (step : Nat) (args : List Bytes) (position : Nat) : List Bytes :=
  if position * step + step ≤ args.length then
    (args.drop (position * step)).take step
  else
    []

/-- The command with only some of its keys, each with what belongs to it.
Commands with at most one key stay as they are. -/
def selectKeyGroups (c : Command) (positions : List Nat) : Command :=
  match c.keyLayout with
  | .multi step => ⟨c.name, positions.flatMap (keyGroup step c.args)⟩
  | _ => c

def toValue (c : Command) : Resp.Value :=
  .array (.bulkText c.name :: c.args.map (fun arg => .bulk (some arg)))

def ofArgs : List Bytes -> Except CommandError Command
  | [] => .error .emptyCommand
  | name :: args =>
      let c := make (Utf8.decodeLossy name) args
      match c.checkArity with
      | .error e => .error e
      | .ok () => .ok c

def argument? : Resp.Value -> Option Bytes
  | .bulk (some content) => some content
  | .simple text => some text
  | .integer n => some (Resp.Value.asciiBytes (Decimal.signedDigits n.toInt))
  | _ => none

def ofValue : Resp.Value -> Except CommandError Command
  | .array items =>
      match items.mapM argument? with
      | some args => ofArgs args
      | none => .error .invalidArgument
  | _ => .error .invalidFormat

end Command
end SlotCluster
