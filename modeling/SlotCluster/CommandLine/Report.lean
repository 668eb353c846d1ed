import SlotCluster.Error
import SlotCluster.Topology.Table

/-!
# What the command line prints

Nodes are printed one on a line, in the order of addresses, and replies in a
form for people: lists are numbered, and lists within lists are indented.
-/

namespace SlotCluster
namespace CommandLine

/-- The end of a run. -/
structure Report where
  exitCode : Nat
  output : String := ""
  /-- What went wrong. -/
  complaint : String := ""
  deriving DecidableEq, Repr

/-! ## Replies -/

mutual

def renderReply (indent : Nat) : Resp.Value -> String
  | .simple text => Utf8.decodeLossy text
  | .error text => "(error) " ++ Utf8.decodeLossy text
  | .integer n => "(integer) " ++ toString n.toInt
  | .bulk (some content) => "\"" ++ Utf8.decodeLossy content ++ "\""
  | .bulk none => "(nil)"
  | .null => "(nil)"
  | .array [] => "(empty array)"
  | .array items => Text.joinTexts "\n" (renderItems indent 1 items)

def renderItems (indent number : Nat) : List Resp.Value -> List String
  | [] => []
  | item :: rest =>
      (String.ofList (List.replicate indent ' ') ++ toString number ++ ") " ++
        renderReply (indent + 3) item) :: renderItems indent (number + 1) rest

end

def renderAnswer (id : String) : Except ClusterError Resp.Value -> String
  | .ok reply => id ++ ": " ++ renderReply 0 reply
  | .error e => id ++ ": (failed) " ++ e.message

/-! ## Nodes -/

def renderNode (n : Node) : String :=
  Text.joinTexts " "
    [n.id, n.endpoint.addr, n.flagText, n.masterId.getD "-",
      Text.joinTexts " " (n.slots.map (fun r => String.ofList r.render))]

def renderTable (t : Table) : List String :=
  t.orderedNodes.map renderNode ++
    if t.isComplete then []
    else ["# " ++ toString t.unassigned ++ " slots unassigned"]

/-! ## Failures -/

/-- Why a run fails. -/
inductive Failure where
  | seed (error : TopologyError)
  /-- The configuration in a file cannot be used. -/
  | file (path : String) (error : ConfigError)
  | noSeeds
  | command (error : CommandError)
  | cluster (error : ClusterError)
  deriving Repr

/-- What has caused an error, if it has come from another one. -/
def causeOf : ClusterError -> Option String
  | .invalidCommand error => some error.display
  | .topology error => some error.message
  | .protocol error => some error.message
  | .config error => some error.message
  | _ => none

/-- A text of several lines, each of which but the first is indented by four
columns. -/
def indentLines (text : String) : String :=
  Text.joinTexts "\n    " ((Text.splitAll '\n' text.toList).map String.ofList)

/-- An error and its cause, which stands in a column of its own. -/
def renderCause (message : String) (cause : Option String) : String :=
  "Error: " ++ message ++
    match cause with
    | some cause => "\n\nCaused by:\n    " ++ indentLines cause ++ "\n"
    | none => "\n"

def Failure.render : Failure -> String
  | seed error => renderCause error.message none
  | file path error =>
      renderCause ("loading configuration from " ++ Text.quoted path)
        (some error.message)
  | noSeeds =>
      renderCause "no seed nodes given, use --seed host:port or a config file"
        none
  | command error => renderCause error.display none
  | cluster error => renderCause error.message (causeOf error)

/-- The report of a run that has failed after printing some lines. -/
def Failure.report (f : Failure) (lines : List String) : Report :=
  { exitCode := 1
    output := String.join (lines.map (fun l => l ++ "\n"))
    complaint := f.render }

def success (lines : List String) : Report :=
  { exitCode := 0, output := String.join (lines.map (fun l => l ++ "\n")) }

end CommandLine
end SlotCluster
