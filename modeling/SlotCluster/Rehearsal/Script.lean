import SlotCluster.Error
import SlotCluster.Topology.Node

/-!
# Scripted nodes

A rehearsal runs a client against nodes that follow a script.  A script says
what a node reports as its view, how long it takes to answer, which password it
wants, and what it replies to each command.

Replies to a command are taken from a list; the last one stays and is repeated.
Commands without a list have a usual reply.
-/

namespace SlotCluster
namespace Rehearsal

/-- One scripted reaction to a command. -/
inductive Reaction where
  | reply (value : Resp.Value)
  /-- There is never a reply. -/
  | hang
  /-- The exchange fails. -/
  | fail (reason : String)
  /-- The exchange fails and the connection is gone. -/
  | drop (reason : String)
  /-- A reply, or the usual one, after some time. -/
  | delay (millis : Nat) (value : Option Resp.Value)

/-- What a node does. -/
structure Script where
  view : Option (List Node) := none
  viewDelay : Nat := 0
  viewHangs : Bool := false
  isUnreachable : Bool := false
  /-- Why the node cannot be reached when it is unreachable. -/
  obstacle : String := "connection refused"
  connectDelay : Nat := 0
  connectHangs : Bool := false
  password : Option String := none
  /-- Why every handshake fails, if it does. -/
  handshakeFailure : Option String := none
  replies : List (String × List Reaction) := []

namespace Script

def offline : Script :=
  { isUnreachable := true, obstacle := "Network is unreachable (os error 101)" }

def takeReaction (s : Script) (name : String) : Option Reaction × Script :=
  match s.replies.find? (fun r => r.1 = name) with
  | some (_, reaction :: next :: later) =>
      (some reaction,
        { s with
          replies :=
            s.replies.map
              (fun r => if r.1 = name then (name, next :: later) else r) })
  | some (_, [reaction]) => (some reaction, s)
  | _ => (none, s)

def usualReply (address : String) (c : Command) : Resp.Value :=
  match c.name with
  | "PING" => .simple (Utf8.encode "PONG")
  | "MGET" =>
      .array (c.args.map
        (fun key => .bulk (some (Utf8.encode (address ++ "/") ++ key))))
  | "DEL" | "UNLINK" | "EXISTS" | "TOUCH" =>
      .integer (Int64.ofNat c.args.length)
  | "SET" | "MSET" => .ok
  | "MSETNX" => .integer 1
  | _ => .bulkText address

end Script

/-- One thing that a node has noticed. -/
inductive Notice where
  | view (address : String)
  | connect (address : String)
  | command (address name : String) (args : List Bytes)
  | auth (address password : String)
  | close (address : String)
  deriving DecidableEq, Repr

end Rehearsal
end SlotCluster
