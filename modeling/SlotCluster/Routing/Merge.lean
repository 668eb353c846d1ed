import SlotCluster.Routing.Plan

/-!
# Merging replies

How the replies to the parts of a command become one reply.  A failed part makes
the whole command fail, and the first failed part says how.  Replies of the
wrong shape count only when no part has failed.
-/

namespace SlotCluster
namespace Routing

/-- The values of replies none of which has failed; an error reply is a failure
here. -/
def values :
    List (Except ClusterError Resp.Value) ->
      Except ClusterError (List Resp.Value)
  | [] => .ok []
  | .error e :: _ => .error e
  | .ok (.error text) :: _ => .error (.command text)
  | .ok value :: rest => (values rest).map (fun values => value :: values)

def unexpected (name : String) (value : Resp.Value) : ClusterError :=
  .unexpectedReply (name ++ ": " ++ value.describe)

def place (merged : List Resp.Value) :
    List (Resp.Value × Nat) -> List Resp.Value
  | [] => merged
  | (item, position) :: rest => place (merged.set position item) rest

/-- Put the items of every reply at the positions of its group. -/
def mergeItems (name : String) (merged : List Resp.Value) :
    List (Resp.Value × List Nat) -> Except ClusterError Resp.Value
  | [] => .ok (.array merged)
  | (.array items, positions) :: rest =>
      if items.length = positions.length then
        mergeItems name (place merged (items.zip positions)) rest
      else
        .error (.unexpectedReply
          (name ++ " returned " ++ toString items.length ++ " values for " ++
            toString positions.length ++ " keys"))
  | (other, _) :: _ => .error (unexpected name other)

def mergeStatuses (name : String) :
    List Resp.Value -> Except ClusterError Resp.Value
  | [] => .ok .ok
  | value :: rest =>
      if value.isOk then
        mergeStatuses name rest
      else
        .error (unexpected name value)

def integers (name : String) :
    List Resp.Value -> Except ClusterError (List Int64)
  | [] => .ok []
  | .integer n :: rest => (integers name rest).map (fun numbers => n :: numbers)
  | value :: _ => .error (unexpected name value)

/-- The reply to a command, from the replies to its parts.  A sum of numbers
wraps at 64 bits, as it does in a build without overflow checks; a build with
them would stop there instead. -/
def merge (name : String) (keyCount : Nat) (positions : List (List Nat))
    (replies : List (Except ClusterError Resp.Value)) :
    Except ClusterError Resp.Value :=
  match values replies with
  | .error e => .error e
  | .ok values =>
      if name = "MGET" then
        mergeItems name (List.replicate keyCount .null) (values.zip positions)
      else if name = "MSET" then
        mergeStatuses name values
      else if name = "MSETNX" then
        (integers name values).map
          (fun numbers => .integer (if numbers.all (· == 1) then 1 else 0))
      else
        (integers name values).map
          (fun numbers => .integer (numbers.foldl (· + ·) 0))

end Routing
end SlotCluster
