import SlotCluster.Address.Endpoint
import SlotCluster.Slot.Range
import SlotCluster.Topology.Flag

/-!
# Nodes

One node as a view of the cluster describes it.  Slot ranges are what the view
says and have not been checked; they count only on masters.
-/

namespace SlotCluster

/-- A node of a view. -/
structure Node where
  id : String
  endpoint : Endpoint
  flags : FlagSet
  /-- The master of a replica. -/
  masterId : Option String := none
  slots : List SlotRange := []
  deriving DecidableEq, Repr

namespace Node

def makeMaster (id : String) (endpoint : Endpoint)
    (slots : List SlotRange) : Node :=
  { id, endpoint, flags := .ofList [.master], slots }

def makeReplica (id : String) (endpoint : Endpoint)
    (masterId : String) : Node :=
  { id, endpoint, flags := .ofList [.replica], masterId := some masterId }

def withFlag (n : Node) (flag : Flag) : Node :=
  { n with flags := n.flags.insert flag }

def isMaster (n : Node) : Bool :=
  n.flags.has .master

def isReplica (n : Node) : Bool :=
  n.flags.has .replica

def isFailing (n : Node) : Bool :=
  n.flags.has .failing

def ownsSlot (n : Node) (slot : UInt32) : Bool :=
  n.slots.any (fun r => r.contains slot)

def slotTotal (n : Node) : Nat :=
  n.slots.foldr (fun r total => r.size + total) 0

def roleFlags (n : Node) : List Flag :=
  n.flags.roles

def flagText (n : Node) : String :=
  if n.flags.toList.isEmpty then
    "noflags"
  else
    Text.joinTexts "," (n.flags.toList.map Flag.word)

def addressLE (a b : Node) : Bool :=
  Endpoint.addressLE a.endpoint b.endpoint

end Node
end SlotCluster
