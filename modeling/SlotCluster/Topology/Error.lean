/-!
# What can be wrong with a view of the cluster
-/

namespace SlotCluster

/-- Reasons why a view of the cluster, or a part of one, is refused. -/
inductive TopologyError where
  /-- A slot range is empty or leaves the keyspace. -/
  | invalidRange (start stop : UInt32)
  /-- Two masters claim one slot. -/
  | slotConflict (slot : Nat) (first second : String)
  /-- A text is not an address, or a line of a node listing cannot be read. -/
  | invalidEndpoint (text : String)
  deriving DecidableEq, Repr

namespace TopologyError

def message : TopologyError -> String
  | invalidRange start stop =>
      "Invalid slot range: start=" ++ toString start.toNat ++ ", end=" ++
        toString stop.toNat
  | slotConflict slot first second =>
      "Slot " ++ toString slot ++ " claimed by both " ++ first ++
        " and " ++ second
  | invalidEndpoint text => "Invalid endpoint: " ++ text

end TopologyError
end SlotCluster
