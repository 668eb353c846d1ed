import SlotCluster.Error
import SlotCluster.Topology.Table

/-!
# Targets

Whom a caller wants to reach: a node by its id, or whoever listens at an
address.  An address of a known node means that node, so that two ways of naming
a node lead to one connection.
-/

namespace SlotCluster

/-- A table together with the stamp that tells it from every other table. -/
structure Shared where
  stamp : Nat
  table : Table
  deriving Repr

instance : Inhabited Shared := ⟨⟨0, default⟩⟩

/-- Whom a caller wants to reach. -/
inductive Target where
  | node (id : String)
  | address (host : String) (port : UInt16)
  deriving DecidableEq, Repr

namespace Target

def render : Target -> String
  | node id => id
  | address host port => host ++ ":" ++ toString port.toNat

def describe : Target -> String
  | node id => "Id(" ++ Text.quoted id ++ ")"
  | address host port =>
      "Address \x7b host: " ++ Text.quoted host ++ ", port: " ++
        toString port.toNat ++ " \x7d"

def nodeId? : Target -> Option String
  | node id => some id
  | address _ _ => none

def isStale (table : Table) : Target -> Bool
  | node id => !table.contains id
  | address host port => (table.nodeAt? host port).isNone

/-- The key under which connections to a target are kept, and the endpoint to
connect to.  An address that the table does not know is reached with the
settings of `fallback`. -/
def resolve (table : Table) (fallback : Endpoint) :
    Target -> Except ClusterError (Target × Endpoint)
  | node id =>
      match table.node? id with
      | some n => .ok (node id, n.endpoint)
      | none => .error (.unknownNode id)
  | address host port =>
      match table.nodeAt? host port with
      | some n => .ok (node n.id, n.endpoint)
      | none =>
          .ok (address host port,
            { host
              port
              password := fallback.password
              timeout := fallback.timeout })

end Target
end SlotCluster
