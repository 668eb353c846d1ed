import SlotCluster.Topology.Node

/-!
# Slot tables

A table is one view of the cluster made ready for routing: the nodes in the
order of the view, and for every slot the master that owns it.  A table never
changes; a newer view is a new table.

`Table.build` is the only way to a table with owners.  It refuses a view in
which a master's range is empty or leaves the keyspace, or in which two masters
claim one slot, and it names the first such offence in the order of nodes,
ranges and slots.  Slots that no master claims have no owner.
-/

namespace SlotCluster

/-- One view of the cluster with the owner of every slot. -/
structure Table where
  nodes : List Node
  /-- For every slot the position of its owner in `nodes`. -/
  owners : Vector (Option Nat) slotCount
  deriving Repr

namespace Table

abbrev Owners := Vector (Option Nat) slotCount

/-- No slot has an owner. -/
def unowned : Owners :=
  Vector.replicate slotCount none

def empty : Table :=
  ⟨[], unowned⟩

instance : Inhabited Table := ⟨empty⟩

/-- Give the slots to the node at a position, unless another node has one of
them. -/
def claimSlots (idAt : Nat -> String) (position : Nat) (owners : Owners) :
    List Nat -> Except TopologyError Owners
  | [] => .ok owners
  | slot :: rest =>
      match owners[slot]? with
      | some (some other) =>
          if other = position then
            claimSlots idAt position owners rest
          else
            .error (.slotConflict slot (idAt other) (idAt position))
      | _ =>
          claimSlots idAt position
            (owners.setIfInBounds slot (some position)) rest

def claimRanges (idAt : Nat -> String) (position : Nat) (owners : Owners) :
    List SlotRange -> Except TopologyError Owners
  | [] => .ok owners
  | range :: rest =>
      if range.Valid then
        match claimSlots idAt position owners range.slots with
        | .error e => .error e
        | .ok owners => claimRanges idAt position owners rest
      else
        .error (.invalidRange range.start range.stop)

/-- Let the masters among the nodes claim their ranges; the first node has the
given position. -/
def claimNodes (idAt : Nat -> String) (position : Nat) (owners : Owners) :
    List Node -> Except TopologyError Owners
  | [] => .ok owners
  | node :: rest =>
      if node.isMaster then
        match claimRanges idAt position owners node.slots with
        | .error e => .error e
        | .ok owners => claimNodes idAt (position + 1) owners rest
      else
        claimNodes idAt (position + 1) owners rest

def idAt (nodes : List Node) (position : Nat) : String :=
  (nodes[position]?.map Node.id).getD ""

def build (nodes : List Node) : Except TopologyError Table :=
  (claimNodes (idAt nodes) 0 unowned nodes).map (fun owners => ⟨nodes, owners⟩)

def size (t : Table) : Nat :=
  t.nodes.length

def isEmpty (t : Table) : Bool :=
  t.nodes.isEmpty

/-- The owner of a slot; slots beyond the keyspace have none. -/
def slotOwner? (t : Table) (slot : Nat) : Option Node :=
  match t.owners[slot]? with
  | some (some position) => t.nodes[position]?
  | _ => none

def keyOwner? (t : Table) (key : Bytes) : Option Node :=
  t.slotOwner? (Slot.ofKey key)

def node? (t : Table) (id : String) : Option Node :=
  t.nodes.find? (fun n => n.id = id)

def nodeAt? (t : Table) (host : String) (port : UInt16) : Option Node :=
  t.nodes.find? (fun n => n.endpoint.Matches host port)

def contains (t : Table) (id : String) : Bool :=
  (t.node? id).isSome

def masters (t : Table) : List Node :=
  t.nodes.filter Node.isMaster

def orderedNodes (t : Table) : List Node :=
  t.nodes.mergeSort Node.addressLE

def orderedEndpoints (t : Table) : List Endpoint :=
  Endpoint.sort (t.nodes.map Node.endpoint)

def ids (t : Table) : List String :=
  ((t.nodes.map Node.id).mergeSort (fun a b => (compare a b).isLE)).eraseReps

def unassigned (t : Table) : Nat :=
  t.owners.toList.count none

def isComplete (t : Table) : Bool :=
  t.owners.toList.all Option.isSome

def withCredential (t : Table) (password : String) : Table :=
  { t with
    nodes := t.nodes.map (fun n =>
      { n with endpoint := { n.endpoint with password := some password } }) }

/-! ## Comparing two tables -/

def roles? (t : Table) (id : String) : Option (List Flag) :=
  (t.nodes.reverse.find? (fun n => n.id = id)).map Node.roleFlags

/-- Whether every id of the first table has the same roles in the second. -/
def rolesWithin (t u : Table) : Bool :=
  t.nodes.all (fun n => t.roles? n.id == u.roles? n.id)

/-- Whether two tables describe the same topology: the same ids with the same
roles, and every slot with an owner of the same id. -/
def sameTopology (t u : Table) : Bool :=
  t.rolesWithin u && u.rolesWithin t &&
    (List.range slotCount).all (fun slot =>
      (t.slotOwner? slot).map Node.id == (u.slotOwner? slot).map Node.id)

/-- Whether the second table describes another topology than the first. -/
def isChanged (current new : Table) : Bool :=
  !current.sameTopology new

end Table
end SlotCluster
