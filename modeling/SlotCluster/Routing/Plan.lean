import SlotCluster.Pool.Target

/-!
# Where a command goes

A command with one key goes to the owner of the key's slot, and keys without an
owner go to a fixed fallback address.  A command with many keys is split: every
target gets one command with the keys that belong there, in their order.
Targets come in the order in which their first keys stand in the command.

A command that has to go to one target only is sent as it is.
-/

namespace SlotCluster
namespace Routing

def targetOf (table : Table) (fallback : Endpoint) (key : Bytes) : Target :=
  match table.keyOwner? key with
  | some n => .node n.id
  | none => .address fallback.host fallback.port

/-- Key positions that have one target. -/
structure Group where
  target : Target
  positions : List Nat
  deriving DecidableEq, Repr

/-- The groups with one more position, in the group of its target or in a new
one at the end. -/
def addPosition (target : Target) (position : Nat) : List Group -> List Group
  | [] => [⟨target, [position]⟩]
  | group :: rest =>
      if group.target = target then
        ⟨target, group.positions ++ [position]⟩ :: rest
      else
        group :: addPosition target position rest

/-- The groups of keys whose first has the given position, added to groups of
earlier keys. -/
def groupFrom (targetOf : Bytes -> Target) (position : Nat)
    (groups : List Group) : List Bytes -> List Group
  | [] => groups
  | key :: rest =>
      groupFrom targetOf (position + 1)
        (addPosition (targetOf key) position groups) rest

def groupKeys (targetOf : Bytes -> Target) (keys : List Bytes) : List Group :=
  groupFrom targetOf 0 [] keys

/-- Where a command goes. -/
inductive Plan where
  /-- The command goes to one target as it is. -/
  | whole (target : Target)
  /-- The command is split into one for each group. -/
  | split (groups : List Group)
  deriving DecidableEq, Repr

/-- Where a command goes under a table.  A command with an incomplete key group
and a command without a key go nowhere. -/
def plan (table : Table) (fallback : Endpoint) (c : Command) :
    Except ClusterError Plan :=
  match c.checkArity with
  | .error e => .error (.invalidCommand e)
  | .ok () =>
      match c.keyLayout with
      | .keyless => .error (.noKey c.name)
      | .single =>
          match c.firstKey? with
          | none => .error (.noKey c.name)
          | some key => .ok (.whole (targetOf table fallback key))
      | .multi _ =>
          match groupKeys (targetOf table fallback) c.keys with
          | [group] => .ok (.whole group.target)
          | groups => .ok (.split groups)

end Routing
end SlotCluster
