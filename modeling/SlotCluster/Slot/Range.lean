import SlotCluster.Slot.Hash
import SlotCluster.Text.Decimal
import SlotCluster.Topology.Error

/-!
# Slot ranges

A contiguous run of slots, given by its first slot and the slot after its last.
Ranges made here lie within the keyspace and are not empty, but a range can also
come from a node description that nobody has checked, so the type itself holds
any two 32-bit numbers.
-/

namespace SlotCluster

/-- The slots from `start` up to but not including `stop`. -/
structure SlotRange where
  start : UInt32
  stop : UInt32
  deriving DecidableEq, Repr, Inhabited

namespace SlotRange

/-- Whether the range is not empty and lies within the keyspace. -/
def Valid (r : SlotRange) : Prop :=
  r.start < r.stop ∧ r.stop.toNat ≤ slotCount

instance (r : SlotRange) : Decidable r.Valid :=
  inferInstanceAs (Decidable (_ ∧ _))

/-- The range with these bounds, unless it is empty or leaves the keyspace. -/
def make (start stop : UInt32) : Except TopologyError SlotRange :=
  if (SlotRange.mk start stop).Valid then
    .ok ⟨start, stop⟩
  else
    .error (.invalidRange start stop)

/-- The number after this one, or the number itself if it is the largest. -/
def next (n : UInt32) : UInt32 :=
  if n = 0xFFFFFFFF then n else n + 1

def single (slot : UInt32) : Except TopologyError SlotRange :=
  make slot (next slot)

def inclusive (first last : UInt32) : Except TopologyError SlotRange :=
  make first (next last)

def contains (r : SlotRange) (slot : UInt32) : Bool :=
  r.start ≤ slot && slot < r.stop

def size (r : SlotRange) : Nat :=
  r.stop.toNat - r.start.toNat

def isEmpty (r : SlotRange) : Bool :=
  r.size == 0

def slots (r : SlotRange) : List Nat :=
  List.range' r.start.toNat r.size

def le (a b : SlotRange) : Bool :=
  a.start < b.start || (a.start == b.start && a.stop ≤ b.stop)

/-- A single slot by its number, a longer range by its first and last slot. -/
def render (r : SlotRange) : List Char :=
  if r.size = 1 then
    Decimal.digits r.start.toNat
  else
    Decimal.digits r.start.toNat ++ '-' :: Decimal.digits (r.stop - 1).toNat

def sort (ranges : List SlotRange) : List SlotRange :=
  ranges.mergeSort le

end SlotRange
end SlotCluster
