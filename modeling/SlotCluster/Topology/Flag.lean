/-!
# Node flags

What a node listing says about a node.  A node has a set of flags, kept as a
list without repetitions in a fixed order, so that equal sets are equal values.
-/

namespace SlotCluster

/-- A flag of a node. -/
inductive Flag where
  /-- The node that answered the query. -/
  | myself
  | master
  | replica
  /-- Suspected of failing by the reporting node. -/
  | possiblyFailing
  /-- Confirmed failing. -/
  | failing
  | handshake
  | noAddress
  deriving DecidableEq, Repr, Inhabited

namespace Flag

def all : List Flag :=
  [myself, master, replica, possiblyFailing, failing, handshake, noAddress]

def isRole : Flag -> Bool
  | master | replica | failing => true
  | _ => false

def word : Flag -> String
  | myself => "myself"
  | master => "master"
  | replica => "slave"
  | possiblyFailing => "fail?"
  | failing => "fail"
  | handshake => "handshake"
  | noAddress => "noaddr"

def ofWord? (text : String) : Option Flag :=
  if text = "replica" then some replica else all.find? (fun f => f.word = text)

theorem mem_all (f : Flag) : f ∈ all := by
  cases f <;> decide

def normalize (flags : List Flag) : List Flag :=
  all.filter (fun f => decide (f ∈ flags))

theorem mem_normalize {f : Flag} {flags : List Flag} :
    f ∈ normalize flags ↔ f ∈ flags := by
  simp [normalize, mem_all]

theorem normalize_normalize (flags : List Flag) :
    normalize (normalize flags) = normalize flags := by
  unfold normalize
  apply List.filter_congr
  intro f _
  simp [mem_all]

end Flag

/-- A set of flags. -/
structure FlagSet where
  /-- The members in the fixed order. -/
  toList : List Flag
  normal : Flag.normalize toList = toList
  deriving DecidableEq, Repr

namespace FlagSet

def ofList (flags : List Flag) : FlagSet :=
  ⟨Flag.normalize flags, Flag.normalize_normalize flags⟩

def has (s : FlagSet) (flag : Flag) : Bool :=
  decide (flag ∈ s.toList)

def insert (s : FlagSet) (flag : Flag) : FlagSet :=
  ofList (flag :: s.toList)

def roles (s : FlagSet) : List Flag :=
  s.toList.filter Flag.isRole

theorem ofList_toList (s : FlagSet) : ofList s.toList = s := by
  cases s with
  | mk flags normal =>
      simp [ofList, normal]

theorem has_ofList (flags : List Flag) (flag : Flag) :
    (ofList flags).has flag = decide (flag ∈ flags) := by
  simp [has, ofList, Flag.mem_normalize]

end FlagSet
end SlotCluster
