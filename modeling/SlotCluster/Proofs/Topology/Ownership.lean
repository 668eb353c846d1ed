import Mathlib.Data.List.Basic
import SlotCluster.Topology.Table

/-!
# Who owns the slots

A view is consistent if every range of a master lies within the keyspace and no
slot is claimed by two entries.  Exactly the consistent views have a table, and
in it a slot belongs to the entry that claims it.  Any other view is refused
with the first offence in the order of nodes, ranges and slots.

Building a table visits *places* in this order: every range has one place for
its bounds and one for each of its slots.  The invariant says what the owners
are when a place is reached, and that no place before it holds an offence; the
three loops only move from place to place.
-/

namespace SlotCluster

def Node.claims (n : Node) (slot : Nat) : Bool :=
  n.isMaster &&
    n.slots.any (fun r => decide (r.start.toNat ≤ slot ∧ slot < r.stop.toNat))

def Node.withoutIdleRanges (n : Node) : Node :=
  if n.isMaster then n else { n with slots := [] }

theorem Node.claims_toNat (n : Node) (slot : UInt32) :
    n.claims slot.toNat = (n.isMaster && n.ownsSlot slot) := by
  unfold claims ownsSlot SlotRange.contains
  simp only [UInt32.le_iff_toNat_le, UInt32.lt_iff_toNat_lt, Bool.decide_and]

theorem Node.id_withoutIdleRanges (n : Node) :
    n.withoutIdleRanges.id = n.id := by
  unfold withoutIdleRanges
  split <;> rfl

theorem Node.isMaster_withoutIdleRanges (n : Node) :
    n.withoutIdleRanges.isMaster = n.isMaster := by
  unfold withoutIdleRanges
  split <;> rfl

namespace Table

/-!
## Claims and offences

A view is consistent if no place in it holds an offence.  Places stand in the
order of nodes, ranges and slots; the bounds of a range come before its slots.
-/

def Claims (nodes : List Node) (position slot : Nat) : Prop :=
  exists n, nodes[position]? = some n ∧ n.claims slot = true

/-- Every range of a master is valid, and no two entries claim one slot. -/
structure Consistent (nodes : List Node) : Prop where
  valid : forall {n : Node} {r : SlotRange}, n ∈ nodes -> n.isMaster = true ->
    r ∈ n.slots -> r.Valid
  disjoint : forall {first second slot : Nat},
    Claims nodes first slot -> Claims nodes second slot -> first = second

/-- Where something can be wrong: the position of a node, the position of one of
its ranges, and 0 for the bounds of the range or the successor of a slot in
it. -/
structure Place where
  node : Nat
  range : Nat
  check : Nat

def Place.Before (a b : Place) : Prop :=
  a.node < b.node ∨ a.node = b.node ∧
    (a.range < b.range ∨ a.range = b.range ∧ a.check < b.check)

def RangeAt (nodes : List Node) (i j : Nat) (n : Node) (r : SlotRange) : Prop :=
  nodes[i]? = some n ∧ n.isMaster = true ∧ n.slots[j]? = some r

inductive Offence (nodes : List Node) : Place -> TopologyError -> Prop where
  /-- A range is empty or leaves the keyspace. -/
  | range {i j : Nat} {n : Node} {r : SlotRange} (found : RangeAt nodes i j n r)
      (invalid : ¬ r.Valid) :
      Offence nodes ⟨i, j, 0⟩ (.invalidRange r.start r.stop)
  /-- A slot of a range is claimed by an earlier entry. -/
  | slot {i j k slot : Nat} {n m : Node} {r : SlotRange}
      (found : RangeAt nodes i j n r)
      (holds : r.start.toNat ≤ slot ∧ slot < r.stop.toNat)
      (earlier : k < i) (other : nodes[k]? = some m)
      (claims : m.claims slot = true) :
      Offence nodes ⟨i, j, slot + 1⟩ (.slotConflict slot m.id n.id)

/-- The error is that of the offence before which there is no other. -/
def FirstOffence (nodes : List Node) (e : TopologyError) : Prop :=
  exists place, Offence nodes place e ∧
    forall other e', Offence nodes other e' -> ¬ other.Before place

variable {nodes : List Node} {owners : Owners}

theorem claims_iff {i slot : Nat} :
    Claims nodes i slot <->
      exists j n r, RangeAt nodes i j n r ∧ r.start.toNat ≤ slot ∧
        slot < r.stop.toNat := by
  unfold Claims Node.claims RangeAt
  simp only [Bool.and_eq_true, List.any_eq_true, decide_eq_true_eq]
  constructor
  · intro h
    rcases h with ⟨n, hn, hmaster, r, hr, hholds⟩
    rcases List.getElem?_of_mem hr with ⟨j, hj⟩
    exact ⟨j, n, r, ⟨hn, hmaster, hj⟩, hholds⟩
  · intro h
    rcases h with ⟨j, n, r, ⟨hn, hmaster, hj⟩, hholds⟩
    exact ⟨n, hn, hmaster, r, List.mem_of_getElem? hj, hholds⟩

theorem RangeAt.unique {i j : Nat} {n n' : Node} {r r' : SlotRange}
    (h : RangeAt nodes i j n r) (h' : RangeAt nodes i j n' r') :
    n = n' ∧ r = r' := by
  rcases h with ⟨hn, _, hr⟩
  rcases h' with ⟨hn', _, hr'⟩
  rw [hn, Option.some.injEq] at hn'
  subst hn'
  rw [hr, Option.some.injEq] at hr'
  exact ⟨rfl, hr'⟩

theorem Place.eq_of_not_before {a b : Place} (hab : ¬ a.Before b)
    (hba : ¬ b.Before a) : a = b := by
  rcases a with ⟨i, j, c⟩
  rcases b with ⟨i', j', c'⟩
  simp only [Place.Before] at hab hba
  simp only [Place.mk.injEq]
  omega

theorem Place.Before.trans {a b c : Place} (hab : a.Before b)
    (hbc : b.Before c) : a.Before c := by
  simp only [Place.Before] at hab hbc ⊢
  omega

theorem Place.before_next (i j check : Nat) :
    Place.Before ⟨i, j, check⟩ ⟨i, j, check + 1⟩ :=
  Or.inr ⟨rfl, Or.inr ⟨rfl, Nat.lt_succ_self check⟩⟩

def Matters (nodes : List Node) (place : Place) : Prop :=
  exists n r, RangeAt nodes place.node place.range n r ∧
    (place.check = 0 ∧ ¬ r.Valid ∨ r.start.toNat < place.check ∧
      place.check ≤ r.stop.toNat)

theorem Offence.matters {place : Place} {e : TopologyError}
    (h : Offence nodes place e) : Matters nodes place := by
  cases h with
  | range found invalid => exact ⟨_, _, found, Or.inl ⟨rfl, invalid⟩⟩
  | slot found holds _ _ _ =>
      exact ⟨_, _, found, Or.inr ⟨Nat.lt_succ_of_le holds.1, holds.2⟩⟩

/-- A view is consistent when no place holds an offence. -/
theorem consistent_iff :
    Consistent nodes <-> forall place e, ¬ Offence nodes place e := by
  constructor
  · intro h place e hoffence
    cases hoffence with
    | range found invalid =>
        exact invalid
          (h.valid (List.mem_of_getElem? found.1) found.2.1
            (List.mem_of_getElem? found.2.2))
    | @slot i j k slot n m r found holds earlier other claims =>
        have hsame :=
          h.disjoint (claims_iff.mpr ⟨j, n, r, found, holds⟩) ⟨m, other, claims⟩
        omega
  · intro h
    have hearlier : forall {k i slot : Nat}, Claims nodes k slot ->
        Claims nodes i slot -> ¬ k < i := by
      intro k i slot hk hi hlt
      rcases claims_iff.mp hi with ⟨j, n, r, found, holds⟩
      rcases hk with ⟨m, hm, hclaims⟩
      exact h _ _ (Offence.slot found holds hlt hm hclaims)
    constructor
    case valid =>
      intro n r hn hmaster hr
      rcases List.getElem?_of_mem hn with ⟨i, hi⟩
      rcases List.getElem?_of_mem hr with ⟨j, hj⟩
      by_contra hinvalid
      exact h _ _ (Offence.range ⟨hi, hmaster, hj⟩ hinvalid)
    case disjoint =>
      intro first second slot hfirst hsecond
      have hle := hearlier hfirst hsecond
      have hge := hearlier hsecond hfirst
      omega

theorem FirstOffence.unique {e e' : TopologyError} (h : FirstOffence nodes e)
    (h' : FirstOffence nodes e') : e = e' := by
  rcases h with ⟨a, ha, hfirst⟩
  rcases h' with ⟨b, hb, hfirst'⟩
  have hsame : a = b := Place.eq_of_not_before (hfirst' a e ha) (hfirst b e' hb)
  subst hsame
  -- Two earlier claimers would be in conflict with each other before.
  have hclaimer : forall {i j k l slot : Nat} {m m' : Node},
      a = ⟨i, j, slot + 1⟩ -> l < i -> nodes[k]? = some m ->
      m.claims slot = true -> nodes[l]? = some m' -> m'.claims slot = true ->
      ¬ k < l := by
    intro i j k l slot m m' hplace hli hm hclaims hm' hclaims' hkl
    rcases claims_iff.mp ⟨m', hm', hclaims'⟩ with ⟨j', n', r', found', holds'⟩
    apply hfirst _ _ (Offence.slot found' holds' hkl hm hclaims)
    rw [hplace]
    exact Or.inl hli
  cases ha with
  | range found _ =>
      cases hb with
      | range found' _ => rw [(found.unique found').2]
  | @slot i j k slot n m r found _ earlier other claims =>
      cases hb with
      | @slot _ _ l _ n' m' r' found' _ earlier' other' claims' =>
          have hle := hclaimer rfl earlier' other claims other' claims'
          have hge := hclaimer rfl earlier other' claims' other claims
          have hkl : k = l := by omega
          subst hkl
          rw [other, Option.some.injEq] at other'
          rw [other', (found.unique found').1]

/-! ## The scan -/

/-- What holds when a place is reached: a slot belongs to the entry that has
claimed it at a place before, and no place before holds an offence. -/
structure Scanned (nodes : List Node) (place : Place)
    (owners : Owners) : Prop where
  owner_iff : forall {slot i : Nat}, owners[slot]? = some (some i) <->
    exists j n r, RangeAt nodes i j n r ∧ r.start.toNat ≤ slot ∧
      slot < r.stop.toNat ∧ Place.Before ⟨i, j, slot + 1⟩ place
  clean : forall {other : Place} {e : TopologyError}, Offence nodes other e ->
    ¬ other.Before place

namespace Scanned

variable {a b : Place}

theorem start (nodes : List Node) : Scanned nodes ⟨0, 0, 0⟩ unowned where
  owner_iff := by
    intro slot i
    constructor
    · intro h
      rw [unowned, Vector.getElem?_replicate] at h
      split at h <;> cases h
    · intro h
      rcases h with ⟨j, n, r, _, _, _, hbefore⟩
      simp [Place.Before] at hbefore
  clean := by
    intro other e _ hbefore
    simp [Place.Before] at hbefore

/-- The scan goes on to a later place if nothing on the way matters. -/
theorem skip (h : Scanned nodes a owners) (hab : a.Before b)
    (hpass : forall other, Matters nodes other -> other.Before b ->
      other.Before a) : Scanned nodes b owners where
  owner_iff := by
    intro slot i
    rw [h.owner_iff]
    constructor
    · intro hc
      rcases hc with ⟨j, n, r, found, hstart, hstop, hbefore⟩
      exact ⟨j, n, r, found, hstart, hstop, hbefore.trans hab⟩
    · intro hc
      rcases hc with ⟨j, n, r, found, hstart, hstop, hbefore⟩
      refine ⟨j, n, r, found, hstart, hstop, hpass _ ?_ hbefore⟩
      exact ⟨n, r, found, Or.inr ⟨Nat.lt_succ_of_le hstart, hstop⟩⟩
  clean hoffence hbefore := h.clean hoffence (hpass _ hoffence.matters hbefore)

theorem firstOffence (h : Scanned nodes a owners) {e : TopologyError}
    (hoffence : Offence nodes a e) : FirstOffence nodes e :=
  ⟨a, hoffence, fun _ _ hother => h.clean hother⟩

theorem claims_of_owner (h : Scanned nodes a owners) {slot k : Nat}
    (howner : owners[slot]? = some (some k)) :
    k ≤ a.node ∧ Claims nodes k slot := by
  rcases h.owner_iff.mp howner with ⟨j, n, r, found, hstart, hstop, hbefore⟩
  refine ⟨?_, claims_iff.mpr ⟨j, n, r, found, hstart, hstop⟩⟩
  simp only [Place.Before] at hbefore
  omega

theorem owner_of_claims (h : Scanned nodes a owners) {slot k : Nat}
    (hk : k < a.node) (hclaims : Claims nodes k slot) :
    owners[slot]? = some (some k) := by
  rcases claims_iff.mp hclaims with ⟨j, n, r, found, hstart, hstop⟩
  exact h.owner_iff.mpr ⟨j, n, r, found, hstart, hstop, Or.inl hk⟩

/-- The scan goes on after a slot that nobody else owns. -/
theorem claim {i j slot : Nat} {n : Node} {r : SlotRange} {owners' : Owners}
    (h : Scanned nodes ⟨i, j, slot + 1⟩ owners) (found : RangeAt nodes i j n r)
    (holds : r.start.toNat ≤ slot ∧ slot < r.stop.toNat)
    (hfree : forall k, owners[slot]? = some (some k) -> k = i)
    (howners : forall other k, owners'[other]? = some (some k) <->
      owners[other]? = some (some k) ∨ other = slot ∧ k = i) :
    Scanned nodes ⟨i, j, slot + 2⟩ owners' where
  owner_iff := by
    intro other k
    rw [howners, h.owner_iff]
    constructor
    · intro hc
      rcases hc with ⟨j', n', r', found', hstart, hstop, hbefore⟩ | ⟨hother, hk⟩
      · exact ⟨j', n', r', found', hstart, hstop,
          hbefore.trans (Place.before_next i j _)⟩
      · subst hother
        subst hk
        exact ⟨j, n, r, found, holds.1, holds.2, Place.before_next k j _⟩
    · intro hc
      rcases hc with ⟨j', n', r', found', hstart, hstop, hbefore⟩
      by_cases hhere : k = i ∧ other = slot
      · exact Or.inr ⟨hhere.2, hhere.1⟩
      · refine Or.inl ⟨j', n', r', found', hstart, hstop, ?_⟩
        simp only [Place.Before] at hbefore ⊢
        omega
  clean := by
    intro other e hoffence hbefore
    by_cases hhere : other = ⟨i, j, slot + 1⟩
    · subst hhere
      cases hoffence with
      | slot _ _ earlier other claims =>
          have howner := h.owner_of_claims earlier ⟨_, other, claims⟩
          exact Nat.ne_of_lt earlier (hfree _ howner)
    · apply h.clean hoffence
      rcases other with ⟨i', j', c⟩
      simp only [Place.Before, Place.mk.injEq] at hbefore hhere ⊢
      omega

end Scanned

/-! ## The three loops -/

def Reaches (nodes : List Node) (place : Place) :
    Except TopologyError Owners -> Prop
  | .ok owners => Scanned nodes place owners
  | .error e => FirstOffence nodes e

theorem owner_setIfInBounds {slot : Nat} (i : Nat) (hlt : slot < slotCount)
    (hfree : owners[slot]? = some none) (other k : Nat) :
    (owners.setIfInBounds slot (some i))[other]? = some (some k) <->
      owners[other]? = some (some k) ∨ other = slot ∧ k = i := by
  rw [Vector.getElem?_setIfInBounds]
  by_cases h : slot = other
  · subst h
    rw [if_pos rfl, if_pos hlt, hfree]
    simp [eq_comm]
  · rw [if_neg h]
    simp [Ne.symm h]

theorem reaches_claimSlots {i j : Nat} {n : Node} {r : SlotRange}
    (found : RangeAt nodes i j n r) (hvalid : r.Valid) (slot count : Nat)
    (hstart : r.start.toNat ≤ slot) (hstop : slot + count = r.stop.toNat)
    (h : Scanned nodes ⟨i, j, slot + 1⟩ owners) :
    Reaches nodes ⟨i, j + 1, 0⟩
      (claimSlots (idAt nodes) i owners (List.range' slot count)) := by
  induction count generalizing slot owners with
  | zero =>
      refine h.skip (Or.inr ⟨rfl, Or.inl (Nat.lt_succ_self j)⟩) ?_
      intro other hmatters hbefore
      rcases other with ⟨i', j', c⟩
      rcases hmatters with ⟨n', r', found', hcheck⟩
      simp only [Place.Before] at hbefore hcheck ⊢
      by_cases hhere : i' = i ∧ j' = j
      · rcases hhere with ⟨hi, hj⟩
        subst hi
        subst hj
        rw [← (found.unique found').2] at hcheck
        omega
      · omega
  | succ count ih =>
      have hholds : r.start.toNat ≤ slot ∧ slot < r.stop.toNat := by omega
      have hlt : slot < slotCount := Nat.lt_of_lt_of_le hholds.2 hvalid.2
      rw [List.range'_succ, claimSlots]
      cases howner : owners[slot]? with
      | none =>
          rw [Vector.getElem?_eq_none_iff] at howner
          omega
      | some owner =>
          cases owner with
          | none =>
              apply ih (slot + 1) (by omega) (by omega)
              apply h.claim found hholds
              · intro k hk
                rw [howner] at hk
                cases hk
              · exact owner_setIfInBounds i hlt howner
          | some k =>
              rcases h.claims_of_owner howner with ⟨hle, m, hm, hclaims⟩
              by_cases hk : k = i
              · subst hk
                simp only [if_true]
                apply ih (slot + 1) (by omega) (by omega)
                apply h.claim found hholds
                · intro l hl
                  rw [howner, Option.some.injEq, Option.some.injEq] at hl
                  exact hl.symm
                · intro other l
                  constructor
                  · exact Or.inl
                  · intro hl
                    rcases hl with hl | ⟨hother, hl⟩
                    · exact hl
                    · rw [hother, hl, howner]
              · simp only [hk, if_false]
                have hnames : idAt nodes k = m.id ∧ idAt nodes i = n.id := by
                  simp [idAt, hm, found.1]
                apply h.firstOffence
                rw [hnames.1, hnames.2]
                exact Offence.slot found hholds
                  (Nat.lt_of_le_of_ne hle hk) hm hclaims

theorem reaches_claimRanges {i : Nat} {n : Node} (hn : nodes[i]? = some n)
    (hmaster : n.isMaster = true) (j : Nat) (ranges : List SlotRange)
    (hranges : n.slots.drop j = ranges) (h : Scanned nodes ⟨i, j, 0⟩ owners) :
    Reaches nodes ⟨i + 1, 0, 0⟩ (claimRanges (idAt nodes) i owners ranges) := by
  induction ranges generalizing j owners with
  | nil =>
      refine h.skip (Or.inl (Nat.lt_succ_self i)) ?_
      intro other hmatters hbefore
      rcases other with ⟨i', j', c⟩
      rcases hmatters with ⟨n', r', ⟨hn', _, hr'⟩, _⟩
      simp only [Place.Before] at hbefore hn' hr' ⊢
      by_cases hhere : i' = i
      · subst hhere
        rw [hn, Option.some.injEq] at hn'
        subst hn'
        have hj' : j' < n.slots.length := (List.getElem?_eq_some_iff.mp hr').1
        have hj : n.slots.length ≤ j := List.drop_eq_nil_iff.mp hranges
        omega
      · omega
  | cons r rest ih =>
      have found : RangeAt nodes i j n r := by
        refine ⟨hn, hmaster, ?_⟩
        rw [← List.head?_drop, hranges]
        rfl
      rw [claimRanges]
      by_cases hvalid : r.Valid
      · rw [if_pos hvalid]
        have hlt : r.start.toNat < r.stop.toNat := hvalid.1
        have hbounds : Scanned nodes ⟨i, j, r.start.toNat + 1⟩ owners := by
          refine h.skip (Or.inr ⟨rfl, Or.inr ⟨rfl, Nat.succ_pos _⟩⟩) ?_
          intro other hmatters hbefore
          rcases other with ⟨i', j', c⟩
          rcases hmatters with ⟨n', r', found', hcheck⟩
          simp only [Place.Before] at hbefore hcheck ⊢
          by_cases hhere : i' = i ∧ j' = j
          · rcases hhere with ⟨hi, hj⟩
            subst hi
            subst hj
            rw [← (found.unique found').2] at hcheck
            rcases hcheck with ⟨_, hinvalid⟩ | hslot
            · exact absurd hvalid hinvalid
            · omega
          · omega
        have hslots :=
          reaches_claimSlots found hvalid r.start.toNat r.size (Nat.le_refl _)
            (by unfold SlotRange.size; omega) hbounds
        unfold SlotRange.slots
        cases hresult :
            claimSlots (idAt nodes) i owners
              (List.range' r.start.toNat r.size) with
        | error e =>
            rw [hresult] at hslots
            exact hslots
        | ok owners' =>
            rw [hresult] at hslots
            apply ih (j + 1) _ hslots
            rw [← List.tail_drop, hranges]
            rfl
      · rw [if_neg hvalid]
        exact h.firstOffence (Offence.range found hvalid)

theorem reaches_claimNodes (i : Nat) (rest : List Node)
    (hrest : nodes.drop i = rest) (h : Scanned nodes ⟨i, 0, 0⟩ owners) :
    Reaches nodes ⟨i + rest.length, 0, 0⟩
      (claimNodes (idAt nodes) i owners rest) := by
  induction rest generalizing i owners with
  | nil => exact h
  | cons n rest ih =>
      have hn : nodes[i]? = some n := by
        rw [← List.head?_drop, hrest]
        rfl
      have hrest' : nodes.drop (i + 1) = rest := by
        rw [← List.tail_drop, hrest]
        rfl
      have hlength : i + (n :: rest).length = i + 1 + rest.length := by
        rw [List.length_cons]
        omega
      rw [claimNodes, hlength]
      by_cases hmaster : n.isMaster = true
      · rw [if_pos hmaster]
        have hranges := reaches_claimRanges hn hmaster 0 n.slots rfl h
        cases hresult : claimRanges (idAt nodes) i owners n.slots with
        | error e =>
            rw [hresult] at hranges
            exact hranges
        | ok owners' =>
            rw [hresult] at hranges
            exact ih (i + 1) hrest' hranges
      · rw [if_neg hmaster]
        apply ih (i + 1) hrest'
        refine h.skip (Or.inl (Nat.lt_succ_self i)) ?_
        intro other hmatters hbefore
        rcases other with ⟨i', j', c⟩
        rcases hmatters with ⟨n', r', ⟨hn', hmaster', _⟩, _⟩
        simp only [Place.Before] at hbefore hn' ⊢
        by_cases hhere : i' = i
        · subst hhere
          rw [hn, Option.some.injEq] at hn'
          exact absurd (hn' ▸ hmaster') hmaster
        · omega

/-! ## Tables -/

theorem reaches_build (nodes : List Node) :
    Reaches nodes ⟨nodes.length, 0, 0⟩
      (claimNodes (idAt nodes) 0 unowned nodes) := by
  have h := reaches_claimNodes 0 nodes rfl (Scanned.start nodes)
  rw [Nat.zero_add] at h
  exact h

theorem Scanned.consistent {i : Nat}
    (h : Scanned nodes ⟨nodes.length, i, 0⟩ owners) : Consistent nodes := by
  rw [consistent_iff]
  intro place e hoffence
  apply h.clean hoffence
  rcases hoffence.matters with ⟨n, r, found, _⟩
  exact Or.inl (List.getElem?_eq_some_iff.mp found.1).1

theorem Scanned.owner_eq_some {i : Nat}
    (h : Scanned nodes ⟨nodes.length, i, 0⟩ owners) {slot k : Nat} :
    owners[slot]? = some (some k) <-> Claims nodes k slot := by
  constructor
  · intro howner
    exact (h.claims_of_owner howner).2
  · intro hclaims
    rcases hclaims with ⟨n, hn, hslot⟩
    exact h.owner_of_claims (List.getElem?_eq_some_iff.mp hn).1 ⟨n, hn, hslot⟩

theorem scanned_of_build {t : Table} (h : build nodes = .ok t) :
    t.nodes = nodes ∧ Scanned nodes ⟨nodes.length, 0, 0⟩ t.owners := by
  have hscan := reaches_build nodes
  unfold build at h
  cases hresult : claimNodes (idAt nodes) 0 unowned nodes with
  | error e =>
      rw [hresult] at h
      cases h
  | ok owners =>
      rw [hresult] at h hscan
      cases h
      exact ⟨rfl, hscan⟩

theorem firstOffence_of_build {e : TopologyError} (h : build nodes = .error e) :
    FirstOffence nodes e := by
  have hscan := reaches_build nodes
  unfold build at h
  cases hresult : claimNodes (idAt nodes) 0 unowned nodes with
  | error e' =>
      rw [hresult] at h hscan
      cases h
      exact hscan
  | ok owners =>
      rw [hresult] at h
      cases h

theorem not_consistent_of_firstOffence {e : TopologyError}
    (h : FirstOffence nodes e) : ¬ Consistent nodes := by
  intro hconsistent
  rcases h with ⟨place, hoffence, _⟩
  exact consistent_iff.mp hconsistent place e hoffence

theorem build_eq_ok_iff :
    (exists t, build nodes = .ok t) <-> Consistent nodes := by
  constructor
  · intro h
    rcases h with ⟨t, ht⟩
    exact (scanned_of_build ht).2.consistent
  · intro hconsistent
    cases hresult : build nodes with
    | ok t => exact ⟨t, rfl⟩
    | error e =>
        exact absurd hconsistent
          (not_consistent_of_firstOffence (firstOffence_of_build hresult))

theorem build_eq_error_iff {e : TopologyError} :
    build nodes = .error e <-> FirstOffence nodes e := by
  constructor
  · exact firstOffence_of_build
  · intro h
    cases hresult : build nodes with
    | error e' => rw [(firstOffence_of_build hresult).unique h]
    | ok t =>
        exact absurd (build_eq_ok_iff.mp ⟨t, hresult⟩)
          (not_consistent_of_firstOffence h)

theorem slotOwner?_eq_none {t : Table} (h : build nodes = .ok t) {slot : Nat}
    (hnone : forall position, ¬ Claims nodes position slot) :
    t.slotOwner? slot = none := by
  have hscan := (scanned_of_build h).2
  unfold slotOwner?
  cases howner : t.owners[slot]? with
  | none => rfl
  | some owner =>
      cases owner with
      | none => rfl
      | some k => exact absurd (hscan.owner_eq_some.mp howner) (hnone k)

theorem slotOwner?_of_claims {t : Table} (h : build nodes = .ok t)
    {slot position : Nat} (hclaims : Claims nodes position slot) :
    t.slotOwner? slot = nodes[position]? := by
  rcases scanned_of_build h with ⟨hnodes, hscan⟩
  unfold slotOwner?
  rw [hscan.owner_eq_some.mpr hclaims, hnodes]

theorem Consistent.slot_lt (h : Consistent nodes) {position slot : Nat}
    (hclaims : Claims nodes position slot) : slot < slotCount := by
  rcases claims_iff.mp hclaims with ⟨j, n, r, ⟨hn, hmaster, hr⟩, _, hstop⟩
  have hvalid : r.Valid :=
    h.valid (List.mem_of_getElem? hn) hmaster (List.mem_of_getElem? hr)
  exact Nat.lt_of_lt_of_le hstop hvalid.2

theorem exists_claims_iff {slot : Nat} :
    (exists position, Claims nodes position slot) <->
      nodes.any (fun n => n.claims slot) = true := by
  rw [List.any_eq_true]
  constructor
  · intro h
    rcases h with ⟨position, n, hn, hclaims⟩
    exact ⟨n, List.mem_of_getElem? hn, hclaims⟩
  · intro h
    rcases h with ⟨n, hn, hclaims⟩
    rcases List.getElem?_of_mem hn with ⟨position, hposition⟩
    exact ⟨position, n, hposition, hclaims⟩

theorem toList_eq_map (owners : Owners) :
    owners.toList =
      (List.range slotCount).map (fun slot => (owners[slot]?).join) := by
  apply List.ext_getElem
  · simp
  · intro slot hslot _
    have hlt : slot < slotCount := by simpa using hslot
    simp [hlt]

theorem unassigned_eq {t : Table} (h : build nodes = .ok t) :
    t.unassigned =
      (List.range slotCount).countP
        (fun slot => !nodes.any (fun n => n.claims slot)) := by
  have hscan := (scanned_of_build h).2
  unfold unassigned
  rw [toList_eq_map, List.count_eq_countP, List.countP_map]
  apply List.countP_congr
  intro slot hslot
  have hlt : slot < slotCount := List.mem_range.mp hslot
  have hfree : (t.owners[slot]?).join = none <-> ¬ exists position,
      Claims nodes position slot := by
    rw [← not_iff_not, not_not, ← ne_eq, Option.ne_none_iff_exists']
    apply exists_congr
    intro position
    rw [← hscan.owner_eq_some, Option.join_eq_some_iff]
  rw [exists_claims_iff, Bool.not_eq_true] at hfree
  simpa using hfree

theorem isComplete_iff (t : Table) :
    t.isComplete = true <-> t.unassigned = 0 := by
  unfold isComplete unassigned
  rw [List.count_eq_zero, List.all_eq_true]
  constructor
  · intro h hmem
    cases h none hmem
  · intro h owner hmem
    cases owner with
    | none => exact absurd hmem h
    | some _ => rfl

theorem node?_of_mem {t : Table} (hids : (t.nodes.map Node.id).Nodup) {n : Node}
    (hmem : n ∈ t.nodes) : t.node? n.id = some n := by
  unfold node?
  generalize t.nodes = nodes at hids hmem
  induction nodes with
  | nil => cases hmem
  | cons m rest ih =>
      rw [List.map_cons, List.nodup_cons] at hids
      rcases List.mem_cons.mp hmem with rfl | htail
      · rw [List.find?_cons_of_pos (by simp)]
      · have hne : m.id ≠ n.id := by
          intro hsame
          exact hids.1 (hsame ▸ List.mem_map_of_mem htail)
        rw [List.find?_cons_of_neg (by simpa using hne)]
        exact ih hids.2 htail

theorem build_withoutIdleRanges (nodes : List Node) :
    (build (nodes.map Node.withoutIdleRanges)).map Table.owners =
      (build nodes).map Table.owners := by
  have hnames : idAt (nodes.map Node.withoutIdleRanges) = idAt nodes := by
    funext position
    unfold idAt
    rw [List.getElem?_map, Option.map_map]
    congr 2
    funext n
    exact n.id_withoutIdleRanges
  have hscan : forall (names : Nat -> String) (position : Nat) (owners : Owners)
      (rest : List Node),
        claimNodes names position owners (rest.map Node.withoutIdleRanges) =
          claimNodes names position owners rest := by
    intro names position owners rest
    induction rest generalizing position owners with
    | nil => rfl
    | cons n rest ih =>
        rw [List.map_cons, claimNodes, claimNodes,
          Node.isMaster_withoutIdleRanges]
        by_cases h : n.isMaster = true
        · have hsame : n.withoutIdleRanges = n := if_pos h
          rw [if_pos h, if_pos h, hsame]
          cases claimRanges names position owners n.slots with
          | error e => rfl
          | ok owners' => exact ih (position + 1) owners'
        · rw [if_neg h, if_neg h, ih]
  unfold build
  rw [hnames, hscan]
  cases claimNodes (idAt nodes) 0 unowned nodes <;> rfl

/-! ## The slot table of a view -/

/-- A view has a table exactly if it is consistent.  In the table a slot belongs
to the only entry that claims it, slots that nobody claims have no owner, and
the number of the latter within the keyspace is known.  Any other view is
refused with its first offence.  Nodes that are no masters have no say. -/
theorem build_exact (nodes : List Node) :
    ((exists t, build nodes = .ok t) <-> Consistent nodes) ∧
    (forall t, build nodes = .ok t ->
      t.nodes = nodes ∧
      (forall slot position, Claims nodes position slot ->
        t.slotOwner? slot = nodes[position]? ∧ slot < slotCount ∧
          forall other, Claims nodes other slot -> other = position) ∧
      (forall slot, (forall position, ¬ Claims nodes position slot) ->
        t.slotOwner? slot = none) ∧
      (forall slot, slotCount ≤ slot -> t.slotOwner? slot = none) ∧
      t.unassigned =
        (List.range slotCount).countP
          (fun slot => !nodes.any (fun n => n.claims slot)) ∧
      (t.isComplete = true <-> t.unassigned = 0)) ∧
    (forall e, build nodes = .error e <-> FirstOffence nodes e) ∧
    (build (nodes.map Node.withoutIdleRanges)).map Table.owners =
      (build nodes).map Table.owners := by
  refine ⟨build_eq_ok_iff, ?_, fun _ => build_eq_error_iff,
    build_withoutIdleRanges nodes⟩
  intro t h
  have hconsistent : Consistent nodes := build_eq_ok_iff.mp ⟨t, h⟩
  refine ⟨(scanned_of_build h).1, ?_, fun _ => slotOwner?_eq_none h, ?_,
    unassigned_eq h, isComplete_iff t⟩
  · intro slot position hclaims
    exact ⟨slotOwner?_of_claims h hclaims, hconsistent.slot_lt hclaims,
      fun other hother => hconsistent.disjoint hother hclaims⟩
  · intro slot hbeyond
    apply slotOwner?_eq_none h
    intro position hclaims
    have hlt := hconsistent.slot_lt hclaims
    omega

/-- A master may claim a slot twice, and a replica may name the slots of another
node.  Of two masters that name a slot the second is refused. -/
theorem build_exact_overlaps :
    (exists t, build
        [.makeMaster "a" (.atAddress "h" 1) [⟨0, 100⟩, ⟨50, 150⟩],
          { Node.makeReplica "r" (.atAddress "h" 2) "a" with
            slots := [⟨0, 10⟩] }] = .ok t ∧
      t.slotOwner? 60 =
        some (.makeMaster "a" (.atAddress "h" 1) [⟨0, 100⟩, ⟨50, 150⟩]) ∧
      t.slotOwner? 150 = none) ∧
    build
        [.makeMaster "a" (.atAddress "h" 1) [⟨0, 100⟩],
          .makeMaster "b" (.atAddress "h" 2) [⟨50, 150⟩]] =
            .error (.slotConflict 50 "a" "b") := by
  constructor
  · have hfirst : forall {position slot : Nat},
        Claims [.makeMaster "a" (.atAddress "h" 1) [⟨0, 100⟩, ⟨50, 150⟩],
          { Node.makeReplica "r" (.atAddress "h" 2) "a" with
            slots := [⟨0, 10⟩] }] position slot ->
        position = 0 ∧ slot < 150 := by
      intro position slot h
      rcases h with ⟨n, hn, hclaims⟩
      unfold Node.claims at hclaims
      rw [Bool.and_eq_true] at hclaims
      match position, hn with
      | 0, hn =>
          cases hn
          simp [Node.makeMaster] at hclaims
          omega
      | 1, hn =>
          cases hn
          exact absurd hclaims.1 (by decide)
    have hbuilt :=
        (build_exact
          [.makeMaster "a" (.atAddress "h" 1) [⟨0, 100⟩, ⟨50, 150⟩],
            { Node.makeReplica "r" (.atAddress "h" 2) "a" with
              slots := [⟨0, 10⟩] }]).1.mpr (by
      constructor
      case valid =>
        intro n r hn hmaster hr
        rcases List.mem_cons.mp hn with hn | hn
        · subst hn
          revert r
          decide
        · rw [List.mem_singleton] at hn
          subst hn
          exact absurd hmaster (by decide)
      case disjoint =>
        intro first second slot h h'
        rw [(hfirst h).1, (hfirst h').1])
    rcases hbuilt with ⟨t, ht⟩
    rcases (build_exact _).2.1 t ht with ⟨_, howned, hfree, _⟩
    refine ⟨t, ht, (howned 60 0 ⟨_, rfl, by decide⟩).1, hfree 150 ?_⟩
    intro position h
    exact absurd (hfirst h).2 (Nat.lt_irrefl 150)
  · apply ((build_exact _).2.2.1 _).mpr
    have hsecond :
        RangeAt [.makeMaster "a" (.atAddress "h" 1) [⟨0, 100⟩],
          .makeMaster "b" (.atAddress "h" 2) [⟨50, 150⟩]] 1 0
            (.makeMaster "b" (.atAddress "h" 2) [⟨50, 150⟩]) ⟨50, 150⟩ :=
      ⟨rfl, by decide, rfl⟩
    refine ⟨_, Offence.slot hsecond (by decide) Nat.one_pos rfl (by decide), ?_⟩
    intro other e hoffence hbefore
    cases hoffence with
    | @range i j n r found invalid =>
        rcases found with ⟨hn, _, hr⟩
        match i, j, hn, hr with
        | 0, 0, hn, hr =>
            cases hn
            cases hr
            exact invalid (by decide)
        | 1, 0, hn, hr =>
            cases hn
            cases hr
            exact invalid (by decide)
    | @slot i j k slot n m r found holds earlier _ _ =>
        have hi : i = 1 := by
          have hlt := (List.getElem?_eq_some_iff.mp found.1).1
          simp only [List.length_cons, List.length_nil] at hlt
          omega
        subst hi
        simp only [Place.Before] at hbefore
        have hj : j = 0 := by omega
        subst hj
        rw [(found.unique hsecond).2] at holds
        have hstart : 50 ≤ slot := holds.1
        omega

end Table
end SlotCluster
