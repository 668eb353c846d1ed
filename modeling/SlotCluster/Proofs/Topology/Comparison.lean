import Mathlib.Data.List.Nodup
import Mathlib.Data.Quot
import Mathlib.Logic.Relation
import SlotCluster.Proofs.Slot.Ranges
import SlotCluster.Proofs.Topology.Ownership

/-!
# Comparing two views

Two tables are compared by the roles of their ids and by the ids of the owners
of their slots.  Owners are positions in two lists that may be ordered
differently, and one set of slots can be cut into ranges in many ways.  The
comparison still says what it should: it succeeds exactly if the same ids stand
in both views, each with the same roles, and each master with the same slots.

Said the other way round, these are exactly the views that come from one another
by edits that have nothing to do with the topology.
-/

namespace SlotCluster

theorem of_eqvGen {α β : Type} {r : α -> α -> Prop} {s : β -> β -> Prop}
    (hs : Equivalence s) (f : α -> β) (h : forall a b, r a b -> s (f a) (f b))
    {a b : α} (hab : Relation.EqvGen r a b) : s (f a) (f b) :=
  (hs.comap f).eqvGen_iff.mp (Relation.EqvGen.mono h a b hab)

/-!
## Ranges that hold the same slots

Ranges can be recut into any others that hold the same slots.
-/

namespace SlotRange

def Held (ranges : List SlotRange) (slot : UInt32) : Prop :=
  exists r, r ∈ ranges ∧ r.contains slot = true

/-- Another way of writing a set of slots as ranges. -/
inductive Recut : List SlotRange -> List SlotRange -> Prop where
  | reorder {ranges others : List SlotRange} (same : ranges.Perm others) :
      Recut ranges others
  /-- A range is split in two; read backwards, two neighbours are merged. -/
  | split {r : SlotRange} {cut : UInt32} (after : r.start ≤ cut)
      (before : cut ≤ r.stop) (rest : List SlotRange) :
      Recut (r :: rest) (⟨r.start, cut⟩ :: ⟨cut, r.stop⟩ :: rest)
  /-- A range is added all of whose slots lie in others. -/
  | overlap {r : SlotRange} {ranges : List SlotRange}
      (held : forall slot, r.contains slot = true -> Held ranges slot) :
      Recut ranges (r :: ranges)

variable {ranges others : List SlotRange}

theorem held_cons {r : SlotRange} {slot : UInt32} :
    Held (r :: ranges) slot <-> r.contains slot = true ∨ Held ranges slot := by
  unfold Held
  simp only [List.mem_cons, or_and_right, exists_or, exists_eq_left]

theorem contains_split {r : SlotRange} {cut : UInt32} (hafter : r.start ≤ cut)
    (hbefore : cut ≤ r.stop) (slot : UInt32) :
    r.contains slot = true <-> (SlotRange.mk r.start cut).contains slot = true ∨
      (SlotRange.mk cut r.stop).contains slot = true := by
  rw [UInt32.le_iff_toNat_le] at hafter hbefore
  simp only [contains_iff]
  omega

theorem held_of_recut (h : Recut ranges others) :
    Held ranges = Held others := by
  funext slot
  apply propext
  cases h with
  | reorder same =>
      unfold Held
      simp only [same.mem_iff]
  | split after before rest =>
      rw [held_cons, held_cons, held_cons,
        contains_split after before, or_assoc]
  | overlap held =>
      rw [held_cons]
      exact ⟨Or.inr, fun h => h.elim (held slot) id⟩

theorem recut_append (more : List SlotRange)
    (h : forall slot, Held more slot -> Held ranges slot) :
    Relation.EqvGen Recut ranges (more ++ ranges) := by
  induction more with
  | nil => exact Relation.EqvGen.refl ranges
  | cons r more ih =>
      have hmore := ih (fun slot hslot => h slot (held_cons.mpr (Or.inr hslot)))
      have hfirst : forall slot, r.contains slot = true ->
          Held (more ++ ranges) slot := by
        intro slot hslot
        rcases h slot (held_cons.mpr (Or.inl hslot)) with
          ⟨other, hother, hholds⟩
        exact ⟨other, List.mem_append_right more hother, hholds⟩
      exact hmore.trans _ _ _ (Relation.EqvGen.rel _ _ (Recut.overlap hfirst))

theorem recut_iff :
    Relation.EqvGen Recut ranges others <-> Held ranges = Held others := by
  constructor
  · exact of_eqvGen eq_equivalence Held (fun _ _ => held_of_recut)
  · intro h
    have hthere : Relation.EqvGen Recut ranges (others ++ ranges) :=
      recut_append others (fun slot hslot => by rwa [h])
    have hmiddle :
        Relation.EqvGen Recut (others ++ ranges) (ranges ++ others) :=
      Relation.EqvGen.rel _ _ (Recut.reorder List.perm_append_comm)
    have hback : Relation.EqvGen Recut others (ranges ++ others) :=
      recut_append ranges (fun slot hslot => by rwa [← h])
    exact (hthere.trans _ _ _ hmiddle).trans _ _ _ (hback.symm _ _)

end SlotRange

/-!
## Nodes that are alike

Between two descriptions of one node that are alike a comparison sees no
difference.  One comes from the other by changing endpoint, master, flags and
ranges one after the other.
-/

def FlagSet.SameRoles (s t : FlagSet) : Prop :=
  forall flag, flag ∈ [Flag.master, .replica, .failing] ->
    s.has flag = t.has flag

theorem Flag.isRole_iff {flag : Flag} :
    flag.isRole = true <-> flag ∈ [master, replica, failing] := by
  cases flag <;> decide

theorem FlagSet.roles_eq (s : FlagSet) :
    s.roles = Flag.all.filter (fun flag => flag.isRole && s.has flag) := by
  unfold roles has
  conv_lhs => rw [← s.normal]
  rw [Flag.normalize, List.filter_filter]

theorem FlagSet.roles_eq_iff {s t : FlagSet} :
    s.roles = t.roles <-> s.SameRoles t := by
  constructor
  · intro h flag hflag
    have hmem : flag ∈ s.roles <-> flag ∈ t.roles := by rw [h]
    rw [roles_eq, roles_eq, List.mem_filter, List.mem_filter,
      Flag.isRole_iff.mpr hflag] at hmem
    simpa only [flag.mem_all, Bool.true_and, true_and, ← Bool.eq_iff_iff]
      using hmem
  · intro h
    rw [roles_eq, roles_eq]
    apply List.filter_congr
    intro flag _
    cases hrole : flag.isRole with
    | false => rfl
    | true => rw [h flag (Flag.isRole_iff.mp hrole)]

namespace Node

structure Alike (n m : Node) : Prop where
  id : n.id = m.id
  roles : n.flags.SameRoles m.flags
  slots : n.isMaster = true -> forall slot, n.ownsSlot slot = m.ownsSlot slot

inductive Edit (n : Node) : Node -> Prop where
  /-- Address, credential and timeout are in the endpoint. -/
  | endpoint (endpoint : Endpoint) : Edit n { n with endpoint }
  | masterId (masterId : Option String) : Edit n { n with masterId }
  | flags {flags : FlagSet} (roles : n.flags.SameRoles flags) :
      Edit n { n with flags }
  | idle (slots : List SlotRange) (idle : n.isMaster = false) :
      Edit n { n with slots }
  | recut {slots : List SlotRange} (recut : SlotRange.Recut n.slots slots) :
      Edit n { n with slots }

variable {n m k : Node}

theorem ownsSlot_eq_iff :
    (forall slot, n.ownsSlot slot = m.ownsSlot slot) <->
      SlotRange.Held n.slots = SlotRange.Held m.slots := by
  have howns : forall (n : Node) (slot : UInt32),
      SlotRange.Held n.slots slot = (n.ownsSlot slot = true) := by
    intro n slot
    unfold ownsSlot SlotRange.Held
    rw [List.any_eq_true]
  rw [funext_iff]
  refine forall_congr' (fun slot => ?_)
  rw [howns, howns, Bool.eq_iff_iff, eq_iff_iff]

theorem Alike.isMaster (h : n.Alike m) : n.isMaster = m.isMaster :=
  h.roles .master List.mem_cons_self

theorem alike_equivalence : Equivalence Alike where
  refl _ := ⟨rfl, fun _ _ => rfl, fun _ _ => rfl⟩
  symm h :=
    { id := h.id.symm
      roles := fun flag hflag => (h.roles flag hflag).symm
      slots :=
        fun hmaster slot => (h.slots (h.isMaster.trans hmaster) slot).symm }
  trans h h' :=
    { id := h.id.trans h'.id
      roles :=
        fun flag hflag => (h.roles flag hflag).trans (h'.roles flag hflag)
      slots := fun hmaster slot =>
        (h.slots hmaster slot).trans
          (h'.slots (h.isMaster.symm.trans hmaster) slot) }

theorem alike_of_edit (h : n.Edit m) : n.Alike m := by
  cases h with
  | endpoint _ => exact ⟨rfl, fun _ _ => rfl, fun _ _ => rfl⟩
  | masterId _ => exact ⟨rfl, fun _ _ => rfl, fun _ _ => rfl⟩
  | flags roles => exact ⟨rfl, roles, fun _ _ => rfl⟩
  | idle slots idle =>
      exact ⟨rfl, fun _ _ => rfl,
        fun hmaster => absurd hmaster (Bool.not_eq_true _ ▸ idle)⟩
  | recut recut =>
      exact ⟨rfl, fun _ _ => rfl,
        fun _ => ownsSlot_eq_iff.mpr (SlotRange.held_of_recut recut)⟩

theorem edits_of_recut {slots : List SlotRange}
    (h : Relation.EqvGen SlotRange.Recut n.slots slots) :
    Relation.EqvGen Edit n { n with slots } :=
  of_eqvGen (Relation.EqvGen.is_equivalence Edit)
    (fun slots => { n with slots })
    (fun ranges _ h =>
      Relation.EqvGen.rel _ _ (Edit.recut (n := { n with slots := ranges }) h))
    h

theorem alike_iff : n.Alike m <-> Relation.EqvGen Edit n m := by
  constructor
  · intro h
    let moved : Node := { n with endpoint := m.endpoint }
    let followed : Node := { moved with masterId := m.masterId }
    let flagged : Node := { followed with flags := m.flags }
    have hmoved : Relation.EqvGen Edit n moved :=
      Relation.EqvGen.rel _ _ (Edit.endpoint m.endpoint)
    have hfollowed : Relation.EqvGen Edit moved followed :=
      Relation.EqvGen.rel _ _ (Edit.masterId m.masterId)
    have hflagged : Relation.EqvGen Edit followed flagged :=
      Relation.EqvGen.rel _ _ (Edit.flags h.roles)
    have hslots :
        Relation.EqvGen Edit flagged { flagged with slots := m.slots } := by
      cases hmaster : n.isMaster with
      | false =>
          exact Relation.EqvGen.rel
            _ _ (Edit.idle m.slots (h.isMaster.symm.trans hmaster))
      | true =>
          exact edits_of_recut
            (SlotRange.recut_iff.mpr (ownsSlot_eq_iff.mp (h.slots hmaster)))
    have hlast : { flagged with slots := m.slots } = m := by
      change { m with id := n.id } = m
      rw [h.id]
    rw [← hlast]
    exact ((hmoved.trans _ _ _ hfollowed).trans _ _ _ hflagged).trans
      _ _ _ hslots
  · exact of_eqvGen alike_equivalence (fun n => n) (fun _ _ => alike_of_edit)

theorem Alike.claims (h : n.Alike m) {slot : Nat} (hslot : slot < slotCount) :
    n.claims slot = m.claims slot := by
  have hsame : (UInt32.ofNat slot).toNat = slot :=
    UInt32.toNat_ofNat_of_lt' (Nat.lt_trans hslot (by decide))
  rw [← hsame, claims_toNat, claims_toNat, ← h.isMaster]
  cases hmaster : n.isMaster with
  | false => rfl
  | true => rw [h.slots hmaster]

def setoid : Setoid Node :=
  ⟨Alike, alike_equivalence⟩

end Node

namespace Table

/-!
## Views that are alike

The views that edits connect are those that look the same up to the order of
the nodes.
-/

/-- The same ids stand in both views, and what they say of one id is alike. -/
structure SameView (a b : List Node) : Prop where
  ids : forall id, (exists n, n ∈ a ∧ n.id = id) <-> exists m, m ∈ b ∧ m.id = id
  alike : forall {n m : Node}, n ∈ a -> m ∈ b -> n.id = m.id -> n.Alike m

inductive Edit : List Node -> List Node -> Prop where
  | reorder {a b : List Node} (same : a.Perm b) : Edit a b
  | node {n m : Node} (edit : n.Edit m) (front back : List Node) :
      Edit (front ++ n :: back) (front ++ m :: back)

def looks (nodes : List Node) : List (Quotient Node.setoid) :=
  nodes.map (Quotient.mk Node.setoid)

variable {a b : List Node} {t u : Table}

theorem looks_of_edit (h : Edit a b) : (looks a).Perm (looks b) := by
  cases h with
  | reorder same => exact same.map _
  | node edit front back =>
      unfold looks
      rw [List.map_append, List.map_append, List.map_cons, List.map_cons,
        Quotient.sound (Node.alike_of_edit edit)]

theorem edits_cons (n : Node) (h : Relation.EqvGen Edit a b) :
    Relation.EqvGen Edit (n :: a) (n :: b) := by
  refine of_eqvGen (Relation.EqvGen.is_equivalence Edit) (List.cons n)
    (fun a b h => ?_) h
  apply Relation.EqvGen.rel
  cases h with
  | reorder same => exact Edit.reorder (same.cons n)
  | node edit front back => exact Edit.node edit (n :: front) back

theorem edits_head {n m : Node} (h : Relation.EqvGen Node.Edit n m)
    (rest : List Node) : Relation.EqvGen Edit (n :: rest) (m :: rest) :=
  of_eqvGen (Relation.EqvGen.is_equivalence Edit) (fun n => n :: rest)
    (fun _ _ h => Relation.EqvGen.rel _ _ (Edit.node h [] rest)) h

theorem looks_perm_iff :
    (looks a).Perm (looks b) <-> Relation.EqvGen Edit a b := by
  constructor
  · intro h
    induction a generalizing b with
    | nil =>
        rw [List.map_eq_nil_iff.mp h.nil_eq.symm]
        exact Relation.EqvGen.refl []
    | cons n a ih =>
        rcases List.mem_map.mp (h.mem_iff.mp List.mem_cons_self) with
          ⟨m, hm, hsame⟩
        rcases List.append_of_mem hm with ⟨front, back, rfl⟩
        have hfirst : (front ++ m :: back).Perm (m :: (front ++ back)) :=
          List.perm_middle
        have hrest : (looks a).Perm (looks (front ++ back)) := by
          have hall := h.trans (hfirst.map _)
          rw [List.map_cons, hsame] at hall
          exact hall.cons_inv
        have halike : Relation.EqvGen Node.Edit n m :=
          Node.alike_iff.mp (Quotient.exact hsame.symm)
        exact ((edits_cons n (ih hrest)).trans
          _ _ _ (edits_head halike _)).trans
            _ _ _ (Relation.EqvGen.rel _ _ (Edit.reorder hfirst.symm))
  · exact of_eqvGen (List.Perm.eqv _) looks (fun _ _ => looks_of_edit)

theorem eq_of_id (hids : (a.map Node.id).Nodup) {n m : Node} (hn : n ∈ a)
    (hm : m ∈ a) (hsame : n.id = m.id) : n = m :=
  List.inj_on_of_nodup_map hids hn hm hsame

theorem nodup_looks (hids : (a.map Node.id).Nodup) : (looks a).Nodup := by
  refine List.Nodup.map_on (fun n hn m hm hsame => ?_)
    (List.Nodup.of_map _ hids)
  exact eq_of_id hids hn hm (Quotient.exact hsame : n.Alike m).id

/-- Among views with distinct ids, those with the same ids and alike nodes are
the ones that edits connect. -/
theorem sameView_iff_edits (ha : (a.map Node.id).Nodup)
    (hb : (b.map Node.id).Nodup) :
    SameView a b <-> Relation.EqvGen Edit a b := by
  rw [← looks_perm_iff,
    List.perm_ext_iff_of_nodup (nodup_looks ha) (nodup_looks hb)]
  have hlook : forall {nodes : List Node} {n : Node},
      Quotient.mk Node.setoid n ∈ looks nodes <->
      exists m, m ∈ nodes ∧ m.Alike n := by
    intro nodes n
    unfold looks
    rw [List.mem_map]
    exact exists_congr
      (fun m => and_congr_right (fun _ => Quotient.eq (r := Node.setoid)))
  constructor
  · intro h look
    induction look using Quotient.ind with
    | _ n =>
        rw [hlook, hlook]
        constructor
        · intro hn
          rcases hn with ⟨m, hm, hmn⟩
          rcases (h.ids m.id).mp ⟨m, hm, rfl⟩ with ⟨k, hk, hid⟩
          have hkm := Node.alike_equivalence.symm (h.alike hm hk hid.symm)
          exact ⟨k, hk, Node.alike_equivalence.trans hkm hmn⟩
        · intro hn
          rcases hn with ⟨m, hm, hmn⟩
          rcases (h.ids m.id).mpr ⟨m, hm, rfl⟩ with ⟨k, hk, hid⟩
          exact ⟨k, hk, Node.alike_equivalence.trans (h.alike hk hm hid) hmn⟩
  · intro h
    have hpartner {n : Node} (hn : n ∈ a) : exists m, m ∈ b ∧ m.Alike n :=
      hlook.mp ((h _).mp (hlook.mpr ⟨n, hn, Node.alike_equivalence.refl n⟩))
    constructor
    case ids =>
      intro id
      constructor
      · intro hn
        rcases hn with ⟨n, hn, rfl⟩
        rcases hpartner hn with ⟨m, hm, hmn⟩
        exact ⟨m, hm, hmn.id⟩
      · intro hm
        rcases hm with ⟨m, hm, rfl⟩
        rcases hlook.mp
          ((h _).mpr (hlook.mpr ⟨m, hm, Node.alike_equivalence.refl m⟩)) with
          ⟨n, hn, hnm⟩
        exact ⟨n, hn, hnm.id⟩
    case alike =>
      intro n m hn hm hid
      rcases hpartner hn with ⟨k, hk, hkn⟩
      have hsame : k = m := eq_of_id hb hk hm (hkn.id.trans hid)
      rw [← hsame]
      exact Node.alike_equivalence.symm hkn

/-! ## What the comparison of two tables sees -/

theorem roles?_of_mem (hids : (t.nodes.map Node.id).Nodup) {n : Node}
    (hn : n ∈ t.nodes) : t.roles? n.id = some n.roleFlags := by
  let reversed : Table := ⟨t.nodes.reverse, t.owners⟩
  have hfound : reversed.node? n.id = some n := by
    apply node?_of_mem
    · change (t.nodes.reverse.map Node.id).Nodup
      rw [List.map_reverse, List.nodup_reverse]
      exact hids
    · exact List.mem_reverse.mpr hn
  exact congrArg (Option.map Node.roleFlags) hfound

theorem roles?_eq_some (hids : (t.nodes.map Node.id).Nodup) {id : String}
    {flags : List Flag} :
    t.roles? id = some flags <->
      exists n, n ∈ t.nodes ∧ n.id = id ∧ n.roleFlags = flags := by
  constructor
  · intro h
    rcases Option.map_eq_some_iff.mp h with ⟨n, hfound, hflags⟩
    have hid := List.find?_some hfound
    exact ⟨n, List.mem_reverse.mp (List.mem_of_find?_eq_some hfound),
      of_decide_eq_true hid, hflags⟩
  · intro h
    rcases h with ⟨n, hn, rfl, rfl⟩
    exact roles?_of_mem hids hn

theorem rolesWithin_iff (ht : (t.nodes.map Node.id).Nodup)
    (hu : (u.nodes.map Node.id).Nodup) :
    t.rolesWithin u = true <->
      forall n, n ∈ t.nodes ->
      exists m, m ∈ u.nodes ∧ m.id = n.id ∧ n.flags.SameRoles m.flags := by
  unfold rolesWithin
  rw [List.all_eq_true]
  refine forall_congr' (fun n => imp_congr_right (fun hn => ?_))
  rw [beq_iff_eq, roles?_of_mem ht hn, eq_comm, roles?_eq_some hu]
  simp only [← FlagSet.roles_eq_iff, Node.roleFlags, eq_comm]

theorem ownerId_eq_some (hbuilt : build a = .ok t) {slot : Nat} {id : String} :
    (t.slotOwner? slot).map Node.id = some id <->
      exists n, n ∈ a ∧ n.claims slot = true ∧ n.id = id := by
  constructor
  · intro h
    rcases Option.map_eq_some_iff.mp h with ⟨n, howner, hid⟩
    by_cases hclaimed : exists position, Claims a position slot
    · rcases hclaimed with ⟨position, m, hm, hclaims⟩
      rw [slotOwner?_of_claims hbuilt ⟨m, hm, hclaims⟩, hm] at howner
      cases howner
      exact ⟨n, List.mem_of_getElem? hm, hclaims, hid⟩
    · rw [slotOwner?_eq_none hbuilt (not_exists.mp hclaimed)] at howner
      cases howner
  · intro h
    rcases h with ⟨n, hn, hclaims, hid⟩
    rcases List.getElem?_of_mem hn with ⟨position, hposition⟩
    rw [slotOwner?_of_claims hbuilt ⟨n, hposition, hclaims⟩, hposition, ← hid]
    rfl

def SameOwners (t u : Table) : Prop :=
  forall slot, slot < slotCount ->
    (t.slotOwner? slot).map Node.id = (u.slotOwner? slot).map Node.id

theorem sameTopology_eq_true :
    t.sameTopology u = true <->
      t.rolesWithin u = true ∧ u.rolesWithin t = true ∧ t.SameOwners u := by
  unfold sameTopology SameOwners
  simp only [Bool.and_eq_true, List.all_eq_true, List.mem_range,
    beq_iff_eq, and_assoc]

theorem sameOwners_of_sameView (ht : build a = .ok t) (hu : build b = .ok u)
    (h : SameView a b) : t.SameOwners u := by
  intro slot hslot
  apply Option.ext
  intro id
  rw [ownerId_eq_some ht, ownerId_eq_some hu]
  constructor
  · intro hn
    rcases hn with ⟨n, hn, hclaims, hid⟩
    rcases (h.ids n.id).mp ⟨n, hn, rfl⟩ with ⟨m, hm, hsame⟩
    exact ⟨m, hm, ((h.alike hn hm hsame.symm).claims hslot).symm.trans hclaims,
      hsame.trans hid⟩
  · intro hm
    rcases hm with ⟨m, hm, hclaims, hid⟩
    rcases (h.ids m.id).mpr ⟨m, hm, rfl⟩ with ⟨n, hn, hsame⟩
    exact ⟨n, hn, ((h.alike hn hm hsame).claims hslot).trans hclaims,
      hsame.trans hid⟩

theorem ownsSlot_of_sameOwners (hb : (b.map Node.id).Nodup)
    (ht : build a = .ok t) (hu : build b = .ok u) (h : t.SameOwners u)
    {n m : Node} (hn : n ∈ a) (hm : m ∈ b) (hid : n.id = m.id)
    (hmaster : n.isMaster = true) {slot : UInt32}
    (howns : n.ownsSlot slot = true) : m.ownsSlot slot = true := by
  have hclaims : n.claims slot.toNat = true := by
    rw [Node.claims_toNat, hmaster, howns]
    rfl
  have hslot : slot.toNat < slotCount := by
    rcases List.getElem?_of_mem hn with ⟨position, hposition⟩
    exact (build_eq_ok_iff.mp ⟨t, ht⟩).slot_lt ⟨n, hposition, hclaims⟩
  have howner := (ownerId_eq_some ht).mpr ⟨n, hn, hclaims, hid⟩
  rw [h _ hslot] at howner
  rcases (ownerId_eq_some hu).mp howner with ⟨k, hk, hkclaims, hkid⟩
  rw [eq_of_id hb hk hm hkid, Node.claims_toNat, Bool.and_eq_true] at hkclaims
  exact hkclaims.2

theorem sameTopology_iff_sameView (ha : (a.map Node.id).Nodup)
    (hb : (b.map Node.id).Nodup) (ht : build a = .ok t) (hu : build b = .ok u) :
    t.sameTopology u = true <-> SameView a b := by
  have hta : t.nodes = a := (scanned_of_build ht).1
  have hub : u.nodes = b := (scanned_of_build hu).1
  have hids : (t.nodes.map Node.id).Nodup := hta ▸ ha
  have hids' : (u.nodes.map Node.id).Nodup := hub ▸ hb
  rw [sameTopology_eq_true, rolesWithin_iff hids hids',
    rolesWithin_iff hids' hids, hta, hub]
  constructor
  · intro h
    rcases h with ⟨hthere, hback, howners⟩
    have hroles {n m : Node} (hn : n ∈ a) (hm : m ∈ b) (hid : n.id = m.id) :
        n.flags.SameRoles m.flags := by
      rcases hthere n hn with ⟨k, hk, hkid, hsame⟩
      rwa [eq_of_id hb hk hm (hkid.trans hid)] at hsame
    constructor
    case ids =>
      intro id
      constructor
      · intro hn
        rcases hn with ⟨n, hn, rfl⟩
        rcases hthere n hn with ⟨m, hm, hid, _⟩
        exact ⟨m, hm, hid⟩
      · intro hm
        rcases hm with ⟨m, hm, rfl⟩
        rcases hback m hm with ⟨n, hn, hid, _⟩
        exact ⟨n, hn, hid⟩
    case alike =>
      intro n m hn hm hid
      refine ⟨hid, hroles hn hm hid, fun hmaster slot => ?_⟩
      have hmaster' : m.isMaster = true :=
        (hroles hn hm hid .master List.mem_cons_self).symm.trans hmaster
      have howners' : u.SameOwners t :=
        fun slot hslot => (howners slot hslot).symm
      rw [Bool.eq_iff_iff]
      exact ⟨ownsSlot_of_sameOwners hb ht hu howners hn hm hid hmaster,
        ownsSlot_of_sameOwners ha hu ht howners' hm hn hid.symm hmaster'⟩
  · intro h
    refine ⟨fun n hn => ?_, fun m hm => ?_, sameOwners_of_sameView ht hu h⟩
    · rcases (h.ids n.id).mp ⟨n, hn, rfl⟩ with ⟨m, hm, hid⟩
      exact ⟨m, hm, hid, (h.alike hn hm hid.symm).roles⟩
    · rcases (h.ids m.id).mpr ⟨m, hm, rfl⟩ with ⟨n, hn, hid⟩
      exact ⟨n, hn, hid, fun flag hflag =>
        ((h.alike hn hm hid).roles flag hflag).symm⟩

/-! ## The comparison of two views -/

theorem consistent_of_master (only : Nat)
    (hvalid : forall n, n ∈ a -> n.isMaster = true ->
      forall r, r ∈ n.slots -> r.Valid)
    (honly : forall (position : Nat) (h : position < a.length),
      a[position].isMaster = true -> position = only) : Consistent a := by
  have hposition {position slot : Nat} (h : Claims a position slot) :
      position = only := by
    rcases h with ⟨n, hn, hclaims⟩
    rcases List.getElem?_eq_some_iff.mp hn with ⟨hlength, rfl⟩
    unfold Node.claims at hclaims
    rw [Bool.and_eq_true] at hclaims
    exact honly position hlength hclaims.1
  constructor
  case valid => exact fun hn hmaster hr => hvalid _ hn hmaster _ hr
  case disjoint => exact fun h h' => (hposition h).trans (hposition h').symm

/-- Two tables of views with distinct ids have the same topology exactly if the
same ids stand in both views, each id with the same roles and, as a master, with
the same slots.  A view that edits lead to is not taken for a change, and every
other view is. -/
theorem sameTopology_exact (ha : (a.map Node.id).Nodup)
    (hb : (b.map Node.id).Nodup) (ht : build a = .ok t) (hu : build b = .ok u) :
    (t.sameTopology u = true <-> SameView a b) ∧
      (isChanged t u = false <-> Relation.EqvGen Edit a b) := by
  have hview := sameTopology_iff_sameView ha hb ht hu
  constructor
  · exact hview
  · rw [isChanged, Bool.not_eq_false', hview]
    exact sameView_iff_edits ha hb

/-- The other view lists a master and its replica the other way round, with
overlapping ranges and another password; the third one lost a slot. -/
theorem sameTopology_exact_recut :
    exists t u v,
      build
        [.makeMaster "a" (.atAddress "h" 1) [⟨0, 100⟩],
          .makeReplica "r" (.atAddress "h" 2) "a"] = .ok t ∧
      build
        [{ Node.makeReplica "r" (.atAddress "h" 3) "a" with
          slots := [⟨0, 10⟩] },
          .makeMaster "a" { Endpoint.atAddress "h" 1 with password := some "p" }
            [⟨40, 100⟩, ⟨0, 60⟩]] = .ok u ∧
      build
        [.makeMaster "a" (.atAddress "h" 1) [⟨0, 99⟩],
          .makeReplica "r" (.atAddress "h" 2) "a"] = .ok v ∧
      isChanged t u = false ∧ isChanged t v = true := by
  rcases build_eq_ok_iff.mpr
    (consistent_of_master
      (a :=
        [.makeMaster "a" (.atAddress "h" 1) [⟨0, 100⟩],
          .makeReplica "r" (.atAddress "h" 2) "a"]) 0 (by decide)
      (by decide)) with ⟨t, ht⟩
  rcases build_eq_ok_iff.mpr (consistent_of_master (a :=
    [{ Node.makeReplica "r" (.atAddress "h" 3) "a" with slots := [⟨0, 10⟩] },
      .makeMaster "a" { Endpoint.atAddress "h" 1 with password := some "p" }
        [⟨40, 100⟩, ⟨0, 60⟩]]) 1
      (by decide) (by decide)) with ⟨u, hu⟩
  rcases build_eq_ok_iff.mpr
    (consistent_of_master
      (a :=
        [.makeMaster "a" (.atAddress "h" 1) [⟨0, 99⟩],
          .makeReplica "r" (.atAddress "h" 2) "a"]) 0 (by decide)
      (by decide)) with ⟨v, hv⟩
  have hkept := sameTopology_exact (by decide) (by decide) ht hu
  have hlost := sameTopology_exact (by decide) (by decide) ht hv
  have hview : SameView
      [.makeMaster "a" (.atAddress "h" 1) [⟨0, 100⟩],
      .makeReplica "r" (.atAddress "h" 2) "a"]
      [{ Node.makeReplica "r" (.atAddress "h" 3) "a" with slots := [⟨0, 10⟩] },
        .makeMaster "a" { Endpoint.atAddress "h" 1 with password := some "p" }
            [⟨40, 100⟩, ⟨0, 60⟩]] := by
    constructor
    case ids =>
      intro id
      simp only [List.mem_cons, List.not_mem_nil, or_false, exists_eq_or_imp,
        exists_eq_left]
      exact or_comm
    case alike =>
      intro n m hn hm hid
      simp only [List.mem_cons, List.not_mem_nil, or_false] at hn hm
      rcases hn with rfl | rfl <;> rcases hm with rfl | rfl
      · exact absurd hid (by decide)
      · refine ⟨rfl, fun _ _ => rfl, fun _ slot => ?_⟩
        rw [Bool.eq_iff_iff]
        simp only [Node.ownsSlot, Node.makeMaster, List.any_cons, List.any_nil,
          Bool.or_false, Bool.or_eq_true, SlotRange.contains_iff,
          UInt32.reduceToNat]
        omega
      · exact ⟨rfl, fun _ _ => rfl, fun hmaster => absurd hmaster (by decide)⟩
      · exact absurd hid (by decide)
  refine ⟨t, u, v, ht, hu, hv, ?_, ?_⟩
  · rw [isChanged, hkept.1.mpr hview]
    rfl
  · rw [isChanged, Bool.not_eq_true', ← Bool.not_eq_true, hlost.1]
    intro h
    have hslots :=
      (h.alike List.mem_cons_self List.mem_cons_self rfl).slots (by decide) 99
    exact absurd hslots (by decide)

end Table
end SlotCluster
