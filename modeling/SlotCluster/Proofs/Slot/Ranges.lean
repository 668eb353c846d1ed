import Mathlib.Data.List.Range
import SlotCluster.Slot.Range

/-!
# Ranges of slots

A range is given by its first slot and the slot after its last, and it is
written with both ends included.  The number after the largest one is that
number itself, so the end of a range never comes out too small: bounds name a
range exactly if they are in order and the last one is a slot.
-/

namespace SlotCluster
namespace SlotRange

/-! ## Both ends included -/

theorem toNat_next (n : UInt32) :
    (next n).toNat = min (n.toNat + 1) 0xFFFFFFFF := by
  have hbound := n.toNat_lt
  unfold next
  split
  · rename_i hmax
    rw [hmax]
    rfl
  · rename_i hne
    have hlt : n.toNat ≠ 0xFFFFFFFF := fun heq => hne (UInt32.toNat_inj.mp heq)
    rw [UInt32.toNat_add]
    change (n.toNat + 1) % 4294967296 = _
    omega

theorem valid_next_iff {first last : UInt32} :
    (SlotRange.mk first (next last)).Valid <->
      first ≤ last ∧ last.toNat < slotCount := by
  have hbound := first.toNat_lt
  unfold Valid slotCount
  rw [UInt32.lt_iff_toNat_lt, UInt32.le_iff_toNat_le]
  dsimp only
  rw [toNat_next]
  omega

theorem inclusive_eq (first last : UInt32) :
    inclusive first last =
      if first ≤ last ∧ last.toNat < slotCount then .ok ⟨first, last + 1⟩
      else .error (.invalidRange first (next last)) := by
  unfold inclusive make
  by_cases h : first ≤ last ∧ last.toNat < slotCount
  · rw [if_pos (valid_next_iff.mpr h), if_pos h]
    have hne : last ≠ 0xFFFFFFFF := by
      rintro rfl
      exact absurd h.2 (by decide)
    rw [next, if_neg hne]
  · rw [if_neg (fun hvalid => h (valid_next_iff.mp hvalid)), if_neg h]

theorem toNat_pred_stop {r : SlotRange} (h : r.Valid) :
    (r.stop - 1).toNat = r.stop.toNat - 1 := by
  have hlt : r.start.toNat < r.stop.toNat := UInt32.lt_iff_toNat_lt.mp h.1
  have hone : (1 : UInt32) ≤ r.stop := by
    rw [UInt32.le_iff_toNat_le]
    exact Nat.succ_le_of_lt (Nat.lt_of_le_of_lt (Nat.zero_le _) hlt)
  rw [UInt32.toNat_sub_of_le _ _ hone]
  rfl

theorem inclusive_pred_stop {r : SlotRange} (h : r.Valid) :
    inclusive r.start (r.stop - 1) = .ok r := by
  have hlt : r.start.toNat < r.stop.toNat := UInt32.lt_iff_toNat_lt.mp h.1
  have hpred := toNat_pred_stop h
  have hstop : r.stop.toNat ≤ slotCount := h.2
  have hbounds : r.start ≤ r.stop - 1 ∧ (r.stop - 1).toNat < slotCount := by
    rw [UInt32.le_iff_toNat_le, hpred]
    omega
  rw [inclusive_eq, if_pos hbounds]
  have hsame : r.stop - 1 + 1 = r.stop := UInt32.sub_add_cancel _ _
  rw [hsame]

theorem toNat_succ_last {last : UInt32} (h : last.toNat < slotCount) :
    (last + 1).toNat = last.toNat + 1 := by
  rw [UInt32.toNat_add]
  unfold slotCount at h
  change (last.toNat + 1) % 4294967296 = _
  omega

theorem inclusive_eq_ok_iff {first last : UInt32} {r : SlotRange} :
    inclusive first last = .ok r <->
      (first ≤ last ∧ last.toNat < slotCount) ∧ r = ⟨first, last + 1⟩ := by
  rw [inclusive_eq]
  split
  · rename_i hbounds
    rw [Except.ok.injEq, eq_comm, and_iff_right hbounds]
  · rename_i hbad
    exact ⟨nofun, fun h => absurd h.1 hbad⟩

theorem inclusive_eq_error_iff {first last : UInt32} {fault : TopologyError} :
    inclusive first last = .error fault <->
      ¬ (first ≤ last ∧ last.toNat < slotCount) ∧
        fault = .invalidRange first (next last) := by
  rw [inclusive_eq]
  split
  · rename_i hbounds
    exact ⟨nofun, fun h => absurd hbounds h.1⟩
  · rename_i hbad
    rw [Except.error.injEq, eq_comm, and_iff_right hbad]

theorem valid_of_inclusive {first last : UInt32} {r : SlotRange}
    (h : inclusive first last = .ok r) : r.Valid := by
  rcases inclusive_eq_ok_iff.mp h with ⟨⟨hle, hlast⟩, rfl⟩
  have hstop := toNat_succ_last hlast
  unfold Valid
  rw [UInt32.lt_iff_toNat_lt, hstop]
  exact ⟨Nat.lt_succ_of_le (UInt32.le_iff_toNat_le.mp hle), hlast⟩

/-! ## Slots of a range -/

theorem contains_iff {r : SlotRange} {slot : UInt32} :
    r.contains slot = true <->
      r.start.toNat ≤ slot.toNat ∧ slot.toNat < r.stop.toNat := by
  unfold contains
  rw [Bool.and_eq_true, decide_eq_true_eq, decide_eq_true_eq,
    UInt32.le_iff_toNat_le, UInt32.lt_iff_toNat_lt]

theorem contains_of_inclusive {first last : UInt32} {r : SlotRange}
    (h : inclusive first last = .ok r) (slot : UInt32) :
    r.contains slot = true <-> first ≤ slot ∧ slot ≤ last := by
  rcases inclusive_eq_ok_iff.mp h with ⟨⟨_, hlast⟩, rfl⟩
  rw [contains_iff, toNat_succ_last hlast, Nat.lt_succ_iff,
    UInt32.le_iff_toNat_le, UInt32.le_iff_toNat_le]

theorem mem_slots_iff {r : SlotRange} {n : Nat} :
    n ∈ r.slots <-> r.start.toNat ≤ n ∧ n < r.stop.toNat := by
  unfold slots size
  rw [List.mem_range'_1]
  omega

theorem mem_slots_iff_contains {r : SlotRange} {n : Nat} :
    n ∈ r.slots <->
      exists slot : UInt32, slot.toNat = n ∧ r.contains slot = true := by
  rw [mem_slots_iff]
  constructor
  · intro h
    have hn : (UInt32.ofNat n).toNat = n :=
      UInt32.toNat_ofNat_of_lt' (Nat.lt_trans h.2 r.stop.toNat_lt)
    refine ⟨UInt32.ofNat n, hn, contains_iff.mpr ?_⟩
    rw [hn]
    exact h
  · rintro ⟨slot, rfl, hcontains⟩
    exact contains_iff.mp hcontains

theorem length_slots (r : SlotRange) : r.slots.length = r.size :=
  List.length_range'

theorem pairwise_slots (r : SlotRange) : r.slots.Pairwise (· < ·) :=
  List.pairwise_lt_range'

theorem isEmpty_iff {r : SlotRange} : r.isEmpty = true <-> r.slots = [] := by
  unfold isEmpty
  rw [beq_iff_eq, ← length_slots, List.length_eq_zero_iff]

theorem Valid.size_pos {r : SlotRange} (h : r.Valid) : 0 < r.size :=
  Nat.sub_pos_of_lt (UInt32.lt_iff_toNat_lt.mp h.1)

end SlotRange
end SlotCluster
