import SlotCluster.Proofs.Slot.Ranges
import SlotCluster.Proofs.Text.Numerals
import SlotCluster.Proofs.Text.Pieces
import SlotCluster.Topology.Listing

/-!
# Slot tokens

A slot token is one number, or two numbers with a dash between, and each number
may have a plus sign.  It is read as the range between its numbers, and it is
refused if these name no range.  What a range is written as is such a token, so
every range is read back; a single slot is written differently from a longer
range, and both are read in the same way.
-/

namespace SlotCluster
namespace Listing

open Text

/-! ## Reading -/

/-- The token is the number of a slot, or two numbers with a dash between them.
The numbers may be too large for slots, but not for 32 bits. -/
inductive Names (token : List Char) : UInt32 -> UInt32 -> Prop where
  | single {slot : UInt32} (whole : '-' ∉ token)
      (number : Decimal.Denotes token slot.toNat) : Names token slot slot
  | bounds {first last : UInt32} {front back : List Char}
      (cut : token = front ++ '-' :: back) (whole : '-' ∉ front)
      (lower : Decimal.Denotes front first.toNat)
      (upper : Decimal.Denotes back last.toNat) : Names token first last

theorem parseSlot?_eq_some_iff {text : List Char} {slot : UInt32} :
    parseSlot? text = some slot <-> Decimal.Denotes text slot.toNat :=
  Decimal.map_below?_eq_some_iff UInt32.toNat_lt
    (fun _ h => UInt32.toNat_ofNat_of_lt' h) (fun _ => UInt32.ofNat_toNat)

theorem parseSlots_of_names {token : List Char} {first last : UInt32}
    (h : Names token first last) :
    parseSlots token = SlotRange.inclusive first last := by
  unfold parseSlots
  cases h with
  | single whole number =>
      rw [splitFirst_eq_none_iff.mpr whole, parseSlot?_eq_some_iff.mpr number]
      rfl
  | bounds cut whole lower upper =>
      rw [splitFirst_eq_some_iff.mpr ⟨cut, whole⟩]
      simp only [parseSlot?_eq_some_iff.mpr lower,
        parseSlot?_eq_some_iff.mpr upper]

theorem names_or_refused (token : List Char) :
    (exists first last, Names token first last) ∨
      parseSlots token =
        .error (.invalidEndpoint
          ("invalid slot token: " ++ String.ofList token)) := by
  unfold parseSlots
  cases hsplit : splitFirst '-' token with
  | none =>
      simp only
      cases hslot : parseSlot? token with
      | none => exact Or.inr rfl
      | some slot =>
          exact Or.inl
            ⟨slot, slot,
              Names.single (splitFirst_eq_none_iff.mp hsplit)
                (parseSlot?_eq_some_iff.mp hslot)⟩
  | some parts =>
      rcases parts with ⟨front, back⟩
      rcases splitFirst_eq_some_iff.mp hsplit with ⟨hcut, hwhole⟩
      simp only
      cases hfirst : parseSlot? front with
      | none => exact Or.inr rfl
      | some first =>
          cases hlast : parseSlot? back with
          | none => exact Or.inr rfl
          | some last =>
              exact Or.inl
                ⟨first, last,
                  Names.bounds hcut hwhole (parseSlot?_eq_some_iff.mp hfirst)
                    (parseSlot?_eq_some_iff.mp hlast)⟩

/-- A token is read as the slots between its bounds, and these are in order and
within the keyspace. -/
theorem parseSlots_eq_ok_iff {token : List Char} {r : SlotRange} :
    parseSlots token = .ok r <->
      exists first last,
        Names token first last ∧ (first ≤ last ∧ last.toNat < slotCount) ∧
        r = ⟨first, last + 1⟩ := by
  constructor
  · intro h
    rcases names_or_refused token with ⟨first, last, hnames⟩ | hrefused
    · rw [parseSlots_of_names hnames] at h
      exact ⟨first, last, hnames, SlotRange.inclusive_eq_ok_iff.mp h⟩
    · rw [hrefused] at h
      cases h
  · rintro ⟨first, last, hnames, hrange⟩
    rw [parseSlots_of_names hnames]
    exact SlotRange.inclusive_eq_ok_iff.mpr hrange

theorem valid_of_parseSlots {token : List Char} {r : SlotRange}
    (h : parseSlots token = .ok r) : r.Valid := by
  rcases parseSlots_eq_ok_iff.mp h with ⟨first, last, _, hrange⟩
  exact SlotRange.valid_of_inclusive (SlotRange.inclusive_eq_ok_iff.mpr hrange)

inductive TokenFault (token : List Char) : TopologyError -> Prop where
  | garbled (nameless : forall first last, ¬ Names token first last) :
      TokenFault token
        (.invalidEndpoint ("invalid slot token: " ++ String.ofList token))
  /-- The bounds are not in order, or the last one is no slot. -/
  | range {first last : UInt32} (names : Names token first last)
      (bad : ¬ (first ≤ last ∧ last.toNat < slotCount)) :
      TokenFault token (.invalidRange first (SlotRange.next last))

theorem parseSlots_eq_error_iff {token : List Char} {e : TopologyError} :
    parseSlots token = .error e <-> TokenFault token e := by
  constructor
  · intro h
    by_cases hnames : exists first last, Names token first last
    · rcases hnames with ⟨first, last, hnames⟩
      rw [parseSlots_of_names hnames, SlotRange.inclusive_eq] at h
      split at h
      · cases h
      · rename_i hbad
        cases h
        exact TokenFault.range hnames hbad
    · rcases names_or_refused token with hfound | hrefused
      · exact absurd hfound hnames
      · rw [hrefused] at h
        cases h
        exact TokenFault.garbled
          (fun first last hname => hnames ⟨first, last, hname⟩)
  · intro h
    cases h with
    | garbled nameless =>
        rcases names_or_refused token with ⟨first, last, hname⟩ | hrefused
        · exact absurd hname (nameless first last)
        · exact hrefused
    | range names bad =>
        rw [parseSlots_of_names names, SlotRange.inclusive_eq, if_neg bad]

/-! ## Writing -/

theorem dash_not_mem_digits (n : Nat) : '-' ∉ Decimal.digits n := by
  intro h
  exact absurd (Decimal.isDigit_of_mem_digits h) (by decide)

theorem names_render {r : SlotRange} (h : r.Valid) :
    Names r.render r.start (r.stop - 1) := by
  have hlt : r.start.toNat < r.stop.toNat := UInt32.lt_iff_toNat_lt.mp h.1
  unfold SlotRange.render
  split
  · rename_i hone
    have hlast : r.stop - 1 = r.start := by
      unfold SlotRange.size at hone
      rw [← UInt32.toNat_inj, SlotRange.toNat_pred_stop h]
      omega
    rw [hlast]
    exact Names.single (dash_not_mem_digits _) (Decimal.denotes_digits _)
  · exact Names.bounds rfl (dash_not_mem_digits _) (Decimal.denotes_digits _)
      (Decimal.denotes_digits _)

theorem parseSlots_render {r : SlotRange} (h : r.Valid) :
    parseSlots r.render = .ok r := by
  rw [parseSlots_of_names (names_render h), SlotRange.inclusive_pred_stop h]

/-! ## Numbers -/

theorem dash_not_mem_of_denotes {text : List Char} {n : Nat}
    (h : Decimal.Denotes text n) : '-' ∉ text := by
  rcases h with ⟨numeral, htext, _, hdigits, _⟩
  have hnumeral : '-' ∉ numeral :=
    fun hdash => absurd (hdigits '-' hdash) (by decide)
  rcases htext with rfl | rfl
  · exact hnumeral
  · rw [List.mem_cons, not_or]
    exact ⟨by decide, hnumeral⟩

theorem toNat_ofNat_slot {n : Nat} (h : n < slotCount) :
    (UInt32.ofNat n).toNat = n :=
  UInt32.toNat_ofNat_of_lt' (Nat.lt_trans h (by decide))

theorem exists_parseSlots_iff {token : List Char} :
    (exists r, parseSlots token = .ok r) <->
      (exists slot, Decimal.Denotes token slot ∧ slot < slotCount) ∨
        exists front back first last,
          token = front ++ '-' :: back ∧ '-' ∉ front ∧
          Decimal.Denotes front first ∧ Decimal.Denotes back last ∧
            first ≤ last ∧ last < slotCount := by
  constructor
  · rintro ⟨r, hr⟩
    rcases parseSlots_eq_ok_iff.mp hr with
      ⟨first, last, hnames, ⟨hle, hlast⟩, _⟩
    cases hnames with
    | single whole number => exact Or.inl ⟨_, number, hlast⟩
    | bounds cut whole lower upper =>
        exact Or.inr
          ⟨_, _, _, _, cut, whole, lower, upper,
            UInt32.le_iff_toNat_le.mp hle, hlast⟩
  · rintro (⟨slot, hnumber, hslot⟩ |
      ⟨front, back, first, last, hcut, hwhole, hlower, hupper, hle, hlast⟩)
    · have hsame := toNat_ofNat_slot hslot
      rw [← hsame] at hnumber hslot
      exact ⟨_, parseSlots_eq_ok_iff.mpr
        ⟨_, _, Names.single (dash_not_mem_of_denotes hnumber) hnumber,
          ⟨UInt32.le_refl _, hslot⟩, rfl⟩⟩
    · have hfirst := toNat_ofNat_slot (Nat.lt_of_le_of_lt hle hlast)
      have hsame := toNat_ofNat_slot hlast
      rw [← hfirst] at hlower hle
      rw [← hsame] at hupper hle hlast
      exact ⟨_, parseSlots_eq_ok_iff.mpr
        ⟨_, _, Names.bounds hcut hwhole hlower hupper,
          ⟨UInt32.le_iff_toNat_le.mpr hle, hlast⟩, rfl⟩⟩

/-! ## Ranges and their tokens -/

structure Ends (first last : UInt32) : Prop where
  named : (exists r, SlotRange.inclusive first last = .ok r) <->
    first ≤ last ∧ last ≤ 16383
  holds : forall r, SlotRange.inclusive first last = .ok r ->
    forall slot, r.contains slot = true <-> first ≤ slot ∧ slot ≤ last
  /-- The largest number has no successor. -/
  refused : forall fault, SlotRange.inclusive first last = .error fault ->
    exists stop, fault = .invalidRange first stop ∧
      stop.toNat = min (last.toNat + 1) 0xFFFFFFFF
  single : SlotRange.single first = SlotRange.inclusive first first

theorem ends_of_bounds (first last : UInt32) : Ends first last where
  named := by
    have hbound : last ≤ 16383 <-> last.toNat < slotCount :=
      UInt32.le_iff_toNat_le.trans Nat.lt_succ_iff.symm
    rw [hbound]
    constructor
    · rintro ⟨r, hr⟩
      exact (SlotRange.inclusive_eq_ok_iff.mp hr).1
    · intro h
      exact ⟨_, SlotRange.inclusive_eq_ok_iff.mpr ⟨h, rfl⟩⟩
  holds _ hr := SlotRange.contains_of_inclusive hr
  refused fault hfault :=
    ⟨_, (SlotRange.inclusive_eq_error_iff.mp hfault).2,
      SlotRange.toNat_next last⟩
  single := rfl

structure Coherent (r : SlotRange) : Prop where
  listed : forall n, n ∈ r.slots <->
    exists slot : UInt32, slot.toNat = n ∧ r.contains slot = true
  increasing : r.slots.Pairwise (· < ·)
  counted : r.slots.length = r.size
  empty : r.isEmpty = true <-> r.slots = []

theorem coherent (r : SlotRange) : Coherent r :=
  ⟨fun _ => SlotRange.mem_slots_iff_contains, r.pairwise_slots, r.length_slots,
    SlotRange.isEmpty_iff⟩

/-- Two numbers are the ends of a range exactly if they are in order and both
are slots.  The slots of a range are the same in every view of it, and a valid
range has some and is read back from its text.  A token is read exactly if it is
a slot or two slots in order with the first dash between, and then as the range
between its ends. -/
theorem ranges_exact :
    (forall first last, Ends first last) ∧
    (forall r : SlotRange,
      Coherent r ∧
      (r.Valid -> r.isEmpty = false ∧ parseSlots r.render = .ok r)) ∧
    forall token,
      ((exists r, parseSlots token = .ok r) <->
        (exists slot, Decimal.Denotes token slot ∧ slot < 16384) ∨
          exists front back first last,
            token = front ++ '-' :: back ∧ '-' ∉ front ∧
            Decimal.Denotes front first ∧ Decimal.Denotes back last ∧
              first ≤ last ∧ last < 16384) ∧
      forall first last, Names token first last ->
        parseSlots token = SlotRange.inclusive first last := by
  refine ⟨ends_of_bounds,
    fun r => ⟨coherent r, fun hvalid => ⟨?_, parseSlots_render hvalid⟩⟩,
    fun _ => ⟨exists_parseSlots_iff, fun _ _ => parseSlots_of_names⟩⟩
  have hsize := hvalid.size_pos
  rw [← r.length_slots, List.length_pos_iff] at hsize
  exact Bool.eq_false_iff.mpr
    (fun hempty => hsize (SlotRange.isEmpty_iff.mp hempty))

def lastSlot : SlotRange :=
  ⟨16383, 16384⟩

def lastSlotTwice : List Char :=
  ['+', '1', '6', '3', '8', '3', '-', '0', '1', '6', '3', '8', '3']

theorem ranges_exact_at_bounds :
    (SlotRange.inclusive 16383 16383 = .ok lastSlot ∧
      lastSlot.contains 16383 = true ∧
      lastSlot.contains 16384 = false) ∧
    SlotRange.inclusive 16383 0xFFFFFFFF =
      .error (.invalidRange 16383 0xFFFFFFFF) ∧
    (lastSlot.Valid ∧ parseSlots lastSlot.render = .ok lastSlot) ∧
    Names lastSlotTwice 16383 16383 ∧
      parseSlots lastSlotTwice = .ok lastSlot := by
  rcases ranges_exact with ⟨hends, hranges, htokens⟩
  have hinclusive : SlotRange.inclusive 16383 16383 = .ok lastSlot := by decide
  have hholds := (hends 16383 16383).holds _ hinclusive
  have hbeyond : SlotRange.inclusive 16383 0xFFFFFFFF =
      .error (.invalidRange 16383 0xFFFFFFFF) := by
    cases hresult : SlotRange.inclusive 16383 0xFFFFFFFF with
    | ok r => exact absurd ((hends _ _).named.mp ⟨r, hresult⟩) (by decide)
    | error fault =>
        rcases (hends _ _).refused fault hresult with ⟨stop, rfl, hstop⟩
        have hsame : stop = 0xFFFFFFFF := UInt32.toNat_inj.mp hstop
        rw [hsame]
  have hvalid : lastSlot.Valid := by decide
  have hcut : lastSlotTwice = ['+', '1', '6', '3', '8', '3'] ++ '-' ::
      ['0', '1', '6', '3', '8', '3'] :=
    rfl
  have hnames : Names lastSlotTwice 16383 16383 :=
    .bounds hcut (by decide)
      ⟨_, Or.inr rfl, Decimal.natural?_eq_some_iff.mp rfl⟩
      ⟨_, Or.inl rfl, Decimal.natural?_eq_some_iff.mp rfl⟩
  refine ⟨⟨hinclusive, (hholds 16383).mpr (by decide), ?_⟩, hbeyond,
    ⟨hvalid, ((hranges _).2 hvalid).2⟩, hnames, ?_⟩
  · exact Bool.eq_false_iff.mpr
      (fun hmore => absurd ((hholds 16384).mp hmore) (by decide))
  · rw [(htokens _).2 _ _ hnames]
    exact hinclusive

end Listing
end SlotCluster
