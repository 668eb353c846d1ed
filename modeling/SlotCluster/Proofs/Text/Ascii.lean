import Mathlib.Data.List.Basic
import SlotCluster.Proofs.Text.Encoding

/-!
# The first 128 characters

A byte below 128 is a character of its own, and a character that takes more
bytes is beyond the first 128: the bounds of its bytes leave out every spelling
that is longer than need be.  So a text of such characters has been read from
the bytes of the same numbers and from no others.
-/

namespace SlotCluster
namespace Utf8

theorem tail_of_continuation {lead : UInt8} {count : Nat} {rest : Bytes}
    (h : (continuation lead (count + 1) rest).length = count + 1) :
    exists second more, continuation lead (count + 1) rest = second :: more ∧
      (secondBounds lead).1 ≤ second ∧ second ≤ (secondBounds lead).2 ∧
        more.length = count ∧
      forall b, b ∈ more -> Follows b := by
  cases rest with
  | nil => cases h
  | cons second rest =>
      rw [continuation] at h ⊢
      by_cases hbounds :
        (secondBounds lead).1 ≤ second && second ≤ (secondBounds lead).2
      · rw [if_pos hbounds] at h ⊢
        rw [Bool.and_eq_true, decide_eq_true_eq, decide_eq_true_eq] at hbounds
        refine ⟨second, _, rfl, hbounds.1, hbounds.2, Nat.succ.inj h,
          fun b hb => ?_⟩
        have hwithin := List.mem_takeWhile_imp hb
        rw [Bool.and_eq_true, decide_eq_true_eq, decide_eq_true_eq] at hwithin
        exact hwithin
      · rw [if_neg hbounds] at h
        cases h

theorem toNat_of_follows {b : UInt8} (h : Follows b) :
    0x80 ≤ b.toNat ∧ b.toNat ≤ 0xBF :=
  ⟨UInt8.le_iff_toNat_le.mp h.1, UInt8.le_iff_toNat_le.mp h.2⟩

theorem toNat_secondBounds {lead second : UInt8}
    (hlow : (secondBounds lead).1 ≤ second)
    (hhigh : second ≤ (secondBounds lead).2) :
    0x80 ≤ second.toNat ∧ second.toNat ≤ 0xBF ∧
      (lead.toNat = 0xE0 -> 0xA0 ≤ second.toNat) ∧
      (lead.toNat = 0xED -> second.toNat ≤ 0x9F) ∧
        (lead.toNat = 0xF0 -> 0x90 ≤ second.toNat) ∧
      (lead.toNat = 0xF4 -> second.toNat ≤ 0x8F) := by
  rw [UInt8.le_iff_toNat_le] at hlow hhigh
  rw [secondBounds_eq] at hlow hhigh
  by_cases hE0 : lead.toNat = 0xE0
  · rw [if_pos hE0] at hlow hhigh
    change 160 ≤ _ at hlow
    change _ ≤ 191 at hhigh
    omega
  by_cases hED : lead.toNat = 0xED
  · rw [if_neg hE0, if_pos hED] at hlow hhigh
    change 128 ≤ _ at hlow
    change _ ≤ 159 at hhigh
    omega
  by_cases hF0 : lead.toNat = 0xF0
  · rw [if_neg hE0, if_neg hED, if_pos hF0] at hlow hhigh
    change 144 ≤ _ at hlow
    change _ ≤ 191 at hhigh
    omega
  by_cases hF4 : lead.toNat = 0xF4
  · rw [if_neg hE0, if_neg hED, if_neg hF0, if_pos hF4] at hlow hhigh
    change 128 ≤ _ at hlow
    change _ ≤ 143 at hhigh
    omega
  · rw [if_neg hE0, if_neg hED, if_neg hF0, if_neg hF4] at hlow hhigh
    change 128 ≤ _ at hlow
    change _ ≤ 191 at hhigh
    omega

theorem toNat_ofNat_of_valid {n : Nat}
    (h : n < 0xD800 ∨ 0xDFFF < n ∧ n < 0x110000) :
    (Char.ofNat n).toNat = n := by
  have hvalid : n.isValidChar := h
  rw [Char.ofNat, dif_pos hvalid]
  rfl

theorem le_assemble {lead : UInt8} {count : Nat} {rest : Bytes}
    (hcount : followers lead = some (count + 1))
    (hall : (continuation lead (count + 1) rest).length = count + 1) :
    0x80 ≤ (assemble lead (continuation lead (count + 1) rest)).toNat := by
  rcases tail_of_continuation hall with
    ⟨second, more, htail, hlow, hhigh, hlength, hmore⟩
  have hsecond := toNat_secondBounds hlow hhigh
  rw [htail]
  rw [followers_eq] at hcount
  split at hcount
  · cases hcount
  split at hcount
  · cases hcount
  split at hcount
  · cases hcount
    cases List.length_eq_zero_iff.mp hlength
    simp only [assemble, leadBits, List.foldl_cons, List.foldl_nil,
      List.length_cons, List.length_nil]
    rw [toNat_ofNat_of_valid (by omega)]
    omega
  split at hcount
  · cases hcount
    rcases List.length_eq_one_iff.mp hlength with ⟨third, rfl⟩
    have hthird := toNat_of_follows (hmore third (List.mem_singleton_self _))
    simp only [assemble, leadBits, List.foldl_cons, List.foldl_nil,
      List.length_cons, List.length_nil]
    rw [toNat_ofNat_of_valid (by omega)]
    omega
  split at hcount
  · cases hcount
    rcases List.length_eq_two.mp hlength with ⟨third, fourth, rfl⟩
    have hthird := toNat_of_follows (hmore third List.mem_cons_self)
    have hfourth := toNat_of_follows (hmore fourth (by simp))
    simp only [assemble, leadBits, List.foldl_cons, List.foldl_nil,
      List.length_cons, List.length_nil]
    rw [toNat_ofNat_of_valid (by omega)]
    omega
  · cases hcount

theorem lt_of_front {lead : UInt8} {rest : Bytes} {c : Char}
    (h : (front lead rest).1 = some c) (hc : c.toNat < 0x80) : lead < 0x80 := by
  unfold front at h
  cases hcount : followers lead with
  | none =>
      rw [hcount] at h
      cases h
  | some count =>
      cases count with
      | zero =>
          rw [followers_eq] at hcount
          split at hcount
          · rename_i hlead
            exact UInt8.lt_iff_toNat_lt.mpr hlead
          · repeat' split at hcount
            all_goals cases hcount
      | succ count =>
          rw [hcount] at h
          dsimp only at h
          split at h
          · rename_i hall
            cases h
            exact absurd (le_assemble hcount hall) (Nat.not_le.mpr hc)
          · cases h

theorem bytes_of_parts {raw : Bytes} {text : List Char}
    (h : parts raw = text.map some)
    (htext : forall c, c ∈ text -> c.toNat < 0x80) :
    raw = text.map (fun c => UInt8.ofNat c.toNat) := by
  induction text generalizing raw with
  | nil =>
      cases raw with
      | nil => rfl
      | cons b rest =>
          rw [parts] at h
          cases h
  | cons c text ih =>
      cases raw with
      | nil =>
          rw [parts] at h
          cases h
      | cons b rest =>
          have hfront : (front b rest).1 = some c := by
            rw [parts] at h
            exact (List.cons.inj h).1
          have hb := lt_of_front hfront (htext c List.mem_cons_self)
          rw [front_of_lt hb] at hfront
          rw [parts_cons_of_lt hb] at h
          rw [List.map_cons,
            ← ih (List.cons.inj h).2
              (fun d hd => htext d (List.mem_cons_of_mem _ hd))]
          have hlt : b.toNat < 0x80 := UInt8.lt_iff_toNat_lt.mp hb
          rw [← Option.some.inj hfront, toNat_ofNat_of_valid (by omega),
            UInt8.ofNat_toNat]

/-- A text of the first 128 characters is read from their numbers and from
nothing else. -/
theorem bytes_of_decode? {raw : Bytes} {text : List Char}
    (h : decode? raw = some text)
    (htext : forall c, c ∈ text -> c.toNat < 0x80) :
    raw = text.map (fun c => UInt8.ofNat c.toNat) :=
  bytes_of_parts (parts_of_decode? h) htext

end Utf8
end SlotCluster
