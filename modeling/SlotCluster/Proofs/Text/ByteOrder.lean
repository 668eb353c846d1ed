import SlotCluster.Proofs.Text.Encoding

/-!
# The order of texts and of their bytes

Texts are ordered by their characters, and their encodings by bytes.  Both
orders are one: the first bytes of two characters that take equally many bytes
are their leading digits, and a character that takes more bytes has a larger
first byte.
-/

namespace SlotCluster
namespace Utf8

theorem ofNat_lt_ofNat {m n : Nat} (hm : m < 256) (hn : n < 256) :
    UInt8.ofNat m < UInt8.ofNat n <-> m < n := by
  rw [UInt8.lt_iff_toNat_lt, toNat_ofNat_of_lt hm, toNat_ofNat_of_lt hn]

theorem ofNat_eq_ofNat {m n : Nat} (hm : m < 256) (hn : n < 256) :
    UInt8.ofNat m = UInt8.ofNat n <-> m = n := by
  rw [← UInt8.toNat_inj, toNat_ofNat_of_lt hm, toNat_ofNat_of_lt hn]

theorem utf8EncodeChar_append_lt {c d : Char} (h : c < d) (r s : Bytes) :
    String.utf8EncodeChar c ++ r < String.utf8EncodeChar d ++ s := by
  have hlt : c.val.toNat < d.val.toNat := UInt32.lt_iff_toNat_lt.mp h
  have hlast : d.val.toNat < 0x110000 := by
    have hvalid := d.valid
    unfold UInt32.isValidChar Nat.isValidChar at hvalid
    omega
  have hdigits (n : Nat) (hn : n < 0x110000) : n / 64 / 64 = n / 4096 ∧
    n / 4096 / 64 = n / 262144 ∧ n / 262144 % 8 = n / 262144 := by omega
  have hc := hdigits c.val.toNat (Nat.lt_trans hlt hlast)
  have hd := hdigits d.val.toNat hlast
  have hleading (k : Nat) : c.val.toNat / k ≤ d.val.toNat / k :=
    Nat.div_le_div_right (Nat.le_of_lt hlt)
  have hthird := hleading 64
  have hsecond := hleading 4096
  have hfirst := hleading 262144
  unfold String.utf8EncodeChar
  dsimp only
  -- One case for every pair of lengths; a longer character is never the smaller
  -- one.
  split_ifs <;> first
    | omega
    | (simp only [List.cons_append, List.nil_append, List.cons_lt_cons_iff]
       simp (disch := omega) only [ofNat_lt_ofNat, ofNat_eq_ofNat]
       omega)

theorem encode_lt_encode {s t : String} (h : s < t) : encode s < encode t := by
  rw [String.lt_iff] at h
  unfold encode
  revert h
  generalize s.toList = l
  generalize t.toList = m
  intro h
  induction l generalizing m with
  | nil =>
      cases m with
      | nil => exact absurd h (List.lt_irrefl [])
      | cons d m =>
          have hne : String.utf8EncodeChar d ++
              m.flatMap String.utf8EncodeChar ≠ [] :=
            List.append_ne_nil_of_left_ne_nil String.utf8EncodeChar_ne_nil _
          rw [List.flatMap_nil, List.flatMap_cons]
          rcases List.exists_cons_of_ne_nil hne with ⟨b, rest, hcons⟩
          rw [hcons]
          exact List.nil_lt_cons b rest
  | cons c l ih =>
      cases m with
      | nil => exact absurd h (List.not_lt_nil _)
      | cons d m =>
          rw [List.flatMap_cons, List.flatMap_cons]
          rcases List.cons_lt_cons_iff.mp h with hlt | ⟨rfl, htail⟩
          · exact utf8EncodeChar_append_lt hlt _ _
          · exact List.append_left_lt (ih m htail)

/-- The order of texts is the order of their bytes. -/
theorem encode_lt_encode_iff {s t : String} :
    encode s < encode t <-> s < t := by
  constructor
  · intro h
    refine Std.lt_of_le_of_ne ?_ ?_
    · rw [← String.not_lt]
      intro hgt
      exact absurd (encode_lt_encode hgt) (List.lt_asymm h)
    · rintro rfl
      exact absurd h (List.lt_irrefl _)
  · exact encode_lt_encode

end Utf8
end SlotCluster
