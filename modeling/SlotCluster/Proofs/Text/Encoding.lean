import Mathlib.Data.List.TakeWhile
import SlotCluster.Proofs.Text.Numerals

/-!
# Text read back from its bytes

The bytes of a character are one part, and it is that character.  A text is
therefore what lossy reading makes of its encoding.

The first byte of a character says how many bytes follow it, and for a few first
bytes the second one has narrower bounds than the others.  The encoding keeps to
these bounds because a character is no surrogate, is not beyond the last code
point, and is encoded in as few bytes as can hold it.
-/

namespace SlotCluster
namespace Utf8

def Follows (b : UInt8) : Prop :=
  0x80 ≤ b ∧ b ≤ 0xBF

theorem continuation_of_follows {lead second : UInt8} {more : Bytes}
    (rest : Bytes) (hlow : (secondBounds lead).1 ≤ second)
    (hhigh : second ≤ (secondBounds lead).2)
    (hmore : forall b, b ∈ more -> Follows b) :
    continuation lead (more.length + 1) (second :: (more ++ rest)) =
      second :: more := by
  have hbounds :
      (decide ((secondBounds lead).1 ≤ second) &&
        decide (second ≤ (secondBounds lead).2)) = true := by
    rw [Bool.and_eq_true, decide_eq_true_eq, decide_eq_true_eq]
    exact ⟨hlow, hhigh⟩
  have hall : more.takeWhile (fun b => decide (0x80 ≤ b) && decide (b ≤ 0xBF)) =
      more := by
    rw [List.takeWhile_eq_self_iff]
    intro b hb
    rw [Bool.and_eq_true, decide_eq_true_eq, decide_eq_true_eq]
    exact hmore b hb
  rw [continuation]
  simp only [hbounds, if_true, List.take_left, hall]

theorem parts_of_follows {lead second : UInt8} {more : Bytes} (rest : Bytes)
    (hcount : followers lead = some (more.length + 1))
    (hlow : (secondBounds lead).1 ≤ second)
    (hhigh : second ≤ (secondBounds lead).2)
    (hmore : forall b, b ∈ more -> Follows b) :
    parts (lead :: second :: (more ++ rest)) =
      some (assemble lead (second :: more)) :: parts rest := by
  have hfront : front lead (second :: (more ++ rest)) =
      (some (assemble lead (second :: more)), more.length + 1) := by
    unfold front
    simp only [hcount, continuation_of_follows rest hlow hhigh hmore,
      List.length_cons, if_true]
  rw [parts, hfront, List.drop_succ_cons, List.drop_left]

/-! ## The bytes of one character -/

theorem followers_eq (lead : UInt8) :
    followers lead =
      if lead.toNat < 0x80 then some 0
      else if lead.toNat < 0xC2 then none
      else if lead.toNat < 0xE0 then some 1
      else if lead.toNat < 0xF0 then some 2
      else if lead.toNat < 0xF5 then some 3
      else none := by
  unfold followers
  simp only [UInt8.lt_iff_toNat_lt]
  rfl

theorem secondBounds_eq (lead : UInt8) :
    secondBounds lead =
      if lead.toNat = 0xE0 then (0xA0, 0xBF)
      else if lead.toNat = 0xED then (0x80, 0x9F)
      else if lead.toNat = 0xF0 then (0x90, 0xBF)
      else if lead.toNat = 0xF4 then (0x80, 0x8F)
      else (0x80, 0xBF) := by
  unfold secondBounds
  simp only [← UInt8.toNat_inj]
  rfl

theorem toNat_ofNat_of_lt {n : Nat} (h : n < 256) :
    (UInt8.ofNat n).toNat = n := by
  rw [UInt8.toNat_ofNat']
  omega

theorem le_ofNat {b : UInt8} {n : Nat} (h : b.toNat ≤ n) (hn : n < 256) :
    b ≤ UInt8.ofNat n := by
  rw [UInt8.le_iff_toNat_le, toNat_ofNat_of_lt hn]
  exact h

theorem ofNat_le {b : UInt8} {n : Nat} (h : n ≤ b.toNat) :
    UInt8.ofNat n ≤ b := by
  have hb := b.toNat_lt
  rw [UInt8.le_iff_toNat_le, toNat_ofNat_of_lt (by omega)]
  exact h

theorem follows_ofNat (n : Nat) : Follows (UInt8.ofNat (n % 64 + 128)) := by
  constructor
  · exact le_ofNat (Nat.le_add_left _ _) (by omega)
  · exact ofNat_le (show n % 64 + 128 ≤ 191 by omega)

theorem within_secondBounds (lead : UInt8) {m : Nat} (hsix : m < 64)
    (hE0 : lead.toNat = 0xE0 -> 32 ≤ m) (hED : lead.toNat = 0xED -> m < 32)
    (hF0 : lead.toNat = 0xF0 -> 16 ≤ m) (hF4 : lead.toNat = 0xF4 -> m < 16) :
    (secondBounds lead).1 ≤ UInt8.ofNat (m + 128) ∧
      UInt8.ofNat (m + 128) ≤ (secondBounds lead).2 := by
  have hlow : (0x80 : UInt8) ≤ UInt8.ofNat (m + 128) :=
    le_ofNat (Nat.le_add_left 128 m) (by omega)
  have hhigh : UInt8.ofNat (m + 128) ≤ (0xBF : UInt8) :=
    ofNat_le (Nat.add_le_add_right (Nat.le_of_lt_succ hsix) 128)
  rw [secondBounds_eq]
  split
  · rename_i hlead
    exact ⟨le_ofNat (Nat.add_le_add_right (hE0 hlead) 128) (by omega), hhigh⟩
  · split
    · rename_i hlead
      exact ⟨hlow,
        ofNat_le (Nat.add_le_add_right (Nat.le_of_lt_succ (hED hlead)) 128)⟩
    · split
      · rename_i hlead
        exact ⟨le_ofNat (Nat.add_le_add_right (hF0 hlead) 128) (by omega),
          hhigh⟩
      · split
        · rename_i hlead
          exact ⟨hlow,
            ofNat_le (Nat.add_le_add_right (Nat.le_of_lt_succ (hF4 hlead)) 128)⟩
        · exact ⟨hlow, hhigh⟩

variable {n : Nat} (rest : Bytes)

theorem parts_twoBytes (hlow : 0x80 ≤ n) (hhigh : n ≤ 0x7FF) :
    parts ([UInt8.ofNat (n / 64 % 32 + 192), UInt8.ofNat (n % 64 + 128)] ++
      rest) = some (Char.ofNat n) :: parts rest := by
  have hlead : (UInt8.ofNat (n / 64 % 32 + 192)).toNat = n / 64 % 32 + 192 :=
    toNat_ofNat_of_lt (by omega)
  have hsecond : (UInt8.ofNat (n % 64 + 128)).toNat = n % 64 + 128 :=
    toNat_ofNat_of_lt (by omega)
  have hcount : followers (UInt8.ofNat (n / 64 % 32 + 192)) = some 1 := by
    rw [followers_eq, hlead, if_neg (by omega), if_neg (by omega),
      if_pos (by omega)]
  have hbounds := within_secondBounds (UInt8.ofNat (n / 64 % 32 + 192))
    (show n % 64 < 64 by omega) (by omega) (by omega) (by omega) (by omega)
  have hparts :=
    parts_of_follows rest hcount hbounds.1 hbounds.2
      (fun _ hb => (List.not_mem_nil hb).elim)
  have hchar :
      assemble (UInt8.ofNat (n / 64 % 32 + 192)) [UInt8.ofNat (n % 64 + 128)] =
        Char.ofNat n := by
    simp only [assemble, leadBits, List.foldl_cons, List.foldl_nil,
      List.length_singleton, hlead, hsecond]
    congr 1
    omega
  rw [hchar] at hparts
  exact hparts

theorem parts_threeBytes (hlow : 0x800 ≤ n) (hhigh : n ≤ 0xFFFF)
    (hvalid : n < 0xD800 ∨ 0xDFFF < n) :
    parts ([UInt8.ofNat (n / 4096 % 16 + 224), UInt8.ofNat (n / 64 % 64 + 128),
      UInt8.ofNat (n % 64 + 128)] ++ rest) = some (Char.ofNat n) ::
        parts rest := by
  have hlead :
      (UInt8.ofNat (n / 4096 % 16 + 224)).toNat = n / 4096 % 16 + 224 :=
    toNat_ofNat_of_lt (by omega)
  have hsecond : (UInt8.ofNat (n / 64 % 64 + 128)).toNat = n / 64 % 64 + 128 :=
    toNat_ofNat_of_lt (by omega)
  have hthird : (UInt8.ofNat (n % 64 + 128)).toNat = n % 64 + 128 :=
    toNat_ofNat_of_lt (by omega)
  have hcount : followers (UInt8.ofNat (n / 4096 % 16 + 224)) = some 2 := by
    rw [followers_eq, hlead, if_neg (by omega), if_neg (by omega),
      if_neg (by omega), if_pos (by omega)]
  -- The shortest spelling needs a high second byte after E0, and surrogates are
  -- missing after ED.
  have hbounds := within_secondBounds (UInt8.ofNat (n / 4096 % 16 + 224))
    (show n / 64 % 64 < 64 by omega) (by omega) (by omega) (by omega) (by omega)
  have hmore : forall b, b ∈ [UInt8.ofNat (n % 64 + 128)] -> Follows b := by
    intro b hb
    rw [List.mem_singleton.mp hb]
    exact follows_ofNat n
  have hparts := parts_of_follows rest hcount hbounds.1 hbounds.2 hmore
  have hchar :
      assemble (UInt8.ofNat (n / 4096 % 16 + 224))
        [UInt8.ofNat (n / 64 % 64 + 128), UInt8.ofNat (n % 64 + 128)] =
        Char.ofNat n := by
    simp only [assemble, leadBits, List.foldl_cons, List.foldl_nil,
      List.length_cons, List.length_nil, hlead, hsecond, hthird]
    congr 1
    omega
  rw [hchar] at hparts
  exact hparts

theorem parts_fourBytes (hlow : 0x10000 ≤ n) (hhigh : n < 0x110000) :
    parts ([UInt8.ofNat (n / 262144 % 8 + 240),
      UInt8.ofNat (n / 4096 % 64 + 128),
      UInt8.ofNat (n / 64 % 64 + 128), UInt8.ofNat (n % 64 + 128)] ++ rest) =
      some (Char.ofNat n) :: parts rest := by
  have hlead :
      (UInt8.ofNat (n / 262144 % 8 + 240)).toNat = n / 262144 % 8 + 240 :=
    toNat_ofNat_of_lt (by omega)
  have hsecond :
      (UInt8.ofNat (n / 4096 % 64 + 128)).toNat = n / 4096 % 64 + 128 :=
    toNat_ofNat_of_lt (by omega)
  have hthird : (UInt8.ofNat (n / 64 % 64 + 128)).toNat = n / 64 % 64 + 128 :=
    toNat_ofNat_of_lt (by omega)
  have hfourth : (UInt8.ofNat (n % 64 + 128)).toNat = n % 64 + 128 :=
    toNat_ofNat_of_lt (by omega)
  have hcount : followers (UInt8.ofNat (n / 262144 % 8 + 240)) = some 3 := by
    rw [followers_eq, hlead, if_neg (by omega), if_neg (by omega),
      if_neg (by omega), if_neg (by omega), if_pos (by omega)]
  have hbounds :=
    within_secondBounds (UInt8.ofNat (n / 262144 % 8 + 240))
      (show n / 4096 % 64 < 64 by omega) (by omega) (by omega)
      (by omega) (by omega)
  have hmore : forall b,
      b ∈ [UInt8.ofNat (n / 64 % 64 + 128), UInt8.ofNat (n % 64 + 128)] ->
      Follows b := by
    intro b hb
    rcases List.mem_cons.mp hb with heq | hmem
    · rw [heq]
      exact follows_ofNat (n / 64)
    · rw [List.mem_singleton.mp hmem]
      exact follows_ofNat n
  have hparts := parts_of_follows rest hcount hbounds.1 hbounds.2 hmore
  have hchar :
      assemble (UInt8.ofNat (n / 262144 % 8 + 240))
        [UInt8.ofNat (n / 4096 % 64 + 128), UInt8.ofNat (n / 64 % 64 + 128),
          UInt8.ofNat (n % 64 + 128)] = Char.ofNat n := by
    simp only [assemble, leadBits, List.foldl_cons, List.foldl_nil,
      List.length_cons, List.length_nil, hlead, hsecond, hthird, hfourth]
    congr 1
    omega
  rw [hchar] at hparts
  exact hparts

/-- The bytes of a character are one part, whatever follows them. -/
theorem parts_utf8EncodeChar (c : Char) :
    parts (String.utf8EncodeChar c ++ rest) = some c :: parts rest := by
  have hvalid :
      c.val.toNat < 0xD800 ∨ 0xDFFF < c.val.toNat ∧ c.val.toNat < 0x110000 :=
    c.valid
  have hchar : Char.ofNat c.val.toNat = c := Char.ofNat_toNat c
  unfold String.utf8EncodeChar
  simp only
  split
  · rename_i hone
    have hlt : UInt8.ofNat c.val.toNat < 0x80 := by
      rw [UInt8.lt_iff_toNat_lt, toNat_ofNat_of_lt (by omega)]
      exact Nat.lt_succ_of_le hone
    rw [List.singleton_append, parts_cons_of_lt hlt,
      toNat_ofNat_of_lt (by omega), hchar]
  · split
    · rename_i hone htwo
      rw [parts_twoBytes rest (by omega) htwo, hchar]
    · split
      · rename_i hone htwo hthree
        rw [parts_threeBytes rest (by omega) hthree (by omega), hchar]
      · rw [parts_fourBytes rest (by omega) (by omega), hchar]

theorem parts_encode (text : String) :
    parts (encode text) = text.toList.map some := by
  unfold encode
  induction text.toList with
  | nil => rw [List.flatMap_nil, parts, List.map_nil]
  | cons c more ih =>
      rw [List.flatMap_cons, parts_utf8EncodeChar, ih, List.map_cons]

theorem decodeLossy_encode (text : String) :
    decodeLossy (encode text) = text := by
  unfold decodeLossy
  rw [parts_encode, List.map_map]
  have hid : ((fun part : Option Char => part.getD '\uFFFD') ∘ some) = id := rfl
  rw [hid, List.map_id, String.ofList_toList]

end Utf8
end SlotCluster
