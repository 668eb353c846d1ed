import Mathlib.Algebra.Field.ZMod
import Mathlib.Data.Nat.Bitwise
import Mathlib.Data.ZMod.Basic
import Mathlib.RingTheory.AdjoinRoot
import Mathlib.Tactic.ComputeDegree
import SlotCluster.Slot.Hash

/-!
# The check as a remainder

Bit strings are polynomials over the field with two elements: a bit is a
coefficient, exclusive or is addition and a shift is a product with a power of
`X`.  The check of a byte string is what is left of the string, followed by
sixteen zero bits, after division by `X^16 + X^12 + X^5 + 1`.
-/

namespace SlotCluster
namespace Slot

open Polynomial

/-! ## Bits as coefficients -/

/-- The polynomial whose coefficients are the bits of a number. -/
noncomputable def poly (n : Nat) : (ZMod 2)[X] :=
  ∑ i ∈ Finset.range n, if n.testBit i then X ^ i else 0

theorem testBit_of_le {n w i : Nat} (h : n < 2 ^ w) (hi : w ≤ i) :
    n.testBit i = false :=
  Nat.testBit_lt_two_pow
    (Nat.lt_of_lt_of_le h (Nat.pow_le_pow_right (by decide) hi))

theorem coeff_poly (n i : Nat) :
    (poly n).coeff i = if n.testBit i then 1 else 0 := by
  have hterm (j : Nat) :
      (if n.testBit j then X ^ j else 0 : (ZMod 2)[X]).coeff i =
        if i = j then (if n.testBit j then 1 else 0) else 0 := by
    by_cases hbit : n.testBit j = true
    · rw [if_pos hbit, if_pos hbit, coeff_X_pow]
    · rw [if_neg hbit, if_neg hbit, coeff_zero, ite_self]
  unfold poly
  rw [finsetSum_coeff, Finset.sum_congr rfl (fun j _ => hterm j),
    Finset.sum_ite_eq]
  by_cases hlt : i < n
  · rw [if_pos (Finset.mem_range.mpr hlt)]
  -- A number is less than the power of two that it is the exponent of, so no
  -- bit has been left out.
  · rw [if_neg (by rwa [Finset.mem_range]),
      testBit_of_le Nat.lt_two_pow_self (Nat.le_of_not_lt hlt)]
    rfl

theorem poly_zero : poly 0 = 0 :=
  rfl

theorem degree_poly_lt {n w : Nat} (h : n < 2 ^ w) : (poly n).degree < w := by
  rw [degree_lt_iff_coeff_zero]
  intro i hi
  rw [coeff_poly, testBit_of_le h hi]
  rfl

theorem poly_xor (a b : Nat) : poly (a ^^^ b) = poly a + poly b := by
  ext i
  rw [coeff_add, coeff_poly, coeff_poly, coeff_poly, Nat.testBit_xor]
  cases a.testBit i <;> cases b.testBit i <;> decide

theorem poly_mul_add (a : Nat) {b w : Nat} (hb : b < 2 ^ w) :
    poly (2 ^ w * a + b) = poly a * X ^ w + poly b := by
  ext i
  rw [coeff_add, coeff_mul_X_pow', coeff_poly, coeff_poly, coeff_poly,
    Nat.testBit_two_pow_mul_add a hb]
  by_cases hi : i < w
  · rw [if_pos hi, if_neg (Nat.not_le.mpr hi), zero_add]
  · rw [if_neg hi, if_pos (Nat.le_of_not_lt hi),
      testBit_of_le hb (Nat.le_of_not_lt hi)]
    exact (add_zero _).symm

theorem poly_two_pow_mul (a w : Nat) : poly (2 ^ w * a) = poly a * X ^ w := by
  have h := poly_mul_add a (Nat.two_pow_pos w)
  rw [Nat.add_zero, poly_zero, add_zero] at h
  exact h

theorem poly_one : poly 1 = 1 := by
  show ∑ i ∈ Finset.range 1, _ = _
  rw [Finset.sum_range_one]
  exact pow_zero X

theorem poly_two_pow (w : Nat) : poly (2 ^ w) = X ^ w := by
  have h := poly_two_pow_mul 1 w
  rw [Nat.mul_one, poly_one, one_mul] at h
  exact h

/-! ## The divisor -/

/-- What the check divides by. -/
noncomputable def generator : (ZMod 2)[X] :=
  X ^ 16 + X ^ 12 + X ^ 5 + 1

theorem monic_generator : generator.Monic := by
  unfold generator
  monicity!

theorem degree_generator : generator.degree = (16 : Nat) := by
  unfold generator
  compute_degree!

theorem generator_eq : generator = X ^ 16 + poly 0x1021 := by
  have h : (0x1021 : Nat) = 2 ^ 12 ^^^ (2 ^ 5 ^^^ 2 ^ 0) := by decide
  rw [h, poly_xor, poly_xor, poly_two_pow, poly_two_pow,
    poly_two_pow, generator]
  ring

/-!
## Numbers up to multiples of the divisor

A bit that is shifted out stands for the lower bits of the divisor, and of the
numbers of sixteen bits, that of the remainder is the only one in its class.
-/

noncomputable def residue (n : Nat) : AdjoinRoot generator :=
  AdjoinRoot.mk generator (poly n)

theorem residue_zero : residue 0 = 0 :=
  map_zero _

theorem residue_one : residue 1 = 1 := by
  unfold residue
  rw [poly_one, map_one]

theorem residue_xor (a b : Nat) :
    residue (a ^^^ b) = residue a + residue b := by
  unfold residue
  rw [poly_xor, map_add]

theorem residue_mul_add (a : Nat) {b w : Nat} (hb : b < 2 ^ w) :
    residue (2 ^ w * a + b) = residue a * AdjoinRoot.root generator ^ w +
      residue b := by
  unfold residue
  rw [poly_mul_add a hb, map_add, map_mul, map_pow, AdjoinRoot.mk_X]

theorem residue_two_pow_mul (a w : Nat) :
    residue (2 ^ w * a) = residue a * AdjoinRoot.root generator ^ w := by
  have h := residue_mul_add a (Nat.two_pow_pos w)
  rw [Nat.add_zero, residue_zero, add_zero] at h
  exact h

theorem residue_generator :
    residue 0x1021 = AdjoinRoot.root generator ^ 16 := by
  have hzero : AdjoinRoot.mk generator (X ^ 16 + poly 0x1021) = 0 := by
    rw [← generator_eq]
    exact AdjoinRoot.mk_self
  have htwice : AdjoinRoot.mk generator (X ^ 16 + X ^ 16) = 0 := by
    rw [CharTwo.add_self_eq_zero, map_zero]
  rw [map_add, map_pow, AdjoinRoot.mk_X] at hzero htwice
  exact (add_left_cancel (htwice.trans hzero.symm)).symm

theorem poly_of_residue {n : Nat} (hn : n < 2 ^ 16) {p : (ZMod 2)[X]}
    (h : residue n = AdjoinRoot.mk generator p) : poly n = p %ₘ generator := by
  have hself : poly n %ₘ generator = poly n := by
    rw [modByMonic_eq_self_iff monic_generator, degree_generator]
    exact degree_poly_lt hn
  rw [← hself]
  exact modByMonic_eq_of_dvd_sub monic_generator (AdjoinRoot.mk_eq_mk.mp h)

/-! ## The register -/

theorem and_top_eq_zero_iff (r : UInt16) :
    r &&& 0x8000 = 0 <-> r.toNat / 2 ^ 15 = 0 := by
  have htop : r.toNat / 2 ^ 15 = 0 ∨ r.toNat / 2 ^ 15 = 1 := by
    have hr := r.toNat_lt
    omega
  have hand : (r &&& 0x8000).toNat = (r.toNat.testBit 15).toNat * 2 ^ 15 := by
    rw [UInt16.toNat_and]
    exact Nat.and_two_pow r.toNat 15
  have hzero : r &&& 0x8000 = 0 <-> (r &&& 0x8000).toNat = 0 :=
    UInt16.toNat_inj.symm
  rw [hzero, hand, Nat.testBit_eq_decide_div_mod_eq]
  rcases htop with htop | htop <;> rw [htop] <;> decide

/-- A step of the check is a product with `X`. -/
theorem residue_crcBit (r : UInt16) :
    residue (crcBit r).toNat = residue r.toNat * AdjoinRoot.root generator := by
  have hr := r.toNat_lt
  have hshift : (r <<< 1).toNat = 2 * r.toNat % 2 ^ 16 := by
    rw [UInt16.toNat_shiftLeft]
    show r.toNat <<< 1 % 2 ^ 16 = _
    rw [Nat.shiftLeft_eq, Nat.mul_comm]
  have hdouble : residue r.toNat * AdjoinRoot.root generator =
      residue (r.toNat / 2 ^ 15) * AdjoinRoot.root generator ^ 16 +
        residue (2 * r.toNat % 2 ^ 16) := by
    have hcut : 2 ^ 1 * r.toNat = 2 ^ 16 * (r.toNat / 2 ^ 15) + 2 * r.toNat %
      2 ^ 16 := by omega
    rw [← residue_mul_add _ (Nat.mod_lt _ (by decide)), ← hcut,
      residue_two_pow_mul, pow_one]
  rw [hdouble]
  unfold crcBit
  by_cases htop : r.toNat / 2 ^ 15 = 0
  · rw [if_pos ((and_top_eq_zero_iff r).mpr htop), hshift, htop, residue_zero,
      zero_mul, zero_add]
  · have hone : r.toNat / 2 ^ 15 = 1 := by omega
    rw [if_neg (fun h => htop ((and_top_eq_zero_iff r).mp h)), UInt16.toNat_xor,
      hshift, hone, residue_xor, residue_one, one_mul, add_comm,
      ← residue_generator]
    rfl

theorem residue_iterate (count : Nat) (r : UInt16) :
    residue (crcBit^[count] r).toNat = residue r.toNat *
      AdjoinRoot.root generator ^ count := by
  induction count with
  | zero => rw [Function.iterate_zero_apply, pow_zero, mul_one]
  | succ count ih =>
      rw [Function.iterate_succ_apply', residue_crcBit, ih, pow_succ, mul_assoc]

theorem residue_crcByte (r : UInt16) (byte : UInt8) :
    residue (crcByte r byte).toNat =
      (residue r.toNat + residue byte.toNat * AdjoinRoot.root generator ^ 8) *
        AdjoinRoot.root generator ^ 8 := by
  have hbyte : (byte.toUInt16 <<< 8).toNat = 2 ^ 8 * byte.toNat := by
    have hlt := byte.toNat_lt
    rw [UInt16.toNat_shiftLeft, UInt8.toNat_toUInt16]
    show byte.toNat <<< 8 % 2 ^ 16 = _
    rw [Nat.shiftLeft_eq, Nat.mul_comm]
    exact Nat.mod_eq_of_lt (by omega)
  show residue (crcBit^[8] (r ^^^ (byte.toUInt16 <<< 8))).toNat = _
  rw [residue_iterate, UInt16.toNat_xor, hbyte, residue_xor,
    residue_two_pow_mul]

/-! ## Messages -/

def number (bytes : Bytes) : Nat :=
  bytes.foldl (fun n byte => 2 ^ 8 * n + byte.toNat) 0

/-- The remainder of a byte string and sixteen zero bits, as a number. -/
noncomputable def checksum (bytes : Bytes) : Nat :=
  Nat.ofBits (fun i : Fin 16 =>
    decide (((poly (number bytes) * X ^ 16) %ₘ generator).coeff i = 1))

theorem residue_crc (bytes : Bytes) :
    residue (crc bytes).toNat = residue (number bytes) *
      AdjoinRoot.root generator ^ 16 := by
  induction bytes using List.reverseRecOn with
  | nil =>
      show residue 0 = residue 0 * _
      rw [residue_zero, zero_mul]
  | append_singleton bytes byte ih =>
      have hcrc : crc (bytes ++ [byte]) = crcByte (crc bytes) byte :=
        List.foldl_concat ..
      have hnumber :
          number (bytes ++ [byte]) = 2 ^ 8 * number bytes + byte.toNat :=
        List.foldl_concat ..
      rw [hcrc, hnumber, residue_crcByte, ih, residue_mul_add _ byte.toNat_lt]
      ring

theorem poly_crc (bytes : Bytes) :
    poly (crc bytes).toNat = (poly (number bytes) * X ^ 16) %ₘ generator := by
  apply poly_of_residue (crc bytes).toNat_lt
  rw [residue_crc, map_mul, map_pow, AdjoinRoot.mk_X]
  rfl

/-- The check of a byte string is the remainder of its polynomial. -/
theorem crc_eq_checksum (bytes : Bytes) :
    (crc bytes).toNat = checksum bytes := by
  have hbit (i : Nat) : decide ((poly (crc bytes).toNat).coeff i = 1) =
      (crc bytes).toNat.testBit i := by
    rw [coeff_poly]
    cases (crc bytes).toNat.testBit i <;> decide
  unfold checksum
  simp only [← poly_crc, hbit]
  rw [Nat.ofBits_testBit, Nat.mod_eq_of_lt (crc bytes).toNat_lt]

end Slot
end SlotCluster
