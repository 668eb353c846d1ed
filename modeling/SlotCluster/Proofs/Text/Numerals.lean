import Mathlib.Data.Nat.Digits.Defs
import SlotCluster.Text.Decimal
import SlotCluster.Text.Utf8

/-!
# Numerals read back

A numeral that was written is read as the number it was written for, and bytes
below 128 are read as the characters of the same number.  No spelling of a
number is shorter than the numeral that is written for it, and no text is longer
than its bytes.
-/

namespace SlotCluster
namespace Decimal

theorem valueFrom_eq_ofDigitChars (acc : Nat) (text : List Char) :
    valueFrom acc text = Nat.ofDigitChars 10 text acc := by
  induction text generalizing acc with
  | nil =>
      change acc = _
      rw [Nat.ofDigitChars_nil]
  | cons c rest ih =>
      change valueFrom (acc * 10 + digitValue c) rest = _
      rw [ih, Nat.ofDigitChars_cons, Nat.mul_comm acc 10, digitValue]

theorem isDigit_of_mem_digits {n : Nat} {c : Char} (h : c ∈ digits n) :
    c.isDigit = true :=
  Nat.isDigit_of_mem_toDigits (by decide) (by decide) h

theorem natural?_digits (n : Nat) : natural? (digits n) = some n := by
  have hdigits : ((digits n).all Char.isDigit) = true := by
    rw [List.all_eq_true]
    intro c hc
    exact isDigit_of_mem_digits hc
  have hne : (digits n).isEmpty = false := by
    rw [List.isEmpty_eq_false_iff]
    exact Nat.toDigits_ne_nil
  unfold natural?
  rw [hdigits, hne, valueFrom_eq_ofDigitChars]
  simp only [Bool.not_false, Bool.and_self, if_true]
  exact congrArg some Nat.ofDigitChars_ten_toDigits

/-- Digits, with a plus sign in front or not, that denote a number. -/
def Denotes (text : List Char) (n : Nat) : Prop :=
  exists numeral, (text = numeral ∨ text = '+' :: numeral) ∧ numeral ≠ [] ∧
    (forall c, c ∈ numeral -> c.isDigit = true) ∧
    Nat.ofDigitChars 10 numeral 0 = n

theorem natural?_eq_some_iff {text : List Char} {n : Nat} :
    natural? text = some n <->
      text ≠ [] ∧ (forall c, c ∈ text -> c.isDigit = true) ∧
        Nat.ofDigitChars 10 text 0 = n := by
  unfold natural?
  rw [valueFrom_eq_ofDigitChars, Option.ite_none_right_eq_some,
    Bool.and_eq_true, Bool.not_eq_true', List.isEmpty_eq_false_iff,
    List.all_eq_true, Option.some.injEq, and_assoc]

theorem below?_eq_some_iff {bound n : Nat} {text : List Char} :
    below? bound text = some n <-> Denotes text n ∧ n < bound := by
  unfold below?
  simp only [Option.filter_eq_some_iff, natural?_eq_some_iff, decide_eq_true_eq,
    and_congr_left_iff]
  intro _
  constructor
  · intro h
    split at h
    · rename_i rest
      exact ⟨rest, Or.inr rfl, h⟩
    · exact ⟨text, Or.inl rfl, h⟩
  · rintro ⟨numeral, rfl | rfl, hne, hdigits, hvalue⟩
    · split
      · exact absurd (hdigits '+' List.mem_cons_self) (by decide)
      · exact ⟨hne, hdigits, hvalue⟩
    · exact ⟨hne, hdigits, hvalue⟩

theorem map_below?_eq_some_iff {Word : Type} {ofNat : Nat -> Word}
    {toNat : Word -> Nat} {bound : Nat} (hlt : forall w, toNat w < bound)
    (hto : forall n, n < bound -> toNat (ofNat n) = n)
    (hof : forall w, ofNat (toNat w) = w) {text : List Char} {w : Word} :
    (below? bound text).map ofNat = some w <-> Denotes text (toNat w) := by
  rw [Option.map_eq_some_iff]
  constructor
  · rintro ⟨n, hn, rfl⟩
    rcases below?_eq_some_iff.mp hn with ⟨hdenotes, hbound⟩
    rw [hto n hbound]
    exact hdenotes
  · intro h
    exact ⟨toNat w, below?_eq_some_iff.mpr ⟨h, hlt w⟩, hof w⟩

theorem denotes_digits (n : Nat) : Denotes (digits n) n :=
  ⟨digits n, Or.inl rfl, natural?_eq_some_iff.mp (natural?_digits n)⟩

theorem integer?_of_isDigit {c : Char} {rest : List Char}
    (h : c.isDigit = true) :
    integer? (c :: rest) = (natural? (c :: rest)).map Int.ofNat := by
  unfold integer?
  split
  · rename_i heq
    cases heq
    cases h
  · rename_i heq
    cases heq
    cases h
  · rfl

theorem integer?_signedDigits (n : Int) :
    integer? (signedDigits n) = some n := by
  cases n with
  | ofNat n =>
      have hnatural := natural?_digits n
      change integer? (digits n) = _
      cases hdigits : digits n with
      | nil => exact absurd hdigits Nat.toDigits_ne_nil
      | cons c rest =>
          rw [hdigits] at hnatural
          have hc : c.isDigit = true :=
            isDigit_of_mem_digits (n := n) (by simp [hdigits])
          rw [integer?_of_isDigit hc, hnatural]
          rfl
  | negSucc n =>
      change (natural? (digits (n + 1))).map _ = _
      rw [natural?_digits]
      rfl

theorem mem_signedDigits {n : Int} {c : Char} (h : c ∈ signedDigits n) :
    c.isDigit = true ∨ c = '-' := by
  cases n with
  | ofNat n => exact Or.inl (isDigit_of_mem_digits h)
  | negSucc n =>
      rcases List.mem_cons.mp h with hsign | hdigit
      · exact Or.inr hsign
      · exact Or.inl (isDigit_of_mem_digits hdigit)

/-! ## The shortest spelling -/

theorem digitValue_lt {c : Char} (h : c.isDigit = true) :
    digitValue c < 10 := by
  rw [Char.isDigit, Bool.and_eq_true, decide_eq_true_eq, decide_eq_true_eq] at h
  have hhigh : c.val.toNat ≤ '9'.val.toNat := h.2
  change c.toNat - 48 < 10
  change c.toNat ≤ 57 at hhigh
  omega

theorem valueFrom_lt {text : List Char} (acc : Nat)
    (h : forall c, c ∈ text -> c.isDigit = true) :
    valueFrom acc text < (acc + 1) * 10 ^ text.length := by
  induction text generalizing acc with
  | nil =>
      change acc < (acc + 1) * 10 ^ 0
      omega
  | cons c rest ih =>
      have hdigit := digitValue_lt (h c List.mem_cons_self)
      calc
        valueFrom acc (c :: rest) < (acc * 10 + digitValue c + 1) *
            10 ^ rest.length :=
          ih _ (fun d hd => h d (List.mem_cons_of_mem _ hd))
        _ ≤ ((acc + 1) * 10) * 10 ^ rest.length :=
          Nat.mul_le_mul_right _ (by omega)
        _ = (acc + 1) * 10 ^ (c :: rest).length := by
          rw [List.length_cons, Nat.pow_succ, Nat.mul_assoc, Nat.mul_comm 10]

theorem length_digits_le {text : List Char} {n : Nat}
    (h : natural? text = some n) : (digits n).length ≤ text.length := by
  unfold natural? at h
  split at h
  · rename_i hdigits
    cases h
    rw [Bool.and_eq_true, List.all_eq_true, Bool.not_eq_true',
      List.isEmpty_eq_false_iff] at hdigits
    have hlt := valueFrom_lt 0 hdigits.2
    rw [Nat.zero_add, Nat.one_mul] at hlt
    exact Nat.toDigits_length 10 _ _ (List.length_pos_iff.mpr hdigits.1) hlt
  · cases h

theorem length_signedDigits_le {text : List Char} {n : Int}
    (h : integer? text = some n) : (signedDigits n).length ≤ text.length := by
  unfold integer? at h
  split at h
  · rcases Option.map_eq_some_iff.mp h with ⟨m, hm, heq⟩
    rw [← heq]
    exact Nat.le_succ_of_le (length_digits_le hm)
  · rcases Option.map_eq_some_iff.mp h with ⟨m, hm, heq⟩
    rw [← heq]
    have hle := length_digits_le hm
    cases m with
    | zero => exact Nat.le_succ_of_le hle
    | succ m => exact Nat.succ_le_succ hle
  · rcases Option.map_eq_some_iff.mp h with ⟨m, hm, heq⟩
    rw [← heq]
    exact length_digits_le hm

end Decimal

namespace Utf8

theorem front_of_lt {b : UInt8} (h : b < 0x80) (rest : Bytes) :
    front b rest = (some (Char.ofNat b.toNat), 0) := by
  simp [front, followers, h, continuation, assemble, leadBits]

theorem parts_cons_of_lt {b : UInt8} (h : b < 0x80) (rest : Bytes) :
    parts (b :: rest) = some (Char.ofNat b.toNat) :: parts rest := by
  rw [parts, front_of_lt h]
  rfl

theorem decode?_cons_of_lt {b : UInt8} (h : b < 0x80) (rest : Bytes) :
    decode? (b :: rest) =
      (decode? rest).map (fun text => Char.ofNat b.toNat :: text) := by
  unfold decode?
  rw [parts_cons_of_lt h, List.mapM_cons]
  cases (parts rest).mapM id <;> rfl

theorem parts_of_decode? {bytes : Bytes} {text : List Char}
    (h : decode? bytes = some text) : parts bytes = text.map some := by
  unfold decode? at h
  generalize parts bytes = ps at h
  induction ps generalizing text with
  | nil =>
      cases h
      rfl
  | cons part ps ih =>
      rw [List.mapM_cons] at h
      rcases Option.bind_eq_some_iff.mp h with ⟨c, hc, hrest⟩
      rcases Option.bind_eq_some_iff.mp hrest with ⟨more, hmore, heq⟩
      cases heq
      rw [ih hmore, List.map_cons]
      exact congrArg (· :: _) hc

theorem length_parts_le (bytes : Bytes) :
    (parts bytes).length ≤ bytes.length := by
  fun_induction parts bytes with
  | case1 => exact Nat.le_refl _
  | case2 lead rest ih =>
      rw [List.length_drop] at ih
      rw [List.length_cons, List.length_cons]
      omega

theorem length_decode?_le {bytes : Bytes} {text : List Char}
    (h : decode? bytes = some text) : text.length ≤ bytes.length := by
  have hle := length_parts_le bytes
  rw [parts_of_decode? h, List.length_map] at hle
  exact hle

end Utf8
end SlotCluster
