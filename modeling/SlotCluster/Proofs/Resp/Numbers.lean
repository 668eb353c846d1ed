import SlotCluster.Proofs.Resp.Grammar
import SlotCluster.Proofs.Text.Ascii

/-!
# Numbers that are read and numbers that are not

The line of an integer and the headers of bulk strings and arrays hold a number:
ASCII digits with at most one sign in front.  A numeral is read if its number
has 64 bits, and it is an overflow if it has more.  Texts that are no numerals
are garbage.

The reader goes through numbers of 128 bits to tell an overflow from garbage.
So it does not see the overflow of a number that is still larger, and takes its
numeral for garbage.
-/

namespace SlotCluster
namespace Resp

open Value (lineEnd asciiBytes)

variable {raw : Bytes} {n : Int}

/-! ## Numerals -/

def Digits (raw : Bytes) (n : Nat) : Prop :=
  raw ≠ [] ∧ (forall b, b ∈ raw -> 0x30 ≤ b ∧ b ≤ 0x39) ∧
    raw.foldl (fun value b => 10 * value + (b.toNat - 0x30)) 0 = n

instance (raw : Bytes) (n : Nat) : Decidable (Digits raw n) :=
  decidable_of_iff
    (raw ≠ [] ∧ raw.all (fun b => decide (0x30 ≤ b ∧ b ≤ 0x39)) = true ∧
      raw.foldl (fun value b => 10 * value + (b.toNat - 0x30)) 0 = n)
    (by simp only [Digits, List.all_eq_true, decide_eq_true_eq])

/-- Digits with at most one sign in front, and the number that they denote. -/
inductive Numeral : Bytes -> Int -> Prop where
  | plain {raw : Bytes} {n : Nat} (digits : Digits raw n) : Numeral raw n
  | plus {raw : Bytes} {n : Nat} (digits : Digits raw n) :
      Numeral (0x2B :: raw) n
  | minus {raw : Bytes} {n : Nat} (digits : Digits raw n) :
      Numeral (0x2D :: raw) (-n)

theorem isDigit_iff {c : Char} :
    c.isDigit = true <-> 0x30 ≤ c.toNat ∧ c.toNat ≤ 0x39 := by
  rw [Char.isDigit, Bool.and_eq_true, decide_eq_true_eq, decide_eq_true_eq]
  exact Iff.rfl

theorem toNat_of_isDigit {c : Char} (h : c.isDigit = true) :
    (UInt8.ofNat c.toNat).toNat = c.toNat := by
  have hbounds := isDigit_iff.mp h
  exact toNat_ofNat_char (by omega)

theorem foldl_asciiBytes {text : List Char} (acc : Nat)
    (h : forall c, c ∈ text -> c.isDigit = true) :
    (asciiBytes text).foldl (fun value b => 10 * value + (b.toNat - 0x30)) acc =
      Nat.ofDigitChars 10 text acc := by
  induction text generalizing acc with
  | nil =>
      rw [Nat.ofDigitChars_nil]
      rfl
  | cons c text ih =>
      rw [Nat.ofDigitChars_cons,
        ← ih _ (fun d hd => h d (List.mem_cons_of_mem _ hd)), asciiBytes,
        List.map_cons, List.foldl_cons,
        toNat_of_isDigit (h c List.mem_cons_self)]
      rfl

theorem digits_asciiBytes {text : List Char} {n : Nat}
    (h : Decimal.natural? text = some n) : Digits (asciiBytes text) n := by
  rcases Decimal.natural?_eq_some_iff.mp h with ⟨hne, hdigits, hvalue⟩
  refine ⟨?_, ?_, ?_⟩
  · rw [asciiBytes, ne_eq, List.map_eq_nil_iff]
    exact hne
  · intro b hb
    rcases List.mem_map.mp hb with ⟨c, hc, rfl⟩
    have hbounds := isDigit_iff.mp (hdigits c hc)
    rw [UInt8.le_iff_toNat_le, UInt8.le_iff_toNat_le,
      toNat_of_isDigit (hdigits c hc)]
    exact hbounds
  · rw [foldl_asciiBytes 0 hdigits]
    exact hvalue

theorem exists_of_digits {n : Nat} (h : Digits raw n) :
    exists text, raw = asciiBytes text ∧ Decimal.natural? text = some n := by
  rcases h with ⟨hne, hdigits, hvalue⟩
  have hchar {b : UInt8} (hb : b ∈ raw) : (Char.ofNat b.toNat).toNat = b.toNat ∧
      (Char.ofNat b.toNat).isDigit = true := by
    rcases hdigits b hb with ⟨hlow, hhigh⟩
    rw [UInt8.le_iff_toNat_le] at hlow hhigh
    change 48 ≤ _ at hlow
    change _ ≤ 57 at hhigh
    have hsame : (Char.ofNat b.toNat).toNat = b.toNat :=
      Utf8.toNat_ofNat_of_valid (by omega)
    refine ⟨hsame, isDigit_iff.mpr ?_⟩
    rw [hsame]
    exact ⟨hlow, hhigh⟩
  have hraw : raw = asciiBytes (raw.map (fun b => Char.ofNat b.toNat)) := by
    rw [asciiBytes, List.map_map]
    refine (List.map_id _).symm.trans (List.map_congr_left (fun b hb => ?_))
    rw [Function.comp_apply, (hchar hb).1, UInt8.ofNat_toNat, id_eq]
  have hall : forall c, c ∈ raw.map (fun b => Char.ofNat b.toNat) ->
      c.isDigit = true := by
    intro c hc
    rcases List.mem_map.mp hc with ⟨b, hb, rfl⟩
    exact (hchar hb).2
  refine ⟨_, hraw, Decimal.natural?_eq_some_iff.mpr ⟨?_, hall, ?_⟩⟩
  · rw [ne_eq, List.map_eq_nil_iff]
    exact hne
  · rw [← foldl_asciiBytes 0 hall, ← hraw]
    exact hvalue

theorem ascii_of_natural? {text : List Char} {m : Nat}
    (h : Decimal.natural? text = some m) :
    forall c, c ∈ text -> c.toNat < 0x80 := by
  intro c hc
  have hbounds := isDigit_iff.mp ((Decimal.natural?_eq_some_iff.mp h).2.1 c hc)
  omega

theorem numeral_of_integer? {text : List Char}
    (h : Decimal.integer? text = some n) :
    Numeral (asciiBytes text) n ∧ forall c, c ∈ text -> c.toNat < 0x80 := by
  have hsigned {sign : Char} {rest : List Char} {m : Nat}
      (hsign : sign.toNat < 0x80) (hm : Decimal.natural? rest = some m) :
      forall c, c ∈ sign :: rest -> c.toNat < 0x80 := by
    intro c hc
    rcases List.mem_cons.mp hc with rfl | hrest
    · exact hsign
    · exact ascii_of_natural? hm c hrest
  unfold Decimal.integer? at h
  split at h
  · rcases Option.map_eq_some_iff.mp h with ⟨m, hm, rfl⟩
    exact ⟨.plus (digits_asciiBytes hm), hsigned (by decide) hm⟩
  · rcases Option.map_eq_some_iff.mp h with ⟨m, hm, rfl⟩
    exact ⟨.minus (digits_asciiBytes hm), hsigned (by decide) hm⟩
  · rcases Option.map_eq_some_iff.mp h with ⟨m, hm, rfl⟩
    exact ⟨.plain (digits_asciiBytes hm), ascii_of_natural? hm⟩

theorem integer?_of_natural? {text : List Char} {m : Nat}
    (h : Decimal.natural? text = some m) :
    Decimal.integer? text = some (m : Int) := by
  rcases Decimal.natural?_eq_some_iff.mp h with ⟨hne, hdigits, _⟩
  cases text with
  | nil => exact absurd rfl hne
  | cons c rest =>
      rw [Decimal.integer?_of_isDigit (hdigits c List.mem_cons_self), h]
      rfl

theorem exists_of_numeral (h : Numeral raw n) :
    exists text, raw = asciiBytes text ∧ Decimal.integer? text = some n := by
  cases h with
  | plain digits =>
      rcases exists_of_digits digits with ⟨text, hraw, hnumber⟩
      exact ⟨text, hraw, integer?_of_natural? hnumber⟩
  | plus digits =>
      rcases exists_of_digits digits with ⟨text, hraw, hnumber⟩
      refine ⟨'+' :: text, congrArg _ hraw, ?_⟩
      change (Decimal.natural? text).map Int.ofNat = _
      rw [hnumber]
      rfl
  | minus digits =>
      rcases exists_of_digits digits with ⟨text, hraw, hnumber⟩
      refine ⟨'-' :: text, congrArg _ hraw, ?_⟩
      change (Decimal.natural? text).map _ = _
      rw [hnumber]
      rfl

/-- The bytes that are read as a number are the numerals. -/
theorem numeral_iff :
    Numeral raw n <->
      exists text,
        Utf8.decode? raw = some text ∧ Decimal.integer? text = some n := by
  constructor
  · intro h
    rcases exists_of_numeral h with ⟨text, rfl, hnumber⟩
    exact ⟨text, decode?_asciiBytes (numeral_of_integer? hnumber).2, hnumber⟩
  · rintro ⟨text, hdecode, hnumber⟩
    rcases numeral_of_integer? hnumber with ⟨hnumeral, hascii⟩
    rw [Utf8.bytes_of_decode? hdecode hascii]
    exact hnumeral

theorem Numeral.unique {m : Int} (hn : Numeral raw n)
    (hm : Numeral raw m) : n = m := by
  rcases numeral_iff.mp hn with ⟨text, hdecode, hnumber⟩
  rcases numeral_iff.mp hm with ⟨text', hdecode', hnumber'⟩
  rw [hdecode] at hdecode'
  cases hdecode'
  rw [hnumber] at hnumber'
  exact Option.some.inj hnumber'

/-!
## What is told apart

A number has 64 bits with a sign, it has 128 bits with a sign, or it has more.
-/

def Fits (n : Int) : Prop :=
  -2 ^ 63 ≤ n ∧ n < 2 ^ 63

def FitsWide (n : Int) : Prop :=
  -2 ^ 127 ≤ n ∧ n < 2 ^ 127

inductive Classified (raw : Bytes) : Except ReadError Int64 -> Prop where
  | number {n : Int64} (numeral : Numeral raw n.toInt) : Classified raw (.ok n)
  | overflow {n : Int} (numeral : Numeral raw n) (beyond : ¬ Fits n)
      (within : FitsWide n) : Classified raw (.error .integerOverflow)
  | garbage {reason : FormatError}
      (beyond : forall n, Numeral raw n -> ¬ FitsWide n) :
      Classified raw (.error (.invalidFormat reason))

theorem classified_parseInteger (raw : Bytes) :
    Classified raw (parseInteger raw) := by
  have hwide : (Int.ofNat (Decimal.wideSize / 2)) = 2 ^ 127 := by decide
  have hmin : Int64.minValue.toInt = -2 ^ 63 := by decide
  have hmax : Int64.maxValue.toInt = 2 ^ 63 - 1 := by decide
  unfold parseInteger
  rw [hwide, hmin, hmax]
  split
  · rename_i hnone
    refine .garbage (fun n hn => ?_)
    rcases numeral_iff.mp hn with ⟨text, hdecode, _⟩
    rw [hnone] at hdecode
    cases hdecode
  · rename_i text hdecode
    split
    · rename_i hnone
      refine .garbage (fun n hn => ?_)
      rcases numeral_iff.mp hn with ⟨text', hdecode', hnumber⟩
      rw [hdecode] at hdecode'
      cases hdecode'
      rw [hnone] at hnumber
      cases hnumber
    · rename_i m hnumber
      have hnumeral : Numeral raw m := numeral_iff.mpr ⟨text, hdecode, hnumber⟩
      dsimp only
      split
      · rename_i hout
        rw [Bool.or_eq_true, decide_eq_true_eq, decide_eq_true_eq] at hout
        refine .garbage (fun n hn hwithin => ?_)
        rw [hn.unique hnumeral] at hwithin
        rcases hwithin with ⟨hlow, hhigh⟩
        omega
      · rename_i hin
        rw [Bool.or_eq_true, decide_eq_true_eq, decide_eq_true_eq] at hin
        split
        · rename_i hout
          rw [Bool.or_eq_true, decide_eq_true_eq, decide_eq_true_eq] at hout
          refine .overflow hnumeral (fun hfits => ?_) ⟨by omega, by omega⟩
          rcases hfits with ⟨hlow, hhigh⟩
          omega
        · rename_i hsmall
          rw [Bool.or_eq_true, decide_eq_true_eq, decide_eq_true_eq] at hsmall
          have hsame : (Int64.ofInt m).toInt = m :=
            Int64.toInt_ofInt_of_le (by omega) (by omega)
          refine .number ?_
          rw [hsame]
          exact hnumeral

inductive ClassifiedLength (raw : Bytes) :
    Except ReadError (Option Nat) -> Prop where
  | length {count : Nat} (numeral : Numeral raw count) (fits : Fits count) :
      ClassifiedLength raw (.ok (some count))
  | missing (numeral : Numeral raw (-1)) : ClassifiedLength raw (.ok none)
  | overflow {n : Int} (numeral : Numeral raw n) (beyond : ¬ Fits n)
      (within : FitsWide n) : ClassifiedLength raw (.error .integerOverflow)
  | garbage {reason : FormatError}
      (rejected : forall n, Numeral raw n -> ¬ FitsWide n ∨ Fits n ∧ n < -1) :
      ClassifiedLength raw (.error (.invalidFormat reason))

theorem fits_toInt (n : Int64) : Fits n.toInt :=
  ⟨n.le_toInt, n.toInt_lt⟩

theorem classified_parseLength (what : String) (raw : Bytes) :
    ClassifiedLength raw (parseLength what raw) := by
  have hclassified := classified_parseInteger raw
  unfold parseLength
  generalize parseInteger raw = read at hclassified
  cases hclassified with
  | overflow numeral beyond within => exact .overflow numeral beyond within
  | garbage beyond => exact .garbage (fun n hn => Or.inl (beyond n hn))
  | @number n numeral =>
      dsimp only
      split
      · rename_i hminus
        rw [hminus] at numeral
        exact .missing numeral
      · split
        · rename_i hminus hnegative
          refine .garbage (fun m hm => Or.inr ?_)
          rw [hm.unique numeral]
          exact ⟨fits_toInt n, by omega⟩
        · rename_i hpositive
          have hsame : ((n.toInt.toNat : Nat) : Int) = n.toInt :=
            Int.toNat_of_nonneg (by omega)
          refine .length ?_ ?_
          · rw [hsame]
            exact numeral
          · rw [hsame]
            exact fits_toInt n

/-!
## Lines with a number

A length that is refused, or that stands for a missing value, is all that is
looked at.
-/

variable {limit : Nat} {s : Stream} {rest : Bytes}

inductive Announces : UInt8 -> String -> Prop where
  | bulk : Announces 0x24 "bulk string"
  | array : Announces 0x2A "array"

theorem element_of_headerLine {kind : UInt8} (hkind : kind ≠ 0x0A)
    (hplain : 0x0A ∉ raw) (hlimit : raw.length + 3 ≤ limit)
    (hbytes : s.bytes = kind :: (raw ++ lineEnd ++ rest)) :
    exists used t,
      (element limit 0 s).1 =
        if kind = 0x2A then arrayBody limit used raw t
        else scalar limit used kind raw t := by
  have hline : s.bytes = written (.line (kind :: raw) :: []) ++ rest := by
    rw [hbytes, written_singleton]
    rfl
  have hroom : 0 + (Segment.line (kind :: raw)).bytes.length ≤ limit := by
    rw [Nat.zero_add, Segment.bytes, List.length_append, List.length_cons]
    exact hlimit
  rcases element_of_header hkind hplain hline hroom with ⟨t, ht, _⟩
  exact ⟨_, t, ht⟩

theorem parse_of_integerLine (hplain : 0x0A ∉ raw)
    (hlimit : raw.length + 3 ≤ limit)
    (hbytes : s.bytes = 0x3A :: (raw ++ lineEnd ++ rest)) :
    (parse limit s).1 = (parseInteger raw).map Value.integer := by
  rcases element_of_headerLine (by decide) hplain hlimit hbytes with
    ⟨used, t, ht⟩
  change _ =
    ((parseInteger raw).map (fun n => (Value.integer n, used)), t) at ht
  rw [parse_of_element ht]
  cases parseInteger raw <;> rfl

theorem parse_of_lengthLine {kind : UInt8} {what : String}
    (hkind : Announces kind what) (hplain : 0x0A ∉ raw)
    (hlimit : raw.length + 3 ≤ limit)
    (hbytes : s.bytes = kind :: (raw ++ lineEnd ++ rest)) :
    (forall e, parseLength what raw = .error e ->
      (parse limit s).1 = .error e) ∧
        (parseLength what raw = .ok none -> (parse limit s).1 = .ok .null) := by
  cases hkind with
  | bulk =>
      rcases element_of_headerLine (by decide) hplain hlimit hbytes with
        ⟨used, t, ht⟩
      change _ = bulkBody limit used raw t at ht
      unfold bulkBody at ht
      constructor
      · intro e he
        rw [he] at ht
        rw [parse_of_element ht]
        rfl
      · intro hnone
        rw [hnone] at ht
        rw [parse_of_element ht]
        rfl
  | array =>
      rcases element_of_headerLine (by decide) hplain hlimit hbytes with
        ⟨used, t, ht⟩
      change _ = arrayBody limit used raw t at ht
      unfold arrayBody at ht
      constructor
      · intro e he
        rw [he] at ht
        rw [parse_of_element ht]
        rfl
      · intro hnone
        rw [hnone] at ht
        rw [parse_of_element ht]
        rfl

/-! ## Overflow and garbage -/

structure IntegerRead (raw : Bytes)
    (result : Except ReadError Value) : Prop where
  number : forall n : Int64, result = .ok (.integer n) <-> Numeral raw n.toInt
  overflow : result = .error .integerOverflow <->
    exists n, Numeral raw n ∧ ¬ Fits n ∧ FitsWide n
  garbage : (exists reason, result = .error (.invalidFormat reason)) <->
    forall n, Numeral raw n -> ¬ FitsWide n

structure LengthRead (raw : Bytes)
    (result : Except ReadError (Option Nat)) : Prop where
  length : forall count : Nat, result = .ok (some count) <->
    Numeral raw count ∧ Fits count
  missing : result = .ok none <-> Numeral raw (-1)
  overflow : result = .error .integerOverflow <->
    exists n, Numeral raw n ∧ ¬ Fits n ∧ FitsWide n
  garbage : (exists reason, result = .error (.invalidFormat reason)) <->
    forall n, Numeral raw n -> ¬ FitsWide n ∨ Fits n ∧ n < -1

theorem fitsWide_of_fits (h : Fits n) : FitsWide n := by
  rcases h with ⟨hlow, hhigh⟩
  exact ⟨by omega, by omega⟩

theorem fits_minusOne : Fits (-1) :=
  ⟨by decide, by decide⟩

namespace IntegerRead

theorem of_number {m : Int64} (numeral : Numeral raw m.toInt) :
    IntegerRead raw (.ok (.integer m)) where
  number n := by
    constructor
    · intro heq
      cases heq
      exact numeral
    · intro hn
      rw [Int64.toInt_inj.mp (numeral.unique hn)]
  overflow := by
    constructor
    · intro heq
      cases heq
    · rintro ⟨n, hn, hbeyond, _⟩
      rw [hn.unique numeral] at hbeyond
      exact absurd (fits_toInt m) hbeyond
  garbage := by
    constructor
    · rintro ⟨reason, heq⟩
      cases heq
    · intro hall
      exact absurd (fitsWide_of_fits (fits_toInt m)) (hall _ numeral)

theorem of_overflow {m : Int} (numeral : Numeral raw m) (beyond : ¬ Fits m)
    (within : FitsWide m) : IntegerRead raw (.error .integerOverflow) where
  number n := by
    constructor
    · intro heq
      cases heq
    · intro hn
      rw [numeral.unique hn] at beyond
      exact absurd (fits_toInt n) beyond
  overflow := by
    constructor
    · intro _
      exact ⟨m, numeral, beyond, within⟩
    · intro _
      rfl
  garbage := by
    constructor
    · rintro ⟨reason, heq⟩
      cases heq
    · intro hall
      exact absurd within (hall m numeral)

theorem of_garbage {reason : FormatError}
    (beyond : forall n, Numeral raw n -> ¬ FitsWide n) :
    IntegerRead raw (.error (.invalidFormat reason)) where
  number n := by
    constructor
    · intro heq
      cases heq
    · intro hn
      exact absurd (fitsWide_of_fits (fits_toInt n)) (beyond _ hn)
  overflow := by
    constructor
    · intro heq
      cases heq
    · rintro ⟨n, hn, _, hwithin⟩
      exact absurd hwithin (beyond n hn)
  garbage := by
    constructor
    · intro _
      exact beyond
    · intro _
      exact ⟨reason, rfl⟩

theorem of_classified {read : Except ReadError Int64}
    (h : Classified raw read) : IntegerRead raw (read.map Value.integer) := by
  cases h with
  | number numeral => exact of_number numeral
  | overflow numeral beyond within => exact of_overflow numeral beyond within
  | garbage beyond => exact of_garbage beyond

end IntegerRead

namespace LengthRead

theorem of_length {m : Nat} (numeral : Numeral raw m) (fits : Fits m) :
    LengthRead raw (.ok (some m)) where
  length count := by
    constructor
    · intro heq
      cases heq
      exact ⟨numeral, fits⟩
    · rintro ⟨hn, _⟩
      rw [Int.ofNat_inj.mp (numeral.unique hn)]
  missing := by
    constructor
    · intro heq
      cases heq
    · intro hn
      have hnegative := numeral.unique hn
      omega
  overflow := by
    constructor
    · intro heq
      cases heq
    · rintro ⟨n, hn, hbeyond, _⟩
      rw [hn.unique numeral] at hbeyond
      exact absurd fits hbeyond
  garbage := by
    constructor
    · rintro ⟨reason, heq⟩
      cases heq
    · intro hall
      rcases hall _ numeral with hout | ⟨_, hnegative⟩
      · exact absurd (fitsWide_of_fits fits) hout
      · omega

theorem of_missing (numeral : Numeral raw (-1)) :
    LengthRead raw (.ok none) where
  length count := by
    constructor
    · intro heq
      cases heq
    · rintro ⟨hn, _⟩
      have hnegative := numeral.unique hn
      omega
  missing := by
    constructor
    · intro _
      exact numeral
    · intro _
      rfl
  overflow := by
    constructor
    · intro heq
      cases heq
    · rintro ⟨n, hn, hbeyond, _⟩
      rw [hn.unique numeral] at hbeyond
      exact absurd fits_minusOne hbeyond
  garbage := by
    constructor
    · rintro ⟨reason, heq⟩
      cases heq
    · intro hall
      rcases hall _ numeral with hout | ⟨_, hless⟩
      · exact absurd (fitsWide_of_fits fits_minusOne) hout
      · omega

theorem of_overflow {m : Int} (numeral : Numeral raw m) (beyond : ¬ Fits m)
    (within : FitsWide m) : LengthRead raw (.error .integerOverflow) where
  length count := by
    constructor
    · intro heq
      cases heq
    · rintro ⟨hn, hfits⟩
      rw [numeral.unique hn] at beyond
      exact absurd hfits beyond
  missing := by
    constructor
    · intro heq
      cases heq
    · intro hn
      rw [numeral.unique hn] at beyond
      exact absurd fits_minusOne beyond
  overflow := by
    constructor
    · intro _
      exact ⟨m, numeral, beyond, within⟩
    · intro _
      rfl
  garbage := by
    constructor
    · rintro ⟨reason, heq⟩
      cases heq
    · intro hall
      rcases hall m numeral with hout | ⟨hfits, _⟩
      · exact absurd within hout
      · exact absurd hfits beyond

theorem of_garbage {reason : FormatError}
    (rejected : forall n, Numeral raw n -> ¬ FitsWide n ∨ Fits n ∧ n < -1) :
    LengthRead raw (.error (.invalidFormat reason)) where
  length count := by
    constructor
    · intro heq
      cases heq
    · rintro ⟨hn, hfits⟩
      rcases rejected _ hn with hout | ⟨_, hnegative⟩
      · exact absurd (fitsWide_of_fits hfits) hout
      · omega
  missing := by
    constructor
    · intro heq
      cases heq
    · intro hn
      rcases rejected _ hn with hout | ⟨_, hless⟩
      · exact absurd (fitsWide_of_fits fits_minusOne) hout
      · omega
  overflow := by
    constructor
    · intro heq
      cases heq
    · rintro ⟨n, hn, hbeyond, hwithin⟩
      rcases rejected n hn with hout | ⟨hfits, _⟩
      · exact absurd hwithin hout
      · exact absurd hfits hbeyond
  garbage := by
    constructor
    · intro _
      exact rejected
    · intro _
      exact ⟨reason, rfl⟩

theorem of_classified {read : Except ReadError (Option Nat)}
    (h : ClassifiedLength raw read) : LengthRead raw read := by
  cases h with
  | length numeral fits => exact of_length numeral fits
  | missing numeral => exact of_missing numeral
  | overflow numeral beyond within => exact of_overflow numeral beyond within
  | garbage rejected => exact of_garbage rejected

end LengthRead

/-- Numbers of 64 bits are read, numbers of more bits up to 128 overflow, and
everything else is garbage, numerals of still larger numbers included.  Lengths
are numbers in the same way, and of the negative ones only minus one is
taken. -/
theorem numerals_told_apart (hplain : 0x0A ∉ raw)
    (hlimit : raw.length + 3 ≤ limit) :
    (s.bytes = 0x3A :: (raw ++ lineEnd ++ rest) ->
      IntegerRead raw (parse limit s).1) ∧
      forall (kind : UInt8) (what : String), Announces kind what ->
        s.bytes = kind :: (raw ++ lineEnd ++ rest) ->
        LengthRead raw (parseLength what raw) ∧
          (forall e, parseLength what raw = .error e ->
            (parse limit s).1 = .error e) ∧
          (parseLength what raw = .ok none ->
            (parse limit s).1 = .ok .null) := by
  constructor
  · intro hbytes
    rw [parse_of_integerLine hplain hlimit hbytes]
    exact .of_classified (classified_parseInteger raw)
  · intro kind what hkind hbytes
    exact ⟨.of_classified (classified_parseLength what raw),
      parse_of_lengthLine hkind hplain hlimit hbytes⟩

def lowest : Bytes :=
  asciiBytes ['-', '0', '9', '2', '2', '3', '3', '7', '2', '0', '3', '6', '8',
    '5', '4', '7', '7', '5', '8', '0', '8']

def beyondHighest : Bytes :=
  asciiBytes ['+', '9', '2', '2', '3', '3', '7', '2', '0', '3', '6', '8', '5',
    '4', '7', '7', '5', '8', '0', '8']

/-- At both ends of the range, as an integer and as the length of an array, in
two pieces and with more bytes behind. -/
theorem numerals_told_apart_at_bounds :
    (0x0A ∉ lowest ∧ lowest.length + 3 ≤ 24 ∧
        (parse 24 (.ofPieces [0x3A :: lowest, lineEnd ++ [0x2B]] .closed)).1 =
          .ok (.integer Int64.minValue)) ∧
      0x0A ∉ beyondHighest ∧ beyondHighest.length + 3 ≤ 24 ∧
        (parse 24
          (.ofPieces [0x2A :: beyondHighest, lineEnd ++ [0x2B]] .closed)).1 =
            .error .integerOverflow := by
  have hlow : 0x0A ∉ lowest ∧ lowest.length + 3 ≤ 24 := by decide
  have hhigh : 0x0A ∉ beyondHighest ∧ beyondHighest.length + 3 ≤ 24 := by decide
  have hnumeral : Numeral lowest Int64.minValue.toInt :=
    .minus (n := 9223372036854775808) (by decide)
  have hbeyond : Numeral beyondHighest 9223372036854775808 :=
    .plus (n := 9223372036854775808) (by decide)
  refine ⟨⟨hlow.1, hlow.2, ?_⟩, hhigh.1, hhigh.2, ?_⟩
  · have hbytes :
        (Stream.ofPieces [0x3A :: lowest, lineEnd ++ [0x2B]] .closed).bytes =
          0x3A :: (lowest ++ lineEnd ++ [0x2B]) :=
      rfl
    have hread := (numerals_told_apart hlow.1 hlow.2).1 hbytes
    exact (hread.number Int64.minValue).mpr hnumeral
  · have hbytes :
        (Stream.ofPieces [0x2A :: beyondHighest, lineEnd ++ [0x2B]]
          .closed).bytes = 0x2A :: (beyondHighest ++ lineEnd ++ [0x2B]) :=
      rfl
    rcases (numerals_told_apart hhigh.1 hhigh.2).2 0x2A "array" .array
      hbytes with ⟨hread, herror, _⟩
    exact herror
      _ (hread.overflow.mpr ⟨_, hbeyond, by unfold Fits; decide, by
        unfold FitsWide; decide⟩)

def farBeyond : Bytes :=
  asciiBytes ['1', '7', '0', '1', '4', '1', '1', '8', '3', '4', '6', '0', '4',
    '6', '9', '2', '3', '1', '7', '3', '1', '6', '8', '7', '3', '0', '3', '7',
    '1', '5', '8', '8', '4', '1', '0', '5', '7', '2', '8']

/-- A numeral of a number far out of the range is not reported as an
overflow. -/
theorem overflow_taken_for_garbage :
    Numeral farBeyond 170141183460469231731687303715884105728 ∧
      ¬ Fits 170141183460469231731687303715884105728 ∧
      exists reason,
        (parse 64 (.ofPieces [0x3A :: (farBeyond ++ lineEnd)] .closed)).1 =
        .error (.invalidFormat reason) := by
  have hnumeral : Numeral farBeyond 170141183460469231731687303715884105728 :=
    .plain (n := 170141183460469231731687303715884105728) (by decide)
  refine ⟨hnumeral, by unfold Fits; decide, ?_⟩
  have hbytes :
      (Stream.ofPieces [0x3A :: (farBeyond ++ lineEnd)] .closed).bytes = 0x3A ::
        (farBeyond ++ lineEnd ++ []) :=
    rfl
  rw [parse_of_integerLine (by decide) (by decide) hbytes]
  refine (IntegerRead.of_classified
    (classified_parseInteger farBeyond)).garbage.mpr (fun n hn => ?_)
  rw [hn.unique hnumeral]
  unfold FitsWide
  decide

end Resp
end SlotCluster
