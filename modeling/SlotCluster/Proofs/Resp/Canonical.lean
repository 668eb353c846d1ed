import SlotCluster.Proofs.Resp.Grammar

/-!
# Canonical spellings

Of all the spellings of a value its encoding is one that no other undercuts, and
every value that has a spelling is read back from its encoding unchanged.
Signs, leading zeros and the choice between the two missing values are lost in
the first reading and in none after it.
-/

namespace SlotCluster
namespace Resp

open Value

variable {raw : Bytes} {v : Value} {segments : List Segment}

/-! ## Numbers -/

theorem number_of_parseInteger {n : Int64} (h : parseInteger raw = .ok n) :
    (asciiBytes (Decimal.signedDigits n.toInt)).length ≤ raw.length := by
  unfold parseInteger at h
  split at h
  · cases h
  · rename_i text htext
    split at h
    · cases h
    · rename_i m hm
      simp only at h
      split at h
      · cases h
      · split at h
        · cases h
        · rename_i hsmall
          have hmin : Int64.minValue.toInt = -2 ^ 63 := by decide
          have hmax : Int64.maxValue.toInt = 2 ^ 63 - 1 := by decide
          rw [hmin, hmax, Bool.or_eq_true, decide_eq_true_eq,
            decide_eq_true_eq] at hsmall
          have hsame : (Int64.ofInt m).toInt = m :=
            Int64.toInt_ofInt_of_le (by omega) (by omega)
          cases h
          rw [hsame, asciiBytes, List.length_map]
          exact Nat.le_trans (Decimal.length_signedDigits_le hm)
            (Utf8.length_decode?_le htext)

theorem number_of_parseLength {what : String} {length : Nat}
    (h : parseLength what raw = .ok (some length)) :
    length < 2 ^ 63 ∧ (asciiBytes (Decimal.signedDigits length)).length ≤
      raw.length := by
  unfold parseLength at h
  split at h
  · cases h
  · rename_i n hn
    split at h
    · cases h
    · split at h
      · cases h
      · rename_i hpositive
        cases h
        have hsame : (n.toInt.toNat : Int) = n.toInt :=
          Int.toNat_of_nonneg (by omega)
        have hlt := n.toInt_lt
        constructor
        · omega
        · rw [hsame]
          exact number_of_parseInteger hn

theorem number_of_missing {what : String}
    (h : parseLength what raw = .ok none) :
    (asciiBytes (Decimal.signedDigits (-1))).length ≤ raw.length := by
  unfold parseLength at h
  split at h
  · cases h
  · rename_i n hn
    split at h
    · rename_i hminus
      rw [← hminus]
      exact number_of_parseInteger hn
    · split at h
      · cases h
      · cases h

theorem length_numberLine_le {n : Int} (kind : UInt8)
    (h : (asciiBytes (Decimal.signedDigits n)).length ≤ raw.length) :
    (numberLine kind n).length ≤ (Segment.line (kind :: raw)).bytes.length := by
  rw [numberLine, Segment.bytes, List.cons_append, List.length_cons,
    List.length_cons, List.length_append, List.length_append]
  omega

/-! ## Values that have a spelling -/

theorem encodable_of_spells (h : Spells v segments) : Encodable v := by
  induction h with
  | simple plain => exact .simple plain
  | error plain => exact .error plain
  | integer plain number => exact .integer _
  | bulk plain length => exact .bulk (number_of_parseLength length).1
  | missingBulk plain length => exact .null
  | missingArray plain length => exact .null
  | @array raw items plain length count each ih =>
      have hcount : (items.map Prod.fst).length ≤ maxArrayLength := by
        rw [List.length_map]
        exact count
      refine .array hcount (fun w hw => ?_)
      rcases List.mem_map.mp hw with ⟨item, hitem, heq⟩
      rw [← heq]
      exact ih item hitem

theorem norm_of_spells (h : Spells v segments) : v.norm = v := by
  induction h with
  | simple plain => rfl
  | error plain => rfl
  | integer plain number => rfl
  | bulk plain length => rfl
  | missingBulk plain length => rfl
  | missingArray plain length => rfl
  | @array raw items plain length count each ih =>
      rw [norm_array, List.map_map]
      exact congrArg Value.array (List.map_congr_left ih)

theorem length_encodeAll_le {items : List Spelled}
    (h : forall item, item ∈ items ->
      (encode item.1).length ≤ (written item.2).length) :
    (encodeAll (items.map Prod.fst)).length ≤
      (written (items.flatMap Prod.snd)).length := by
  induction items with
  | nil => exact Nat.le_refl _
  | cons item items ih =>
      rw [List.map_cons, List.flatMap_cons, encodeAll, written_append,
        List.length_append, List.length_append]
      exact Nat.add_le_add (h item List.mem_cons_self)
        (ih (fun x hx => h x (List.mem_cons_of_mem _ hx)))

/-- No spelling of a value is shorter than its encoding. -/
theorem length_encode_le (h : Spells v segments) :
    (encode v).length ≤ (written segments).length := by
  induction h with
  | simple plain =>
      rw [written_singleton, encode]
      exact Nat.le_refl _
  | error plain =>
      rw [written_singleton, encode]
      exact Nat.le_refl _
  | integer plain number =>
      rw [written_singleton, encode]
      exact length_numberLine_le _ (number_of_parseInteger number)
  | @bulk raw content plain length =>
      have hbody : content ++ lineEnd = (Segment.body content).bytes := rfl
      rw [written_cons, written_singleton, encode, List.append_assoc, hbody,
        List.length_append, List.length_append]
      exact Nat.add_le_add_right
        (length_numberLine_le _ (number_of_parseLength length).2) _
  | missingBulk plain length =>
      rw [written_singleton, encode]
      exact length_numberLine_le _ (number_of_missing length)
  | missingArray plain length =>
      rw [written_singleton, encode]
      exact length_numberLine_le 0x2A (number_of_missing length)
  | @array raw items plain length count each ih =>
      rw [written_cons, encode, List.length_append, List.length_append,
        List.length_map]
      exact Nat.add_le_add
        (length_numberLine_le _ (number_of_parseLength length).2)
        (length_encodeAll_le ih)

/-! ## The encoding of what was read -/

/-- Whatever a value was read from, its encoding is no longer than that, and
under the same limit the encoding is read as the same value, with all that
follows it left on the stream. -/
theorem parse_encode_of_parse {limit : Nat} {s t : Stream}
    (h : parse limit s = (.ok v, t)) :
    exists taken,
      s.bytes = taken ++ t.bytes ∧ (encode v).length ≤ taken.length ∧
      forall (s' : Stream) (rest : Bytes), s'.bytes = encode v ++ rest ->
        exists u, parse limit s' = (.ok v, u) ∧ Leaves s' rest u := by
  rcases spells_of_parse h with ⟨segments, hspells, hbytes, hlimit⟩
  have hlength := length_encode_le hspells
  refine ⟨written segments, hbytes, hlength, fun s' rest hbytes' => ?_⟩
  rcases parse_of_encodable (encodable_of_spells hspells) hbytes'
      (Nat.le_trans hlength hlimit) with
    ⟨u, hu, hleaves⟩
  rw [norm_of_spells hspells] at hu
  exact ⟨u, hu, hleaves⟩

def looseItems : List Spelled :=
  [(.integer 0, [.line (0x3A :: asciiBytes ['-', '0'])]),
    (.null, [.line (0x2A :: asciiBytes ['-', '1'])])]

def looseSegments : List Segment :=
  .line (0x2A :: asciiBytes ['+', '0', '2']) :: looseItems.flatMap Prod.snd

theorem spells_loose : Spells (.array [.integer 0, .null]) looseSegments := by
  have hcount :
      parseLength "array" (asciiBytes ['+', '0', '2']) = .ok (some 2) := by
    unfold parseLength
    rw [parseInteger_text (n := 2) (by simp) (by decide) (by decide)
      (by decide)]
    decide
  have heach : forall item, item ∈ looseItems -> Spells item.1 item.2 := by
    intro item hitem
    rcases List.mem_cons.mp hitem with heq | hmem
    · rw [heq]
      exact .integer (by decide)
        (parseInteger_text (n := 0) (by simp) (by decide) (by decide)
          (by decide))
    · rw [List.mem_singleton.mp hmem]
      exact .missingArray (by decide) (parseLength_missing "array")
  exact .array (by decide) hcount (by decide) heach

/-- Sixteen bytes that arrive in two pieces, with the next reply behind them. -/
theorem parse_encode_of_parse_loose :
    exists t taken,
      parse 16
        (.ofPieces [(written looseSegments).take 7,
          (written looseSegments).drop 7 ++ [0x2B]] .closed) =
          (.ok (.array [.integer 0, .null]), t) ∧
        written looseSegments ++ [0x2B] = taken ++ t.bytes ∧
        (encode (.array [.integer 0, .null])).length ≤ taken.length ∧
        forall (s' : Stream) (rest : Bytes),
          s'.bytes = encode (.array [.integer 0, .null]) ++ rest ->
          exists u, parse 16 s' = (.ok (.array [.integer 0, .null]), u) ∧
            Leaves s' rest u := by
  have hbytes :
      (Stream.ofPieces
        [(written looseSegments).take 7,
          (written looseSegments).drop 7 ++ [0x2B]] .closed).bytes =
            written looseSegments ++ [0x2B] :=
    rfl
  have hlimit : (written looseSegments).length ≤ 16 := by decide
  rcases parse_of_spells spells_loose hbytes hlimit with ⟨t, ht, _⟩
  rcases parse_encode_of_parse ht with ⟨taken, htaken, hlength, hcanonical⟩
  exact ⟨t, taken, ht, htaken, hlength, hcanonical⟩

end Resp
end SlotCluster
