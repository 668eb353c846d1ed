import Mathlib.Algebra.Group.Int.Defs
import Mathlib.Algebra.Group.Nat.Defs
import SlotCluster.Proofs.Resp.Lines
import SlotCluster.Proofs.Text.Numerals

/-!
# Reading undoes encoding

Values that were encoded one after the other are read back one by one, however
the bytes are cut into pieces.  The reader keeps the open arrays on a stack; the
induction over a value therefore says how reading goes on with any stack once
the encoding of the value has been read.

Two encodings coincide, so what comes back is the value with every missing bulk
string replaced by `null`.
-/

namespace SlotCluster
namespace Resp
namespace Value

mutual

/-- The value with `null` for every bulk string without content, at every
depth. -/
def norm : Value -> Value
  | .bulk none => .null
  | .array items => .array (normAll items)
  | v => v

def normAll : List Value -> List Value
  | [] => []
  | v :: rest => norm v :: normAll rest

end

theorem normAll_eq_map (vs : List Value) : normAll vs = vs.map norm := by
  induction vs with
  | nil => rfl
  | cons v rest ih => rw [normAll, ih, List.map_cons]

@[simp]
theorem norm_array (items : List Value) :
    norm (.array items) = .array (items.map norm) := by
  rw [norm, normAll_eq_map]

/-- The values that can be told from their encoding: no text holds a line feed,
no array has more elements than a header may announce, and no content is longer
than a byte string in memory can be. -/
inductive Encodable : Value -> Prop where
  | simple {text : Bytes} (line : 0x0A ∉ text) : Encodable (.simple text)
  | error {text : Bytes} (line : 0x0A ∉ text) : Encodable (.error text)
  | integer (n : Int64) : Encodable (.integer n)
  | bulk {content : Bytes} (length : content.length < 2 ^ 63) :
      Encodable (.bulk (some content))
  | missing : Encodable (.bulk none)
  | null : Encodable .null
  | array {items : List Value} (count : items.length ≤ maxArrayLength)
      (each : forall v, v ∈ items -> Encodable v) : Encodable (.array items)

end Value

open Value

/-! ## Numbers in headers -/

theorem toNat_lt_of_signedDigits {n : Int} {c : Char}
    (h : c ∈ Decimal.signedDigits n) : 10 < c.toNat ∧ c.toNat < 128 := by
  rcases Decimal.mem_signedDigits h with hdigit | hsign
  · rw [Char.isDigit, Bool.and_eq_true, decide_eq_true_eq,
      decide_eq_true_eq] at hdigit
    have hlow : '0'.val.toNat ≤ c.val.toNat := hdigit.1
    have hhigh : c.val.toNat ≤ '9'.val.toNat := hdigit.2
    change 48 ≤ c.toNat at hlow
    change c.toNat ≤ 57 at hhigh
    omega
  · rw [hsign]
    decide

theorem toNat_ofNat_char {c : Char} (h : c.toNat < 128) :
    (UInt8.ofNat c.toNat).toNat = c.toNat := by
  rw [UInt8.toNat_ofNat']
  omega

theorem decode?_asciiBytes {text : List Char}
    (h : forall c, c ∈ text -> c.toNat < 128) :
    Utf8.decode? (asciiBytes text) = some text := by
  induction text with
  | nil => simp [asciiBytes, Utf8.decode?, Utf8.parts]
  | cons c rest ih =>
      have hc : c.toNat < 128 := h c List.mem_cons_self
      have hsame := toNat_ofNat_char hc
      have hlt : UInt8.ofNat c.toNat < 0x80 := by
        rw [UInt8.lt_iff_toNat_lt, hsame]
        exact hc
      change Utf8.decode? (UInt8.ofNat c.toNat :: asciiBytes rest) = _
      rw [Utf8.decode?_cons_of_lt hlt,
        ih (fun d hd => h d (List.mem_cons_of_mem _ hd)), hsame]
      simp

theorem lineFeed_not_mem_number (n : Int) :
    0x0A ∉ asciiBytes (Decimal.signedDigits n) := by
  intro h
  rcases List.mem_map.mp h with ⟨c, hc, hb⟩
  have hbounds := toNat_lt_of_signedDigits hc
  have hnat := congrArg UInt8.toNat hb
  rw [toNat_ofNat_char hbounds.2] at hnat
  change c.toNat = 10 at hnat
  omega

theorem parseInteger_text {text : List Char} {n : Int}
    (htext : forall c, c ∈ text -> c.toNat < 128)
    (hnumber : Decimal.integer? text = some n) (hlow : -2 ^ 63 ≤ n)
    (hhigh : n < 2 ^ 63) :
    parseInteger (asciiBytes text) = .ok (Int64.ofInt n) := by
  have hwide : (Int.ofNat (Decimal.wideSize / 2)) = 2 ^ 127 := by decide
  have hmin : Int64.minValue.toInt = -2 ^ 63 := by decide
  have hmax : Int64.maxValue.toInt = 2 ^ 63 - 1 := by decide
  have hin : (n < -2 ^ 127 || (2 : Int) ^ 127 ≤ n) = false := by
    simp only [Bool.or_eq_false_iff, decide_eq_false_iff_not]
    omega
  have hsmall : (n < -2 ^ 63 || (2 : Int) ^ 63 - 1 < n) = false := by
    simp only [Bool.or_eq_false_iff, decide_eq_false_iff_not]
    omega
  unfold parseInteger
  rw [decode?_asciiBytes htext]
  simp only [hnumber, hwide, hmin, hmax, hin, hsmall]
  rfl

theorem parseInteger_number {n : Int} (hlow : -2 ^ 63 ≤ n)
    (hhigh : n < 2 ^ 63) :
    parseInteger (asciiBytes (Decimal.signedDigits n)) = .ok (Int64.ofInt n) :=
  parseInteger_text (fun _ hc => (toNat_lt_of_signedDigits hc).2)
    (Decimal.integer?_signedDigits n) hlow hhigh

theorem parseInteger_toInt (n : Int64) :
    parseInteger (asciiBytes (Decimal.signedDigits n.toInt)) = .ok n := by
  rw [parseInteger_number n.le_toInt n.toInt_lt, Int64.ofInt_toInt]

theorem parseLength_number (what : String) {n : Nat} (h : n < 2 ^ 63) :
    parseLength what (asciiBytes (Decimal.signedDigits n)) = .ok (some n) := by
  have hint : (Int64.ofInt n).toInt = n :=
    Int64.toInt_ofInt_of_le (by omega) (by omega)
  unfold parseLength
  rw [parseInteger_number (by omega) (by omega)]
  simp only [hint]
  rw [if_neg (by omega), if_neg (by omega)]
  rfl

theorem parseLength_missing (what : String) :
    parseLength what (asciiBytes (Decimal.signedDigits (-1))) = .ok none := by
  unfold parseLength
  rw [parseInteger_number (by decide) (by decide)]
  rfl

/-! ## Single elements -/

variable {limit used : Nat} {s t : Stream} {rest : Bytes}

theorem readLine_of_kind {kind : UInt8} {text : Bytes} (hkind : kind ≠ 0x0A)
    (htext : 0x0A ∉ text) (hbytes : s.bytes = kind :: (text ++ lineEnd) ++ rest)
    (hlimit : used + (kind :: (text ++ lineEnd)).length ≤ limit) :
    exists t, readLine limit used s =
      (.ok (kind :: text, used + (kind :: (text ++ lineEnd)).length), t) ∧
      Leaves s rest t := by
  have hbody : 0x0A ∉ kind :: text := by
    rw [List.mem_cons, not_or]
    exact ⟨Ne.symm hkind, htext⟩
  exact readLine_of_line hbody hbytes hlimit

theorem readFrame_simple {text : Bytes} (htext : 0x0A ∉ text)
    (hbytes : s.bytes = encode (.simple text) ++ rest)
    (hlimit : used + (encode (.simple text)).length ≤ limit) :
    exists t, readFrame limit used s =
      (.ok (.value (.simple text), used + (encode (.simple text)).length), t) ∧
      Leaves s rest t := by
  rw [encode] at hbytes hlimit ⊢
  rcases readLine_of_kind (by decide) htext hbytes hlimit with ⟨t, ht, hleaves⟩
  refine ⟨t, ?_, hleaves⟩
  unfold readFrame
  rw [ht]
  rfl

theorem readFrame_error {text : Bytes} (htext : 0x0A ∉ text)
    (hbytes : s.bytes = encode (.error text) ++ rest)
    (hlimit : used + (encode (.error text)).length ≤ limit) :
    exists t, readFrame limit used s =
      (.ok (.value (.error text), used + (encode (.error text)).length), t) ∧
      Leaves s rest t := by
  rw [encode] at hbytes hlimit ⊢
  rcases readLine_of_kind (by decide) htext hbytes hlimit with ⟨t, ht, hleaves⟩
  refine ⟨t, ?_, hleaves⟩
  unfold readFrame
  rw [ht]
  rfl

theorem readFrame_integer {n : Int64}
    (hbytes : s.bytes = encode (.integer n) ++ rest)
    (hlimit : used + (encode (.integer n)).length ≤ limit) :
    exists t, readFrame limit used s =
      (.ok (.value (.integer n), used + (encode (.integer n)).length), t) ∧
      Leaves s rest t := by
  rw [encode] at hbytes hlimit ⊢
  rcases readLine_of_kind (by decide) (lineFeed_not_mem_number n.toInt)
      hbytes hlimit with
    ⟨t, ht, hleaves⟩
  refine ⟨t, ?_, hleaves⟩
  unfold readFrame
  rw [ht]
  change ((parseInteger (asciiBytes (Decimal.signedDigits n.toInt))).map _, t) =
    _
  rw [parseInteger_toInt]
  rfl

theorem readFrame_bulkHeader {n : Int}
    (hbytes : s.bytes = numberLine 0x24 n ++ rest)
    (hlimit : used + (numberLine 0x24 n).length ≤ limit) :
    exists t, readFrame limit used s = readBulk limit
      (used + (numberLine 0x24 n).length) (asciiBytes (Decimal.signedDigits n))
      t ∧ Leaves s rest t := by
  rcases readLine_of_kind (by decide) (lineFeed_not_mem_number n) hbytes
    hlimit with ⟨t, ht, hleaves⟩
  refine ⟨t, ?_, hleaves⟩
  unfold readFrame
  rw [ht]
  rfl

theorem readFrame_missing (hbytes : s.bytes = numberLine 0x24 (-1) ++ rest)
    (hlimit : used + (numberLine 0x24 (-1)).length ≤ limit) :
    exists t, readFrame limit used s =
      (.ok (.value .null, used + (numberLine 0x24 (-1)).length), t) ∧
      Leaves s rest t := by
  rcases readFrame_bulkHeader hbytes hlimit with ⟨t, ht, hleaves⟩
  refine ⟨t, ?_, hleaves⟩
  rw [ht]
  unfold readBulk
  rw [parseLength_missing]

theorem readFrame_bulk {content : Bytes} (hlength : content.length < 2 ^ 63)
    (hbytes : s.bytes = encode (.bulk (some content)) ++ rest)
    (hlimit : used + (encode (.bulk (some content))).length ≤ limit) :
    exists t, readFrame limit used s =
      (.ok (.value (.bulk (some content)),
        used + (encode (.bulk (some content))).length), t) ∧
      Leaves s rest t := by
  rw [encode] at hbytes hlimit ⊢
  have hsize : (numberLine 0x24 content.length ++ content ++ lineEnd).length =
      (numberLine 0x24 content.length).length + (content.length + 2) := by
    simp only [List.length_append]
    rfl
  rw [hsize] at hlimit ⊢
  have hheader : s.bytes = numberLine 0x24 content.length ++
      (content ++ lineEnd ++ rest) := by
    rw [hbytes]
    simp only [List.append_assoc]
  have hroom :
    used + (numberLine 0x24 content.length).length ≤ limit := by omega
  rcases readFrame_bulkHeader hheader hroom with ⟨t, ht, hleaves⟩
  rcases Stream.takeExact_of_body hleaves.bytes with ⟨u, hu, hrest⟩
  refine ⟨u, ?_, hrest.bytes, hrest.ending.trans hleaves.ending⟩
  have hbody : (content ++ lineEnd).length = content.length + 2 :=
    List.length_append
  rw [hbody] at hu
  rw [ht]
  unfold readBulk
  rw [parseLength_number _ hlength]
  simp only
  rw [if_neg (by omega), hu]
  simp only [stripLineEnd_lineEnd, Nat.add_assoc]

theorem readFrame_array {count : Nat} (hcount : count ≤ maxArrayLength)
    (hbytes : s.bytes = numberLine 0x2A count ++ rest)
    (hlimit : used + (numberLine 0x2A count).length ≤ limit) :
    exists t, readFrame limit used s =
        (.ok (if count = 0 then .value (.array []) else .arrayStart count,
          used + (numberLine 0x2A count).length), t) ∧ Leaves s rest t := by
  rcases readLine_of_kind (by decide) (lineFeed_not_mem_number count)
      hbytes hlimit with
    ⟨t, ht, hleaves⟩
  refine ⟨t, ?_, hleaves⟩
  have hlt : count < 2 ^ 63 := by
    unfold maxArrayLength at hcount
    omega
  have hframe : arrayFrame (asciiBytes (Decimal.signedDigits count)) =
      .ok (if count = 0 then .value (.array []) else .arrayStart count) := by
    unfold arrayFrame
    rw [parseLength_number _ hlt]
    simp only
    rw [if_neg (Nat.not_lt.mpr hcount)]
    by_cases hzero : count = 0
    · rw [if_pos hzero, if_pos hzero]
    · rw [if_neg hzero, if_neg hzero]
  unfold readFrame
  rw [ht]
  change ((arrayFrame (asciiBytes (Decimal.signedDigits count))).map _, t) = _
  rw [hframe]
  rfl

/-! ## Whole values -/

def proceed (limit used : Nat) (v : Value) (stack : List OpenArray)
    (s : Stream) : Except ReadError Value × Stream :=
  match fold v stack with
  | .inl reply => (.ok reply, s)
  | .inr stack' => assemble limit used stack' s

theorem assemble_eq (limit used : Nat) (stack : List OpenArray) (s : Stream) :
    assemble limit used stack s =
      match readFrame limit used s with
      | (.error e, t) => (.error e, t)
      | (.ok (.arrayStart count, used'), t) =>
          assemble limit used' (⟨count, []⟩ :: stack) t
      | (.ok (.value v, used'), t) => proceed limit used' v stack t := by
  rw [assemble]
  split
  · rename_i heq
    rw [heq]
  · rename_i heq
    rw [heq]
  · rename_i heq
    rw [heq]
    rfl

theorem assemble_of_value {used' : Nat} {v : Value} (stack : List OpenArray)
    (h : readFrame limit used s = (.ok (.value v, used'), t)) :
    assemble limit used stack s = proceed limit used' v stack t := by
  rw [assemble_eq, h]

theorem assemble_of_arrayStart {used' count : Nat} (stack : List OpenArray)
    (h : readFrame limit used s = (.ok (.arrayStart count, used'), t)) :
    assemble limit used stack s =
      assemble limit used' (⟨count, []⟩ :: stack) t := by
  rw [assemble_eq, h]

def ReadsBack (v : Value) : Prop :=
  forall (limit used : Nat) (s : Stream) (rest : Bytes)
    (stack : List OpenArray), s.bytes = encode v ++ rest ->
    used + (encode v).length ≤ limit ->
    exists t, assemble limit used stack s = proceed limit
      (used + (encode v).length) v.norm stack t ∧ Leaves s rest t

theorem proceed_last (v : Value) (items : List Value) (stack : List OpenArray) :
    proceed limit used v (⟨1, items⟩ :: stack) s =
      proceed limit used (.array (items.reverse ++ [v])) stack s := by
  unfold proceed
  rw [fold]
  simp

theorem proceed_more (v : Value) (items : List Value) (missing : Nat)
    (stack : List OpenArray) :
    proceed limit used v (⟨missing + 2, items⟩ :: stack) s =
      assemble limit used (⟨missing + 1, v :: items⟩ :: stack) s := by
  unfold proceed
  rw [fold]
  simp

theorem readsBack_items {v : Value} {items : List Value} (done : List Value)
    (hitems : forall w, w ∈ v :: items -> ReadsBack w) (stack : List OpenArray)
    (hbytes : s.bytes = encodeAll (v :: items) ++ rest)
    (hlimit : used + (encodeAll (v :: items)).length ≤ limit) :
    exists t, assemble limit used (⟨items.length + 1, done⟩ :: stack) s =
        proceed limit (used + (encodeAll (v :: items)).length)
          (.array (done.reverse ++ (v :: items).map Value.norm)) stack t ∧
            Leaves s rest t := by
  induction items generalizing v done used s with
  | nil =>
      rw [encodeAll, encodeAll, List.append_nil] at hbytes hlimit ⊢
      rcases hitems v List.mem_cons_self limit used s rest (⟨1, done⟩ :: stack)
          hbytes hlimit with
        ⟨t, ht, hleaves⟩
      refine ⟨t, ?_, hleaves⟩
      exact ht.trans (proceed_last v.norm done stack)
  | cons w items ih =>
      rw [encodeAll] at hbytes hlimit ⊢
      rw [List.length_append] at hlimit ⊢
      rw [List.append_assoc] at hbytes
      have hroom : used + (encode v).length ≤ limit := by omega
      rcases hitems v List.mem_cons_self limit used s
        (encodeAll (w :: items) ++ rest) (⟨items.length + 2, done⟩ :: stack)
        hbytes hroom with ⟨t, ht, hleaves⟩
      have hrest : forall x, x ∈ w :: items -> ReadsBack x :=
        fun x hx => hitems x (List.mem_cons_of_mem _ hx)
      have hroom' : used + (encode v).length + (encodeAll (w :: items)).length ≤
        limit := by omega
      rcases ih (v.norm :: done) hrest hleaves.bytes hroom' with
        ⟨u, hu, hleaves'⟩
      refine ⟨u, ?_, hleaves'.bytes, hleaves'.ending.trans hleaves.ending⟩
      rw [proceed_more] at ht
      rw [List.length_cons, ht, hu, List.reverse_cons, List.append_assoc,
        Nat.add_assoc]
      rfl

theorem readsBack_of_encodable {v : Value} (h : Encodable v) : ReadsBack v := by
  induction h with
  | simple line =>
      intro limit used s rest stack hbytes hlimit
      rcases readFrame_simple line hbytes hlimit with ⟨t, ht, hleaves⟩
      exact ⟨t, assemble_of_value stack ht, hleaves⟩
  | error line =>
      intro limit used s rest stack hbytes hlimit
      rcases readFrame_error line hbytes hlimit with ⟨t, ht, hleaves⟩
      exact ⟨t, assemble_of_value stack ht, hleaves⟩
  | integer n =>
      intro limit used s rest stack hbytes hlimit
      rcases readFrame_integer hbytes hlimit with ⟨t, ht, hleaves⟩
      exact ⟨t, assemble_of_value stack ht, hleaves⟩
  | bulk length =>
      intro limit used s rest stack hbytes hlimit
      rcases readFrame_bulk length hbytes hlimit with ⟨t, ht, hleaves⟩
      exact ⟨t, assemble_of_value stack ht, hleaves⟩
  | missing =>
      intro limit used s rest stack hbytes hlimit
      rw [encode] at hbytes hlimit ⊢
      rcases readFrame_missing hbytes hlimit with ⟨t, ht, hleaves⟩
      exact ⟨t, assemble_of_value stack ht, hleaves⟩
  | null =>
      intro limit used s rest stack hbytes hlimit
      rw [encode] at hbytes hlimit ⊢
      rcases readFrame_missing hbytes hlimit with ⟨t, ht, hleaves⟩
      exact ⟨t, assemble_of_value stack ht, hleaves⟩
  | @array items count each ih =>
      intro limit used s rest stack hbytes hlimit
      rw [encode] at hbytes hlimit ⊢
      rw [List.append_assoc] at hbytes
      rw [List.length_append] at hlimit ⊢
      have hroom :
        used + (numberLine 0x2A items.length).length ≤ limit := by omega
      rcases readFrame_array count hbytes hroom with ⟨t, ht, hleaves⟩
      cases items with
      | nil =>
          refine ⟨t, ?_, hleaves⟩
          exact assemble_of_value stack ht
      | cons v items =>
          have hroom' : used + (numberLine 0x2A (v :: items).length).length +
              (encodeAll (v :: items)).length ≤ limit := by omega
          rcases readsBack_items [] ih stack hleaves.bytes hroom' with
            ⟨u, hu, hleaves'⟩
          refine ⟨u, ?_, hleaves'.bytes, hleaves'.ending.trans hleaves.ending⟩
          rw [if_neg (by simp)] at ht
          rw [assemble_of_arrayStart stack ht]
          exact hu.trans (by rw [norm_array, Nat.add_assoc]; rfl)

/-! ## Streams of values -/

theorem parse_of_encodable {v : Value} (h : Encodable v)
    (hbytes : s.bytes = encode v ++ rest) (hlimit : (encode v).length ≤ limit) :
    exists t, parse limit s = (.ok v.norm, t) ∧ Leaves s rest t := by
  have hroom : 0 + (encode v).length ≤ limit := by omega
  rcases readsBack_of_encodable h limit 0 s rest [] hbytes hroom with
    ⟨t, ht, hleaves⟩
  exact ⟨t, ht, hleaves⟩

theorem parse_of_empty (limit : Nat) (hbytes : s.bytes = [])
    (hending : s.ending = .closed) :
    (parse limit s).1 = .error .unexpectedEof := by
  have hline := readLine_of_empty limit 0 hbytes hending
  cases hread : readLine limit 0 s with
  | mk result t =>
      rw [hread] at hline
      change result = _ at hline
      subst hline
      have hframe : readFrame limit 0 s = (.error .unexpectedEof, t) := by
        unfold readFrame
        rw [hread]
      unfold parse
      rw [assemble_eq, hframe]

def afterTimes (limit : Nat) : Nat -> Stream -> Stream
  | 0, s => s
  | count + 1, s => afterTimes limit count (parse limit s).2

/-- Values that are encoded one after the other are read back one by one up to
`norm`, whatever the pieces in which their bytes arrive: every reading takes the
encoding of its own value and no byte more, and after the last value the stream
is over. -/
theorem parseTimes_encodeAll {limit : Nat} {vs : List Value}
    {pieces : List Bytes} (hvalues : forall v, v ∈ vs -> Encodable v)
    (hlimit : forall v, v ∈ vs -> (encode v).length ≤ limit)
    (hpieces : pieces.flatten = encodeAll vs) :
    parseTimes limit (vs.length + 1) (Stream.ofPieces pieces .closed) =
        vs.map (fun v => .ok v.norm) ++ [.error .unexpectedEof] ∧
      forall i, i ≤ vs.length ->
        (afterTimes limit i (Stream.ofPieces pieces .closed)).bytes =
          encodeAll (vs.drop i) := by
  have hbytes : (Stream.ofPieces pieces .closed).bytes = encodeAll vs := by
    rw [← hpieces]
    rfl
  have hending : (Stream.ofPieces pieces .closed).ending = .closed := rfl
  generalize Stream.ofPieces pieces .closed = s at hbytes hending ⊢
  clear hpieces
  induction vs generalizing s with
  | nil =>
      constructor
      · rw [List.length_nil, parseTimes, parse_of_empty limit hbytes hending]
        rfl
      · intro i hi
        rw [List.length_nil, Nat.le_zero] at hi
        rw [hi]
        exact hbytes
  | cons v vs ih =>
      rw [encodeAll] at hbytes
      rcases parse_of_encodable (hvalues v List.mem_cons_self) hbytes
          (hlimit v List.mem_cons_self) with
        ⟨t, ht, hleaves⟩
      rcases ih (fun w hw => hvalues w (List.mem_cons_of_mem _ hw))
        (fun w hw => hlimit w (List.mem_cons_of_mem _ hw)) t hleaves.bytes
        (hleaves.ending.trans hending) with ⟨hreplies, hafter⟩
      constructor
      · rw [List.length_cons, parseTimes, ht, hreplies]
        rfl
      · intro i hi
        cases i with
        | zero =>
            change s.bytes = encodeAll (v :: vs)
            rw [encodeAll]
            exact hbytes
        | succ i =>
            change (afterTimes limit i (parse limit s).2).bytes =
              encodeAll (vs.drop i)
            rw [ht]
            exact hafter i (Nat.le_of_succ_le_succ hi)

/-- Three values whose bytes arrive one by one: a content that looks like two
lines, a missing bulk string inside an array beside an empty array, and an
integer. -/
theorem parseTimes_encodeAll_bytewise :
    parseTimes 16 4 (Stream.ofPieces
        ((encodeAll [.bulk (some [0x0D, 0x0A]), .array [.bulk none, .array []],
          .integer 7]).map
          (fun b => [b])) .closed) =
      [.ok (.bulk (some [0x0D, 0x0A])), .ok (.array [.null, .array []]),
        .ok (.integer 7),
        .error .unexpectedEof] := by
  refine (@parseTimes_encodeAll 16
    [.bulk (some [0x0D, 0x0A]), .array [.bulk none, .array []], .integer 7]
    _ ?_ ?_ ?_).1
  · intro v hv
    simp only [List.mem_cons, List.not_mem_nil, or_false] at hv
    rcases hv with hv | hv | hv
    · rw [hv]
      exact .bulk (by decide)
    · rw [hv]
      refine .array (by decide) ?_
      intro w hw
      simp only [List.mem_cons, List.not_mem_nil, or_false] at hw
      rcases hw with hw | hw
      · rw [hw]
        exact .missing
      · rw [hw]
        exact .array (by decide) (fun _ h => (List.not_mem_nil h).elim)
    · rw [hv]
      exact .integer 7
  · decide
  · decide

end Resp
end SlotCluster
