import SlotCluster.Proofs.Resp.Descent

/-!
# The grammar of replies

A reply is written as a sequence of segments, each of which the reader takes in
one go: a header line, or the body of a bulk string.  A value has many
spellings, since the number in a header may carry a sign or leading zeros and a
missing value may be announced as a bulk string or as an array.

The reader and the grammar agree in both directions.  What was read was spelled
by the bytes that were taken from the stream, and a spelling that fits into the
limit is read as the value that it spells, whatever follows it.
-/

namespace SlotCluster
namespace Resp

open Value (lineEnd)

/-- A line without its end, or a content without the line end that closes it. -/
inductive Segment where
  | line (text : Bytes)
  | body (content : Bytes)

def Segment.bytes : Segment -> Bytes
  | .line text => text ++ lineEnd
  | .body content => content ++ lineEnd

def written (segments : List Segment) : Bytes :=
  segments.flatMap Segment.bytes

theorem written_nil : written [] = [] := rfl

@[simp]
theorem written_cons (segment : Segment) (segments : List Segment) :
    written (segment :: segments) = segment.bytes ++ written segments :=
  List.flatMap_cons

theorem written_singleton (segment : Segment) :
    written [segment] = segment.bytes :=
  List.flatMap_singleton _ _

@[simp]
theorem written_append (front back : List Segment) :
    written (front ++ back) = written front ++ written back :=
  List.flatMap_append

abbrev Spelled := Value × List Segment

/-- The segments are a spelling of the value. -/
inductive Spells : Value -> List Segment -> Prop where
  | simple {text : Bytes} (plain : 0x0A ∉ text) :
      Spells (.simple text) [.line (0x2B :: text)]
  | error {text : Bytes} (plain : 0x0A ∉ text) :
      Spells (.error text) [.line (0x2D :: text)]
  | integer {raw : Bytes} {n : Int64} (plain : 0x0A ∉ raw)
      (number : parseInteger raw = .ok n) :
      Spells (.integer n) [.line (0x3A :: raw)]
  | bulk {raw content : Bytes} (plain : 0x0A ∉ raw)
      (length : parseLength "bulk string" raw = .ok (some content.length)) :
      Spells (.bulk (some content)) [.line (0x24 :: raw), .body content]
  | missingBulk {raw : Bytes} (plain : 0x0A ∉ raw)
      (length : parseLength "bulk string" raw = .ok none) :
      Spells .null [.line (0x24 :: raw)]
  | missingArray {raw : Bytes} (plain : 0x0A ∉ raw)
      (length : parseLength "array" raw = .ok none) :
      Spells .null [.line (0x2A :: raw)]
  | array {raw : Bytes} {items : List Spelled} (plain : 0x0A ∉ raw)
      (length : parseLength "array" raw = .ok (some items.length))
      (count : items.length ≤ maxArrayLength)
      (each : forall item, item ∈ items -> Spells item.1 item.2) :
      Spells (.array (items.map Prod.fst))
        (.line (0x2A :: raw) :: items.flatMap Prod.snd)

variable {limit used used' : Nat} {s t u : Stream} {rest : Bytes}

/-! ## One step of the descent -/

def arrayBody (limit used : Nat) (header : Bytes) (s : Stream) :
    Except ReadError (Value × Nat) × Stream :=
  match parseLength "array" header with
  | .error e => (.error e, s)
  | .ok none => (.ok (.null, used), s)
  | .ok (some count) =>
      if maxArrayLength < count then
        (.error (.invalidFormat (.arrayTooLarge count)), s)
      else
        arrayOf [] (elements limit used count s).1

theorem element_eq (limit used : Nat) (s : Stream) :
    (element limit used s).1 =
      match readLine limit used s with
      | (.error e, t) => (.error e, t)
      | (.ok ([], _), t) => (.error (.invalidFormat .emptyLine), t)
      | (.ok (kind :: header, used'), t) =>
          if kind = 0x2A then
            arrayBody limit used' header t
          else
            scalar limit used' kind header t := by
  rw [element]
  split
  · rename_i hline
    rw [hline]
  · rename_i hline
    rw [hline]
  · rename_i kind header used' t hline
    simp only [hline]
    by_cases harray : kind = 0x2A
    · rw [if_pos harray, if_pos harray]
      unfold arrayBody
      cases parseLength "array" header with
      | error e => rfl
      | ok length =>
          cases length with
          | none => rfl
          | some count =>
              simp only
              split
              · rfl
              · cases elements limit used' count t with
                | mk r hr =>
                    rcases r with ⟨read, u⟩
                    cases read with
                    | error e => rfl
                    | ok read => rfl
    · rw [if_neg harray, if_neg harray]

theorem element_of_error {e : ReadError}
    (h : readLine limit used s = (.error e, t)) :
    (element limit used s).1 = (.error e, t) := by
  rw [element_eq, h]

theorem element_of_empty (h : readLine limit used s = (.ok ([], used'), t)) :
    (element limit used s).1 = (.error (.invalidFormat .emptyLine), t) := by
  rw [element_eq, h]

theorem element_of_line {kind : UInt8} {header : Bytes}
    (h : readLine limit used s = (.ok (kind :: header, used'), t)) :
    (element limit used s).1 =
      if kind = 0x2A then arrayBody limit used' header t
      else scalar limit used' kind header t := by
  rw [element_eq, h]

theorem elements_zero : (elements limit used 0 s).1 = (.ok ([], used), s) := by
  rw [elements]

theorem elements_of_error {e : ReadError} (count : Nat)
    (h : (element limit used s).1 = (.error e, t)) :
    (elements limit used (count + 1) s).1 = (.error e, t) := by
  rw [elements]
  cases hfirst : element limit used s with
  | mk first hshorter =>
      rw [hfirst] at h
      cases h
      rfl

def consOf (v : Value) (r : Except ReadError (List Value × Nat) × Stream) :
    Except ReadError (List Value × Nat) × Stream :=
  (r.1.map (fun read => (v :: read.1, read.2)), r.2)

theorem elements_of_ok {v : Value} (count : Nat)
    (h : (element limit used s).1 = (.ok (v, used'), t)) :
    (elements limit used (count + 1) s).1 =
      consOf v (elements limit used' count t).1 := by
  rw [elements]
  cases hfirst : element limit used s with
  | mk first hshorter =>
      rw [hfirst] at h
      cases h
      simp only
      cases elements limit used' count t with
      | mk r hr =>
          rcases r with ⟨read, u⟩
          cases read with
          | error e => rfl
          | ok read => rfl

theorem parse_of_element {read : Except ReadError (Value × Nat)}
    (h : (element limit 0 s).1 = (read, t)) :
    parse limit s = (read.map Prod.fst, t) := by
  unfold parse
  rw [descends limit s 0 [], h]
  cases read with
  | error e => rfl
  | ok read => rfl

theorem lineFeed_not_mem_cons {kind : UInt8} {text : Bytes}
    (hkind : kind ≠ 0x0A) (htext : 0x0A ∉ text) : 0x0A ∉ kind :: text := by
  rw [List.mem_cons, not_or]
  exact ⟨Ne.symm hkind, htext⟩

/-!
## What was read was spelled

What came of reading a value is an error, or a value that was spelled by what
has been taken from the stream.
-/

structure Took (limit used : Nat) (s : Stream) (segments : List Segment)
    (used' : Nat) (t : Stream) : Prop where
  bytes : s.bytes = written segments ++ t.bytes
  counted : used' = used + (written segments).length
  within : used' ≤ limit

namespace Took

theorem line {text : Bytes}
    (h : readLine limit used s = (.ok (text, used'), t)) :
    0x0A ∉ text ∧ Took limit used s [.line text] used' t := by
  rcases bytes_of_readLine h with ⟨hplain, hbytes, hcounted, hwithin⟩
  constructor
  · exact hplain
  · constructor
    · rw [written_singleton]
      exact hbytes
    · rw [written_singleton]
      exact hcounted
    · exact hwithin

theorem trans {used₁ used₂ : Nat} {front back : List Segment}
    (first : Took limit used s front used₁ t)
    (second : Took limit used₁ t back used₂ u) :
    Took limit used s (front ++ back) used₂ u := by
  constructor
  · rw [written_append, first.bytes, second.bytes, List.append_assoc]
  · rw [written_append, List.length_append, second.counted, first.counted,
      Nat.add_assoc]
  · exact second.within

end Took

def Spelt (limit used : Nat) (s : Stream) (front : List Segment)
    (r : Except ReadError (Value × Nat) × Stream) : Prop :=
  forall v used' t, r = (.ok (v, used'), t) ->
    exists segments,
      Spells v (front ++ segments) ∧
      Took limit used s (front ++ segments) used' t

theorem spelt_bulkBody {header : Bytes} (hplain : 0x0A ∉ header)
    (hfront : Took limit used s [.line (0x24 :: header)] used' t) :
    Spelt limit used s [.line (0x24 :: header)]
      (bulkBody limit used' header t) := by
  intro v total u h
  unfold bulkBody at h
  split at h
  · cases h
  · rename_i hlength
    cases h
    exact ⟨[], .missingBulk hplain hlength, hfront⟩
  · rename_i length hlength
    simp only at h
    split at h
    · cases h
    · rename_i hroom
      split at h
      · cases h
      · rename_i taken t' htaken
        split at h
        · cases h
        · rename_i content hstrip
          cases h
          have hends := eq_of_stripLineEnd hstrip
          rcases Stream.bytes_of_takeExact htaken with ⟨hbytes, hcount⟩
          rw [hends, List.length_append] at hcount
          have hsize : length = content.length :=
            Nat.add_right_cancel hcount.symm
          subst hsize
          have hbody :
              Took limit used' t [.body content]
                (used' + (content.length + 2)) u := by
            constructor
            · rw [written_singleton, ← hbytes, hends]
              rfl
            · rw [written_singleton, Segment.bytes, List.length_append]
              rfl
            · exact Nat.not_lt.mp hroom
          exact ⟨[.body content], .bulk hplain hlength, hfront.trans hbody⟩

theorem spelt_scalar {kind : UInt8} {header : Bytes} (hplain : 0x0A ∉ header)
    (hfront : Took limit used s [.line (kind :: header)] used' t) :
    Spelt limit used s [.line (kind :: header)]
      (scalar limit used' kind header t) := by
  unfold scalar
  split
  · rename_i hkind
    intro v total u h
    cases h
    subst hkind
    exact ⟨[], .simple hplain, hfront⟩
  · split
    · rename_i hkind
      intro v total u h
      cases h
      subst hkind
      exact ⟨[], .error hplain, hfront⟩
    · split
      · rename_i hkind
        intro v total u h
        subst hkind
        cases hnumber : parseInteger header with
        | error e =>
            rw [hnumber] at h
            cases h
        | ok n =>
            rw [hnumber] at h
            cases h
            exact ⟨[], .integer hplain hnumber, hfront⟩
      · split
        · rename_i hkind
          subst hkind
          exact spelt_bulkBody hplain hfront
        · intro v total u h
          cases h

def Sounds (limit : Nat) (s : Stream) : Prop :=
  forall used v used' t, (element limit used s).1 = (.ok (v, used'), t) ->
    exists segments, Spells v segments ∧ Took limit used s segments used' t

theorem spelled_of_elements {count : Nat} {vs : List Value}
    (hused : used ≤ limit)
    (hsounds : forall t : Stream, t.size ≤ s.size -> Sounds limit t)
    (h : (elements limit used count s).1 = (.ok (vs, used'), t)) :
    exists items : List Spelled,
      items.length = count ∧ vs = items.map Prod.fst ∧
      (forall item, item ∈ items -> Spells item.1 item.2) ∧
      Took limit used s (items.flatMap Prod.snd) used' t := by
  induction count generalizing used s vs with
  | zero =>
      rw [elements_zero] at h
      cases h
      refine ⟨[], rfl, rfl, fun _ hitem => (List.not_mem_nil hitem).elim, ?_⟩
      constructor
      · rfl
      · rfl
      · exact hused
  | succ count ih =>
      cases hfirst : (element limit used s).1 with
      | mk read t₁ =>
          cases read with
          | error e =>
              rw [elements_of_error count hfirst] at h
              cases h
          | ok read =>
              rcases read with ⟨v, used₁⟩
              rw [elements_of_ok count hfirst] at h
              cases hrest : (elements limit used₁ count t₁).1 with
              | mk read u =>
                  rw [hrest] at h
                  cases read with
                  | error e => cases h
                  | ok read =>
                      rcases read with ⟨vs', total⟩
                      cases h
                      rcases hsounds s (Nat.le_refl _) used v used₁
                          t₁ hfirst with
                        ⟨segments, hspells, htook⟩
                      have hshorter : t₁.size < s.size := by
                        have hlt := (element limit used s).2
                        rw [hfirst] at hlt
                        exact hlt _ rfl
                      have hsounds' : forall t : Stream, t.size ≤ t₁.size ->
                          Sounds limit t :=
                        fun t ht =>
                          hsounds t (Nat.le_trans ht (Nat.le_of_lt hshorter))
                      rcases ih htook.within hsounds' hrest with
                        ⟨items, hlength, hvalues, heach, htooks⟩
                      refine ⟨(v, segments) :: items, ?_, ?_, ?_, ?_⟩
                      · rw [List.length_cons, hlength]
                      · rw [hvalues]
                        rfl
                      · intro item hitem
                        rcases List.mem_cons.mp hitem with heq | hmem
                        · rw [heq]
                          exact hspells
                        · exact heach item hmem
                      · rw [List.flatMap_cons]
                        exact htook.trans htooks

theorem spelt_arrayBody {header : Bytes} (hplain : 0x0A ∉ header)
    (hfront : Took limit used s [.line (0x2A :: header)] used' t)
    (hsounds : forall u : Stream, u.size ≤ t.size -> Sounds limit u) :
    Spelt limit used s [.line (0x2A :: header)]
      (arrayBody limit used' header t) := by
  intro v total u h
  unfold arrayBody at h
  split at h
  · cases h
  · rename_i hlength
    cases h
    exact ⟨[], .missingArray hplain hlength, hfront⟩
  · rename_i count hlength
    split at h
    · cases h
    · rename_i hcount
      cases hread : (elements limit used' count t).1 with
      | mk read u' =>
          rw [hread] at h
          cases read with
          | error e => cases h
          | ok read =>
              rcases read with ⟨vs, total'⟩
              cases h
              rcases spelled_of_elements hfront.within hsounds hread with
                ⟨items, hitems, hvalues, heach, htook⟩
              rw [← hitems] at hlength hcount
              have harray :=
                Spells.array hplain hlength (Nat.not_lt.mp hcount) heach
              rw [← hvalues] at harray
              exact ⟨items.flatMap Prod.snd, harray, hfront.trans htook⟩

theorem sounds (limit : Nat) (s : Stream) : Sounds limit s := by
  induction hsize : s.size using Nat.strongRecOn generalizing s with
  | ind size ih =>
      intro used v total u h
      cases hline : readLine limit used s with
      | mk read t =>
          cases read with
          | error e =>
              rw [element_of_error hline] at h
              cases h
          | ok read =>
              rcases read with ⟨text, used'⟩
              cases text with
              | nil =>
                  rw [element_of_empty hline] at h
                  cases h
              | cons kind header =>
                  rcases Took.line hline with ⟨hplain, hfront⟩
                  rw [List.mem_cons, not_or] at hplain
                  have hshorter : t.size < s.size := size_of_readLine hline
                  rw [element_of_line hline] at h
                  split at h
                  · rename_i harray
                    subst harray
                    have hsounds : forall w : Stream, w.size ≤ t.size ->
                        Sounds limit w :=
                      fun w hw => ih w.size (by omega) w rfl
                    rcases spelt_arrayBody hplain.2 hfront hsounds v total u
                      h with ⟨segments, hspelt⟩
                    exact ⟨_, hspelt⟩
                  · rcases spelt_scalar hplain.2 hfront v total u h with
                      ⟨segments, hspelt⟩
                    exact ⟨_, hspelt⟩

/-- What was read was spelled by the bytes that have left the stream, and these
fit into the limit. -/
theorem spells_of_parse {v : Value} (h : parse limit s = (.ok v, t)) :
    exists segments, Spells v segments ∧ s.bytes = written segments ++ t.bytes ∧
      (written segments).length ≤ limit := by
  cases hread : (element limit 0 s).1 with
  | mk read u =>
      rw [parse_of_element hread] at h
      cases read with
      | error e => cases h
      | ok read =>
          rcases read with ⟨w, total⟩
          cases h
          rcases sounds limit s 0 w total t hread with
            ⟨segments, hspells, htook⟩
          have hcounted := htook.counted
          rw [Nat.zero_add] at hcounted
          exact ⟨segments, hspells, htook.bytes, hcounted ▸ htook.within⟩

/-!
## What is spelled is read

A stream that begins with a spelling that fits into the limit is read as its
value.
-/

def Reads (v : Value) (segments : List Segment) : Prop :=
  forall (limit used : Nat) (s : Stream) (rest : Bytes),
    s.bytes = written segments ++ rest ->
    used + (written segments).length ≤ limit ->
    exists t, (element limit used s).1 =
      (.ok (v, used + (written segments).length), t) ∧ Leaves s rest t

theorem element_of_header {kind : UInt8} {header : Bytes}
    {segments : List Segment} (hkind : kind ≠ 0x0A) (hplain : 0x0A ∉ header)
    (hbytes : s.bytes = written (.line (kind :: header) :: segments) ++ rest)
    (hlimit : used + (Segment.line (kind :: header)).bytes.length ≤ limit) :
    exists t, (element limit used s).1 =
        (if kind = 0x2A then
          arrayBody limit
            (used + (Segment.line (kind :: header)).bytes.length) header t
        else scalar limit (used + (Segment.line (kind :: header)).bytes.length)
          kind header t) ∧
      Leaves s (written segments ++ rest) t := by
  rw [written_cons, List.append_assoc] at hbytes
  rcases readLine_of_line (lineFeed_not_mem_cons hkind hplain) hbytes
    hlimit with ⟨t, ht, hleaves⟩
  exact ⟨t, element_of_line ht, hleaves⟩

theorem reads_scalar {v : Value} {kind : UInt8} {header : Bytes}
    (hkind : kind ≠ 0x0A) (hplain : 0x0A ∉ header) (harray : kind ≠ 0x2A)
    (hscalar : forall limit used t,
      scalar limit used kind header t = (.ok (v, used), t)) :
    Reads v [.line (kind :: header)] := by
  intro limit used s rest hbytes hlimit
  rw [written_singleton] at hlimit ⊢
  rcases element_of_header hkind hplain hbytes hlimit with ⟨t, ht, hleaves⟩
  refine ⟨t, ?_, hleaves⟩
  rw [ht, if_neg harray, hscalar]

theorem reads_bulk {header content : Bytes} (hplain : 0x0A ∉ header)
    (hlength : parseLength "bulk string" header = .ok (some content.length)) :
    Reads (.bulk (some content)) [.line (0x24 :: header), .body content] := by
  intro limit used s rest hbytes hlimit
  have hcount : (content ++ lineEnd).length = content.length + 2 :=
    List.length_append
  have hsize : (written [.line (0x24 :: header), .body content]).length =
      (Segment.line (0x24 :: header)).bytes.length + (content.length + 2) := by
    rw [written_cons, List.length_append, written_singleton, ← hcount]
    rfl
  rw [hsize, ← Nat.add_assoc] at hlimit ⊢
  have hroom :
    used + (Segment.line (0x24 :: header)).bytes.length ≤ limit := by omega
  rcases element_of_header (by decide) hplain hbytes hroom with ⟨t, ht, hleaves⟩
  have hbody : t.bytes = (content ++ lineEnd) ++ rest := by
    rw [hleaves.bytes, written_singleton]
    rfl
  rcases Stream.takeExact_of_body hbody with ⟨u, hu, hrest⟩
  refine ⟨u, ?_, hrest.bytes, hrest.ending.trans hleaves.ending⟩
  rw [hcount] at hu
  rw [ht, if_neg (by decide)]
  change bulkBody limit _ header t = _
  unfold bulkBody
  simp only [hlength, hu, stripLineEnd_lineEnd, if_neg (Nat.not_lt.mpr hlimit)]

theorem elements_of_spelled {items : List Spelled}
    (hreads : forall item, item ∈ items -> Reads item.1 item.2)
    (hbytes : s.bytes = written (items.flatMap Prod.snd) ++ rest)
    (hlimit : used + (written (items.flatMap Prod.snd)).length ≤ limit) :
    exists t, (elements limit used items.length s).1 =
        (.ok (items.map Prod.fst,
          used + (written (items.flatMap Prod.snd)).length), t) ∧
      Leaves s rest t := by
  induction items generalizing used s with
  | nil =>
      refine ⟨s, ?_, hbytes, rfl⟩
      rw [List.length_nil, elements_zero]
      rfl
  | cons item items ih =>
      rw [List.flatMap_cons, written_append] at hbytes hlimit ⊢
      rw [List.append_assoc] at hbytes
      rw [List.length_append] at hlimit ⊢
      have hroom : used + (written item.2).length ≤ limit := by omega
      rcases hreads item List.mem_cons_self limit used s _ hbytes hroom with
        ⟨t, ht, hleaves⟩
      have hroom' : used + (written item.2).length +
          (written (items.flatMap Prod.snd)).length ≤ limit := by
        omega
      rcases ih (fun x hx => hreads x (List.mem_cons_of_mem _ hx))
          hleaves.bytes hroom' with
        ⟨u, hu, hleaves'⟩
      refine ⟨u, ?_, hleaves'.bytes, hleaves'.ending.trans hleaves.ending⟩
      rw [List.length_cons, elements_of_ok items.length ht, hu, ← Nat.add_assoc]
      rfl

theorem reads_missingArray {header : Bytes} (hplain : 0x0A ∉ header)
    (hlength : parseLength "array" header = .ok none) :
    Reads .null [.line (0x2A :: header)] := by
  intro limit used s rest hbytes hlimit
  rw [written_singleton] at hlimit ⊢
  rcases element_of_header (by decide) hplain hbytes hlimit with
    ⟨t, ht, hleaves⟩
  refine ⟨t, ?_, hleaves⟩
  rw [ht, if_pos rfl]
  unfold arrayBody
  rw [hlength]

theorem reads_array {header : Bytes} {items : List Spelled}
    (hplain : 0x0A ∉ header)
    (hlength : parseLength "array" header = .ok (some items.length))
    (hcount : items.length ≤ maxArrayLength)
    (hreads : forall item, item ∈ items -> Reads item.1 item.2) :
    Reads (.array (items.map Prod.fst))
      (.line (0x2A :: header) :: items.flatMap Prod.snd) := by
  intro limit used s rest hbytes hlimit
  rw [written_cons, List.length_append] at hlimit ⊢
  have hroom :
    used + (Segment.line (0x2A :: header)).bytes.length ≤ limit := by omega
  rcases element_of_header (by decide) hplain hbytes hroom with ⟨t, ht, hleaves⟩
  rw [← Nat.add_assoc] at hlimit ⊢
  rcases elements_of_spelled hreads hleaves.bytes hlimit with ⟨u, hu, hleaves'⟩
  refine ⟨u, ?_, hleaves'.bytes, hleaves'.ending.trans hleaves.ending⟩
  rw [ht, if_pos rfl]
  unfold arrayBody
  simp only [hlength, if_neg (Nat.not_lt.mpr hcount), hu]
  rfl

theorem reads_of_spells {v : Value} {segments : List Segment}
    (h : Spells v segments) : Reads v segments := by
  induction h with
  | simple plain =>
      exact reads_scalar (by decide) plain (by decide) (fun _ _ _ => rfl)
  | error plain =>
      exact reads_scalar (by decide) plain (by decide) (fun _ _ _ => rfl)
  | @integer raw n plain number =>
      refine reads_scalar (by decide) plain (by decide) (fun limit used t => ?_)
      change ((parseInteger raw).map _, t) = _
      rw [number]
      rfl
  | bulk plain length => exact reads_bulk plain length
  | @missingBulk raw plain length =>
      refine reads_scalar (by decide) plain (by decide) (fun limit used t => ?_)
      change bulkBody limit used raw t = _
      unfold bulkBody
      rw [length]
  | missingArray plain length => exact reads_missingArray plain length
  | array plain length count each ih => exact reads_array plain length count ih

/-- A spelling that fits into the limit is read as its value, and what follows
it is left. -/
theorem parse_of_spells {v : Value} {segments : List Segment}
    (h : Spells v segments) (hbytes : s.bytes = written segments ++ rest)
    (hlimit : (written segments).length ≤ limit) :
    exists t, parse limit s = (.ok v, t) ∧ Leaves s rest t := by
  have hroom : 0 + (written segments).length ≤ limit := by
    rw [Nat.zero_add]
    exact hlimit
  rcases reads_of_spells h limit 0 s rest hbytes hroom with ⟨t, ht, hleaves⟩
  exact ⟨t, parse_of_element ht, hleaves⟩

end Resp
end SlotCluster
