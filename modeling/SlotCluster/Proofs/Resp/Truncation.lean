import SlotCluster.Proofs.Resp.Grammar

/-!
# Streams that end too early

A reply that is cut off is never taken for a reply, wherever the cut falls.
What the reader reports tells where it fell: before a header line, inside one,
or in the body of a bulk string.  The content of a bulk string may look like a
whole reply, but the reader does not look at it before all of it is there.
-/

namespace SlotCluster
namespace Resp

variable {limit used used' : Nat} {s t : Stream} {v : Value}

/-- What is reported when a closed stream has brought `offset` bytes of the
segment and no more. -/
def Segment.cutError (offset : Nat) : Segment -> ReadError
  | .line _ => if offset = 0 then .unexpectedEof else .invalidFormat .lineEnding
  | .body _ => .io "early eof"

/-- A cut after `count` bytes of the segments falls after `offset` bytes of one
of them. -/
inductive CutIn : List Segment -> Nat -> Segment -> Nat -> Prop where
  | here {segment : Segment} {more : List Segment} {offset : Nat}
      (inside : offset < segment.bytes.length) :
      CutIn (segment :: more) offset segment offset
  | later {first segment : Segment} {more : List Segment} {count offset : Nat}
      (cut : CutIn more count segment offset) :
      CutIn (first :: more) (first.bytes.length + count) segment offset

namespace CutIn

variable {segments front back : List Segment} {segment : Segment}
  {count offset : Nat}

theorem exists_of_lt (h : count < (written segments).length) :
    exists segment offset, CutIn segments count segment offset := by
  induction segments generalizing count with
  | nil => cases h
  | cons first more ih =>
      rw [written_cons, List.length_append] at h
      rcases Nat.lt_or_ge count first.bytes.length with hinside | hbeyond
      · exact ⟨first, count, here hinside⟩
      · have hmore :
          count - first.bytes.length < (written more).length := by omega
        rcases ih hmore with ⟨segment, offset, hcut⟩
        have hlater : CutIn (first :: more) _ segment offset := hcut.later
        rw [Nat.add_sub_cancel' hbeyond] at hlater
        exact ⟨segment, offset, hlater⟩

theorem offset_le (h : CutIn segments count segment offset) :
    offset ≤ count := by
  induction h with
  | here inside => exact Nat.le_refl _
  | later cut ih => exact Nat.le_add_left_of_le ih

theorem offset_lt (h : CutIn segments count segment offset) :
    offset < segment.bytes.length := by
  induction h with
  | here inside => exact inside
  | later cut ih => exact ih

theorem end_le (h : CutIn segments count segment offset) :
    count + segment.bytes.length ≤ (written segments).length + offset := by
  induction h with
  | here inside =>
      rw [written_cons, List.length_append]
      omega
  | later cut ih =>
      rw [written_cons, List.length_append]
      omega

theorem lt_length (h : CutIn segments count segment offset) :
    count < (written segments).length := by
  have hend := h.end_le
  have hoffset := h.offset_lt
  omega

theorem of_append (h : CutIn (front ++ back) count segment offset) :
    CutIn front count segment offset ∨
      exists count', CutIn back count' segment offset ∧
        count = (written front).length + count' := by
  induction front generalizing count with
  | nil => exact Or.inr ⟨count, h, (Nat.zero_add count).symm⟩
  | cons first front ih =>
      cases h with
      | here inside => exact Or.inl (here inside)
      | later cut =>
          rcases ih cut with hfront | ⟨count', hback, hcount⟩
          · exact Or.inl hfront.later
          · refine Or.inr ⟨count', hback, ?_⟩
            rw [hcount, written_cons, List.length_append, Nat.add_assoc]

end CutIn

def Refuses (segments : List Segment) : Prop :=
  forall (limit used : Nat) (s : Stream) (count offset : Nat)
    (segment : Segment),
    CutIn segments count segment offset ->
      s.bytes = (written segments).take count ->
      s.ending = .closed -> used + (written segments).length ≤ limit ->
        exists t, (element limit used s).1 =
          (.error (segment.cutError offset), t)

/-! ## Single values -/

theorem element_of_cutHeader {text : Bytes} {segments : List Segment}
    {count : Nat} (hplain : 0x0A ∉ text)
    (hinside : count < (Segment.line text).bytes.length)
    (hbytes : s.bytes = (written (.line text :: segments)).take count)
    (hending : s.ending = .closed) (hlimit : used + count ≤ limit) :
    exists t, (element limit used s).1 =
      (.error ((Segment.line text).cutError count), t) := by
  rw [written_cons,
    List.take_append_of_le_length (Nat.le_of_lt hinside)] at hbytes
  rcases readLine_of_short hplain hbytes hending hinside hlimit with ⟨t, ht⟩
  exact ⟨t, element_of_error ht⟩

theorem refuses_line {text : Bytes} (hplain : 0x0A ∉ text) :
    Refuses [.line text] := by
  intro limit used s count offset segment hcut hbytes hending hlimit
  have hlt := hcut.lt_length
  cases hcut with
  | here inside =>
      exact element_of_cutHeader hplain inside hbytes hending (by omega)
  | later cut => cases cut

theorem refuses_bulk {header content : Bytes} (hplain : 0x0A ∉ header)
    (hlength : parseLength "bulk string" header = .ok (some content.length)) :
    Refuses [.line (0x24 :: header), .body content] := by
  intro limit used s count offset segment hcut hbytes hending hlimit
  have hlt := hcut.lt_length
  have hline : 0x0A ∉ 0x24 :: header := lineFeed_not_mem_cons (by decide) hplain
  cases hcut with
  | here inside =>
      exact element_of_cutHeader hline inside hbytes hending (by omega)
  | later cut =>
      cases cut with
      | later cut => cases cut
      | here inside =>
          have hcount :
              (Segment.body content).bytes.length = content.length + 2 :=
            List.length_append
          rw [written_cons, List.take_length_add_append,
            written_singleton] at hbytes
          rw [written_cons, written_singleton, List.length_append, hcount,
            ← Nat.add_assoc] at hlimit
          rw [hcount] at inside
          have hheader : s.bytes = written [.line (0x24 :: header)] ++
              (Segment.body content).bytes.take offset := by
            rw [hbytes, written_singleton]
          have hroom : used + (Segment.line (0x24 :: header)).bytes.length ≤
            limit := by omega
          rcases element_of_header (by decide) hplain hheader hroom with
            ⟨t, ht, hleaves⟩
          have hshort : t.bytes.length < content.length + 2 := by
            rw [hleaves.bytes, written_nil, List.nil_append, List.length_take]
            omega
          rcases Stream.takeExact_of_lt hshort
            (hleaves.ending.trans hending) with ⟨u, hu⟩
          refine ⟨u, ?_⟩
          rw [ht, if_neg (by decide)]
          change bulkBody limit _ header t = _
          unfold bulkBody
          simp only [hlength, hu, if_neg (Nat.not_lt.mpr hlimit)]
          rfl

/-! ## Arrays -/

theorem elements_of_cut {items : List Spelled} {count offset : Nat}
    {segment : Segment}
    (heach : forall item, item ∈ items -> Spells item.1 item.2)
    (hrefuses : forall item, item ∈ items -> Refuses item.2)
    (hcut : CutIn (items.flatMap Prod.snd) count segment offset)
    (hbytes : s.bytes = (written (items.flatMap Prod.snd)).take count)
    (hending : s.ending = .closed)
    (hlimit : used + (written (items.flatMap Prod.snd)).length ≤ limit) :
    exists t, (elements limit used items.length s).1 =
      (.error (segment.cutError offset), t) := by
  induction items generalizing used s count with
  | nil => cases hcut
  | cons item items ih =>
      rw [List.flatMap_cons] at hcut
      rw [List.flatMap_cons, written_append] at hbytes hlimit
      rw [List.length_append] at hlimit
      rcases hcut.of_append with hfirst | ⟨count', hlater, hcount⟩
      · rw [List.take_append_of_le_length (Nat.le_of_lt hfirst.lt_length)]
          at hbytes
        rcases hrefuses item List.mem_cons_self limit used s count offset
          segment hfirst hbytes hending (by omega) with ⟨t, ht⟩
        exact ⟨t, elements_of_error items.length ht⟩
      -- The first element is there in full, and the others break off.
      · rw [hcount, List.take_length_add_append] at hbytes
        rcases reads_of_spells (heach item List.mem_cons_self) limit used s
            _ hbytes (by omega) with
          ⟨t, ht, hleaves⟩
        rcases ih (fun x hx => heach x (List.mem_cons_of_mem _ hx))
          (fun x hx => hrefuses x (List.mem_cons_of_mem _ hx)) hlater
          hleaves.bytes (hleaves.ending.trans hending)
          (Nat.add_assoc used _ _ ▸ hlimit) with ⟨u, hu⟩
        refine ⟨u, ?_⟩
        rw [List.length_cons, elements_of_ok items.length ht, hu]
        rfl

theorem refuses_array {header : Bytes} {items : List Spelled}
    (hplain : 0x0A ∉ header)
    (hlength : parseLength "array" header = .ok (some items.length))
    (hcount : items.length ≤ maxArrayLength)
    (heach : forall item, item ∈ items -> Spells item.1 item.2)
    (hrefuses : forall item, item ∈ items -> Refuses item.2) :
    Refuses (.line (0x2A :: header) :: items.flatMap Prod.snd) := by
  intro limit used s count offset segment hcut hbytes hending hlimit
  have hlt := hcut.lt_length
  have hline : 0x0A ∉ 0x2A :: header := lineFeed_not_mem_cons (by decide) hplain
  cases hcut with
  | here inside =>
      exact element_of_cutHeader hline inside hbytes hending (by omega)
  | @later _ _ _ count' _ cut =>
      rw [written_cons, List.take_length_add_append] at hbytes
      rw [written_cons, List.length_append, ← Nat.add_assoc] at hlimit
      have hheader : s.bytes = written [.line (0x2A :: header)] ++
          (written (items.flatMap Prod.snd)).take count' := by
        rw [hbytes, written_singleton]
      have hroom :
        used + (Segment.line (0x2A :: header)).bytes.length ≤ limit := by omega
      rcases element_of_header (by decide) hplain hheader hroom with
        ⟨t, ht, hleaves⟩
      rcases elements_of_cut heach hrefuses cut hleaves.bytes
          (hleaves.ending.trans hending) hlimit with
        ⟨u, hu⟩
      refine ⟨u, ?_⟩
      rw [ht, if_pos rfl]
      unfold arrayBody
      simp only [hlength, if_neg (Nat.not_lt.mpr hcount), hu]
      rfl

theorem refuses_of_spells {segments : List Segment} (h : Spells v segments) :
    Refuses segments := by
  have hline {kind : UInt8} {text : Bytes} (hkind : kind ≠ 0x0A)
      (htext : 0x0A ∉ text) : Refuses [.line (kind :: text)] :=
    refuses_line (lineFeed_not_mem_cons hkind htext)
  induction h with
  | simple plain => exact hline (by decide) plain
  | error plain => exact hline (by decide) plain
  | integer plain number => exact hline (by decide) plain
  | bulk plain length => exact refuses_bulk plain length
  | missingBulk plain length => exact hline (by decide) plain
  | missingArray plain length => exact hline (by decide) plain
  | array plain length count each ih =>
      exact refuses_array plain length count each ih

/-! ## Replies that are cut off -/

theorem parse_of_cut {segments : List Segment} {count offset : Nat}
    {segment : Segment} (h : Spells v segments)
    (hcut : CutIn segments count segment offset)
    (hbytes : s.bytes = (written segments).take count)
    (hending : s.ending = .closed)
    (hlimit : (written segments).length ≤ limit) :
    (parse limit s).1 = .error (segment.cutError offset) := by
  have hroom : 0 + (written segments).length ≤ limit := by
    rw [Nat.zero_add]
    exact hlimit
  rcases refuses_of_spells h limit 0 s count offset segment hcut hbytes hending
    hroom with ⟨t, ht⟩
  rw [parse_of_element ht]
  rfl

/-- The bytes that were taken for a reply are a row of segments.  Every cut of
them falls into one of the segments, and a closed stream that brings the bytes
up to there is refused with the error of the place.  All of them together are
that reply, whatever follows. -/
theorem truncated_of_parse (h : parse limit s = (.ok v, t)) :
    exists segments, Spells v segments ∧ s.bytes = written segments ++ t.bytes ∧
      (forall count, count < (written segments).length ->
        exists segment offset, CutIn segments count segment offset ∧
          forall cut : Stream, cut.bytes = s.bytes.take count ->
            cut.ending = .closed ->
            (parse limit cut).1 = .error (segment.cutError offset)) ∧
      forall (s' : Stream) (rest : Bytes),
        s'.bytes = written segments ++ rest ->
        exists u, parse limit s' = (.ok v, u) ∧ Leaves s' rest u := by
  rcases spells_of_parse h with ⟨segments, hspells, hbytes, hlimit⟩
  refine ⟨segments, hspells, hbytes, fun count hcount => ?_,
    fun s' rest hbytes' => ?_⟩
  · rcases CutIn.exists_of_lt hcount with ⟨segment, offset, hcut⟩
    refine ⟨segment, offset, hcut, fun cut htaken hending => ?_⟩
    rw [hbytes, List.take_append_of_le_length (Nat.le_of_lt hcount)] at htaken
    exact parse_of_cut hspells hcut htaken hending hlimit
  · exact parse_of_spells hspells hbytes' hlimit

def posing : Value :=
  .array [.bulk (some [0x2B, 0x61, 0x0D, 0x0A]), .simple [0x62]]

theorem encodable_posing : Value.Encodable posing := by
  refine .array (by decide) (fun w hw => ?_)
  rcases List.mem_cons.mp hw with heq | hmem
  · rw [heq]
    exact .bulk (by decide)
  · rw [List.mem_singleton.mp hmem]
    exact .simple (by decide)

/-- Eighteen bytes in two pieces, with the beginning of another reply behind
them. -/
theorem truncated_of_parse_posing :
    exists t segments,
      parse 18
        (.ofPieces [(Value.encode posing).take 9,
          (Value.encode posing).drop 9 ++ [0x2B]] .closed) =
          (.ok posing, t) ∧
        Spells posing segments ∧
          Value.encode posing ++ [0x2B] = written segments ++ t.bytes ∧
        (forall count, count < (written segments).length ->
          exists segment offset, CutIn segments count segment offset ∧
            forall cut : Stream,
              cut.bytes = (Value.encode posing ++ [0x2B]).take count ->
              cut.ending = .closed ->
                (parse 18 cut).1 = .error (segment.cutError offset)) ∧
        forall (s' : Stream) (rest : Bytes),
          s'.bytes = written segments ++ rest ->
          exists u, parse 18 s' = (.ok posing, u) ∧ Leaves s' rest u := by
  have hbytes :
      (Stream.ofPieces
        [(Value.encode posing).take 9, (Value.encode posing).drop 9 ++ [0x2B]]
        .closed).bytes = Value.encode posing ++ [0x2B] :=
    rfl
  have hlimit : (Value.encode posing).length ≤ 18 := by decide
  rcases parse_of_encodable encodable_posing hbytes hlimit with ⟨t, ht, _⟩
  rcases truncated_of_parse ht with ⟨segments, hspells, htaken, hcuts, hwhole⟩
  exact ⟨t, segments, ht, hspells, htaken, hcuts, hwhole⟩

end Resp
end SlotCluster
