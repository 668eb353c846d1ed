import SlotCluster.Proofs.Resp.Truncation

/-!
# The limit on one reply

All bytes of a reply count against the limit, those of its innermost elements
included, and no other bytes do.  A reply that does not fit is refused where the
limit falls: the segment that reaches beyond it is counted in full, whether it
has been read by then or not, and nothing of what follows it is looked at.

The counter is the number of bytes of the segments before the next one.  For a
cut at the limit it stands at the beginning of the segment that is cut.
-/

namespace SlotCluster
namespace Resp

variable {limit used : Nat} {s t : Stream} {v : Value} {rest : Bytes}

/-- A stream that begins with the segments is refused if the limit falls into
one of them. -/
def Overruns (segments : List Segment) : Prop :=
  forall (limit used : Nat) (s : Stream) (rest : Bytes) (count offset : Nat)
    (segment : Segment),
    CutIn segments count segment offset -> s.bytes = written segments ++ rest ->
      limit = used + count ->
      exists t, (element limit used s).1 =
        (.error (.frameTooLarge (limit - offset + segment.bytes.length) limit),
          t)

/-! ## Single values -/

theorem element_of_longHeader {text : Bytes} {segments : List Segment}
    {count : Nat} (hplain : 0x0A ∉ text)
    (hinside : count < (Segment.line text).bytes.length)
    (hbytes : s.bytes = written (.line text :: segments) ++ rest)
    (hlimit : limit = used + count) :
    exists t, (element limit used s).1 =
      (.error
        (.frameTooLarge (limit - count + (Segment.line text).bytes.length)
          limit), t) := by
  rw [written_cons, List.append_assoc] at hbytes
  have hlong : limit < used + (Segment.line text).bytes.length := by omega
  rcases readLine_of_long hplain hbytes hlong with ⟨t, ht⟩
  rw [hlimit, Nat.add_sub_cancel, ← hlimit]
  exact ⟨t, element_of_error ht⟩

theorem overruns_line {text : Bytes} (hplain : 0x0A ∉ text) :
    Overruns [.line text] := by
  intro limit used s rest count offset segment hcut hbytes hlimit
  cases hcut with
  | here inside => exact element_of_longHeader hplain inside hbytes hlimit
  | later cut => cases cut

theorem overruns_bulk {header content : Bytes} (hplain : 0x0A ∉ header)
    (hlength : parseLength "bulk string" header = .ok (some content.length)) :
    Overruns [.line (0x24 :: header), .body content] := by
  intro limit used s rest count offset segment hcut hbytes hlimit
  have hline : 0x0A ∉ 0x24 :: header := lineFeed_not_mem_cons (by decide) hplain
  cases hcut with
  | here inside => exact element_of_longHeader hline inside hbytes hlimit
  | later cut =>
      cases cut with
      | later cut => cases cut
      | here inside =>
          -- The header still fits, and the body is refused before it is read.
          have hcount :
              (Segment.body content).bytes.length = content.length + 2 :=
            List.length_append
          rw [hcount] at inside ⊢
          have hroom : used + (Segment.line (0x24 :: header)).bytes.length ≤
            limit := by omega
          rcases element_of_header (by decide) hplain hbytes hroom with
            ⟨t, ht, _⟩
          have hcounted : limit - offset =
            used + (Segment.line (0x24 :: header)).bytes.length := by omega
          have hlong : limit < limit - offset + (content.length + 2) := by omega
          refine ⟨t, ?_⟩
          rw [ht, if_neg (by decide)]
          change bulkBody limit _ header t = _
          unfold bulkBody
          rw [← hcounted]
          simp only [hlength, if_pos hlong]

/-!
## Arrays

A spelling that is longer than the limit is refused at the segment into which
the limit falls.
-/

theorem elements_of_overrun {items : List Spelled} {count offset : Nat}
    {segment : Segment}
    (heach : forall item, item ∈ items -> Spells item.1 item.2)
    (hoverruns : forall item, item ∈ items -> Overruns item.2)
    (hcut : CutIn (items.flatMap Prod.snd) count segment offset)
    (hbytes : s.bytes = written (items.flatMap Prod.snd) ++ rest)
    (hlimit : limit = used + count) :
    exists t, (elements limit used items.length s).1 =
      (.error (.frameTooLarge (limit - offset + segment.bytes.length) limit),
        t) := by
  induction items generalizing used s count with
  | nil => cases hcut
  | cons item items ih =>
      rw [List.flatMap_cons] at hcut
      rw [List.flatMap_cons, written_append, List.append_assoc] at hbytes
      rcases hcut.of_append with hfirst | ⟨count', hlater, hcount⟩
      · rcases hoverruns item List.mem_cons_self limit used s _ count offset
            segment hfirst hbytes hlimit with
          ⟨t, ht⟩
        exact ⟨t, elements_of_error items.length ht⟩
      · rw [hcount, ← Nat.add_assoc] at hlimit
        have hroom : used + (written item.2).length ≤ limit :=
          hlimit ▸ Nat.le_add_right _ _
        rcases reads_of_spells (heach item List.mem_cons_self) limit used s
            _ hbytes hroom with
          ⟨t, ht, hleaves⟩
        rcases ih (fun x hx => heach x (List.mem_cons_of_mem _ hx))
          (fun x hx => hoverruns x (List.mem_cons_of_mem _ hx)) hlater
          hleaves.bytes hlimit with ⟨u, hu⟩
        refine ⟨u, ?_⟩
        rw [List.length_cons, elements_of_ok items.length ht, hu]
        rfl

theorem overruns_array {header : Bytes} {items : List Spelled}
    (hplain : 0x0A ∉ header)
    (hlength : parseLength "array" header = .ok (some items.length))
    (hcount : items.length ≤ maxArrayLength)
    (heach : forall item, item ∈ items -> Spells item.1 item.2)
    (hoverruns : forall item, item ∈ items -> Overruns item.2) :
    Overruns (.line (0x2A :: header) :: items.flatMap Prod.snd) := by
  intro limit used s rest count offset segment hcut hbytes hlimit
  have hline : 0x0A ∉ 0x2A :: header := lineFeed_not_mem_cons (by decide) hplain
  cases hcut with
  | here inside => exact element_of_longHeader hline inside hbytes hlimit
  | later cut =>
      rw [← Nat.add_assoc] at hlimit
      have hroom :
          used + (Segment.line (0x2A :: header)).bytes.length ≤ limit :=
        hlimit ▸ Nat.le_add_right _ _
      rcases element_of_header (by decide) hplain hbytes hroom with
        ⟨t, ht, hleaves⟩
      rcases elements_of_overrun heach hoverruns cut hleaves.bytes hlimit with
        ⟨u, hu⟩
      refine ⟨u, ?_⟩
      rw [ht, if_pos rfl]
      unfold arrayBody
      simp only [hlength, if_neg (Nat.not_lt.mpr hcount), hu]
      rfl

theorem overruns_of_spells {segments : List Segment} (h : Spells v segments) :
    Overruns segments := by
  have hline {kind : UInt8} {text : Bytes} (hkind : kind ≠ 0x0A)
      (htext : 0x0A ∉ text) : Overruns [.line (kind :: text)] :=
    overruns_line (lineFeed_not_mem_cons hkind htext)
  induction h with
  | simple plain => exact hline (by decide) plain
  | error plain => exact hline (by decide) plain
  | integer plain number => exact hline (by decide) plain
  | bulk plain length => exact overruns_bulk plain length
  | missingBulk plain length => exact hline (by decide) plain
  | missingArray plain length => exact hline (by decide) plain
  | array plain length count each ih =>
      exact overruns_array plain length count each ih

theorem parse_of_overrun {segments : List Segment} {offset : Nat}
    {segment : Segment} (h : Spells v segments)
    (hcut : CutIn segments limit segment offset)
    (hbytes : s.bytes = written segments ++ rest) :
    (parse limit s).1 =
      .error (.frameTooLarge (limit - offset + segment.bytes.length)
        limit) := by
  rcases overruns_of_spells h limit 0 s rest limit offset segment hcut hbytes
      (Nat.zero_add limit).symm with
    ⟨t, ht⟩
  rw [parse_of_element ht]
  rfl

/-! ## Replies one after the other -/

theorem afterTimes_succ (limit count : Nat) (s : Stream) :
    afterTimes limit (count + 1) s =
      (parse limit (afterTimes limit count s)).2 := by
  induction count generalizing s with
  | zero => rfl
  | succ count ih => exact ih (parse limit s).2

theorem getElem?_parseTimes (limit count : Nat) (s : Stream) :
    (parseTimes limit (count + 1) s)[count]? =
      some (parse limit (afterTimes limit count s)).1 := by
  induction count generalizing s with
  | zero => rfl
  | succ count ih =>
      rw [parseTimes, List.getElem?_cons_succ, ih]
      rfl

/-- Suppose that after any number of readings, failed ones among them, some
limit lets a value be read from what is left.  It is read under the given limit
exactly if the bytes it takes are not more than that, and it takes the same
bytes.  Otherwise the size in the error is that of the reply up to the end of
the segment into which the limit falls. -/
theorem parseTimes_limit_exact {free count : Nat}
    (h : parse free (afterTimes limit count s) = (.ok v, t)) :
    exists segments, Spells v segments ∧
      (afterTimes limit count s).bytes = written segments ++ t.bytes ∧
      ((written segments).length ≤ limit ->
        (parseTimes limit (count + 1) s)[count]? = some (.ok v) ∧
          Leaves (afterTimes limit count s) t.bytes
            (afterTimes limit (count + 1) s)) ∧
      (limit < (written segments).length ->
        exists segment offset size, CutIn segments limit segment offset ∧
          size = limit - offset + segment.bytes.length ∧ limit < size ∧
            size ≤ (written segments).length ∧
          (parseTimes limit (count + 1) s)[count]? =
            some (.error (.frameTooLarge size limit))) := by
  rcases spells_of_parse h with ⟨segments, hspells, hbytes, _⟩
  refine ⟨segments, hspells, hbytes, fun hfits => ?_, fun hlong => ?_⟩
  · rcases parse_of_spells hspells hbytes hfits with ⟨u, hu, hleaves⟩
    rw [getElem?_parseTimes, afterTimes_succ, hu]
    exact ⟨rfl, hleaves⟩
  · rcases CutIn.exists_of_lt hlong with ⟨segment, offset, hcut⟩
    have hinside := hcut.offset_lt
    have hbefore := hcut.offset_le
    have hend := hcut.end_le
    refine ⟨segment, offset, _, hcut, rfl, by omega, by omega, ?_⟩
    rw [getElem?_parseTimes, parse_of_overrun hspells hcut hbytes]

def crowded : Stream :=
  .ofPieces [[0x2B, 1, 2, 3, 4, 5, 6, 7, 0x0D, 0x0A],
    Value.encode (.simple [1, 2, 3, 4, 5, 6]) ++
      Value.encode (.array [.bulk (some [])])] .closed

theorem parseTimes_limit_exact_crowded :
    (parseTimes 9 1 crowded)[0]? = some (.error (.frameTooLarge 10 9)) ∧
      (parseTimes 9 2 crowded)[1]? = some (.ok (.simple [1, 2, 3, 4, 5, 6])) ∧
      (parseTimes 9 3 crowded)[2]? = some (.error (.frameTooLarge 10 9)) := by
  have hfirst : exists t,
      readLine 9 0 crowded = (.error (.frameTooLarge 10 9), t) ∧
      t.bytes = Value.encode (.simple [1, 2, 3, 4, 5, 6]) ++
        Value.encode (.array [.bulk (some [])]) :=
    ⟨_, rfl, rfl⟩
  rcases hfirst with ⟨t, ht, hrest⟩
  have hrefused := parse_of_element (element_of_error ht)
  have hafter : afterTimes 9 1 crowded = t := congrArg Prod.snd hrefused
  have hsimple : Value.Encodable (.simple [1, 2, 3, 4, 5, 6]) :=
    .simple (by decide)
  have hnine :
    (Value.encode (.simple [1, 2, 3, 4, 5, 6])).length ≤ 9 := by decide
  rcases parse_of_encodable hsimple hrest hnine with ⟨u, hu, hleaves⟩
  rw [← hafter] at hu hrest
  rcases parseTimes_limit_exact hu with ⟨segments, _, hbytes, hfits, _⟩
  rw [hrest, hleaves.bytes] at hbytes
  have hwritten := List.append_cancel_right hbytes
  rcases hfits (hwritten ▸ by decide) with ⟨hsecond, hleft⟩
  have harray : Value.Encodable (.array [.bulk (some [])]) := by
    refine .array (by decide) (fun w hw => ?_)
    rw [List.mem_singleton.mp hw]
    exact .bulk (by decide)
  have hlast : (afterTimes 9 2 crowded).bytes =
      Value.encode (.array [.bulk (some [])]) ++ [] := by
    rw [hleft.bytes, hleaves.bytes, List.append_nil]
  have hten : (Value.encode (.array [.bulk (some [])])).length ≤ 10 := by decide
  rcases parse_of_encodable harray hlast hten with ⟨w, hw, hnone⟩
  rcases parseTimes_limit_exact hw with ⟨segments', _, hbytes', _, hlong⟩
  rw [hlast, hnone.bytes] at hbytes'
  have hwritten' := List.append_cancel_right hbytes'
  have hlength : (written segments').length = 10 :=
    congrArg List.length hwritten'.symm
  rcases hlong (by omega) with ⟨_, _, size, _, _, hover, hwithin, hthird⟩
  have hsize : size = 10 := by omega
  rw [hsize] at hthird
  refine ⟨?_, hsecond, hthird⟩
  rw [getElem?_parseTimes, afterTimes, hrefused]
  rfl

end Resp
end SlotCluster
