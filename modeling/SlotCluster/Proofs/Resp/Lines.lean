import SlotCluster.Resp.Parser

/-!
# Lines and bodies

What reading takes from a stream depends on the bytes still to come, not on how
they are cut into pieces.  The lemmas here say what is taken and what is left
when the bytes begin with a whole line or a whole body.
-/

namespace SlotCluster
namespace Resp

structure Leaves (s : Stream) (rest : Bytes) (t : Stream) : Prop where
  bytes : t.bytes = rest
  ending : t.ending = s.ending

namespace Stream

/-!
## Taking a line

A line that was read has one line feed, at its end; what is left at the end of
a stream has none.
-/

theorem cutLine_line {text : Bytes} (h : 0x0A ∉ text) (rest : Bytes) :
    cutLine (text ++ 0x0A :: rest) = some (text ++ [0x0A], rest) := by
  induction text with
  | nil => simp [cutLine]
  | cons b text ih =>
      rw [List.mem_cons, not_or] at h
      rw [List.cons_append, cutLine, if_neg (Ne.symm h.1), ih h.2]
      rfl

theorem cutLine_append_some {front back line rest : Bytes}
    (h : cutLine (front ++ back) = some (line, rest)) :
    (exists short, cutLine front = some (line, short) ∧ short ++ back = rest) ∨
      cutLine front = none ∧
        exists tail, cutLine back = some (tail, rest) ∧
        front ++ tail = line := by
  induction front generalizing line with
  | nil => exact Or.inr ⟨rfl, line, h, rfl⟩
  | cons b front ih =>
      rw [List.cons_append, cutLine] at h
      by_cases hb : b = 0x0A
      · rw [if_pos hb, Option.some.injEq, Prod.mk.injEq] at h
        left
        rw [cutLine, if_pos hb, ← h.1]
        exact ⟨front, rfl, h.2⟩
      · rw [if_neg hb, Option.map_eq_some_iff] at h
        rcases h with ⟨parts, hparts, heq⟩
        rw [Prod.mk.injEq] at heq
        rcases heq with ⟨hline, hrest⟩
        have hcut : cutLine (front ++ back) = some (parts.1, rest) := by
          rw [hparts, ← hrest]
        rw [cutLine, if_neg hb]
        rcases ih hcut with ⟨short, hshort, happend⟩ |
          ⟨hnone, tail, htail, happend⟩
        · left
          exact ⟨short, by rw [hshort, ← hline]; rfl, happend⟩
        · right
          exact ⟨by rw [hnone]; rfl, tail, htail, by
            rw [List.cons_append, happend, hline]⟩

theorem lineFrom_of_cutLine (ending : Ending) {buffer line rest : Bytes}
    {pieces : List Bytes}
    (h : cutLine (buffer ++ pieces.flatten) = some (line, rest)) :
    exists t, lineFrom ending buffer pieces = (.ok line, t) ∧ t.bytes = rest ∧
      t.ending = ending := by
  induction pieces generalizing buffer line with
  | nil =>
      rw [List.flatten_nil, List.append_nil] at h
      unfold lineFrom
      simp only [h]
      exact ⟨_, rfl, by simp [bytes], rfl⟩
  | cons piece more ih =>
      rw [List.flatten_cons] at h
      unfold lineFrom
      rcases cutLine_append_some h with ⟨short, hshort, happend⟩ |
        ⟨hnone, tail, htail, happend⟩
      · simp only [hshort]
        exact ⟨_, rfl, by simp [bytes, ← happend], rfl⟩
      · rcases ih htail with ⟨t, ht, hbytes, hending⟩
        simp only [hnone, ht, happend]
        exact ⟨t, rfl, hbytes, hending⟩

theorem takeLine_of_line {s : Stream} {text rest : Bytes} (htext : 0x0A ∉ text)
    (hbytes : s.bytes = text ++ 0x0A :: rest) :
    exists t, s.takeLine = (.ok (text ++ [0x0A]), t) ∧ Leaves s rest t := by
  have hcut : cutLine (s.buffer ++ s.pieces.flatten) =
      some (text ++ [0x0A], rest) := by
    rw [← cutLine_line htext rest, ← hbytes]
    rfl
  rcases lineFrom_of_cutLine s.ending hcut with ⟨t, ht, hrest, hending⟩
  exact ⟨t, ht, hrest, hending⟩

theorem cutLine_eq_none_iff {bytes : Bytes} :
    cutLine bytes = none ↔ 0x0A ∉ bytes := by
  induction bytes with
  | nil => simp [cutLine]
  | cons b bytes ih =>
      by_cases hb : b = 0x0A
      · simp [cutLine, hb]
      · rw [cutLine, if_neg hb, Option.map_eq_none_iff, ih,
          List.mem_cons, not_or]
        exact ⟨fun h => ⟨Ne.symm hb, h⟩, And.right⟩

theorem text_of_cutLine {bytes line rest : Bytes}
    (h : cutLine bytes = some (line, rest)) :
    exists text, 0x0A ∉ text ∧ line = text ++ [0x0A] := by
  induction bytes generalizing line with
  | nil => cases h
  | cons b bytes ih =>
      rw [cutLine] at h
      by_cases hb : b = 0x0A
      · rw [if_pos hb] at h
        cases h
        exact ⟨[], List.not_mem_nil, by rw [hb]; rfl⟩
      · rw [if_neg hb, Option.map_eq_some_iff] at h
        rcases h with ⟨⟨front, back⟩, hcut, heq⟩
        cases heq
        rcases ih hcut with ⟨text, htext, hfront⟩
        refine ⟨b :: text, ?_, by rw [hfront, List.cons_append]⟩
        rw [List.mem_cons, not_or]
        exact ⟨Ne.symm hb, htext⟩

theorem text_of_lineFrom {ending : Ending} {buffer line : Bytes}
    {pieces : List Bytes} {t : Stream}
    (h : lineFrom ending buffer pieces = (.ok line, t)) :
    exists text, 0x0A ∉ text ∧ (line = text ++ [0x0A] ∨ line = text) := by
  induction pieces generalizing buffer line t with
  | nil =>
      unfold lineFrom at h
      split at h
      · rename_i front rest hcut
        cases h
        rcases text_of_cutLine hcut with ⟨text, htext, hline⟩
        exact ⟨text, htext, Or.inl hline⟩
      · rename_i hnone
        cases ending with
        | closed =>
            cases h
            exact ⟨_, cutLine_eq_none_iff.mp hnone, Or.inr rfl⟩
        | failed reason => cases h
  | cons piece more ih =>
      unfold lineFrom at h
      split at h
      · rename_i front rest hcut
        cases h
        rcases text_of_cutLine hcut with ⟨text, htext, hline⟩
        exact ⟨text, htext, Or.inl hline⟩
      · rename_i hnone
        simp only at h
        split at h
        · rename_i tail s htail
          cases h
          rcases ih htail with ⟨text, htext, hline⟩
          refine ⟨buffer ++ text, ?_, ?_⟩
          · rw [List.mem_append, not_or]
            exact ⟨cutLine_eq_none_iff.mp hnone, htext⟩
          · rcases hline with hline | hline
            · exact Or.inl (by rw [hline, List.append_assoc])
            · exact Or.inr (by rw [hline])
        · cases h

theorem lineFrom_of_rest {buffer : Bytes} {pieces : List Bytes}
    (h : 0x0A ∉ buffer ++ pieces.flatten) :
    exists t, lineFrom .closed buffer pieces =
      (.ok (buffer ++ pieces.flatten), t) := by
  induction pieces generalizing buffer with
  | nil =>
      rw [List.flatten_nil, List.append_nil] at h ⊢
      unfold lineFrom
      simp only [cutLine_eq_none_iff.mpr h]
      exact ⟨_, rfl⟩
  | cons piece more ih =>
      rw [List.flatten_cons] at h ⊢
      rw [List.mem_append, not_or] at h
      rcases ih h.2 with ⟨t, ht⟩
      unfold lineFrom
      simp only [cutLine_eq_none_iff.mpr h.1, ht]
      exact ⟨t, rfl⟩

theorem takeLine_of_rest {s : Stream} (hfeed : 0x0A ∉ s.bytes)
    (hending : s.ending = .closed) :
    exists t, s.takeLine = (.ok s.bytes, t) := by
  unfold takeLine
  rw [hending]
  exact lineFrom_of_rest hfeed

/-! ## Taking a number of bytes -/

theorem exactFrom_of_le (ending : Ending) {count : Nat} {buffer : Bytes}
    {pieces : List Bytes} (h : count ≤ (buffer ++ pieces.flatten).length) :
    exists t, exactFrom ending count buffer pieces =
      (.ok ((buffer ++ pieces.flatten).take count), t) ∧
      t.bytes = (buffer ++ pieces.flatten).drop count ∧ t.ending = ending := by
  induction pieces generalizing count buffer with
  | nil =>
      rw [List.flatten_nil, List.append_nil] at h ⊢
      unfold exactFrom
      rw [if_pos h]
      exact ⟨_, rfl, by simp [bytes], rfl⟩
  | cons piece more ih =>
      unfold exactFrom
      by_cases hle : count ≤ buffer.length
      · rw [if_pos hle, List.take_append_of_le_length hle,
          List.drop_append_of_le_length hle]
        exact ⟨_, rfl, by simp [bytes], rfl⟩
      · rw [if_neg hle]
        rw [List.flatten_cons, List.length_append] at h
        have hmore :
          count - buffer.length ≤ (piece ++ more.flatten).length := by omega
        rcases ih hmore with ⟨t, ht, hbytes, hending⟩
        have hlt : buffer.length ≤ count := by omega
        simp only [ht, List.flatten_cons]
        generalize piece ++ more.flatten = back at hbytes ⊢
        refine ⟨t, ?_, ?_, hending⟩
        · rw [List.take_append, List.take_of_length_le hlt]
        · rw [hbytes, List.drop_append, List.drop_eq_nil_of_le hlt,
            List.nil_append]

theorem takeExact_of_body {s : Stream} {body rest : Bytes}
    (hbytes : s.bytes = body ++ rest) :
    exists t, s.takeExact body.length = (.ok body, t) ∧ Leaves s rest t := by
  have hall : s.buffer ++ s.pieces.flatten = body ++ rest := hbytes
  have hle : body.length ≤ (s.buffer ++ s.pieces.flatten).length := by
    rw [hall, List.length_append]
    omega
  rcases exactFrom_of_le s.ending hle with ⟨t, ht, hrest, hending⟩
  rw [hall, List.take_left] at ht
  rw [hall, List.drop_left] at hrest
  exact ⟨t, ht, hrest, hending⟩

theorem exactFrom_of_lt {count : Nat} {buffer : Bytes} {pieces : List Bytes}
    (h : (buffer ++ pieces.flatten).length < count) :
    exists t, exactFrom .closed count buffer pieces =
      (.error "early eof", t) := by
  induction pieces generalizing count buffer with
  | nil =>
      rw [List.flatten_nil, List.append_nil] at h
      unfold exactFrom
      rw [if_neg (Nat.not_le.mpr h)]
      exact ⟨_, rfl⟩
  | cons piece more ih =>
      rw [List.flatten_cons, List.length_append] at h
      have hmore :
        (piece ++ more.flatten).length < count - buffer.length := by omega
      rcases ih hmore with ⟨t, ht⟩
      unfold exactFrom
      rw [if_neg (by omega)]
      simp only [ht]
      exact ⟨t, rfl⟩

theorem takeExact_of_lt {s : Stream} {count : Nat}
    (hshort : s.bytes.length < count) (hending : s.ending = .closed) :
    exists t, s.takeExact count = (.error "early eof", t) := by
  unfold takeExact
  rw [hending]
  exact exactFrom_of_lt hshort

end Stream

/-!
## Header lines

A line that fits into the limit is read without its end, and its bytes are
counted.  A line that goes beyond the limit is refused, and all its bytes are
in the error.
-/

open Value (lineEnd)

theorem stripLineEnd_lineEnd (body : Bytes) :
    stripLineEnd (body ++ lineEnd) = some body := by
  unfold stripLineEnd lineEnd
  simp

theorem eq_of_stripLineEnd {line body : Bytes}
    (h : stripLineEnd line = some body) : line = body ++ lineEnd := by
  unfold stripLineEnd at h
  split at h
  · rename_i front hreverse
    cases h
    rw [← List.reverse_reverse line, hreverse]
    simp [lineEnd]
  · cases h

theorem stripLineEnd_of_lineFeed_not_mem {line : Bytes} (h : 0x0A ∉ line) :
    stripLineEnd line = none := by
  cases hstrip : stripLineEnd line with
  | none => rfl
  | some body =>
      rw [eq_of_stripLineEnd hstrip] at h
      exact absurd (by simp [lineEnd]) h

theorem Stream.takeLine_of_lineEnd {s : Stream} {body rest : Bytes}
    (hbody : 0x0A ∉ body) (hbytes : s.bytes = body ++ lineEnd ++ rest) :
    exists t, s.takeLine = (.ok (body ++ lineEnd), t) ∧ Leaves s rest t := by
  have htext : 0x0A ∉ body ++ [0x0D] := by
    intro h
    rcases List.mem_append.mp h with h | h
    · exact hbody h
    · cases List.mem_singleton.mp h
  have hline : body ++ [0x0D] ++ [0x0A] = body ++ lineEnd := by
    simp [lineEnd]
  have hsplit : s.bytes = body ++ [0x0D] ++ 0x0A :: rest := by
    rw [hbytes]
    simp [lineEnd]
  rw [← hline]
  exact takeLine_of_line htext hsplit

theorem readLine_of_line {limit used : Nat} {s : Stream} {body rest : Bytes}
    (hbody : 0x0A ∉ body) (hbytes : s.bytes = body ++ lineEnd ++ rest)
    (hlimit : used + (body ++ lineEnd).length ≤ limit) :
    exists t, readLine limit used s =
      (.ok (body, used + (body ++ lineEnd).length), t) ∧ Leaves s rest t := by
  rcases Stream.takeLine_of_lineEnd hbody hbytes with ⟨t, ht, hleaves⟩
  refine ⟨t, ?_, hleaves⟩
  cases hcons : body ++ lineEnd with
  | nil => simp [lineEnd] at hcons
  | cons b line =>
      have hstrip := stripLineEnd_lineEnd body
      rw [hcons] at ht hlimit hstrip
      unfold readLine
      simp only [ht, if_neg (Nat.not_lt.mpr hlimit), hstrip]

theorem readLine_of_long {limit used : Nat} {s : Stream} {body rest : Bytes}
    (hbody : 0x0A ∉ body) (hbytes : s.bytes = body ++ lineEnd ++ rest)
    (hlimit : limit < used + (body ++ lineEnd).length) :
    exists t, readLine limit used s =
      (.error (.frameTooLarge (used + (body ++ lineEnd).length) limit), t) := by
  rcases Stream.takeLine_of_lineEnd hbody hbytes with ⟨t, ht, _⟩
  refine ⟨t, ?_⟩
  cases hcons : body ++ lineEnd with
  | nil => simp [lineEnd] at hcons
  | cons b line =>
      rw [hcons] at ht hlimit
      unfold readLine
      simp only [ht, if_pos hlimit]

theorem bytes_of_readLine {limit used used' : Nat} {s t : Stream} {body : Bytes}
    (h : readLine limit used s = (.ok (body, used'), t)) :
    0x0A ∉ body ∧ s.bytes = body ++ lineEnd ++ t.bytes ∧
      used' = used + (body ++ lineEnd).length ∧ used' ≤ limit := by
  unfold readLine at h
  split at h
  · cases h
  · cases h
  · rename_i b line t' hline
    split at h
    · cases h
    · rename_i hroom
      split at h
      · cases h
      · rename_i body' hstrip
        cases h
        have hends := eq_of_stripLineEnd hstrip
        have hbytes := Stream.bytes_of_takeLine hline
        rw [hends] at hline hbytes hroom ⊢
        refine ⟨?_, hbytes.symm, rfl, Nat.not_lt.mp hroom⟩
        rcases Stream.text_of_lineFrom hline with ⟨text, htext, heq | heq⟩
        · have hinit : body ++ [0x0D] = text := by
            have hsame : body ++ [0x0D] ++ [0x0A] = text ++ [0x0A] := by
              rw [← heq]
              simp [lineEnd]
            exact List.append_cancel_right hsame
          intro hmem
          rw [← hinit] at htext
          exact htext (List.mem_append_left _ hmem)
        · rw [← heq] at htext
          exact absurd (by simp [lineEnd]) htext

theorem readLine_of_short {limit used count : Nat} {s : Stream} {body : Bytes}
    (hbody : 0x0A ∉ body) (hbytes : s.bytes = (body ++ lineEnd).take count)
    (hending : s.ending = .closed) (hcount : count < (body ++ lineEnd).length)
    (hlimit : used + count ≤ limit) :
    exists t, readLine limit used s =
      (.error
        (if count = 0 then .unexpectedEof else .invalidFormat .lineEnding),
          t) := by
  have hfeed : 0x0A ∉ s.bytes := by
    have hinit :
        (body ++ lineEnd).take count = (body ++ [0x0D]).take count := by
      have hsplit : body ++ lineEnd = body ++ [0x0D] ++ [0x0A] := by
        simp [lineEnd]
      rw [hsplit] at hcount ⊢
      rw [List.length_append, List.length_singleton] at hcount
      exact List.take_append_of_le_length (Nat.le_of_lt_succ hcount)
    rw [hbytes, hinit]
    intro hmem
    rcases List.mem_append.mp (List.mem_of_mem_take hmem) with h | h
    · exact hbody h
    · cases List.mem_singleton.mp h
  have hlength : s.bytes.length = count := by
    rw [hbytes, List.length_take]
    omega
  rcases Stream.takeLine_of_rest hfeed hending with ⟨t, ht⟩
  refine ⟨t, ?_⟩
  unfold readLine
  cases hcons : s.bytes with
  | nil =>
      rw [hcons] at ht hlength
      have hnone : count = 0 := hlength.symm
      rw [if_pos hnone]
      simp only [ht]
  | cons b line =>
      rw [hcons] at ht hlength hfeed
      have hsome : count ≠ 0 := by
        rw [← hlength]
        exact Nat.succ_ne_zero _
      have hroom : ¬ limit < used + (b :: line).length := by omega
      rw [if_neg hsome]
      simp only [ht, if_neg hroom, stripLineEnd_of_lineFeed_not_mem hfeed]

theorem readLine_of_empty (limit used : Nat) {s : Stream}
    (hbytes : s.bytes = []) (hending : s.ending = .closed) :
    (readLine limit used s).1 = .error .unexpectedEof := by
  have hfeed : 0x0A ∉ s.bytes := by
    rw [hbytes]
    exact List.not_mem_nil
  rcases Stream.takeLine_of_rest hfeed hending with ⟨t, ht⟩
  rw [hbytes] at ht
  unfold readLine
  simp only [ht]

end Resp
end SlotCluster
