import SlotCluster.Proofs.Resp.Descent

/-!
# How much one reading takes

The limit on a reply bounds what is taken from the stream for it.  A bulk body
is counted before it is read, and one that goes beyond the limit stays on the
stream.  A header line is counted once its end has been found, so a line that
goes beyond the limit has been taken from the stream by then, however long it
is.

Such a line is the only thing that can go beyond the limit: it begins within it,
it ends the reading with an error, and nothing is taken after it.
-/

namespace SlotCluster
namespace Resp

variable {limit used used' : Nat} {s t : Stream} {α : Type}

/-!
## What is left after an error

A line that a failure cuts off has been taken whole, and a body that does not
come in full has been taken as far as it came.
-/

namespace Stream

theorem rest_of_lineFrom {ending : Ending} {buffer : Bytes}
    {pieces : List Bytes} {reason : String}
    (h : lineFrom ending buffer pieces = (.error reason, t)) :
    t.bytes = [] ∧ 0x0A ∉ buffer ++ pieces.flatten := by
  induction pieces generalizing buffer t with
  | nil =>
      unfold lineFrom at h
      split at h
      · cases h
      · rename_i hnone
        cases ending with
        | closed => cases h
        | failed reason =>
            cases h
            refine ⟨rfl, ?_⟩
            rw [List.flatten_nil, List.append_nil]
            exact cutLine_eq_none_iff.mp hnone
  | cons piece more ih =>
      unfold lineFrom at h
      split at h
      · cases h
      · rename_i hnone
        simp only at h
        split at h
        · cases h
        · rename_i htail
          cases h
          rcases ih htail with ⟨hrest, hfeed⟩
          refine ⟨hrest, ?_⟩
          rw [List.flatten_cons, List.mem_append, not_or]
          exact ⟨cutLine_eq_none_iff.mp hnone, hfeed⟩

theorem rest_of_takeLine {reason : String}
    (h : s.takeLine = (.error reason, t)) : t.bytes = [] ∧ 0x0A ∉ s.bytes :=
  rest_of_lineFrom h

theorem rest_of_exactFrom {ending : Ending} {count : Nat} {buffer : Bytes}
    {pieces : List Bytes} {reason : String}
    (h : exactFrom ending count buffer pieces = (.error reason, t)) :
    t.bytes = [] ∧ (buffer ++ pieces.flatten).length < count := by
  induction pieces generalizing count buffer t with
  | nil =>
      unfold exactFrom at h
      split at h
      · cases h
      · rename_i hlt
        rw [List.flatten_nil, List.append_nil]
        cases ending <;> cases h <;> exact ⟨rfl, Nat.not_le.mp hlt⟩
  | cons piece more ih =>
      unfold exactFrom at h
      split at h
      · cases h
      · rename_i hlt
        simp only at h
        split at h
        · cases h
        · rename_i htail
          cases h
          rcases ih htail with ⟨hrest, hshort⟩
          refine ⟨hrest, ?_⟩
          rw [List.flatten_cons, List.length_append]
          omega

theorem rest_of_takeExact {count : Nat} {reason : String}
    (h : s.takeExact count = (.error reason, t)) :
    t.bytes = [] ∧ s.bytes.length < count :=
  rest_of_exactFrom h

end Stream

/-!
## One element

A body never goes beyond the limit; a header line may.
-/

/-- What came of a reading step that began with `used` bytes: all that has been
taken fits into the limit, or the last of it is a header line that does not. -/
inductive Intake (limit used : Nat) (s : Stream) :
    Except ReadError α × Stream -> Prop where
  | within {result : Except ReadError α} {t : Stream} (taken : Bytes)
      (bytes : s.bytes = taken ++ t.bytes)
      (room : used + taken.length ≤ limit) : Intake limit used s (result, t)
  | beyond {error : ReadError} {t : Stream} (front line : Bytes)
      (bytes : s.bytes = front ++ line ++ t.bytes)
      (begins : used + front.length ≤ limit)
      (exceeds : limit < used + (front ++ line).length)
      (single : 0x0A ∉ line.dropLast)
      (refused : error = .frameTooLarge (used + (front ++ line).length) limit ∨
        (exists reason, error = .io reason) ∧ t.bytes = [] ∧ 0x0A ∉ line) :
      Intake limit used s (.error error, t)

namespace Intake

theorem nothing {result : Except ReadError α} (h : used ≤ limit) :
    Intake limit used s (result, s) :=
  .within [] rfl h

/-- What a step takes after another one, seen from the beginning of the
first. -/
theorem after {taken : Bytes} {r : Except ReadError α × Stream}
    (hbytes : s.bytes = taken ++ t.bytes)
    (h : Intake limit (used + taken.length) t r) : Intake limit used s r := by
  cases h with
  | within more bytes room =>
      refine .within (taken ++ more) ?_ ?_
      · rw [hbytes, bytes, List.append_assoc]
      · rw [List.length_append, ← Nat.add_assoc]
        exact room
  | @beyond error u front line bytes begins exceeds single refused =>
      have hcount : used + (taken ++ front ++ line).length =
          used + taken.length + (front ++ line).length := by
        rw [List.append_assoc, List.length_append, Nat.add_assoc]
      refine .beyond (taken ++ front) line ?_ ?_ ?_ single ?_
      · rw [hbytes, bytes]
        simp only [List.append_assoc]
      · rw [List.length_append, ← Nat.add_assoc]
        exact begins
      · rw [hcount]
        exact exceeds
      · rw [hcount]
        exact refused

end Intake

theorem dropLast_of_line {ending : Ending} {buffer line : Bytes}
    {pieces : List Bytes}
    (h : Stream.lineFrom ending buffer pieces = (.ok line, t)) :
    0x0A ∉ line.dropLast := by
  rcases Stream.text_of_lineFrom h with ⟨text, htext, rfl | rfl⟩
  · rw [List.dropLast_concat]
    exact htext
  · exact fun hmem => htext ((List.dropLast_sublist _).subset hmem)

theorem intake_readLine (h : used ≤ limit) :
    Intake limit used s (readLine limit used s) := by
  unfold readLine
  split
  · rename_i reason t hfailed
    rcases Stream.rest_of_takeLine hfailed with ⟨hrest, hfeed⟩
    have hbytes : s.bytes = s.bytes ++ t.bytes := by rw [hrest, List.append_nil]
    rcases Nat.lt_or_ge limit (used + s.bytes.length) with hover | hroom
    · exact .beyond [] s.bytes hbytes h hover
        (fun hmem => hfeed ((List.dropLast_sublist _).subset hmem))
        (Or.inr ⟨⟨reason, rfl⟩, hrest, hfeed⟩)
    · exact .within s.bytes hbytes hroom
  · rename_i t hnone
    exact .within [] (Stream.bytes_of_takeLine hnone).symm h
  · rename_i b line t hline
    have hbytes := (Stream.bytes_of_takeLine hline).symm
    split
    · rename_i hover
      exact .beyond [] (b :: line) hbytes h hover (dropLast_of_line hline)
        (Or.inl rfl)
    · rename_i hroom
      split
      · exact .within (b :: line) hbytes (Nat.not_lt.mp hroom)
      · exact .within (b :: line) hbytes (Nat.not_lt.mp hroom)

theorem intake_readBulk {header : Bytes} (h : used ≤ limit) :
    Intake limit used s (readBulk limit used header s) := by
  unfold readBulk
  split
  · exact .nothing h
  · exact .nothing h
  · rename_i length hlength
    split
    · exact .nothing h
    · rename_i hroom
      split
      · rename_i reason t hfailed
        rcases Stream.rest_of_takeExact hfailed with ⟨hrest, hshort⟩
        refine .within s.bytes (by rw [hrest, List.append_nil]) ?_
        omega
      · rename_i taken t htaken
        rcases Stream.bytes_of_takeExact htaken with ⟨hbytes, hcount⟩
        have hwithin : used + taken.length ≤ limit := by omega
        split
        · exact .within taken hbytes.symm hwithin
        · exact .within taken hbytes.symm hwithin

theorem intake_readFrame (h : used ≤ limit) :
    Intake limit used s (readFrame limit used s) := by
  have hline := intake_readLine (s := s) h
  unfold readFrame
  split
  · rename_i e t herror
    rw [herror] at hline
    cases hline with
    | within taken bytes room => exact .within taken bytes room
    | beyond front line bytes begins exceeds single refused =>
        exact .beyond front line bytes begins exceeds single refused
  · rename_i used' t hempty
    rcases bytes_of_readLine hempty with ⟨_, hbytes, hcount, hroom⟩
    exact .within _ hbytes (hcount ▸ hroom)
  · rename_i kind rest used' t hok
    rcases bytes_of_readLine hok with ⟨_, hbytes, hcount, hroom⟩
    have hheader {result : Except ReadError (Frame × Nat)} :
        Intake limit used s (result, t) :=
      .within _ hbytes (hcount ▸ hroom)
    split
    · exact hheader
    split
    · exact hheader
    split
    · exact hheader
    split
    · have hbody : Intake limit used' t (readBulk limit used' rest t) :=
        intake_readBulk hroom
      rw [hcount] at hbody
      rw [hcount]
      exact hbody.after hbytes
    split
    · exact hheader
    · exact hheader

theorem bytes_of_readBulk {header : Bytes} {frame : Frame}
    (hused : used ≤ limit)
    (h : readBulk limit used header s = (.ok (frame, used'), t)) :
    exists taken, s.bytes = taken ++ t.bytes ∧ used' = used + taken.length ∧
      used' ≤ limit := by
  unfold readBulk at h
  split at h
  · cases h
  · cases h
    exact ⟨[], rfl, rfl, hused⟩
  · split at h
    · cases h
    · rename_i hroom
      split at h
      · cases h
      · rename_i taken u htaken
        split at h
        · cases h
        · cases h
          rcases Stream.bytes_of_takeExact htaken with ⟨hbytes, hcount⟩
          exact ⟨taken, hbytes.symm, by rw [hcount], Nat.not_lt.mp hroom⟩

theorem bytes_of_readFrame {frame : Frame}
    (h : readFrame limit used s = (.ok (frame, used'), t)) :
    exists taken, s.bytes = taken ++ t.bytes ∧ used' = used + taken.length ∧
      used' ≤ limit := by
  unfold readFrame at h
  split at h
  · cases h
  · cases h
  · rename_i kind rest used₁ u hok
    rcases bytes_of_readLine hok with ⟨_, hbytes, hcount, hroom⟩
    have hheader (hused : used₁ = used') (hrest : u = t) : exists taken,
        s.bytes = taken ++ t.bytes ∧ used' = used + taken.length ∧
        used' ≤ limit := by
      rw [← hused, ← hrest]
      exact ⟨_, hbytes, hcount, hroom⟩
    split at h
    · cases h
      exact hheader rfl rfl
    split at h
    · cases h
      exact hheader rfl rfl
    split at h
    · cases hnumber : parseInteger rest with
      | error e =>
          rw [hnumber] at h
          cases h
      | ok n =>
          rw [hnumber] at h
          cases h
          exact hheader rfl rfl
    split at h
    · rcases bytes_of_readBulk hroom h with ⟨taken, htaken, hsum, hwithin⟩
      refine ⟨kind :: rest ++ Value.lineEnd ++ taken, ?_, ?_, hwithin⟩
      · rw [hbytes, htaken, ← List.append_assoc]
      · rw [hsum, hcount, @List.length_append _ (kind :: rest ++ Value.lineEnd),
          Nat.add_assoc]
    split at h
    · cases hframe : arrayFrame rest with
      | error e =>
          rw [hframe] at h
          cases h
      | ok frame =>
          rw [hframe] at h
          cases h
          exact hheader rfl rfl
    · cases h

/-! ## One reply -/

theorem intake_assemble (stack : List OpenArray) (h : used ≤ limit) :
    Intake limit used s (assemble limit used stack s) := by
  induction hsize : s.size using Nat.strongRecOn generalizing s used stack with
  | ind size ih =>
      subst hsize
      cases hframe : readFrame limit used s with
      | mk read t =>
          cases read with
          | error e =>
              have hfirst := intake_readFrame (s := s) h
              rw [hframe] at hfirst
              rw [assemble_of_error stack hframe]
              cases hfirst with
              | within taken bytes room => exact .within taken bytes room
              | beyond front line bytes begins exceeds single refused =>
                  exact .beyond front line bytes begins exceeds single refused
          | ok read =>
              rcases read with ⟨frame, used'⟩
              rcases bytes_of_readFrame hframe with
                ⟨taken, hbytes, hcount, hroom⟩
              have hshorter := size_of_readFrame hframe
              subst hcount
              cases frame with
              | arrayStart count =>
                  rw [assemble_of_arrayStart stack hframe]
                  exact (ih t.size hshorter _ hroom rfl).after hbytes
              | value v =>
                  rw [assemble_of_value stack hframe]
                  unfold proceed
                  split
                  · exact .within taken hbytes hroom
                  · exact (ih t.size hshorter _ hroom rfl).after hbytes

theorem parse_of_endless {text : Bytes} (hfeed : 0x0A ∉ text)
    (hlong : limit < text.length) :
    exists t, parse limit (.ofPieces [text] .closed) =
      (.error (.frameTooLarge text.length limit), t) ∧ t.bytes = [] := by
  have hbytes : (Stream.ofPieces [text] .closed).bytes = text :=
    List.append_nil text
  rw [← hbytes] at hfeed
  rcases Stream.takeLine_of_rest hfeed rfl with ⟨t, ht⟩
  have hnone : t.bytes = [] :=
    List.append_cancel_left
      ((Stream.bytes_of_takeLine ht).trans (List.append_nil _).symm)
  refine ⟨t, ?_, hnone⟩
  rw [hbytes] at ht
  have hline : readLine limit 0 (.ofPieces [text] .closed) =
      (.error (.frameTooLarge text.length limit), t) := by
    unfold readLine
    cases text with
    | nil => cases hlong
    | cons b line => simp only [ht, Nat.zero_add, if_pos hlong]
  refine assemble_of_error [] ?_
  unfold readFrame
  rw [hline]

/-- What one reading takes from a stream fits into the limit, up to a header
line at its end that begins within the limit.  If there is such a line, the
reading has failed: the line is refused for its length, or the stream has failed
in the middle of it.  No limit bounds the length of such a line. -/
theorem taken_of_parse (limit : Nat) (s : Stream) :
    (exists front line, s.bytes = front ++ line ++ (parse limit s).2.bytes ∧
      front.length ≤ limit ∧
      0x0A ∉ line.dropLast ∧
      (line ≠ [] -> limit < (front ++ line).length ∧
        ((parse limit s).1 =
          .error (.frameTooLarge (front ++ line).length limit) ∨
          (exists reason, (parse limit s).1 = .error (.io reason)) ∧
            (parse limit s).2.bytes = [] ∧
            0x0A ∉ line))) ∧
      forall extra, exists endless : Stream, endless.size = limit + 1 + extra ∧
        (parse limit endless).2.bytes = [] := by
  constructor
  · have hintake : Intake limit 0 s (parse limit s) :=
      intake_assemble [] (Nat.zero_le limit)
    generalize parse limit s = r at hintake
    cases hintake with
    | within taken bytes room =>
        rw [Nat.zero_add] at room
        exact ⟨taken, [], by
          rw [bytes,
            List.append_nil], room, List.not_mem_nil, fun h => absurd rfl h⟩
    | beyond front line bytes begins exceeds single refused =>
        rw [Nat.zero_add] at begins exceeds refused
        refine ⟨front, line, bytes, begins, single, fun _ => ⟨exceeds, ?_⟩⟩
        rcases refused with hlong | ⟨⟨reason, hfailed⟩, hrest, hfeed⟩
        · exact Or.inl (congrArg Except.error hlong)
        · exact Or.inr ⟨⟨reason, congrArg Except.error hfailed⟩, hrest, hfeed⟩
  · intro extra
    have hlength : (List.replicate (limit + 1 + extra) (0x2B : UInt8)).length =
        limit + 1 + extra :=
      List.length_replicate
    have hfeed : 0x0A ∉ List.replicate (limit + 1 + extra) (0x2B : UInt8) := by
      intro hmem
      exact absurd (List.eq_of_mem_replicate hmem) (by decide)
    have hlong : limit <
      (List.replicate (limit + 1 + extra) (0x2B : UInt8)).length := by omega
    rcases parse_of_endless hfeed hlong with ⟨t, ht, hnone⟩
    refine ⟨.ofPieces [List.replicate (limit + 1 + extra) 0x2B] .closed, ?_, ?_⟩
    · exact (congrArg List.length (List.append_nil _)).trans hlength
    · rw [ht]
      exact hnone

/-- A line of nine bytes under a limit of four: the reading runs into the
failure after its last byte. -/
theorem line_read_beyond_limit :
    (Stream.ofPieces [[0x2B, 0x61, 0x61, 0x61, 0x61, 0x61, 0x61, 0x61, 0x61]]
      (.failed "connection reset")).size = 9 ∧
      parse 4
        (.ofPieces [[0x2B, 0x61, 0x61, 0x61, 0x61, 0x61, 0x61, 0x61, 0x61]]
          (.failed "connection reset")) =
        (.error (.io "connection reset"),
          .ofPieces [] (.failed "connection reset")) :=
  ⟨rfl, assemble_of_error [] rfl⟩

end Resp
end SlotCluster
