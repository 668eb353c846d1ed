import SlotCluster.Text.Utf8

/-!
# Byte streams

A stream brings its bytes in pieces and then ends or fails.  Reading takes what
has arrived, asks for more when that is not enough, and keeps what it did not
use.  How the bytes are cut into pieces does not show in what is read.
-/

namespace SlotCluster
namespace Resp

/-- What comes after the last byte of a stream. -/
inductive Ending where
  /-- The stream is over. -/
  | closed
  /-- Every further read fails. -/
  | failed (reason : String)
  deriving DecidableEq, Repr, Inhabited

/-- A stream of bytes, part of which has arrived. -/
structure Stream where
  buffer : Bytes
  pieces : List Bytes
  ending : Ending
  deriving DecidableEq, Repr, Inhabited

namespace Stream

def ofPieces (pieces : List Bytes) (ending : Ending) : Stream :=
  ⟨[], pieces, ending⟩

def bytes (s : Stream) : Bytes :=
  s.buffer ++ s.pieces.flatten

def size (s : Stream) : Nat :=
  s.bytes.length

/-- The bytes up to and including the first line feed, and those after it. -/
def cutLine : Bytes -> Option (Bytes × Bytes)
  | [] => none
  | b :: rest =>
      if b = 0x0A then
        some ([b], rest)
      else
        (cutLine rest).map (fun parts => (b :: parts.1, parts.2))

def lineFrom (ending : Ending) (buffer : Bytes) (pieces : List Bytes) :
    Except String Bytes × Stream :=
  match cutLine buffer with
  | some (line, rest) => (.ok line, ⟨rest, pieces, ending⟩)
  | none =>
      match pieces with
      | [] =>
          match ending with
          | .closed => (.ok buffer, ⟨[], [], ending⟩)
          | .failed reason => (.error reason, ⟨[], [], ending⟩)
      | piece :: more =>
          match lineFrom ending piece more with
          | (.ok line, s) => (.ok (buffer ++ line), s)
          | (.error reason, s) => (.error reason, s)

/-- Read up to and including the next line feed.  Where the stream ends before
one, the line is what is left. -/
def takeLine (s : Stream) : Except String Bytes × Stream :=
  lineFrom s.ending s.buffer s.pieces

def exactFrom (ending : Ending) (count : Nat) (buffer : Bytes)
    (pieces : List Bytes) : Except String Bytes × Stream :=
  if count ≤ buffer.length then
    (.ok (buffer.take count), ⟨buffer.drop count, pieces, ending⟩)
  else
    match pieces with
    | [] =>
        match ending with
        | .closed => (.error "early eof", ⟨[], [], ending⟩)
        | .failed reason => (.error reason, ⟨[], [], ending⟩)
    | piece :: more =>
        match exactFrom ending (count - buffer.length) piece more with
        | (.ok taken, s) => (.ok (buffer ++ taken), s)
        | (.error reason, s) => (.error reason, s)

/-- Read exactly `count` bytes.  A stream that ends before is read to its
end. -/
def takeExact (count : Nat) (s : Stream) : Except String Bytes × Stream :=
  exactFrom s.ending count s.buffer s.pieces

/-! ## Reading never invents bytes -/

theorem cutLine_append {bytes line rest : Bytes}
    (h : cutLine bytes = some (line, rest)) : line ++ rest = bytes := by
  induction bytes generalizing line rest with
  | nil => simp [cutLine] at h
  | cons b bytes ih =>
      by_cases hb : b = 0x0A
      · simp only [cutLine, hb, if_true, Option.some.injEq, Prod.mk.injEq] at h
        rw [← h.1, ← h.2, hb]
        rfl
      · simp only [cutLine, hb, if_false, Option.map_eq_some_iff,
          Prod.mk.injEq] at h
        obtain ⟨parts, hparts, hline, hrest⟩ := h
        rw [← hline, ← hrest, List.cons_append, ih hparts]

theorem bytes_of_lineFrom {ending : Ending} {buffer line : Bytes}
    {pieces : List Bytes} {s : Stream}
    (h : lineFrom ending buffer pieces = (.ok line, s)) :
    line ++ s.bytes = buffer ++ pieces.flatten := by
  induction pieces generalizing buffer line s with
  | nil =>
      unfold lineFrom at h
      split at h
      · rename_i front rest hcut
        cases h
        simp [bytes, ← cutLine_append hcut]
      · cases ending with
        | closed => cases h; simp [bytes]
        | failed reason => cases h
  | cons piece more ih =>
      unfold lineFrom at h
      split at h
      · rename_i front rest hcut
        cases h
        simp [bytes, ← cutLine_append hcut]
      · simp only at h
        split at h
        · rename_i taken s' htaken
          cases h
          simp [ih htaken]
        · cases h

theorem bytes_of_takeLine {s t : Stream} {line : Bytes}
    (h : s.takeLine = (.ok line, t)) : line ++ t.bytes = s.bytes :=
  bytes_of_lineFrom h

theorem bytes_of_exactFrom {ending : Ending} {count : Nat}
    {buffer taken : Bytes} {pieces : List Bytes} {s : Stream}
    (h : exactFrom ending count buffer pieces = (.ok taken, s)) :
    taken ++ s.bytes = buffer ++ pieces.flatten ∧ taken.length = count := by
  induction pieces generalizing count buffer taken s with
  | nil =>
      unfold exactFrom at h
      split at h
      · rename_i hle
        cases h
        simp [bytes, hle]
      · cases ending <;> cases h
  | cons piece more ih =>
      unfold exactFrom at h
      split at h
      · rename_i hle
        cases h
        refine ⟨?_, by simp [hle]⟩
        simp only [bytes]
        rw [← List.append_assoc, List.take_append_drop]
      · rename_i hlt
        simp only at h
        split at h
        · rename_i inner s' hinner
          cases h
          obtain ⟨hbytes, hlen⟩ := ih hinner
          refine ⟨by simp [hbytes], ?_⟩
          rw [List.length_append, hlen]
          omega
        · cases h

theorem bytes_of_takeExact {s t : Stream} {count : Nat} {taken : Bytes}
    (h : s.takeExact count = (.ok taken, t)) :
    taken ++ t.bytes = s.bytes ∧ taken.length = count :=
  bytes_of_exactFrom h

end Stream
end Resp
end SlotCluster
