import SlotCluster.Proofs.Resp.RoundTrip

/-!
# Reading by recursive descent

The reader keeps the arrays that are still open on a stack.  Here a reply is
read the other way: the header of an array calls for its elements, each of which
is read in full before the next one, and the number of bytes read so far goes
from every element to what follows it, inside the array and after it.  Both ways
come to the same reply or the same error and leave the stream at the same place.

While the reader is at work its stack stands for the calls that have not
returned: an open array is a call that waits for the elements still missing.
The equality is proved for every stack, by induction on the bytes left in the
stream.
-/

namespace SlotCluster
namespace Resp

variable {limit used : Nat} {s t : Stream}

/-!
## The descent

Reading begins with a header, and the header calls for the rest: a body, a
number of elements, or nothing.
-/

def bulkBody (limit used : Nat) (header : Bytes) (s : Stream) :
    Except ReadError (Value × Nat) × Stream :=
  match parseLength "bulk string" header with
  | .error e => (.error e, s)
  | .ok none => (.ok (.null, used), s)
  | .ok (some length) =>
      let counted := used + (length + 2)
      if limit < counted then
        (.error (.frameTooLarge counted limit), s)
      else
        match s.takeExact (length + 2) with
        | (.error reason, t) => (.error (.io reason), t)
        | (.ok taken, t) =>
            match stripLineEnd taken with
            | none => (.error (.invalidFormat .bulkEnding), t)
            | some content => (.ok (.bulk (some content), counted), t)

def scalar (limit used : Nat) (kind : UInt8) (header : Bytes) (s : Stream) :
    Except ReadError (Value × Nat) × Stream :=
  if kind = 0x2B then (.ok (.simple header, used), s)
  else if kind = 0x2D then (.ok (.error header, used), s)
  else if kind = 0x3A then
    ((parseInteger header).map (fun n => (.integer n, used)), s)
  else if kind = 0x24 then bulkBody limit used header s
  else (.error (.invalidType kind), s)

def valueFrame (r : Except ReadError (Value × Nat) × Stream) :
    Except ReadError (Frame × Nat) × Stream :=
  (r.1.map (fun read => (.value read.1, read.2)), r.2)

theorem readBulk_eq_bulkBody (limit used : Nat) (header : Bytes) (s : Stream) :
    readBulk limit used header s =
      valueFrame (bulkBody limit used header s) := by
  unfold readBulk bulkBody valueFrame
  cases parseLength "bulk string" header with
  | error e => rfl
  | ok length =>
      cases length with
      | none => rfl
      | some length =>
          simp only
          split
          · rfl
          · cases s.takeExact (length + 2) with
            | mk taken t =>
                cases taken with
                | error reason => rfl
                | ok taken =>
                    simp only
                    cases stripLineEnd taken with
                    | none => rfl
                    | some content => rfl

theorem size_of_bulkBody {header : Bytes} {read : Value × Nat}
    (h : bulkBody limit used header s = (.ok read, t)) : t.size ≤ s.size := by
  have hread :
      readBulk limit used header s = (.ok (.value read.1, read.2), t) := by
    rw [readBulk_eq_bulkBody, h]
    rfl
  exact size_of_readBulk hread

theorem size_of_scalar {kind : UInt8} {header : Bytes} {read : Value × Nat}
    (h : scalar limit used kind header s = (.ok read, t)) :
    t.size ≤ s.size := by
  unfold scalar at h
  split at h
  · cases h
    exact Nat.le_refl _
  · split at h
    · cases h
      exact Nat.le_refl _
    · split at h
      · exact Nat.le_of_eq (congrArg Stream.size (Prod.mk.inj h).2).symm
      · split at h
        · exact size_of_bulkBody h
        · cases h

mutual

def element (limit used : Nat) (s : Stream) :
    { r : Except ReadError (Value × Nat) × Stream //
      forall read, r.1 = .ok read -> r.2.size < s.size } :=
  match hline : readLine limit used s with
  | (.error e, t) => ⟨(.error e, t), nofun⟩
  | (.ok ([], _), t) => ⟨(.error (.invalidFormat .emptyLine), t), nofun⟩
  | (.ok (kind :: header, used'), t) =>
      have hshorter : t.size < s.size := size_of_readLine hline
      if kind = 0x2A then
        match parseLength "array" header with
        | .error e => ⟨(.error e, t), nofun⟩
        | .ok none => ⟨(.ok (.null, used'), t), fun _ _ => hshorter⟩
        | .ok (some count) =>
            if maxArrayLength < count then
              ⟨(.error (.invalidFormat (.arrayTooLarge count)), t), nofun⟩
            else
              match elements limit used' count t with
              | ⟨(.error e, u), _⟩ => ⟨(.error e, u), nofun⟩
              | ⟨(.ok (items, total), u), hrest⟩ =>
                  ⟨(.ok (.array items, total), u),
                    fun _ _ => Nat.lt_of_le_of_lt (hrest _ rfl) hshorter⟩
      else
        ⟨scalar limit used' kind header t,
          fun _ h =>
            Nat.lt_of_le_of_lt (size_of_scalar (Prod.ext h rfl)) hshorter⟩
termination_by (s.size, 0)

def elements (limit used : Nat) (count : Nat) (s : Stream) :
    { r : Except ReadError (List Value × Nat) × Stream //
      forall read, r.1 = .ok read -> r.2.size ≤ s.size } :=
  match count with
  | 0 => ⟨(.ok ([], used), s), fun _ _ => Nat.le_refl _⟩
  | count + 1 =>
      match element limit used s with
      | ⟨(.error e, t), _⟩ => ⟨(.error e, t), nofun⟩
      | ⟨(.ok (v, used'), t), hfirst⟩ =>
          have hshorter : t.size < s.size := hfirst _ rfl
          match elements limit used' count t with
          | ⟨(.error e, u), _⟩ => ⟨(.error e, u), nofun⟩
          | ⟨(.ok (items, total), u), hrest⟩ =>
              ⟨(.ok (v :: items, total), u),
                fun _ _ =>
                  Nat.le_of_lt (Nat.lt_of_le_of_lt (hrest _ rfl) hshorter)⟩
termination_by (s.size, 1)

end

/-- Read one reply of at most `limit` bytes by recursive descent. -/
def descend (limit : Nat) (s : Stream) : Except ReadError Value × Stream :=
  ((element limit 0 s).1.1.map Prod.fst, (element limit 0 s).1.2)

/-! ## The stack stands for the calls that wait -/

theorem readFrame_of_line {kind : UInt8} {header : Bytes} {used' : Nat}
    (h : readLine limit used s = (.ok (kind :: header, used'), t)) :
    readFrame limit used s =
      if kind = 0x2A then
        ((arrayFrame header).map (fun frame => (frame, used')), t)
      else valueFrame (scalar limit used' kind header t) := by
  unfold readFrame scalar
  rw [h]
  simp only
  by_cases harray : kind = 0x2A
  · subst harray
    rfl
  · rw [if_neg harray, if_neg harray]
    split
    · rfl
    · split
      · rfl
      · split
        · unfold valueFrame
          cases parseInteger header with
          | error e => rfl
          | ok n => rfl
        · split
          · exact readBulk_eq_bulkBody limit used' header t
          · rfl

theorem assemble_of_error {e : ReadError} (stack : List OpenArray)
    (h : readFrame limit used s = (.error e, t)) :
    assemble limit used stack s = (.error e, t) := by
  rw [assemble_eq, h]

/-- How reading goes on from a value that was read in full, or from an error:
the value goes to the arrays that are open around it, the error ends the
reading. -/
def resumeWith (limit : Nat) (stack : List OpenArray)
    (r : Except ReadError (Value × Nat) × Stream) :
    Except ReadError Value × Stream :=
  match r with
  | (.error e, t) => (.error e, t)
  | (.ok (v, used), t) => proceed limit used v stack t

theorem assemble_of_valueFrame {r : Except ReadError (Value × Nat) × Stream}
    (stack : List OpenArray) (h : readFrame limit used s = valueFrame r) :
    assemble limit used stack s = resumeWith limit stack r := by
  rcases r with ⟨read, t⟩
  cases read with
  | error e => exact assemble_of_error stack h
  | ok read => exact assemble_of_value stack h

def Descends (limit : Nat) (s : Stream) : Prop :=
  forall (used : Nat) (stack : List OpenArray),
    assemble limit used stack s =
      resumeWith limit stack (element limit used s).1

def arrayOf (items : List Value)
    (r : Except ReadError (List Value × Nat) × Stream) :
    Except ReadError (Value × Nat) × Stream :=
  (r.1.map (fun read => (.array (items.reverse ++ read.1), read.2)), r.2)

/-- An open array on the stack is a call that reads the elements still
missing. -/
theorem assemble_of_missing {missing : Nat} (items : List Value)
    (stack : List OpenArray)
    (hdescends : forall t : Stream, t.size ≤ s.size -> Descends limit t) :
    assemble limit used (⟨missing + 1, items⟩ :: stack) s =
      resumeWith limit stack
        (arrayOf items (elements limit used (missing + 1) s).1) := by
  induction missing generalizing used items s with
  | zero =>
      rw [hdescends s (Nat.le_refl _), elements]
      cases hfirst : element limit used s with
      | mk first hshorter =>
          rcases first with ⟨read, t⟩
          cases read with
          | error e => rfl
          | ok read =>
              simp only [elements]
              exact proceed_last read.1 items stack
  | succ missing ih =>
      rw [hdescends s (Nat.le_refl _), elements]
      cases hfirst : element limit used s with
      | mk first hshorter =>
          rcases first with ⟨read, t⟩
          cases read with
          | error e => rfl
          | ok read =>
              rcases read with ⟨v, used'⟩
              have hlt : t.size < s.size := hshorter _ rfl
              have hrest := @ih used' t (v :: items)
                (fun u hu => hdescends u (Nat.le_trans hu (Nat.le_of_lt hlt)))
              -- The first element lies on the stack while the others are read.
              change proceed limit used' v (⟨missing + 2, items⟩ :: stack) t = _
              rw [proceed_more, hrest]
              simp only
              cases elements limit used' (missing + 1) t with
              | mk rest hle =>
                  rcases rest with ⟨read, u⟩
                  cases read with
                  | error e => rfl
                  | ok read =>
                      unfold arrayOf
                      simp [Except.map]

theorem assemble_of_count {count used' : Nat} (stack : List OpenArray)
    (hframe : readFrame limit used s =
      (.ok (if count = 0 then .value (.array []) else .arrayStart count, used'),
        t))
    (hdescends : forall u : Stream, u.size ≤ t.size -> Descends limit u) :
    assemble limit used stack s =
      resumeWith limit stack (arrayOf [] (elements limit used' count t).1) := by
  cases count with
  | zero =>
      rw [elements]
      exact assemble_of_value stack hframe
  | succ missing =>
      rw [if_neg (Nat.succ_ne_zero missing)] at hframe
      rw [assemble_of_arrayStart stack hframe]
      exact assemble_of_missing [] stack hdescends

theorem descends (limit : Nat) (s : Stream) : Descends limit s := by
  induction hsize : s.size using Nat.strongRecOn generalizing s with
  | ind size ih =>
      intro used stack
      rw [element]
      split
      · rename_i e t hline
        refine assemble_of_error stack ?_
        unfold readFrame
        rw [hline]
      · rename_i rest t hline
        refine assemble_of_error stack ?_
        unfold readFrame
        rw [hline]
      · rename_i kind header used' t hline
        have hlt : t.size < s.size := size_of_readLine hline
        have hframe := readFrame_of_line hline
        split
        · rename_i harray
          rw [if_pos harray] at hframe
          unfold arrayFrame at hframe
          split
          · rename_i e hlength
            rw [hlength] at hframe
            exact assemble_of_error stack hframe
          · rename_i hlength
            rw [hlength] at hframe
            exact assemble_of_value stack hframe
          · rename_i count hlength
            rw [hlength] at hframe
            simp only at hframe
            split
            · rename_i hmax
              rw [if_pos hmax] at hframe
              exact assemble_of_error stack hframe
            · rename_i hmax
              rw [if_neg hmax] at hframe
              have hcount : readFrame limit used s =
                  (.ok (if count = 0 then .value (.array [])
                    else .arrayStart count, used'), t) := by
                rw [hframe]
                split
                · rfl
                · rfl
              -- The elements begin after the header, so the stream is shorter
              -- there.
              rw [assemble_of_count stack hcount
                (fun u hu => ih u.size (by omega) u rfl)]
              cases elements limit used' count t with
              | mk rest hle =>
                  rcases rest with ⟨read, u⟩
                  cases read with
                  | error e => rfl
                  | ok read => rfl
        · rename_i harray
          rw [if_neg harray] at hframe
          exact assemble_of_valueFrame stack hframe

/-- The reader that keeps the open arrays on a stack comes to the reply, or to
the error, that recursive descent comes to, and leaves the stream where it
does. -/
theorem parse_eq_descend (limit : Nat) (s : Stream) :
    parse limit s = descend limit s := by
  unfold parse descend
  rw [descends limit s 0 []]
  rcases (element limit 0 s).1 with ⟨read, t⟩
  cases read with
  | error e => rfl
  | ok read => rfl

end Resp
end SlotCluster
