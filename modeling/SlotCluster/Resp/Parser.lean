import SlotCluster.Resp.Stream
import SlotCluster.Resp.Value

/-!
# Reading replies

One reply is read from a stream at a time.  A reply begins with a header line;
an array header announces its elements, which follow one after the other, and
the arrays that are still open are kept on a stack.  All that one reply takes
from the stream counts against one limit.

A bulk body is counted before it is read, and a header line once its end has
been found.
-/

namespace SlotCluster
namespace Resp

/-- What is wrong with the form of a reply. -/
inductive FormatError where
  | lineEnding
  | emptyLine
  | integerEncoding
  | invalidInteger (text : String)
  | negativeLength (what : String) (length : Int)
  | arrayTooLarge (count : Nat)
  | bulkEnding
  deriving DecidableEq, Repr

/-- Why no reply could be read. -/
inductive ReadError where
  | io (reason : String)
  | invalidFormat (reason : FormatError)
  | unexpectedEof
  | integerOverflow
  | frameTooLarge (size limit : Nat)
  | invalidType (kind : UInt8)
  deriving DecidableEq, Repr

def FormatError.message : FormatError -> String
  | .lineEnding => "Line not terminated by CRLF"
  | .emptyLine => "Empty line"
  | .integerEncoding => "Integer is not valid UTF-8"
  | .invalidInteger text => "Invalid integer: " ++ text
  | .negativeLength what length =>
      "Invalid " ++ what ++ " length: " ++ toString length
  | .arrayTooLarge count => "Array too large: " ++ toString count ++ " elements"
  | .bulkEnding => "Expected \\r\\n after bulk string"

def ReadError.message : ReadError -> String
  | .io reason => "IO error: " ++ reason
  | .invalidFormat reason => "Invalid RESP format: " ++ reason.message
  | .unexpectedEof => "Unexpected end of input"
  | .integerOverflow => "Integer overflow"
  | .frameTooLarge size limit =>
      "Frame too large: " ++ toString size ++ " bytes (max: " ++
        toString limit ++ " bytes)"
  | .invalidType kind => "Invalid RESP type: " ++ toString kind.toNat

def defaultLimit : Nat := 512 * 1024 * 1024

/-- The largest number of elements that one array header may announce. -/
def maxArrayLength : Nat := 1024 * 1024

/-! ## Numbers -/

/-- The integer of a header.  A numeral beyond 128 bits is not told apart from
other text. -/
def parseInteger (raw : Bytes) : Except ReadError Int64 :=
  match Utf8.decode? raw with
  | none => .error (.invalidFormat .integerEncoding)
  | some text =>
      match Decimal.integer? text with
      | none => .error (.invalidFormat (.invalidInteger (String.ofList text)))
      | some n =>
          let bound := Int.ofNat (Decimal.wideSize / 2)
          if n < -bound || bound ≤ n then
            .error (.invalidFormat (.invalidInteger (String.ofList text)))
          else if n < Int64.minValue.toInt || Int64.maxValue.toInt < n then
            .error .integerOverflow
          else
            .ok (Int64.ofInt n)

/-- The length in a header; minus one stands for a value that is missing. -/
def parseLength (what : String) (raw : Bytes) : Except ReadError (Option Nat) :=
  match parseInteger raw with
  | .error e => .error e
  | .ok n =>
      if n.toInt = -1 then
        .ok none
      else if n.toInt < 0 then
        .error (.invalidFormat (.negativeLength what n.toInt))
      else
        .ok (some n.toInt.toNat)

/-! ## Frames -/

/-- The line without the carriage return and line feed at its end. -/
def stripLineEnd (line : Bytes) : Option Bytes :=
  match line.reverse with
  | 0x0A :: 0x0D :: front => some front.reverse
  | _ => none

/-- Read a header line when `used` bytes of the reply have been read.  Returns
the line without its end and the number of bytes read so far. -/
def readLine (limit used : Nat) (s : Stream) :
    Except ReadError (Bytes × Nat) × Stream :=
  match s.takeLine with
  | (.error reason, s) => (.error (.io reason), s)
  | (.ok [], s) => (.error .unexpectedEof, s)
  | (.ok (b :: line), s) =>
      if limit < used + (b :: line).length then
        (.error (.frameTooLarge (used + (b :: line).length) limit), s)
      else
        match stripLineEnd (b :: line) with
        | none => (.error (.invalidFormat .lineEnding), s)
        | some body => (.ok (body, used + (b :: line).length), s)

/-- One element of a reply: a value, or the header of an array that has
elements. -/
inductive Frame where
  | value (v : Value)
  | arrayStart (count : Nat)
  deriving Repr

def readBulk (limit used : Nat) (header : Bytes) (s : Stream) :
    Except ReadError (Frame × Nat) × Stream :=
  match parseLength "bulk string" header with
  | .error e => (.error e, s)
  | .ok none => (.ok (.value .null, used), s)
  | .ok (some length) =>
      if limit < used + (length + 2) then
        (.error (.frameTooLarge (used + (length + 2)) limit), s)
      else
        match s.takeExact (length + 2) with
        | (.error reason, s) => (.error (.io reason), s)
        | (.ok taken, s) =>
            match stripLineEnd taken with
            | none => (.error (.invalidFormat .bulkEnding), s)
            | some content =>
                (.ok (.value (.bulk (some content)), used + (length + 2)), s)

def arrayFrame (header : Bytes) : Except ReadError Frame :=
  match parseLength "array" header with
  | .error e => .error e
  | .ok none => .ok (.value .null)
  | .ok (some count) =>
      if maxArrayLength < count then
        .error (.invalidFormat (.arrayTooLarge count))
      else if count = 0 then
        .ok (.value (.array []))
      else
        .ok (.arrayStart count)

def readFrame (limit used : Nat) (s : Stream) :
    Except ReadError (Frame × Nat) × Stream :=
  match readLine limit used s with
  | (.error e, s) => (.error e, s)
  | (.ok ([], _), s) => (.error (.invalidFormat .emptyLine), s)
  | (.ok (kind :: rest, used), s) =>
      if kind = 0x2B then (.ok (.value (.simple rest), used), s)
      else if kind = 0x2D then (.ok (.value (.error rest), used), s)
      else if kind = 0x3A then
        ((parseInteger rest).map (fun n => (.value (.integer n), used)), s)
      else if kind = 0x24 then readBulk limit used rest s
      else if kind = 0x2A then
        ((arrayFrame rest).map (fun frame => (frame, used)), s)
      else (.error (.invalidType kind), s)

/-! ## Assembling a reply -/

/-- An array that is being read: how many elements are missing, and those read
so far, the last one first. -/
structure OpenArray where
  missing : Nat
  items : List Value

/-- Put a finished value into the innermost open array.  An array that is
complete is itself a finished value; without an open array the value is the
reply. -/
def fold (v : Value) : List OpenArray -> Value ⊕ List OpenArray
  | [] => .inl v
  | top :: outer =>
      if top.missing ≤ 1 then
        fold (.array (v :: top.items).reverse) outer
      else
        .inr (⟨top.missing - 1, v :: top.items⟩ :: outer)

theorem size_of_readLine {limit used : Nat} {s t : Stream} {body : Bytes}
    {used' : Nat} (h : readLine limit used s = (.ok (body, used'), t)) :
    t.size < s.size := by
  unfold readLine at h
  split at h
  · cases h
  · cases h
  · rename_i b line t' hline
    have hsize := congrArg List.length (Stream.bytes_of_takeLine hline)
    split at h
    · cases h
    · split at h
      · cases h
      · cases h
        simp only [Stream.size, List.length_append, List.length_cons] at hsize ⊢
        omega

theorem size_of_readBulk {limit used : Nat} {header : Bytes} {s t : Stream}
    {frame : Frame} {used' : Nat}
    (h : readBulk limit used header s = (.ok (frame, used'), t)) :
    t.size ≤ s.size := by
  unfold readBulk at h
  split at h
  · cases h
  · cases h
    exact Nat.le_refl _
  · split at h
    · cases h
    · split at h
      · cases h
      · rename_i taken t' htaken
        have hsize := congrArg List.length (Stream.bytes_of_takeExact htaken).1
        split at h
        · cases h
        · cases h
          simp only [Stream.size, List.length_append] at hsize ⊢
          omega

theorem size_of_readFrame {limit used : Nat} {s t : Stream} {frame : Frame}
    {used' : Nat} (h : readFrame limit used s = (.ok (frame, used'), t)) :
    t.size < s.size := by
  unfold readFrame at h
  split at h
  · cases h
  · cases h
  · rename_i kind rest used₁ s₁ hline
    have hlt := size_of_readLine hline
    split at h
    · cases h; exact hlt
    · split at h
      · cases h; exact hlt
      · split at h
        · rw [← (Prod.mk.inj h).2]; exact hlt
        · split at h
          · exact Nat.lt_of_le_of_lt (size_of_readBulk h) hlt
          · split at h
            · rw [← (Prod.mk.inj h).2]; exact hlt
            · cases h

def assemble (limit used : Nat) (stack : List OpenArray) (s : Stream) :
    Except ReadError Value × Stream :=
  match _h : readFrame limit used s with
  | (.error e, t) => (.error e, t)
  | (.ok (.arrayStart count, used'), t) =>
      assemble limit used' (⟨count, []⟩ :: stack) t
  | (.ok (.value v, used'), t) =>
      match fold v stack with
      | .inl reply => (.ok reply, t)
      | .inr stack' => assemble limit used' stack' t
termination_by s.size
decreasing_by
  · exact size_of_readFrame _h
  · exact size_of_readFrame _h

def parse (limit : Nat) (s : Stream) : Except ReadError Value × Stream :=
  assemble limit 0 [] s

/-- Read `count` replies, going on after errors from wherever the stream
stands. -/
def parseTimes (limit : Nat) : Nat -> Stream -> List (Except ReadError Value)
  | 0, _ => []
  | count + 1, s =>
      (parse limit s).1 :: parseTimes limit count (parse limit s).2

/-- Read replies up to and including the first error.  `fuel` bounds their
number. -/
def parseAll (limit fuel : Nat) (s : Stream) : List (Except ReadError Value) :=
  match fuel with
  | 0 => []
  | fuel + 1 =>
      match parse limit s with
      | (.ok v, t) => .ok v :: parseAll limit fuel t
      | (.error e, _) => [.error e]

/-- Read replies up to and including the first error; every reply takes at least
one byte. -/
def parseUntilError (limit : Nat) (s : Stream) :
    List (Except ReadError Value) :=
  parseAll limit (s.size + 1) s

end Resp
end SlotCluster
