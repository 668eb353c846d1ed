/-!
# UTF-8

Reading bytes as text.  A byte string falls apart into well-formed characters
and ill-formed parts, each as long as it can be the beginning of a character.
Strict reading refuses ill-formed parts, and lossy reading puts the replacement
character in the place of each.
-/

namespace SlotCluster

abbrev Bytes := List UInt8

namespace Utf8

/-- Bounds of the second byte of a character, by its first byte. -/
def secondBounds (lead : UInt8) : UInt8 × UInt8 :=
  if lead = 0xE0 then (0xA0, 0xBF)
  else if lead = 0xED then (0x80, 0x9F)
  else if lead = 0xF0 then (0x90, 0xBF)
  else if lead = 0xF4 then (0x80, 0x8F)
  else (0x80, 0xBF)

/-- How many bytes follow a first byte, if it can begin a character. -/
def followers (lead : UInt8) : Option Nat :=
  if lead < 0x80 then some 0
  else if lead < 0xC2 then none
  else if lead < 0xE0 then some 1
  else if lead < 0xF0 then some 2
  else if lead < 0xF5 then some 3
  else none

/-- The leading bytes that can continue a character with the given first byte,
at most `count`. -/
def continuation (lead : UInt8) (count : Nat) (rest : Bytes) : Bytes :=
  match count, rest with
  | 0, _ => []
  | _, [] => []
  | count + 1, second :: rest =>
      let bounds := secondBounds lead
      if bounds.1 ≤ second && second ≤ bounds.2 then
        second :: (rest.take count).takeWhile (fun b => 0x80 ≤ b && b ≤ 0xBF)
      else
        []

def leadBits (lead : UInt8) (count : Nat) : Nat :=
  match count with
  | 0 => lead.toNat
  | 1 => lead.toNat % 0x20
  | 2 => lead.toNat % 0x10
  | _ => lead.toNat % 0x08

/-- The character with these bytes, when they are well formed. -/
def assemble (lead : UInt8) (tail : Bytes) : Char :=
  Char.ofNat
    (tail.foldl (fun acc b => acc * 0x40 + b.toNat % 0x40)
      (leadBits lead tail.length))

/-- The character at the front of a byte string, or `none` for an ill-formed
part, and how many bytes after the first one it takes. -/
def front (lead : UInt8) (rest : Bytes) : Option Char × Nat :=
  match followers lead with
  | none => (none, 0)
  | some count =>
      let tail := continuation lead count rest
      if tail.length = count then
        (some (assemble lead tail), count)
      else
        (none, tail.length)

/-- The characters and ill-formed parts of a byte string, in order. -/
def parts : Bytes -> List (Option Char)
  | [] => []
  | lead :: rest => (front lead rest).1 :: parts (rest.drop (front lead rest).2)
termination_by bytes => bytes.length
decreasing_by
  simp only [List.length_drop, List.length_cons]
  omega

def decode? (bytes : Bytes) : Option (List Char) :=
  (parts bytes).mapM id

/-- The text of any bytes, with the replacement character for each ill-formed
part. -/
def decodeLossy (bytes : Bytes) : String :=
  String.ofList ((parts bytes).map (fun part => part.getD '\uFFFD'))

def encode (text : String) : Bytes :=
  text.toList.flatMap String.utf8EncodeChar

end Utf8
end SlotCluster
