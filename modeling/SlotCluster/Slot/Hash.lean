import SlotCluster.Text.Utf8

/-!
# From keys to slots

The keyspace is cut into 16384 slots.  A key belongs to the slot given by a
16-bit cyclic redundancy check of its bytes, and a key with a tag in braces
belongs to the slot of the tag alone, so that related keys can be kept together.
-/

namespace SlotCluster

def slotCount : Nat := 16384

namespace Slot

/-- One step of the check: shift a bit in and reduce by the polynomial `x^16 +
x^12 + x^5 + 1`. -/
def crcBit (crc : UInt16) : UInt16 :=
  if crc &&& 0x8000 = 0 then crc <<< 1 else (crc <<< 1) ^^^ 0x1021

def crcByte (crc : UInt16) (byte : UInt8) : UInt16 :=
  crcBit (crcBit (crcBit (crcBit (crcBit (crcBit (crcBit (crcBit
    (crc ^^^ (byte.toUInt16 <<< 8)))))))))

/-- The cyclic redundancy check of a byte string, which starts at zero and is
neither reflected nor inverted. -/
def crc (bytes : Bytes) : UInt16 :=
  bytes.foldl crcByte 0

def openBrace : UInt8 := 0x7B

def closeBrace : UInt8 := 0x7D

/-- The bytes before the first closing brace, if there is one. -/
def untilClose : Bytes -> Option Bytes
  | [] => none
  | b :: rest =>
      if b = closeBrace then some [] else (untilClose rest).map (b :: ·)

/-- The bytes between the first opening brace and the closing brace that follows
it. -/
def tag? : Bytes -> Option Bytes
  | [] => none
  | b :: rest => if b = openBrace then untilClose rest else tag? rest

/-- The part of a key that decides its slot: its tag, unless it has none or an
empty one. -/
def effective (key : Bytes) : Bytes :=
  match tag? key with
  | some (b :: tag) => b :: tag
  | _ => key

def ofKey (key : Bytes) : Nat :=
  (crc (effective key)).toNat % slotCount

end Slot
end SlotCluster
