import SlotCluster.Text.Printable
import SlotCluster.Text.Utf8

/-!
# Quoted text and bytes

How values are shown to a person in error messages and descriptions: a text in
double quotes with escapes for what cannot be shown, and a byte string in the
same manner after the letter `b`, where only printable ASCII stands for itself.
-/

namespace SlotCluster
namespace Text

def hexDigits (n : Nat) : List Char :=
  Nat.toDigits 16 n

def hexByte (b : UInt8) : List Char :=
  if b < 0x10 then '0' :: hexDigits b.toNat else hexDigits b.toNat

def quoteChar (c : Char) : List Char :=
  if c = '\x00' then ['\\', '0']
  else if c = '\t' then ['\\', 't']
  else if c = '\r' then ['\\', 'r']
  else if c = '\n' then ['\\', 'n']
  else if c = '"' then ['\\', '"']
  else if c = '\\' then ['\\', '\\']
  else if isPrintable c then [c]
  else ['\\', 'u', '\x7b'] ++ hexDigits c.toNat ++ ['\x7d']

def quoted (text : String) : String :=
  String.ofList ('"' :: text.toList.flatMap quoteChar ++ ['"'])

def quoteByte (b : UInt8) : List Char :=
  if b = 0x00 then ['\\', '0']
  else if b = 0x09 then ['\\', 't']
  else if b = 0x0A then ['\\', 'n']
  else if b = 0x0D then ['\\', 'r']
  else if b = 0x22 then ['\\', '"']
  else if b = 0x5C then ['\\', '\\']
  else if 0x20 ≤ b && b < 0x7F then [Char.ofNat b.toNat]
  else ['\\', 'x'] ++ hexByte b

/-- A byte string in double quotes, marked with the letter `b`. -/
def quotedBytes (bytes : Bytes) : String :=
  String.ofList (['b', '"'] ++ bytes.flatMap quoteByte ++ ['"'])

end Text
end SlotCluster
