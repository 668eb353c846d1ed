/-!
# Decimal numerals

Numbers as they are written in addresses, slot tokens and protocol headers:
ASCII digits, with a sign where the reader allows one.  Leading zeros are
accepted, so a number has many spellings but a spelling has one value.
-/

namespace SlotCluster
namespace Decimal

def digitValue (c : Char) : Nat :=
  c.toNat - '0'.toNat

/-- Value of the digits read after a number whose digits so far have the value
`acc`. -/
def valueFrom (acc : Nat) : List Char -> Nat
  | [] => acc
  | c :: rest => valueFrom (acc * 10 + digitValue c) rest

/-- The number written by a non-empty run of digits and nothing else. -/
def natural? (text : List Char) : Option Nat :=
  if !text.isEmpty && text.all Char.isDigit then
    some (valueFrom 0 text)
  else
    none

def below? (bound : Nat) (text : List Char) : Option Nat :=
  let digits :=
    match text with
    | '+' :: rest => rest
    | _ => text
  (natural? digits).filter (fun n => decide (n < bound))

def wideSize : Nat :=
  UInt64.size * UInt64.size

def integer? (text : List Char) : Option Int :=
  match text with
  | '+' :: rest => (natural? rest).map Int.ofNat
  | '-' :: rest => (natural? rest).map (fun n => -(Int.ofNat n))
  | _ => (natural? text).map Int.ofNat

def digits (n : Nat) : List Char :=
  Nat.toDigits 10 n

/-- The shortest numeral of an integer; only negative numbers carry a sign. -/
def signedDigits : Int -> List Char
  | Int.ofNat n => digits n
  | Int.negSucc n => '-' :: digits (n + 1)

end Decimal
end SlotCluster
