import SlotCluster.Text.Decimal
import SlotCluster.Yaml.Scalar

/-!
# What plain scalars mean

A plain scalar may stand for nothing, for a truth value, for a whole number or
for a number with a fraction.  A decimal numeral of several digits does not
begin with zero; such a text stands for itself.
-/

namespace SlotCluster
namespace Yaml

def isNull (text : String) : Bool :=
  ["null", "Null", "NULL", "~"].contains text

def bool? (text : String) : Option Bool :=
  if ["true", "True", "TRUE"].contains text then some true
  else if ["false", "False", "FALSE"].contains text then some false
  else none

def digit? (base : Nat) (c : Char) : Option Nat :=
  (Scalar.hexValue? c).filter (fun v => v < base)

def digits? (base : Nat) (text : List Char) : Option Nat :=
  if text.isEmpty then none
  else (text.mapM (digit? base)).map
    (fun values => values.foldl (fun acc v => acc * base + v) 0)

def unsigned? : List Char -> Option Nat
  | '0' :: 'x' :: rest => digits? 16 rest
  | '0' :: 'o' :: rest => digits? 8 rest
  | '0' :: 'b' :: rest => digits? 2 rest
  | text => digits? 10 text

/-- Whether a text has several digits of which the first is zero, after at most
one sign. -/
def isPadded (text : List Char) : Bool :=
  let body :=
    match text with
    | '+' :: rest => rest
    | '-' :: rest => rest
    | _ => text
  match body with
  | '0' :: c :: rest => (c :: rest).all Char.isDigit
  | _ => false

def naturalBelow? (bound : Nat) (text : String) : Option Nat :=
  let numeral :=
    match text.toList with
    | '+' :: rest => rest
    | all => all
  if isPadded text.toList then
    none
  else
    (unsigned? numeral).filter (fun n => n < bound)

def isWhole (text : List Char) : Bool :=
  match text with
  | '-' :: rest =>
      !isPadded text &&
        ((unsigned? rest).any (fun n => n ≤ Decimal.wideSize / 2))
  | _ => (naturalBelow? Decimal.wideSize (String.ofList text)).isSome

/-! ## Numbers with a fraction -/

/-- The digits of a decimal fraction and how many of them stand after the
point. -/
def fraction? (text : List Char) : Option (List Char × Nat) :=
  let whole := text.takeWhile Char.isDigit
  match text.dropWhile Char.isDigit with
  | [] => if whole.isEmpty then none else some (whole, 0)
  | '.' :: rest =>
      if rest.all Char.isDigit && !(whole.isEmpty && rest.isEmpty) then
        some (whole ++ rest, rest.length)
      else none
  | _ => none

def splitExponent (text : List Char) : List Char × Option (List Char) :=
  let isMark (c : Char) : Bool := c = 'e' || c = 'E'
  (text.takeWhile (fun c => !isMark c),
    (text.dropWhile (fun c => !isMark c)).tail?)

/-- The least number that no double stands for: it lies half a unit above the
largest double. -/
def overflow : Nat :=
  (Nat.pow 2 54 - 1) * Nat.pow 2 970

/-- Whether a decimal number lies in the range of double precision. -/
def isFinite (digits : List Char) (exponent : Int) : Bool :=
  let value := Decimal.valueFrom 0 digits
  if value = 0 || exponent < -(digits.length : Int) then
    true
  else if exponent < 0 then
    decide (value < overflow * Nat.pow 10 exponent.natAbs)
  else if exponent ≤ 400 then
    decide (value * Nat.pow 10 exponent.toNat < overflow)
  else
    false

/-- Whether a text without a sign is a number with a fraction or an exponent. -/
def isUnsignedFraction (text : List Char) : Bool :=
  let (body, exponent) := splitExponent text
  match fraction? body, exponent with
  | some (digits, places), none => isFinite digits (-(places : Int))
  | some (digits, places), some exponent =>
      match Decimal.integer? exponent with
      | some e => isFinite digits (e - places)
      | none => false
  | none, _ => false

/-- Whether a text is a number with a fraction or an exponent, an infinity or no
number. -/
def isFraction (text : List Char) : Bool :=
  let infinite := [".inf", ".Inf", ".INF"].map String.toList
  match text with
  | '+' :: rest => infinite.contains rest || isUnsignedFraction rest
  | '-' :: rest => infinite.contains rest || isUnsignedFraction rest
  | _ =>
      (infinite ++ [".nan", ".NaN", ".NAN"].map String.toList).contains text ||
        isUnsignedFraction text

/-- Whether a plain text would be read as something else than this text. -/
def isMisread (text : String) : Bool :=
  text.isEmpty || isNull text || (bool? text).isSome || isWhole text.toList ||
    isFraction text.toList || isPadded text.toList

end Yaml
end SlotCluster
