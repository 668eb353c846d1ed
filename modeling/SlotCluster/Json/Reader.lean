/-!
# JSON values

Values of the JSON data format and reading them from text.  A number is an
integer when it is written without fraction and exponent and fits 64 bits; every
other number is kept only as not an integer, which is all that the forms in this
library need to know.

Escapes name UTF-16 units, and the two units of a pair make one character.  A
string in which half of a pair stands alone is well formed, but it is no text,
and only where nobody looks at it may it stand.
-/

namespace SlotCluster

/-- A JSON value. -/
inductive Json where
  | null
  | bool (value : Bool)
  | integer (value : Int)
  /-- A number that is not a 64-bit integer. -/
  | otherNumber
  | string (value : String)
  | array (items : List Json)
  | object (members : List (String × Json))
  /-- A string, or an object with a name, in which half of a pair stands
  alone. -/
  | unpaired
  deriving Repr, Inhabited

namespace Json

/-! ## Reading

A reader returns what it finds at the front of a text, together with the rest of
the text.
-/

def skip (text : List Char) : List Char :=
  text.dropWhile (fun c => c == ' ' || c == '\n' || c == '\t' || c == '\r')

def expect : List Char -> List Char -> Option (List Char)
  | [], text => some text
  | _ :: _, [] => none
  | w :: word, c :: text => if c = w then expect word text else none

def hexDigit? (c : Char) : Option Nat :=
  if c.isDigit then some (c.toNat - '0'.toNat)
  else if 'a' ≤ c && c ≤ 'f' then some (c.toNat - 'a'.toNat + 10)
  else if 'A' ≤ c && c ≤ 'F' then some (c.toNat - 'A'.toNat + 10)
  else none

def hexUnit : List Char -> Option (Nat × List Char)
  | a :: b :: c :: d :: rest => do
      let a ← hexDigit? a
      let b ← hexDigit? b
      let c ← hexDigit? c
      let d ← hexDigit? d
      return (((a * 16 + b) * 16 + c) * 16 + d, rest)
  | _ => none

def escape : List Char -> Option (Nat × List Char)
  | [] => none
  | c :: rest =>
      if c = '"' || c = '\\' || c = '/' then some (c.toNat, rest)
      else if c = 'b' then some (0x08, rest)
      else if c = 'f' then some (0x0C, rest)
      else if c = 'n' then some (0x0A, rest)
      else if c = 'r' then some (0x0D, rest)
      else if c = 't' then some (0x09, rest)
      else if c = 'u' then hexUnit rest
      else none

/-- The characters and units of a string up to its closing quote.  `fuel` bounds
their number. -/
def stringBody (fuel : Nat) (text : List Char) :
    Option (List Nat × List Char) :=
  match fuel, text with
  | 0, _ => none
  | _, [] => none
  | fuel + 1, c :: rest =>
      if c = '"' then
        some ([], rest)
      else if c = '\\' then do
        let (code, rest) ← escape rest
        let (more, rest) ← stringBody fuel rest
        return (code :: more, rest)
      else if c.toNat < 0x20 then
        none
      else do
        let (more, rest) ← stringBody fuel rest
        return (c.toNat :: more, rest)

def isHigh (code : Nat) : Bool :=
  0xD800 ≤ code && code < 0xDC00

def isLow (code : Nat) : Bool :=
  0xDC00 ≤ code && code < 0xE000

/-- The characters of a string, unless half of a pair stands alone. -/
def joinPairs : List Nat -> Option (List Char)
  | [] => some []
  | high :: low :: rest =>
      if isHigh high && isLow low then
        (joinPairs rest).map
          (fun more =>
            Char.ofNat (0x10000 + (high - 0xD800) * 0x400 + (low - 0xDC00)) ::
              more)
      else if isHigh high || isLow high then none
      else (joinPairs (low :: rest)).map (fun more => Char.ofNat high :: more)
  | [code] => if isHigh code || isLow code then none else some [Char.ofNat code]

/-- A string, after its opening quote; there is no text if half of a pair stands
alone. -/
def stringTail (text : List Char) : Option (Option String × List Char) :=
  (stringBody (text.length + 1) text).map
    (fun found => ((joinPairs found.1).map String.ofList, found.2))

def digitRun (text : List Char) : Option (List Char × List Char) :=
  let digits := text.takeWhile Char.isDigit
  if digits.isEmpty then none else some (digits, text.dropWhile Char.isDigit)

def fraction (text : List Char) : Option (Bool × List Char) :=
  match text with
  | '.' :: rest => (digitRun rest).map (fun found => (true, found.2))
  | _ => some (false, text)

def exponent (text : List Char) : Option (Bool × List Char) :=
  match text with
  | c :: rest =>
      if c = 'e' || c = 'E' then
        let digits :=
          match rest with
          | sign :: more => if sign = '+' || sign = '-' then more else rest
          | [] => []
        (digitRun digits).map (fun found => (true, found.2))
      else
        some (false, text)
  | [] => some (false, text)

/-- The value of a numeral, which is an integer only in the range of 64 bits. -/
def ofNumeral (negative : Bool) (digits : List Char) : Json :=
  let n := digits.foldl (fun acc c => acc * 10 + (c.toNat - '0'.toNat)) 0
  if negative then
    if n = 0 || UInt64.size / 2 < n then
      .otherNumber
    else
      .integer (-(Int.ofNat n))
  else
    if UInt64.size ≤ n then .otherNumber else .integer (Int.ofNat n)

/-- A number: no leading zeros, and digits on both sides of a point. -/
def number (text : List Char) : Option (Json × List Char) := do
  let negative := text.head? == some '-'
  let (digits, rest) ← digitRun (if negative then text.drop 1 else text)
  if 1 < digits.length && digits.head? == some '0' then
    none
  else
    let (broken, rest) ← fraction rest
    let (scaled, rest) ← exponent rest
    return (if broken || scaled then .otherNumber
      else ofNumeral negative digits, rest)

/-- Items separated by commas up to the closing character.  `fuel` bounds their
number. -/
def items {α : Type} (item : List Char -> Option (α × List Char)) (close : Char)
    (fuel : Nat) (text : List Char) : Option (List α × List Char) :=
  match fuel with
  | 0 => none
  | fuel + 1 => do
      let (first, rest) ← item (skip text)
      match skip rest with
      | c :: rest =>
          if c = ',' then
            let (more, rest) ← items item close fuel rest
            return (first :: more, rest)
          else if c = close then
            return ([first], rest)
          else
            none
      | [] => none

def enclosed {α : Type} (item : List Char -> Option (α × List Char))
    (close : Char) (text : List Char) : Option (List α × List Char) :=
  match skip text with
  | c :: rest =>
      if c = close then
        some ([], rest)
      else
        items item close (text.length + 1) text
  | [] => none

/-- A name and its value; there is no name if half of a pair stands alone in
it. -/
def member (value : List Char -> Option (Json × List Char)) (text : List Char) :
    Option ((Option String × Json) × List Char) := do
  let rest ← expect ['"'] text
  let (name, rest) ← stringTail rest
  let rest ← expect [':'] (skip rest)
  let (v, rest) ← value (skip rest)
  return ((name, v), rest)

def ofText : Option String -> Json
  | some text => .string text
  | none => .unpaired

def ofMembers (members : List (Option String × Json)) : Json :=
  match members.mapM (fun m => m.1.map (fun name => (name, m.2))) with
  | some members => .object members
  | none => .unpaired

/-- A value at the front of a text.  `fuel` bounds how deep values are
nested. -/
def value : Nat -> List Char -> Option (Json × List Char)
  | 0, _ => none
  | _, [] => none
  | fuel + 1, c :: rest =>
      if c = '"' then
        (stringTail rest).map (fun found => (ofText found.1, found.2))
      else if c = 'n' then
        (expect "ull".toList rest).map (fun rest => (.null, rest))
      else if c = 't' then
        (expect "rue".toList rest).map (fun rest => (.bool true, rest))
      else if c = 'f' then
        (expect "alse".toList rest).map (fun rest => (.bool false, rest))
      else if c = '[' then
        (enclosed (value fuel) ']' rest).map
          (fun found => (.array found.1, found.2))
      else if c = '\x7b' then
        (enclosed (member (value fuel)) '\x7d' rest).map
          (fun found => (ofMembers found.1, found.2))
      else
        number (c :: rest)

def parse? (text : String) : Option Json := do
  let letters := skip text.toList
  let (v, rest) ← value (letters.length + 1) letters
  if (skip rest).isEmpty then some v else none

/-! ## Records -/

/-- The values of a record's fields, each if it is present.  A record is written
as an object, in which no field may occur twice, or as an array of the values in
the order of the fields. -/
def fields? (names : List String) : Json -> Option (List (Option Json))
  | object members =>
      if names.any (fun name =>
          1 < (members.filter (fun m => m.1 == name)).length) then
        none
      else
        some (names.map (fun name => members.lookup name))
  | array items =>
      if items.length ≤ names.length then
        some ((List.range names.length).map (fun i => items[i]?))
      else
        none
  | _ => none

def natBelow? (bound : Nat) : Json -> Option Nat
  | integer (Int.ofNat n) => if n < bound then some n else none
  | _ => none

def string? : Json -> Option String
  | string s => some s
  | _ => none

def option? {α : Type} (read : Json -> Option α) : Json -> Option (Option α)
  | null => some none
  | v => (read v).map some

def list? {α : Type} (read : Json -> Option α) : Json -> Option (List α)
  | array items => items.mapM read
  | _ => none

def required {α : Type} (read : Json -> Option α)
    (field : Option Json) : Option α :=
  field.bind read

def optional {α : Type} (default : α) (read : Json -> Option α) :
    Option Json -> Option α
  | none => some default
  | some v => read v

end Json
end SlotCluster
