import SlotCluster.Text.Decimal
import SlotCluster.Text.Quoted

/-!
# Socket addresses

Numeric addresses with a port: four decimal numbers with dots, or eight
hexadecimal groups in brackets where one run of zero groups may be left out.  An
address has several spellings, and `render` writes the shortest of them.
-/

namespace SlotCluster

/-- A numeric network address with a port. -/
inductive SocketAddress where
  | v4 (octets : List UInt8) (port : UInt16)
  | v6 (groups : List UInt16) (scope : UInt32) (port : UInt16)
  deriving DecidableEq, Repr

namespace SocketAddress

def hexValue? (c : Char) : Option Nat :=
  if c.isDigit then some (c.toNat - '0'.toNat)
  else if 'a' ≤ c && c ≤ 'f' then some (c.toNat - 'a'.toNat + 10)
  else if 'A' ≤ c && c ≤ 'F' then some (c.toNat - 'A'.toNat + 10)
  else none

/-- The digits of a run of hexadecimal digits at the front of a text, and the
rest. -/
def hexRun : List Char -> List Nat × List Char
  | [] => ([], [])
  | c :: rest =>
      match hexValue? c with
      | some d => (d :: (hexRun rest).1, (hexRun rest).2)
      | none => ([], c :: rest)

/-- A group of one to four hexadecimal digits at the front of a text. -/
def group? (text : List Char) : Option (UInt16 × List Char) :=
  let run := hexRun text
  if run.1.isEmpty || 4 < run.1.length then
    none
  else
    some (UInt16.ofNat (run.1.foldl (fun acc d => acc * 16 + d) 0), run.2)

/-- One of the four numbers of a dotted address: at most 255 and without leading
zeros. -/
def octet? (text : List Char) : Option (UInt8 × List Char) :=
  let digits := text.takeWhile Char.isDigit
  let rest := text.dropWhile Char.isDigit
  if digits.length ≤ 3 && (digits.length ≤ 1 || digits.head? != some '0') then
    (Decimal.below? 256 digits).map (fun n => (UInt8.ofNat n, rest))
  else
    none

def expect (c : Char) : List Char -> Option (List Char)
  | [] => none
  | d :: rest => if d = c then some rest else none

def dotted? (text : List Char) : Option (List UInt8 × List Char) := do
  let (a, text) ← octet? text
  let text ← expect '.' text
  let (b, text) ← octet? text
  let text ← expect '.' text
  let (c, text) ← octet? text
  let text ← expect '.' text
  let (d, text) ← octet? text
  return ([a, b, c, d], text)

def pairUp : List UInt8 -> List UInt16
  | a :: b :: rest => (a.toUInt16 * 256 + b.toUInt16) :: pairUp rest
  | _ => []

/-- Up to `limit` groups separated by colons, where a dotted address may stand
for the last two.  `fresh` says that no group has been read yet, so no colon is
expected in front.  The result also tells whether a dotted address ended the
run. -/
def groups (fresh : Bool) (limit : Nat) (text : List Char) :
    List UInt16 × Bool × List Char :=
  match limit with
  | 0 => ([], false, text)
  | limit + 1 =>
      let front := if fresh then some text else expect ':' text
      match front with
      | none => ([], false, text)
      | some inner =>
          let embedded := if limit = 0 then none else dotted? inner
          match embedded with
          | some (octets, rest) => (pairUp octets, true, rest)
          | none =>
              match group? inner with
              | none => ([], false, text)
              | some (g, rest) =>
                  let (more, dots, rest) := groups false limit rest
                  (g :: more, dots, rest)

/-- The eight groups of an address at the front of a text, and the rest. -/
def v6Groups? (text : List Char) : Option (List UInt16 × List Char) := do
  let (head, dots, rest) := groups true 8 text
  if head.length = 8 then
    return (head, rest)
  else if dots then
    none
  else
    let rest ← expect ':' rest
    let rest ← expect ':' rest
    let (tail, _, rest) := groups true (7 - head.length) rest
    return (head ++ List.replicate (8 - head.length - tail.length) 0 ++ tail,
      rest)

def port? (text : List Char) : Option UInt16 := do
  let digits ← expect ':' text
  if digits.all Char.isDigit then
    (Decimal.below? 65536 digits).map UInt16.ofNat
  else
    none

def parseV4 (text : List Char) : Option SocketAddress := do
  let (octets, rest) ← dotted? text
  let port ← port? rest
  return .v4 octets port

/-- The scope after a percent sign, or zero where there is none. -/
def scope? (text : List Char) : Option (UInt32 × List Char) :=
  match text with
  | '%' :: rest =>
      let digits := rest.takeWhile Char.isDigit
      (Decimal.below? 4294967296 digits).map
        (fun n => (UInt32.ofNat n, rest.dropWhile Char.isDigit))
  | _ => some (0, text)

def parseV6 (text : List Char) : Option SocketAddress := do
  let text ← expect '[' text
  let (groups, text) ← v6Groups? text
  let (scope, text) ← scope? text
  let text ← expect ']' text
  let port ← port? text
  return .v6 groups scope port

def parse? (text : String) : Option SocketAddress :=
  (parseV4 text.toList).orElse (fun _ => parseV6 text.toList)

def zeroRun : List UInt16 -> Nat
  | [] => 0
  | g :: rest => if g = 0 then zeroRun rest + 1 else 0

/-- Start and length of the longest run of zero groups, the first of equally
long ones. -/
def longestZeroRun (start : Nat) : List UInt16 -> Nat × Nat
  | [] => (0, 0)
  | g :: rest =>
      let here := zeroRun (g :: rest)
      let later := longestZeroRun (start + 1) rest
      if later.2 ≤ here then (start, here) else later

def renderGroups (groups : List UInt16) : String :=
  ":".intercalate (groups.map (fun g => String.ofList (Text.hexDigits g.toNat)))

def renderOctets (octets : List UInt8) : String :=
  ".".intercalate (octets.map (fun o => toString o.toNat))

def octetsOf (g : UInt16) : List UInt8 :=
  [(g.toNat / 256).toUInt8, (g.toNat % 256).toUInt8]

/-- The text between the brackets: an address that embeds a dotted one ends with
it, and otherwise the longest run of two or more zero groups is left out. -/
def renderV6 (groups : List UInt16) : String :=
  if groups.take 5 = [0, 0, 0, 0, 0] && groups[5]? = some 0xFFFF then
    "::ffff:" ++ renderOctets ((groups.drop 6).flatMap octetsOf)
  else
    let run := longestZeroRun 0 groups
    if 1 < run.2 then
      renderGroups (groups.take run.1) ++ "::" ++
        renderGroups (groups.drop (run.1 + run.2))
    else
      renderGroups groups

def render : SocketAddress -> String
  | v4 octets port => renderOctets octets ++ ":" ++ toString port.toNat
  | v6 groups scope port =>
      "[" ++ renderV6 groups ++
        (if scope = 0 then "" else "%" ++ toString scope.toNat) ++ "]:" ++
        toString port.toNat

end SocketAddress
end SlotCluster
