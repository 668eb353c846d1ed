import SlotCluster.Text.Printable
import SlotCluster.Text.Split
import SlotCluster.Yaml.Plain

/-!
# Writing scalars

How a text is written as a value of a block mapping.  It is written plainly
where that reads back as the same text, then in single quotes, and in double
quotes with escapes when it holds characters that have to be escaped.  A text
with line feeds is written as a literal block if a block can hold it.

A scalar is written together with the end of its last line.  A block whose text
ends a line needs no other end, whichever line break it has there.
-/

namespace SlotCluster
namespace Yaml
namespace Written

def isPrintable (c : Char) : Bool :=
  let code := c.toNat
  code = 0x0A || (0x20 ≤ code && code ≤ 0x7E) ||
    (0xA0 ≤ code && code ≤ 0xFFFD && code ≠ 0xFEFF) || 0x10000 ≤ code

/-- Whether a text begins with a character that would mean something else than
itself. -/
def beginsIndicator : List Char -> Bool
  | [] => false
  | c :: rest => isIndicator c || (['?', ':', '-'].contains c && endsWord rest)

/-- Whether a colon or a comment mark in a text would end a plain scalar. -/
def holdsIndicator : List Char -> Bool
  | c :: '#' :: rest => endsWord [c] || holdsIndicator ('#' :: rest)
  | _ :: ':' :: rest => endsWord rest || holdsIndicator (':' :: rest)
  | _ :: rest => holdsIndicator rest
  | [] => false

def hasNeighbours (p : Char -> Char -> Bool) (text : List Char) : Bool :=
  (text.zip (text.drop 1)).any (fun pair => p pair.1 pair.2)

def isWhite (c : Char) : Bool :=
  isBreak c || c = ' '

/-- Whether a text has characters that only double quotes can hold. -/
def needsEscape (text : List Char) : Bool :=
  text.any (fun c => !isPrintable c) ||
    hasNeighbours (fun a b => a = ' ' && isBreak b) text

def allowsSingle (text : List Char) : Bool :=
  !needsEscape text && !hasNeighbours (fun a b => isBreak a && b = ' ') text

def allowsPlain (text : List Char) : Bool :=
  allowsSingle text && !text.any isBreak && !(text.head?.any isWhite) &&
    !(text.getLast?.any isWhite) && !beginsIndicator text &&
    !holdsIndicator text && text.take 3 ≠ ['-', '-', '-'] &&
    text.take 3 ≠ ['.', '.', '.']

def allowsBlock (text : List Char) : Bool :=
  !text.isEmpty && !needsEscape text && text.getLast? ≠ some ' '

def margin : List Char :=
  List.replicate 4 ' '

/-- The lines of a text with its breaks kept; `fresh` tells whether a line
begins here. -/
def indentLines (fresh : Bool) : List Char -> List Char
  | [] => []
  | c :: rest =>
      if isBreak c then c :: indentLines true rest
      else if fresh then margin ++ c :: indentLines false rest
      else c :: indentLines false rest

/-- A text in single quotes, in which a quote stands twice; `after` tells
whether a break came before. -/
def singleFrom (after : Bool) : List Char -> List Char
  | [] => (if after then margin else []) ++ ['\'']
  | c :: rest =>
      if isBreak c then
        (if c = '\n' && !after then [c] else []) ++ c :: singleFrom true rest
      else
        (if after then margin else []) ++
          (if c = '\'' then ['\'', '\''] else [c]) ++ singleFrom false rest

/-- Upper-case hexadecimal digits of a number, filled up with zeros. -/
def hexPadded (width n : Nat) : List Char :=
  let digits := (Nat.toDigits 16 n).map Char.toUpper
  List.replicate (width - digits.length) '0' ++ digits

def escaped (c : Char) : List Char :=
  let code := c.toNat
  let letter? : Option Char :=
    match code with
    | 0x00 => some '0'
    | 0x07 => some 'a'
    | 0x08 => some 'b'
    | 0x09 => some 't'
    | 0x0A => some 'n'
    | 0x0B => some 'v'
    | 0x0C => some 'f'
    | 0x0D => some 'r'
    | 0x1B => some 'e'
    | 0x22 => some '"'
    | 0x5C => some '\\'
    | 0x85 => some 'N'
    | 0xA0 => some '_'
    | 0x2028 => some 'L'
    | 0x2029 => some 'P'
    | _ => none
  match letter? with
  | some letter => ['\\', letter]
  | none =>
      if code ≤ 0xFF then ['\\', 'x'] ++ hexPadded 2 code
      else if code ≤ 0xFFFF then ['\\', 'u'] ++ hexPadded 4 code
      else ['\\', 'U'] ++ hexPadded 8 code

def double (text : List Char) : List Char :=
  '"' :: text.flatMap
    (fun c =>
      if !isPrintable c || isBreak c || c = '"' || c = '\\' then escaped c
      else [c]) ++ ['"']

/-- The marks after the indicator of a literal block: an indentation when the
first line cannot show it, and what happens to the breaks at the end. -/
def blockMarks (text : List Char) : List Char :=
  let indent := if text.head?.any isWhite then ['2'] else []
  let chomping :=
    match text.reverse with
    | [] => ['-']
    | [c] => if isBreak c then ['+'] else ['-']
    | c :: d :: _ =>
        if !isBreak c then ['-'] else if isBreak d then ['+'] else []
  indent ++ chomping

def block (text : List Char) : List Char :=
  '|' :: blockMarks text ++ '\n' :: indentLines true text ++
    if text.getLast?.any isBreak then [] else ['\n']

/-- A text as it is written plainly or in quotes, without the end of the
line. -/
def plainOrQuoted (text : String) : List Char :=
  let letters := text.toList
  if !isMisread text && allowsPlain letters then letters
  else if allowsSingle letters then '\'' :: singleFrom false letters
  else double letters

def scalar (text : String) : List Char :=
  let letters := text.toList
  if !letters.contains '\n' then plainOrQuoted text ++ ['\n']
  else if allowsBlock letters then block letters
  else double letters ++ ['\n']

end Written
end Yaml
end SlotCluster
