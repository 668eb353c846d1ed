import SlotCluster.Yaml.Cursor

/-!
# Reading scalars

A scalar is written plainly, in single or double quotes, or as a block of
indented lines.  Plain scalars have no escapes and end where a comment, a
separator or another entry begins.  Quoted scalars fold their line breaks.  A
block keeps its line breaks or folds them, and says what happens to those at its
end.
-/

namespace SlotCluster
namespace Yaml
namespace Scalar

/-! ## Plain scalars -/

def endsPlain (inFlow : Bool) : List Char -> Bool
  | ':' :: rest => endsWord rest
  | c :: _ => inFlow && [',', '[', ']', '\x7b', '\x7d'].contains c
  | [] => true

/-- Whether a colon stands where flow content may not have one. -/
def misplacedColon (inFlow : Bool) : List Char -> Bool
  | ':' :: c :: _ => inFlow && [',', '?', '[', ']', '\x7b', '\x7d'].contains c
  | _ => false

/-- Read the rest of a plain scalar: the letters so far in reverse, the gap
after them, and whether a word begins here.  Lines that belong to it start at
the column `margin` or right of it. -/
def plainFrom (inFlow : Bool) (margin : Nat) :
    Nat -> List Char -> Gap -> Bool -> Cursor ->
      Option (List Char × Gap × Cursor)
  | 0, letters, gap, _, cursor => some (letters, gap, cursor)
  | fuel + 1, letters, gap, fresh, cursor =>
      if fresh && (cursor.atMarker || cursor.rest.head? = some '#') then
        some (letters, gap, cursor)
      else
        match cursor.rest with
        | [] => some (letters, gap, cursor)
        | c :: _ =>
            if isGap c || isBreak c then
              match Gap.read margin cursor.rest.length gap cursor with
              | none => none
              | some (gap, cursor) =>
                  if !inFlow && cursor.column < margin then
                    some (letters, gap, cursor)
                  else
                    plainFrom inFlow margin fuel letters gap true cursor
            else if misplacedColon inFlow cursor.rest then
              none
            else if endsPlain inFlow cursor.rest then
              some (letters, gap, cursor)
            else
              plainFrom inFlow margin fuel (c :: (gap.text.reverse ++ letters))
                {} false cursor.skip

/-- Read a plain scalar.  The flag tells whether a line break follows it. -/
def plain (inFlow : Bool) (margin : Nat) (cursor : Cursor) :
    Option (String × Bool × Cursor) :=
  (plainFrom inFlow margin (2 * cursor.rest.length + 1) [] {} true cursor).map
    (fun (letters, gap, cursor) =>
      (String.ofList letters.reverse, gap.broken, cursor))

/-! ## Quoted scalars -/

def hexValue? (c : Char) : Option Nat :=
  if c.isDigit then some (c.toNat - '0'.toNat)
  else if 'a' ≤ c && c ≤ 'f' then some (c.toNat - 'a'.toNat + 10)
  else if 'A' ≤ c && c ≤ 'F' then some (c.toNat - 'A'.toNat + 10)
  else none

/-- The character with a code of exactly `count` hexadecimal digits. -/
def hexChar? (count : Nat) (rest : List Char) : Option Char :=
  let digits := rest.take count
  if digits.length = count then
    match digits.mapM hexValue? with
    | some values =>
        let code := values.foldl (fun acc v => acc * 16 + v) 0
        if code.isValidChar then some (Char.ofNat code) else none
    | none => none
  else
    none

/-- The character that an escape stands for, with the number of digits after its
letter. -/
def escape? (letter : Char) (rest : List Char) : Option (Char × Nat) :=
  match letter with
  | '0' => some ('\x00', 0)
  | 'a' => some ('\x07', 0)
  | 'b' => some ('\x08', 0)
  | 't' | '\t' => some ('\t', 0)
  | 'n' => some ('\n', 0)
  | 'v' => some ('\x0b', 0)
  | 'f' => some ('\x0c', 0)
  | 'r' => some ('\r', 0)
  | 'e' => some ('\x1b', 0)
  | ' ' => some (' ', 0)
  | '"' => some ('"', 0)
  | '/' => some ('/', 0)
  | '\\' => some ('\\', 0)
  | 'N' => some ('\u0085', 0)
  | '_' => some ('\u00A0', 0)
  | 'L' => some ('\u2028', 0)
  | 'P' => some ('\u2029', 0)
  | 'x' => (hexChar? 2 rest).map (fun c => (c, 2))
  | 'u' => (hexChar? 4 rest).map (fun c => (c, 4))
  | 'U' => (hexChar? 8 rest).map (fun c => (c, 8))
  | _ => none

def singleFrom : Nat -> List Char -> Cursor -> Option (List Char × Cursor)
  | 0, _, _ => none
  | fuel + 1, letters, cursor =>
      if cursor.atMarker then none
      else
        match cursor.rest with
        | [] => none
        | '\'' :: '\'' :: _ =>
            singleFrom fuel ('\'' :: letters) (cursor.skipMany 2)
        | '\'' :: _ => some (letters, cursor.skip)
        | c :: _ =>
            if isGap c || isBreak c then
              match Gap.read 0 cursor.rest.length {} cursor with
              | none => none
              | some (gap, cursor) =>
                  singleFrom fuel (gap.text.reverse ++ letters) cursor
            else
              singleFrom fuel (c :: letters) cursor.skip

def doubleFrom : Nat -> List Char -> Cursor -> Option (List Char × Cursor)
  | 0, _, _ => none
  | fuel + 1, letters, cursor =>
      if cursor.atMarker then none
      else
        match cursor.rest with
        | [] => none
        | '"' :: _ => some (letters, cursor.skip)
        | ['\\'] => none
        | '\\' :: c :: rest =>
            if isBreak c then
              match Gap.read 0 cursor.rest.length { broken := true }
                  cursor.skip.skipBreak.2 with
              | none => none
              | some (gap, cursor) =>
                  doubleFrom fuel (gap.text.reverse ++ letters) cursor
            else
              match escape? c rest with
              | none => none
              | some (x, digits) =>
                  doubleFrom fuel (x :: letters) (cursor.skipMany (2 + digits))
        | c :: _ =>
            if isGap c || isBreak c then
              match Gap.read 0 cursor.rest.length {} cursor with
              | none => none
              | some (gap, cursor) =>
                  doubleFrom fuel (gap.text.reverse ++ letters) cursor
            else
              doubleFrom fuel (c :: letters) cursor.skip

def quoted (cursor : Cursor) : Option (String × Cursor) :=
  let read :=
    if cursor.rest.head? = some '\'' then singleFrom else doubleFrom
  (read (cursor.rest.length + 1) [] cursor.skip).map
    (fun (letters, cursor) => (String.ofList letters.reverse, cursor))

/-! ## Blocks -/

/-- What becomes of the line breaks at the end of a block. -/
inductive Chomping where
  | strip
  | clip
  | keep
  deriving DecidableEq

def chomping? : List Char -> Option Chomping
  | '+' :: _ => some .keep
  | '-' :: _ => some .strip
  | _ => none

/-- Read the indentation of a block header: no digit, or one from 1 to 9. -/
def increment? : List Char -> Option (Option Nat)
  | c :: _ =>
      if c = '0' then none
      else if c.isDigit then some (some (c.toNat - '0'.toNat))
      else some none
  | [] => some none

/-- Read a block header after its indicator: the two marks stand in either
order. -/
def header (cursor : Cursor) : Option (Chomping × Option Nat × Cursor) :=
  match chomping? cursor.rest with
  | some chomping =>
      let cursor := cursor.skip
      match increment? cursor.rest with
      | none => none
      | some none => some (chomping, none, cursor)
      | some digit => some (chomping, digit, cursor.skip)
  | none =>
      match increment? cursor.rest with
      | none => none
      | some none => some (.clip, none, cursor)
      | some digit =>
          let cursor := cursor.skip
          match chomping? cursor.rest with
          | some chomping => some (chomping, digit, cursor.skip)
          | none => some (.clip, digit, cursor)

/-- Skip indentation and empty lines of a block.  Returns the breaks, the widest
indentation and the place after them. -/
def emptyLines (indent : Option Nat) :
    Nat -> List Char -> Nat -> Cursor -> Option (List Char × Nat × Cursor)
  | 0, breaks, widest, cursor => some (breaks, widest, cursor)
  | fuel + 1, breaks, widest, cursor =>
      let spaces := (cursor.rest.takeWhile (fun c => c = ' ')).length
      let cursor :=
        match indent with
        | none => cursor.skipMany spaces
        | some indent => cursor.skipMany (min spaces (indent - cursor.column))
      let widest := max widest cursor.column
      let short :=
        match indent with
        | none => true
        | some indent => cursor.column < indent
      match cursor.rest with
      | '\t' :: _ => if short then none else some (breaks, widest, cursor)
      | c :: _ =>
          if isBreak c then
            let (text, cursor) := cursor.skipBreak
            emptyLines indent fuel (breaks ++ text) widest cursor
          else
            some (breaks, widest, cursor)
      | [] => some (breaks, widest, cursor)

/-- Lines of a block that have been read. -/
structure Block where
  /-- The text in reverse. -/
  letters : List Char := []
  /-- The break after the last line. -/
  last : List Char := []
  /-- Breaks of the empty lines after it. -/
  further : List Char := []
  /-- Whether the last line begins with a blank. -/
  indented : Bool := false

/-- The block with its pending breaks, before another line is added. -/
def Block.join (b : Block) (literal indented : Bool) : List Char :=
  if !literal && b.last = ['\n'] && !b.indented && !indented then
    if b.further.isEmpty then
      ' ' :: b.letters
    else
      b.further.reverse ++ b.letters
  else
    b.further.reverse ++ (b.last.reverse ++ b.letters)

def blockLines (literal : Bool) (indent : Nat) :
    Nat -> Block -> Cursor -> Option (Block × Cursor)
  | 0, block, cursor => some (block, cursor)
  | fuel + 1, block, cursor =>
      match cursor.rest with
      | [] => some (block, cursor)
      | c :: _ =>
          if cursor.column = indent then
            let joined := block.join literal (isGap c)
            let (line, cursor) := cursor.skipWhile (fun x => !isBreak x)
            let (last, cursor) := cursor.skipBreak
            match emptyLines (some indent) (cursor.rest.length + 1)
                [] 0 cursor with
            | none => none
            | some (further, _, cursor) =>
                blockLines literal indent fuel
                  ⟨line.reverse ++ joined, last, further, isGap c⟩ cursor
          else
            some (block, cursor)

/-- Skip blanks and a comment up to the end of the line, if nothing else is
there. -/
def restOfLine (cursor : Cursor) : Option Cursor :=
  let cursor := (cursor.skipWhile isGap).2
  let cursor :=
    if cursor.rest.head? = some '#' then cursor.skipToBreak else cursor
  if endsLine cursor.rest then some cursor.skipBreak.2 else none

/-- Read a block scalar at its indicator.  Its lines are indented to the column
`margin` at least. -/
def block (margin : Nat) (cursor : Cursor) : Option (String × Cursor) :=
  let literal := decide (cursor.rest.head? = some '|')
  match header cursor.skip with
  | none => none
  | some (chomping, increment, cursor) =>
      match restOfLine cursor with
      | none => none
      | some cursor =>
          let indent :=
            increment.map (fun n => if margin = 0 then n else margin - 1 + n)
          match emptyLines indent (cursor.rest.length + 1) [] 0 cursor with
          | none => none
          | some (further, widest, cursor) =>
              let indent := indent.getD (max widest (max margin 1))
              match blockLines literal indent (cursor.rest.length + 1)
                  ⟨[], [], further, false⟩ cursor with
              | none => none
              | some (read, cursor) =>
                  let ending :=
                    match chomping with
                    | .strip => []
                    | .clip => read.last
                    | .keep => read.last ++ read.further
                  some (String.ofList (read.letters.reverse ++ ending), cursor)

end Scalar
end Yaml
end SlotCluster
