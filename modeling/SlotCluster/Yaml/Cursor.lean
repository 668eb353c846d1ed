/-!
# Places in a document

A cursor is a place in a document: the text that is left, with the line and the
column of its first character.  Indentation is a column, so columns are part of
the meaning of a document.

Between two words of a scalar stands a gap, which may run over several lines.  A
gap without a line break stands for itself.  Otherwise the blanks around the
breaks are dropped and the first break folds: it becomes a space, or nothing
when further breaks follow.
-/

namespace SlotCluster
namespace Yaml

def isGap (c : Char) : Bool :=
  c = ' ' || c = '\t'

def isBreak (c : Char) : Bool :=
  c = '\n' || c = '\r' || c = '\u0085' || c = '\u2028' || c = '\u2029'

/-- Whether the character may stand in a name of an anchor, a tag or a
directive. -/
def isWordChar (c : Char) : Bool :=
  c.isAlphanum || c = '-' || c = '_'

def isAllowed (c : Char) : Bool :=
  let code := c.toNat
  code = 0x09 || code = 0x0A || code = 0x0D || (0x20 ≤ code && code ≤ 0x7E) ||
    code = 0x85 || (0xA0 ≤ code && code ≤ 0xFFFD) || 0x10000 ≤ code

/-- Whether the character means something else than itself in front of a
word. -/
def isIndicator (c : Char) : Bool :=
  [',', '[', ']', '\x7b', '\x7d', '#', '&', '*', '!', '|', '>', '\'', '"', '%',
    '@', '\x60'].contains c

def endsLine : List Char -> Bool
  | [] => true
  | c :: _ => isBreak c

def endsWord : List Char -> Bool
  | [] => true
  | c :: _ => isGap c || isBreak c

/-- Whether a text begins with a marker for the start or the end of a
document. -/
def startsMarker : List Char -> Bool
  | '-' :: '-' :: '-' :: rest => endsWord rest
  | '.' :: '.' :: '.' :: rest => endsWord rest
  | _ => false

/-- A place in a document. -/
structure Cursor where
  rest : List Char
  line : Nat := 0
  column : Nat := 0
  /-- Number of characters before the place. -/
  index : Nat := 0

namespace Cursor

def skip (c : Cursor) : Cursor :=
  { c with rest := c.rest.drop 1, column := c.column + 1, index := c.index + 1 }

def skipMany (c : Cursor) (n : Nat) : Cursor :=
  { c with rest := c.rest.drop n, column := c.column + n, index := c.index + n }

/-- The place after the next characters of the line that satisfy `p`, and those
characters. -/
def skipWhile (c : Cursor) (p : Char -> Bool) : List Char × Cursor :=
  let word := c.rest.takeWhile p
  (word, c.skipMany word.length)

def skipToBreak (c : Cursor) : Cursor :=
  (c.skipWhile (fun x => !isBreak x)).2

/-- The place after a line break, and the text that the break stands for. -/
def skipBreak (c : Cursor) : List Char × Cursor :=
  let next (n : Nat) : Cursor := ⟨c.rest.drop n, c.line + 1, 0, c.index + n⟩
  match c.rest with
  | '\r' :: '\n' :: _ => (['\n'], next 2)
  | '\u2028' :: _ => (['\u2028'], next 1)
  | '\u2029' :: _ => (['\u2029'], next 1)
  | x :: _ => if isBreak x then (['\n'], next 1) else ([], c)
  | [] => ([], c)

/-- The place after a byte order mark, if one begins the line. -/
def skipOrderMark (c : Cursor) : Cursor :=
  if c.column = 0 && c.rest.head? = some '\uFEFF' then c.skip else c

/-- Whether a document marker stands at the beginning of the line. -/
def atMarker (c : Cursor) : Bool :=
  c.column = 0 && startsMarker c.rest

end Cursor

/-- What stands between two words of a scalar. -/
structure Gap where
  /-- Blanks, when there is no line break. -/
  blanks : List Char := []
  /-- The first line break. -/
  first : List Char := []
  /-- Further line breaks. -/
  further : List Char := []
  /-- Whether there is a line break. -/
  broken : Bool := false

namespace Gap

def text (g : Gap) : List Char :=
  if g.broken then
    if g.first = ['\n'] then
      if g.further.isEmpty then [' '] else g.further
    else
      g.first ++ g.further
  else
    g.blanks

/-- Read the rest of a gap.  A tab may not stand left of the column `margin` of
a new line. -/
def read (margin : Nat) : Nat -> Gap -> Cursor -> Option (Gap × Cursor)
  | 0, gap, cursor => some (gap, cursor)
  | fuel + 1, gap, cursor =>
      match cursor.rest with
      | [] => some (gap, cursor)
      | c :: _ =>
          if isGap c then
            if gap.broken && cursor.column < margin && c = '\t' then
              none
            else if gap.broken then
              read margin fuel gap cursor.skip
            else
              read margin fuel
                { gap with blanks := gap.blanks ++ [c] } cursor.skip
          else if isBreak c then
            let (text, cursor) := cursor.skipBreak
            if gap.broken then
              read margin fuel
                { gap with further := gap.further ++ text } cursor
            else
              read margin fuel { first := text, broken := true } cursor
          else
            some (gap, cursor)

end Gap
end Yaml
end SlotCluster
