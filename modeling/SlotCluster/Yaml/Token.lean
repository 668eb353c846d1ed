import SlotCluster.Text.Decimal
import SlotCluster.Text.Utf8
import SlotCluster.Yaml.Scalar

/-!
# Tokens of a document

`tokens?` cuts a document into tokens and makes its indentation explicit:
entering deeper columns opens a block collection, and returning to shallower
ones closes it.

A mapping key is recognized by the colon after it.  So every token that may
begin a key is remembered as pending, and when its colon follows, a key token is
put in front of it.  A pending key must lie on one line and within 1024
characters.  One pending key is remembered for every level of nested flow
collections.
-/

namespace SlotCluster
namespace Yaml

/-- How a scalar is written. -/
inductive Style where
  | plain
  | quoted
  | literal
  | folded
  deriving DecidableEq, Repr

/-- A token of a document. -/
inductive Token where
  | version (major minor : Nat)
  | tagHandle (handle : String) (tag : Bytes)
  | documentStart
  | documentEnd
  | blockSequence
  | blockMapping
  | blockEnd
  | flowSequence
  | flowSequenceEnd
  | flowMapping
  | flowMappingEnd
  | blockEntry
  | flowEntry
  | key
  | value
  | alias (name : String)
  | anchor (name : String)
  | tag (handle : String) (suffix : Bytes)
  | scalar (style : Style) (text : String)
  deriving DecidableEq, Repr

/-! ## Names, tags and directives -/

def endsName : List Char -> Bool
  | [] => true
  | c :: _ =>
      isGap c || isBreak c ||
        ['?', ':', ',', ']', '\x7d', '%', '@', '\x60'].contains c

def readName (cursor : Cursor) : Option (String × Cursor) :=
  let (name, cursor) := cursor.skipWhile isWordChar
  if name.isEmpty || !endsName cursor.rest then
    none
  else
    some (String.ofList name, cursor)

def mark : Bytes :=
  Utf8.encode "!"

def isTagChar (verbatim : Bool) (c : Char) : Bool :=
  isWordChar c ||
    [';', '/', '?', ':', '@', '&', '=', '+', '$', '.', '%', '!', '~', '*', '\'',
      '(', ')'].contains c || (verbatim && [',', '[', ']'].contains c)

/-- How many bytes a character takes whose encoding begins with the given
one. -/
def encodingWidth? (byte : Nat) : Option Nat :=
  if byte < 0x80 then some 1
  else if byte < 0xC0 then none
  else if byte < 0xE0 then some 2
  else if byte < 0xF0 then some 3
  else if byte < 0xF8 then some 4
  else none

/-- The bytes of a tag, in which a percent sign and two digits stand for one
byte.  All bytes of a character have to be written in this way if one is;
`awaited` of them are still to come. -/
def tagBytes? (awaited : Nat) : List Char -> Option Bytes
  | [] => if awaited = 0 then some [] else none
  | '%' :: a :: b :: rest =>
      match Scalar.hexValue? a, Scalar.hexValue? b with
      | some a, some b =>
          let byte := a * 16 + b
          let awaited? :=
            if awaited = 0 then
              (encodingWidth? byte).map (fun width => width - 1)
            else if byte / 64 = 2 then
              some (awaited - 1)
            else
              none
          match awaited? with
          | some awaited =>
              (tagBytes? awaited rest).map
                (fun bytes => UInt8.ofNat byte :: bytes)
          | none => none
      | _, _ => none
  | c :: rest =>
      if awaited = 0 && c ≠ '%' then (tagBytes? 0 rest).map (fun bytes =>
        String.utf8EncodeChar c ++ bytes)
      else none

/-- Read the characters of a tag: whether there are any, and their bytes up to
the first that is zero. -/
def readTagText (verbatim : Bool) (cursor : Cursor) :
    Option (Bool × Bytes × Cursor) :=
  let (text, cursor) := cursor.skipWhile (isTagChar verbatim)
  (tagBytes? 0 text).map
    (fun bytes => (!text.isEmpty, bytes.takeWhile (fun b => b ≠ 0), cursor))

/-- Read a tag at its indicator.  A tag of the mark alone has no handle. -/
def readTag (inFlow : Bool) (cursor : Cursor) : Option (Token × Cursor) :=
  let finish (handle : String) (suffix : Bytes) (cursor : Cursor) :
      Option (Token × Cursor) :=
    if endsWord cursor.rest ||
        (inFlow && cursor.rest.head? = some ',') then
      some (.tag handle suffix, cursor)
    else
      none
  match cursor.rest with
  | '!' :: '<' :: _ =>
      match readTagText true (cursor.skipMany 2) with
      | some (true, text, cursor) =>
          if cursor.rest.head? = some '>' then
            finish "" text cursor.skip
          else
            none
      | _ => none
  | _ =>
      let (name, after) := cursor.skip.skipWhile isWordChar
      if after.rest.head? = some '!' then
        match readTagText false after.skip with
        | some (true, text, cursor) =>
            finish ("!" ++ String.ofList name ++ "!") text cursor
        | _ => none
      else
        match readTagText false after with
        | some (_, text, cursor) =>
            let suffix := Utf8.encode (String.ofList name) ++ text
            if suffix.isEmpty then
              finish "" mark cursor
            else
              finish "!" suffix cursor
        | none => none

/-- Read a number of a version, which has at most nine digits. -/
def readVersionNumber (cursor : Cursor) : Option (Nat × Cursor) :=
  let (digits, cursor) := cursor.skipWhile Char.isDigit
  if digits.isEmpty || 9 < digits.length then
    none
  else
    some (Decimal.valueFrom 0 digits, cursor)

def readVersion (cursor : Cursor) : Option (Token × Cursor) :=
  match readVersionNumber (cursor.skipWhile isGap).2 with
  | some (major, cursor) =>
      if cursor.rest.head? = some '.' then
        (readVersionNumber cursor.skip).map
          (fun (minor, cursor) => (.version major minor, cursor))
      else
        none
  | none => none

def readHandle (cursor : Cursor) : Option (String × Cursor) :=
  if cursor.rest.head? = some '!' then
    let (name, cursor) := cursor.skip.skipWhile isWordChar
    if cursor.rest.head? = some '!' then
      some ("!" ++ String.ofList name ++ "!", cursor.skip)
    else if name.isEmpty then
      some ("!", cursor)
    else
      none
  else
    none

def readTagHandle (cursor : Cursor) : Option (Token × Cursor) :=
  match readHandle (cursor.skipWhile isGap).2 with
  | some (handle, cursor) =>
      let (blanks, cursor) := cursor.skipWhile isGap
      match readTagText true cursor with
      | some (true, tag, cursor) =>
          if blanks.isEmpty || !endsWord cursor.rest then
            none
          else
            some (.tagHandle handle tag, cursor)
      | _ => none
  | none => none

def readDirective (cursor : Cursor) : Option (Token × Cursor) :=
  let (name, cursor) := cursor.skip.skipWhile isWordChar
  let read :=
    if !endsWord cursor.rest then none
    else if name = ['Y', 'A', 'M', 'L'] then readVersion cursor
    else if name = ['T', 'A', 'G'] then readTagHandle cursor
    else none
  match read with
  | some (token, cursor) =>
      (Scalar.restOfLine cursor).map (fun cursor => (token, cursor))
  | none => none

/-! ## Cutting a document -/

/-- A token that may turn out to be the beginning of a key. -/
structure PendingKey where
  /-- Position among the tokens. -/
  position : Nat
  /-- A key has to stand here, because the token opens a line of the current
  block. -/
  required : Bool
  line : Nat
  column : Nat
  index : Nat

/-- The state of cutting a document. -/
structure Cutting where
  cursor : Cursor
  tokens : Array Token := #[]
  /-- One more than the column of the innermost block, or zero outside of
  blocks. -/
  margin : Nat := 0
  /-- Margins of the enclosing blocks. -/
  margins : List Nat := []
  /-- The pending key of the block level. -/
  pending : Option PendingKey := none
  /-- The pending keys of the flow collections, innermost first. -/
  flows : List (Option PendingKey) := []
  /-- Whether a key may begin here. -/
  keyAllowed : Bool := true

namespace Cutting

def inFlow (s : Cutting) : Bool :=
  !s.flows.isEmpty

def current (s : Cutting) : Option PendingKey :=
  match s.flows with
  | key :: _ => key
  | [] => s.pending

def setCurrent (s : Cutting) (key : Option PendingKey) : Cutting :=
  match s.flows with
  | _ :: rest => { s with flows := key :: rest }
  | [] => { s with pending := key }

/-- Give up the pending key of the current level, unless it is required. -/
def dropPending (s : Cutting) : Option Cutting :=
  match s.current with
  | some key => if key.required then none else some (s.setCurrent none)
  | none => some s

def PendingKey.isFresh (key : PendingKey) (cursor : Cursor) : Bool :=
  key.line = cursor.line && cursor.index ≤ key.index + 1024

/-- Give up the pending keys that have become too long, unless one of them is
required. -/
def dropStale (s : Cutting) : Option Cutting :=
  let stale (key : Option PendingKey) : Bool :=
    match key with
    | some key => !PendingKey.isFresh key s.cursor
    | none => false
  if (s.pending :: s.flows).any (fun key =>
      stale key && (key.map PendingKey.required).getD false) then
    none
  else
    let keep (key : Option PendingKey) := if stale key then none else key
    some { s with pending := keep s.pending, flows := s.flows.map keep }

def savePending (s : Cutting) : Option Cutting :=
  if s.keyAllowed then
    s.dropPending.map (fun s =>
      s.setCurrent
        (some
          { position := s.tokens.size
            required := !s.inFlow && s.margin = s.cursor.column + 1
            line := s.cursor.line
            column := s.cursor.column
            index := s.cursor.index }))
  else
    some s

def push (s : Cutting) (token : Token) : Cutting :=
  { s with tokens := s.tokens.push token }

/-- Open a block at a column, if it lies deeper than the current one. -/
def openBlock (s : Cutting) (column position : Nat) (token : Token) : Cutting :=
  if !s.inFlow && s.margin ≤ column then
    { s with
      tokens := s.tokens.insertIdxIfInBounds position token
      margin := column + 1
      margins := s.margin :: s.margins }
  else
    s

/-- Close the blocks that begin right of a margin, out of the given enclosing
ones. -/
def closeBlocks (s : Cutting) (margin : Nat) : List Nat -> Cutting
  | [] => s
  | outer :: rest =>
      if margin < s.margin then
        closeBlocks { (s.push .blockEnd) with
          margin := outer, margins := rest } margin rest
      else
        s

def closeTo (s : Cutting) (margin : Nat) : Cutting :=
  if s.inFlow then s else s.closeBlocks margin s.margins

/-- Skip white space, comments and line breaks.  A line may begin with a byte
order mark. -/
def skipSpace : Nat -> Cutting -> Cutting
  | 0, s => s
  | fuel + 1, s =>
      let tabs := s.inFlow || !s.keyAllowed
      let cursor := s.cursor.skipOrderMark
      let cursor :=
        (cursor.skipWhile (fun c => c = ' ' || (tabs && c = '\t'))).2
      let cursor :=
        if cursor.rest.head? = some '#' then cursor.skipToBreak else cursor
      match cursor.rest with
      | c :: _ =>
          if isBreak c then
            skipSpace fuel
              { s with
                cursor := cursor.skipBreak.2
                keyAllowed := s.keyAllowed || !s.inFlow }
          else
            { s with cursor }
      | [] => { s with cursor }

def leaveBlocks (s : Cutting) : Option Cutting :=
  ((s.closeTo 0).dropPending).map (fun s => { s with keyAllowed := false })

/-- Add a token of `length` characters after which a key may begin or not. -/
def take (s : Cutting) (length : Nat) (token : Token)
    (keyAllowed : Bool) : Cutting :=
  { (s.push token) with cursor := s.cursor.skipMany length, keyAllowed }

def cutMarker (s : Cutting) : Option Cutting :=
  match s.leaveBlocks with
  | none => none
  | some s =>
      match s.cursor.rest with
      | '-' :: _ => some (s.take 3 .documentStart false)
      | '.' :: _ => some (s.take 3 .documentEnd false)
      | _ =>
          (readDirective s.cursor).map
            (fun (token, cursor) => { (s.push token) with cursor })

def cutFlowStart (s : Cutting) (token : Token) : Option Cutting :=
  s.savePending.map
    (fun s => { (s.take 1 token true) with flows := none :: s.flows })

def cutFlowEnd (s : Cutting) (token : Token) : Option Cutting :=
  s.dropPending.map
    (fun s => { (s.take 1 token false) with flows := s.flows.drop 1 })

def cutEntry (s : Cutting) (token block : Token) (keyAllowed : Bool) :
    Option Cutting :=
  if s.inFlow || s.keyAllowed then
    (s.openBlock s.cursor.column s.tokens.size block).dropPending.map
      (fun s => s.take 1 token keyAllowed)
  else
    none

def cutValue (s : Cutting) : Option Cutting :=
  match s.current with
  | some key =>
      let s :=
        { s with tokens := s.tokens.insertIdxIfInBounds key.position .key }
      let s := s.openBlock key.column key.position .blockMapping
      some ((s.setCurrent none).take 1 .value false)
  | none =>
      if s.inFlow || s.keyAllowed then
        some ((s.openBlock s.cursor.column s.tokens.size .blockMapping).take 1
          .value (!s.inFlow))
      else
        none

def cutNode (s : Cutting) (read : Cursor -> Option (Token × Cursor)) :
    Option Cutting :=
  match s.savePending with
  | none => none
  | some s =>
      (read s.cursor).map
        (fun (token, cursor) =>
          { (s.push token) with cursor, keyAllowed := false })

def cutBlockScalar (s : Cutting) (style : Style) : Option Cutting :=
  match s.dropPending with
  | none => none
  | some s =>
      (Scalar.block s.margin s.cursor).map
        (fun (text, cursor) =>
          { (s.push (.scalar style text)) with cursor, keyAllowed := true })

def cutPlain (s : Cutting) : Option Cutting :=
  match s.savePending with
  | none => none
  | some s =>
      (Scalar.plain s.inFlow s.margin s.cursor).map
        (fun (text, broken, cursor) =>
          { (s.push (.scalar .plain text)) with cursor, keyAllowed := broken })

def beginsPlain (inFlow : Bool) : List Char -> Bool
  | '-' :: rest => !(rest.head?.any isGap)
  | '?' :: rest => !inFlow && !endsWord rest
  | ':' :: rest => !inFlow && !endsWord rest
  | c :: _ => !isIndicator c && !isGap c && !isBreak c
  | [] => false

/-- Cut the next token, or return `none` in the second component at the end of
the document. -/
def cutNext (s : Cutting) : Option (Cutting × Bool) :=
  match (skipSpace (s.cursor.rest.length + 1) s).dropStale with
  | none => none
  | some s =>
      let s := s.closeTo (s.cursor.column + 1)
      let more (s : Option Cutting) : Option (Cutting × Bool) :=
        s.map (fun s => (s, true))
      if s.cursor.atMarker ||
          (s.cursor.column = 0 && s.cursor.rest.head? = some '%') then
        more s.cutMarker
      else
        match s.cursor.rest with
        | [] => s.leaveBlocks.map (fun s => (s, false))
        | '[' :: _ => more (s.cutFlowStart .flowSequence)
        | '\x7b' :: _ => more (s.cutFlowStart .flowMapping)
        | ']' :: _ => more (s.cutFlowEnd .flowSequenceEnd)
        | '\x7d' :: _ => more (s.cutFlowEnd .flowMappingEnd)
        | ',' :: _ =>
            more (s.dropPending.map (fun s => s.take 1 .flowEntry true))
        | '*' :: _ =>
            more (s.cutNode
              (fun c =>
                (readName c.skip).map (fun (name, c) => (.alias name, c))))
        | '&' :: _ =>
            more (s.cutNode
              (fun c =>
                (readName c.skip).map (fun (name, c) => (.anchor name, c))))
        | '!' :: _ => more (s.cutNode (readTag s.inFlow))
        | '\'' :: _ | '"' :: _ =>
            more (s.cutNode
              (fun c =>
                (Scalar.quoted c).map
                  (fun (text, c) => (.scalar .quoted text, c))))
        | c :: rest =>
            if c = '-' && endsWord rest then
              more (s.cutEntry .blockEntry .blockSequence true)
            else if c = '?' && (s.inFlow || endsWord rest) then
              more (s.cutEntry .key .blockMapping (!s.inFlow))
            else if c = ':' && (s.inFlow || endsWord rest) then
              more s.cutValue
            else if c = '|' && !s.inFlow then
              more (s.cutBlockScalar .literal)
            else if c = '>' && !s.inFlow then
              more (s.cutBlockScalar .folded)
            else if beginsPlain s.inFlow s.cursor.rest then
              more s.cutPlain
            else
              none

def cutAll : Nat -> Cutting -> Option (Array Token)
  | 0, _ => none
  | fuel + 1, s =>
      match s.cutNext with
      | none => none
      | some (s, true) => cutAll fuel s
      | some (s, false) => some s.tokens

end Cutting

def tokens? (text : List Char) : Option (List Token) :=
  if text.all isAllowed then
    (Cutting.cutAll (text.length + 2) { cursor := { rest := text } }).map
      Array.toList
  else
    none

end Yaml
end SlotCluster
