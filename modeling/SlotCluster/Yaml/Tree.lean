import SlotCluster.Yaml.Token

/-!
# Documents as trees

A document is one tree of scalars, sequences and mappings.  An anchor marks a
place of the tree, and an alias leads to a place.  The name of an anchor is
translated to a place where the alias stands, and the place to a tree when the
whole document is known, so an alias may lead to a tree that holds it.

`Document.ofText?` accepts a text with at most one document and nothing that is
not well formed.  A text without a document is read as an empty scalar.
-/

namespace SlotCluster
namespace Yaml

/-- The content of a document. -/
inductive Tree where
  | scalar (style : Style) (tag : Option Bytes) (text : String)
  | sequence (items : List Tree)
  | mapping (members : List (Tree × Tree))
  /-- Leads to the tree at a marked place. -/
  | alias (place : Nat)
  deriving Inhabited, Repr

/-- A document with its marked places. -/
structure Document where
  root : Tree
  /-- The marked trees with their places, the latest first; of two at one place
  the later one counts. -/
  marks : List (Nat × Tree)

namespace Tree

def blank : Tree :=
  .scalar .plain none ""

def kindTag (kind : String) : Bytes :=
  Utf8.encode ("tag:yaml.org,2002:" ++ kind)

/-- What is left to read of a document, and what is known from the part
before. -/
structure Unread where
  tokens : List Token
  /-- Tags that handles stand for. -/
  handles : List (String × Bytes) := [("!", mark), ("!!", kindTag "")]
  /-- The names of anchors with the places that they stand for now. -/
  names : List (String × Nat) := []
  /-- The marked trees with their places, the latest first. -/
  marks : List (Nat × Tree) := []

abbrev Reader := StateT Unread Option

namespace Reader

def peek : Reader (Option Token) :=
  fun r => some (r.tokens.head?, r)

def drop : Reader Unit :=
  fun r => some ((), { r with tokens := r.tokens.drop 1 })

def refuse {α : Type} : Reader α :=
  fun _ => none

/-- Drop the next token if it is the given one, and tell whether it was. -/
def dropIf (token : Token) : Reader Bool := do
  if (← peek) == some token then
    drop
    return true
  else
    return false

def resolveTag (handle : String) (suffix : Bytes) : Reader Bytes :=
  fun r =>
    let start? :=
      if handle.isEmpty then
        some []
      else
        (r.handles.find? (fun h => h.1 = handle)).map Prod.snd
    start?.map (fun start => (start ++ suffix, r))

def properties : Reader (Option String × Option (String × Bytes)) := do
  match ← peek with
  | some (.anchor name) =>
      drop
      match ← peek with
      | some (.tag handle suffix) =>
          drop
          return (some name, some (handle, suffix))
      | _ => return (some name, none)
  | some (.tag handle suffix) =>
      drop
      match ← peek with
      | some (.anchor name) =>
          drop
          return (some name, some (handle, suffix))
      | _ => return (none, some (handle, suffix))
  | _ => return (none, none)

/-- The alias of a name, which must have been given to an anchor before. -/
def lookup (name : String) : Reader Tree :=
  fun r => (r.names.find? (fun n => n.1 = name)).map (fun n => (.alias n.2, r))

/-- Announce an anchor whose tree is not complete, and tell how many have been
announced before.  The place of a name is the number of other names, together
with the name itself if it had a place already; so a name that is given again
shares its place with the next new name. -/
def announce (anchor : Option String) : Reader Nat :=
  fun r =>
    match anchor with
    | some name =>
        let place := r.names.length
        let names := (name, place) :: r.names.filter (fun n => n.1 ≠ name)
        some (r.marks.length,
          { r with names, marks := (place, blank) :: r.marks })
    | none => some (r.marks.length, r)

/-- Complete the anchor that was announced when `position` anchors were
known. -/
def complete (anchor : Option String) (position : Nat)
    (tree : Tree) : Reader Tree :=
  fun r =>
    match anchor with
    | some _ =>
        let index := r.marks.length - 1 - position
        some (tree,
          { r with marks := r.marks.modify index (fun m => (m.1, tree)) })
    | none => some (tree, r)

end Reader

open Reader

def endsBlockEntry (token : Option Token) : Bool :=
  [some .blockEntry, some .blockEnd].contains token

def endsBlockPart (token : Option Token) : Bool :=
  [some .key, some .value, some .blockEnd].contains token

mutual

/-- Read a tree.  In flow collections there are no blocks; a value of a block
mapping may be a sequence that is not indented.  A tag of the mark alone says
nothing about the text that it stands before; where no text follows it, it is
kept. -/
def node (inBlock inMapping : Bool) : Nat -> Reader Tree
  | 0 => refuse
  | fuel + 1 => do
      match ← peek with
      | some (.alias name) =>
          drop
          lookup name
      | _ =>
          let (anchor, tag) ← properties
          let resolved ←
            match tag with
            | some (handle, suffix) => some <$> resolveTag handle suffix
            | none => pure none
          let position ← announce anchor
          match ← peek with
          | some .blockEntry =>
              if inMapping then
                complete anchor position (.sequence (← looseEntries fuel))
              else if anchor.isSome || tag.isSome then
                complete anchor position (.scalar .plain resolved "")
              else
                refuse
          | some (.scalar style text) =>
              drop
              let telling := resolved.filter (fun tag => tag ≠ mark)
              complete anchor position (.scalar style telling text)
          | some .flowSequence =>
              drop
              complete anchor position (.sequence (← flowItems true fuel))
          | some .flowMapping =>
              drop
              complete anchor position (.mapping (← flowMembers true fuel))
          | token =>
              if inBlock && token == some .blockSequence then
                drop
                complete anchor position (.sequence (← blockEntries fuel))
              else if inBlock && token == some .blockMapping then
                drop
                complete anchor position (.mapping (← blockMembers fuel))
              else if anchor.isSome || tag.isSome then
                complete anchor position (.scalar .plain resolved "")
              else
                refuse

def blockEntries : Nat -> Reader (List Tree)
  | 0 => refuse
  | fuel + 1 => do
      if ← dropIf .blockEntry then
        let item ← if endsBlockEntry (← peek) then pure blank
          else node true false fuel
        return item :: (← blockEntries fuel)
      else if ← dropIf .blockEnd then
        return []
      else
        refuse

def looseEntries : Nat -> Reader (List Tree)
  | 0 => refuse
  | fuel + 1 => do
      if ← dropIf .blockEntry then
        let token ← peek
        let item ←
          if token == some .blockEntry || endsBlockPart token then pure blank
          else node true false fuel
        return item :: (← looseEntries fuel)
      else
        return []

def blockPart : Nat -> Reader Tree
  | 0 => refuse
  | fuel + 1 => do
      if endsBlockPart (← peek) then return blank else node true true fuel

def blockMembers : Nat -> Reader (List (Tree × Tree))
  | 0 => refuse
  | fuel + 1 => do
      if ← dropIf .key then
        let key ← blockPart fuel
        let value ← if ← dropIf .value then blockPart fuel else pure blank
        return (key, value) :: (← blockMembers fuel)
      else if ← dropIf .blockEnd then
        return []
      else
        refuse

def flowValue (last : Token) : Nat -> Reader Tree
  | 0 => refuse
  | fuel + 1 => do
      if ← dropIf .value then
        if [some .flowEntry, some last].contains (← peek) then
          return blank
        else
          node false false fuel
      else
        return blank

/-- Read the items of a flow sequence.  An item that begins with a key is a
mapping of one member. -/
def flowItems (first : Bool) : Nat -> Reader (List Tree)
  | 0 => refuse
  | fuel + 1 => do
      if ← dropIf .flowSequenceEnd then
        return []
      else
        unless first do
          unless ← dropIf .flowEntry do refuse
        if ← dropIf .key then
          let key ← if [some .value, some .flowEntry,
              some .flowSequenceEnd].contains (← peek) then
              drop
              pure blank
            else
              node false false fuel
          let value ← flowValue .flowSequenceEnd fuel
          return .mapping [(key, value)] :: (← flowItems false fuel)
        else if ← dropIf .flowSequenceEnd then
          return []
        else
          let item ← node false false fuel
          return item :: (← flowItems false fuel)

/-- Read the members of a flow mapping.  A member without a colon has an empty
value. -/
def flowMembers (first : Bool) : Nat -> Reader (List (Tree × Tree))
  | 0 => refuse
  | fuel + 1 => do
      if ← dropIf .flowMappingEnd then
        return []
      else
        unless first do
          unless ← dropIf .flowEntry do refuse
        if ← dropIf .key then
          let key ← if [some .value, some .flowEntry,
            some .flowMappingEnd].contains (← peek) then pure blank
            else node false false fuel
          let value ← flowValue .flowMappingEnd fuel
          return (key, value) :: (← flowMembers false fuel)
        else if ← dropIf .flowMappingEnd then
          return []
        else
          let key ← node false false fuel
          return (key, blank) :: (← flowMembers false fuel)

end

/-- Read the directives in front of a document.  There is at most one version
and at most one tag for a handle. -/
def directives (versioned : Bool) (declared : List String) : Nat -> Reader Bool
  | 0 => refuse
  | fuel + 1 => do
      match ← peek with
      | some (.version major minor) =>
          if versioned || major ≠ 1 || (minor ≠ 1 && minor ≠ 2) then
            refuse
          else
            drop
            discard (directives true declared fuel)
            return true
      | some (.tagHandle handle tag) =>
          if declared.contains handle then
            refuse
          else
            drop
            modify (fun r => { r with handles := (handle, tag) :: r.handles })
            discard (directives versioned (handle :: declared) fuel)
            return true
      | _ => return false

def dropEnds : Nat -> Reader Unit
  | 0 => pure ()
  | fuel + 1 => do
      if ← dropIf .documentEnd then dropEnds fuel

def document (fuel : Nat) : Reader Tree := do
  match ← peek with
  | none => return blank
  | some _ =>
      let directed ← directives false [] fuel
      let explicit ← dropIf .documentStart
      if directed && !explicit then
        refuse
      else
        let ended :=
          [some .documentStart, some .documentEnd, none].contains (← peek)
        let tree ← if explicit && ended then pure blank
          else node true false fuel
        dropEnds fuel
        match ← peek with
        | none => return tree
        | some _ => refuse

end Tree

def Document.ofText? (text : String) : Option Document :=
  match tokens? text.toList with
  | none => none
  | some tokens =>
      ((Tree.document (4 * tokens.length + 8)).run { tokens }).map
        (fun (root, unread) => { root, marks := unread.marks })

end Yaml
end SlotCluster
