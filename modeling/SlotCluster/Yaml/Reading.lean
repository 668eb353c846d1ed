import SlotCluster.Yaml.Plain
import SlotCluster.Yaml.Tree

/-!
# Reading values from a document

A reading takes a tree where a value of one kind is expected.  Numbers and truth
values have to be plain, or literal blocks tagged with their kind; texts may be
written in any way.

An alias is followed where a value is read and only there, so what is skipped
may lead anywhere.  How many aliases may be followed grows with the length of
the document, and a short document cannot stand for an endless one.
-/

namespace SlotCluster
namespace Yaml

namespace Tree

mutual

/-- The length of a tree: one for every scalar and alias, and two for the ends
of every collection. -/
def length : Tree -> Nat
  | .scalar _ _ _ => 1
  | .alias _ => 1
  | .sequence items => 2 + lengthOfItems items
  | .mapping members => 2 + lengthOfMembers members

def lengthOfItems : List Tree -> Nat
  | [] => 0
  | item :: rest => length item + lengthOfItems rest

def lengthOfMembers : List (Tree × Tree) -> Nat
  | [] => 0
  | (key, value) :: rest => length key + length value + lengthOfMembers rest

end

end Tree

/-- A reading of a part of a document, which knows the marked places and counts
down how many aliases may still be followed. -/
abbrev Reading := ReaderT (List (Nat × Tree)) (StateT Nat Option)

namespace Reading

def refuse {α : Type} : Reading α :=
  fun _ _ => none

def expect {α : Type} (value? : Option α) : Reading α :=
  fun _ left => value?.map (fun value => (value, left))

def follow : Tree -> Reading Tree
  | .alias place => fun marks left =>
      match left, marks.find? (fun m => m.1 = place) with
      | left + 1, some (_, tree) => some (tree, left)
      | _, _ => none
  | tree => return tree

/-- The text of a scalar that may stand for a value of a kind. -/
def untyped (kind : String) (t : Tree) : Reading String := do
  match ← follow t with
  | .scalar .plain _ text => return text
  | .scalar .literal (some tag) text =>
      if tag = Tree.kindTag kind then return text else refuse
  | _ => refuse

def bool (t : Tree) : Reading Bool := do
  expect (bool? (← untyped "bool" t))

def below (bound : Nat) (t : Tree) : Reading Nat := do
  expect (naturalBelow? bound (← untyped "int" t))

def text (t : Tree) : Reading String := do
  match ← follow t with
  | .scalar _ _ text => return text
  | _ => refuse

def optional (t : Tree) : Reading (Option String) := do
  match ← follow t with
  | .scalar .plain none text =>
      return if text.isEmpty || isNull text then none else some text
  | .scalar .plain (some tag) text =>
      if tag = Tree.kindTag "null" then
        if isNull text then return none else refuse
      else
        return some text
  | .scalar _ _ text => return some text
  | _ => refuse

/-- The items of a sequence; where nothing is written there are none. -/
def items (t : Tree) : Reading (List Tree) := do
  match ← follow t with
  | .sequence items => return items
  | .scalar .plain _ "" => return []
  | _ => refuse

/-- The members of a mapping with known keys; where nothing is written there are
none.  Every key has to be a text, and a known key stands once. -/
def members (known : List String) (t : Tree) : Reading (List (String × Tree)) :=
  do
  match ← follow t with
  | .mapping members =>
      let members ← members.mapM (fun m => return (← text m.1, m.2))
      let members := members.filter (fun m => known.contains m.1)
      if (members.map Prod.fst).Nodup then return members else refuse
  | .scalar .plain _ "" => return []
  | _ => refuse

def member {α : Type} (members : List (String × Tree)) (key : String)
    (default : Option α) (read : Tree -> Reading α) : Reading α :=
  match members.find? (fun m => m.1 = key) with
  | some (_, value) => read value
  | none => expect default

end Reading

/-- How many aliases may be followed for each unit of the length of a
document. -/
def aliasesPerUnit : Nat := 100

def Document.read? {α : Type} (d : Document)
    (read : Tree -> Reading α) : Option α :=
  (((read d.root).run d.marks).run (aliasesPerUnit * d.root.length)).map
    Prod.fst

end Yaml
end SlotCluster
