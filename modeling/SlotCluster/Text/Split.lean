/-!
# Cutting text at a separator

Addresses and slot tokens are cut at their first or last separator, lists of
flags at every one.  A cut removes the separator it used and nothing else.
-/

namespace SlotCluster
namespace Text

def splitFirst (separator : Char) : List Char -> Option (List Char × List Char)
  | [] => none
  | c :: rest =>
      if c = separator then
        some ([], rest)
      else
        (splitFirst separator rest).map (fun parts => (c :: parts.1, parts.2))

def splitLast (separator : Char) : List Char -> Option (List Char × List Char)
  | [] => none
  | c :: rest =>
      match splitLast separator rest with
      | some (front, back) => some (c :: front, back)
      | none => if c = separator then some ([], rest) else none

/-- The pieces between separators; a text with `n` separators has `n + 1`
pieces. -/
def splitAll (separator : Char) : List Char -> List (List Char)
  | [] => [[]]
  | c :: rest =>
      if c = separator then
        [] :: splitAll separator rest
      else
        match splitAll separator rest with
        | [] => [[c]]
        | piece :: pieces => (c :: piece) :: pieces

def upTo (separator : Char) (text : List Char) : List Char :=
  text.takeWhile (fun c => c ≠ separator)

def trimLeft (drop : Char -> Bool) (text : List Char) : List Char :=
  text.dropWhile drop

def trimRight (drop : Char -> Bool) (text : List Char) : List Char :=
  (text.reverse.dropWhile drop).reverse

/-- Pieces written one after the other with a separator between neighbours. -/
def joinWith (separator : List Char) : List (List Char) -> List Char
  | [] => []
  | [piece] => piece
  | piece :: pieces => piece ++ separator ++ joinWith separator pieces

/-- Texts written one after the other with a separator between neighbours. -/
def joinTexts (separator : String) (pieces : List String) : String :=
  String.ofList (joinWith separator.toList (pieces.map String.toList))

end Text
end SlotCluster
