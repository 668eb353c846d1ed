import SlotCluster.Text.Split

/-!
# White space

The characters with the Unicode property `White_Space`, and cutting text at
them.  Node listings are read in lines and words, where any of these characters
separates two words.
-/

namespace SlotCluster
namespace Text

def isBlank (c : Char) : Bool :=
  let code := c.toNat
  (decide (0x09 ≤ code) && decide (code ≤ 0x0D)) ||
    code == 0x20 || code == 0x85 || code == 0xA0 || code == 0x1680 ||
    (decide (0x2000 ≤ code) && decide (code ≤ 0x200A)) ||
    code == 0x2028 || code == 0x2029 || code == 0x202F || code == 0x205F ||
    code == 0x3000

def trim (text : List Char) : List Char :=
  trimRight isBlank (trimLeft isBlank text)

/-- The words of the text that follows a word begun with the reversed letters
`word`. -/
def wordsFrom (word : List Char) : List Char -> List (List Char)
  | [] => if word.isEmpty then [] else [word.reverse]
  | c :: rest =>
      if isBlank c then
        if word.isEmpty then
          wordsFrom [] rest
        else
          word.reverse :: wordsFrom [] rest
      else
        wordsFrom (c :: word) rest

def words (text : List Char) : List (List Char) :=
  wordsFrom [] text

end Text
end SlotCluster
