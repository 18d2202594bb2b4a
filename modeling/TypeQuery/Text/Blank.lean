/-!
# TypeQuery.Text.Blank

White space: the characters that separate words in any script, and what is done with them:
cutting a text into its words and trimming its ends.
-/

namespace TypeQuery.Text

/-- The code points of white space, in ascending ranges. -/
def blankRanges : List (Nat × Nat) :=
  [(0x9, 0xD), (0x20, 0x20), (0x85, 0x85), (0xA0, 0xA0), (0x1680, 0x1680), (0x2000, 0x200A),
    (0x2028, 0x2029), (0x202F, 0x202F), (0x205F, 0x205F), (0x3000, 0x3000)]

/-- Whether `c` is white space. -/
def isBlank (c : Char) : Bool :=
  blankRanges.any fun (first, last) => first ≤ c.toNat && c.toNat ≤ last

/-! ## words -/

/-- Reads the words of a text from left to right; `word` holds the letters of the word that is
being read, the last one first. -/
def wordsFrom (word : List Char) : List Char → List (List Char)
  | [] => if word.isEmpty then [] else [word.reverse]
  | c :: cs =>
    if isBlank c then
      if word.isEmpty then wordsFrom [] cs else word.reverse :: wordsFrom [] cs
    else wordsFrom (c :: word) cs

/-- The maximal runs of characters that are not white space. -/
def words (cs : List Char) : List (List Char) :=
  wordsFrom [] cs

/-- The words joined by single spaces. -/
def joinWords : List (List Char) → List Char
  | [] => []
  | [w] => w
  | w :: ws => w ++ ' ' :: joinWords ws

/-! ## trimming -/

/-- Drops white space at the end. -/
def trimRight (cs : List Char) : List Char :=
  (cs.reverse.dropWhile isBlank).reverse

/-- Drops white space at both ends. -/
def trim (cs : List Char) : List Char :=
  trimRight (cs.dropWhile isBlank)

end TypeQuery.Text
