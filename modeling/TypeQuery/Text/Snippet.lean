import TypeQuery.Text.Blank
import TypeQuery.Text.Utf16

/-!
# TypeQuery.Text.Snippet

Snippets: source text on one line and within a bound, as it is shown beside a declaration.

* `collapse` — white space becomes single spaces
* `condense` — the collapsed text, cut and marked with an ellipsis when it is too long
-/

namespace TypeQuery.Text

/-- The mark at the end of a snippet that was cut. -/
def ellipsis : Char := '\u2026'

/-- The text with every run of white space replaced by one space, and none at its ends. -/
def collapse (cs : List Char) : List Char :=
  joinWords (words cs)

/-- The longest prefix of the text that has at most `budget` units. -/
def takeWithin : Nat → List Char → List Char
  | _, [] => []
  | budget, c :: cs => if units c ≤ budget then c :: takeWithin (budget - units c) cs else []

/-- The collapsed text when it has at most `bound` units. Otherwise its longest prefix that leaves
room for the ellipsis, without white space at its end, and the ellipsis. -/
def condense (cs : List Char) (bound : Nat) : List Char :=
  let line := collapse cs
  if unitLength line ≤ bound then line
  else trimRight (takeWithin (bound - 1) line) ++ [ellipsis]

/-- `condense` on strings. -/
def condenseText (s : String) (bound : Nat) : String :=
  String.ofList (condense s.toList bound)

end TypeQuery.Text
