/-!
# TypeQuery.Text.Ranges

Character classes given as tables of code-point ranges. The classes a pattern or a message needs
(word characters, digits, characters without a visible form) are long but plain data, so each is
one sorted array of inclusive ranges and membership is a binary search.
-/

namespace TypeQuery.Text

/-- A set of characters as inclusive ranges of code points, ascending and disjoint. -/
structure Ranges where
  /-- The first and the last code point of each range. -/
  bounds : Array (Nat × Nat)

namespace Ranges

/-- Looks for the range that holds `n` among those with an index from `lo` up to, but not
including, `hi`. -/
def search (t : Array (Nat × Nat)) (n : Nat) (lo hi : Nat) : Bool :=
  if lo < hi then
    let mid := lo + (hi - lo) / 2
    match t[mid]? with
    | none => false
    | some (first, last) =>
      if n < first then search t n lo mid
      else if last < n then search t n (mid + 1) hi
      else true
  else false
termination_by hi - lo
decreasing_by all_goals omega

/-- Whether the table lists `c`. -/
def contains (t : Ranges) (c : Char) : Bool :=
  search t.bounds c.toNat 0 t.bounds.size

end Ranges

end TypeQuery.Text
