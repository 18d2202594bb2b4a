import TypeQuery.Text.Blank
import TypeQuery.Text.Fold
import TypeQuery.Text.Word

/-!
# TypeQuery.Pattern.CharSet

Sets of characters: the ranges of a pattern's classes and what can be built from them. A set has one
form only, its code points as ascending ranges of which no two touch, so equal sets are equal as
data. Code points between `0xD800` and `0xDFFF` stand for no character and never end a range.

* `CharSet.contains` — membership
* `CharSet.union`, `compl`, `inter`, `diff`, `symmDiff` — the algebra of sets
* `CharSet.folded` — the set in all cases of its letters
-/

namespace TypeQuery.Pattern

/-- A set of characters as ranges of code points, ascending and apart from each other. -/
structure CharSet where
  ranges : List (Nat × Nat)
  deriving DecidableEq, Repr

namespace CharSet

/-! ## membership -/

/-- Whether one of the ascending ranges holds `n`. -/
def holds : List (Nat × Nat) → Nat → Bool
  | [], _ => false
  | (first, last) :: rs, n => if n < first then false else n ≤ last || holds rs n

/-- Whether a character is in the set. -/
def contains (s : CharSet) (c : Char) : Bool :=
  holds s.ranges c.toNat

/-! ## from ranges to sets -/

/-- Joins the range from `first` to `last` with those ranges after it that it reaches. -/
def joinFrom (first last : Nat) : List (Nat × Nat) → List (Nat × Nat)
  | [] => [(first, last)]
  | (a, b) :: rs =>
    if a ≤ last + 1 then joinFrom first (max last b) rs else (first, last) :: joinFrom a b rs

/-- Joins ranges that overlap or touch; they stand in the order of their first code points. -/
def join : List (Nat × Nat) → List (Nat × Nat)
  | [] => []
  | (first, last) :: rs => joinFrom first last rs

/-- Whether a range begins no later than another one. -/
def startsBefore (r t : Nat × Nat) : Bool :=
  r.1 ≤ t.1

/-- The code points of ranges in any order. -/
def ofBounds (rs : List (Nat × Nat)) : CharSet :=
  ⟨join (rs.mergeSort startsBefore)⟩

/-- No character. -/
def none : CharSet :=
  ⟨[]⟩

/-- The characters from `first` to `last`. -/
def range (first last : Char) : CharSet :=
  ⟨[(first.toNat, last.toNat)]⟩

/-- One character. -/
def single (c : Char) : CharSet :=
  range c c

/-- The character of a set that has no other one. -/
def single? : CharSet → Option Char
  | ⟨[(first, last)]⟩ => if first = last then some (Char.ofNat first) else Option.none
  | _ => Option.none

/-- The characters of a list. -/
def ofList (cs : List Char) : CharSet :=
  ofBounds (cs.map fun c => (c.toNat, c.toNat))

/-- The characters of several ranges. -/
def ofRanges (rs : List (Char × Char)) : CharSet :=
  ofBounds (rs.map fun r => (r.1.toNat, r.2.toNat))

/-! ## the algebra of sets -/

/-- The characters of both sets. -/
def union (s t : CharSet) : CharSet :=
  ⟨join (s.ranges.merge t.ranges startsBefore)⟩

/-- The characters from `first` to `last`, if there are any. -/
def between (first last : Nat) : List (Nat × Nat) :=
  let isGap (n : Nat) : Bool := 0xD800 ≤ n && n ≤ 0xDFFF
  let first := if isGap first then 0xE000 else first
  let last := if isGap last then 0xD7FF else last
  if first ≤ last then [(first, last)] else []

/-- What the ascending ranges leave out from code point `start` on. -/
def gapsFrom (start : Nat) : List (Nat × Nat) → List (Nat × Nat)
  | [] => between start 0x10FFFF
  | (a, b) :: rs => (if start < a then between start (a - 1) else []) ++ gapsFrom (b + 1) rs

/-- The characters that are not in the set. -/
def compl (s : CharSet) : CharSet :=
  ⟨gapsFrom 0 s.ranges⟩

/-- The characters that are in both sets. -/
def inter (s t : CharSet) : CharSet :=
  (s.compl.union t.compl).compl

/-- The characters of `s` that are not in `t`. -/
def diff (s t : CharSet) : CharSet :=
  s.inter t.compl

/-- The characters that are in one of the two sets only. -/
def symmDiff (s t : CharSet) : CharSet :=
  (s.diff t).union (t.diff s)

/-- The characters that differ from one in the set by their case at most: those that fold to the
same representative as one of them. -/
def folded (s : CharSet) : CharSet :=
  let reached := ofBounds (Text.foldPairs.filterMap fun (n, f) =>
    if holds s.ranges n || holds s.ranges f then some (f, f) else Option.none)
  s.union (ofBounds (Text.foldPairs.flatMap fun (n, f) =>
    if holds reached.ranges f then [(n, n), (f, f)] else []))

/-- The set, in all cases when `ignoreCase` is set. -/
def withCase (s : CharSet) (ignoreCase : Bool) : CharSet :=
  if ignoreCase then s.folded else s

/-! ## named sets -/

/-- All characters. -/
def all : CharSet :=
  none.compl

/-- Decimal digits. -/
def digit : CharSet :=
  ⟨Text.digitRanges.bounds.toList⟩

/-- White space. -/
def space : CharSet :=
  ⟨Text.blankRanges⟩

/-- Word characters. -/
def word : CharSet :=
  ⟨Text.wordRanges.bounds.toList⟩

/-- The hexadecimal digits. -/
def hexDigit : CharSet :=
  ofRanges [('0', '9'), ('A', 'F'), ('a', 'f')]

/-- One character, in all its cases when `ignoreCase` is set. -/
def ofChar (c : Char) (ignoreCase : Bool) : CharSet :=
  if ignoreCase then ofList (Text.foldClass c) else single c

/-- All characters that do not end a line: both marks of a line end are left out when `crlf` is
set, and the line feed alone otherwise. -/
def inLine (crlf : Bool) : CharSet :=
  if crlf then (ofList ['\n', '\r']).compl else (single '\n').compl

/-- A class of ASCII characters by its name. -/
def ascii? : String → Option CharSet
  | "alnum" => some (ofRanges [('0', '9'), ('A', 'Z'), ('a', 'z')])
  | "alpha" => some (ofRanges [('A', 'Z'), ('a', 'z')])
  | "ascii" => some (range '\x00' '\x7f')
  | "blank" => some (ofList ['\t', ' '])
  | "cntrl" => some (ofRanges [('\x00', '\x1f'), ('\x7f', '\x7f')])
  | "digit" => some (range '0' '9')
  | "graph" => some (range '!' '~')
  | "lower" => some (range 'a' 'z')
  | "print" => some (range ' ' '~')
  | "punct" => some (ofRanges [('!', '/'), (':', '@'), ('[', '\x60'), ('{', '~')])
  | "space" => some (ofList ['\t', '\n', '\x0b', '\x0c', '\r', ' '])
  | "upper" => some (range 'A' 'Z')
  | "word" => some (ofRanges [('0', '9'), ('A', 'Z'), ('_', '_'), ('a', 'z')])
  | "xdigit" => some hexDigit
  | _ => Option.none

end CharSet

end TypeQuery.Pattern
