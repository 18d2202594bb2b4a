import TypeQuery.Pattern.CharSet
import TypeQuery.Pattern.Look

/-!
# TypeQuery.Pattern.Regex

Regular expressions: what is left of a pattern once its flags are applied. Where an expression can
match in several ways the order counts: of an alternative the first branch is preferred, of a greedy
repetition the longer one, of a lazy repetition the shorter one.

Expressions are built in a reduced form, which is what all rules on patterns speak of:

* `Regex.concat` — no sequence stands in a sequence, and nothing in it is empty
* `Regex.either` — no alternative stands in an alternative, sets are joined to one, and what all
  branches begin with is written once, in front of them
* `Regex.repeated` — repetitions that make no difference are left out
-/

namespace TypeQuery.Pattern

/-- A regular expression. -/
inductive Regex where
  /-- The empty text. -/
  | empty
  /-- One character of a set. -/
  | set (s : CharSet)
  /-- Nothing, at a kind of place. -/
  | look (l : Look)
  /-- One expression after the other. -/
  | seq (r s : Regex)
  /-- Either of two expressions, preferably the first. -/
  | alt (r s : Regex)
  /-- At least `min` and at most `max` times the expression, preferably often if `greedy`. -/
  | loop (r : Regex) (min : Nat) (max : Option Nat) (greedy : Bool)
  /-- The expression, whose match is kept under a number. -/
  | group (index : Nat) (r : Regex)
  deriving DecidableEq, Repr

namespace Regex

/-! ## widths -/

/-- The least number of characters that the expression reads; none if it surely matches nothing. -/
def minWidth? : Regex → Option Nat
  | .empty => some 0
  | .set s => if s.ranges.isEmpty then none else some 1
  | .look _ => some 0
  | .seq r s => do return (← r.minWidth?) + (← s.minWidth?)
  | .alt r s => do return min (← r.minWidth?) (← s.minWidth?)
  | .loop r min _ _ => do return (← r.minWidth?) * min
  | .group _ r => r.minWidth?

/-- Whether each match of the expression reads a character. -/
def alwaysReads (r : Regex) : Bool :=
  r.minWidth?.any (0 < ·)

/-- Whether no match of the expression reads a character. -/
def neverReads : Regex → Bool
  | .empty => true
  | .set _ => false
  | .look _ => true
  | .seq r s => r.neverReads && s.neverReads
  | .alt r s => r.neverReads && s.neverReads
  | .loop r _ max _ => r.neverReads && max.isSome
  | .group _ r => r.neverReads

/-! ## sequences -/

/-- The expressions of a sequence. -/
def items : Regex → List Regex
  | .empty => []
  | .seq r s => r.items ++ s.items
  | r => [r]

/-- Expressions one after the other as they are. -/
def seqs : List Regex → Regex
  | [] => .empty
  | [r] => r
  | r :: rs => .seq r (seqs rs)

/-- Expressions one after the other. -/
def concat (rs : List Regex) : Regex :=
  seqs (rs.flatMap items)

/-! ## alternatives -/

/-- The branches of an alternative. -/
def branches : Regex → List Regex
  | .alt r s => r.branches ++ s.branches
  | r => [r]

/-- One of several expressions as they are, an earlier one preferred; without any, the empty
text. -/
def alts : List Regex → Regex
  | [] => .empty
  | [r] => r
  | r :: rs => .alt r (alts rs)

/-- The character of an expression that matches that character only. -/
def char? : Regex → Option Char
  | .set s => s.single?
  | _ => none

/-- The set of an expression that matches a character of a set, but not always the same one. -/
def class? : Regex → Option CharSet
  | .set s => if s.single?.isSome then none else some s
  | _ => none

/-- The set that says the same as the branches, if all of them are single characters or all of them
are sets of several characters. -/
def joined? (rs : List Regex) : Option CharSet :=
  match rs.mapM char? with
  | some cs => some (.ofList cs)
  | none => (rs.mapM class?).map fun ss => ss.foldl CharSet.union .none

/-- Puts an expression in front of units: a character joins the text that the first unit is. -/
def consUnit (r : Regex) : List (List Regex) → List (List Regex)
  | [] => [[r]]
  | [] :: us => [r] :: us
  | (s :: u) :: us =>
    if r.char?.isSome && s.char?.isSome then (r :: s :: u) :: us else [r] :: (s :: u) :: us

/-- The expressions of a sequence with the characters of a text in one unit. -/
def units (r : Regex) : List (List Regex) :=
  r.items.foldr consUnit []

/-- What two lists begin with alike. -/
def commonStart {α : Type} [DecidableEq α] : List α → List α → List α
  | x :: xs, y :: ys => if x = y then x :: commonStart xs ys else []
  | _, _ => []

/-- What all lists begin with alike. -/
def commonStarts {α : Type} [DecidableEq α] : List (List α) → List α
  | [] => []
  | [xs] => xs
  | xs :: xss => commonStart xs (commonStarts xss)

/-- The units that all branches begin with; none unless all branches are sequences. -/
def sharedUnits (branches : List (List (List Regex))) : List (List Regex) :=
  if branches.all (1 < ·.length) then commonStarts branches else []

/-- The number of constructors in an expression. -/
def nodes : Regex → Nat
  | .seq r s => r.nodes + s.nodes + 1
  | .alt r s => r.nodes + s.nodes + 1
  | .loop r _ _ _ => r.nodes + 1
  | .group _ r => r.nodes + 1
  | _ => 1

/-- One of several expressions. What is left of the branches behind a shared start is smaller than
they were, so their size is enough fuel. -/
def eitherFrom : Nat → List Regex → Regex
  | 0, rs => alts rs
  | fuel + 1, rs =>
    let rs := rs.flatMap branches
    match rs with
    | [r] => r
    | rs =>
      match joined? rs with
      | some s => .set s
      | none =>
        let us := rs.map units
        let shared := sharedUnits us
        if shared.isEmpty then alts rs
        else
          let rests := us.map fun u => seqs (u.drop shared.length).flatten
          concat (shared.flatten ++ [eitherFrom fuel rests])

/-- One of several expressions, an earlier one preferred. A shared start is written once: its own
ways of matching then count for more than the order of the branches. -/
def either (rs : List Regex) : Regex :=
  eitherFrom (rs.foldl (fun n r => n + r.nodes) 1) rs

/-- How deeply the notation of an expression may be nested. -/
def depthLimit : Nat := 250

/-! ## repetitions -/

/-- At least `min` and at most `max` times the expression. What reads nothing is repeated once at
most. -/
def repeated (r : Regex) (min : Nat) (max : Option Nat) (greedy : Bool) : Regex :=
  let (min, max) :=
    if r.neverReads then (Nat.min min 1, some (Nat.min (max.getD 1) 1)) else (min, max)
  if max == some 0 then .empty
  else if min = 1 && max == some 1 then r
  else .loop r min max greedy

end Regex

end TypeQuery.Pattern
