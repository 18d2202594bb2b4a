import TypeQuery.Pattern.Footprint

/-!
# TypeQuery.Pattern.Backtracking.Expr

Patterns that need backtracking: what a regular expression can say, and besides that looking ahead
and behind, references to what a group has matched, groups that are never entered again, conditions
and a mark for where the match shall begin.

An expression is *hard* when it holds any of these. One that is not hard is a regular expression
(`Expr.toRegex?`) and can be left to an automaton. The width of an expression is how many
characters it reads at least (`minWidth`), and whether that is the only number (`fixedWidth`).
-/

namespace TypeQuery.Pattern.Backtracking

/-- A pattern. -/
inductive Expr where
  | empty
  /-- Any character, of which line ends are one if `newline` is set. -/
  | any (newline : Bool)
  | char (c : Char) (ignoreCase : Bool)
  /-- A character of a set, in whose notation brackets are nested that deeply. -/
  | set (s : CharSet) (depth : Nat)
  | look (l : Look)
  | seq (items : List Expr)
  | alt (branches : List Expr)
  /-- A group whose match can be referred to. -/
  | group (index : Nat) (body : Expr)
  /-- The body stands before or behind the place, or does not. -/
  | around (behind negated : Bool) (body : Expr)
  | loop (body : Expr) (min : Nat) (max : Option Nat) (greedy : Bool)
  /-- What the group has matched, once more. -/
  | backref (index : Nat)
  /-- Nothing, if the group has matched. -/
  | taken (index : Nat)
  /-- The body, which is not entered again once it has matched. -/
  | atomic (body : Expr)
  /-- The match begins here. -/
  | keepOut
  /-- Nothing, where the search began. -/
  | resume
  | conditional (condition yes no : Expr)
  deriving Repr, Inhabited

namespace Expr

/-- Whether this is the empty pattern as it is written. -/
def isEmpty : Expr → Bool
  | .empty => true
  | _ => false

/-- Whether a repetition may follow: not after nothing, a place, or looking around. -/
def isRepeatable : Expr → Bool
  | .around .. => false
  | .empty => false
  | .look _ => false
  | _ => true

/-! ## width -/

mutual

/-- The least number of characters that the pattern reads. -/
def minWidth : Expr → Nat
  | .empty => 0
  | .any _ => 1
  | .char _ _ => 1
  | .set _ _ => 1
  | .look _ => 0
  | .seq items => minWidthSum items
  | .alt branches => minWidthMin branches
  | .group _ body => body.minWidth
  | .around .. => 0
  | .loop body min _ _ => body.minWidth * min
  | .backref _ => 0
  | .taken _ => 0
  | .atomic body => body.minWidth
  | .keepOut => 0
  | .resume => 0
  | .conditional condition yes no => condition.minWidth + min yes.minWidth no.minWidth

/-- The least number of characters of patterns one after the other. -/
def minWidthSum : List Expr → Nat
  | [] => 0
  | e :: es => e.minWidth + minWidthSum es

/-- The least number of characters of one of several patterns. -/
def minWidthMin : List Expr → Nat
  | [] => 0
  | [e] => e.minWidth
  | e :: es => min e.minWidth (minWidthMin es)

end

mutual

/-- Whether the pattern always reads the same number of characters. -/
def fixedWidth : Expr → Bool
  | .empty => true
  | .any _ => true
  | .char _ _ => true
  | .set _ _ => true
  | .look _ => true
  | .seq items => allFixed items
  | .alt branches => sameWidth none branches
  | .group _ body => body.fixedWidth
  | .around .. => true
  | .loop body min max _ => body.fixedWidth && max == some min
  | .backref _ => false
  | .taken _ => true
  | .atomic body => body.fixedWidth
  | .keepOut => true
  | .resume => true
  | .conditional condition yes no =>
    condition.fixedWidth && yes.fixedWidth && no.fixedWidth &&
      condition.minWidth + yes.minWidth == no.minWidth

/-- Whether each of the patterns has a fixed width. -/
def allFixed : List Expr → Bool
  | [] => true
  | e :: es => e.fixedWidth && allFixed es

/-- Whether the patterns have one fixed width, which is `width` if that is known. -/
def sameWidth (width : Option Nat) : List Expr → Bool
  | [] => true
  | e :: es =>
    e.fixedWidth && (width.isNone || width == some e.minWidth) && sameWidth (some e.minWidth) es

end

/-! ## hardness -/

mutual

/-- Whether the pattern needs backtracking. -/
def isHard : Expr → Bool
  | .empty => false
  | .any _ => false
  | .char _ _ => false
  | .set _ _ => false
  | .look l => l == .wordEdge || l == .notWordEdge || l == .wordStart || l == .wordEnd
  | .seq items => anyHard items
  | .alt branches => anyHard branches
  | .group _ body => body.isHard
  | .around .. => true
  | .loop body _ _ _ => body.isHard
  | .backref _ => true
  | .taken _ => true
  | .atomic _ => true
  | .keepOut => true
  | .resume => true
  | .conditional .. => true

/-- Whether one of the patterns needs backtracking. -/
def anyHard : List Expr → Bool
  | [] => false
  | e :: es => e.isHard || anyHard es

end

/-! ## groups -/

mutual

/-- The groups in a pattern that is not hard. -/
def groups : Expr → List Nat
  | .seq items => groupsOf items
  | .alt branches => groupsOf branches
  | .group index body => index :: body.groups
  | .loop body _ _ _ => body.groups
  | _ => []

/-- The groups in several patterns. -/
def groupsOf : List Expr → List Nat
  | [] => []
  | e :: es => e.groups ++ groupsOf es

end

/-! ## regular expressions among them -/

mutual

/-- The text that the pattern matches, if that is one text, letter by letter. -/
def literal? : Expr → Option (List Char)
  | .char c false => some [c]
  | .seq items => literals? items
  | _ => none

/-- The text that patterns one after the other match, if that is one text. -/
def literals? : List Expr → Option (List Char)
  | [] => some []
  | e :: es => do return (← e.literal?) ++ (← literals? es)

end

/-- Whether a regular expression can have such counts: they fit 32 bits, and the upper one is not
below the lower one. -/
def areCounts (min : Nat) (max : Option Nat) : Bool :=
  min < 0x100000000 && max.all fun m => m < 0x100000000 && min ≤ m

mutual

/-- The regular expression that says the same; none for what is not one. -/
def toRegex? : Expr → Option Regex
  | .empty => some .empty
  | .any newline => some (.set (if newline then .all else .inLine false))
  | .char c ignoreCase => some (.set (.ofChar c ignoreCase))
  | .set s _ => some (.set s)
  | .look l => some (.look l)
  | .seq items => do return .concat (← toRegexes? items)
  | .alt branches => do return .either (← toRegexes? branches)
  | .group index body => do return .group index (← body.toRegex?)
  | .loop body min max greedy => do
    let r ← body.toRegex?
    if areCounts min max then some (r.repeated min max greedy) else none
  | _ => none

/-- The regular expressions of several patterns. -/
def toRegexes? : List Expr → Option (List Regex)
  | [] => some []
  | e :: es => do return (← e.toRegex?) :: (← toRegexes? es)

end

mutual

/-- How deeply groups, repetitions and sequences are nested when the pattern is written as a regular
expression in a place where alternatives (`level` above 0), sequences (above 1) and repetitions
(above 2) have to stand in a group. Modes are groups of their own. -/
def depth (level : Nat) : Expr → Nat
  | .any newline => if newline then 1 else 0
  | .char _ ignoreCase => if ignoreCase then 1 else 0
  | .set _ depth => depth
  | .look (.lineStart _) => 1
  | .look (.lineEnd _) => 1
  | .seq items => (if 1 < level then 1 else 0) + depthOf 2 items + 1
  | .alt branches => (if 0 < level then 1 else 0) + depthOf 1 branches + 1
  | .group _ body => body.depth 0 + 1
  | .loop body _ _ _ => (if 2 < level then 1 else 0) + body.depth 3 + 1
  | _ => 0

/-- How deeply the deepest of several patterns is nested. -/
def depthOf (level : Nat) : List Expr → Nat
  | [] => 0
  | e :: es => max (e.depth level) (depthOf level es)

end

/-- How deeply the pattern is nested as a part of a longer sequence. -/
def depthInRow : Expr → Nat
  | .seq items => depthOf 2 items
  | e => e.depth 1

/-- An expression that was nested that deeply when it was written, unless a limit of patterns is
passed. -/
def limited (depth : Nat) (r : Regex) : Option Regex :=
  if depth ≤ Regex.depthLimit && r.fits then some r else none

/-- The regular expression of a whole pattern. -/
def wholeRegex? (e : Expr) : Option Regex := do
  limited (e.depth 0) (← e.toRegex?)

/-- The regular expression of patterns one after the other. -/
def rowRegex? (es : List Expr) : Option Regex := do
  let depth := match es with
    | [e] => e.depth 1
    | es => (es.map depthInRow).foldl max 0 + 1
  limited depth (.concat (← toRegexes? es))

end Expr

end TypeQuery.Pattern.Backtracking
