import TypeQuery.Pattern.Backtracking.Machine
import TypeQuery.Pattern.Backtracking.Parser
import TypeQuery.Query
import TypeQuery.Text.Utf16

/-!
# TypeQuery.Pattern.Matcher

Finding the matches of a pattern. A pattern is tried as a regular expression first, with carriage
returns as part of line ends; what is refused there is tried with backtracking, where a line ends
with a line feed alone. Matches are taken one after the other: the next search begins where the
last match ended, and one character further on after an empty match.

* `Matcher.build` — the matcher of a pattern with flags
* `Matcher.findFrom` — the first match from a place on
* `Matcher.select` — the match with a given number
-/

namespace TypeQuery.Pattern

/-- A pattern that is ready to be searched for. -/
inductive Matcher where
  | automaton (a : Automaton)
  | backtracking (p : Backtracking.Program)

/-- A search gave up. -/
inductive GaveUp where
  | gaveUp
  deriving DecidableEq, Repr

/-- A match: where it starts and where it ends, counted in characters. -/
structure Span where
  start : Nat
  stop : Nat
  deriving DecidableEq, Repr

namespace Matcher

/-! ## building -/

/-- The letters of `flags` that set modes, in their order; a letter that is no flag is a fault. The
letters `g` and `u` ask for what is done anyway. -/
def modeLetters (flags : String) : List Char → Except QueryFault (List Char)
  | [] => .ok []
  | c :: cs =>
    if c == 'g' || c == 'u' then modeLetters flags cs
    else if c == 'i' || c == 'm' || c == 's' then (modeLetters flags cs).map (c :: ·)
    else .error (.unsupportedFlag c flags)

/-- The modes of a regular expression with these letters. -/
def modes (letters : List Char) : Flags where
  ignoreCase := letters.contains 'i'
  multiLine := letters.contains 'm'
  dotAll := letters.contains 's'
  crlf := true

/-- The pattern with the letters in front of it. -/
def withLetters (letters : List Char) (pattern : List Char) : List Char :=
  if letters.isEmpty then pattern else "(?".toList ++ letters ++ ')' :: pattern

/-- The matcher of a pattern in the backtracking notation, which is an automaton if nothing in the
pattern is hard. -/
def ofBacktracking? (pattern : List Char) : Option Matcher := do
  let parsed ← Backtracking.parse? pattern
  if parsed.expr.isHard then
    return .backtracking (← Backtracking.Program.ofExpr? parsed.groups parsed.expr)
  else return .automaton (.ofRegex (← parsed.expr.wholeRegex?))

/-- The matcher of a pattern with flags. -/
def build (pattern flags : String) : Except QueryFault Matcher := do
  let letters ← modeLetters flags flags.toList
  match Regex.parse? (modes letters) pattern.toList with
  | some r => return .automaton (.ofRegex r)
  | none =>
    match ofBacktracking? (withLetters letters pattern.toList) with
    | some m => return m
    | none => throw (.invalidPattern pattern)

/-! ## searching -/

/-- The first match that begins at place `i` of the text or after it. -/
def findFrom (m : Matcher) (text : Array Char) (i : Nat) : Except GaveUp (Option Span) :=
  match m with
  | .automaton a => .ok ((a.search text i).map fun (start, stop) => ⟨start, stop⟩)
  | .backtracking p =>
    match p.search text i with
    | .found start stop => .ok (some ⟨start, stop⟩)
    | .missing => .ok none
    | .gaveUp => .error .gaveUp

/-- Where the search goes on after a match. -/
def resumeAfter (s : Span) : Nat :=
  if s.start < s.stop then s.stop else s.stop + 1

/-- What became of the search for one of the matches. -/
inductive Selection where
  | found (s : Span)
  /-- There are only that many matches. -/
  | only (count : Nat)
  deriving DecidableEq, Repr

/-- Goes on from place `i` by `index` matches, when `seen` matches were found so far. -/
def selectFrom (find : Nat → Except GaveUp (Option Span)) (size : Nat) :
    Nat → Nat → Nat → Except GaveUp Selection
  | index, seen, i => do
    if size < i then return .only seen
    match ← find i with
    | none => return .only seen
    | some s =>
      match index with
      | 0 => return .found s
      | index + 1 => selectFrom find size index (seen + 1) (resumeAfter s)

/-- The match with number `index`, counted from zero. -/
def select (m : Matcher) (text : Array Char) (index : Nat) : Except GaveUp Selection :=
  selectFrom (m.findFrom text) text.size index 0 0

end Matcher

end TypeQuery.Pattern
