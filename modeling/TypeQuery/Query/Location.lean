import TypeQuery.Checker
import TypeQuery.Pattern.Matcher

/-!
# TypeQuery.Query.Location

From a target to an exact place. A position is looked up in the line map of the file; a pattern is
searched for in a text, and the match with the wanted number counts. Lines and columns of queries
and answers are counted from one, those of a checker from zero.

* `Checker.resolve` — the location of a target
-/

namespace TypeQuery

/-- Where a query landed. -/
structure Location where
  /-- Units before the place, counted from zero. -/
  offset : Nat
  /-- Counted from one. -/
  line : Nat
  /-- Counted from one. -/
  column : Nat
  /-- What a pattern matched; empty for a position. -/
  matchedText : String
  deriving DecidableEq, Repr

namespace Query

/-- Pattern flags with `g` among them: all matches are looked at in any case. -/
def globalFlags (flags : Option String) : String :=
  let flags := flags.getD ""
  if flags.toList.contains 'g' then flags else flags ++ "g"

end Query

namespace Checker

/-- The location of a line and a column, both counted from one. -/
def resolvePosition (c : Checker) (file : String) (line column : Nat) :
    Except QueryFault Location :=
  if line = 0 ∨ column = 0 then .error (.zeroPosition line column)
  else
    match c.offsetOf? file ⟨line - 1, column - 1⟩ with
    | none => .error (.outsideFile line column file)
    | some offset => .ok ⟨offset, line, column, ""⟩

/-- The location of a match in the characters of a text. -/
def resolveSpan (c : Checker) (file : String) (text : List Char) (s : Pattern.Span) :
    Except QueryFault Location :=
  let offset := Text.unitLength (text.take s.start)
  match c.positionOf? file offset with
  | none => .error (.offsetOutside offset file)
  | some p =>
    .ok ⟨offset, p.line + 1, p.character + 1,
      String.ofList ((text.drop s.start).take (s.stop - s.start))⟩

/-- The location of the match with number `index`, counted from zero. -/
def resolvePattern (c : Checker) (file text pattern : String) (flags : Option String)
    (index : Nat) : Except QueryFault Location := do
  let flags := Query.globalFlags flags
  let matcher ← Pattern.Matcher.build pattern flags
  match matcher.select text.toList.toArray index with
  | .error _ => throw .searchGaveUp
  | .ok (.only found) => throw (.tooFewMatches pattern flags found file index)
  | .ok (.found span) => c.resolveSpan file text.toList span

/-- The location of a target in a file, whose text is searched for patterns. -/
def resolve (c : Checker) (file text : String) : Target → Except QueryFault Location
  | .position line column => c.resolvePosition file line column
  | .pattern pattern flags index => c.resolvePattern file text pattern flags index

end Checker

end TypeQuery
