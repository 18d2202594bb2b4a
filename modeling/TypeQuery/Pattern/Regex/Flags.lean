/-!
# TypeQuery.Pattern.Regex.Flags

The modes of a pattern. They can be set from outside and changed inside the pattern, where a change
holds up to the end of the group it stands in.
-/

namespace TypeQuery.Pattern

/-- The modes in which a piece of a pattern is read. -/
structure Flags where
  /-- Letters match in all their cases. -/
  ignoreCase : Bool := false
  /-- `^` and `$` match at the ends of every line. -/
  multiLine : Bool := false
  /-- `.` matches line ends as well. -/
  dotAll : Bool := false
  /-- Repetitions are lazy, and greedy when they are marked. -/
  swapGreed : Bool := false
  /-- Carriage returns are part of line ends. -/
  crlf : Bool := false
  /-- Blanks and comments in the pattern are left out. -/
  extended : Bool := false
  deriving DecidableEq, Repr

end TypeQuery.Pattern
