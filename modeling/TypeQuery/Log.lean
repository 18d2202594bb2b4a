import TypeQuery.Text.Blank

/-!
# TypeQuery.Log

Whether and how a query logs what it does. Logging is asked for by the environment: either of two
variables turns it on, a third one picks the layout. At most one logger is installed per process,
so asking again changes nothing.

* `LogFormat.parse` — the layout a name stands for
* `LogSettings.install` — whether installing the logger takes effect
-/

namespace TypeQuery

/-- The layout of log lines. -/
inductive LogFormat where
  | text
  | tree
  | json
  deriving DecidableEq, Repr

/-- The layout of that name, in any case and with blanks around it; plain text for all other
names. -/
def LogFormat.parse (name : String) : LogFormat :=
  match String.ofList ((Text.trim name.toList).map Char.toLower) with
  | "tree" => .tree
  | "json" => .json
  | _ => .text

/-- What the environment says about logging. -/
structure LogSettings where
  /-- Directives meant for this library. -/
  directives : Option String := none
  /-- Directives meant for every program; the library's own come first. -/
  sharedDirectives : Option String := none
  /-- The name of the layout. -/
  format : Option String := none
  deriving DecidableEq, Repr

namespace LogSettings

/-- The directives that count. -/
def filter? (s : LogSettings) : Option String :=
  s.directives.or s.sharedDirectives

/-- The layout that counts. -/
def layout (s : LogSettings) : LogFormat :=
  (s.format.map LogFormat.parse).getD .text

/-- Asks for a logger when one may be `installed` already. Answers whether this call installed one,
and whether one is installed afterwards. -/
def install (s : LogSettings) (installed : Bool) : Bool × Bool :=
  let done := s.filter?.isSome && !installed
  (done, installed || done)

end LogSettings

end TypeQuery
