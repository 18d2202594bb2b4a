/-!
# TypeQuery.Diagnostic

Diagnostics as a checker reports them. A message may be explained by further messages, which may be
explained in turn; in one text every explanation has a line of its own, indented by its depth.

* `MessageChain.flatten` — a chain of messages as one text
* `Diagnostic.error`, `Diagnostic.unanchored` — the two usual kinds
-/

namespace TypeQuery

/-- How serious a diagnostic is. -/
inductive DiagnosticCategory where
  | warning
  | error
  | suggestion
  | message
  deriving DecidableEq, Repr

/-- The name of a category in a report. -/
def DiagnosticCategory.label : DiagnosticCategory → String
  | .warning => "warning"
  | .error => "error"
  | .suggestion => "suggestion"
  | .message => "message"

/-- A message with the messages that explain it. -/
inductive MessageChain where
  | node (text : String) (next : List MessageChain)
  deriving Repr, Inhabited

namespace MessageChain

/-- A message that stands alone. -/
def single (text : String) : MessageChain :=
  .node text []

mutual

/-- The lines of a chain, each with its depth, where the first one has depth `depth`. -/
def lines (depth : Nat) : MessageChain → List (Nat × String)
  | .node text next => (depth, text) :: linesOfAll (depth + 1) next

/-- The lines of several chains of the same depth. -/
def linesOfAll (depth : Nat) : List MessageChain → List (Nat × String)
  | [] => []
  | chain :: chains => lines depth chain ++ linesOfAll depth chains

end

/-- One line of a flattened chain: on a new line and indented, except at depth zero. -/
def indented : Nat × String → List Char
  | (0, text) => text.toList
  | (depth + 1, text) => '\n' :: (List.replicate (2 * (depth + 1)) ' ' ++ text.toList)

/-- The chain as one text, two spaces of indentation per level. -/
def flatten (chain : MessageChain) : String :=
  String.ofList ((lines 0 chain).flatMap indented)

/-- A message that stands alone is its own text. -/
@[simp] theorem flatten_single (text : String) : (single text).flatten = text := by
  simp [flatten, single, lines, linesOfAll, indented]

end MessageChain

/-- A diagnostic for one file. -/
structure Diagnostic where
  category : DiagnosticCategory
  code : Nat
  /-- The file it points into, if any. -/
  file : Option String
  /-- Where it starts in that file. -/
  start : Option Nat
  length : Option Nat
  message : MessageChain
  deriving Repr

namespace Diagnostic

/-- An error at a place in a file. -/
def error (file : String) (start length : Nat) (text : String) (code : Nat) : Diagnostic :=
  ⟨.error, code, some file, some start, some length, .single text⟩

/-- A diagnostic that points nowhere. -/
def unanchored (category : DiagnosticCategory) (text : String) (code : Nat) : Diagnostic :=
  ⟨category, code, none, none, none, .single text⟩

end Diagnostic

end TypeQuery
