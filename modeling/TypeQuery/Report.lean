import TypeQuery.Checker

/-!
# TypeQuery.Report

Diagnostics as they are reported. A message is one text, and the place of a diagnostic is a line and
a column; a diagnostic that points nowhere has no place.

* `Checker.report` — the diagnostics of a file
-/

namespace TypeQuery

/-- The place of a diagnostic, counted from one. -/
structure DiagnosticPlace where
  file : String
  line : Nat
  column : Nat
  deriving DecidableEq, Repr

/-- A diagnostic in an answer. Its category goes by its name. -/
structure DiagnosticSummary where
  category : String
  code : Nat
  message : String
  file : Option String
  /-- Counted from one. -/
  line : Option Nat
  /-- Counted from one. -/
  column : Option Nat
  deriving DecidableEq, Repr

/-- The place of a diagnostic, if all of it is there. -/
def DiagnosticSummary.place (s : DiagnosticSummary) : Option DiagnosticPlace := do
  return ⟨← s.file, ← s.line, ← s.column⟩

namespace Checker

/-- Where a diagnostic is, if it points into a file of the program. -/
def placeOf? (c : Checker) (d : Diagnostic) : Option DiagnosticPlace := do
  let file ← d.file
  let start ← d.start
  let p ← c.positionOf? file start
  return ⟨file, p.line + 1, p.character + 1⟩

/-- A diagnostic as it is reported, with all of its place or with nothing of it. -/
def summarize (c : Checker) (d : Diagnostic) : DiagnosticSummary :=
  let place := c.placeOf? d
  { category := d.category.label
    code := d.code
    message := d.message.flatten
    file := place.map (·.file)
    line := place.map (·.line)
    column := place.map (·.column) }

/-- The diagnostics of a file in the order of the checker. -/
def report (c : Checker) (file : String) : List DiagnosticSummary :=
  (c.diagnostics file).map c.summarize

end Checker

end TypeQuery
