import TypeQuery.Facts
import TypeQuery.Json.Printer
import TypeQuery.Query.Location
import TypeQuery.Report

/-!
# TypeQuery.Record

Answers. A record holds everything about one place: where it is, which node is there, the facts
about the node and the diagnostics of the file. Every list is there even when it is empty, and what
has no value is left out.

* `Record.without` — a record with some of its lists empty
* `Record.toJson`, `Record.render` — a record as JSON
-/

namespace TypeQuery

/-- A complete answer. -/
structure Record where
  file : String
  /-- The configuration file of the project, if there is one. -/
  project : Option String
  location : Location
  nodeKind : String
  facts : Facts
  diagnostics : List DiagnosticSummary
  deriving DecidableEq, Repr

/-! ## omissions -/

/-- The record without the lists that are not wanted. -/
def Record.without (r : Record) (o : Omissions) : Record :=
  { r with
    diagnostics := if o.diagnostics then [] else r.diagnostics
    facts :=
      { r.facts with
        properties := if o.properties then [] else r.facts.properties
        signatures := if o.signatures then [] else r.facts.signatures } }

/-! ## as JSON -/

/-- A field that is left out when it has no value. -/
def Json.optionalField {α : Type} (name : String) (toJson : α → Json) :
    Option α → List (String × Json)
  | some a => [(name, toJson a)]
  | none => []

/-- A mask with its names. -/
def FlagSummary.toJson (s : FlagSummary) : Json :=
  .object [("flags", .nat s.mask.toNat), ("names", .list (s.names.map .text))]

/-- A symbol. -/
def SymbolSummary.toJson (s : SymbolSummary) : Json :=
  .object [("name", .text s.name), ("flags", s.flags.toJson)]

/-- A signature. -/
def SignatureSummary.toJson (s : SignatureSummary) : Json :=
  .object [("kind", .text s.kind.label), ("text", .text s.text)]

/-- A property. -/
def PropertySummary.toJson (p : PropertySummary) : Json :=
  .object [("name", .text p.name), ("type", .text p.typeText), ("optional", .bool p.optional)]

/-- A declaration. -/
def DeclarationSummary.toJson (d : DeclarationSummary) : Json :=
  .object [("file", .text d.file), ("line", .nat d.line), ("column", .nat d.column),
    ("kind", .text d.kind), ("snippet", .text d.snippet)]

/-- A diagnostic. -/
def DiagnosticSummary.toJson (d : DiagnosticSummary) : Json :=
  .object ([("category", .text d.category), ("code", .nat d.code), ("message", .text d.message)] ++
    Json.optionalField "file" .text d.file ++ Json.optionalField "line" .nat d.line ++
    Json.optionalField "column" .nat d.column)

namespace Record

/-- The line, column and offset of a location. -/
def positionJson (l : Location) : Json :=
  .object [("line", .nat l.line), ("column", .nat l.column), ("offset", .nat l.offset)]

/-- A record. -/
def toJson (r : Record) : Json :=
  .object (
    ("file", .text r.file) ::
    Json.optionalField "project" .text r.project ++
    [("position", positionJson r.location),
      ("matchedText", .text r.location.matchedText),
      ("nodeKind", .text r.nodeKind),
      ("typeString", .text r.facts.typeText),
      ("typeFlags", r.facts.typeFlags.toJson)] ++
    Json.optionalField "symbol" SymbolSummary.toJson r.facts.symbol ++
    [("signatures", .list (r.facts.signatures.map SignatureSummary.toJson)),
      ("properties", .list (r.facts.properties.map PropertySummary.toJson)),
      ("declarations", .list (r.facts.declarations.map DeclarationSummary.toJson)),
      ("diagnostics", .list (r.diagnostics.map DiagnosticSummary.toJson))])

/-- How the text of a record is laid out. -/
inductive Layout where
  | compact
  | pretty
  deriving DecidableEq, Repr

/-- A record as text. -/
def render (r : Record) : Layout → String
  | .compact => r.toJson.compact
  | .pretty => r.toJson.pretty

end Record

end TypeQuery
