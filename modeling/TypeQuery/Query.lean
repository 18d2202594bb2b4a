import TypeQuery.Json
import TypeQuery.Path

/-!
# TypeQuery.Query

Queries. A query names a file, perhaps a project, and a place in the file: a line and a column, or
a pattern and which of its matches is meant. Callers supply loose arguments; `QueryArgs.validate`
turns them into a query when they name exactly one place.

* `QueryArgs.ofJson?`, `QueryArgs.validate`
* `Limits.ofJson?`, `Options` — how much an answer may hold
* `QueryFault.message`
-/

namespace TypeQuery

/-! ## queries -/

/-- A place in a file. -/
inductive Target where
  /-- A line and a column, both counted from one. -/
  | position (line column : Nat)
  /-- A match of a pattern, counted from zero. -/
  | pattern (pattern : String) (flags : Option String) (index : Nat)
  deriving DecidableEq, Repr

/-- Which file, which project, and where in the file. -/
structure Query where
  file : Path
  /-- A configuration file or its directory; looked for when absent. -/
  project : Option Path
  target : Target
  deriving DecidableEq, Repr

/-- A query as a caller writes it. -/
structure QueryArgs where
  file : Path
  project : Option Path := none
  line : Option Int := none
  column : Option Int := none
  pattern : Option String := none
  flags : Option String := none
  index : Option Nat := none
  deriving DecidableEq, Repr

/-! ## faults -/

/-- What is wrong with a query. -/
inductive QueryFault where
  /-- Neither a position nor a pattern. -/
  | noTarget
  /-- Both a position and a pattern. -/
  | twoTargets
  /-- A line without a column or a column without a line. -/
  | halfPosition (line column : Option Int)
  /-- A line or column that is no positive 32-bit number. -/
  | notPositive (what : String) (value : Int)
  /-- A line or column that is zero. -/
  | zeroPosition (line column : Nat)
  /-- A position that the file does not have. -/
  | outsideFile (line column : Nat) (file : String)
  /-- An offset in a file that the program does not have. -/
  | offsetOutside (offset : Nat) (file : String)
  /-- A flag that no pattern has. -/
  | unsupportedFlag (flag : Char) (flags : String)
  /-- A pattern that no matcher accepts. -/
  | invalidPattern (pattern : String)
  /-- A search that took too many steps. -/
  | searchGaveUp
  /-- Fewer matches than the index asks for. -/
  | tooFewMatches (pattern flags : String) (found : Nat) (file : String) (index : Nat)
  deriving DecidableEq, Repr

namespace QueryFault

/-- A number that may be absent. -/
def describe : Option Int → String
  | none => "none"
  | some n => toString n

/-- The fault in words. -/
def message : QueryFault → String
  | .noTarget => "expected either a line/column position or a pattern"
  | .twoTargets => "a position and a pattern cannot be combined"
  | .halfPosition line column =>
    "a position needs both line and column (got line " ++ describe line ++ ", column " ++
      describe column ++ ")"
  | .notPositive what value =>
    what ++ " must be a positive integer, got " ++ toString value
  | .zeroPosition line column =>
    "line and column are 1-based (got line " ++ toString line ++ ", column " ++ toString column ++
      ")"
  | .outsideFile line column file =>
    "line " ++ toString line ++ ", column " ++ toString column ++ " is outside " ++ file
  | .offsetOutside offset file => "offset " ++ toString offset ++ " is outside " ++ file
  | .unsupportedFlag flag flags =>
    "unsupported pattern flag '" ++ flag.toString ++ "' in '" ++ flags ++ "'"
  | .invalidPattern pattern => "invalid pattern /" ++ pattern ++ "/"
  | .searchGaveUp => "pattern search failed"
  | .tooFewMatches pattern flags found file index =>
    "pattern /" ++ pattern ++ "/" ++ flags ++ " matched " ++ toString found ++ " time(s) in " ++
      file ++ "; index " ++ toString index ++ " is out of range"

end QueryFault

/-! ## validation -/

/-- A line or column as a number from 1 to 2^32 - 1. -/
def positive (what : String) (value : Int) : Except QueryFault Nat :=
  if 0 < value && value < 0x100000000 then .ok value.toNat else .error (.notPositive what value)

/-- The target that a line, a column and a pattern name, if they name exactly one. -/
def QueryArgs.target (args : QueryArgs) : Except QueryFault Target :=
  match args.line, args.column, args.pattern with
  | none, none, some pattern => .ok (.pattern pattern args.flags (args.index.getD 0))
  | some line, some column, none => do
    let line ← positive "line" line
    let column ← positive "column" column
    return .position line column
  | none, none, none => .error .noTarget
  | some _, some _, some _ => .error .twoTargets
  | line, column, _ => .error (.halfPosition line column)

/-- The query that the arguments stand for. -/
def QueryArgs.validate (args : QueryArgs) : Except QueryFault Query := do
  return ⟨args.file, args.project, ← args.target⟩

/-! ## decoding -/

/-- A group of named values, given as an object or as a list in a fixed order; a list that is too
long stands for nothing. What is not given is looked up as `none`. -/
def Json.namedValues? (names : List String) (v : Json) : Option (String → Option Json) :=
  match v with
  | .object _ => some fun name => v.field? name
  | .list items =>
    if items.length ≤ names.length then
      some fun name => ((names.zip items).find? (·.1 == name)).map (·.2)
    else none
  | _ => none

/-- An absent value or `null`, or else a value that `read` accepts. -/
def Json.optional? {α : Type} (read : Json → Option α) : Option Json → Option (Option α)
  | none => some none
  | some .null => some none
  | some v => (read v).map some

/-- A string. -/
def Json.text? : Json → Option String
  | .text s => some s
  | _ => none

/-- A string as a path. -/
def Json.path? (v : Json) : Option Path :=
  v.text?.map Path.mk

/-- A signed 64-bit integer. -/
def Json.int64? : Json → Option Int
  | .number (.integer n) => if n < 0x8000000000000000 then some n else none
  | _ => none

/-- An unsigned 64-bit integer. -/
def Json.nat64? : Json → Option Nat
  | .number (.integer (.ofNat n)) => some n
  | _ => none

/-- The arguments that a JSON value describes. -/
def QueryArgs.ofJson? (v : Json) : Option QueryArgs := do
  let get ← v.namedValues? ["file", "project", "line", "column", "pattern", "flags", "index"]
  return {
    file := ← (← get "file").path?
    project := ← Json.optional? Json.path? (get "project")
    line := ← Json.optional? Json.int64? (get "line")
    column := ← Json.optional? Json.int64? (get "column")
    pattern := ← Json.optional? Json.text? (get "pattern")
    flags := ← Json.optional? Json.text? (get "flags")
    index := ← Json.optional? Json.nat64? (get "index") }

/-! ## options -/

/-- How much an answer may hold. -/
structure Limits where
  /-- Of call signatures, and again of construct signatures. -/
  signatures : Nat := 5
  properties : Nat := 25
  declarations : Nat := 10
  /-- Units of a declaration's snippet, the ellipsis among them. -/
  snippet : Nat := 200
  deriving DecidableEq, Repr

/-- A limit that is given, or else its default. -/
def Limits.orDefault? (default : Nat) : Option Json → Option Nat
  | none => some default
  | some v => v.nat64?

/-- The limits that a JSON value describes. -/
def Limits.ofJson? (v : Json) : Option Limits := do
  let get ← v.namedValues? ["maxSignatures", "maxProperties", "maxDeclarations", "maxSnippetLen"]
  let base : Limits := {}
  return {
    signatures := ← orDefault? base.signatures (get "maxSignatures")
    properties := ← orDefault? base.properties (get "maxProperties")
    declarations := ← orDefault? base.declarations (get "maxDeclarations")
    snippet := ← orDefault? base.snippet (get "maxSnippetLen") }

/-- Lists that an answer leaves empty. -/
structure Omissions where
  diagnostics : Bool := false
  properties : Bool := false
  signatures : Bool := false
  deriving DecidableEq, Repr

/-- Options of one query. -/
structure Options where
  limits : Limits := {}
  omissions : Omissions := {}
  deriving DecidableEq, Repr

end TypeQuery
