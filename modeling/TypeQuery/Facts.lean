import TypeQuery.Checker
import TypeQuery.Query
import TypeQuery.Text.Snippet
import TypeQuery.Text.Sorted

/-!
# TypeQuery.Facts

What a checker knows about a node: its type, its symbol, the signatures and properties of the type
and the declarations of the symbol. Types are always written in the same format, and every list is
bounded, so the same node has the same facts wherever a query comes from.

* `Checker.propertyFacts` — the properties of a type, those of a union merged by name
* `Checker.facts` — all facts about a node
-/

namespace TypeQuery

/-! ## facts -/

/-- A symbol. -/
structure SymbolSummary where
  name : String
  flags : FlagSummary
  deriving DecidableEq, Repr

/-- A signature. -/
structure SignatureSummary where
  kind : SignatureKind
  text : String
  deriving DecidableEq, Repr

/-- A property. -/
structure PropertySummary where
  name : String
  typeText : String
  optional : Bool
  deriving DecidableEq, Repr

/-- A declaration. -/
structure DeclarationSummary where
  file : String
  /-- The line of the first token, counted from one. -/
  line : Nat
  /-- The column of the first token, counted from one. -/
  column : Nat
  kind : String
  snippet : String
  deriving DecidableEq, Repr

/-- What is known about a node. -/
structure Facts where
  typeText : String
  typeFlags : FlagSummary
  symbol : Option SymbolSummary
  signatures : List SignatureSummary
  properties : List PropertySummary
  declarations : List DeclarationSummary
  deriving DecidableEq, Repr

namespace Checker

/-! ## signatures -/

/-- The first signatures of one kind. -/
def signatureFacts (c : Checker) (node : NodeId) (t : TypeId) (limit : Nat)
    (kind : SignatureKind) : List SignatureSummary :=
  ((c.signatures t kind).take limit).map fun s =>
    ⟨kind, c.signatureText s node TypeFormat.verbose⟩

/-! ## properties -/

/-- The types whose properties are merged: the members of a union, or the type alone. -/
def memberTypes (c : Checker) (t : TypeId) : List TypeId :=
  (c.unionMembers? t).getD [t]

/-- The first property of that name. -/
def propertyNamed? (c : Checker) (name : String) (t : TypeId) : Option SymbolId :=
  (c.properties t).find? fun s => c.symbolName s == name

/-- The names of all properties of the types, in order. -/
def propertyNames (c : Checker) (ts : List TypeId) : List String :=
  Text.sorted (ts.flatMap fun t => (c.properties t).map c.symbolName)

/-- Where the type of a property is read and written: where its value is declared, or else where it
is first declared, or else at the node. -/
def propertySite (c : Checker) (node : NodeId) (s : SymbolId) : NodeId :=
  ((c.valueDeclaration? s).or (c.declarations s).head?).getD node

/-- The property of that name of a type without `null` and `undefined`. It is optional if a member
says so or if a union has a member without it. Its type is that of the first member that has it. -/
def property? (c : Checker) (node : NodeId) (t : TypeId) (name : String) :
    Option PropertySummary := do
  let entries := (c.memberTypes t).map (c.propertyNamed? name)
  let s ← entries.findSome? id
  let site := c.propertySite node s
  let declaredOptional := entries.any (·.any c.isOptional)
  let lacking := (c.unionMembers? t).isSome && entries.any (·.isNone)
  return ⟨name, c.typeText (c.symbolType s site) site TypeFormat.verbose,
    declaredOptional || lacking⟩

/-- The first properties of a type in the order of their names. -/
def propertyFacts (c : Checker) (node : NodeId) (t : TypeId) (limit : Nat) :
    List PropertySummary :=
  let t := c.nonNullable t
  ((c.propertyNames (c.memberTypes t)).take limit).filterMap (c.property? node t)

/-! ## declarations -/

/-- A declaration, if the program has it. -/
def declaration? (c : Checker) (bound : Nat) (n : NodeId) : Option DeclarationSummary := do
  let file ← c.fileOf? n
  let span ← c.span? n
  let p ← c.positionOf? file span.start
  return ⟨file, p.line + 1, p.character + 1, c.kind n,
    Text.condenseText ((c.nodeText? n).getD "") bound⟩

/-- The first declarations of a symbol. -/
def declarationFacts (c : Checker) (s : SymbolId) (limits : Limits) : List DeclarationSummary :=
  ((c.declarations s).take limits.declarations).filterMap (c.declaration? limits.snippet)

/-! ## all of them -/

/-- The symbol of a node: the one it is bound to, or else the one of its type. -/
def symbolOf? (c : Checker) (node : NodeId) : Option SymbolId :=
  (c.symbolAt? node).or (c.typeSymbol? (c.typeOf node))

/-- The facts about a node. -/
def facts (c : Checker) (node : NodeId) (limits : Limits) : Facts :=
  let t := c.typeOf node
  let symbol := c.symbolOf? node
  { typeText := c.typeText t node TypeFormat.verbose
    typeFlags := Flags.summarize (c.typeFlags t) c.typeFlagTable
    symbol := symbol.map fun s =>
      ⟨c.symbolName s, Flags.summarize (c.symbolFlags s) c.symbolFlagTable⟩
    signatures := c.signatureFacts node t limits.signatures .call ++
      c.signatureFacts node t limits.signatures .construct
    properties := c.propertyFacts node t limits.properties
    declarations := (symbol.map (c.declarationFacts · limits)).getD [] }

end Checker

end TypeQuery
