import TypeQuery.Checker
import TypeQuery.Flags.Tables
import TypeQuery.Text.Utf16

/-!
# TypeQuery.Program

Programs that are laid out in full: files with their texts, the nodes of their trees, and the types,
symbols and signatures that belong to the nodes. Types and signatures are stored as they are
written, so such a program answers all questions of a `Checker` by looking them up. What is not in
the program has the type `any`, no name and no declarations.

* `Program.checker` — the answers of a program
-/

namespace TypeQuery

/-- A file of a program. -/
structure SourceFile where
  name : String
  text : String
  lineMap : Text.LineMap
  root : NodeId
  diagnostics : List Diagnostic := []
  deriving Repr

/-- A node of a program. -/
structure Node where
  kind : String
  /-- The number of its file. -/
  file : Nat
  span : NodeSpan
  children : List NodeId := []
  symbol : Option SymbolId := none
  type : Option TypeId := none
  deriving DecidableEq, Repr

/-- A type of a program. -/
structure TypeEntry where
  /-- The type as it is written. -/
  display : String
  flags : UInt32
  symbol : Option SymbolId := none
  members : Option (List TypeId) := none
  nonNullable : Option TypeId := none
  properties : List SymbolId := []
  callSignatures : List SignatureId := []
  constructSignatures : List SignatureId := []
  deriving DecidableEq, Repr

/-- A symbol of a program. -/
structure SymbolEntry where
  name : String
  flags : UInt32
  declarations : List NodeId := []
  valueDeclaration : Option NodeId := none
  type : Option TypeId := none
  deriving DecidableEq, Repr

/-- A program. -/
structure Program where
  files : Array SourceFile
  nodes : Array Node
  types : Array TypeEntry
  symbols : Array SymbolEntry
  /-- Signatures as they are written. -/
  signatures : Array String
  deriving Repr

namespace Program

/-- The type that everything without a type has. -/
def anyType : TypeId := ⟨0⟩

/-- A program with nothing in it but the type `any`. -/
def empty : Program where
  files := #[]
  nodes := #[]
  types := #[{ display := "any", flags := Flags.anyType }]
  symbols := #[]
  signatures := #[]

/-! ## looking things up -/

/-- The first file of that name. -/
def file? (p : Program) (name : String) : Option SourceFile :=
  p.files.find? (·.name == name)

def node? (p : Program) (n : NodeId) : Option Node :=
  p.nodes[n.index]?

def type? (p : Program) (t : TypeId) : Option TypeEntry :=
  p.types[t.index]?

def symbol? (p : Program) (s : SymbolId) : Option SymbolEntry :=
  p.symbols[s.index]?

/-- The text of a node, from its first token to its end. -/
def nodeText? (p : Program) (n : NodeId) : Option String := do
  let node ← p.node? n
  let file ← p.files[node.file]?
  let upTo ← Text.takeUnits? file.text.toList node.span.stop
  let cs ← Text.dropUnits? upTo node.span.start
  return String.ofList cs

/-- The flags of a symbol. -/
def symbolFlags (p : Program) (s : SymbolId) : UInt32 :=
  ((p.symbol? s).map (·.flags)).getD 0

/-- The signatures of a type. -/
def signaturesOf (p : Program) (t : TypeId) (k : SignatureKind) : List SignatureId :=
  match p.type? t, k with
  | none, _ => []
  | some e, .call => e.callSignatures
  | some e, .construct => e.constructSignatures

/-! ## the checker -/

/-- The answers of a program. -/
def checker (p : Program) : Checker where
  root? name := (p.file? name).map (·.root)
  text? name := (p.file? name).map (·.text)
  nodeCount := p.nodes.size
  fileOf? n := (p.node? n).bind fun node => (p.files[node.file]?).map (·.name)
  span? n := (p.node? n).map (·.span)
  kind n := ((p.node? n).map (·.kind)).getD "Unknown"
  children n := ((p.node? n).map (·.children)).getD []
  nodeText? n := p.nodeText? n
  offsetOf? name pos := (p.file? name).bind (·.lineMap.offsetOf? pos)
  positionOf? name offset := (p.file? name).map (·.lineMap.positionOf offset)
  typeOf n := ((p.node? n).bind (·.type)).getD anyType
  typeText t _ _ := ((p.type? t).map (·.display)).getD "any"
  typeFlags t := ((p.type? t).map (·.flags)).getD Flags.anyType
  typeFlagTable := Flags.typeTable
  typeSymbol? t := (p.type? t).bind (·.symbol)
  nonNullable t := ((p.type? t).bind (·.nonNullable)).getD t
  unionMembers? t := (p.type? t).bind (·.members)
  properties t := ((p.type? t).map (·.properties)).getD []
  signatures t k := p.signaturesOf t k
  signatureText s _ _ := (p.signatures[s.index]?).getD ""
  symbolAt? n := (p.node? n).bind (·.symbol)
  symbolName s := ((p.symbol? s).map (·.name)).getD ""
  symbolFlags s := p.symbolFlags s
  symbolFlagTable := Flags.symbolTable
  isOptional s := p.symbolFlags s &&& Flags.optionalSymbol != 0
  declarations s := ((p.symbol? s).map (·.declarations)).getD []
  valueDeclaration? s := (p.symbol? s).bind (·.valueDeclaration)
  symbolType s _ := ((p.symbol? s).bind (·.type)).getD anyType
  diagnostics name := ((p.file? name).map (·.diagnostics)).getD []

end Program

end TypeQuery
