import TypeQuery.Diagnostic
import TypeQuery.Flags
import TypeQuery.Text.LineMap

/-!
# TypeQuery.Checker

What a query asks of a type checker. This library infers no types: it asks a checker which node is
where, which type and symbol a node has, how types are written, and which diagnostics a file has. A
`Checker` is the answers to these questions, for one program. Nodes, types, symbols and signatures
are only known by number; offsets are UTF-16 offsets into the text of a file.
-/

namespace TypeQuery

/-! ## names for things in a program -/

/-- A node of a syntax tree. -/
structure NodeId where
  index : Nat
  deriving DecidableEq, Repr

/-- A type. -/
structure TypeId where
  index : Nat
  deriving DecidableEq, Repr

/-- A symbol. -/
structure SymbolId where
  index : Nat
  deriving DecidableEq, Repr

/-- A call or construct signature. -/
structure SignatureId where
  index : Nat
  deriving DecidableEq, Repr

/-- Whether a signature is called or constructed with `new`. -/
inductive SignatureKind where
  | call
  | construct
  deriving DecidableEq, Repr

/-- The name of a kind of signature in an answer. -/
def SignatureKind.label : SignatureKind → String
  | .call => "call"
  | .construct => "construct"

/-! ## spans -/

/-- Where a node stands in the text of its file. -/
structure NodeSpan where
  /-- The start with the blanks and comments before the node. -/
  pos : Nat
  /-- The start of the first token. -/
  start : Nat
  /-- The end. -/
  stop : Nat
  deriving DecidableEq, Repr

/-- Whether the offset is in the span, blanks and comments before the node and the end included. -/
def NodeSpan.contains (s : NodeSpan) (offset : Nat) : Bool :=
  s.pos ≤ offset && offset ≤ s.stop

/-! ## how types are written -/

/-- How a type or signature is written out. -/
structure TypeFormat where
  /-- Members are never left out. -/
  noTruncation : Bool
  /-- A type is written with the namespace it is in. -/
  useFullyQualifiedType : Bool
  /-- Function types are written with an arrow. -/
  writeArrowStyleSignature : Bool
  /-- Optional members are written with `undefined`. -/
  addUndefined : Bool
  /-- Aliases are used where they are not in scope, too. -/
  useAliasDefinedOutsideCurrentScope : Bool
  deriving DecidableEq, Repr

namespace TypeFormat

/-- The one format of all answers, so that they never depend on where a query comes from. -/
def verbose : TypeFormat :=
  ⟨true, true, true, true, true⟩

/-- The format as a mask. -/
def bits (f : TypeFormat) : Nat :=
  f.noTruncation.toNat + 2 * f.useFullyQualifiedType.toNat + 4 * f.writeArrowStyleSignature.toNat +
    8 * f.addUndefined.toNat + 16 * f.useAliasDefinedOutsideCurrentScope.toNat

end TypeFormat

/-! ## the questions -/

/-- The answers of a checker about one program. -/
structure Checker where
  /-- The root of a file's tree. -/
  root? : String → Option NodeId
  /-- The text of a file. -/
  text? : String → Option String
  /-- The number of nodes. -/
  nodeCount : Nat
  /-- The file of a node. -/
  fileOf? : NodeId → Option String
  span? : NodeId → Option NodeSpan
  /-- The name of a node's kind. -/
  kind : NodeId → String
  /-- Children in the order of the text. -/
  children : NodeId → List NodeId
  /-- The text of a node without the blanks and comments before it. -/
  nodeText? : NodeId → Option String
  offsetOf? : String → Text.Position → Option Nat
  positionOf? : String → Nat → Option Text.Position
  typeOf : NodeId → TypeId
  /-- A type as it is written at a node. -/
  typeText : TypeId → NodeId → TypeFormat → String
  typeFlags : TypeId → UInt32
  typeFlagTable : List FlagConstant
  typeSymbol? : TypeId → Option SymbolId
  /-- The type without `null` and `undefined`. -/
  nonNullable : TypeId → TypeId
  /-- The members of a union. -/
  unionMembers? : TypeId → Option (List TypeId)
  properties : TypeId → List SymbolId
  signatures : TypeId → SignatureKind → List SignatureId
  /-- A signature as it is written at a node. -/
  signatureText : SignatureId → NodeId → TypeFormat → String
  /-- The symbol that a node is bound to. -/
  symbolAt? : NodeId → Option SymbolId
  symbolName : SymbolId → String
  symbolFlags : SymbolId → UInt32
  symbolFlagTable : List FlagConstant
  isOptional : SymbolId → Bool
  declarations : SymbolId → List NodeId
  /-- The declaration that introduces a symbol's value. -/
  valueDeclaration? : SymbolId → Option NodeId
  /-- The type of a symbol as seen from a node. -/
  symbolType : SymbolId → NodeId → TypeId
  /-- The diagnostics of a file. -/
  diagnostics : String → List Diagnostic

namespace Checker

/-- The checker with every written type and signature followed by where and how it was written. -/
def annotated (c : Checker) : Checker :=
  let note (text : String) (n : NodeId) (f : TypeFormat) : String :=
    text ++ "@" ++ toString n.index ++ "#" ++ toString f.bits
  { c with
    typeText := fun t n f => note (c.typeText t n f) n f
    signatureText := fun s n f => note (c.signatureText s n f) n f }

/-- The checker without the knowledge of value declarations. -/
def withoutValueDeclarations (c : Checker) : Checker :=
  { c with valueDeclaration? := fun _ => none }

end Checker

end TypeQuery
