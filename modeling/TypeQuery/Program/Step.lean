import TypeQuery.Program.Build

/-!
# TypeQuery.Program.Step

The steps of laying out a program as data. Every program that can be laid out comes from the empty
one by a list of steps; a step that fails keeps what it had done before, and the next one goes on
from there.

* `Step.run` — what a step does
* `Program.take` — a program after one step, with what the step answers
* `Program.layOut` — a program after a list of steps
-/

namespace TypeQuery.Program

/-- One step of laying out a program. -/
inductive Step where
  | addFile (name text : String)
  | addChild (parent : NodeId) (kind snippet : String)
  | addNode (parent : NodeId) (kind : String) (span : NodeSpan)
  | findOffset (file needle : String) (nth : Nat)
  | addSymbol (name : String) (flags : UInt32)
  | declare (symbol : SymbolId) (node : NodeId)
  | bind (node : NodeId) (symbol : SymbolId)
  | setSymbolType (symbol : SymbolId) (type : TypeId)
  | addProperty (owner : TypeId) (name : String) (type : TypeId) (optional : Bool)
  | attachProperty (owner : TypeId) (symbol : SymbolId)
  | addType (display : String) (flags : UInt32)
  | addUnion (display : String) (members : List TypeId)
  | setNonNullable (type projected : TypeId)
  | setTypeSymbol (type : TypeId) (symbol : SymbolId)
  | addSignature (type : TypeId) (kind : SignatureKind) (display : String)
  | setNodeType (node : NodeId) (type : TypeId)
  | addDiagnostic (file : String) (diagnostic : Diagnostic)
  deriving Repr

/-- What a step answers. -/
inductive Product where
  | node (n : NodeId)
  | type (t : TypeId)
  | symbol (s : SymbolId)
  | signature (s : SignatureId)
  | offset (n : Nat)
  | nothing
  deriving DecidableEq, Repr

/-- What a step does. -/
def Step.run : Step → Build Product
  | .addFile name text => .node <$> Program.addFile name text
  | .addChild parent kind snippet => .node <$> Program.addChild parent kind snippet
  | .addNode parent kind span => .node <$> Program.addNode parent kind span
  | .findOffset file needle nth => .offset <$> Program.findOffset file needle nth
  | .addSymbol name flags => .symbol <$> Program.addSymbol name flags
  | .declare s n => do
    Program.declare s n
    return .nothing
  | .bind n s => do
    Program.bind n s
    return .nothing
  | .setSymbolType s t => do
    Program.setSymbolType s t
    return .nothing
  | .addProperty owner name t optional => .symbol <$> Program.addProperty owner name t optional
  | .attachProperty owner s => do
    Program.attachProperty owner s
    return .nothing
  | .addType display flags => .type <$> Program.addType display flags
  | .addUnion display members => .type <$> Program.addUnion display members
  | .setNonNullable t projected => do
    Program.setNonNullable t projected
    return .nothing
  | .setTypeSymbol t s => do
    Program.setTypeSymbol t s
    return .nothing
  | .addSignature t kind display => .signature <$> Program.addSignature t kind display
  | .setNodeType n t => do
    Program.setNodeType n t
    return .nothing
  | .addDiagnostic file d => do
    Program.addDiagnostic file d
    return .nothing

/-- A program after one step, with what the step answers. -/
def take (p : Program) (s : Step) : Except BuildFailure Product × Program :=
  p.build s.run

/-- A program after a list of steps. -/
def layOut (p : Program) (steps : List Step) : Program :=
  steps.foldl (fun p s => (p.take s).2) p

end TypeQuery.Program
