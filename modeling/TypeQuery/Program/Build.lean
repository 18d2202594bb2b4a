import TypeQuery.Program
import TypeQuery.Text.Quoted

/-!
# TypeQuery.Program.Build

Laying out a program step by step. Nodes are placed by the text they cover: a child is looked for
behind its last sibling, and what is passed over on the way are the blanks and comments before it.
A step that cannot be taken fails, and keeps what it had done before.

* `Build` — a step that changes a program and may fail
* `addFile`, `addChild`, `addNode`, `findOffset` — files and nodes
* `addSymbol`, `declare`, `bind`, … — symbols
* `addType`, `addUnion`, `addSignature`, … — types
-/

namespace TypeQuery.Program

/-! ## steps -/

/-- Why a step cannot be taken. -/
inductive BuildFailure where
  /-- A number that nothing in the program has. -/
  | unknownId
  | unknownFile (name : String)
  /-- A sibling ends between the two units of a character. -/
  | splitCharacter (offset : Nat)
  /-- The text of the child does not come up any more. -/
  | snippetMissing (snippet : String) (offset : Nat) (kind : String)
  /-- The text of the child comes up behind its parent's end. -/
  | snippetTooLong (snippet : String) (stop bound : Nat)
  | tooFewOccurrences (needle : String) (wanted : Nat)
  deriving DecidableEq, Repr

/-- The failure in words. -/
def BuildFailure.message : BuildFailure → String
  | .unknownId => "index out of bounds"
  | .unknownFile name => "unknown fixture file " ++ name
  | .splitCharacter offset => "offset " ++ toString offset ++ " is not a character boundary"
  | .snippetMissing snippet offset kind =>
    "snippet " ++ Text.quote snippet ++ " not found after offset " ++ toString offset ++ " for " ++
      kind
  | .snippetTooLong snippet stop bound =>
    "snippet " ++ Text.quote snippet ++ " extends past its parent (end " ++ toString stop ++ " > " ++
      toString bound ++ ")"
  | .tooFewOccurrences needle wanted =>
    Text.quote needle ++ " occurs fewer than " ++ toString wanted ++ " times"

/-- A step. What it has changed stays changed when it fails. -/
abbrev Build (α : Type) := ExceptT BuildFailure (StateM Program) α

/-- The thing with that number, or failure. -/
def known {α : Type} : Option α → Build α
  | some a => return a
  | none => throw .unknownId

/-- Changes a node. -/
def modifyNode (n : NodeId) (f : Node → Node) : Build Unit := do
  let _ ← known ((← get).node? n)
  modify fun p => { p with nodes := p.nodes.modify n.index f }

/-- Changes a type. -/
def modifyType (t : TypeId) (f : TypeEntry → TypeEntry) : Build Unit := do
  let _ ← known ((← get).type? t)
  modify fun p => { p with types := p.types.modify t.index f }

/-- Changes a symbol. -/
def modifySymbol (s : SymbolId) (f : SymbolEntry → SymbolEntry) : Build Unit := do
  let _ ← known ((← get).symbol? s)
  modify fun p => { p with symbols := p.symbols.modify s.index f }

/-! ## files and nodes -/

/-- Adds a node that has no parent yet. -/
def pushNode (node : Node) : Build NodeId := do
  let p ← get
  set { p with nodes := p.nodes.push node }
  return ⟨p.nodes.size⟩

/-- Adds a file and answers the root of its tree. -/
def addFile (name text : String) : Build NodeId := do
  let lineMap := Text.LineMap.ofText text.toList
  let file := (← get).files.size
  let root ← pushNode { kind := "SourceFile", file := file, span := ⟨0, 0, lineMap.length⟩ }
  modify fun p => { p with files := p.files.push ⟨name, text, lineMap, root, []⟩ }
  return root

/-- Adds a child with a given span. -/
def addNode (parent : NodeId) (kind : String) (span : NodeSpan) : Build NodeId := do
  let node ← known ((← get).node? parent)
  let child ← pushNode { kind := kind, file := node.file, span := span }
  modifyNode parent fun n => { n with children := n.children ++ [child] }
  return child

/-- The offset at which the needle first stands in the text, which begins at offset `here`. -/
def findFrom? (needle : List Char) (here : Nat) : List Char → Option Nat
  | [] => if needle.isEmpty then some here else none
  | c :: cs =>
    if needle.isPrefixOf (c :: cs) then some here else findFrom? needle (here + Text.units c) cs

/-- Where the next child of a node is looked for: behind its last child, or at its first token. -/
def cursor (p : Program) (node : Node) : Nat :=
  ((node.children.getLast?.bind p.node?).map (·.span.stop)).getD node.span.start

/-- Adds a child that covers the next occurrence of a text in its parent. -/
def addChild (parent : NodeId) (kind snippet : String) : Build NodeId := do
  let p ← get
  let node ← known (p.node? parent)
  let file ← known p.files[node.file]?
  let pos := cursor p node
  match Text.dropUnits? file.text.toList pos with
  | none => throw (.splitCharacter pos)
  | some rest =>
    match findFrom? snippet.toList pos rest with
    | none => throw (.snippetMissing snippet pos kind)
    | some start =>
      let stop := start + Text.unitLength snippet.toList
      if node.span.stop < stop then throw (.snippetTooLong snippet stop node.span.stop)
      addNode parent kind ⟨pos, start, stop⟩

/-- The offsets of a needle in a text that begins at offset `here`, without overlaps: `skip` is the
number of characters that belong to the last occurrence. The empty needle stands everywhere. -/
def occurrencesFrom (needle : List Char) (skip here : Nat) : List Char → List Nat
  | [] => if needle.isEmpty then [here] else []
  | c :: cs =>
    let next := here + Text.units c
    match skip with
    | skip + 1 => occurrencesFrom needle skip next cs
    | 0 =>
      if needle.isPrefixOf (c :: cs) then
        here :: occurrencesFrom needle (needle.length - 1) next cs
      else occurrencesFrom needle 0 next cs

/-- The offset of an occurrence of a needle in a file, counted from zero. -/
def findOffset (name needle : String) (nth : Nat) : Build Nat := do
  match (← get).file? name with
  | none => throw (.unknownFile name)
  | some file =>
    match (occurrencesFrom needle.toList 0 0 file.text.toList)[nth]? with
    | none => throw (.tooFewOccurrences needle (nth + 1))
    | some offset => return offset

/-! ## symbols -/

/-- Adds a symbol. -/
def addSymbol (name : String) (flags : UInt32) : Build SymbolId := do
  let p ← get
  set { p with symbols := p.symbols.push { name := name, flags := flags } }
  return ⟨p.symbols.size⟩

/-- Makes a node a declaration of a symbol; the first one introduces its value. -/
def declare (s : SymbolId) (n : NodeId) : Build Unit :=
  modifySymbol s fun e =>
    { e with
      declarations := e.declarations ++ [n]
      valueDeclaration := e.valueDeclaration.or (some n) }

/-- Binds a node to a symbol. -/
def bind (n : NodeId) (s : SymbolId) : Build Unit :=
  modifyNode n ({ · with symbol := some s })

/-- Sets the type of a symbol. -/
def setSymbolType (s : SymbolId) (t : TypeId) : Build Unit :=
  modifySymbol s ({ · with type := some t })

/-- Makes a symbol a property of a type. -/
def attachProperty (owner : TypeId) (s : SymbolId) : Build Unit :=
  modifyType owner fun e => { e with properties := e.properties ++ [s] }

/-- Adds a property to a type. -/
def addProperty (owner : TypeId) (name : String) (t : TypeId) (optional : Bool) :
    Build SymbolId := do
  let flags := if optional then Flags.propertySymbol ||| Flags.optionalSymbol
    else Flags.propertySymbol
  let s ← addSymbol name flags
  setSymbolType s t
  attachProperty owner s
  return s

/-! ## types -/

/-- Adds a type. -/
def addType (display : String) (flags : UInt32) : Build TypeId := do
  let p ← get
  set { p with types := p.types.push { display := display, flags := flags } }
  return ⟨p.types.size⟩

/-- Adds a union. -/
def addUnion (display : String) (members : List TypeId) : Build TypeId := do
  let t ← addType display Flags.unionType
  modifyType t ({ · with members := some members })
  return t

/-- Sets what a type is without `null` and `undefined`. -/
def setNonNullable (t projected : TypeId) : Build Unit :=
  modifyType t ({ · with nonNullable := some projected })

/-- Sets the symbol of a type. -/
def setTypeSymbol (t : TypeId) (s : SymbolId) : Build Unit :=
  modifyType t ({ · with symbol := some s })

/-- Adds a signature to a type. -/
def addSignature (t : TypeId) (kind : SignatureKind) (display : String) : Build SignatureId := do
  let p ← get
  let id : SignatureId := ⟨p.signatures.size⟩
  set { p with signatures := p.signatures.push display }
  modifyType t fun e =>
    match kind with
    | .call => { e with callSignatures := e.callSignatures ++ [id] }
    | .construct => { e with constructSignatures := e.constructSignatures ++ [id] }
  return id

/-- Sets the type of a node. -/
def setNodeType (n : NodeId) (t : TypeId) : Build Unit :=
  modifyNode n ({ · with type := some t })

/-! ## diagnostics -/

/-- The files with a diagnostic added to the first one of that name. -/
def reportIn (name : String) (d : Diagnostic) : List SourceFile → Option (List SourceFile)
  | [] => none
  | f :: fs =>
    if f.name == name then some ({ f with diagnostics := f.diagnostics ++ [d] } :: fs)
    else (reportIn name d fs).map (f :: ·)

/-- Reports a diagnostic for a file. -/
def addDiagnostic (name : String) (d : Diagnostic) : Build Unit := do
  let p ← get
  match reportIn name d p.files.toList with
  | none => throw (.unknownFile name)
  | some files => set { p with files := files.toArray }

/-! ## running -/

/-- Takes a step. -/
def build {α : Type} (p : Program) (step : Build α) : Except BuildFailure α × Program :=
  step.run.run p

end TypeQuery.Program
