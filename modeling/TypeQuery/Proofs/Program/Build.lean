import TypeQuery.Program.Step

/-!
# TypeQuery.Proofs.Program.Build

What the steps of laying out a program leave behind.  Running a step answers
with a result and the program after it, and a step that fails keeps what it had
done before, so every equation here has two sides: the result and the program.

* `build_bind` — a step made of two runs the second one on what the first one left;
* `build_modifyNode`, `build_addDiagnostic`, … — the program after primitive steps;
* `Keeps` — a part of the program that a step leaves alone;
* `SeesSyntax.keeps_run` — which steps reach the files and nodes of a program;
* `SeesSymbols.keeps_run` — which steps reach the symbols;
* `layOut_induction` — what every step preserves holds of every program that can
  be laid out.
-/

namespace TypeQuery.Program

variable {α β γ : Type}

/-! ## running a step -/

@[simp] theorem build_pure (p : Program) (a : α) : p.build (pure a : Build α) = (.ok a, p) := rfl

@[simp] theorem build_get (p : Program) : p.build (get : Build Program) = (.ok p, p) := rfl

@[simp] theorem build_set (p q : Program) : p.build (set q : Build PUnit) = (.ok ⟨⟩, q) := rfl

theorem build_bind (p : Program) (x : Build α) (f : α → Build β) :
    p.build (x >>= f) = match p.build x with
      | (.ok a, q) => q.build (f a)
      | (.error e, q) => (.error e, q) := by
  simp only [build, Bind.bind, ExceptT.bind, ExceptT.mk, ExceptT.run, StateT.run, StateT.bind]
  cases x p with
  | mk r q => cases r <;> rfl

theorem build_map (p : Program) (x : Build α) (f : α → β) :
    p.build (f <$> x) = match p.build x with
      | (.ok a, q) => (.ok (f a), q)
      | (.error e, q) => (.error e, q) := by
  rw [map_eq_pure_bind, build_bind]
  rfl

/-- Whatever is done with the answer of a step, the program stays as the step left it. -/
@[simp] theorem build_map_snd (p : Program) (x : Build α) (f : α → β) :
    (p.build (f <$> x)).2 = (p.build x).2 := by
  rw [build_map]
  cases p.build x with
  | mk r q => cases r <;> rfl

@[simp] theorem build_bind_pure_snd (p : Program) (x : Build α) (b : β) :
    (p.build (do let _ ← x; pure b)).2 = (p.build x).2 := by
  rw [build_bind]
  cases p.build x with
  | mk r q => cases r <;> rfl

/-! ## primitive steps -/

theorem build_known (p : Program) (o : Option α) :
    p.build (known o) = match o with
      | some a => (.ok a, p)
      | none => (.error .unknownId, p) := by
  cases o <;> rfl

theorem build_modifyNode (p : Program) (n : NodeId) (f : Node → Node) :
    p.build (modifyNode n f) = match p.node? n with
      | some _ => (.ok ⟨⟩, { p with nodes := p.nodes.modify n.index f })
      | none => (.error .unknownId, p) := by
  rw [modifyNode, build_bind, build_get]
  dsimp only
  rw [build_bind, build_known]
  cases p.node? n <;> rfl

theorem build_modifyType (p : Program) (t : TypeId) (f : TypeEntry → TypeEntry) :
    p.build (modifyType t f) = match p.type? t with
      | some _ => (.ok ⟨⟩, { p with types := p.types.modify t.index f })
      | none => (.error .unknownId, p) := by
  rw [modifyType, build_bind, build_get]
  dsimp only
  rw [build_bind, build_known]
  cases p.type? t <;> rfl

theorem build_modifySymbol (p : Program) (s : SymbolId) (f : SymbolEntry → SymbolEntry) :
    p.build (modifySymbol s f) = match p.symbol? s with
      | some _ => (.ok ⟨⟩, { p with symbols := p.symbols.modify s.index f })
      | none => (.error .unknownId, p) := by
  rw [modifySymbol, build_bind, build_get]
  dsimp only
  rw [build_bind, build_known]
  cases p.symbol? s <;> rfl

theorem build_addDiagnostic (p : Program) (name : String) (d : Diagnostic) :
    p.build (addDiagnostic name d) = match reportIn name d p.files.toList with
      | some files => (.ok ⟨⟩, { p with files := files.toArray })
      | none => (.error (.unknownFile name), p) := by
  rw [addDiagnostic, build_bind, build_get]
  dsimp only
  cases reportIn name d p.files.toList <;> rfl

/-! ## what a step leaves alone -/

/-- A step after which `view` shows what it showed before, whether the step fails or not. -/
def Keeps (view : Program → γ) (x : Build α) : Prop :=
  ∀ p : Program, view (p.build x).2 = view p

namespace Keeps

variable {view : Program → γ}

theorem pure (a : α) : Keeps view (Pure.pure a : Build α) := fun _ => rfl

theorem throw (e : BuildFailure) : Keeps view (MonadExcept.throw e : Build α) := fun _ => rfl

theorem bind {x : Build α} {f : α → Build β} (hx : Keeps view x) (hf : ∀ a, Keeps view (f a)) :
    Keeps view (x >>= f) := by
  intro p
  have hp := hx p
  rw [build_bind]
  cases hb : p.build x with
  | mk r q =>
      rw [hb] at hp
      cases r with
      | error e => exact hp
      | ok a => exact (hf a q).trans hp

theorem map {x : Build α} {f : α → β} (hx : Keeps view x) : Keeps view (f <$> x) :=
  fun p => by rw [build_map_snd]; exact hx p

/-- Looking at the program before going on. -/
theorem get {f : Program → Build β} (hf : ∀ p : Program, view (p.build (f p)).2 = view p) :
    Keeps view (MonadState.get >>= f) := by
  intro p
  rw [build_bind, build_get]
  exact hf p

theorem known (o : Option α) : Keeps view (Program.known o) := by
  intro p
  rw [build_known]
  cases o <;> rfl

theorem modifyNode {n : NodeId} {f : Node → Node}
    (h : ∀ p : Program, view { p with nodes := p.nodes.modify n.index f } = view p) :
    Keeps view (Program.modifyNode n f) := by
  intro p
  rw [build_modifyNode]
  cases p.node? n with
  | none => rfl
  | some node => exact h p

theorem modifyType {t : TypeId} {f : TypeEntry → TypeEntry}
    (h : ∀ p : Program, view { p with types := p.types.modify t.index f } = view p) :
    Keeps view (Program.modifyType t f) := by
  intro p
  rw [build_modifyType]
  cases p.type? t with
  | none => rfl
  | some e => exact h p

theorem modifySymbol {s : SymbolId} {f : SymbolEntry → SymbolEntry}
    (h : ∀ p : Program, view { p with symbols := p.symbols.modify s.index f } = view p) :
    Keeps view (Program.modifySymbol s f) := by
  intro p
  rw [build_modifySymbol]
  cases p.symbol? s with
  | none => rfl
  | some e => exact h p

theorem findOffset (name needle : String) (nth : Nat) :
    Keeps view (Program.findOffset name needle nth) := by
  refine .get fun p => ?_
  cases p.file? name with
  | none => rfl
  | some file =>
      dsimp only
      split <;> rfl

/-! A child is added by nothing but changes of the nodes. -/

section children

variable (hv : ∀ (p : Program) (nodes : Array Node), view { p with nodes := nodes } = view p)
include hv

theorem addNode (parent : NodeId) (kind : String) (span : NodeSpan) :
    Keeps view (Program.addNode parent kind span) :=
  .get fun p => Keeps.bind (.known _)
    (fun _ => .bind (fun p => hv p _) fun _ => .bind (.modifyNode fun p => hv p _)
      fun _ => .pure _) p

theorem addChild (parent : NodeId) (kind snippet : String) :
    Keeps view (Program.addChild parent kind snippet) := by
  refine .get fun p => Keeps.bind (.known _) (fun node => ?_) p
  refine .bind (.known _) fun file => ?_
  dsimp only
  split
  · exact .throw _
  · split
    · exact .throw _
    · split
      · exact .bind (.throw _) fun _ => addNode hv _ _ _
      · exact addNode hv _ _ _

end children

end Keeps

/-- A view of a program that shows files and nodes only. -/
def SeesSyntax (view : Program → γ) : Prop :=
  ∀ (p : Program) (types : Array TypeEntry) (symbols : Array SymbolEntry)
    (signatures : Array String), view ⟨p.files, p.nodes, types, symbols, signatures⟩ = view p

namespace SeesSyntax

variable {view : Program → γ} (hv : SeesSyntax view)
include hv

theorem modifyType (t : TypeId) (f : TypeEntry → TypeEntry) :
    Keeps view (Program.modifyType t f) :=
  .modifyType fun p => hv p _ _ _

theorem modifySymbol (s : SymbolId) (f : SymbolEntry → SymbolEntry) :
    Keeps view (Program.modifySymbol s f) :=
  .modifySymbol fun p => hv p _ _ _

theorem addSymbol (name : String) (flags : UInt32) : Keeps view (Program.addSymbol name flags) :=
  fun p => hv p _ _ _

theorem addType (display : String) (flags : UInt32) : Keeps view (Program.addType display flags) :=
  fun p => hv p _ _ _

theorem addProperty (owner : TypeId) (name : String) (t : TypeId) (optional : Bool) :
    Keeps view (Program.addProperty owner name t optional) :=
  .bind (hv.addSymbol _ _) fun _ => .bind (hv.modifySymbol _ _)
    fun _ => .bind (hv.modifyType _ _) fun _ => .pure _

theorem addUnion (display : String) (members : List TypeId) :
    Keeps view (Program.addUnion display members) :=
  .bind (hv.addType _ _) fun _ => .bind (hv.modifyType _ _) fun _ => .pure _

theorem addSignature (t : TypeId) (kind : SignatureKind) (display : String) :
    Keeps view (Program.addSignature t kind display) := by
  refine .get fun p => ?_
  rw [build_bind, build_set]
  exact (Keeps.bind (hv.modifyType _ _) (fun _ => .pure _) _).trans (hv p _ _ _)

/-- Files and nodes are reached by six kinds of steps only. -/
theorem keeps_run (s : Step) :
    Keeps view s.run ∨ (∃ name text, s = .addFile name text) ∨
    (∃ parent kind snippet, s = .addChild parent kind snippet) ∨
    (∃ parent kind span, s = .addNode parent kind span) ∨ (∃ n symbol, s = .bind n symbol) ∨
    (∃ n t, s = .setNodeType n t) ∨ (∃ name d, s = .addDiagnostic name d) := by
  cases s with
  | addFile name text => exact .inr (.inl ⟨name, text, rfl⟩)
  | addChild parent kind snippet => exact .inr (.inr (.inl ⟨parent, kind, snippet, rfl⟩))
  | addNode parent kind span => exact .inr (.inr (.inr (.inl ⟨parent, kind, span, rfl⟩)))
  | bind n symbol => exact .inr (.inr (.inr (.inr (.inl ⟨n, symbol, rfl⟩))))
  | setNodeType n t => exact .inr (.inr (.inr (.inr (.inr (.inl ⟨n, t, rfl⟩)))))
  | addDiagnostic name d => exact .inr (.inr (.inr (.inr (.inr (.inr ⟨name, d, rfl⟩)))))
  | findOffset file needle nth => exact .inl (.map (.findOffset file needle nth))
  | addSymbol name flags => exact .inl (.map (hv.addSymbol name flags))
  | declare symbol n => exact .inl (.bind (hv.modifySymbol _ _) fun _ => .pure _)
  | setSymbolType symbol t => exact .inl (.bind (hv.modifySymbol _ _) fun _ => .pure _)
  | addProperty owner name t optional => exact .inl (.map (hv.addProperty owner name t optional))
  | attachProperty owner symbol => exact .inl (.bind (hv.modifyType _ _) fun _ => .pure _)
  | addType display flags => exact .inl (.map (hv.addType display flags))
  | addUnion display members => exact .inl (.map (hv.addUnion display members))
  | setNonNullable t projected => exact .inl (.bind (hv.modifyType _ _) fun _ => .pure _)
  | setTypeSymbol t symbol => exact .inl (.bind (hv.modifyType _ _) fun _ => .pure _)
  | addSignature t kind display => exact .inl (.map (hv.addSignature t kind display))

end SeesSyntax

/-- A view of a program that shows symbols only. -/
def SeesSymbols (view : Program → γ) : Prop :=
  ∀ (p : Program) (files : Array SourceFile) (nodes : Array Node) (types : Array TypeEntry)
    (signatures : Array String), view ⟨files, nodes, types, p.symbols, signatures⟩ = view p

namespace SeesSymbols

variable {view : Program → γ} (hv : SeesSymbols view)
include hv

theorem modifyNode (n : NodeId) (f : Node → Node) : Keeps view (Program.modifyNode n f) :=
  .modifyNode fun p => hv p _ _ _ _

theorem modifyType (t : TypeId) (f : TypeEntry → TypeEntry) :
    Keeps view (Program.modifyType t f) :=
  .modifyType fun p => hv p _ _ _ _

theorem addFile (name text : String) : Keeps view (Program.addFile name text) :=
  fun p => hv p _ _ _ _

theorem addType (display : String) (flags : UInt32) : Keeps view (Program.addType display flags) :=
  fun p => hv p _ _ _ _

theorem addUnion (display : String) (members : List TypeId) :
    Keeps view (Program.addUnion display members) :=
  .bind (hv.addType _ _) fun _ => .bind (hv.modifyType _ _) fun _ => .pure _

theorem addSignature (t : TypeId) (kind : SignatureKind) (display : String) :
    Keeps view (Program.addSignature t kind display) := by
  refine .get fun p => ?_
  rw [build_bind, build_set]
  exact (Keeps.bind (hv.modifyType _ _) (fun _ => .pure _) _).trans (hv p _ _ _ _)

theorem addDiagnostic (name : String) (d : Diagnostic) :
    Keeps view (Program.addDiagnostic name d) := by
  intro p
  rw [build_addDiagnostic]
  cases reportIn name d p.files.toList with
  | none => rfl
  | some files => exact hv p _ _ _ _

/-- Symbols are reached by four kinds of steps only. -/
theorem keeps_run (s : Step) :
    Keeps view s.run ∨ (∃ name flags, s = .addSymbol name flags) ∨
    (∃ symbol n, s = .declare symbol n) ∨ (∃ symbol t, s = .setSymbolType symbol t) ∨
    (∃ owner name t optional, s = .addProperty owner name t optional) := by
  cases s with
  | addSymbol name flags => exact .inr (.inl ⟨name, flags, rfl⟩)
  | declare symbol n => exact .inr (.inr (.inl ⟨symbol, n, rfl⟩))
  | setSymbolType symbol t => exact .inr (.inr (.inr (.inl ⟨symbol, t, rfl⟩)))
  | addProperty owner name t optional =>
      exact .inr (.inr (.inr (.inr ⟨owner, name, t, optional, rfl⟩)))
  | addFile name text => exact .inl (.map (hv.addFile name text))
  | addChild parent kind snippet =>
      exact .inl (.map (.addChild (fun p _ => hv p _ _ _ _) parent kind snippet))
  | addNode parent kind span =>
      exact .inl (.map (.addNode (fun p _ => hv p _ _ _ _) parent kind span))
  | findOffset file needle nth => exact .inl (.map (.findOffset file needle nth))
  | bind n symbol => exact .inl (.bind (hv.modifyNode _ _) fun _ => .pure _)
  | attachProperty owner symbol => exact .inl (.bind (hv.modifyType _ _) fun _ => .pure _)
  | addType display flags => exact .inl (.map (hv.addType display flags))
  | addUnion display members => exact .inl (.map (hv.addUnion display members))
  | setNonNullable t projected => exact .inl (.bind (hv.modifyType _ _) fun _ => .pure _)
  | setTypeSymbol t symbol => exact .inl (.bind (hv.modifyType _ _) fun _ => .pure _)
  | addSignature t kind display => exact .inl (.map (hv.addSignature t kind display))
  | setNodeType n t => exact .inl (.bind (hv.modifyNode _ _) fun _ => .pure _)
  | addDiagnostic file d => exact .inl (.bind (hv.addDiagnostic file d) fun _ => .pure _)

end SeesSymbols

/-! ## what a step preserves -/

/-- A step after which `I` holds if it held before, whether the step fails or not. -/
def Preserves (I : Program → Prop) (x : Build α) : Prop :=
  ∀ p : Program, I p → I (p.build x).2

namespace Preserves

variable {I : Program → Prop}

theorem pure (a : α) : Preserves I (Pure.pure a : Build α) := fun _ hp => hp

theorem bind {x : Build α} {f : α → Build β} (hx : Preserves I x)
    (hf : ∀ a, Preserves I (f a)) : Preserves I (x >>= f) := by
  intro p hp
  have hq := hx p hp
  rw [build_bind]
  cases hb : p.build x with
  | mk r q =>
      rw [hb] at hq
      cases r with
      | error e => exact hq
      | ok a => exact hf a q hq

theorem map {x : Build α} {f : α → β} (hx : Preserves I x) : Preserves I (f <$> x) :=
  fun p hp => by rw [build_map_snd]; exact hx p hp

end Preserves

/-- What is said of a view is preserved with the view. -/
theorem Keeps.preserves {view : Program → γ} {x : Build α} (hx : Keeps view x) (J : γ → Prop) :
    Preserves (fun p => J (view p)) x := by
  intro p hp
  rwa [hx p]

/-! ## lists of steps -/

/-- **Run lemma**: what a step preserves is preserved by every list of steps, failed ones among
them. -/
theorem layOut_induction {I : Program → Prop} (hstep : ∀ p s, I p → I (p.take s).2)
    (steps : List Step) {p : Program} (hp : I p) : I (p.layOut steps) := by
  induction steps generalizing p with
  | nil => exact hp
  | cons s steps ih => exact ih (hstep p s hp)

end TypeQuery.Program
