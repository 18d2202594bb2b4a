import TypeQuery.Proofs.Checker.Region
import TypeQuery.Proofs.Program.Tree

/-!
# TypeQuery.Proofs.Program.Frame

What may be added to a program without any effect on what it answered before.  A
step changes what was there, or adds something at the end of a table, or changes
what was added since.  Steps of the last two kinds leave the tables of the old
program as a first part of the new ones:

```
old   f₀ f₁      n₀ … n₄           t₀ t₁        s₀
new   f₀ f₁ f₂   n₀ … n₄ n₅ n₆     t₀ t₁ t₂     s₀ s₁
```

A program that stores only numbers of its own never leads from its first part
into the second one, and so its answers are those of the old program.

* `Extends` — a program with the tables of another one as first parts of its own;
* `Step.OnlyNew`, `Unrelated` — steps that leave an old program alone;
* `extends_layOut` — what is left after such steps;
* `Intact` — all numbers that a program stores belong to something in it;
* `answer_layOut_unrelated` — such steps change no answer for an old file.
-/

namespace TypeQuery.Program

open Checker

/-! ## first parts of tables -/

/-- The second table begins with the first one. -/
def Kept {α : Type} (a b : Array α) : Prop :=
  ∀ i, i < a.size → b[i]? = a[i]?

namespace Kept

variable {α : Type} {a b : Array α}

theorem refl (a : Array α) : Kept a a := fun _ _ => rfl

theorem isPrefix (h : Kept a b) : a.toList <+: b.toList := by
  rw [List.prefix_iff_getElem?]
  intro i hi
  have hkept := h i hi
  rwa [Array.getElem?_eq_getElem hi, ← Array.getElem?_toList] at hkept

theorem size_le (h : Kept a b) : a.size ≤ b.size :=
  h.isPrefix.length_le

theorem push (h : Kept a b) (x : α) : Kept a (b.push x) := by
  intro i hi
  have hlt := Nat.lt_of_lt_of_le hi h.size_le
  rw [Array.getElem?_push, if_neg (Nat.ne_of_lt hlt), h i hi]

theorem modify (h : Kept a b) {i : Nat} (hi : a.size ≤ i) (f : α → α) : Kept a (b.modify i f) := by
  intro j hj
  rw [Array.getElem?_modify, if_neg (by omega), h j hj]

end Kept

/-- A program with the tables of another one as first parts of its own. -/
structure Extends (p q : Program) : Prop where
  files : Kept p.files q.files
  nodes : Kept p.nodes q.nodes
  types : Kept p.types q.types
  symbols : Kept p.symbols q.symbols
  signatures : Kept p.signatures q.signatures

theorem Extends.refl (p : Program) : Extends p p :=
  ⟨.refl _, .refl _, .refl _, .refl _, .refl _⟩

/-! ## steps that leave a program alone -/

/-- A step that changes nothing of the program `p`: it adds something, or it changes what has a
number that nothing in `p` has, or it reports something for a file that is not in `p`. -/
def Step.OnlyNew (p : Program) : Step → Prop
  | .addFile _ _ | .findOffset _ _ _ | .addSymbol _ _ | .addType _ _ | .addUnion _ _ => True
  | .addChild n _ _ | .addNode n _ _ | .bind n _ | .setNodeType n _ => p.nodes.size ≤ n.index
  | .declare s _ | .setSymbolType s _ => p.symbols.size ≤ s.index
  | .addProperty t _ _ _ | .attachProperty t _ | .setNonNullable t _ | .setTypeSymbol t _
  | .addSignature t _ _ => p.types.size ≤ t.index
  | .addDiagnostic file _ => p.file? file = none

/-- Steps from `q` on, none of which changes anything of the program `p`: each of them is about
something new, or has no effect at all. -/
def Unrelated (p : Program) : Program → List Step → Prop
  | _, [] => True
  | q, s :: steps => (s.OnlyNew p ∨ (q.take s).2 = q) ∧ Unrelated p (q.take s).2 steps

section steps

variable {p : Program}

theorem preserves_modifyNode_of_new {n : NodeId} (hn : p.nodes.size ≤ n.index) (f : Node → Node) :
    Preserves (Extends p) (modifyNode n f) := by
  intro q hq
  rw [build_modifyNode]
  cases q.node? n with
  | none => exact hq
  | some _ => exact { hq with nodes := hq.nodes.modify hn f }

theorem preserves_modifyType_of_new {t : TypeId} (ht : p.types.size ≤ t.index)
    (f : TypeEntry → TypeEntry) : Preserves (Extends p) (modifyType t f) := by
  intro q hq
  rw [build_modifyType]
  cases q.type? t with
  | none => exact hq
  | some _ => exact { hq with types := hq.types.modify ht f }

theorem preserves_modifySymbol_of_new {s : SymbolId} (hs : p.symbols.size ≤ s.index)
    (f : SymbolEntry → SymbolEntry) : Preserves (Extends p) (modifySymbol s f) := by
  intro q hq
  rw [build_modifySymbol]
  cases q.symbol? s with
  | none => exact hq
  | some _ => exact { hq with symbols := hq.symbols.modify hs f }

theorem extends_withChild {q : Program} {parent : NodeId} (hparent : p.nodes.size ≤ parent.index)
    (hq : Extends p q) (child : Node) : Extends p (q.withChild parent child) :=
  { hq with nodes := (hq.nodes.push child).modify hparent _ }

theorem preserves_addNode_of_new {parent : NodeId} (hparent : p.nodes.size ≤ parent.index)
    (kind : String) (span : NodeSpan) : Preserves (Extends p) (addNode parent kind span) := by
  intro q hq
  rw [build_addNode]
  cases q.node? parent with
  | none => exact hq
  | some _ => exact extends_withChild hparent hq _

theorem preserves_addChild_of_new {parent : NodeId} (hparent : p.nodes.size ≤ parent.index)
    (kind snippet : String) : Preserves (Extends p) (addChild parent kind snippet) := by
  intro q hq
  rcases build_addChild q parent kind snippet with hsame | ⟨node, span, -, -, hadd⟩
  · rwa [hsame]
  · rw [hadd]
    exact extends_withChild hparent hq _

theorem preserves_addFile (name text : String) : Preserves (Extends p) (addFile name text) :=
  fun _ hq => { hq with files := hq.files.push _, nodes := hq.nodes.push _ }

theorem preserves_addProperty_of_new {owner : TypeId} (howner : p.types.size ≤ owner.index)
    (name : String) (t : TypeId) (optional : Bool) :
    Preserves (Extends p) (addProperty owner name t optional) := by
  intro q hq
  -- the property has the number that follows the last symbol
  have hnew : p.symbols.size ≤ q.symbols.size := hq.symbols.size_le
  rw [addProperty, build_bind]
  exact Preserves.bind (preserves_modifySymbol_of_new hnew _)
    (fun _ => .bind (preserves_modifyType_of_new howner _) fun _ => .pure _) _
    { hq with symbols := hq.symbols.push _ }

theorem preserves_addUnion (display : String) (members : List TypeId) :
    Preserves (Extends p) (addUnion display members) := by
  intro q hq
  have hnew : p.types.size ≤ q.types.size := hq.types.size_le
  rw [addUnion, build_bind]
  exact Preserves.bind (preserves_modifyType_of_new hnew _) (fun _ => .pure _) _
    { hq with types := hq.types.push _ }

theorem preserves_addSignature_of_new {t : TypeId} (ht : p.types.size ≤ t.index)
    (kind : SignatureKind) (display : String) :
    Preserves (Extends p) (addSignature t kind display) := by
  intro q hq
  rw [addSignature, build_bind, build_get]
  exact Preserves.bind (preserves_modifyType_of_new ht _) (fun _ => .pure _) _
    { hq with signatures := hq.signatures.push _ }

/-- A report leaves the files alone that have other names. -/
theorem getElem?_of_reportIn {name : String} {d : Diagnostic} {fs gs : List SourceFile}
    (h : reportIn name d fs = some gs) {i : Nat} {f : SourceFile} (hf : fs[i]? = some f)
    (hname : f.name ≠ name) : gs[i]? = some f := by
  induction fs generalizing gs i with
  | nil => simp [reportIn] at h
  | cons g fs ih =>
      rw [reportIn] at h
      split at h
      · next hfound =>
          obtain rfl := Option.some.inj h
          cases i with
          | zero =>
              obtain rfl := Option.some.inj hf
              exact absurd (beq_iff_eq.mp hfound) hname
          | succ i => exact hf
      · obtain ⟨hs, hrest, rfl⟩ := Option.map_eq_some_iff.mp h
        cases i with
        | zero => exact hf
        | succ i => exact ih hrest hf

theorem preserves_addDiagnostic_of_new {name : String} (hname : p.file? name = none)
    (d : Diagnostic) : Preserves (Extends p) (addDiagnostic name d) := by
  intro q hq
  rw [build_addDiagnostic]
  cases hreport : reportIn name d q.files.toList with
  | none => exact hq
  | some files =>
      have hfiles : Kept p.files files.toArray := by
        intro i hi
        have hold : q.files.toList[i]? = some p.files[i] := by
          rw [Array.getElem?_toList, hq.files i hi, Array.getElem?_eq_getElem hi]
        have hother : p.files[i].name ≠ name := by
          simpa using Array.find?_eq_none.mp hname p.files[i] (Array.getElem_mem hi)
        rw [List.getElem?_toArray, getElem?_of_reportIn hreport hold hother,
          Array.getElem?_eq_getElem hi]
      exact { hq with files := hfiles }

/-- **Step lemma**: a step about something new leaves the old program as the first part of the new
one, whether it fails or not. -/
theorem Step.OnlyNew.preserves {s : Step} (hs : s.OnlyNew p) : Preserves (Extends p) s.run := by
  cases s with
  | addFile name text => exact (preserves_addFile name text).map
  | addChild parent kind snippet => exact (preserves_addChild_of_new hs kind snippet).map
  | addNode parent kind span => exact (preserves_addNode_of_new hs kind span).map
  | findOffset file needle nth =>
      exact ((Keeps.findOffset file needle nth).preserves (Extends p)).map
  | addSymbol name flags =>
      exact Preserves.map fun _ hq => { hq with symbols := hq.symbols.push _ }
  | declare symbol n => exact (preserves_modifySymbol_of_new hs _).bind fun _ => .pure _
  | bind n symbol => exact (preserves_modifyNode_of_new hs _).bind fun _ => .pure _
  | setSymbolType symbol t => exact (preserves_modifySymbol_of_new hs _).bind fun _ => .pure _
  | addProperty owner name t optional =>
      exact (preserves_addProperty_of_new hs name t optional).map
  | attachProperty owner symbol => exact (preserves_modifyType_of_new hs _).bind fun _ => .pure _
  | addType display flags => exact Preserves.map fun _ hq => { hq with types := hq.types.push _ }
  | addUnion display members => exact (preserves_addUnion display members).map
  | setNonNullable t projected => exact (preserves_modifyType_of_new hs _).bind fun _ => .pure _
  | setTypeSymbol t symbol => exact (preserves_modifyType_of_new hs _).bind fun _ => .pure _
  | addSignature t kind display => exact (preserves_addSignature_of_new hs kind display).map
  | setNodeType n t => exact (preserves_modifyNode_of_new hs _).bind fun _ => .pure _
  | addDiagnostic file d => exact (preserves_addDiagnostic_of_new hs d).bind fun _ => .pure _

/-- **Run lemma**: unrelated steps leave the old program as the first part of the new one. -/
theorem extends_layOut {q : Program} {steps : List Step} (hsteps : Unrelated p q steps)
    (hq : Extends p q) : Extends p (q.layOut steps) := by
  induction steps generalizing q with
  | nil => exact hq
  | cons s steps ih =>
      obtain ⟨hs, hrest⟩ := hsteps
      have hnext : Extends p (q.take s).2 := by
        cases hs with
        | inl hnew => exact hnew.preserves q hq
        | inr hsame => rwa [hsame]
      exact ih hrest hnext

end steps

/-! ## the type `any` -/

theorem keepsTypeCount_modifyType (t : TypeId) (f : TypeEntry → TypeEntry) :
    Keeps (fun p => p.types.size) (modifyType t f) :=
  .modifyType fun _ => Array.size_modify

/-- Only two kinds of steps change the number of types. -/
theorem keepsTypeCount_run (s : Step) :
    Keeps (fun p => p.types.size) s.run ∨ (∃ display flags, s = .addType display flags) ∨
    (∃ display members, s = .addUnion display members) := by
  have htype := keepsTypeCount_modifyType
  cases s with
  | addType display flags => exact .inr (.inl ⟨display, flags, rfl⟩)
  | addUnion display members => exact .inr (.inr ⟨display, members, rfl⟩)
  | addFile name text => exact .inl (.map fun _ => rfl)
  | addChild parent kind snippet =>
      exact .inl (.map (.addChild (fun _ _ => rfl) parent kind snippet))
  | addNode parent kind span => exact .inl (.map (.addNode (fun _ _ => rfl) parent kind span))
  | findOffset file needle nth => exact .inl (.map (.findOffset file needle nth))
  | addSymbol name flags => exact .inl (.map fun _ => rfl)
  | declare symbol n => exact .inl (.bind (.modifySymbol fun _ => rfl) fun _ => .pure _)
  | bind n symbol => exact .inl (.bind (.modifyNode fun _ => rfl) fun _ => .pure _)
  | setSymbolType symbol t => exact .inl (.bind (.modifySymbol fun _ => rfl) fun _ => .pure _)
  | addProperty owner name t optional =>
      exact .inl (.map (.bind (fun _ => rfl) fun _ => .bind (.modifySymbol fun _ => rfl) fun _ =>
        .bind (htype _ _) fun _ => .pure _))
  | attachProperty owner symbol => exact .inl (.bind (htype _ _) fun _ => .pure _)
  | setNonNullable t projected => exact .inl (.bind (htype _ _) fun _ => .pure _)
  | setTypeSymbol t symbol => exact .inl (.bind (htype _ _) fun _ => .pure _)
  | addSignature t kind display =>
      refine .inl (.map (.get fun p => ?_))
      rw [build_bind, build_set]
      exact Keeps.bind (htype _ _) (fun _ => .pure _) _
  | setNodeType n t => exact .inl (.bind (.modifyNode fun _ => rfl) fun _ => .pure _)
  | addDiagnostic file d =>
      refine .inl (.bind (fun p => ?_) fun _ => .pure _)
      rw [build_addDiagnostic]
      cases reportIn file d p.files.toList <;> rfl

theorem types_pos_take {p : Program} (s : Step) (hp : 0 < p.types.size) :
    0 < (p.take s).2.types.size := by
  rcases keepsTypeCount_run s with hkept | ⟨display, flags, rfl⟩ | ⟨display, members, rfl⟩
  · exact hkept.preserves (0 < ·) p hp
  · show 0 < (p.types.push _).size
    rw [Array.size_push]
    exact Nat.succ_pos _
  · have hadd : Preserves (fun p => 0 < p.types.size) (addType display Flags.unionType) :=
      fun p _ => Nat.lt_of_lt_of_eq (Nat.succ_pos _) (Array.size_push _).symm
    exact Preserves.map (hadd.bind fun t =>
      .bind ((keepsTypeCount_modifyType t _).preserves (0 < ·)) fun _ => .pure _) p hp

/-- There is always the type `any`. -/
theorem types_pos_layOut (steps : List Step) : 0 < (empty.layOut steps).types.size := by
  have hstep : ∀ (p : Program) (s : Step), 0 < p.types.size → 0 < (p.take s).2.types.size :=
    fun _ s hp => types_pos_take s hp
  exact layOut_induction hstep steps Nat.one_pos

/-! ## programs without dangling numbers -/

/-- The things that are in a program. -/
def region (p : Program) : Region where
  file name := (p.file? name).isSome
  node n := n.index < p.nodes.size
  type t := t.index < p.types.size
  symbol s := s.index < p.symbols.size
  signature s := s.index < p.signatures.size

/-- All numbers that the program stores belong to something in it, and its diagnostics point into
its files or nowhere. -/
structure Intact (p : Program) : Prop where
  child : ∀ node ∈ p.nodes, ∀ n ∈ node.children, p.region.node n
  nodeType : ∀ node ∈ p.nodes, ∀ t, node.type = some t → p.region.type t
  nodeSymbol : ∀ node ∈ p.nodes, ∀ s, node.symbol = some s → p.region.symbol s
  declaration : ∀ e ∈ p.symbols, ∀ n ∈ e.declarations, p.region.node n
  symbolType : ∀ e ∈ p.symbols, ∀ t, e.type = some t → p.region.type t
  typeSymbol : ∀ e ∈ p.types, ∀ s, e.symbol = some s → p.region.symbol s
  member : ∀ e ∈ p.types, ∀ ts, e.members = some ts → ∀ t ∈ ts, p.region.type t
  nonNullable : ∀ e ∈ p.types, ∀ t, e.nonNullable = some t → p.region.type t
  property : ∀ e ∈ p.types, ∀ s ∈ e.properties, p.region.symbol s
  callSignature : ∀ e ∈ p.types, ∀ s ∈ e.callSignatures, p.region.signature s
  constructSignature : ∀ e ∈ p.types, ∀ s ∈ e.constructSignatures, p.region.signature s
  anchor : ∀ f ∈ p.files, ∀ d ∈ f.diagnostics, ∀ name, d.file = some name → p.region.file name

section intact

variable {p : Program}

/-- What is in a list that is looked up is in the list of something that was found. -/
theorem exists_of_mem_getD_map {α β : Type} {o : Option α} {f : α → List β} {b : β}
    (h : b ∈ (o.map f).getD []) : ∃ a, o = some a ∧ b ∈ f a := by
  cases o with
  | none => simp at h
  | some a => exact ⟨a, rfl, h⟩

theorem type_getD_any (hany : 0 < p.types.size) {o : Option TypeId}
    (ho : ∀ t, o = some t → p.region.type t) : p.region.type (o.getD anyType) := by
  cases o with
  | none => exact hany
  | some t => exact ho t rfl

/-- The file of a node is found by its name. -/
theorem file_region_of_mem {file : SourceFile} (h : file ∈ p.files) : p.region.file file.name := by
  show (p.file? file.name).isSome
  rw [file?, Array.find?_isSome]
  exact ⟨file, h, beq_self_eq_true _⟩

/-- **Nothing leads out of an intact program**: all that its checker names is in it. -/
theorem Intact.closed_region (hp : p.Intact) (htrees : p.SoundTrees) (hintro : p.Introduced)
    (hany : 0 < p.types.size) : p.region.Closed p.checker where
  root f n hf hroot := by
    obtain ⟨file, hfile, rfl⟩ := Option.map_eq_some_iff.mp hroot
    obtain ⟨k, hk⟩ := Array.getElem?_of_mem (Array.mem_of_find?_eq_some hfile)
    exact lt_size_of_fileNumber? (htrees.rooted k file hk).file
  anchor f d g hf hd hg := by
    obtain ⟨file, hfile, hmem⟩ := exists_of_mem_getD_map hd
    exact hp.anchor file (Array.mem_of_find?_eq_some hfile) d hmem g hg
  fileOf n f hn hfile := by
    obtain ⟨node, hnode, hname⟩ := Option.bind_eq_some_iff.mp hfile
    obtain ⟨file, hat, rfl⟩ := Option.map_eq_some_iff.mp hname
    exact file_region_of_mem (Array.mem_of_getElem? hat)
  child n m hn hm := by
    obtain ⟨node, hnode, hmem⟩ := exists_of_mem_getD_map hm
    exact hp.child node (Array.mem_of_getElem? hnode) m hmem
  typeOf n hn := by
    refine type_getD_any hany fun t ht => ?_
    obtain ⟨node, hnode, htype⟩ := Option.bind_eq_some_iff.mp ht
    exact hp.nodeType node (Array.mem_of_getElem? hnode) t htype
  symbolAt n s hn hs := by
    obtain ⟨node, hnode, hsymbol⟩ := Option.bind_eq_some_iff.mp hs
    exact hp.nodeSymbol node (Array.mem_of_getElem? hnode) s hsymbol
  typeSymbol t s ht hs := by
    obtain ⟨e, he, hsymbol⟩ := Option.bind_eq_some_iff.mp hs
    exact hp.typeSymbol e (Array.mem_of_getElem? he) s hsymbol
  nonNullable t ht := by
    show p.region.type (((p.type? t).bind (·.nonNullable)).getD t)
    cases hproper : (p.type? t).bind (·.nonNullable) with
    | none => exact ht
    | some u =>
        obtain ⟨e, he, hu⟩ := Option.bind_eq_some_iff.mp hproper
        exact hp.nonNullable e (Array.mem_of_getElem? he) u hu
  unionMember t us u ht hus hu := by
    obtain ⟨e, he, hmembers⟩ := Option.bind_eq_some_iff.mp hus
    exact hp.member e (Array.mem_of_getElem? he) us hmembers u hu
  property t s ht hs := by
    obtain ⟨e, he, hmem⟩ := exists_of_mem_getD_map hs
    exact hp.property e (Array.mem_of_getElem? he) s hmem
  signature t k s ht hs := by
    have hmem : s ∈ p.signaturesOf t k := hs
    unfold signaturesOf at hmem
    cases he : p.type? t with
    | none => simp [he] at hmem
    | some e =>
        rw [he] at hmem
        cases k with
        | call => exact hp.callSignature e (Array.mem_of_getElem? he) s hmem
        | construct => exact hp.constructSignature e (Array.mem_of_getElem? he) s hmem
  declaration s n hs hn := by
    obtain ⟨e, he, hmem⟩ := exists_of_mem_getD_map hn
    exact hp.declaration e (Array.mem_of_getElem? he) n hmem
  valueDeclaration s n hs hn := by
    obtain ⟨e, he, hvalue⟩ := Option.bind_eq_some_iff.mp hn
    -- the value is introduced by the first declaration
    rw [hintro s e he] at hvalue
    exact hp.declaration e (Array.mem_of_getElem? he) n (List.mem_of_mem_head? hvalue)
  symbolType s n hs hn := by
    refine type_getD_any hany fun t ht => ?_
    obtain ⟨e, he, htype⟩ := Option.bind_eq_some_iff.mp ht
    exact hp.symbolType e (Array.mem_of_getElem? he) t htype

end intact

/-! ## what the checker says afterwards -/

namespace Extends

variable {p q : Program} (h : Extends p q)
include h

theorem node?_eq {n : NodeId} (hn : p.region.node n) : q.node? n = p.node? n :=
  h.nodes n.index hn

theorem type?_eq {t : TypeId} (ht : p.region.type t) : q.type? t = p.type? t :=
  h.types t.index ht

theorem symbol?_eq {s : SymbolId} (hs : p.region.symbol s) : q.symbol? s = p.symbol? s :=
  h.symbols s.index hs

/-- A file that comes later is never the first one of its name. -/
theorem file?_eq {name : String} (hname : p.region.file name) : q.file? name = p.file? name := by
  obtain ⟨file, hfile⟩ := Option.isSome_iff_exists.mp hname
  obtain ⟨rest, hrest⟩ := h.files.isPrefix
  have hold : p.files.toList.find? (·.name == name) = some file := by
    rw [Array.find?_toList]
    exact hfile
  rw [hfile, file?, ← Array.find?_toList, ← hrest, List.find?_append, hold, Option.some_or]

theorem files_getElem?_eq (hp : p.SoundTrees) {n : NodeId} {node : Node}
    (hnode : p.node? n = some node) : q.files[node.file]? = p.files[node.file]? := by
  have hnumber : p.fileNumber? n = some node.file := by
    rw [fileNumber?, hnode]
    rfl
  exact h.files _ (hp.inFile n node.file hnumber)

/-- About what was there, the checker says what it said before. -/
theorem agree (hp : p.SoundTrees) : p.region.Agree p.checker q.checker where
  root? f hf := by simp only [checker, h.file?_eq hf]
  text? f hf := by simp only [checker, h.file?_eq hf]
  offsetOf? f hf := by simp only [checker, h.file?_eq hf]
  positionOf? f hf := by simp only [checker, h.file?_eq hf]
  diagnostics f hf := by simp only [checker, h.file?_eq hf]
  fileOf? n hn := by
    show (q.node? n).bind _ = (p.node? n).bind _
    rw [h.node?_eq hn]
    exact Option.bind_congr fun node hnode => by rw [h.files_getElem?_eq hp hnode]
  span? n hn := by simp only [checker, h.node?_eq hn]
  kind n hn := by simp only [checker, h.node?_eq hn]
  children n hn := by simp only [checker, h.node?_eq hn]
  nodeText? n hn := by
    show q.nodeText? n = p.nodeText? n
    unfold nodeText?
    rw [h.node?_eq hn]
    exact Option.bind_congr fun node hnode => by rw [h.files_getElem?_eq hp hnode]
  typeOf n hn := by simp only [checker, h.node?_eq hn]
  symbolAt? n hn := by simp only [checker, h.node?_eq hn]
  typeText t n ht hn := by simp only [checker, h.type?_eq ht]
  typeFlags t ht := by simp only [checker, h.type?_eq ht]
  typeSymbol? t ht := by simp only [checker, h.type?_eq ht]
  nonNullable t ht := by simp only [checker, h.type?_eq ht]
  unionMembers? t ht := by simp only [checker, h.type?_eq ht]
  properties t ht := by simp only [checker, h.type?_eq ht]
  signatures t ht := by simp only [checker, signaturesOf, h.type?_eq ht]
  symbolName s hs := by simp only [checker, h.symbol?_eq hs]
  symbolFlags s hs := by simp only [checker, Program.symbolFlags, h.symbol?_eq hs]
  isOptional s hs := by simp only [checker, Program.symbolFlags, h.symbol?_eq hs]
  declarations s hs := by simp only [checker, h.symbol?_eq hs]
  valueDeclaration? s hs := by simp only [checker, h.symbol?_eq hs]
  symbolType s n hs hn := by simp only [checker, h.symbol?_eq hs]
  signatureText s n hs hn := by simp only [checker, h.signatures s.index hs]
  typeFlagTable := rfl
  symbolFlagTable := rfl

end Extends

/-! ## answers -/

theorem layOut_append (p : Program) (steps more : List Step) :
    p.layOut (steps ++ more) = (p.layOut steps).layOut more :=
  List.foldl_append

/-- **Unrelated additions change no answer**: take a program that can be laid out and stores no
number that nothing in it has, and whose diagnostics point into its files or nowhere. After any
further steps about new things, a question about a file that was there is answered as before, for
every project and target and all options. -/
theorem answer_layOut_unrelated (steps more : List Step) (hintact : (empty.layOut steps).Intact)
    (hmore : Unrelated (empty.layOut steps) (empty.layOut steps) more) (file : String)
    (hfile : ((empty.layOut steps).file? file).isSome) (project : Option String) (target : Target)
    (options : Options) :
    (empty.layOut (steps ++ more)).checker.answer file project target options =
      (empty.layOut steps).checker.answer file project target options := by
  have htrees := soundTrees_layOut steps
  have hclosed := hintact.closed_region htrees (introduced_layOut steps) (types_pos_layOut steps)
  have hlonger : Extends (empty.layOut steps) (empty.layOut (steps ++ more)) := by
    rw [layOut_append]
    exact extends_layOut hmore (.refl _)
  have hordered := (soundTrees_layOut (steps ++ more)).ordered
  have hagree := hlonger.agree htrees
  exact hagree.answer_eq hclosed htrees.ordered hordered hfile project target options

/-- A file with a typed declaration, and what comes later: a second file of that name, a third one
with a node that is bound to an old symbol, a union of old types, and a report for the third file
that points into the first one. -/
theorem answer_layOut_unrelated_namesake :
    let steps : List Step := [.addFile "/a.ts" "x", .addChild ⟨0⟩ "Identifier" "x",
      .addSymbol "x" 2, .declare ⟨0⟩ ⟨1⟩, .bind ⟨1⟩ ⟨0⟩, .addType "Point" 8,
      .setNodeType ⟨1⟩ ⟨1⟩, .addProperty ⟨1⟩ "y" ⟨0⟩ true,
      .addDiagnostic "/a.ts" (.error "/a.ts" 0 1 "unused" 1)]
    let more : List Step := [.addFile "/a.ts" "y", .addFile "/b.ts" "y",
      .addChild ⟨3⟩ "Identifier" "y", .bind ⟨4⟩ ⟨1⟩, .addUnion "Point | any" [⟨1⟩, ⟨0⟩],
      .setNonNullable ⟨2⟩ ⟨1⟩, .addDiagnostic "/b.ts" (.error "/a.ts" 0 1 "twice" 2)]
    (empty.layOut steps).Intact ∧ Unrelated (empty.layOut steps) (empty.layOut steps) more ∧
    ((empty.layOut steps).file? "/a.ts").isSome ∧
    (empty.layOut (steps ++ more)).checker.answer "/a.ts" none (.position 1 1) {} =
      (empty.layOut steps).checker.answer "/a.ts" none (.position 1 1) {} ∧
    (((empty.layOut steps).checker.answer "/a.ts" none (.position 1 1) {}).map fun r =>
      (r.nodeKind, r.facts.typeText, r.diagnostics.length)).toOption =
        some ("Identifier", "Point", 1) := by
  intro steps more
  have hlaid : empty.layOut steps =
      { files := #[⟨"/a.ts", "x", .ofText ['x'], ⟨0⟩, [.error "/a.ts" 0 1 "unused" 1]⟩]
        nodes := #[⟨"SourceFile", 0, ⟨0, 0, 1⟩, [⟨1⟩], none, none⟩,
          ⟨"Identifier", 0, ⟨0, 0, 1⟩, [], some ⟨0⟩, some ⟨1⟩⟩]
        types := #[{ display := "any", flags := Flags.anyType },
          { display := "Point", flags := 8, properties := [⟨1⟩] }]
        symbols := #[⟨"x", 2, [⟨1⟩], some ⟨1⟩, none⟩,
          ⟨"y", Flags.propertySymbol ||| Flags.optionalSymbol, [], none, some ⟨0⟩⟩]
        signatures := #[] } := rfl
  have hintact : (empty.layOut steps).Intact := by
    rw [hlaid]
    constructor <;> simp [region, file?, Diagnostic.error]
  have hmore : Unrelated (empty.layOut steps) (empty.layOut steps) more := by
    simp [more, Unrelated, Step.OnlyNew, hlaid, file?]
  have hfile : ((empty.layOut steps).file? "/a.ts").isSome := by
    simp [hlaid, file?]
  have hsame :=
    answer_layOut_unrelated steps more hintact hmore "/a.ts" hfile none (.position 1 1) {}
  exact ⟨hintact, hmore, hfile, hsame, by decide +kernel⟩

end TypeQuery.Program
