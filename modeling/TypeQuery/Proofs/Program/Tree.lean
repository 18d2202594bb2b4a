import TypeQuery.Proofs.Checker.Locate
import TypeQuery.Proofs.Program.Files
import TypeQuery.Proofs.Program.Nodes

/-!
# TypeQuery.Proofs.Program.Tree

The trees of a program, whatever its steps are, whatever spans they give and
however many of them fail half way.  A step that adds a node gives it the next
free number and hangs it in one place, below a node that is there already or
under a file that is added with it (`take_tree`).  So the numbers grow from
parents to children, and the trees of the files divide the nodes among them:

```
files   f₀       f₁              roots and children, each node once
        |        |
        0        2
        |       / \
        1      3   5
                   |
                   4  ✗          a child never comes before its parent
```

* `SoundTrees` — what holds of the trees;
* `Introduced` — what holds of the declarations of symbols;
* `search_ends_in_sound_trees` — both hold of all programs, so that a search ends
  from every node, in the file that it began in.
-/

namespace TypeQuery.Program

open Checker

/-! ## sound trees -/

/-- The root of the file with that number. -/
def rootOf? (p : Program) (k : Nat) : Option NodeId :=
  (p.files[k]?).map (·.root)

/-- The node is the root of just one file, and no child of any node. -/
def RootOnce (p : Program) (n : NodeId) : Prop :=
  (∃ k, p.rootOf? k = some n ∧ ∀ j, p.rootOf? j = some n → j = k) ∧
    ∀ m, n ∉ p.checker.children m

/-- The node stands just once among the children of just one node, and is the root of no file. -/
def ChildOnce (p : Program) (n : NodeId) : Prop :=
  (∃ parent, (p.checker.children parent).count n = 1 ∧
      ∀ m, n ∈ p.checker.children m → m = parent) ∧
    ∀ k, p.rootOf? k ≠ some n

/-- The root of a file: a node of the file that spans the whole text. -/
structure RootOf (p : Program) (k : Nat) (f : SourceFile) : Prop where
  kind : p.checker.kind f.root = "SourceFile"
  span : p.checker.span? f.root = some ⟨0, 0, f.lineMap.length⟩
  file : p.fileNumber? f.root = some k

/-- The trees of the files divide the nodes among them. -/
structure SoundTrees (p : Program) : Prop where
  /-- Every child is a node and comes after its parent. -/
  ordered : p.checker.Ordered
  placed : ∀ n, n.index < p.nodes.size → p.RootOnce n ∨ p.ChildOnce n
  sameFile : ∀ n, ∀ child ∈ p.checker.children n, p.fileNumber? child = p.fileNumber? n
  inFile : ∀ n k, p.fileNumber? n = some k → k < p.files.size
  rooted : ∀ k f, p.files[k]? = some f → p.RootOf k f

theorem lt_size_of_fileNumber? {p : Program} {n : NodeId} {k : Nat}
    (h : p.fileNumber? n = some k) : n.index < p.nodes.size := by
  obtain ⟨node, hn, -⟩ := Option.map_eq_some_iff.mp h
  exact (Array.getElem?_eq_some_iff.mp hn).1

theorem SoundTrees.lt_size_of_rootOf? {p : Program} (hp : p.SoundTrees) {k : Nat} {n : NodeId}
    (h : p.rootOf? k = some n) : n.index < p.nodes.size := by
  obtain ⟨f, hf, rfl⟩ := Option.map_eq_some_iff.mp h
  exact lt_size_of_fileNumber? (hp.rooted k f hf).file

/-! ## what a step can do to the trees -/

/-- **What a step can do to the trees**: nothing, or add a file with its root, or hang a new node
below one that is there. -/
theorem take_tree (p : Program) (s : Step) :
    (SameTree p (p.take s).2 ∧
      (p.take s).2.files.map SourceFile.bare = p.files.map SourceFile.bare) ∨
    (∃ f, f.root = ⟨p.nodes.size⟩ ∧ (p.take s).2.files = p.files.push f ∧
      Adds p (p.take s).2 none
        { kind := "SourceFile", file := p.files.size, span := ⟨0, 0, f.lineMap.length⟩ }) ∨
    (∃ parent node child, p.node? parent = some node ∧ child.file = node.file ∧
      (p.take s).2.files = p.files ∧ Adds p (p.take s).2 (some parent) child) := by
  rcases take_nodes p s with hnodes | ⟨name, text, rfl, hpush⟩ |
    ⟨parent, kind, node, span, hn, -, hq⟩
  · rcases take_files p s with hfiles | ⟨name, text, rfl, -⟩
    · exact .inl ⟨sameTree_of_bare hnodes, hfiles⟩
    · -- a file is never added without a node
      have hsize : (p.take (.addFile name text)).2.nodes.size = p.nodes.size :=
        (sameTree_of_bare hnodes).size
      have hmore : (p.take (.addFile name text)).2.nodes.size = p.nodes.size + 1 :=
        Array.size_push _
      omega
  · exact .inr (.inl ⟨_, rfl, rfl, adds_push rfl hpush⟩)
  · refine .inr (.inr ⟨parent, node, { kind := kind, file := node.file, span := span }, hn, rfl, ?_⟩)
    rw [hq]
    exact ⟨rfl, adds_withChild hn rfl⟩

/-! ## steps keep trees sound -/

variable {p q : Program}

theorem files_of_bare (h : q.files.map SourceFile.bare = p.files.map SourceFile.bare) {k : Nat}
    {g : SourceFile} (hg : q.files[k]? = some g) : ∃ f, p.files[k]? = some f ∧ f.bare = g.bare := by
  have hbare : (p.files.map SourceFile.bare)[k]? = some g.bare := by
    rw [← h, Array.getElem?_map, hg]
    rfl
  rw [Array.getElem?_map] at hbare
  exact Option.map_eq_some_iff.mp hbare

theorem rootOf?_of_bare (h : q.files.map SourceFile.bare = p.files.map SourceFile.bare) :
    q.rootOf? = p.rootOf? := by
  funext k
  have hk : ((q.files.map SourceFile.bare)[k]?).map (·.root) =
      ((p.files.map SourceFile.bare)[k]?).map (·.root) := by rw [h]
  simpa [rootOf?, SourceFile.bare, Function.comp_def] using hk

theorem SameTree.soundTrees (h : SameTree p q)
    (hfiles : q.files.map SourceFile.bare = p.files.map SourceFile.bare) (hp : p.SoundTrees) :
    q.SoundTrees := by
  have hcount : q.checker.nodeCount = p.checker.nodeCount := h.size
  constructor
  · constructor
    · rw [h.children, hcount]
      exact hp.ordered.counted
    · rw [h.children]
      exact hp.ordered.after
  · intro n hn
    rw [RootOnce, ChildOnce, rootOf?_of_bare hfiles, h.children]
    exact hp.placed n (h.size ▸ hn)
  · rw [h.children, h.fileNumber?]
    exact hp.sameFile
  · have hsize : q.files.size = p.files.size := by simpa using congrArg Array.size hfiles
    rw [h.fileNumber?, hsize]
    exact hp.inFile
  · intro k g hg
    obtain ⟨f, hf, hbare⟩ := files_of_bare hfiles hg
    have hroot : f.root = g.root := congrArg (·.root) hbare
    have hmap : f.lineMap = g.lineMap := congrArg (·.lineMap) hbare
    obtain ⟨hkind, hspan, hfile⟩ := hp.rooted k f hf
    rw [hroot] at hkind hspan hfile
    rw [hmap] at hspan
    exact ⟨h.kind ▸ hkind, h.span? ▸ hspan, h.fileNumber? ▸ hfile⟩

/-- The next free number is that of no child and of no root. -/
theorem SoundTrees.not_mem_children (hp : p.SoundTrees) (m : NodeId) :
    ⟨p.nodes.size⟩ ∉ p.checker.children m := fun hmem =>
  Nat.lt_irrefl _ (hp.ordered.counted m _ hmem)

theorem SoundTrees.rootOf?_ne (hp : p.SoundTrees) (k : Nat) :
    p.rootOf? k ≠ some ⟨p.nodes.size⟩ := fun hk =>
  Nat.lt_irrefl _ (hp.lt_size_of_rootOf? hk)

namespace Adds

variable {parent : Option NodeId} {new : Node} (h : Adds p q parent new)
include h

theorem mem_children {n child : NodeId} (hchild : child ∈ q.checker.children n) :
    child ∈ p.checker.children n ∨ (parent = some n ∧ child = ⟨p.nodes.size⟩) := by
  rw [h.children, List.mem_append] at hchild
  refine hchild.imp_right fun hnew => ?_
  split at hnew
  · next hn => exact ⟨hn, List.mem_singleton.mp hnew⟩
  · simp at hnew

theorem fileNumber?_of_lt {n : NodeId} (hn : n.index < p.nodes.size) :
    q.fileNumber? n = p.fileNumber? n := by
  rw [h.fileNumber?, if_neg (Nat.ne_of_lt hn)]

theorem fileNumber?_new : q.fileNumber? ⟨p.nodes.size⟩ = some new.file := by
  rw [h.fileNumber?, if_pos rfl]

/-- The root of a file stays what it is. -/
theorem rootOf {k : Nat} {f : SourceFile} (hf : p.RootOf k f) : q.RootOf k f := by
  have hlt := lt_size_of_fileNumber? hf.file
  constructor
  · rw [h.kind, if_neg (Nat.ne_of_lt hlt)]
    exact hf.kind
  · rw [h.span?, if_neg (Nat.ne_of_lt hlt)]
    exact hf.span
  · rw [h.fileNumber?_of_lt hlt]
    exact hf.file

variable (hp : p.SoundTrees)
include hp

theorem ordered : q.checker.Ordered := by
  constructor
  · intro n child hchild
    show child.index < q.nodes.size
    rw [h.size]
    rcases h.mem_children hchild with hold | ⟨-, rfl⟩
    · exact Nat.lt_succ_of_lt (hp.ordered.counted n child hold)
    · exact Nat.lt_succ_self _
  · intro n child hchild
    rcases h.mem_children hchild with hold | ⟨hn, rfl⟩
    · exact hp.ordered.after n child hold
    · exact h.known n hn

/-- A node that was there keeps its place, if no node that was there becomes a root or ceases to be
one. -/
theorem placed_of_lt (hroot : ∀ k n, n.index < p.nodes.size →
    (q.rootOf? k = some n ↔ p.rootOf? k = some n)) {n : NodeId} (hn : n.index < p.nodes.size) :
    q.RootOnce n ∨ q.ChildOnce n := by
  have hne : n ≠ ⟨p.nodes.size⟩ := fun he => by simp [he] at hn
  have hmem : ∀ m, n ∈ q.checker.children m ↔ n ∈ p.checker.children m := fun m => by
    rw [h.children]
    split <;> simp [hne]
  have hcount : ∀ m, (q.checker.children m).count n = (p.checker.children m).count n := fun m => by
    rw [h.children]
    split <;> simp [hne.symm]
  refine (hp.placed n hn).imp ?_ ?_
  · rintro ⟨⟨k, hk, hone⟩, hno⟩
    exact ⟨⟨k, (hroot k n hn).mpr hk, fun j hj => hone j ((hroot j n hn).mp hj)⟩,
      fun m => mt (hmem m).mp (hno m)⟩
  · rintro ⟨⟨m, hm, hone⟩, hno⟩
    exact ⟨⟨m, (hcount m).trans hm, fun l hl => hone l ((hmem l).mp hl)⟩,
      fun k => mt (hroot k n hn).mp (hno k)⟩

/-- Children belong to the files of their parents, if the new node does. -/
theorem sameFile (hfile : ∀ n, parent = some n → p.fileNumber? n = some new.file) :
    ∀ n, ∀ child ∈ q.checker.children n, q.fileNumber? child = q.fileNumber? n := by
  intro n child hchild
  rcases h.mem_children hchild with hold | ⟨hn, rfl⟩
  · have hlt : child.index < p.nodes.size := hp.ordered.counted n child hold
    have hafter := hp.ordered.after n child hold
    rw [h.fileNumber?_of_lt hlt, h.fileNumber?_of_lt (Nat.lt_trans hafter hlt)]
    exact hp.sameFile n child hold
  · rw [h.fileNumber?_new, h.fileNumber?_of_lt (h.known n hn), hfile n hn]

theorem inFile (hnew : new.file < q.files.size) (hle : p.files.size ≤ q.files.size) :
    ∀ n k, q.fileNumber? n = some k → k < q.files.size := by
  intro n k hk
  rw [h.fileNumber?] at hk
  split at hk
  · rwa [← Option.some.inj hk]
  · exact Nat.lt_of_lt_of_le (hp.inFile n k hk) hle

end Adds

/-- **Step lemma**: a file that comes with its root keeps the trees sound. -/
theorem Adds.soundTrees_of_root {f : SourceFile} (hroot : f.root = ⟨p.nodes.size⟩)
    (hfiles : q.files = p.files.push f)
    (h : Adds p q none
      { kind := "SourceFile", file := p.files.size, span := ⟨0, 0, f.lineMap.length⟩ })
    (hp : p.SoundTrees) : q.SoundTrees := by
  have hsize : q.files.size = p.files.size + 1 := by rw [hfiles, Array.size_push]
  have hrootOf : ∀ k, q.rootOf? k = if k = p.files.size then some f.root else p.rootOf? k :=
    fun k => by
      rw [rootOf?, hfiles, Array.getElem?_push]
      split <;> rfl
  have hlast : p.rootOf? p.files.size = none := by simp [rootOf?]
  refine ⟨h.ordered hp, fun n hn => ?_, h.sameFile hp (by simp), h.inFile hp (by simp [hsize])
    (by simp [hsize]), fun k g hg => ?_⟩
  · by_cases hnew : n.index = p.nodes.size
    · obtain rfl : n = ⟨p.nodes.size⟩ := by cases n; simp_all
      refine .inl ⟨⟨p.files.size, by rw [hrootOf, if_pos rfl, hroot], fun j hj => ?_⟩, fun m hm => ?_⟩
      · rw [hrootOf] at hj
        split at hj
        · assumption
        · exact absurd hj (hp.rootOf?_ne j)
      · rcases h.mem_children hm with hold | ⟨hnone, -⟩
        · exact hp.not_mem_children m hold
        · contradiction
    · rw [h.size] at hn
      refine h.placed_of_lt hp (fun k m hm => ?_) (by omega)
      rw [hrootOf]
      split
      · next hk =>
          have hne : f.root ≠ m := fun he => by rw [← he, hroot] at hm; exact Nat.lt_irrefl _ hm
          rw [hk, hlast]
          simp [hne]
      · rfl
  · rw [hfiles, Array.getElem?_push] at hg
    split at hg
    · next hk =>
        obtain rfl := Option.some.inj hg
        constructor
        · rw [h.kind, hroot, if_pos rfl]
        · rw [h.span?, hroot, if_pos rfl]
        · rw [hroot, h.fileNumber?_new, hk]
    · exact h.rootOf (hp.rooted k g hg)

/-- **Step lemma**: a node below one that is there keeps the trees sound. -/
theorem Adds.soundTrees_of_child {parent : NodeId} {node child : Node}
    (hn : p.node? parent = some node) (hfile : child.file = node.file) (hfiles : q.files = p.files)
    (h : Adds p q (some parent) child) (hp : p.SoundTrees) : q.SoundTrees := by
  have hrootOf : ∀ k, q.rootOf? k = p.rootOf? k := fun k => by rw [rootOf?, rootOf?, hfiles]
  have hparent : p.fileNumber? parent = some child.file := by
    rw [Program.fileNumber?, hn, hfile]
    rfl
  refine ⟨h.ordered hp, fun n hlt => ?_, h.sameFile hp fun m hm => Option.some.inj hm ▸ hparent,
    h.inFile hp (hfiles ▸ hp.inFile _ _ hparent) (Nat.le_of_eq (by rw [hfiles])), fun k f hf => ?_⟩
  · by_cases hnew : n.index = p.nodes.size
    · obtain rfl : n = ⟨p.nodes.size⟩ := by cases n; simp_all
      refine .inr ⟨⟨parent, ?_, fun m hm => ?_⟩, fun k => hrootOf k ▸ hp.rootOf?_ne k⟩
      · rw [h.children, if_pos rfl, List.count_append,
          List.count_eq_zero.mpr (hp.not_mem_children parent)]
        simp
      · rcases h.mem_children hm with hold | ⟨hsome, -⟩
        · exact absurd hold (hp.not_mem_children m)
        · exact (Option.some.inj hsome).symm
    · rw [h.size] at hlt
      exact h.placed_of_lt hp (fun k m _ => by rw [hrootOf]) (by omega)
  · rw [hfiles] at hf
    exact h.rootOf (hp.rooted k f hf)

theorem soundTrees_take (s : Step) (hp : p.SoundTrees) : (p.take s).2.SoundTrees := by
  rcases take_tree p s with ⟨hsame, hfiles⟩ | ⟨f, hroot, hfiles, hadds⟩ |
    ⟨parent, node, child, hn, hfile, hfiles, hadds⟩
  · exact hsame.soundTrees hfiles hp
  · exact hadds.soundTrees_of_root hroot hfiles hp
  · exact hadds.soundTrees_of_child hn hfile hfiles hp

theorem soundTrees_empty : empty.SoundTrees := by
  refine ⟨⟨?_, ?_⟩, ?_, ?_, ?_, ?_⟩ <;> intro n <;> simp [checker, empty, node?, fileNumber?]

/-- **Run lemma**: the trees of every program that can be laid out are sound. -/
theorem soundTrees_layOut (steps : List Step) : (empty.layOut steps).SoundTrees :=
  layOut_induction (fun _ s hp => soundTrees_take s hp) steps soundTrees_empty

/-! ## declarations -/

/-- The value of every symbol is introduced by its first declaration, and by none if it has none. -/
def Introduced (p : Program) : Prop :=
  ∀ s e, p.symbol? s = some e → e.valueDeclaration = e.declarations.head?

theorem preserves_modifySymbol {s : SymbolId} {f : SymbolEntry → SymbolEntry}
    (hf : ∀ e, e.valueDeclaration = e.declarations.head? →
      (f e).valueDeclaration = (f e).declarations.head?) :
    Preserves Introduced (modifySymbol s f) := by
  intro p hp
  rw [build_modifySymbol]
  cases p.symbol? s with
  | none => exact hp
  | some _ =>
      intro t e he
      rw [symbol?, Array.getElem?_modify] at he
      split at he
      · obtain ⟨e', he', rfl⟩ := Option.map_eq_some_iff.mp he
        exact hf e' (hp t e' he')
      · exact hp t e he

theorem preserves_addSymbol (name : String) (flags : UInt32) :
    Preserves Introduced (addSymbol name flags) := by
  intro p hp t e he
  have he : (p.symbols.push { name := name, flags := flags })[t.index]? = some e := he
  rw [Array.getElem?_push] at he
  split at he
  · rw [← Option.some.inj he]
    rfl
  · exact hp t e he

theorem preserves_setSymbolType (s : SymbolId) (t : TypeId) :
    Preserves Introduced (setSymbolType s t) :=
  preserves_modifySymbol fun _ he => he

theorem preserves_declare (s : SymbolId) (n : NodeId) : Preserves Introduced (declare s n) := by
  refine preserves_modifySymbol fun e he => ?_
  dsimp only
  rw [he]
  cases e.declarations <;> rfl

theorem introduced_take (s : Step) (hp : p.Introduced) : (p.take s).2.Introduced := by
  have hv : SeesSymbols Introduced := fun _ _ _ _ _ => rfl
  rcases hv.keeps_run s with hkept | ⟨name, flags, rfl⟩ | ⟨symbol, n, rfl⟩ | ⟨symbol, t, rfl⟩ |
    ⟨owner, name, t, optional, rfl⟩
  · exact hkept.preserves (·) p hp
  · exact (preserves_addSymbol name flags).map p hp
  · exact (preserves_declare symbol n).bind (fun _ => .pure _) p hp
  · exact (preserves_setSymbolType symbol t).bind (fun _ => .pure _) p hp
  · exact Preserves.map (.bind (preserves_addSymbol _ _) fun s =>
      .bind (preserves_setSymbolType s t) fun _ =>
      .bind ((hv.modifyType _ _).preserves (·)) fun _ => .pure _) p hp

theorem introduced_layOut (steps : List Step) : (empty.layOut steps).Introduced :=
  layOut_induction (fun _ s hp => introduced_take s hp) steps fun s e he => by
    simp [empty, symbol?] at he

/-! ## the search in sound trees -/

/-- **Searches end where they began**: in every program that can be laid out, by steps that may fail
and give any spans, the trees are sound, every file has the line map of its text, and the first
declaration of a symbol introduces its value. So from every node and at every offset the search
ends, at one node, which belongs to the file of the node it began at. -/
theorem search_ends_in_sound_trees (steps : List Step) :
    (empty.layOut steps).SoundTrees ∧ (empty.layOut steps).Mapped ∧
    (empty.layOut steps).Introduced ∧
    ∀ start offset,
      (∀ found, (empty.layOut steps).checker.Search offset start found ↔
        found = (empty.layOut steps).checker.locate start offset) ∧
      (empty.layOut steps).fileNumber? ((empty.layOut steps).checker.locate start offset) =
        (empty.layOut steps).fileNumber? start := by
  have hp := soundTrees_layOut steps
  refine ⟨hp, mapped_layOut steps, introduced_layOut steps, fun start offset => ?_⟩
  have hsearch := hp.ordered.search_locate start offset
  refine ⟨fun found => ⟨fun h => h.unique hsearch, ?_⟩, hsearch.eq_of_inherited hp.sameFile⟩
  rintro rfl
  exact hsearch

end TypeQuery.Program
