import TypeQuery.Proofs.Program.Build

/-!
# TypeQuery.Proofs.Program.Nodes

The nodes of a program.  A step adds a root, or hangs a new node below an
existing one, or attaches a symbol or a type to a node; what a node says about
the tree — its kind, file, span and children — changes only in that a child is
added at the end (`take_nodes`).  A child that is placed by its text lies behind
its siblings and inside its parent:

```
cursor  ≤  start  ≤  stop  ≤  end of the parent
```

* `build_addNode`, `build_addChild` — the program after a node was added;
* `take_nodes` — what a step can do to the nodes;
* `SameTree`, `Adds` — what the checker says about the tree afterwards.
-/

namespace TypeQuery

/-- The node without what was attached to it: its place in the tree. -/
def Node.bare (n : Node) : Node :=
  { n with symbol := none, type := none }

namespace Program

/-! ## adding a node -/

/-- The program with one more node, the last child of `parent`. -/
def withChild (p : Program) (parent : NodeId) (child : Node) : Program :=
  { p with
    nodes := (p.nodes.push child).modify parent.index
      fun n => { n with children := n.children ++ [⟨p.nodes.size⟩] } }

theorem node?_push_of_node? {p : Program} {n : NodeId} {node : Node} (h : p.node? n = some node)
    (child : Node) : (p.nodes.push child)[n.index]? = some node := by
  have hlt : n.index < p.nodes.size := (Array.getElem?_eq_some_iff.mp h).1
  rw [Array.getElem?_push_lt hlt]
  exact (Array.getElem?_eq_getElem hlt).symm.trans h

theorem build_addNode (p : Program) (parent : NodeId) (kind : String) (span : NodeSpan) :
    p.build (addNode parent kind span) = match p.node? parent with
      | some node => (.ok ⟨p.nodes.size⟩,
          p.withChild parent { kind := kind, file := node.file, span := span })
      | none => (.error .unknownId, p) := by
  rw [addNode, build_bind, build_get]
  dsimp only
  rw [build_bind, build_known]
  cases hn : p.node? parent with
  | none => rfl
  | some node =>
      simp only [pushNode, build_bind, build_get, build_set, build_pure, build_modifyNode]
      have hfound := node?_push_of_node? hn { kind := kind, file := node.file, span := span }
      simp only [node?]
      rw [hfound]
      rfl

/-! ## placing a node by its text -/

theorem le_of_findFrom? {needle cs : List Char} {here start : Nat}
    (h : findFrom? needle here cs = some start) : here ≤ start := by
  induction cs generalizing here with
  | nil =>
      rw [findFrom?] at h
      split at h
      · exact Nat.le_of_eq (Option.some.inj h)
      · contradiction
  | cons c cs ih =>
      rw [findFrom?] at h
      split at h
      · exact Nat.le_of_eq (Option.some.inj h)
      · have := ih h
        omega

/-- Where a child that is placed by its text may stand. -/
structure Placed (p : Program) (parent : Node) (span : NodeSpan) : Prop where
  pos : span.pos = cursor p parent
  pos_le : span.pos ≤ span.start
  start_le : span.start ≤ span.stop
  stop_le : span.stop ≤ parent.span.stop

/-- A child is added as the node that stands where its text was found, or not at all. -/
theorem build_addChild (p : Program) (parent : NodeId) (kind snippet : String) :
    (p.build (addChild parent kind snippet)).2 = p ∨
    ∃ node span, p.node? parent = some node ∧ p.Placed node span ∧
      (p.build (addChild parent kind snippet)).2 =
        p.withChild parent { kind := kind, file := node.file, span := span } := by
  rw [addChild, build_bind, build_get]
  dsimp only
  rw [build_bind, build_known]
  cases hn : p.node? parent with
  | none => exact .inl rfl
  | some node =>
      dsimp only
      rw [build_bind, build_known]
      cases p.files[node.file]? with
      | none => exact .inl rfl
      | some file =>
          dsimp only
          split
          · exact .inl rfl
          · split
            · exact .inl rfl
            · next start hfind =>
                split
                · exact .inl rfl
                · next hstop =>
                    have hplaced : p.Placed node ⟨cursor p node, start,
                        start + Text.unitLength snippet.toList⟩ :=
                      ⟨rfl, le_of_findFrom? hfind, Nat.le_add_right _ _, by simpa using hstop⟩
                    refine .inr ⟨node, _, rfl, hplaced, ?_⟩
                    show (p.build (addNode _ _ _)).2 = _
                    rw [build_addNode, hn]

/-! ## what a step can do -/

theorem map_bare_modify {nodes : Array Node} {i : Nat} {f : Node → Node}
    (hf : ∀ n, (f n).bare = n.bare) : (nodes.modify i f).map Node.bare = nodes.map Node.bare := by
  apply Array.ext_getElem?
  intro j
  rw [Array.getElem?_map, Array.getElem?_map, Array.getElem?_modify]
  split
  · cases nodes[j]? <;> simp [hf]
  · rfl

/-- Attaching something to a node keeps its place in the tree. -/
theorem keepsBare_modifyNode (n : NodeId) (f : Node → Node) (hf : ∀ n, (f n).bare = n.bare) :
    Keeps (fun p => p.nodes.map Node.bare) (modifyNode n f) :=
  .modifyNode fun _ => map_bare_modify hf

/-- **What a step can do to the nodes**: attach something to one, or add a root, or add a child,
whose span is given or is where its text was found. -/
theorem take_nodes (p : Program) (s : Step) :
    (p.take s).2.nodes.map Node.bare = p.nodes.map Node.bare ∨
    (∃ name text, s = .addFile name text ∧ (p.take s).2.nodes =
      p.nodes.push { kind := "SourceFile", file := p.files.size,
                     span := ⟨0, 0, (Text.LineMap.ofText text.toList).length⟩ }) ∨
    (∃ parent kind node span, p.node? parent = some node ∧
      (s = .addNode parent kind span ∨
        ∃ snippet, s = .addChild parent kind snippet ∧ p.Placed node span) ∧
      (p.take s).2 = p.withChild parent { kind := kind, file := node.file, span := span }) := by
  have hv : SeesSyntax fun p => p.nodes.map Node.bare := fun _ _ _ _ => rfl
  rcases hv.keeps_run s with
    hkept | ⟨name, text, rfl⟩ | ⟨parent, kind, snippet, rfl⟩ | ⟨parent, kind, span, rfl⟩ |
    ⟨n, symbol, rfl⟩ | ⟨n, t, rfl⟩ | ⟨name, d, rfl⟩
  · exact .inl (hkept p)
  · exact .inr (.inl ⟨name, text, rfl, rfl⟩)
  · simp only [take, Step.run, build_map_snd]
    rcases build_addChild p parent kind snippet with hsame | ⟨node, span, hn, hplaced, hadd⟩
    · exact .inl (by rw [hsame])
    · exact .inr (.inr ⟨parent, kind, node, span, hn, .inr ⟨snippet, rfl, hplaced⟩, hadd⟩)
  · simp only [take, Step.run, build_map_snd]
    rw [build_addNode]
    cases hn : p.node? parent with
    | none => exact .inl rfl
    | some node => exact .inr (.inr ⟨parent, kind, node, span, hn, .inl rfl, rfl⟩)
  · simp only [take, Step.run, build_bind_pure_snd]
    exact .inl (keepsBare_modifyNode n ({ · with symbol := some symbol }) (fun _ => rfl) p)
  · simp only [take, Step.run, build_bind_pure_snd]
    exact .inl (keepsBare_modifyNode n ({ · with type := some t }) (fun _ => rfl) p)
  · simp only [take, Step.run, build_bind_pure_snd]
    rw [build_addDiagnostic]
    cases reportIn name d p.files.toList <;> exact .inl rfl

/-! ## what the checker says afterwards -/

/-- The number of the file that a node belongs to. -/
def fileNumber? (p : Program) (n : NodeId) : Option Nat :=
  (p.node? n).map (·.file)

/-- Two programs whose checkers say the same about the tree. -/
structure SameTree (p q : Program) : Prop where
  size : q.nodes.size = p.nodes.size
  span? : q.checker.span? = p.checker.span?
  kind : q.checker.kind = p.checker.kind
  children : q.checker.children = p.checker.children
  fileNumber? : q.fileNumber? = p.fileNumber?

/-- Kind, file, span and children are all that the checker knows about the tree. -/
theorem sameTree_of_bare {p q : Program} (h : q.nodes.map Node.bare = p.nodes.map Node.bare) :
    SameTree p q := by
  have hbare : ∀ n, (q.node? n).map Node.bare = (p.node? n).map Node.bare := fun n => by
    rw [node?, node?, ← Array.getElem?_map, ← Array.getElem?_map, h]
  constructor
  · simpa using congrArg Array.size h
  · funext n
    simpa [checker, Function.comp_def, Node.bare] using congrArg (Option.map (·.span)) (hbare n)
  · funext n
    simpa [checker, Function.comp_def, Node.bare] using
      congrArg (fun o => (o.map (·.kind)).getD "Unknown") (hbare n)
  · funext n
    simpa [checker, Function.comp_def, Node.bare] using
      congrArg (fun o => (o.map (·.children)).getD []) (hbare n)
  · funext n
    simpa [fileNumber?, Function.comp_def, Node.bare] using
      congrArg (Option.map (·.file)) (hbare n)

/-- A program with one node more than another one: the last child of `parent`, or a root. -/
structure Adds (p q : Program) (parent : Option NodeId) (new : Node) : Prop where
  size : q.nodes.size = p.nodes.size + 1
  leaf : new.children = []
  known : ∀ n, parent = some n → n.index < p.nodes.size
  node? : ∀ n, q.node? n = if n.index = p.nodes.size then some new
    else (p.node? n).map fun node =>
      if parent = some n then { node with children := node.children ++ [⟨p.nodes.size⟩] } else node

theorem adds_push {p q : Program} {root : Node} (hroot : root.children = [])
    (hq : q.nodes = p.nodes.push root) : Adds p q none root where
  size := by simp [hq]
  leaf := hroot
  known := by simp
  node? n := by simp [node?, hq, Array.getElem?_push]

theorem adds_withChild {p : Program} {parent : NodeId} {node child : Node}
    (hn : p.node? parent = some node) (hchild : child.children = []) :
    Adds p (p.withChild parent child) (some parent) child := by
  have hlt : parent.index < p.nodes.size := (Array.getElem?_eq_some_iff.mp hn).1
  refine ⟨by simp [withChild], hchild, fun n hparent => Option.some.inj hparent ▸ hlt, fun n => ?_⟩
  simp only [node?, withChild, Array.getElem?_modify, Array.getElem?_push] at hn ⊢
  by_cases hnew : n.index = p.nodes.size
  · simp [hnew, Nat.ne_of_lt hlt]
  · by_cases hparent : parent = n
    · simp [hparent, hnew]
    · have hindex : parent.index ≠ n.index := fun he => hparent (by cases n; cases parent; simp_all)
      simp [hnew, hparent, hindex]

theorem children_of_size_le {p : Program} {n : NodeId} (h : p.nodes.size ≤ n.index) :
    p.checker.children n = [] := by
  simp [checker, node?, h]

namespace Adds

variable {p q : Program} {parent : Option NodeId} {new : Node} (h : Adds p q parent new)
include h

theorem span? (n : NodeId) : q.checker.span? n =
    if n.index = p.nodes.size then some new.span else p.checker.span? n := by
  simp only [checker, h.node?]
  split
  · rfl
  · cases p.node? n with
    | none => rfl
    | some node => by_cases hn : parent = some n <;> simp [hn]

theorem kind (n : NodeId) : q.checker.kind n =
    if n.index = p.nodes.size then new.kind else p.checker.kind n := by
  simp only [checker, h.node?]
  split
  · rfl
  · cases p.node? n with
    | none => rfl
    | some node => by_cases hn : parent = some n <;> simp [hn]

theorem fileNumber? (n : NodeId) : q.fileNumber? n =
    if n.index = p.nodes.size then some new.file else p.fileNumber? n := by
  simp only [Program.fileNumber?, h.node?]
  split
  · rfl
  · cases p.node? n with
    | none => rfl
    | some node => by_cases hn : parent = some n <;> simp [hn]

theorem children (n : NodeId) : q.checker.children n =
    p.checker.children n ++ if parent = some n then [⟨p.nodes.size⟩] else [] := by
  by_cases hnew : n.index = p.nodes.size
  · have hn : parent ≠ some n := fun hparent => by
      have := h.known n hparent
      omega
    rw [children_of_size_le (Nat.le_of_eq hnew.symm), if_neg hn]
    simp [checker, h.node?, hnew, h.leaf]
  · by_cases hn : parent = some n
    · have hlt := h.known n hn
      have hsome : p.node? n = some p.nodes[n.index] := Array.getElem?_eq_getElem hlt
      simp [checker, h.node?, hnew, hn, hsome]
    · simp [checker, h.node?, hnew, hn]

end Adds

end Program

end TypeQuery
