import TypeQuery.Proofs.Program.Layout
import TypeQuery.Proofs.Program.Tree
import TypeQuery.Proofs.Text.Occurrences

/-!
# TypeQuery.Proofs.Program.Placement

Where a child stands that is placed by its text, and what becomes of it.  The
text is looked for from the cursor of the parent on, the end of its last child or
else its own start, and the first occurrence counts, or none:

```
parent   start                                          stop
           | 1st child | last child |                     |
                                cursor …  snippet  …
                                  pos     start   stop
```

In a program whose nodes are roots or placed in this way, every node begins and
ends between characters (`OnBoundaries`), so the search can always begin.  What
a node covers stays what it is, whatever is done to the program later (`Remains`).

* `addChild_cases` — the three ways in which adding a child can end;
* `remains_layOut` — nodes and texts of files remain what they are;
* `onBoundaries_layOut` — nodes stand on boundaries;
* `addChild_places_exactly` — when there is a new node, and where.
-/

namespace TypeQuery.Program

open Text

/-! ## the search for a snippet -/

/-- What is found is the first occurrence. -/
theorem firstFrom_of_findFrom? {snippet cs : List Char} {here start : Nat}
    (h : findFrom? snippet here cs = some start) :
    ∃ u, start = here + u ∧ FirstFrom snippet cs 0 u := by
  induction cs generalizing here with
  | nil =>
      rw [findFrom?] at h
      split at h
      · next hempty =>
          obtain rfl := List.isEmpty_iff.mp hempty
          exact ⟨0, (Option.some.inj h).symm, ⟨[], [], rfl, rfl⟩, Nat.le_refl 0, fun _ _ hv => hv⟩
      · contradiction
  | cons c cs ih =>
      rw [findFrom?] at h
      split at h
      · next hhead =>
          have hhere := List.isPrefixOf_iff_prefix.mp hhead
          exact ⟨0, (Option.some.inj h).symm, occursAt_cons_iff.mpr (.inl ⟨hhere, rfl⟩),
            Nat.le_refl 0, fun _ _ hv => hv⟩
      · next hno =>
          obtain ⟨u, rfl, hfirst⟩ := ih h
          refine ⟨units c + u, Nat.add_assoc _ _ _,
            occursAt_cons_iff.mpr (.inr ⟨u, hfirst.occurs, rfl⟩), Nat.zero_le _, fun v hv _ => ?_⟩
          rcases occursAt_cons_iff.mp hv with ⟨hhead, -⟩ | ⟨w, hw, rfl⟩
          · exact absurd (List.isPrefixOf_iff_prefix.mpr hhead) hno
          · have := hfirst.first w hw (Nat.zero_le w)
            omega

/-- When nothing is found, the snippet does not occur. -/
theorem not_occursAt_of_findFrom? {snippet cs : List Char} {here : Nat}
    (h : findFrom? snippet here cs = none) (u : Nat) : ¬OccursAt snippet cs u := by
  induction cs generalizing here u with
  | nil =>
      rw [findFrom?] at h
      split at h
      · contradiction
      · next hempty =>
          rintro ⟨front, back, he, -⟩
          simp_all
  | cons c cs ih =>
      rw [findFrom?] at h
      split at h
      · contradiction
      · next hno =>
          intro hu
          rcases occursAt_cons_iff.mp hu with ⟨hhead, -⟩ | ⟨v, hv, -⟩
          · exact hno (List.isPrefixOf_iff_prefix.mpr hhead)
          · exact ih h v hv

/-- The search in the rest of a text is the search in the text from there on. -/
theorem firstFrom_of_findFrom?_rest {snippet front rest : List Char} {start : Nat}
    (h : findFrom? snippet (unitLength front) rest = some start) :
    FirstFrom snippet (front ++ rest) (unitLength front) start := by
  obtain ⟨u, rfl, hfirst⟩ := firstFrom_of_findFrom? h
  refine ⟨occursAt_append_iff.mpr hfirst.occurs, Nat.le_add_right _ _, fun v hv hle => ?_⟩
  obtain ⟨w, rfl⟩ := Nat.exists_eq_add_of_le hle
  exact Nat.add_le_add_left (hfirst.first w (occursAt_append_iff.mp hv) (Nat.zero_le w)) _

theorem not_occursAt_of_findFrom?_rest {snippet front rest : List Char}
    (h : findFrom? snippet (unitLength front) rest = none) {u : Nat} (hle : unitLength front ≤ u) :
    ¬OccursAt snippet (front ++ rest) u := by
  intro hu
  obtain ⟨w, rfl⟩ := Nat.exists_eq_add_of_le hle
  exact not_occursAt_of_findFrom? h w (occursAt_append_iff.mp hu)

/-! ## adding a child -/

/-- The node that is added for a snippet found at `start`. -/
def childAt (node : Node) (kind : String) (pos start : Nat) (snippet : String) : Node where
  kind := kind
  file := node.file
  span := ⟨pos, start, start + unitLength snippet.toList⟩

/-- Below a node of a file, a child is searched, found and added, or one of these three fails. -/
theorem build_addChild_of_file {p : Program} {parent : NodeId} {node : Node} {file : SourceFile}
    (hn : p.node? parent = some node) (hfile : p.files[node.file]? = some file)
    (kind snippet : String) :
    p.build (addChild parent kind snippet) =
      match dropUnits? file.text.toList (cursor p node) with
      | none => (.error (.splitCharacter (cursor p node)), p)
      | some rest => match findFrom? snippet.toList (cursor p node) rest with
        | none => (.error (.snippetMissing snippet (cursor p node) kind), p)
        | some start =>
          if node.span.stop < start + unitLength snippet.toList then
            (.error (.snippetTooLong snippet (start + unitLength snippet.toList) node.span.stop), p)
          else (.ok ⟨p.nodes.size⟩,
            p.withChild parent (childAt node kind (cursor p node) start snippet)) := by
  rw [addChild, build_bind, build_get]
  dsimp only
  rw [build_bind, build_known, hn]
  dsimp only
  rw [build_bind, build_known, hfile]
  dsimp only
  cases dropUnits? file.text.toList (cursor p node) with
  | none => rfl
  | some rest =>
      dsimp only
      cases findFrom? snippet.toList (cursor p node) rest with
      | none => rfl
      | some start =>
          dsimp only
          split
          · rfl
          · show p.build (addNode _ _ _) = _
            rw [build_addNode, hn]
            rfl

/-- **Adding a child ends in one of three ways**, if the cursor stands between characters: the first
occurrence from the cursor on ends inside the parent and becomes the new node, or it ends behind it,
or there is no occurrence. -/
theorem addChild_cases {p : Program} {parent : NodeId} {node : Node} {file : SourceFile}
    (hn : p.node? parent = some node) (hfile : p.files[node.file]? = some file)
    (hcursor : Boundary file.text.toList (cursor p node)) (kind snippet : String) :
    (∃ start, FirstFrom snippet.toList file.text.toList (cursor p node) start ∧
      start + unitLength snippet.toList ≤ node.span.stop ∧
      p.build (addChild parent kind snippet) = (.ok ⟨p.nodes.size⟩,
        p.withChild parent (childAt node kind (cursor p node) start snippet))) ∨
    (∃ start, FirstFrom snippet.toList file.text.toList (cursor p node) start ∧
      node.span.stop < start + unitLength snippet.toList ∧
      p.build (addChild parent kind snippet) = (.error (.snippetTooLong snippet
        (start + unitLength snippet.toList) node.span.stop), p)) ∨
    ((∀ u, cursor p node ≤ u → ¬OccursAt snippet.toList file.text.toList u) ∧
      p.build (addChild parent kind snippet) =
        (.error (.snippetMissing snippet (cursor p node) kind), p)) := by
  obtain ⟨front, rest, htext, hfront, hdrop⟩ := exists_dropUnits?_of_boundary hcursor
  have hbuild := build_addChild_of_file hn hfile kind snippet
  rw [hdrop] at hbuild
  dsimp only at hbuild
  cases hfind : findFrom? snippet.toList (cursor p node) rest with
  | none =>
      rw [hfind] at hbuild
      rw [← hfront] at hfind
      refine .inr (.inr ⟨fun u hle => ?_, hbuild⟩)
      rw [htext]
      exact not_occursAt_of_findFrom?_rest hfind (hfront ▸ hle)
  | some start =>
      rw [hfind] at hbuild
      dsimp only at hbuild
      have hfirst : FirstFrom snippet.toList file.text.toList (cursor p node) start := by
        rw [← hfront] at hfind ⊢
        rw [htext]
        exact firstFrom_of_findFrom?_rest hfind
      by_cases hstop : node.span.stop < start + unitLength snippet.toList
      · rw [if_pos hstop] at hbuild
        exact .inr (.inl ⟨start, hfirst, hstop, hbuild⟩)
      · rw [if_neg hstop] at hbuild
        exact .inl ⟨start, hfirst, Nat.le_of_not_lt hstop, hbuild⟩

/-! ## what remains -/

/-- The nodes of the first program are still what they were on their own, and the files still have
their texts. -/
structure Remains (p q : Program) : Prop where
  node : ∀ n old, p.node? n = some old → ∃ new, q.node? n = some new ∧ new.kind = old.kind ∧
    new.file = old.file ∧ new.span = old.span
  text : ∀ (k : Nat) (f : SourceFile), p.files[k]? = some f →
    ∃ g, q.files[k]? = some g ∧ g.text = f.text

namespace Remains

theorem refl (p : Program) : Remains p p where
  node _ old hn := ⟨old, hn, rfl, rfl, rfl⟩
  text _ f hf := ⟨f, hf, rfl⟩

theorem trans {p q r : Program} (h : Remains p q) (h' : Remains q r) : Remains p r where
  node n old hn := by
    obtain ⟨mid, hmid, hkind, hfile, hspan⟩ := h.node n old hn
    obtain ⟨new, hnew, hkind', hfile', hspan'⟩ := h'.node n mid hmid
    exact ⟨new, hnew, hkind'.trans hkind, hfile'.trans hfile, hspan'.trans hspan⟩
  text k f hf := by
    obtain ⟨g, hg, htext⟩ := h.text k f hf
    obtain ⟨g', hg', htext'⟩ := h'.text k g hg
    exact ⟨g', hg', htext'.trans htext⟩

/-- What a node covers is a matter of its span and the text of its file. -/
theorem nodeText? {p q : Program} (h : Remains p q) {n : NodeId} {node : Node} {file : SourceFile}
    (hn : p.node? n = some node) (hfile : p.files[node.file]? = some file) :
    q.nodeText? n = p.nodeText? n := by
  obtain ⟨new, hnew, -, hnumber, hspan⟩ := h.node n node hn
  obtain ⟨g, hg, htext⟩ := h.text _ file hfile
  simp [Program.nodeText?, hn, hfile, hnew, hnumber, hspan, hg, htext]

end Remains

theorem node_of_adds {p q : Program} {parent : Option NodeId} {added : Node}
    (h : Adds p q parent added) {n : NodeId} {old : Node} (hn : p.node? n = some old) :
    ∃ new, q.node? n = some new ∧ new.kind = old.kind ∧ new.file = old.file ∧
      new.span = old.span := by
  have hlt : n.index < p.nodes.size := (Array.getElem?_eq_some_iff.mp hn).1
  rw [h.node?, if_neg (Nat.ne_of_lt hlt), hn]
  refine ⟨_, rfl, ?_⟩
  split <;> exact ⟨rfl, rfl, rfl⟩

theorem node_of_bare {p q : Program} (h : q.nodes.map Node.bare = p.nodes.map Node.bare)
    {n : NodeId} {old : Node} (hn : p.node? n = some old) :
    ∃ new, q.node? n = some new ∧ new.kind = old.kind ∧ new.file = old.file ∧
      new.span = old.span := by
  have hbare : (q.node? n).map Node.bare = some old.bare := by
    rw [node?, ← Array.getElem?_map, h, Array.getElem?_map]
    exact congrArg (Option.map Node.bare) hn
  obtain ⟨new, hnew, he⟩ := Option.map_eq_some_iff.mp hbare
  have hkind := congrArg (·.kind) he
  have hfile := congrArg (·.file) he
  have hspan := congrArg (·.span) he
  exact ⟨new, hnew, hkind, hfile, hspan⟩

theorem remains_withChild {p : Program} {parent : NodeId} {node child : Node}
    (hn : p.node? parent = some node) (hchild : child.children = []) :
    Remains p (p.withChild parent child) where
  node _ _ hold := node_of_adds (adds_withChild hn hchild) hold
  text _ f hf := ⟨f, hf, rfl⟩

/-- **Step lemma**: whatever a step does, and whether it fails, what was there remains. -/
theorem remains_take (p : Program) (s : Step) : Remains p (p.take s).2 where
  node n old hn := by
    rcases take_nodes p s with hbare | ⟨name, text, -, hpush⟩ | ⟨parent, kind, node, span, hm, -, hq⟩
    · exact node_of_bare hbare hn
    · exact node_of_adds (adds_push rfl hpush) hn
    · rw [hq]
      exact node_of_adds (adds_withChild hm rfl) hn
  text k f hf := by
    rcases take_files p s with hbare | ⟨name, text, -, hpush⟩
    · obtain ⟨g, hg, he⟩ := files_of_bare hbare.symm hf
      exact ⟨g, hg, congrArg (·.text) he⟩
    · have hlt := (Array.getElem?_eq_some_iff.mp hf).1
      rw [hpush, Array.getElem?_push, if_neg (Nat.ne_of_lt hlt)]
      exact ⟨f, hf, rfl⟩

/-- **Run lemma**: what was there remains through all later steps. -/
theorem remains_layOut (p : Program) (steps : List Step) : Remains p (p.layOut steps) :=
  layOut_induction (fun q s hq => hq.trans (remains_take q s)) steps (.refl p)

/-! ## nodes on boundaries -/

/-- Every node begins and ends between characters of its file's text. -/
def OnBoundaries (p : Program) : Prop :=
  ∀ n node file, p.node? n = some node → p.files[node.file]? = some file →
    Boundary file.text.toList node.span.start ∧ Boundary file.text.toList node.span.stop

theorem SoundTrees.exists_file {p : Program} (hp : p.SoundTrees) {n : NodeId} {node : Node}
    (hn : p.node? n = some node) : ∃ file, p.files[node.file]? = some file := by
  have hlt := hp.inFile n node.file (by rw [fileNumber?, hn]; rfl)
  exact ⟨_, Array.getElem?_eq_getElem hlt⟩

/-- Where the next child of a node is looked for: at the node's start while it has no child, then at
the end of its last child. -/
inductive CursorAt (p : Program) (node : Node) : Nat → Prop
  | first (h : node.children = []) : CursorAt p node node.span.start
  | behind {last : NodeId} {child : Node} (h : node.children.getLast? = some last)
    (hchild : p.node? last = some child) : CursorAt p node child.span.stop

theorem SoundTrees.cursorAt {p : Program} (hp : p.SoundTrees) {n : NodeId} {node : Node}
    (hn : p.node? n = some node) : CursorAt p node (cursor p node) := by
  unfold cursor
  cases hlast : node.children.getLast? with
  | none => exact .first (List.getLast?_eq_none_iff.mp hlast)
  | some last =>
      have hmem : last ∈ p.checker.children n := by
        simpa [checker, hn] using List.mem_of_getLast? hlast
      obtain ⟨child, hchild⟩ : ∃ child, p.node? last = some child :=
        ⟨_, Array.getElem?_eq_getElem (hp.ordered.counted n last hmem)⟩
      rw [Option.bind_some, hchild]
      exact .behind hlast hchild

/-- A child is in the file of its parent, so the cursor stands between characters. -/
theorem OnBoundaries.cursor {p : Program} (hb : p.OnBoundaries) (hp : p.SoundTrees) {n : NodeId}
    {node : Node} {file : SourceFile} (hn : p.node? n = some node)
    (hfile : p.files[node.file]? = some file) : Boundary file.text.toList (cursor p node) := by
  have hcursor := hp.cursorAt hn
  generalize Program.cursor p node = pos at hcursor ⊢
  cases hcursor with
  | first h => exact (hb n node file hn hfile).1
  | @behind last child h hchild =>
      have hmem : last ∈ p.checker.children n := by
        simpa [checker, hn] using List.mem_of_getLast? h
      have hsame : child.file = node.file := by
        simpa [fileNumber?, hn, hchild] using hp.sameFile n last hmem
      exact (hb last child file hchild (hsame ▸ hfile)).2

/-- Nodes that were there stay on boundaries. -/
theorem Remains.boundaries {p q : Program} (h : Remains p q) (hb : p.OnBoundaries)
    (hp : p.SoundTrees) {n : NodeId} {old new : Node} {file : SourceFile}
    (hn : p.node? n = some old) (hnew : q.node? n = some new)
    (hfile : q.files[new.file]? = some file) :
    Boundary file.text.toList new.span.start ∧ Boundary file.text.toList new.span.stop := by
  obtain ⟨f, hf⟩ := hp.exists_file hn
  obtain ⟨new', hnew', -, hnumber, hspan⟩ := h.node n old hn
  obtain rfl := Option.some.inj (hnew'.symm.trans hnew)
  obtain ⟨g, hg, htext⟩ := h.text _ f hf
  rw [hnumber] at hfile
  obtain rfl := Option.some.inj (hg.symm.trans hfile)
  rw [hspan, htext]
  exact hb n old f hn hf

/-- One more node keeps nodes on boundaries if it stands on them. -/
theorem Adds.onBoundaries {p q : Program} {parent : Option NodeId} {added : Node}
    (h : Adds p q parent added) (hremains : Remains p q) (hb : p.OnBoundaries) (hp : p.SoundTrees)
    (hadded : ∀ file, q.files[added.file]? = some file →
      Boundary file.text.toList added.span.start ∧ Boundary file.text.toList added.span.stop) :
    q.OnBoundaries := by
  intro n new file hnew hfile
  have hnode := h.node? n
  split at hnode
  · obtain rfl := Option.some.inj (hnode.symm.trans hnew)
    exact hadded file hfile
  · obtain ⟨old, hold, -⟩ := Option.map_eq_some_iff.mp (hnode.symm.trans hnew)
    exact hremains.boundaries hb hp hold hnew hfile

/-- **Step lemma**: a step that does not give the span of a node keeps nodes on boundaries. -/
theorem onBoundaries_take {p : Program} {s : Step} (hs : s.PlacesByText) (hb : p.OnBoundaries)
    (hp : p.SoundTrees) : (p.take s).2.OnBoundaries := by
  have hremains := remains_take p s
  rcases take_nodes p s with hbare | ⟨name, text, rfl, hpush⟩ |
    ⟨parent, kind, node, span, hn, rfl | ⟨snippet, rfl, -⟩, -⟩
  · intro n new file hnew hfile
    obtain ⟨old, hold, -⟩ := node_of_bare hbare.symm hnew
    exact hremains.boundaries hb hp hold hnew hfile
  · refine (adds_push rfl hpush).onBoundaries hremains hb hp fun file hfile => ?_
    have hlast : (p.files.push _)[p.files.size]? = some file := hfile
    rw [Array.getElem?_push_size] at hlast
    obtain rfl := Option.some.inj hlast
    exact ⟨boundary_zero _, boundary_unitLength _⟩
  · exact absurd rfl (hs parent kind span)
  · obtain ⟨file, hfile⟩ := hp.exists_file hn
    have hsecond : (p.take (.addChild parent kind snippet)).2 =
        (p.build (addChild parent kind snippet)).2 := by
      simp only [take, Step.run, build_map_snd]
    rw [hsecond] at hremains ⊢
    rcases addChild_cases hn hfile (hb.cursor hp hn hfile) kind snippet with
      ⟨start, hfirst, -, hq⟩ | ⟨start, -, -, hq⟩ | ⟨-, hq⟩
    · rw [hq] at hremains ⊢
      refine (adds_withChild hn rfl).onBoundaries hremains hb hp fun g hg => ?_
      obtain rfl := Option.some.inj (hfile.symm.trans hg)
      exact hfirst.occurs.boundaries
    · rw [hq]
      exact hb
    · rw [hq]
      exact hb

/-- **Run lemma**: when every node is a root or placed by its text, all nodes stand on boundaries. -/
theorem onBoundaries_layOut {steps : List Step} (hsteps : ∀ s ∈ steps, s.PlacesByText) {p : Program}
    (hb : p.OnBoundaries) (hp : p.SoundTrees) : (p.layOut steps).OnBoundaries := by
  induction steps generalizing p with
  | nil => exact hb
  | cons s steps ih =>
      exact ih (fun t ht => hsteps t (List.mem_cons_of_mem s ht))
        (onBoundaries_take (hsteps s List.mem_cons_self) hb hp) (soundTrees_take s hp)

theorem onBoundaries_empty : empty.OnBoundaries := by
  intro n node file hn
  simp [empty, node?] at hn

/-! ## placing by text -/

/-- What a node covers that stands where its text occurs. -/
theorem nodeText?_of_occursAt {p : Program} {n : NodeId} {node : Node} {file : SourceFile}
    (hn : p.node? n = some node) (hfile : p.files[node.file]? = some file) {snippet : String}
    (h : OccursAt snippet.toList file.text.toList node.span.start)
    (hstop : node.span.stop = node.span.start + unitLength snippet.toList) :
    p.nodeText? n = some snippet := by
  obtain ⟨front, back, htext, hfront⟩ := h
  have htake : takeUnits? file.text.toList node.span.stop = some (front ++ snippet.toList) := by
    rw [hstop, ← hfront, ← unitLength_append, htext]
    exact takeUnits?_append (front ++ snippet.toList) back
  have hdrop : dropUnits? (front ++ snippet.toList) node.span.start = some snippet.toList := by
    rw [← hfront]
    exact dropUnits?_append front snippet.toList
  simp [nodeText?, hn, hfile, htake, hdrop]

theorem node?_withChild_new {p : Program} {parent : NodeId} {node child : Node}
    (hn : p.node? parent = some node) (hchild : child.children = []) :
    (p.withChild parent child).node? ⟨p.nodes.size⟩ = some child := by
  rw [(adds_withChild hn hchild).node?, if_pos rfl]

/-- A child that stands where its text occurs covers that text, whatever is done later, and what was
there covers what it did. -/
theorem nodeText?_layOut_withChild {p : Program} (hp : p.SoundTrees) {parent : NodeId} {node : Node}
    {file : SourceFile} (hn : p.node? parent = some node) (hfile : p.files[node.file]? = some file)
    {snippet : String} {start : Nat} (h : OccursAt snippet.toList file.text.toList start)
    (kind : String) (pos : Nat) (later : List Step) :
    let q := (p.withChild parent (childAt node kind pos start snippet)).layOut later
    q.nodeText? ⟨p.nodes.size⟩ = some snippet ∧ Remains p q ∧
      ∀ n old, p.node? n = some old → q.nodeText? n = p.nodeText? n := by
  intro q
  have hchild : (p.withChild parent (childAt node kind pos start snippet)).node? ⟨p.nodes.size⟩ =
      some (childAt node kind pos start snippet) := node?_withChild_new hn rfl
  have hlater : Remains _ q := remains_layOut _ later
  have hremains := (remains_withChild hn rfl).trans hlater
  refine ⟨?_, hremains, fun n old hold => ?_⟩
  · rw [hlater.nodeText? hchild hfile]
    exact nodeText?_of_occursAt hchild hfile h rfl
  · obtain ⟨f, hf⟩ := hp.exists_file hold
    exact hremains.nodeText? hold hf

/-- **A child is placed exactly**: in a program whose nodes are roots of files or placed by their
text, and below any node of it, a child is added just if its text occurs between the cursor and the
end of the node. It then stands at the first occurrence behind the cursor and covers that text, then
and after all later steps, and so do all nodes that were there before. Otherwise the program is left
as it was, and the failure says that the text is missing or reaches too far. -/
theorem addChild_places_exactly (steps : List Step) (hsteps : ∀ s ∈ steps, s.PlacesByText)
    {parent : NodeId} {node : Node} (hn : (empty.layOut steps).node? parent = some node)
    (kind snippet : String) :
    let p := empty.layOut steps
    let run := p.build (addChild parent kind snippet)
    ∃ file pos, p.files[node.file]? = some file ∧ CursorAt p node pos ∧
      ((∃ child, run.1 = .ok child) ↔ ∃ u, OccursAt snippet.toList file.text.toList u ∧ pos ≤ u ∧
        u + unitLength snippet.toList ≤ node.span.stop) ∧
      (∀ child, run.1 = .ok child → ∃ start,
        FirstFrom snippet.toList file.text.toList pos start ∧
        start + unitLength snippet.toList ≤ node.span.stop ∧
        run.2 = p.withChild parent (childAt node kind pos start snippet) ∧
        run.2.node? child = some (childAt node kind pos start snippet) ∧
        ∀ later, (run.2.layOut later).nodeText? child = some snippet ∧
          Remains p (run.2.layOut later) ∧ ∀ n old, p.node? n = some old →
            (run.2.layOut later).nodeText? n = p.nodeText? n) ∧
      ∀ fault, run.1 = .error fault → run.2 = p ∧ (∀ u, fault ≠ .splitCharacter u) ∧
        ((fault = .snippetMissing snippet pos kind ∧
            ∀ u, pos ≤ u → ¬OccursAt snippet.toList file.text.toList u) ∨
          ∃ start, FirstFrom snippet.toList file.text.toList pos start ∧
            node.span.stop < start + unitLength snippet.toList ∧
            fault = .snippetTooLong snippet (start + unitLength snippet.toList) node.span.stop) := by
  intro p run
  have hp : p.SoundTrees := soundTrees_layOut steps
  have hb : p.OnBoundaries := onBoundaries_layOut hsteps onBoundaries_empty soundTrees_empty
  obtain ⟨file, hfile⟩ := hp.exists_file hn
  refine ⟨file, cursor p node, hfile, hp.cursorAt hn, ?_⟩
  rcases addChild_cases hn hfile (hb.cursor hp hn hfile) kind snippet with
    ⟨start, hfirst, hstop, hrun⟩ | ⟨start, hfirst, hstop, hrun⟩ | ⟨hno, hrun⟩
  · rw [show run = _ from hrun]
    refine ⟨⟨fun _ => ⟨start, hfirst.occurs, hfirst.le, hstop⟩, fun _ => ⟨_, rfl⟩⟩,
      fun child hok => ?_, fun fault hfault => by contradiction⟩
    obtain rfl := Except.ok.inj hok
    exact ⟨start, hfirst, hstop, rfl, node?_withChild_new hn rfl,
      nodeText?_layOut_withChild hp hn hfile hfirst.occurs kind (cursor p node)⟩
  · rw [show run = _ from hrun]
    refine ⟨⟨fun ⟨child, hok⟩ => by contradiction, fun ⟨u, hu, hle, hend⟩ => ?_⟩,
      fun child hok => by contradiction, fun fault hfault => ?_⟩
    · have := hfirst.first u hu hle
      omega
    · obtain rfl := Except.error.inj hfault
      exact ⟨rfl, fun u => nofun, .inr ⟨start, hfirst, hstop, rfl⟩⟩
  · rw [show run = _ from hrun]
    refine ⟨⟨fun ⟨child, hok⟩ => by contradiction, fun ⟨u, hu, hle, _⟩ => absurd hu (hno u hle)⟩,
      fun child hok => by contradiction, fun fault hfault => ?_⟩
    obtain rfl := Except.error.inj hfault
    exact ⟨rfl, fun u => nofun, .inl ⟨rfl, hno⟩⟩

/-- An astral character stands before the cursor, and so does the first of the three places at which
the snippet occurs. -/
theorem addChild_places_exactly_behind_pair :
    let steps : List Step := [.addFile "/a.ts" "😀aa a", .addChild ⟨0⟩ "Head" "😀a"]
    (∀ s ∈ steps, s.PlacesByText) ∧
    ∃ node child, (empty.layOut steps).node? ⟨0⟩ = some node ∧
      ((empty.layOut steps).build (addChild ⟨0⟩ "Tail" "a")).1 = .ok child ∧
      ∀ later, (((empty.layOut steps).build (addChild ⟨0⟩ "Tail" "a")).2.layOut later).nodeText?
        child = some "a" := by
  intro steps
  have hsteps : ∀ s ∈ steps, s.PlacesByText := by
    intro s hs parent kind span he
    simp [steps, he] at hs
  have hn : (empty.layOut steps).node? ⟨0⟩ = some
      { kind := "SourceFile", file := 0, span := ⟨0, 0, 6⟩, children := [⟨1⟩] } := by decide +kernel
  have hok : ((empty.layOut steps).build (addChild ⟨0⟩ "Tail" "a")).1 = .ok ⟨2⟩ := by
    decide +kernel
  obtain ⟨file, pos, -, -, -, hplaced, -⟩ := addChild_places_exactly steps hsteps hn "Tail" "a"
  obtain ⟨start, -, -, -, -, hlater⟩ := hplaced ⟨2⟩ hok
  exact ⟨hsteps, _, _, hn, hok, fun later => (hlater later).1⟩

end TypeQuery.Program
