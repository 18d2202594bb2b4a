import TypeQuery.Checker.Locate

/-!
# TypeQuery.Proofs.Checker.Locate

The search for the node at an offset takes the first child with the offset in
its span and never comes back.  That is enough in a tree whose spans are *tiled*:
the children of a node follow each other without a gap, from the first token of
the node up to its end at most.

```
start          stop of 1st      stop of 2nd                   stop
  | 1st child       | 2nd child      |  …  | last child | …    |
```

Two children then share at most the place where one ends and the next begins, so
a node with `pos < offset ≤ stop` is the only child of its parent that the search
can go to.

* `Below` — so many levels below a node;
* `Ordered.search_locate` — where children come after their parents, the search ends;
* `Tiled` — the spans of a checker are tiled;
* `Tiled.descend_eq_of_below` — the search passes through every such node;
* `Tiled.childAt?_locate` — the search ends where no child has the offset;
* `Tiled.deepestAt_locate` — so it ends at the deepest node.
-/

namespace TypeQuery.Checker

/-! ## trees -/

/-- The second node is that many levels below the first one. -/
inductive Below (c : Checker) : Nat → NodeId → NodeId → Prop
  | refl (n : NodeId) : Below c 0 n n
  | step {k : Nat} {n child m : NodeId} (hchild : child ∈ c.children n) (hm : Below c k child m) :
    Below c (k + 1) n m

theorem Below.trans {c : Checker} {j k : Nat} {l m n : NodeId} (hm : c.Below j l m)
    (hn : c.Below k m n) : c.Below (j + k) l n := by
  induction hm with
  | refl => rwa [Nat.zero_add]
  | step hchild _ ih =>
      rw [Nat.add_right_comm]
      exact .step hchild (ih hn)

/-- The nodes follow each other without a gap, from an offset up to at most a bound. -/
inductive Tiles (span? : NodeId → Option NodeSpan) (bound : Nat) : Nat → List NodeId → Prop
  | nil {here : Nat} (h : here ≤ bound) : Tiles span? bound here []
  | cons {n : NodeId} {s : NodeSpan} {ns : List NodeId} (hs : span? n = some s)
    (hpos : s.pos ≤ s.start) (hstart : s.start ≤ s.stop) (rest : Tiles span? bound s.stop ns) :
    Tiles span? bound s.pos (n :: ns)

namespace Tiles

variable {span? : NodeId → Option NodeSpan} {bound here : Nat} {ns : List NodeId}

theorem le_bound (h : Tiles span? bound here ns) : here ≤ bound := by
  induction h with
  | nil h => exact h
  | cons => omega

/-- Every tile lies between the two ends. -/
theorem within (h : Tiles span? bound here ns) :
    ∀ n ∈ ns, ∃ s, span? n = some s ∧ here ≤ s.pos ∧ s.stop ≤ bound := by
  induction h with
  | nil => simp
  | cons hs hpos hstart rest ih =>
      intro m hm
      cases List.mem_cons.mp hm with
      | inl he => exact ⟨_, he ▸ hs, Nat.le_refl _, rest.le_bound⟩
      | inr hm =>
          obtain ⟨t, ht, hle, hstop⟩ := ih m hm
          exact ⟨t, ht, by omega, hstop⟩

/-- A tile that begins before an offset and does not end before it is the first one with the offset
in its span. -/
theorem find?_eq (h : Tiles span? bound here ns) {n : NodeId} {s : NodeSpan} {offset : Nat}
    (hn : n ∈ ns) (hs : span? n = some s) (hpos : s.pos < offset) (hstop : offset ≤ s.stop) :
    (ns.find? fun m => (span? m).any (·.contains offset)) = some n := by
  induction h with
  | nil => simp at hn
  | @cons m t ms ht htpos htstart rest ih =>
      by_cases hm : n = m
      · subst hm
        rw [List.find?_cons_of_pos]
        simp [hs, NodeSpan.contains]
        omega
      · have hmem : n ∈ ms := (List.mem_cons.mp hn).resolve_left hm
        obtain ⟨u, hu, hle, -⟩ := rest.within n hmem
        obtain rfl : u = s := Option.some.inj (hu.symm.trans hs)
        rw [List.find?_cons_of_neg]
        · exact ih hmem
        · simp [ht, NodeSpan.contains]
          omega

/-- More nodes may come to have a span. -/
theorem mono {span?' : NodeId → Option NodeSpan} (h : Tiles span? bound here ns)
    (hsub : ∀ n s, span? n = some s → span?' n = some s) : Tiles span?' bound here ns := by
  induction h with
  | nil h => exact .nil h
  | cons hs hpos hstart _ ih => exact .cons (hsub _ _ hs) hpos hstart ih

/-- Where the last tile ends, one more may begin. -/
theorem append (h : Tiles span? bound here ns) {n : NodeId} {s : NodeSpan} (hs : span? n = some s)
    (hat : s.pos = ((ns.getLast?.bind span?).map (·.stop)).getD here) (hpos : s.pos ≤ s.start)
    (hstart : s.start ≤ s.stop) (hstop : s.stop ≤ bound) :
    Tiles span? bound here (ns ++ [n]) := by
  induction h with
  | nil =>
      simp at hat
      rw [← hat]
      exact .cons hs hpos hstart (.nil hstop)
  | @cons m t ms ht htpos htstart rest ih =>
      refine .cons ht htpos htstart (ih ?_)
      cases ms with
      | nil => simpa [ht] using hat
      | cons m' ms =>
          -- the last of two or more tiles has a span
          rw [List.getLast?_cons_cons] at hat
          have hlast := List.getLast?_eq_some_getLast (List.cons_ne_nil m' ms)
          obtain ⟨u, hu, -⟩ := rest.within _ (List.getLast_mem (List.cons_ne_nil m' ms))
          rw [hlast, Option.bind_some, hu] at hat ⊢
          exact hat

end Tiles

/-! ## going down -/

variable {c : Checker} {offset : Nat}

theorem mem_children_of_childAt? {n child : NodeId} (h : c.childAt? n offset = some child) :
    child ∈ c.children n ∧ ∃ s, c.span? child = some s ∧ s.contains offset = true := by
  have hany := List.find?_some h
  refine ⟨List.mem_of_find?_eq_some h, ?_⟩
  cases hs : c.span? child with
  | none => simp [hs] at hany
  | some s => exact ⟨s, rfl, by simpa [hs] using hany⟩

/-- The search comes to the node itself, or to one below that has the offset in its span. -/
theorem below_descend (c : Checker) (offset levels : Nat) (n : NodeId) :
    (∃ k, c.Below k n (c.descend offset levels n)) ∧
    (c.descend offset levels n = n ∨
      ∃ s, c.span? (c.descend offset levels n) = some s ∧ s.contains offset = true) := by
  induction levels generalizing n with
  | zero => exact ⟨⟨0, .refl n⟩, .inl rfl⟩
  | succ levels ih =>
      rw [descend]
      cases hchild : c.childAt? n offset with
      | none => exact ⟨⟨0, .refl n⟩, .inl rfl⟩
      | some child =>
          obtain ⟨hmem, hspan⟩ := mem_children_of_childAt? hchild
          obtain ⟨⟨k, hk⟩, hin⟩ := ih child
          refine ⟨⟨k + 1, .step hmem hk⟩, .inr ?_⟩
          cases hin with
          | inl hsame => dsimp only; rwa [hsame]
          | inr hfound => exact hfound

/-! ## the end of the search -/

/-- Where the search ends that goes on, without a bound on its levels, as long as some child has the
offset in its span. -/
inductive Search (c : Checker) (offset : Nat) : NodeId → NodeId → Prop
  | found {n : NodeId} (h : c.childAt? n offset = none) : Search c offset n n
  | down {n child m : NodeId} (h : c.childAt? n offset = some child)
    (rest : Search c offset child m) : Search c offset n m

namespace Search

variable {n m : NodeId}

theorem unique {m' : NodeId} (h : c.Search offset n m) (h' : c.Search offset n m') : m = m' := by
  induction h with
  | found h =>
      cases h' with
      | found => rfl
      | down hchild => rw [h] at hchild; contradiction
  | down hchild _ ih =>
      cases h' with
      | found h => rw [h] at hchild; contradiction
      | down hchild' rest =>
          obtain rfl := Option.some.inj (hchild.symm.trans hchild')
          exact ih rest

theorem childAt?_eq_none (h : c.Search offset n m) : c.childAt? m offset = none := by
  induction h with
  | found h => exact h
  | down _ _ ih => exact ih

/-- What children have in common with their parents, the end has in common with the start. -/
theorem eq_of_inherited {α : Type} {f : NodeId → α} (h : c.Search offset n m)
    (hf : ∀ n, ∀ child ∈ c.children n, f child = f n) : f m = f n := by
  induction h with
  | found => rfl
  | down hchild _ ih => exact ih.trans (hf _ _ (mem_children_of_childAt? hchild).1)

end Search

/-- Every child is one of the nodes that are counted, and comes after its parent. -/
structure Ordered (c : Checker) : Prop where
  counted : ∀ n, ∀ child ∈ c.children n, child.index < c.nodeCount
  after : ∀ n, ∀ child ∈ c.children n, n.index < child.index

namespace Ordered

variable (hc : c.Ordered)
include hc

/-- There are never more levels to go down than there are nodes. -/
theorem search_descend {levels : Nat} {n : NodeId} (h : c.nodeCount ≤ n.index + levels) :
    c.Search offset n (c.descend offset levels n) := by
  induction levels generalizing n with
  | zero =>
      rw [descend]
      cases hchild : c.childAt? n offset with
      | none => exact .found hchild
      | some child =>
          have hmem := (mem_children_of_childAt? hchild).1
          have hlt := hc.counted n child hmem
          have hafter := hc.after n child hmem
          omega
  | succ levels ih =>
      rw [descend]
      cases hchild : c.childAt? n offset with
      | none => exact .found hchild
      | some child =>
          have hafter := hc.after n child (mem_children_of_childAt? hchild).1
          exact .down hchild (ih (by omega))

/-- The search ends, from every node and at every offset. -/
theorem search_locate (start : NodeId) (offset : Nat) :
    c.Search offset start (c.locate start offset) :=
  hc.search_descend (Nat.le_add_left _ _)

end Ordered

/-! ## tiled trees -/

/-- The spans of all children are tiled inside the tokens of their parents, and children come after
their parents. -/
structure Tiled (c : Checker) : Prop where
  numbered : ∀ n s, c.span? n = some s → n.index < c.nodeCount
  pos_le : ∀ n s, c.span? n = some s → s.pos ≤ s.start
  spanned : ∀ n, ∀ child ∈ c.children n, ∃ s, c.span? n = some s
  tiles : ∀ n s, c.span? n = some s → Tiles c.span? s.stop s.start (c.children n)
  after : ∀ n, ∀ child ∈ c.children n, n.index < child.index

namespace Tiled

variable (hc : c.Tiled)
include hc

theorem index_add_le {k : Nat} {n m : NodeId} (h : c.Below k n m) : n.index + k ≤ m.index := by
  induction h with
  | refl => exact Nat.le_refl _
  | step hchild _ ih =>
      have := hc.after _ _ hchild
      omega

/-- What is below a node lies inside the span of the node. -/
theorem within_of_below {k : Nat} {n m : NodeId} (h : c.Below k n m) {s : NodeSpan}
    (hs : c.span? m = some s) : ∃ t, c.span? n = some t ∧ t.pos ≤ s.pos ∧ s.stop ≤ t.stop := by
  induction h with
  | refl => exact ⟨s, hs, Nat.le_refl _, Nat.le_refl _⟩
  | @step k n child m hchild _ ih =>
      obtain ⟨u, hu, hpos, hstop⟩ := ih hs
      obtain ⟨t, ht⟩ := hc.spanned n child hchild
      obtain ⟨u', hu', hle, hbound⟩ := (hc.tiles n t ht).within child hchild
      obtain rfl : u' = u := Option.some.inj (hu'.symm.trans hu)
      have := hc.pos_le n t ht
      exact ⟨t, ht, by omega, by omega⟩

/-! ## the descent -/

/-- **Step lemma**: towards a node that begins before the offset and does not end before it, the
search goes to the child that the node is below of. -/
theorem childAt?_eq_of_below {k : Nat} {n child m : NodeId} (hchild : child ∈ c.children n)
    (h : c.Below k child m) {s : NodeSpan} (hs : c.span? m = some s) (hpos : s.pos < offset)
    (hstop : offset ≤ s.stop) : c.childAt? n offset = some child := by
  obtain ⟨t, ht⟩ := hc.spanned n child hchild
  obtain ⟨u, hu, hle, hbound⟩ := hc.within_of_below h hs
  exact (hc.tiles n t ht).find?_eq hchild hu (by omega) (by omega)

/-- **Run lemma**: the search passes through every node that begins before the offset and does not
end before it. -/
theorem descend_eq_of_below {k : Nat} {n m : NodeId} (h : c.Below k n m) {s : NodeSpan}
    (hs : c.span? m = some s) (hpos : s.pos < offset) (hstop : offset ≤ s.stop) (levels : Nat) :
    c.descend offset (k + levels) n = c.descend offset levels m := by
  induction h with
  | refl => rw [Nat.zero_add]
  | @step k n child m hchild hbelow ih =>
      rw [Nat.add_right_comm, descend, hc.childAt?_eq_of_below hchild hbelow hs hpos hstop]
      exact ih hs

theorem ordered : c.Ordered where
  counted n child hchild := by
    obtain ⟨s, hs⟩ := hc.spanned n child hchild
    obtain ⟨t, ht, -⟩ := (hc.tiles n s hs).within child hchild
    exact hc.numbered child t ht
  after := hc.after

theorem childAt?_locate (root : NodeId) (offset : Nat) :
    c.childAt? (c.locate root offset) offset = none :=
  (hc.ordered.search_locate root offset).childAt?_eq_none

/-- A node that begins before the offset and does not end before it is where the search ends, or
above it. -/
theorem below_locate {k : Nat} {root n : NodeId} (h : c.Below k root n) {s : NodeSpan}
    (hs : c.span? n = some s) (hpos : s.pos < offset) (hstop : offset ≤ s.stop) :
    ∃ j, c.Below j n (c.locate root offset) := by
  have hlevels : k ≤ c.nodeCount := by
    have := hc.index_add_le h
    have := hc.numbered n s hs
    omega
  rw [locate, ← Nat.add_sub_cancel' hlevels, hc.descend_eq_of_below h hs hpos hstop]
  exact (c.below_descend offset _ n).1

/-- Of two such nodes one is below the other. -/
theorem below_of_below {k l : Nat} {root n m : NodeId} (hn : c.Below k root n)
    (hm : c.Below l root m) {s t : NodeSpan} (hs : c.span? n = some s) (ht : c.span? m = some t)
    (hpos : s.pos < offset) (hstop : offset ≤ s.stop) (hpos' : t.pos < offset)
    (hstop' : offset ≤ t.stop) (hkl : k ≤ l) : ∃ j, c.Below j n m := by
  have hdown : c.descend offset l root = m := hc.descend_eq_of_below hm ht hpos' hstop' 0
  rw [← Nat.add_sub_cancel' hkl, hc.descend_eq_of_below hn hs hpos hstop] at hdown
  rw [← hdown]
  exact (c.below_descend offset _ n).1

end Tiled

/-! ## the deepest node -/

/-- What it means that `found` is the deepest node at an offset in the tree below `root`. -/
structure DeepestAt (c : Checker) (root : NodeId) (offset : Nat) (found : NodeId) : Prop where
  /-- It is a node of the tree. -/
  inTree : ∃ k, c.Below k root found
  /-- Every node that begins before the offset and does not end before it is the found one or above
  it, and so at most as deep. -/
  deepest : ∀ k n s, c.Below k root n → c.span? n = some s → s.pos < offset → offset ≤ s.stop →
    ∃ j, c.Below j n found ∧ c.Below (k + j) root found
  /-- Of two such nodes one is the other or above it. -/
  chain : ∀ k n s l m t, c.Below k root n → c.span? n = some s → s.pos < offset → offset ≤ s.stop →
    c.Below l root m → c.span? m = some t → t.pos < offset → offset ≤ t.stop →
    (∃ j, c.Below j n m) ∨ ∃ j, c.Below j m n
  /-- Below the root, the found node has the offset in its span. -/
  spans : found = root ∨ ∃ s, c.span? found = some s ∧ s.pos ≤ offset ∧ offset ≤ s.stop
  /-- No child of the found node has the offset in its span. -/
  childless : ∀ child ∈ c.children found, ∀ s, c.span? child = some s →
    ¬ (s.pos ≤ offset ∧ offset ≤ s.stop)

theorem Tiled.deepestAt_locate (hc : c.Tiled) (root : NodeId) (offset : Nat) :
    DeepestAt c root offset (c.locate root offset) := by
  have hdown := c.below_descend offset c.nodeCount root
  constructor
  · exact hdown.1
  · intro k n s hn hs hpos hstop
    obtain ⟨j, hj⟩ := hc.below_locate hn hs hpos hstop
    exact ⟨j, hj, hn.trans hj⟩
  · intro k n s l m t hn hs hpos hstop hm ht hpos' hstop'
    cases Nat.le_total k l with
    | inl hkl => exact .inl (hc.below_of_below hn hm hs ht hpos hstop hpos' hstop' hkl)
    | inr hlk => exact .inr (hc.below_of_below hm hn ht hs hpos' hstop' hpos hstop hlk)
  · exact hdown.2.imp_right fun ⟨s, hs, hin⟩ => ⟨s, hs, by simpa [NodeSpan.contains] using hin⟩
  · intro child hchild s hs hin
    have hnone := List.find?_eq_none.mp (hc.childAt?_locate root offset) child hchild
    simp [hs, NodeSpan.contains] at hnone
    omega

end TypeQuery.Checker
