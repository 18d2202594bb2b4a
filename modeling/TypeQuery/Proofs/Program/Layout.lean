import TypeQuery.Proofs.Checker.Locate
import TypeQuery.Proofs.Program.Nodes

/-!
# TypeQuery.Proofs.Program.Layout

Where nodes stand when all of them are placed by their text.  A child is looked
for behind its last sibling, and has to end inside its parent, so every step
keeps the children of all nodes tiled (`tiled_take`).  A node whose span is given
can stand anywhere; programs with such nodes are left out here.

* `tiled_layOut` — the spans of such a program are tiled;
* `locate_finds_deepest` — the search for an offset ends at the deepest node.
-/

namespace TypeQuery.Program

open Checker

/-! ## the same tree -/

theorem SameTree.tiled {p q : Program} (h : SameTree p q) (hp : p.checker.Tiled) :
    q.checker.Tiled := by
  have hcount : q.checker.nodeCount = p.checker.nodeCount := h.size
  constructor
  · rw [h.span?, hcount]
    exact hp.numbered
  · rw [h.span?]
    exact hp.pos_le
  · rw [h.span?, h.children]
    exact hp.spanned
  · rw [h.span?, h.children]
    exact hp.tiles
  · rw [h.children]
    exact hp.after

/-! ## one more node -/

/-- What the checker says after a node without children was added, as the last child of a node or as
a root. -/
structure Grown (c d : Checker) (new : NodeSpan) : Prop where
  count : d.nodeCount = c.nodeCount + 1
  span? : ∀ n, d.span? n = if n.index = c.nodeCount then some new else c.span? n
  children : ∀ n, d.children n = c.children n ∨
    ∃ s, c.span? n = some s ∧ d.children n = c.children n ++ [⟨c.nodeCount⟩] ∧
      new.pos = (((c.children n).getLast?.bind c.span?).map (·.stop)).getD s.start ∧
      new.stop ≤ s.stop

/-- **Step lemma**: a new node that begins where its last sibling ends, and ends inside its parent,
keeps the spans tiled. -/
theorem Grown.tiled {c d : Checker} {new : NodeSpan} (hd : Grown c d new)
    (hpos : new.pos ≤ new.start) (hstart : new.start ≤ new.stop)
    (hleaf : c.children ⟨c.nodeCount⟩ = []) (hc : c.Tiled) : d.Tiled := by
  have hold : ∀ n s, c.span? n = some s → d.span? n = some s := fun n s hs => by
    rw [hd.span?, if_neg (Nat.ne_of_lt (hc.numbered n s hs)), hs]
  have hnew : d.span? ⟨c.nodeCount⟩ = some new := by rw [hd.span?, if_pos rfl]
  -- a node of the new tree is the new one or an old one
  have hcases : ∀ n s, d.span? n = some s →
      (n = ⟨c.nodeCount⟩ ∧ s = new) ∨ c.span? n = some s := fun n s hs => by
    rw [hd.span?] at hs
    split at hs
    · next he => exact .inl ⟨by cases n; simp_all, (Option.some.inj hs).symm⟩
    · exact .inr hs
  constructor
  · intro n s hs
    rcases hcases n s hs with ⟨rfl, -⟩ | hs
    · rw [hd.count]
      exact Nat.lt_succ_self _
    · have := hc.numbered n s hs
      rw [hd.count]
      omega
  · intro n s hs
    rcases hcases n s hs with ⟨-, rfl⟩ | hs
    · exact hpos
    · exact hc.pos_le n s hs
  · intro n child hchild
    rcases hd.children n with hsame | ⟨s, hs, -, -, -⟩
    · rw [hsame] at hchild
      obtain ⟨s, hs⟩ := hc.spanned n child hchild
      exact ⟨s, hold n s hs⟩
    · exact ⟨s, hold n s hs⟩
  · intro n s hs
    rcases hd.children n with hsame | ⟨t, ht, hlonger, hat, hstop⟩
    · rw [hsame]
      rcases hcases n s hs with ⟨rfl, rfl⟩ | hs
      · rw [hleaf]
        exact .nil hstart
      · exact (hc.tiles n s hs).mono hold
    · obtain rfl : t = s := Option.some.inj ((hold n t ht).symm.trans hs)
      rw [hlonger]
      refine ((hc.tiles n t ht).mono hold).append hnew ?_ hpos hstart hstop
      rw [hat]
      cases hlast : (c.children n).getLast? with
      | none => rfl
      | some last =>
          obtain ⟨u, hu, -⟩ := (hc.tiles n t ht).within last (List.mem_of_getLast? hlast)
          rw [Option.bind_some, Option.bind_some, hu, hold last u hu]
  · intro n child hchild
    rcases hd.children n with hsame | ⟨s, hs, hlonger, -, -⟩
    · exact hc.after n child (hsame ▸ hchild)
    · rw [hlonger] at hchild
      cases List.mem_append.mp hchild with
      | inl hmem => exact hc.after n child hmem
      | inr hmem =>
          rw [List.mem_singleton.mp hmem]
          exact hc.numbered n s hs

theorem grown_push {p q : Program} {root : Node} (hroot : root.children = [])
    (hq : q.nodes = p.nodes.push root) : Grown p.checker q.checker root.span := by
  have hadds := adds_push hroot hq
  exact ⟨hadds.size, hadds.span?, fun n => .inl (by simp [hadds.children])⟩

theorem grown_withChild {p : Program} {parent : NodeId} {node child : Node}
    (hn : p.node? parent = some node) (hchild : child.children = [])
    (hplaced : p.Placed node child.span) :
    Grown p.checker (p.withChild parent child).checker child.span := by
  have hadds := adds_withChild hn hchild
  refine ⟨hadds.size, hadds.span?, fun n => ?_⟩
  by_cases hparent : parent = n
  · refine .inr ⟨node.span, by simp [checker, ← hparent, hn], ?_, ?_, hplaced.stop_le⟩
    · rw [hadds.children, if_pos (congrArg some hparent)]
      rfl
    · rw [hplaced.pos, cursor]
      simp only [checker, ← hparent, hn, Option.map_some, Option.getD_some]
      cases node.children.getLast? with
      | none => rfl
      | some last => simp [Function.comp_def]
  · left
    rw [hadds.children, if_neg fun he => hparent (Option.some.inj he), List.append_nil]

/-! ## programs with placed nodes -/

/-- A step that does not give the span of a node. -/
def Step.PlacesByText (s : Step) : Prop :=
  ∀ parent kind span, s ≠ .addNode parent kind span

theorem tiled_take {p : Program} {s : Step} (hs : s.PlacesByText) (hp : p.checker.Tiled) :
    (p.take s).2.checker.Tiled := by
  have hleaf : p.checker.children ⟨p.checker.nodeCount⟩ = [] := children_of_size_le (Nat.le_refl _)
  rcases take_nodes p s with hbare | ⟨name, text, -, hpush⟩ | ⟨parent, kind, node, span, hn, hby, hq⟩
  · exact (sameTree_of_bare hbare).tiled hp
  · exact (grown_push rfl hpush).tiled (Nat.le_refl _) (Nat.zero_le _) hleaf hp
  · rcases hby with rfl | ⟨snippet, rfl, hplaced⟩
    · exact absurd rfl (hs parent kind span)
    · rw [hq]
      exact (grown_withChild hn rfl hplaced).tiled hplaced.pos_le hplaced.start_le hleaf hp

theorem tiled_empty : empty.checker.Tiled := by
  constructor <;> intro n <;> simp [checker, empty, node?]

/-- **Run lemma**: when every node is a root or placed by its text, all spans are tiled. -/
theorem tiled_layOut {steps : List Step} (hsteps : ∀ s ∈ steps, s.PlacesByText) {p : Program}
    (hp : p.checker.Tiled) : (p.layOut steps).checker.Tiled := by
  induction steps generalizing p with
  | nil => exact hp
  | cons s steps ih =>
      exact ih (fun t ht => hsteps t (List.mem_cons_of_mem s ht))
        (tiled_take (hsteps s List.mem_cons_self) hp)

/-! ## the node at an offset -/

/-- **The search finds the deepest node**: in every program whose nodes are roots of files or placed
by their text, whatever else was done to it, and from every root. -/
theorem locate_finds_deepest (steps : List Step) (hsteps : ∀ s ∈ steps, s.PlacesByText)
    (root : NodeId) (offset : Nat) :
    DeepestAt (empty.layOut steps).checker root offset
      ((empty.layOut steps).checker.locate root offset) :=
  (tiled_layOut hsteps tiled_empty).deepestAt_locate root offset

/-- A sum in a file, with something attached to one of its nodes: the offset between the two first
tokens belongs to the first one, two levels below the root. -/
theorem locate_finds_deepest_sum :
    let steps : List Step := [.addFile "/a.ts" "a+b", .addChild ⟨0⟩ "BinaryExpression" "a+b",
      .addChild ⟨1⟩ "Identifier" "a", .addType "number" 8, .setNodeType ⟨2⟩ ⟨1⟩,
      .addChild ⟨1⟩ "PlusToken" "+"]
    (∀ s ∈ steps, s.PlacesByText) ∧
    (empty.layOut steps).checker.locate ⟨0⟩ 1 = ⟨2⟩ ∧
    DeepestAt (empty.layOut steps).checker ⟨0⟩ 1 ⟨2⟩ := by
  intro steps
  have hsteps : ∀ s ∈ steps, s.PlacesByText := by
    intro s hs parent kind span he
    simp [steps, he] at hs
  have hfound : (empty.layOut steps).checker.locate ⟨0⟩ 1 = ⟨2⟩ := by decide +kernel
  have hdeepest := locate_finds_deepest steps hsteps ⟨0⟩ 1
  rw [hfound] at hdeepest
  exact ⟨hsteps, hfound, hdeepest⟩

end TypeQuery.Program
