import TypeQuery.Checker

/-!
# TypeQuery.Checker.Locate

The node at an offset. The search goes down from a root, always to the first child whose span has
the offset in it, and stops where no child has. Spans include both of their ends, so an offset
between two siblings belongs to the earlier one.

* `Checker.locate` — the node at an offset
-/

namespace TypeQuery.Checker

/-- The first child with the offset in its span. -/
def childAt? (c : Checker) (n : NodeId) (offset : Nat) : Option NodeId :=
  (c.children n).find? fun child => (c.span? child).any (·.contains offset)

/-- Goes down from a node by at most that many levels. -/
def descend (c : Checker) (offset : Nat) : Nat → NodeId → NodeId
  | 0, n => n
  | levels + 1, n =>
    match c.childAt? n offset with
    | none => n
    | some child => descend c offset levels child

/-- The deepest node below `root` that the search for the offset comes to. A tree has no more
levels than nodes. -/
def locate (c : Checker) (root : NodeId) (offset : Nat) : NodeId :=
  c.descend offset c.nodeCount root

end TypeQuery.Checker
