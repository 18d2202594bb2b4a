import TypeQuery.Text.Utf16

/-!
# TypeQuery.Proofs.Text.Occurrences

Where a piece of a text stands.  An offset is a *boundary* of the text when it
stands between two characters, and a snippet *occurs* at the boundaries that it
begins at:

```
cs     =   front          ++  snippet  ++  back
offset     0 … unitLength front
```

Only at a boundary a text can be cut in two, and of two first parts of a text the
one with fewer units is a first part of the other one.

* `dropUnits?_append`, `takeUnits?_append` — cutting a text at a boundary;
* `OccursAt`, `FirstFrom` — where a snippet occurs, and where it does first;
* `occursAt_append_iff` — the rest of a text has the occurrences of the text from
  there on.
-/

namespace TypeQuery.Text

/-! ## boundaries -/

/-- The offset stands between two characters of the text, or at one of its ends. -/
def Boundary (cs : List Char) (u : Nat) : Prop :=
  ∃ front, front <+: cs ∧ unitLength front = u

theorem boundary_zero (cs : List Char) : Boundary cs 0 :=
  ⟨[], List.nil_prefix, rfl⟩

theorem boundary_unitLength (cs : List Char) : Boundary cs (unitLength cs) :=
  ⟨cs, List.prefix_refl cs, rfl⟩

theorem eq_nil_of_unitLength_eq_zero {cs : List Char} (h : unitLength cs = 0) : cs = [] := by
  cases cs with
  | nil => rfl
  | cons c cs =>
      have hpos := units_pos c
      rw [unitLength_cons] at h
      omega

/-- Of two first parts of a text, the shorter one in units is a first part of the other one. -/
theorem prefix_of_unitLength_le {xs ys cs : List Char} (hx : xs <+: cs) (hy : ys <+: cs)
    (h : unitLength xs ≤ unitLength ys) : xs <+: ys := by
  rcases List.prefix_or_prefix_of_prefix hx hy with hxy | ⟨zs, rfl⟩
  · exact hxy
  · rw [unitLength_append] at h
    obtain rfl : zs = [] := eq_nil_of_unitLength_eq_zero (by omega)
    simp

/-! ## cutting a text -/

theorem exists_unitLength_cons (c : Char) (cs : List Char) : ∃ u, unitLength (c :: cs) = u + 1 ∧
    units c ≤ u + 1 ∧ u + 1 - units c = unitLength cs := by
  have hpos := units_pos c
  rw [unitLength_cons]
  exact ⟨units c + unitLength cs - 1, by omega, by omega, by omega⟩

theorem dropUnits?_append (front rest : List Char) :
    dropUnits? (front ++ rest) (unitLength front) = some rest := by
  induction front with
  | nil => cases rest <;> rfl
  | cons c cs ih =>
      obtain ⟨u, hu, hle, hrest⟩ := exists_unitLength_cons c cs
      rw [hu, List.cons_append, dropUnits?, if_pos hle, hrest, ih]

theorem takeUnits?_append (front rest : List Char) :
    takeUnits? (front ++ rest) (unitLength front) = some front := by
  induction front with
  | nil => cases rest <;> rfl
  | cons c cs ih =>
      obtain ⟨u, hu, hle, hrest⟩ := exists_unitLength_cons c cs
      rw [hu, List.cons_append, takeUnits?, if_pos hle, hrest, ih, Option.map_some]

theorem exists_dropUnits?_of_boundary {cs : List Char} {u : Nat} (h : Boundary cs u) :
    ∃ front rest, cs = front ++ rest ∧ unitLength front = u ∧ dropUnits? cs u = some rest := by
  obtain ⟨front, ⟨rest, rfl⟩, rfl⟩ := h
  exact ⟨front, rest, rfl, rfl, dropUnits?_append front rest⟩

/-! ## occurrences -/

/-- The snippet occurs in the text at that offset. -/
def OccursAt (snippet cs : List Char) (u : Nat) : Prop :=
  ∃ front back, cs = front ++ snippet ++ back ∧ unitLength front = u

/-- Of the offsets from `here` on at which the snippet occurs, the first one. -/
structure FirstFrom (snippet cs : List Char) (here u : Nat) : Prop where
  occurs : OccursAt snippet cs u
  le : here ≤ u
  first : ∀ v, OccursAt snippet cs v → here ≤ v → u ≤ v

/-- An occurrence begins and ends at a boundary. -/
theorem OccursAt.boundaries {snippet cs : List Char} {u : Nat} (h : OccursAt snippet cs u) :
    Boundary cs u ∧ Boundary cs (u + unitLength snippet) := by
  obtain ⟨front, back, rfl, rfl⟩ := h
  refine ⟨⟨front, ?_, rfl⟩, ⟨front ++ snippet, List.prefix_append _ back, unitLength_append _ _⟩⟩
  rw [List.append_assoc]
  exact List.prefix_append front _

theorem occursAt_cons_iff {snippet cs : List Char} {c : Char} {u : Nat} :
    OccursAt snippet (c :: cs) u ↔
      (snippet <+: c :: cs ∧ u = 0) ∨ ∃ v, OccursAt snippet cs v ∧ u = units c + v := by
  constructor
  · rintro ⟨front, back, he, rfl⟩
    cases front with
    | nil => exact .inl ⟨⟨back, he.symm⟩, rfl⟩
    | cons d front =>
        obtain ⟨rfl, rfl⟩ := List.cons.inj he
        exact .inr ⟨unitLength front, ⟨front, back, rfl, rfl⟩, rfl⟩
  · rintro (⟨⟨back, he⟩, rfl⟩ | ⟨v, ⟨front, back, rfl, rfl⟩, rfl⟩)
    · exact ⟨[], back, he.symm, rfl⟩
    · exact ⟨c :: front, back, rfl, rfl⟩

/-- Behind a first part of the text, the snippet occurs where it occurs in the rest. -/
theorem occursAt_append_iff {snippet front rest : List Char} {u : Nat} :
    OccursAt snippet (front ++ rest) (unitLength front + u) ↔ OccursAt snippet rest u := by
  constructor
  · rintro ⟨before, back, he, hu⟩
    have hbefore : before <+: front ++ rest := by
      rw [he, List.append_assoc]
      exact List.prefix_append before _
    obtain ⟨middle, rfl⟩ := prefix_of_unitLength_le (List.prefix_append front rest) hbefore (by omega)
    rw [unitLength_append] at hu
    refine ⟨middle, back, ?_, by omega⟩
    simpa using he
  · rintro ⟨middle, back, rfl, rfl⟩
    exact ⟨front ++ middle, back, by simp, unitLength_append _ _⟩

end TypeQuery.Text
