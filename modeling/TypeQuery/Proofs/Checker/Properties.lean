import TypeQuery.Facts
import TypeQuery.Proofs.Text.Sorted

/-!
# TypeQuery.Proofs.Checker.Properties

How the properties of several types are merged.  The *entry* of a type for a name
is its first property of that name, and what is reported for a name is read off
the column of entries, one for each type:

```
              a      b      c
first type    a₁     –      c₁        the first entry of a column has the type,
second type   a₂     b₂     –         a gap or an optional entry makes it optional
            ─────────────────────
limit 2       a      b?
```

* `Entry`, `FirstEntry`, `Site` — which symbol a name stands for, and where its
  type is read;
* `property?_describes` — what is reported for a name that has an entry;
* `propertyFacts_merge_entries` — every name that has an entry is reported, in
  order, up to the limit.
-/

namespace TypeQuery.Checker

variable {c : Checker} {node : NodeId} {t : TypeId} {name : String} {s : SymbolId}

/-! ## entries -/

/-- The first property of that name. -/
def Entry (c : Checker) (t : TypeId) (name : String) (s : SymbolId) : Prop :=
  ∃ before after, c.properties t = before ++ s :: after ∧ c.symbolName s = name ∧
    ∀ r ∈ before, c.symbolName r ≠ name

/-- The entry of the first of the types that has one. -/
def FirstEntry (c : Checker) (ts : List TypeId) (name : String) (s : SymbolId) : Prop :=
  ∃ before t after, ts = before ++ t :: after ∧ c.Entry t name s ∧
    ∀ u ∈ before, ¬∃ r, c.Entry u name r

/-- Where the type of a property is read and written, for a query about `node`. -/
inductive Site (c : Checker) (node : NodeId) (s : SymbolId) : NodeId → Prop
  | value {n : NodeId} (h : c.valueDeclaration? s = some n) : Site c node s n
  | declared {n : NodeId} {ns : List NodeId} (hvalue : c.valueDeclaration? s = none)
      (h : c.declarations s = n :: ns) : Site c node s n
  | queried (hvalue : c.valueDeclaration? s = none) (h : c.declarations s = []) :
      Site c node s node

theorem propertyNamed?_eq_some_iff : c.propertyNamed? name t = some s ↔ c.Entry t name s := by
  simp only [propertyNamed?, List.find?_eq_some_iff_append, Entry, beq_iff_eq,
    Bool.not_eq_true', beq_eq_false_iff_ne]
  constructor
  · intro ⟨hname, before, after, hsplit, hbefore⟩
    exact ⟨before, after, hsplit, hname, hbefore⟩
  · intro ⟨before, after, hsplit, hname, hbefore⟩
    exact ⟨hname, before, after, hsplit, hbefore⟩

theorem propertyNamed?_eq_none_iff :
    c.propertyNamed? name t = none ↔ ¬∃ s, c.Entry t name s := by
  simp only [Option.eq_none_iff_forall_ne_some, ne_eq, propertyNamed?_eq_some_iff, not_exists]

/-- A type has an entry for just the names of its properties. -/
theorem exists_entry_iff : (∃ s, c.Entry t name s) ↔ ∃ s ∈ c.properties t, c.symbolName s = name := by
  have hnone : ¬(∃ s, c.Entry t name s) ↔ ∀ s ∈ c.properties t, c.symbolName s ≠ name := by
    rw [← propertyNamed?_eq_none_iff, propertyNamed?, List.find?_eq_none]
    simp only [beq_iff_eq, ne_eq]
  have hsome := not_congr hnone
  simpa using hsome

theorem findSome?_entries_eq_some_iff {ts : List TypeId} :
    (ts.map (c.propertyNamed? name)).findSome? id = some s ↔ c.FirstEntry ts name s := by
  rw [List.findSome?_map, Function.id_comp, List.findSome?_eq_some_iff, FirstEntry]
  simp only [propertyNamed?_eq_some_iff, propertyNamed?_eq_none_iff]

theorem exists_firstEntry {ts : List TypeId} (h : ∃ t ∈ ts, ∃ s, c.Entry t name s) :
    ∃ s, c.FirstEntry ts name s := by
  have ⟨t, ht, s, hs⟩ := h
  have hentry : (c.propertyNamed? name t).isSome := by
    rw [propertyNamed?_eq_some_iff.mpr hs]
    rfl
  have hsome : ((ts.map (c.propertyNamed? name)).findSome? id).isSome := by
    rw [List.findSome?_isSome_iff]
    exact ⟨c.propertyNamed? name t, List.mem_map_of_mem ht, hentry⟩
  have ⟨r, hr⟩ := Option.isSome_iff_exists.mp hsome
  exact ⟨r, findSome?_entries_eq_some_iff.mp hr⟩

theorem site_propertySite (c : Checker) (node : NodeId) (s : SymbolId) :
    c.Site node s (c.propertySite node s) := by
  unfold propertySite
  cases hvalue : c.valueDeclaration? s with
  | some n => exact .value hvalue
  | none =>
      cases hdeclared : c.declarations s with
      | nil => exact .queried hvalue hdeclared
      | cons n ns => exact .declared hvalue hdeclared

/-! ## one name -/

/-- The property of the type `t` is reported as its members have it: as optional if a member says so
or if a union has a member without it, and with the type of its first entry. -/
structure Describes (c : Checker) (node : NodeId) (t : TypeId) (p : PropertySummary) : Prop where
  optional : p.optional = true ↔
    (∃ u ∈ c.memberTypes t, ∃ s, c.Entry u p.name s ∧ c.isOptional s = true) ∨
    ((c.unionMembers? t).isSome ∧ ∃ u ∈ c.memberTypes t, ¬∃ s, c.Entry u p.name s)
  typeText : ∃ s site, c.FirstEntry (c.memberTypes t) p.name s ∧ c.Site node s site ∧
    p.typeText = c.typeText (c.symbolType s site) site TypeFormat.verbose

theorem any_isOptional_entries_iff {ts : List TypeId} :
    (ts.map (c.propertyNamed? name)).any (·.any c.isOptional) = true ↔
      ∃ u ∈ ts, ∃ s, c.Entry u name s ∧ c.isOptional s = true := by
  simp only [List.any_map, List.any_eq_true, Function.comp_apply, Option.any_eq_true,
    propertyNamed?_eq_some_iff]

theorem any_isNone_entries_iff {ts : List TypeId} :
    (ts.map (c.propertyNamed? name)).any (·.isNone) = true ↔
      ∃ u ∈ ts, ¬∃ s, c.Entry u name s := by
  simp only [List.any_map, List.any_eq_true, Function.comp_apply, Option.isNone_iff_eq_none,
    propertyNamed?_eq_none_iff]

/-- A name is reported by its first entry and by all of its entries. -/
theorem property?_of_firstEntry (h : c.FirstEntry (c.memberTypes t) name s) :
    c.property? node t name = some
      { name := name
        typeText := c.typeText (c.symbolType s (c.propertySite node s)) (c.propertySite node s)
          TypeFormat.verbose
        optional := ((c.memberTypes t).map (c.propertyNamed? name)).any (·.any c.isOptional) ||
          ((c.unionMembers? t).isSome &&
            ((c.memberTypes t).map (c.propertyNamed? name)).any (·.isNone)) } := by
  unfold property?
  dsimp only
  rw [findSome?_entries_eq_some_iff.mpr h]
  rfl

/-- A name with an entry is reported as the members have it. -/
theorem property?_describes (h : ∃ u ∈ c.memberTypes t, ∃ s, c.Entry u name s) :
    ∃ p, c.property? node t name = some p ∧ p.name = name ∧ c.Describes node t p := by
  have ⟨s, hs⟩ := exists_firstEntry h
  refine ⟨_, property?_of_firstEntry hs, rfl, ?_, s, _, hs, site_propertySite c node s, rfl⟩
  rw [Bool.or_eq_true, Bool.and_eq_true, any_isOptional_entries_iff, any_isNone_entries_iff]

/-! ## all names -/

theorem mem_propertyNames {ts : List TypeId} :
    name ∈ c.propertyNames ts ↔ ∃ u ∈ ts, ∃ s, c.Entry u name s := by
  rw [propertyNames, Text.mem_sorted]
  simp only [List.mem_flatMap, List.mem_map, exists_entry_iff]

/-- No name is lost when all names of a list are looked up with success. -/
theorem map_name_filterMap {find : String → Option PropertySummary} {names : List String}
    (h : ∀ name ∈ names, ∃ p, find name = some p ∧ p.name = name) :
    (names.filterMap find).map (·.name) = names := by
  induction names with
  | nil => rfl
  | cons name names ih =>
      have ⟨p, hp, hname⟩ := h name List.mem_cons_self
      have hrest := ih fun other hother => h other (List.mem_cons_of_mem name hother)
      rw [List.filterMap_cons_some hp, List.map_cons, hname, hrest]

/-- **Properties are merged exactly**: the reported names are the first ones, as many as the limit
allows, of all names for which some member of the type without `null` and `undefined` has an entry,
in ascending order and each of them once. Each is reported as the members have it. -/
theorem propertyFacts_merge_entries (c : Checker) (node : NodeId) (t : TypeId) (limit : Nat) :
    ∃ names : List String, names.Pairwise (· < ·) ∧
      (∀ name, name ∈ names ↔ ∃ u ∈ c.memberTypes (c.nonNullable t), ∃ s, c.Entry u name s) ∧
      (c.propertyFacts node t limit).map (·.name) = names.take limit ∧
      ∀ p ∈ c.propertyFacts node t limit, c.Describes node (c.nonNullable t) p := by
  have hentry : ∀ name ∈ (c.propertyNames (c.memberTypes (c.nonNullable t))).take limit,
      ∃ p, c.property? node (c.nonNullable t) name = some p ∧ p.name = name ∧
        c.Describes node (c.nonNullable t) p := by
    intro name hname
    exact property?_describes (mem_propertyNames.mp (List.mem_of_mem_take hname))
  refine ⟨c.propertyNames (c.memberTypes (c.nonNullable t)), Text.pairwise_lt_sorted _,
    fun name => mem_propertyNames, ?_, ?_⟩
  · apply map_name_filterMap
    intro name hname
    have ⟨p, hp, hsame, _⟩ := hentry name hname
    exact ⟨p, hp, hsame⟩
  · intro p hp
    have ⟨name, hname, hlookup⟩ := List.mem_filterMap.mp hp
    have ⟨q, hq, _, hdescribes⟩ := hentry name hname
    rw [hlookup] at hq
    rwa [Option.some.inj hq]

end TypeQuery.Checker
