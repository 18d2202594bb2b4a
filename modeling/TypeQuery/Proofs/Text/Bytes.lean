import Mathlib.Order.Monotone.Basic
import TypeQuery.Proofs.Text.Occurrences
import TypeQuery.Proofs.Text.Utf16

/-!
# TypeQuery.Proofs.Text.Bytes

Byte offsets and unit offsets name the same places of a text.  A place lies
between two characters or at an end of the text, and what stands before it has a
length in bytes and one in units:

```
text         a     é     😀     b
bytes     0     1     3      7     8
units     0     1     2      4     5
```

Both ways to convert are measured against this one relation (`SamePlace`).  The
offsets that name no place are treated differently: a byte offset inside a
character is taken for the end of that character, while a unit offset between
the two units of a character is refused.

* `byteOfUnit?_eq_some_iff` — a unit offset has the byte offset of its place;
* `not_boundary_iff` — the unit offsets that have none;
* `Inside.unitsBefore_eq` — byte offsets inside a character;
* `unitsBefore_bijective_on_boundaries` — the two ways to convert are inverse.
-/

namespace TypeQuery.Text

/-! ## places -/

/-- Byte offset `b` and unit offset `u` stand at one place: the text before it has `b` bytes and `u`
units. -/
def SamePlace (cs : List Char) (b u : Nat) : Prop :=
  ∃ front, front <+: cs ∧ byteLength front = b ∧ unitLength front = u

theorem boundary_iff_samePlace {cs : List Char} {u : Nat} :
    Boundary cs u ↔ ∃ b, SamePlace cs b u := by
  constructor
  · rintro ⟨front, hfront, hu⟩
    exact ⟨byteLength front, front, hfront, rfl, hu⟩
  · rintro ⟨_, front, hfront, _, hu⟩
    exact ⟨front, hfront, hu⟩

theorem utf8ByteSize_ofList (cs : List Char) : (String.ofList cs).utf8ByteSize = byteLength cs := by
  induction cs with
  | nil => rfl
  | cons c cs ih =>
      rw [String.ofList_cons, String.utf8ByteSize_append, String.utf8ByteSize_singleton, ih,
        byteLength_cons]

theorem byteLength_toList (text : String) : byteLength text.toList = text.utf8ByteSize := by
  rw [← utf8ByteSize_ofList, String.ofList_toList]

/-- The byte offsets of places are those between two encoded characters of the string. -/
theorem isValid_iff_samePlace {text : String} {b : Nat} :
    (String.Pos.Raw.mk b).IsValid text ↔ ∃ u, SamePlace text.toList b u := by
  rw [String.Pos.Raw.isValid_iff_exists_take_toList]
  constructor
  · rintro ⟨n, hn⟩
    have hb := (utf8ByteSize_ofList _).symm.trans hn.symm
    exact ⟨_, text.toList.take n, List.take_prefix n _, hb, rfl⟩
  · rintro ⟨u, front, hfront, hb, -⟩
    refine ⟨front.length, ?_⟩
    rw [← List.prefix_iff_eq_take.mp hfront, utf8ByteSize_ofList, hb]

/-! ## from units to bytes -/

theorem takeUnits?_eq_some_iff {cs front : List Char} {u : Nat} :
    takeUnits? cs u = some front ↔ front <+: cs ∧ unitLength front = u := by
  constructor
  · intro h
    fun_induction takeUnits? cs u generalizing front with
    | case1 cs =>
        obtain rfl := Option.some.inj h
        exact ⟨List.nil_prefix, rfl⟩
    | case2 => contradiction
    | case3 c cs u hle ih =>
        obtain ⟨rest, hrest, rfl⟩ := Option.map_eq_some_iff.mp h
        obtain ⟨hpre, hlen⟩ := ih hrest
        refine ⟨List.cons_prefix_cons.mpr ⟨rfl, hpre⟩, ?_⟩
        rw [unitLength_cons, hlen]
        omega
    | case4 => contradiction
  · rintro ⟨⟨rest, rfl⟩, rfl⟩
    exact takeUnits?_append front rest

/-- The byte offset is the length of what is cut off there. -/
theorem byteOfUnit?_eq_map (cs : List Char) (u : Nat) :
    byteOfUnit? cs u = (takeUnits? cs u).map byteLength := by
  fun_induction byteOfUnit? cs u with
  | case1 => simp [takeUnits?]
  | case2 => rfl
  | case3 c cs u hle ih =>
      rw [ih, takeUnits?, if_pos hle, Option.map_map, Option.map_map]
      rfl
  | case4 c cs u hlt => rw [takeUnits?, if_neg hlt, Option.map_none]

theorem byteOfUnit?_eq_some_iff {cs : List Char} {u b : Nat} :
    byteOfUnit? cs u = some b ↔ SamePlace cs b u := by
  rw [byteOfUnit?_eq_map, Option.map_eq_some_iff]
  constructor
  · rintro ⟨front, hfront, hb⟩
    obtain ⟨hpre, hu⟩ := takeUnits?_eq_some_iff.mp hfront
    exact ⟨front, hpre, hb, hu⟩
  · rintro ⟨front, hpre, hb, hu⟩
    exact ⟨front, takeUnits?_eq_some_iff.mpr ⟨hpre, hu⟩, hb⟩

/-! ## unit offsets that are no place -/

/-- The offset stands between the two units of a character outside the basic plane. -/
def SplitsPair (cs : List Char) (u : Nat) : Prop :=
  ∃ front c back, cs = front ++ c :: back ∧ 0x10000 ≤ c.toNat ∧ u = unitLength front + 1

theorem units_eq_two_iff {c : Char} : units c = 2 ↔ 0x10000 ≤ c.toNat := by
  unfold units
  split <;> omega

theorem Boundary.cons {c : Char} {cs : List Char} {u : Nat} (h : Boundary cs u) :
    Boundary (c :: cs) (units c + u) := by
  obtain ⟨front, hfront, rfl⟩ := h
  exact ⟨c :: front, List.cons_prefix_cons.mpr ⟨rfl, hfront⟩, rfl⟩

theorem SplitsPair.cons {c : Char} {cs : List Char} {u : Nat} (h : SplitsPair cs u) :
    SplitsPair (c :: cs) (units c + u) := by
  obtain ⟨front, d, back, rfl, hd, rfl⟩ := h
  exact ⟨c :: front, d, back, rfl, hd, by rw [unitLength_cons, Nat.add_assoc]⟩

theorem SplitsPair.not_boundary {cs : List Char} {u : Nat} (h : SplitsPair cs u) :
    ¬ Boundary cs u := by
  obtain ⟨front, c, back, rfl, hc, rfl⟩ := h
  rintro ⟨longer, hlonger, hlen⟩
  obtain ⟨middle, rfl⟩ :=
    prefix_of_unitLength_le (List.prefix_append front _) hlonger (by omega)
  rw [unitLength_append] at hlen
  -- one unit is left for what follows `front`, and the first character there takes two
  have hmiddle : middle <+: c :: back := (List.prefix_append_right_inj front).mp hlonger
  cases middle with
  | nil => simp at hlen
  | cons d middle =>
      obtain ⟨rfl, -⟩ := List.cons_prefix_cons.mp hmiddle
      rw [unitLength_cons, units_eq_two_iff.mpr hc] at hlen
      omega

theorem not_boundary_iff {cs : List Char} {u : Nat} :
    ¬ Boundary cs u ↔ unitLength cs < u ∨ SplitsPair cs u := by
  constructor
  · intro h
    induction cs generalizing u with
    | nil =>
        have hne : u ≠ 0 := fun hu => h (hu ▸ boundary_zero [])
        exact .inl (Nat.pos_of_ne_zero hne)
    | cons c cs ih =>
        have hne : u ≠ 0 := fun hu => h (hu ▸ boundary_zero _)
        by_cases hle : units c ≤ u
        · obtain ⟨v, rfl⟩ := Nat.exists_eq_add_of_le hle
          refine (ih fun hv => h hv.cons).imp (fun hlt => ?_) SplitsPair.cons
          rw [unitLength_cons]
          omega
        · have hsmall := units_le_two c
          exact .inr ⟨[], c, cs, rfl, units_eq_two_iff.mp (by omega), by rw [unitLength_nil]; omega⟩
  · rintro (hlt | hsplits)
    · rintro ⟨front, hfront, rfl⟩
      have hle := unitLength_le_of_isPrefix hfront
      omega
    · exact hsplits.not_boundary

theorem byteOfUnit?_eq_none_iff {cs : List Char} {u : Nat} :
    byteOfUnit? cs u = none ↔ unitLength cs < u ∨ SplitsPair cs u := by
  rw [← not_boundary_iff, boundary_iff_samePlace, Option.eq_none_iff_forall_ne_some, not_exists]
  exact forall_congr' fun b => not_congr byteOfUnit?_eq_some_iff

/-! ## from bytes to units -/

theorem SamePlace.unitsBefore_eq {cs : List Char} {b u : Nat} (h : SamePlace cs b u) :
    unitsBefore cs b = u := by
  obtain ⟨front, hfront, rfl, rfl⟩ := h
  rw [List.prefix_iff_eq_take.mp hfront]
  exact unitsBefore_byteLength_take cs front.length

/-- The byte offset lies inside a character of the text, and `stop` is where that character ends. -/
def Inside (cs : List Char) (b stop : Nat) : Prop :=
  ∃ front c back, cs = front ++ c :: back ∧ byteLength front < b ∧ b < stop ∧
    stop = byteLength front + c.utf8Size

/-- From its second byte on, a character is counted as a whole. -/
theorem unitsBefore_within {front back : List Char} {c : Char} {k : Nat} (hpos : 0 < k)
    (hk : k ≤ c.utf8Size) : unitsBefore (front ++ c :: back) (byteLength front + k) =
      unitLength front + units c := by
  rw [unitsBefore_append, unitsBefore, if_neg (by omega), Nat.sub_eq_zero_of_le hk,
    unitsBefore_zero, Nat.add_zero]

theorem Inside.unitsBefore_eq {cs : List Char} {b stop : Nat} (h : Inside cs b stop) :
    unitsBefore cs b = unitsBefore cs stop := by
  obtain ⟨front, c, back, rfl, hb, hstop, rfl⟩ := h
  obtain ⟨k, rfl⟩ := Nat.exists_eq_add_of_le hb.le
  rw [unitsBefore_within (by omega) (by omega), unitsBefore_within c.utf8Size_pos le_rfl]

theorem monotone_unitsBefore (cs : List Char) : Monotone (unitsBefore cs) := by
  induction cs with
  | nil => exact monotone_const
  | cons c cs ih =>
      intro a b hab
      by_cases ha : a = 0
      · rw [ha, unitsBefore_zero]
        exact Nat.zero_le _
      · rw [unitsBefore, unitsBefore, if_neg ha, if_neg (by omega)]
        exact Nat.add_le_add_left (ih (Nat.sub_le_sub_right hab _)) _

theorem unitsBefore_of_byteLength_le {cs : List Char} {b : Nat} (h : byteLength cs ≤ b) :
    unitsBefore cs b = unitLength cs := by
  obtain ⟨k, rfl⟩ := Nat.exists_eq_add_of_le h
  have happend := unitsBefore_append cs [] k
  rwa [List.append_nil, unitsBefore, Nat.add_zero] at happend

/-! ## there and back -/

/-- **Byte and unit offsets are inverse**: between two characters of a text, the units before a byte
offset lead back to it, and a unit offset leads to such a byte offset that has as many units before
it. Only the unit offsets beyond the text and those that split a pair lead nowhere. A byte offset
inside a character counts as the end of that character, so units never decrease from one byte offset
to the next and are all counted from the end of the text on. -/
theorem unitsBefore_bijective_on_boundaries (text : String) :
    (∀ b, (String.Pos.Raw.mk b).IsValid text →
      byteOfUnit? text.toList (unitsBefore text.toList b) = some b) ∧
    (∀ u b, byteOfUnit? text.toList u = some b →
      (String.Pos.Raw.mk b).IsValid text ∧ b ≤ text.utf8ByteSize ∧
        unitsBefore text.toList b = u) ∧
    (∀ u, byteOfUnit? text.toList u = none ↔
      unitLength text.toList < u ∨ SplitsPair text.toList u) ∧
    (∀ b stop, Inside text.toList b stop →
      unitsBefore text.toList b = unitsBefore text.toList stop) ∧
    Monotone (unitsBefore text.toList) ∧
    ∀ b, text.utf8ByteSize ≤ b → unitsBefore text.toList b = unitLength text.toList := by
  refine ⟨fun b hb => ?_, fun u b hu => ?_, fun u => byteOfUnit?_eq_none_iff,
    fun b stop h => h.unitsBefore_eq, monotone_unitsBefore _, fun b hb => ?_⟩
  · obtain ⟨u, hplace⟩ := isValid_iff_samePlace.mp hb
    rw [hplace.unitsBefore_eq]
    exact byteOfUnit?_eq_some_iff.mpr hplace
  · have hplace := byteOfUnit?_eq_some_iff.mp hu
    have hvalid := isValid_iff_samePlace.mpr ⟨u, hplace⟩
    exact ⟨hvalid, hvalid.le_utf8ByteSize, hplace.unitsBefore_eq⟩
  · rw [← byteLength_toList] at hb
    exact unitsBefore_of_byteLength_le hb

/-- Behind a pair of units, in the middle of its bytes, and between the two units. -/
theorem unitsBefore_bijective_on_boundaries_pair :
    (String.Pos.Raw.mk 7).IsValid "A 😀 B" ∧
    byteOfUnit? "A 😀 B".toList (unitsBefore "A 😀 B".toList 7) = some 7 ∧
    Inside "A 😀 B".toList 4 6 ∧
    unitsBefore "A 😀 B".toList 4 = unitsBefore "A 😀 B".toList 6 ∧
    SplitsPair "A 😀 B".toList 3 ∧ byteOfUnit? "A 😀 B".toList 3 = none := by
  have hvalid : (String.Pos.Raw.mk 7).IsValid "A 😀 B" := by decide
  have hinside : Inside "A 😀 B".toList 4 6 := ⟨['A', ' '], '😀', [' ', 'B'], by decide⟩
  have hsplits : SplitsPair "A 😀 B".toList 3 := ⟨['A', ' '], '😀', [' ', 'B'], by decide⟩
  obtain ⟨hthere, -, hnone, hwithin, -, -⟩ := unitsBefore_bijective_on_boundaries "A 😀 B"
  exact ⟨hvalid, hthere 7 hvalid, hinside, hwithin 4 6 hinside, hsplits,
    (hnone 3).mpr (.inr hsplits)⟩

end TypeQuery.Text
