import Mathlib.Data.Finset.Card
import Mathlib.Data.Finset.Lattice.Fold
import Mathlib.Data.Nat.Count
import Mathlib.Order.Lattice.Nat
import TypeQuery.Proofs.Text.LineMap

/-!
# TypeQuery.Proofs.Text.LineEnds

Which offsets the lines of a text start at.  A character ends a line on account
of itself and the one behind it, so the ends of the lines can be told apart by
their indices in the text, and each line starts where such a character ends:

```
index    0   1    2    3     4        5
         a   \r   \n   \r    U+2028   b
ends               ↑    ↑     ↑
starts   0         3    4     5              offsets in UTF-16 code units
```

* `startsAfter_eq_map` — the line starts, one for each character that ends a line;
* `Stands.start_le_iff` — which lines start up to an offset;
* `ofText_marks_line_ends` — the line map says where lines end, and how many of
  them end before an offset.
-/

namespace TypeQuery.Text

/-! ## characters that end a line -/

/-- A line ends with the character at index `i`: a line feed, one of the two separators, or a
carriage return that no line feed follows. -/
def EndsLine (cs : List Char) (i : Nat) : Prop :=
  cs[i]? = some '\n' ∨ cs[i]? = some '\u2028' ∨ cs[i]? = some '\u2029' ∨
    (cs[i]? = some '\r' ∧ cs[i + 1]? ≠ some '\n')

instance (cs : List Char) : DecidablePred (EndsLine cs) := fun _ =>
  inferInstanceAs (Decidable (_ ∨ _ ∨ _ ∨ (_ ∧ _)))

/-- The offset right after the character at index `i`. -/
def offsetAfter (cs : List Char) (i : Nat) : Nat :=
  unitLength (cs.take (i + 1))

/-- The characters that end a line at an offset up to `o`. -/
def lineEndsUpTo (cs : List Char) (o : Nat) : Finset Nat :=
  {i ∈ Finset.range cs.length | EndsLine cs i ∧ offsetAfter cs i ≤ o}

/-- A character in UTF-16: one code unit, or a pair of surrogates outside the basic plane. -/
def utf16 (c : Char) : List Nat :=
  if c.toNat < 0x10000 then [c.toNat]
  else [0xD800 + (c.toNat - 0x10000) / 0x400, 0xDC00 + (c.toNat - 0x10000) % 0x400]

theorem length_utf16 (c : Char) : (utf16 c).length = units c := by
  unfold utf16 units
  split <;> rfl

theorem length_flatMap_utf16 (cs : List Char) : (cs.flatMap utf16).length = unitLength cs := by
  induction cs with
  | nil => rfl
  | cons c cs ih => rw [List.flatMap_cons, List.length_append, length_utf16, ih, unitLength_cons]

theorem endsLine_eq_true_iff {c : Char} {cs : List Char} :
    endsLine c cs.head? = true ↔ EndsLine (c :: cs) 0 := by
  cases cs <;> simp [endsLine, EndsLine, or_assoc]

theorem lt_length_of_endsLine {cs : List Char} {i : Nat} (h : EndsLine cs i) : i < cs.length := by
  rcases h with h | h | h | ⟨h, -⟩ <;> exact (List.getElem?_eq_some_iff.mp h).1

theorem offsetAfter_cons_zero (c : Char) (cs : List Char) : offsetAfter (c :: cs) 0 = units c := by
  simp [offsetAfter]

theorem offsetAfter_cons_succ (c : Char) (cs : List Char) (i : Nat) :
    offsetAfter (c :: cs) (i + 1) = units c + offsetAfter cs i := by
  simp [offsetAfter]

/-- **The scan finds the ends of the lines**: after each of them a line starts, and nowhere else. -/
theorem startsAfter_eq_map (here : Nat) (cs : List Char) :
    startsAfter here cs =
      ((List.range cs.length).filter (EndsLine cs ·)).map (here + offsetAfter cs ·) := by
  induction cs generalizing here with
  | nil => rfl
  | cons c cs ih =>
      have htail : startsAfter (here + units c) cs =
          (((List.range cs.length).map Nat.succ).filter (EndsLine (c :: cs) ·)).map
            (here + offsetAfter (c :: cs) ·) := by
        rw [ih, List.filter_map, List.map_map]
        -- whether a line ends one character further on does not depend on the first one
        show _ = ((List.range cs.length).filter (EndsLine cs ·)).map _
        refine List.map_congr_left fun i _ => ?_
        simp [offsetAfter_cons_succ, Nat.add_assoc]
      rw [List.length_cons, List.range_succ_eq_map]
      simp only [startsAfter]
      by_cases hc : EndsLine (c :: cs) 0
      · rw [if_pos (endsLine_eq_true_iff.mpr hc), htail, List.filter_cons_of_pos (by simpa using hc),
          List.map_cons, offsetAfter_cons_zero]
      · rw [if_neg (mt endsLine_eq_true_iff.mp hc), htail,
          List.filter_cons_of_neg (by simpa using hc)]

namespace LineMap

theorem mem_starts_ofText {cs : List Char} {o : Nat} :
    o ∈ (ofText cs).starts ↔ o = 0 ∨ ∃ i, EndsLine cs i ∧ o = offsetAfter cs i := by
  rw [ofText, List.mem_cons, startsAfter_eq_map]
  refine or_congr_right ?_
  simp only [List.mem_map, List.mem_filter, List.mem_range, decide_eq_true_eq, Nat.zero_add]
  constructor
  · rintro ⟨i, ⟨-, hi⟩, rfl⟩
    exact ⟨i, hi, rfl⟩
  · rintro ⟨i, hi, rfl⟩
    exact ⟨i, ⟨lt_length_of_endsLine hi, hi⟩, rfl⟩

/-! ## lines before an offset -/

/-- The lines that start up to an offset are those up to its own line. -/
theorem Stands.start_le_iff {m : LineMap} (hm : m.Valid) {p : Position} {o : Nat}
    (h : m.Stands p o) {k s : Nat} (hk : m.starts[k]? = some s) : s ≤ o ↔ k ≤ p.line := by
  obtain ⟨own, hown, ho⟩ := h.start
  constructor
  · intro hs
    by_contra hlt
    -- the line after that of the offset starts beyond it, and line `k` no earlier
    have hlen := (List.getElem?_eq_some_iff.mp hk).1
    have hnext := List.getElem?_eq_getElem (by omega : p.line + 1 < m.starts.length)
    have hbefore := h.before _ hnext
    rcases Nat.lt_or_ge (p.line + 1) k with hfar | hnear
    · have := hm.lt_of_lt hnext hk hfar
      omega
    · obtain rfl : k = p.line + 1 := by omega
      have := Option.some.inj (hnext.symm.trans hk)
      omega
  · intro hle
    rcases Nat.lt_or_eq_of_le hle with hlt | rfl
    · have := hm.lt_of_lt hk hown hlt
      omega
    · have := Option.some.inj (hk.symm.trans hown)
      omega

/-- An offset has as many lines starting up to it as the number of its line says, and its own. -/
theorem Stands.countP_eq {m : LineMap} (hm : m.Valid) {p : Position} {o : Nat}
    (h : m.Stands p o) : m.starts.countP (· ≤ o) = p.line + 1 := by
  have hfront : ∀ s ∈ m.starts.take (p.line + 1), decide (s ≤ o) = true := by
    intro s hs
    obtain ⟨k, hk⟩ := List.mem_iff_getElem?.mp hs
    rw [List.getElem?_take] at hk
    split at hk
    · next hlt => exact decide_eq_true ((h.start_le_iff hm hk).mpr (Nat.le_of_lt_succ hlt))
    · contradiction
  have hback : ∀ s ∈ m.starts.drop (p.line + 1), ¬ decide (s ≤ o) = true := by
    intro s hs
    obtain ⟨k, hk⟩ := List.mem_iff_getElem?.mp hs
    rw [List.getElem?_drop] at hk
    rw [decide_eq_true_eq, h.start_le_iff hm hk]
    omega
  obtain ⟨own, hown, -⟩ := h.start
  have hlen := (List.getElem?_eq_some_iff.mp hown).1
  rw [← List.take_append_drop (p.line + 1) m.starts, List.countP_append,
    List.countP_eq_length.mpr hfront, List.countP_eq_zero.mpr hback, List.length_take]
  omega

theorem card_lineEndsUpTo (cs : List Char) (o : Nat) :
    (lineEndsUpTo cs o).card = (startsAfter 0 cs).countP (· ≤ o) := by
  rw [lineEndsUpTo, ← Nat.count_eq_card_filter_range, Nat.count, startsAfter_eq_map,
    List.countP_map, List.countP_filter]
  refine List.countP_congr fun i _ => ?_
  simp [and_comm]

/-- The line that an offset is on starts where the last line before it ends. -/
theorem Stands.sup_lineEndsUpTo {cs : List Char} {p : Position} {o : Nat}
    (h : (ofText cs).Stands p o) :
    (lineEndsUpTo cs o).sup (offsetAfter cs) + p.character = o := by
  have hm := valid_ofText cs
  obtain ⟨s, hs, ho⟩ := h.start
  have hle : ∀ i ∈ lineEndsUpTo cs o, offsetAfter cs i ≤ s := by
    intro i hi
    obtain ⟨-, hends, hio⟩ := Finset.mem_filter.mp hi
    obtain ⟨k, hk⟩ := List.mem_iff_getElem?.mp (mem_starts_ofText.mpr (.inr ⟨i, hends, rfl⟩))
    rcases Nat.lt_or_eq_of_le ((h.start_le_iff hm hk).mp hio) with hlt | rfl
    · exact (hm.lt_of_lt hk hs hlt).le
    · exact (Option.some.inj (hk.symm.trans hs)).le
  have hattained : s ≤ (lineEndsUpTo cs o).sup (offsetAfter cs) := by
    rcases mem_starts_ofText.mp (List.mem_of_getElem? hs) with rfl | ⟨i, hends, rfl⟩
    · exact Nat.zero_le _
    · refine Finset.le_sup (Finset.mem_filter.mpr ⟨?_, hends, by omega⟩)
      exact Finset.mem_range.mpr (lt_length_of_endsLine hends)
  have hsup := Finset.sup_le hle
  omega

/-- **The line map marks the ends of the lines**: its length is that of the text, its starts increase,
and besides the first one they are the offsets right after the characters that end a line. So the
line of an offset is the number of such characters up to it, and its character is the distance from
the last of them, or from the start of the text. -/
theorem ofText_marks_line_ends (cs : List Char) :
    (ofText cs).length = (cs.flatMap utf16).length ∧
    (ofText cs).starts.Pairwise (· < ·) ∧
    (∀ o, o ∈ (ofText cs).starts ↔ o = 0 ∨ ∃ i, EndsLine cs i ∧ o = offsetAfter cs i) ∧
    ∀ o, ((ofText cs).positionOf o).line =
        (lineEndsUpTo cs (min o (ofText cs).length)).card ∧
      ((ofText cs).positionOf o).character = min o (ofText cs).length -
        (lineEndsUpTo cs (min o (ofText cs).length)).sup (offsetAfter cs) := by
  have hm := valid_ofText cs
  refine ⟨(length_flatMap_utf16 cs).symm, hm.increasing, fun o => mem_starts_ofText, fun o => ?_⟩
  rw [← positionOf_min]
  have hstands := stands_positionOf hm (Nat.min_le_right o (ofText cs).length)
  have hcount := hstands.countP_eq hm
  have hsup := hstands.sup_lineEndsUpTo
  constructor
  · rw [card_lineEndsUpTo]
    simpa [ofText] using hcount.symm
  · omega

end LineMap

/-- In a run of line ends a pair counts once, at the end of its second character. -/
example : LineMap.ofText ['\r', '\r', '\n', '😀', '\n', '\r'] = ⟨[0, 1, 3, 6, 7], 7⟩ := by decide

end TypeQuery.Text
