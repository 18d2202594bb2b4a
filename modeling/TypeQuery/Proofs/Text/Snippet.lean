import Mathlib.Data.List.DropRight
import TypeQuery.Proofs.Text.Occurrences
import TypeQuery.Proofs.Text.Utf16
import TypeQuery.Proofs.Text.Words
import TypeQuery.Query

/-!
# TypeQuery.Proofs.Text.Snippet

What a snippet keeps of a line.  A line that is too long is cut in two steps, and
only one space can fall to the second one:

```
line           w o r d   w o r d   w o r d …
takeWithin     w o r d   w o r d␣            at most `bound - 1` units, as many as fit
trimRight      w o r d   w o r d             no white space at the end
condense       w o r d   w o r d …           one unit more
```

With no room at all the ellipsis stands alone, and that is one unit too many.

* `CutAt`, `cutAt_trimRight` — the line cut as late as the room allows;
* `condenseText_cuts_late` — what a snippet is;
* `condenseText_within_iff` — which bounds a snippet keeps;
* `condenseText_condenseText` — a snippet is its own snippet.
-/

namespace TypeQuery.Text

/-! ## the longest first part that fits -/

theorem takeWithin_isPrefix (budget : Nat) (cs : List Char) : takeWithin budget cs <+: cs := by
  induction cs generalizing budget with
  | nil => exact List.prefix_refl []
  | cons c cs ih =>
      rw [takeWithin]
      split
      · exact List.cons_prefix_cons.mpr ⟨rfl, ih _⟩
      · exact List.nil_prefix

theorem unitLength_takeWithin_le (budget : Nat) (cs : List Char) :
    unitLength (takeWithin budget cs) ≤ budget := by
  induction cs generalizing budget with
  | nil => simp [takeWithin]
  | cons c cs ih =>
      rw [takeWithin]
      split
      · have htail := ih (budget - units c)
        rw [unitLength_cons]
        omega
      · simp

/-- No first part of the text that fits is longer. -/
theorem prefix_takeWithin {q cs : List Char} {budget : Nat} (hq : q <+: cs)
    (h : unitLength q ≤ budget) : q <+: takeWithin budget cs := by
  induction cs generalizing budget q with
  | nil => simpa [takeWithin] using hq
  | cons c cs ih =>
      cases q with
      | nil => exact List.nil_prefix
      | cons d q =>
          obtain ⟨rfl, htail⟩ := List.cons_prefix_cons.mp hq
          rw [unitLength_cons] at h
          rw [takeWithin, if_pos (by omega)]
          exact List.cons_prefix_cons.mpr ⟨rfl, ih htail (by omega)⟩

/-! ## white space at the end -/

theorem trimRight_append_rtakeWhile (cs : List Char) :
    trimRight cs ++ cs.rtakeWhile isBlank = cs :=
  List.rdropWhile_append_rtakeWhile

theorem trimRight_isPrefix (cs : List Char) : trimRight cs <+: cs :=
  List.rdropWhile_prefix isBlank cs

theorem isBlank_of_mem_getLast?_trimRight (cs : List Char) :
    ∀ c ∈ (trimRight cs).getLast?, isBlank c = false := by
  intro c hc
  obtain ⟨hne, rfl⟩ := List.mem_getLast?_eq_getLast hc
  have hlast := List.rdropWhile_last_not isBlank cs hne
  exact Bool.eq_false_iff.mpr hlast

/-- On a line, trimming a first part takes a single space away, or nothing. -/
theorem SingleSpaced.prefix_trimRight {line q : List Char} (h : SingleSpaced line)
    (hq : q <+: line) : q <+: trimRight q ++ [' '] := by
  have hsplit := trimRight_append_rtakeWhile q
  have hgap : IsGap (q.rtakeWhile isBlank) := fun c hc => List.mem_rtakeWhile_imp hc
  cases htail : q.rtakeWhile isBlank with
  | nil =>
      rw [htail, List.append_nil] at hsplit
      exact ⟨[' '], by rw [hsplit]⟩
  | cons c gap =>
      rw [htail] at hsplit hgap
      have ⟨hc, hgap⟩ := List.forall_mem_cons.mp hgap
      have hmem : c ∈ q := hsplit ▸ by simp
      obtain rfl : c = ' ' := h.spaces c (hq.subset hmem) hc
      cases gap with
      | nil => exact ⟨[], by rw [hsplit, List.append_nil]⟩
      | cons d gap =>
          -- two pieces of white space side by side
          have hchain := (hsplit ▸ h.apart.prefix hq).right_of_append
          have hd := List.isChain_cons_cons.mp hchain |>.1 hc
          rw [hgap d (by simp)] at hd
          contradiction

/-! ## the cut -/

/-- The line is cut behind `p`: no white space is left there, and no first part of the line with at
most `budget` units goes further than the space behind it. -/
structure CutAt (line : List Char) (budget : Nat) (p : List Char) : Prop where
  isPrefix : p <+: line
  ends : ∀ c ∈ p.getLast?, isBlank c = false
  within : unitLength p ≤ budget
  latest : ∀ q, q <+: line → unitLength q ≤ budget → q <+: p ++ [' ']

theorem cutAt_trimRight {line : List Char} (h : SingleSpaced line) (budget : Nat) :
    CutAt line budget (trimRight (takeWithin budget line)) where
  isPrefix := (trimRight_isPrefix _).trans (takeWithin_isPrefix budget line)
  ends := isBlank_of_mem_getLast?_trimRight _
  within :=
    (unitLength_le_of_isPrefix (trimRight_isPrefix _)).trans (unitLength_takeWithin_le budget line)
  latest := fun _ hq hfits =>
    (prefix_takeWithin hq hfits).trans (h.prefix_trimRight (takeWithin_isPrefix budget line))

theorem isBlank_ellipsis : isBlank ellipsis = false := by
  decide

theorem units_ellipsis : units ellipsis = 1 := rfl

/-- With the mark behind it, what is left of a line is a line. -/
theorem CutAt.singleSpaced {line p : List Char} {budget : Nat} (hp : CutAt line budget p)
    (h : SingleSpaced line) : SingleSpaced (p ++ [ellipsis]) where
  spaces := by
    intro c hc hblank
    cases List.mem_append.mp hc with
    | inl hmem => exact h.spaces c (hp.isPrefix.subset hmem) hblank
    | inr hmark =>
        obtain rfl := List.mem_singleton.mp hmark
        rw [isBlank_ellipsis] at hblank
        contradiction
  begins := by
    intro c hc
    cases p with
    | nil =>
        obtain rfl : ellipsis = c := by simpa using hc
        exact isBlank_ellipsis
    | cons d p =>
        obtain ⟨rest, rfl⟩ := hp.isPrefix
        exact h.begins c (by simpa using hc)
  ends := by
    intro c hc
    obtain rfl : ellipsis = c := by simpa using hc
    exact isBlank_ellipsis
  apart := by
    have hcut := h.apart.prefix hp.isPrefix
    refine hcut.append (.singleton ellipsis) fun c _ d hd _ => ?_
    obtain rfl : ellipsis = d := by simpa using hd
    exact isBlank_ellipsis

/-! ## snippets -/

/-- A snippet is the line of the text, or the line cut to leave room for the ellipsis. -/
theorem condense_cases (cs : List Char) (bound : Nat) :
    (unitLength (collapse cs) ≤ bound ∧ condense cs bound = collapse cs) ∨
      (bound < unitLength (collapse cs) ∧
        ∃ p, CutAt (collapse cs) (bound - 1) p ∧ condense cs bound = p ++ [ellipsis]) := by
  by_cases hfits : unitLength (collapse cs) ≤ bound
  · exact .inl ⟨hfits, if_pos hfits⟩
  · exact .inr ⟨Nat.lt_of_not_le hfits, _, cutAt_trimRight (singleSpaced_collapse cs) _,
      if_neg hfits⟩

theorem singleSpaced_condense (cs : List Char) (bound : Nat) :
    SingleSpaced (condense cs bound) := by
  rcases condense_cases cs bound with ⟨-, he⟩ | ⟨-, p, hp, he⟩
  · rw [he]
    exact singleSpaced_collapse cs
  · rw [he]
    exact hp.singleSpaced (singleSpaced_collapse cs)

theorem unitLength_condense_le (cs : List Char) {bound : Nat} (h : 0 < bound) :
    unitLength (condense cs bound) ≤ bound := by
  rcases condense_cases cs bound with ⟨hfits, he⟩ | ⟨-, p, hp, he⟩
  · rwa [he]
  · have hroom := hp.within
    rw [he, unitLength_append, unitLength_cons, unitLength_nil, units_ellipsis]
    omega

theorem condense_of_isGap {cs : List Char} (h : IsGap cs) (bound : Nat) :
    condense cs bound = [] := by
  rw [condense, collapse_eq_nil_iff.mpr h]
  exact if_pos (Nat.zero_le bound)

/-- Without any room the ellipsis is there all the same, unless there is nothing to be left out. -/
theorem condense_zero {cs : List Char} (h : ¬ IsGap cs) : condense cs 0 = [ellipsis] := by
  rcases condense_cases cs 0 with ⟨hfits, -⟩ | ⟨-, p, hp, he⟩
  · exact absurd (collapse_eq_nil_iff.mp (eq_nil_of_unitLength_eq_zero (by omega))) h
  · have hroom := hp.within
    obtain rfl : p = [] := eq_nil_of_unitLength_eq_zero (by omega)
    exact he

@[simp] theorem toList_condenseText (s : String) (bound : Nat) :
    (condenseText s bound).toList = condense s.toList bound :=
  String.toList_ofList

/-- **A snippet is cut as late as its bound allows**: it is the line of the text if that fits, and
otherwise the line cut as late as there is room for the ellipsis behind it. Either way all its white
space is single spaces between other characters. -/
theorem condenseText_cuts_late (s : String) (bound : Nat) :
    ∃ runs, (∀ other, Runs s.toList other ↔ other = runs) ∧
      (unitLength ([' '].intercalate runs) ≤ bound →
        (condenseText s bound).toList = [' '].intercalate runs) ∧
      (bound < unitLength ([' '].intercalate runs) →
        ∃ p, CutAt ([' '].intercalate runs) (bound - 1) p ∧
          (condenseText s bound).toList = p ++ ['\u2026']) ∧
      SingleSpaced (condenseText s bound).toList := by
  refine ⟨words s.toList, fun other => runs_iff, ?_⟩
  rw [← joinWords_eq_intercalate, toList_condenseText]
  rcases condense_cases s.toList bound with ⟨hfits, he⟩ | ⟨hlong, hcut⟩
  · exact ⟨fun _ => he, fun hlong => absurd hfits (Nat.not_le_of_lt hlong),
      singleSpaced_condense _ _⟩
  · exact ⟨fun hfits => absurd hfits (Nat.not_le_of_lt hlong), fun _ => hcut,
      singleSpaced_condense _ _⟩

/-- A pair of units that only half fits is left out, and the space in front of it as well. -/
example : condense "a  b 😀c\n".toList 6 = "a b…".toList := by
  decide

/-- **Which bounds a snippet keeps**: every bound but zero, and zero only for a text of nothing but
white space. Any other text leaves an ellipsis there, which is one unit. -/
theorem condenseText_within_iff (s : String) (limits : Limits) :
    (unitLength (condenseText s limits.snippet).toList ≤ limits.snippet ↔
      0 < limits.snippet ∨ IsGap s.toList) ∧
    (limits.snippet = 0 → ¬ IsGap s.toList → condenseText s limits.snippet = "\u2026") := by
  rw [toList_condenseText]
  refine ⟨⟨fun hwithin => ?_, fun hbound => ?_⟩, fun hzero hgap => ?_⟩
  · by_contra hnot
    have ⟨hzero, hgap⟩ := not_or.mp hnot
    rw [Nat.eq_zero_of_not_pos hzero, condense_zero hgap] at hwithin
    contradiction
  · cases hbound with
    | inl hpos => exact unitLength_condense_le s.toList hpos
    | inr hgap => simp [condense_of_isGap hgap]
  · rw [condenseText, hzero, condense_zero hgap]
    rfl

/-- A caller may leave no room, and the ellipsis is there all the same. -/
theorem condenseText_exceeds_zero :
    ∃ limits, Limits.ofJson? (.object [("maxSnippetLen", .nat 0)]) = some limits ∧
      limits.snippet < unitLength (condenseText "a" limits.snippet).toList :=
  ⟨{ snippet := 0 }, by decide, by decide⟩

/-- **A snippet is its own snippet.** -/
theorem condenseText_condenseText (s : String) (bound : Nat) :
    condenseText (condenseText s bound) bound = condenseText s bound := by
  have hline := collapse_eq_self (singleSpaced_condense s.toList bound)
  have hagain : condense (condense s.toList bound) bound = condense s.toList bound := by
    by_cases hgap : IsGap s.toList
    · rw [condense_of_isGap hgap]
      rfl
    · cases bound with
      | zero =>
          rw [condense_zero hgap]
          rfl
      | succ n =>
          have hfits := unitLength_condense_le s.toList (Nat.succ_pos n)
          rw [condense, hline]
          exact if_pos hfits
  rw [condenseText, toList_condenseText, hagain, condenseText]

end TypeQuery.Text
