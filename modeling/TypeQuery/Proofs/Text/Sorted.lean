import TypeQuery.Text.Sorted

/-!
# TypeQuery.Proofs.Text.Sorted

Names in order.  Sorting puts equal names side by side, so that taking out
repetitions leaves every name once:

```
b a b c a   →   a a b b c   →   a b c
```

* `pairwise_lt_sorted` — each name comes before all names after it;
* `mem_sorted` — no name is lost and none is added.
-/

namespace TypeQuery.Text

/-! ## repetitions side by side -/

/-- What was put aside while repetitions are taken out comes first in the end. -/
theorem eraseReps_loop_eq_append (a : String) (names aside : List String) :
    List.eraseRepsBy.loop (· == ·) a names aside =
      aside.reverse ++ List.eraseRepsBy.loop (· == ·) a names [] := by
  induction names generalizing a aside with
  | nil => simp [List.eraseRepsBy.loop]
  | cons b names ih =>
      cases hab : a == b with
      | true => simp only [List.eraseRepsBy.loop, hab, ih a aside]
      | false =>
          simp only [List.eraseRepsBy.loop, hab, ih b (a :: aside), ih b [a]]
          simp

theorem eraseReps_singleton (a : String) : [a].eraseReps = [a] := rfl

theorem eraseReps_cons_cons (a b : String) (names : List String) :
    (a :: b :: names).eraseReps =
      if a = b then (a :: names).eraseReps else a :: (b :: names).eraseReps := by
  by_cases hab : a = b
  · simp [hab, List.eraseReps, List.eraseRepsBy, List.eraseRepsBy.loop]
  · have hbeq : (a == b) = false := by simpa using hab
    simp only [if_neg hab, List.eraseReps, List.eraseRepsBy, List.eraseRepsBy.loop, hbeq]
    exact eraseReps_loop_eq_append b names [a]

theorem mem_eraseReps {names : List String} {name : String} :
    name ∈ names.eraseReps ↔ name ∈ names := by
  cases names with
  | nil => rfl
  | cons a names =>
      induction names generalizing a with
      | nil => rfl
      | cons b names ih =>
          rw [eraseReps_cons_cons]
          by_cases hab : a = b
          · simp [hab, ih]
          · rw [if_neg hab, List.mem_cons, ih, ← List.mem_cons]

/-- In an ascending list repetitions stand side by side. -/
theorem pairwise_lt_eraseReps {names : List String} (h : names.Pairwise (· ≤ ·)) :
    names.eraseReps.Pairwise (· < ·) := by
  cases names with
  | nil => exact .nil
  | cons a names =>
      induction names generalizing a with
      | nil => simp [eraseReps_singleton]
      | cons b names ih =>
          have ⟨ha, hb⟩ := List.pairwise_cons.mp h
          have hrest := List.pairwise_cons.mp hb
          rw [eraseReps_cons_cons]
          by_cases hab : a = b
          · rw [if_pos hab, hab]
            exact ih b hb
          · have hlt : a < b := by
              have hle := ha b List.mem_cons_self
              exact String.not_le.mp fun hba => hab (String.le_antisymm hle hba)
            have hall : ∀ c ∈ (b :: names).eraseReps, a < c := by
              intro c hc
              rcases List.mem_cons.mp (mem_eraseReps.mp hc) with rfl | hc
              · exact hlt
              · exact String.not_le.mp fun hca =>
                  String.not_le.mpr hlt (String.le_trans (hrest.1 c hc) hca)
            rw [if_neg hab]
            exact List.pairwise_cons.mpr ⟨hall, ih b hb⟩

/-! ## names in order -/

theorem mem_sorted {names : List String} {name : String} :
    name ∈ sorted names ↔ name ∈ names := by
  rw [sorted, mem_eraseReps, List.mem_mergeSort]

/-- Sorted names ascend, each of them once. -/
theorem pairwise_lt_sorted (names : List String) : (sorted names).Pairwise (· < ·) := by
  have htrans : ∀ a b c : String, decide (a ≤ b) → decide (b ≤ c) → decide (a ≤ c) := by
    intro a b c hab hbc
    simp only [decide_eq_true_eq] at hab hbc ⊢
    exact String.le_trans hab hbc
  have htotal : ∀ a b : String, decide (a ≤ b) || decide (b ≤ a) := by
    intro a b
    simpa using String.le_total a b
  have hsorted := List.pairwise_mergeSort htrans htotal names
  simp only [decide_eq_true_eq] at hsorted
  exact pairwise_lt_eraseReps hsorted

end TypeQuery.Text
