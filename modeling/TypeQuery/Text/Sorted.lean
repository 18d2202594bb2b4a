/-!
# TypeQuery.Text.Sorted

Names in order. Lists of names are written in ascending order of code points and without
repetition, so that an answer does not depend on the order in which a checker lists them.
-/

namespace TypeQuery.Text

/-- The names, ascending and each of them once. -/
def sorted (names : List String) : List String :=
  (names.mergeSort fun a b => decide (a ≤ b)).eraseReps

end TypeQuery.Text
