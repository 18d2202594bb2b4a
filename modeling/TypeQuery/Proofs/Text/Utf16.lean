import TypeQuery.Text.Utf16

/-!
# TypeQuery.Proofs.Text.Utf16

Bytes and units of the first characters of a text.

* `unitsBefore_append` — counting units goes through the first part of a text and
  then through the rest;
* `unitsBefore_byteLength_take` — counting units up to a byte offset between two
  characters counts those of the characters before it;
* `byteLength_take_succ` — the next such offset is one whole character further on.
-/

namespace TypeQuery.Text

theorem unitLength_le_of_isPrefix {p cs : List Char} (h : p <+: cs) :
    unitLength p ≤ unitLength cs := by
  obtain ⟨rest, rfl⟩ := h
  rw [unitLength_append]
  omega

theorem unitLength_take_le (cs : List Char) (n : Nat) :
    unitLength (cs.take n) ≤ unitLength cs :=
  unitLength_le_of_isPrefix (List.take_prefix n cs)

theorem unitsBefore_zero (cs : List Char) : unitsBefore cs 0 = 0 := by
  cases cs <;> rfl

/-- Behind a first part of the text, all of its units are counted and the rest is counted on its
own. -/
theorem unitsBefore_append (front rest : List Char) (b : Nat) :
    unitsBefore (front ++ rest) (byteLength front + b) =
      unitLength front + unitsBefore rest b := by
  induction front with
  | nil => simp
  | cons c cs ih =>
      have hpos := c.utf8Size_pos
      rw [List.cons_append, byteLength_cons, unitLength_cons, unitsBefore, if_neg (by omega),
        Nat.add_assoc c.utf8Size, Nat.add_sub_cancel_left, ih, Nat.add_assoc]

theorem unitsBefore_byteLength_take (cs : List Char) (n : Nat) :
    unitsBefore cs (byteLength (cs.take n)) = unitLength (cs.take n) := by
  have h := unitsBefore_append (cs.take n) (cs.drop n) 0
  rwa [List.take_append_drop, unitsBefore_zero, Nat.add_zero, Nat.add_zero] at h

theorem byteLength_take_succ {cs : List Char} {n : Nat} {c : Char} (h : cs[n]? = some c) :
    byteLength (cs.take (n + 1)) = byteLength (cs.take n) + c.utf8Size := by
  induction cs generalizing n with
  | nil => simp at h
  | cons d cs ih =>
      cases n with
      | zero =>
          obtain rfl := Option.some.inj h
          simp
      | succ n =>
          rw [List.take_succ_cons, List.take_succ_cons, byteLength_cons, byteLength_cons, ih h]
          omega

end TypeQuery.Text
