import Mathlib.Data.List.Basic
import TypeQuery.Path

/-!
# TypeQuery.Proofs.Path

The pieces of a path.  Splitting and joining at slashes are inverse to each
other, also from the side of the pieces: pieces without slashes are told apart
again (`splitSlashes_joinSlashes`), and splitting makes only such pieces
(`no_slash_of_mem_splitSlashes`).  Nothing is above a path only if all of its
pieces mean nothing (`void_of_parent?_eq_none`), and a path that is joined to
another one adds its pieces to the pieces of that one (`splitSlashes_join`).
-/

namespace TypeQuery.Path

/-! ## pieces between slashes -/

@[simp] theorem splitSlashes_nil : splitSlashes [] = [[]] := rfl

@[simp] theorem splitSlashes_slash (cs : List Char) :
    splitSlashes ('/' :: cs) = [] :: splitSlashes cs := by
  rw [splitSlashes, if_pos rfl]

theorem splitSlashes_of_no_slash {p : List Char} (h : '/' ∉ p) : splitSlashes p = [p] := by
  induction p with
  | nil => rfl
  | cons c cs ih =>
      simp only [List.mem_cons, not_or] at h
      rw [splitSlashes, if_neg (Ne.symm h.1), ih h.2]

/-- The first piece of a text with another first character than a slash begins with it. -/
theorem splitSlashes_cons_of_ne {c : Char} (h : c ≠ '/') (cs : List Char) :
    ∃ p ps, splitSlashes cs = p :: ps ∧ splitSlashes (c :: cs) = (c :: p) :: ps := by
  obtain ⟨p, ps, hps⟩ := List.exists_cons_of_ne_nil (splitSlashes_ne_nil cs)
  exact ⟨p, ps, hps, by rw [splitSlashes, if_neg h, hps]⟩

/-- A slash ends a piece, whatever stands on either side of it. -/
theorem splitSlashes_append_slash (cs ds : List Char) :
    splitSlashes (cs ++ '/' :: ds) = splitSlashes cs ++ splitSlashes ds := by
  induction cs with
  | nil => rw [List.nil_append, splitSlashes_slash, splitSlashes_nil, List.singleton_append]
  | cons c cs ih =>
      by_cases hc : c = '/'
      · rw [hc, List.cons_append, splitSlashes_slash, splitSlashes_slash, ih, List.cons_append]
      · obtain ⟨p, ps, hps, hcons⟩ := splitSlashes_cons_of_ne hc cs
        obtain ⟨q, qs, hqs, hcons'⟩ := splitSlashes_cons_of_ne hc (cs ++ '/' :: ds)
        rw [ih, hps, List.cons_append] at hqs
        obtain ⟨rfl, rfl⟩ := List.cons.inj hqs
        rw [List.cons_append, hcons', hcons, List.cons_append]

theorem splitSlashes_append {p : List Char} (h : '/' ∉ p) (cs : List Char) :
    splitSlashes (p ++ '/' :: cs) = p :: splitSlashes cs := by
  rw [splitSlashes_append_slash, splitSlashes_of_no_slash h, List.singleton_append]

/-- Pieces without slashes can be told apart again. -/
theorem splitSlashes_joinSlashes {ps : List (List Char)} (hne : ps ≠ [])
    (h : ∀ p ∈ ps, '/' ∉ p) : splitSlashes (joinSlashes ps) = ps := by
  induction ps with
  | nil => exact absurd rfl hne
  | cons p ps ih =>
      have hp := h p List.mem_cons_self
      cases ps with
      | nil => exact splitSlashes_of_no_slash hp
      | cons q qs =>
          rw [joinSlashes_cons p (List.cons_ne_nil q qs), splitSlashes_append hp,
            ih (List.cons_ne_nil q qs) fun r hr => h r (List.mem_cons_of_mem p hr)]

theorem joinSlashes_append_singleton {ps : List (List Char)} (hne : ps ≠ []) (p : List Char) :
    joinSlashes (ps ++ [p]) = joinSlashes ps ++ '/' :: p := by
  induction ps with
  | nil => exact absurd rfl hne
  | cons q qs ih =>
      cases qs with
      | nil => rfl
      | cons r rs =>
          rw [List.cons_append, joinSlashes_cons q (by simp), ih (List.cons_ne_nil r rs),
            joinSlashes_cons q (List.cons_ne_nil r rs), List.append_assoc, List.cons_append]

/-- The last piece is what the text ends with. -/
theorem suffix_joinSlashes (ps : List (List Char)) (p : List Char) :
    p <:+ joinSlashes (ps ++ [p]) := by
  by_cases hnil : ps = []
  · rw [hnil]
    exact List.suffix_refl p
  · rw [joinSlashes_append_singleton hnil]
    exact (List.suffix_cons '/' p).trans (List.suffix_append _ _)

theorem mem_cons_joinSlashes {c : Char} {ps : List (List Char)} :
    c ∈ '/' :: joinSlashes ps ↔ c = '/' ∨ ∃ p ∈ ps, c ∈ p := by
  induction ps with
  | nil => simp [joinSlashes]
  | cons p ps ih =>
      cases ps with
      | nil => simp [joinSlashes]
      | cons q qs =>
          rw [joinSlashes_cons p (List.cons_ne_nil q qs), List.mem_cons, List.mem_append, ih]
          simp only [List.exists_mem_cons_iff]
          tauto

theorem no_slash_of_mem_splitSlashes {cs p : List Char} (h : p ∈ splitSlashes cs) : '/' ∉ p := by
  induction cs generalizing p with
  | nil => simp_all [splitSlashes]
  | cons c cs ih =>
      rw [splitSlashes] at h
      split at h
      · cases List.mem_cons.mp h with
        | inl he => simp [he]
        | inr hm => exact ih hm
      · next hc =>
          split at h
          · simp_all [Ne.symm hc]
          · next q qs hqs =>
              cases List.mem_cons.mp h with
              | inl he =>
                  have hq := ih (hqs ▸ List.mem_cons_self)
                  simp [he, hq, Ne.symm hc]
              | inr hm => exact ih (hqs ▸ List.mem_cons_of_mem q hm)

/-! ## the directory above -/

theorem void_of_above_eq_nil {front : List Char} {ps : List (List Char)} (h : above front ps = []) :
    front ≠ ['.'] ∧ ∀ p ∈ ps, isVoid p = true := by
  induction ps with
  | nil => simpa [above] using h
  | cons p ps ih =>
      rw [above] at h
      split at h
      · next hp =>
          obtain ⟨hfront, hps⟩ := ih h
          exact ⟨hfront, List.forall_mem_cons.mpr ⟨hp, hps⟩⟩
      · contradiction

/-- Only the empty path and paths of the top have nothing above them. -/
theorem void_of_parent?_eq_none {p : Path} (h : p.parent? = none) :
    p.text = "" ∨
      (p.isAbsolute = true ∧ ∀ piece ∈ splitSlashes p.text.toList, isVoid piece = true) := by
  obtain ⟨hfront, hbody⟩ := void_of_above_eq_nil (List.head?_eq_none_iff.mp h)
  cases hcs : p.text.toList with
  | nil => exact .inl (String.toList_eq_nil_iff.mp hcs)
  | cons c cs =>
      rw [hcs] at hfront hbody
      by_cases hc : c = '/'
      · refine .inr ⟨by simp [isAbsolute, hcs, hc], ?_⟩
        intro piece hpiece
        rw [splitSlashes, if_pos hc] at hpiece
        cases List.mem_cons.mp hpiece with
        | inl he => simp [he, isVoid]
        | inr hm => exact hbody piece (by simpa [body, front, hc] using hm)
      · -- the first piece begins with `c`, so it is a dot, and then the front is one
        exfalso
        obtain ⟨q, qs, hq, hcq⟩ := splitSlashes_cons_of_ne hc cs
        have hnodot : front (c :: cs) ≠ ['.'] → front (c :: cs) = [] := by
          unfold front
          split <;> simp_all
        have hvoid := hbody (c :: q) (by simp [body, hnodot hfront, hcq])
        have hdot : c = '.' ∧ q = [] := by simpa [isVoid] using hvoid
        obtain ⟨rfl, rfl⟩ := hdot
        cases cs with
        | nil => exact hfront rfl
        | cons d ds =>
            by_cases hd : d = '/'
            · exact hfront (by rw [hd]; rfl)
            · obtain ⟨r, rs, -, hr⟩ := splitSlashes_cons_of_ne hd ds
              rw [hr] at hq
              simp at hq

/-! ## below -/

theorem eq_of_toList {p q : Path} (h : p.text.toList = q.text.toList) : p = q :=
  congrArg Path.mk (String.toList_inj.mp h)

/-- A relative path is written behind a slash, which may be there already. -/
theorem toList_join {p q : Path} (hq : q.isAbsolute = false) {cs : List Char} {c : Char}
    (hp : p.text.toList = cs ++ [c]) : (p.join q).text.toList =
      cs ++ (if c = '/' then ['/'] else [c, '/']) ++ q.text.toList := by
  rw [join, if_neg (by simp [hq]), hp, List.getLast?_concat, Option.all_some]
  by_cases hc : c = '/' <;> simp [hp, hc]

theorem isAbsolute_join {p q : Path} (hq : q.isAbsolute = false) (hp : p.text ≠ "") :
    (p.join q).isAbsolute = p.isAbsolute := by
  obtain hnil | ⟨cs, c, hcs⟩ := List.eq_nil_or_concat' p.text.toList
  · exact absurd (String.toList_inj.mp hnil) hp
  · rw [isAbsolute, isAbsolute, toList_join hq hcs, hcs]
    cases cs with
    | nil => by_cases hc : c = '/' <;> simp [hc]
    | cons d ds => rfl

/-- The pieces of a relative path follow those of the path in front, less a last one that is empty. -/
theorem splitSlashes_join {p q : Path} (hq : q.isAbsolute = false) (hp : p.text ≠ "") :
    ∃ ps, splitSlashes (p.join q).text.toList = ps ++ splitSlashes q.text.toList ∧
      (splitSlashes p.text.toList = ps ∨ splitSlashes p.text.toList = ps ++ [[]]) := by
  obtain hnil | ⟨cs, c, hcs⟩ := List.eq_nil_or_concat' p.text.toList
  · exact absurd (String.toList_inj.mp hnil) hp
  · rw [toList_join hq hcs, hcs]
    by_cases hc : c = '/'
    · refine ⟨splitSlashes cs, ?_, .inr ?_⟩
      · rw [if_pos hc, List.append_assoc, List.singleton_append, splitSlashes_append_slash]
      · rw [hc, splitSlashes_append_slash, splitSlashes_nil]
    · refine ⟨splitSlashes (cs ++ [c]), ?_, .inl rfl⟩
      rw [if_neg hc, ← splitSlashes_append_slash]
      simp

/-- A path behind another one takes at most one slash more. -/
theorem utf8ByteSize_join_le (p q : Path) :
    (p.join q).text.utf8ByteSize ≤ p.text.utf8ByteSize + 1 + q.text.utf8ByteSize := by
  have hslash : "/".utf8ByteSize = 1 := by decide
  unfold join
  split
  · omega
  · split <;> simp only [String.utf8ByteSize_append, hslash] <;> omega

theorem mem_toList_join {p q : Path} {c : Char} (h : c ∈ (p.join q).text.toList) :
    c ∈ p.text.toList ∨ c = '/' ∨ c ∈ q.text.toList := by
  unfold join at h
  split at h
  · exact .inr (.inr h)
  · split at h <;> simp only [String.toList_append, List.mem_append] at h
    · exact h.imp_right .inr
    · rcases h with (hp | hslash) | hq
      · exact .inl hp
      · exact .inr (.inl (by simpa using hslash))
      · exact .inr (.inr hq)

end TypeQuery.Path
