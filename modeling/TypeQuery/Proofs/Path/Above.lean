import Mathlib.Data.List.Infix
import TypeQuery.Proofs.Path

/-!
# TypeQuery.Proofs.Path.Above

The paths above a path.  A path means its components, and the paths above it mean
fewer and fewer of them.  The top is never dropped, a dot in front is:

```
/a/./b/../c.ts     root  a  b  ..  c.ts        ./a.ts     current  a.ts
/a/./b/..          root  a  b  ..              .          current
/a/./b             root  a  b                  (empty)
/a                 root  a
/                  root
```

Nothing here asks whether `..` leads out of a directory that is above; the paths
are taken as they are written.

* `Shaped` — what pieces look like behind a front, kept when the last ones go;
* `exists_mem_tail_ancestors_iff` — the components of the paths above;
* `pairwise_tail_ancestors` — and their order;
* `ancestors_of_parent?` — the paths above can be had from the nearest one;
* `prefix_of_mem_tail_ancestors` — they are written with less.
-/

namespace TypeQuery.Path

/-! ## fronts and pieces -/

/-- What the last pieces of a text look like behind its front, the last piece first: a front without
a slash is followed by one, and what has no front begins with a piece that means something. -/
structure Shaped (front : List Char) (ps : List (List Char)) : Prop where
  no_slash : ∀ p ∈ ps, '/' ∉ p
  first : front = ['/'] ∨ (front = ['.'] ∧ ∀ p ∈ ps.getLast?, p = []) ∨
    (front = [] ∧ ∀ p ∈ ps.getLast?, isVoid p = false)

theorem Shaped.of_suffix {fr : List Char} {ps qs : List (List Char)} (h : Shaped fr ps)
    (hs : qs <:+ ps) : Shaped fr qs := by
  obtain ⟨ls, rfl⟩ := hs
  have hlast : ∀ p ∈ qs.getLast?, p ∈ (ls ++ qs).getLast? := by
    intro p hp
    rw [List.getLast?_append, Option.mem_def.mp hp]
    rfl
  refine ⟨fun p hp => h.no_slash p (List.mem_append_right ls hp), ?_⟩
  rcases h.first with hfr | ⟨hfr, hvoid⟩ | ⟨hfr, hvoid⟩
  · exact .inl hfr
  · exact .inr (.inl ⟨hfr, fun p hp => hvoid p (hlast p hp)⟩)
  · exact .inr (.inr ⟨hfr, fun p hp => hvoid p (hlast p hp)⟩)

/-- A text goes on with a slash, or ends, behind a first piece that is empty. -/
theorem eq_nil_or_slash_of_splitSlashes {cs : List Char} {ps : List (List Char)}
    (h : splitSlashes cs = [] :: ps) : cs = [] ∨ ∃ ds, cs = '/' :: ds := by
  cases cs with
  | nil => exact .inl rfl
  | cons c cs =>
      by_cases hc : c = '/'
      · exact .inr ⟨cs, by rw [hc]⟩
      · obtain ⟨p, qs, -, hcons⟩ := splitSlashes_cons_of_ne hc cs
        rw [hcons] at h
        simp at h

theorem front_cases (cs : List Char) : (∃ ds, cs = '/' :: ds ∧ front cs = ['/']) ∨
    (cs = ['.'] ∧ front cs = ['.']) ∨ (∃ ds, cs = '.' :: '/' :: ds ∧ front cs = ['.']) ∨
    (front cs = [] ∧ cs.head? ≠ some '/' ∧ (splitSlashes cs).head? ≠ some ['.']) := by
  unfold front
  split
  · next ds => exact .inl ⟨ds, rfl, rfl⟩
  · exact .inr (.inl ⟨rfl, rfl⟩)
  · next ds => exact .inr (.inr (.inl ⟨ds, rfl, rfl⟩))
  · next hslash hdot hdots =>
      refine .inr (.inr (.inr ⟨rfl, fun hc => ?_, fun hp => ?_⟩))
      · cases cs with
        | nil => simp at hc
        | cons c cs =>
            obtain rfl := Option.some.inj hc
            exact hslash cs rfl
      · cases cs with
        | nil => simp at hp
        | cons c cs =>
            have hc : c ≠ '/' := fun hc => hslash cs (by rw [hc])
            obtain ⟨p, ps, hps, hcons⟩ := splitSlashes_cons_of_ne hc cs
            rw [hcons, List.head?_cons, Option.some_inj] at hp
            obtain ⟨rfl, rfl⟩ := List.cons.inj hp
            rcases eq_nil_or_slash_of_splitSlashes hps with rfl | ⟨ds, rfl⟩
            · exact hdot rfl
            · exact hdots ds rfl

theorem front_append_drop (cs : List Char) : front cs ++ cs.drop (front cs).length = cs := by
  rcases front_cases cs with ⟨ds, rfl, h⟩ | ⟨rfl, h⟩ | ⟨ds, rfl, h⟩ | ⟨h, -⟩ <;> rw [h] <;> rfl

theorem front_append_body (cs : List Char) : front cs ++ joinSlashes (body cs).reverse = cs := by
  rw [body, List.reverse_reverse, joinSlashes_splitSlashes, front_append_drop]

theorem shaped_of_ne_nil {cs : List Char} (hne : cs ≠ []) : Shaped (front cs) (body cs) := by
  refine ⟨fun p hp => no_slash_of_mem_splitSlashes (List.mem_reverse.mp hp), ?_⟩
  rw [body, List.getLast?_reverse]
  rcases front_cases cs with ⟨ds, rfl, h⟩ | ⟨rfl, h⟩ | ⟨ds, rfl, h⟩ | ⟨h, hslash, hdot⟩
  · exact .inl h
  · exact .inr (.inl ⟨h, by rw [h]; simp⟩)
  · exact .inr (.inl ⟨h, by rw [h]; simp⟩)
  · refine .inr (.inr ⟨h, fun p hp => ?_⟩)
    rw [h, List.length_nil, List.drop_zero] at hp
    have hempty : p ≠ [] := by
      rintro rfl
      obtain ⟨ps, hps⟩ := List.head?_eq_some_iff.mp hp
      rcases eq_nil_or_slash_of_splitSlashes hps with hnil | ⟨ds, rfl⟩
      · exact hne hnil
      · exact hslash rfl
    have hp' : p ≠ ['.'] := fun he => hdot (he ▸ hp)
    simp [isVoid, hempty, hp']

/-- Pieces are told apart again, save that no pieces look like one that is empty. -/
theorem splitSlashes_joinSlashes_reverse {ps : List (List Char)} (h : ∀ p ∈ ps, '/' ∉ p) :
    (splitSlashes (joinSlashes ps.reverse)).reverse = if ps = [] then [[]] else ps := by
  split
  · next hnil => rw [hnil]; rfl
  · next hne =>
      rw [splitSlashes_joinSlashes (by simpa using hne) (by simpa using h), List.reverse_reverse]

theorem front_of_first {p : List Char} (hslash : '/' ∉ p) (hvoid : isVoid p = false)
    (ps : List (List Char)) : front (joinSlashes (p :: ps)) = [] := by
  obtain ⟨ds, hjoin, hds⟩ : ∃ ds, joinSlashes (p :: ps) = p ++ ds ∧ ds.head?.all (· = '/') := by
    cases ps with
    | nil => exact ⟨[], (List.append_nil p).symm, rfl⟩
    | cons q qs => exact ⟨_, joinSlashes_cons p (List.cons_ne_nil q qs), rfl⟩
  rw [hjoin]
  match p with
  | [] => simp [isVoid] at hvoid
  | [c] =>
      have hdot : c ≠ '.' := by rintro rfl; simp [isVoid] at hvoid
      have hc : c ≠ '/' := by rintro rfl; simp at hslash
      simp [front, hc, hdot]
  | c :: d :: es =>
      simp only [List.mem_cons, not_or] at hslash
      simp [front, Ne.symm hslash.1, Ne.symm hslash.2.1]

/-- What is assembled from a front and pieces is taken apart into them. -/
theorem front_assemble {fr : List Char} {ps : List (List Char)} (h : Shaped fr ps) :
    front (assemble fr ps).text.toList = fr := by
  rw [assemble, String.toList_ofList]
  rcases h.first with rfl | ⟨rfl, hlast⟩ | ⟨rfl, hlast⟩
  · rfl
  · rw [← List.head?_reverse] at hlast
    cases hrev : ps.reverse with
    | nil => rfl
    | cons p qs =>
        obtain rfl : p = [] := hlast p (by rw [hrev]; rfl)
        cases qs <;> rfl
  · rw [← List.head?_reverse] at hlast
    cases hrev : ps.reverse with
    | nil => rfl
    | cons p qs =>
        have hp : p ∈ ps := List.mem_reverse.mp (hrev ▸ List.mem_cons_self)
        exact front_of_first (h.no_slash p hp) (hlast p (by rw [hrev]; rfl)) qs

theorem body_assemble {fr : List Char} {ps : List (List Char)} (h : Shaped fr ps) :
    body (assemble fr ps).text.toList = if ps = [] then [[]] else ps := by
  rw [body, front_assemble h, assemble, String.toList_ofList, List.drop_left,
    splitSlashes_joinSlashes_reverse h.no_slash]

/-! ## components -/

/-- The components of a front and pieces, the last piece first. -/
def componentsOf (front : List Char) (ps : List (List Char)) : List PathComponent :=
  frontComponents front ++ (ps.reverse.filter (!isVoid ·)).map componentOf

theorem components_eq (p : Path) :
    p.components = componentsOf (front p.text.toList) (body p.text.toList) := rfl

@[simp] theorem componentsOf_nil (fr : List Char) : componentsOf fr [] = frontComponents fr :=
  List.append_nil _

theorem componentsOf_cons_of_void {p : List Char} (hp : isVoid p = true) (fr : List Char)
    (ps : List (List Char)) : componentsOf fr (p :: ps) = componentsOf fr ps := by
  simp [componentsOf, List.filter_append, hp]

theorem componentsOf_cons {p : List Char} (hp : isVoid p = false) (fr : List Char)
    (ps : List (List Char)) :
    componentsOf fr (p :: ps) = componentsOf fr ps ++ [componentOf p] := by
  simp [componentsOf, List.filter_append, hp]

theorem componentsOf_dropWhile (fr : List Char) (ps : List (List Char)) :
    componentsOf fr (ps.dropWhile isVoid) = componentsOf fr ps := by
  induction ps with
  | nil => rfl
  | cons p ps ih =>
      cases hp : isVoid p with
      | true => rw [List.dropWhile_cons_of_pos hp, ih, componentsOf_cons_of_void hp]
      | false => rw [List.dropWhile_cons_of_neg (by simp [hp])]

theorem components_assemble {fr : List Char} {ps : List (List Char)} (h : Shaped fr ps) :
    (assemble fr ps).components = componentsOf fr ps := by
  rw [components_eq, front_assemble h, body_assemble h]
  split
  · next hnil => rw [hnil, componentsOf_cons_of_void rfl]
  · rfl

theorem components_assemble_dropWhile {fr p : List Char} {ps : List (List Char)}
    (h : Shaped fr (p :: ps)) :
    (assemble fr (ps.dropWhile isVoid)).components = componentsOf fr ps := by
  have hsuffix : ps.dropWhile isVoid <:+ p :: ps :=
    (List.dropWhile_suffix isVoid).trans (List.suffix_cons p ps)
  rw [components_assemble (h.of_suffix hsuffix), componentsOf_dropWhile]

/-! ## above -/

/-- **Step lemma**: a piece that means something is the last component. -/
theorem exists_mem_above_iff {fr : List Char} {ps : List (List Char)} (h : Shaped fr ps)
    {cs : List PathComponent} : (∃ q ∈ above fr ps, q.components = cs) ↔
      cs <+: componentsOf fr ps ∧ cs ≠ componentsOf fr ps ∧ (fr = ['/'] → cs ≠ []) := by
  induction ps generalizing cs with
  | nil =>
      have hempty : (⟨""⟩ : Path).components = [] := by decide
      have hone : ∀ c, (cs <+: [c] ∧ cs ≠ [c]) ↔ cs = [] := by
        intro c
        rw [← List.nil_append [c], List.prefix_concat_iff, List.prefix_nil]
        exact ⟨fun ⟨hle, hne⟩ => hle.resolve_left hne, fun hnil => ⟨.inr hnil, by simp [hnil]⟩⟩
      rcases h.first with rfl | ⟨rfl, -⟩ | ⟨rfl, -⟩
      · simp [above, frontComponents, ← and_assoc, hone]
      · simp [above, frontComponents, hone, hempty, eq_comm]
      · simp +contextual [above, frontComponents]
  | cons p ps ih =>
      have hps := h.of_suffix (List.suffix_cons p ps)
      cases hp : isVoid p with
      | true => rw [above, if_pos hp, componentsOf_cons_of_void hp, ih hps]
      | false =>
          have hroot : fr = ['/'] → componentsOf fr ps ≠ [] := by
            rintro rfl
            exact List.cons_ne_nil _ _
          rw [above, if_neg (by simp [hp]), List.exists_mem_cons_iff, ih hps,
            components_assemble_dropWhile h, componentsOf_cons hp, List.prefix_concat_iff]
          constructor
          · rintro (rfl | ⟨hle, -, hfr⟩)
            · exact ⟨.inr List.prefix_rfl, by simp, hroot⟩
            · refine ⟨.inr hle, ?_, hfr⟩
              rintro rfl
              exact absurd hle.length_le (by simp)
          · rintro ⟨rfl | hle, hne, hfr⟩
            · exact absurd rfl hne
            · by_cases he : componentsOf fr ps = cs
              · exact .inl he
              · exact .inr ⟨hle, Ne.symm he, hfr⟩

theorem pairwise_above {fr : List Char} {ps : List (List Char)} (h : Shaped fr ps) :
    (above fr ps).Pairwise fun p q => q.components <+: p.components := by
  induction ps with
  | nil =>
      unfold above
      split <;> simp
  | cons p ps ih =>
      have hps := h.of_suffix (List.suffix_cons p ps)
      rw [above]
      split
      · exact ih hps
      · refine List.pairwise_cons.mpr ⟨fun q hq => ?_, ih hps⟩
        rw [components_assemble_dropWhile h]
        exact ((exists_mem_above_iff hps).mp ⟨q, hq, rfl⟩).1

theorem above_dropWhile (fr : List Char) (ps : List (List Char)) :
    above fr (ps.dropWhile isVoid) = above fr ps := by
  induction ps with
  | nil => rfl
  | cons p ps ih =>
      cases hp : isVoid p with
      | true => rw [List.dropWhile_cons_of_pos hp, ih, above, if_pos hp]
      | false => rw [List.dropWhile_cons_of_neg (by simp [hp])]

theorem above_assemble {fr : List Char} {ps : List (List Char)} (h : Shaped fr ps) :
    above (front (assemble fr ps).text.toList) (body (assemble fr ps).text.toList) =
      above fr ps := by
  rw [front_assemble h, body_assemble h]
  split
  · next hnil => rw [hnil]; rfl
  · rfl

/-- The first of the paths above has the others above it. -/
theorem ancestors_of_head?_above {fr : List Char} {ps : List (List Char)} (h : Shaped fr ps)
    {q : Path} (hq : (above fr ps).head? = some q) : q.ancestors = above fr ps := by
  induction ps with
  | nil =>
      unfold above at hq ⊢
      split at hq
      · next hfr =>
          obtain rfl := Option.some.inj hq
          rw [if_pos hfr]
          decide
      · simp at hq
  | cons p ps ih =>
      have hps := h.of_suffix (List.suffix_cons p ps)
      rw [above] at hq ⊢
      split at hq
      · next hp => rw [if_pos hp, ih hps hq]
      · next hp =>
          obtain rfl := Option.some.inj hq
          rw [if_neg hp, ancestors, above_assemble (hps.of_suffix (List.dropWhile_suffix _)),
            above_dropWhile]

theorem joinSlashes_mono {ps qs : List (List Char)} (h : qs <+: ps) :
    joinSlashes qs <+: joinSlashes ps := by
  induction qs generalizing ps with
  | nil => exact List.nil_prefix
  | cons q qs ih =>
      obtain ⟨rs, rfl, hrs⟩ : ∃ rs, ps = q :: rs ∧ qs <+: rs := by
        obtain ⟨ls, rfl⟩ := h
        exact ⟨qs ++ ls, rfl, List.prefix_append qs ls⟩
      cases qs with
      | nil =>
          cases rs with
          | nil => exact List.prefix_rfl
          | cons r rs => exact List.prefix_append q _
      | cons r qs =>
          obtain ⟨ls, rfl⟩ := hrs
          rw [joinSlashes_cons q (List.cons_ne_nil r qs), joinSlashes_cons q (by simp)]
          exact (List.prefix_append_right_inj q).mpr
            (List.cons_prefix_cons.mpr ⟨rfl, ih (List.prefix_append _ ls)⟩)

theorem prefix_of_mem_above {fr : List Char} {ps : List (List Char)} {q : Path}
    (h : q ∈ above fr ps) : q.text.toList <+: fr ++ joinSlashes ps.reverse := by
  induction ps with
  | nil =>
      unfold above at h
      split at h
      · obtain rfl := List.mem_singleton.mp h
        exact List.nil_prefix
      · simp at h
  | cons p ps ih =>
      have hcons : joinSlashes ps.reverse <+: joinSlashes (p :: ps).reverse :=
        joinSlashes_mono (by simp)
      have hmono := (List.prefix_append_right_inj fr).mpr hcons
      rw [above] at h
      split at h
      · exact (ih h).trans hmono
      · rcases List.mem_cons.mp h with rfl | hq
        · refine .trans ?_ hmono
          rw [assemble, String.toList_ofList]
          exact (List.prefix_append_right_inj fr).mpr
            (joinSlashes_mono (List.reverse_prefix.mpr (List.dropWhile_suffix _)))
        · exact (ih hq).trans hmono

/-! ## the paths above -/

variable {f : Path}

theorem isAbsolute_iff : f.isAbsolute = true ↔ front f.text.toList = ['/'] := by
  rw [isAbsolute, beq_iff_eq]
  rcases front_cases f.text.toList with ⟨ds, he, h⟩ | ⟨he, h⟩ | ⟨ds, he, h⟩ | ⟨h, hslash, -⟩
  · simp [he, front]
  · simp [he, front]
  · simp [he, front]
  · simp [h, hslash]

theorem shaped_of_text (hne : f.text ≠ "") : Shaped (front f.text.toList) (body f.text.toList) :=
  shaped_of_ne_nil fun hnil => hne (String.toList_eq_nil_iff.mp hnil)

/-- **The paths above mean less and less**: they have the components from the front on, never all of
them, and the top always. -/
theorem exists_mem_tail_ancestors_iff (hne : f.text ≠ "") {cs : List PathComponent} :
    (∃ q ∈ f.ancestors.tail, q.components = cs) ↔
      cs <+: f.components ∧ cs ≠ f.components ∧ (f.isAbsolute = true → cs ≠ []) := by
  rw [isAbsolute_iff]
  exact exists_mem_above_iff (shaped_of_text hne)

theorem pairwise_tail_ancestors (hne : f.text ≠ "") :
    f.ancestors.tail.Pairwise fun p q => q.components <+: p.components :=
  pairwise_above (shaped_of_text hne)

theorem ancestors_of_parent? (hne : f.text ≠ "") {q : Path} (hq : f.parent? = some q) :
    q.ancestors = f.ancestors.tail :=
  ancestors_of_head?_above (shaped_of_text hne) hq

theorem prefix_of_mem_tail_ancestors {q : Path} (hq : q ∈ f.ancestors.tail) :
    q.text.toList <+: f.text.toList := by
  have hmono := prefix_of_mem_above hq
  rwa [front_append_body] at hmono

theorem utf8ByteSize_le_of_isPrefix {s u : String} (h : s.toList <+: u.toList) :
    s.utf8ByteSize ≤ u.utf8ByteSize := by
  obtain ⟨cs, hcs⟩ := h
  have hu : u = s ++ String.ofList cs := by
    apply String.toList_inj.mp
    rw [String.toList_append, String.toList_ofList, hcs]
  rw [hu, String.utf8ByteSize_append]
  omega

end TypeQuery.Path
