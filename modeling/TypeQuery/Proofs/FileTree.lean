import Mathlib.Data.List.TakeWhile
import TypeQuery.FileTree
import TypeQuery.Proofs.Path

/-!
# TypeQuery.Proofs.FileTree

Places of a file tree and the paths that lead to them.  The names in a place are
*proper*: no slash in them, and neither empty nor one of the two dots.  Following
a path keeps that up, and so the canonical path of a place can be read back:

```
components (pathOf [a, b, c])  =  [root, name a, name b, name c]
```

* `components_pathOf`, `eq_of_components_pathOf_eq` — a place has a canonical
  path of its own;
* `ancestors_pathOf_append`, `join_pathOf` — the canonical paths above and below;
* `proper_resolve` — paths lead to places with proper names;
* `eq_of_resolve_pathOf`, `resolve_pathOf_iff` — where canonical paths lead to;
* `follow_of_resolve_join` — a name behind a path;
* `exists_parent?_of_read` — what can be read has a directory above it.
-/

namespace TypeQuery

/-! ## proper names -/

/-- A name that something in a directory can have. -/
structure ProperName (name : String) : Prop where
  ne_empty : name ≠ ""
  ne_dot : name ≠ "."
  ne_dots : name ≠ ".."
  no_slash : '/' ∉ name.toList

instance (name : String) : Decidable (ProperName name) :=
  decidable_of_iff (name ≠ "" ∧ name ≠ "." ∧ name ≠ ".." ∧ '/' ∉ name.toList)
    ⟨fun ⟨h₁, h₂, h₃, h₄⟩ => ⟨h₁, h₂, h₃, h₄⟩, fun ⟨h₁, h₂, h₃, h₄⟩ => ⟨h₁, h₂, h₃, h₄⟩⟩

/-- A place whose names are all proper. -/
def Place.Proper (place : Place) : Prop :=
  ∀ name ∈ place, ProperName name

instance (place : Place) : Decidable place.Proper :=
  inferInstanceAs (Decidable (∀ name ∈ place, ProperName name))

namespace ProperName

variable {name : String} (h : ProperName name)
include h

theorem not_isVoid : Path.isVoid name.toList = false := by
  have hempty : name.toList ≠ [] := fun he => h.ne_empty (String.toList_inj.mp he)
  have hdot : name.toList ≠ ['.'] := fun he => h.ne_dot (String.toList_inj.mp he)
  simp [Path.isVoid, hempty, hdot]

theorem componentOf_toList : Path.componentOf name.toList = .name name := by
  have hdots : name.toList ≠ ['.', '.'] := fun he => h.ne_dots (String.toList_inj.mp he)
  simp [Path.componentOf, hdots]

theorem isAbsolute : Path.isAbsolute ⟨name⟩ = false := by
  rw [Path.isAbsolute, beq_eq_false_iff_ne]
  exact fun hhead => h.no_slash (List.mem_of_head? hhead)

theorem exists_toList : ∃ cs c, name.toList = cs ++ [c] ∧ c ≠ '/' := by
  obtain hnil | ⟨cs, c, hcs⟩ := List.eq_nil_or_concat' name.toList
  · exact absurd (String.toList_inj.mp hnil) h.ne_empty
  · refine ⟨cs, c, hcs, fun hc => h.no_slash ?_⟩
    rw [hcs, hc]
    simp

end ProperName

namespace FileTree

open TypeQuery.Path

variable {t : FileTree}

/-! ## canonical paths -/

theorem intercalate_eq_joinSlashes (ps : List (List Char)) :
    ['/'].intercalate ps = joinSlashes ps := by
  induction ps with
  | nil => rfl
  | cons p ps ih =>
      cases ps with
      | nil => simp [joinSlashes]
      | cons q qs =>
          rw [joinSlashes_cons p (List.cons_ne_nil q qs), ← ih]
          simp [List.intercalate]

theorem toList_pathOf (place : Place) :
    (pathOf place).text.toList = '/' :: joinSlashes (place.map String.toList) := by
  rw [pathOf, String.toList_append, String.toList_intercalate]
  exact congrArg ('/' :: ·) (intercalate_eq_joinSlashes _)

/-- Between the slashes of a canonical path stand the names, and a void piece at the top. -/
theorem splitSlashes_joinSlashes_place {place : Place} (h : place.Proper) (hne : place ≠ []) :
    splitSlashes (joinSlashes (place.map String.toList)) = place.map String.toList := by
  refine splitSlashes_joinSlashes (by simpa using hne) fun p hp => ?_
  obtain ⟨name, hname, rfl⟩ := List.mem_map.mp hp
  exact (h name hname).no_slash

theorem body_pathOf (place : Place) : body (pathOf place).text.toList =
    (splitSlashes (joinSlashes (place.map String.toList))).reverse := by
  rw [toList_pathOf]
  rfl

/-- The canonical path of a place names the place. -/
theorem components_pathOf {place : Place} (h : place.Proper) :
    (pathOf place).components = .root :: place.map .name := by
  have hpieces : (splitSlashes (joinSlashes (place.map String.toList))).filter (!isVoid ·) =
      place.map String.toList := by
    by_cases hnil : place = []
    · rw [hnil]
      rfl
    · rw [splitSlashes_joinSlashes_place h hnil, List.filter_eq_self]
      intro p hp
      obtain ⟨name, hname, rfl⟩ := List.mem_map.mp hp
      rw [(h name hname).not_isVoid]
      rfl
  rw [components, body_pathOf, List.reverse_reverse, hpieces, List.map_map, toList_pathOf]
  refine congrArg (PathComponent.root :: ·) (List.map_congr_left fun name hname => ?_)
  exact (h name hname).componentOf_toList

/-- No two places have the same canonical path. -/
theorem eq_of_components_pathOf_eq {place other : Place} (h : place.Proper) (h' : other.Proper)
    (he : (pathOf place).components = (pathOf other).components) :
    place = other := by
  rw [components_pathOf h, components_pathOf h'] at he
  exact (List.map_inj_right fun _ _ => PathComponent.name.inj).mp (List.cons.inj he).2

/-! ## above and below a place -/

theorem dropWhile_isVoid {place : Place} (h : place.Proper) :
    (place.map String.toList).reverse.dropWhile isVoid = (place.map String.toList).reverse := by
  rw [List.dropWhile_eq_self_iff]
  intro hlen
  have hmem := List.mem_reverse.mp (List.getElem_mem hlen)
  obtain ⟨name, hname, he⟩ := List.mem_map.mp hmem
  rw [← he, (h name hname).not_isVoid]
  exact Bool.false_ne_true

theorem assemble_place (place : Place) :
    assemble ['/'] (place.map String.toList).reverse = pathOf place := by
  apply eq_of_toList
  rw [toList_pathOf, assemble, String.toList_ofList, List.reverse_reverse, List.singleton_append]

theorem above_place {place : Place} {name : String} (h : Place.Proper (place ++ [name])) :
    above ['/'] ((place ++ [name]).map String.toList).reverse =
      pathOf place :: above ['/'] (place.map String.toList).reverse := by
  obtain ⟨hplace, hname⟩ := List.forall_mem_append.mp h
  have hvoid := (hname name (List.mem_singleton_self name)).not_isVoid
  rw [List.map_append, List.reverse_append, List.map_singleton, List.reverse_singleton,
    List.singleton_append, above, if_neg (by simp [hvoid]), dropWhile_isVoid hplace, assemble_place]

theorem above_pathOf {place : Place} (h : place.Proper) :
    above (front (pathOf place).text.toList) (body (pathOf place).text.toList) =
      above ['/'] (place.map String.toList).reverse := by
  have hfront : front (pathOf place).text.toList = ['/'] := by rw [toList_pathOf]; rfl
  rw [hfront, body_pathOf]
  by_cases hnil : place = []
  · rw [hnil]
    rfl
  · rw [splitSlashes_joinSlashes_place h hnil]

theorem ancestors_pathOf_nil : (pathOf []).ancestors = [pathOf []] := by decide

/-- Above a place is the one without its last name, and what is above that one. -/
theorem ancestors_pathOf_append {place : Place} {name : String}
    (h : Place.Proper (place ++ [name])) :
    (pathOf (place ++ [name])).ancestors = pathOf (place ++ [name]) :: (pathOf place).ancestors := by
  have hplace : place.Proper := (List.forall_mem_append.mp h).1
  rw [ancestors, above_pathOf h, above_place h, ancestors, above_pathOf hplace]

theorem parent?_pathOf_append {place : Place} {name : String}
    (h : Place.Proper (place ++ [name])) :
    (pathOf (place ++ [name])).parent? = some (pathOf place) := by
  rw [parent?, above_pathOf h, above_place h, List.head?_cons]

/-- The path of a name below a place. -/
theorem join_pathOf {place : Place} {name : String} (h : Place.Proper (place ++ [name])) :
    (pathOf place).join ⟨name⟩ = pathOf (place ++ [name]) := by
  obtain ⟨hplace, hname⟩ := List.forall_mem_append.mp h
  have hrel := (hname name (List.mem_singleton_self name)).isAbsolute
  apply eq_of_toList
  obtain rfl | ⟨above, last, rfl⟩ := List.eq_nil_or_concat' place
  · have htop : (pathOf []).text.toList = [] ++ ['/'] := rfl
    rw [toList_join hrel htop, toList_pathOf]
    rfl
  · obtain ⟨cs, c, hcs, hc⟩ := (hplace last (by simp)).exists_toList
    obtain ⟨front, hfront⟩ := suffix_joinSlashes (above.map String.toList) last.toList
    have htext : (pathOf (above ++ [last])).text.toList = '/' :: (front ++ cs) ++ [c] := by
      rw [toList_pathOf, List.map_append, List.map_singleton, ← hfront, hcs]
      simp
    rw [toList_join hrel htext, if_neg hc, toList_pathOf, List.map_append, List.map_singleton,
      joinSlashes_append_singleton (by simp), List.map_append, List.map_singleton, ← hfront, hcs]
    simp

/-! ## following paths -/

theorem get?_nil : t.get? [] = some .directory := rfl

section

variable {ε α β : Type} {f : β → α → Except ε β} {b c : β}

theorem foldlM_append_eq_ok {xs ys : List α} : (xs ++ ys).foldlM f b = .ok c ↔
    ∃ middle, xs.foldlM f b = .ok middle ∧ ys.foldlM f middle = .ok c := by
  rw [List.foldlM_append]
  cases xs.foldlM f b with
  | error fault => exact ⟨fun h => by contradiction, fun ⟨_, h, _⟩ => by contradiction⟩
  | ok middle =>
      exact ⟨fun h => ⟨middle, rfl, h⟩, fun ⟨_, hmiddle, h⟩ => Except.ok.inj hmiddle ▸ h⟩

@[simp] theorem foldlM_singleton {x : α} : [x].foldlM f b = f b x := by
  rw [List.foldlM_cons]
  simp

theorem foldlM_cons_eq_ok {x : α} {xs : List α} : (x :: xs).foldlM f b = .ok c ↔
    ∃ next, f b x = .ok next ∧ xs.foldlM f next = .ok c := by
  rw [← List.singleton_append, foldlM_append_eq_ok, foldlM_singleton]

end

theorem foldlM_follow_append {ps qs : List String} {here place : Place} :
    (ps ++ qs).foldlM t.follow here = .ok place ↔
      ∃ middle, ps.foldlM t.follow here = .ok middle ∧ qs.foldlM t.follow middle = .ok place :=
  foldlM_append_eq_ok

theorem foldlM_follow_singleton {piece : String} {here : Place} :
    [piece].foldlM t.follow here = t.follow here piece :=
  foldlM_singleton

theorem foldlM_follow_cons {p : String} {ps : List String} {here place : Place} :
    (p :: ps).foldlM t.follow here = .ok place ↔
      ∃ next, t.follow here p = .ok next ∧ ps.foldlM t.follow next = .ok place :=
  foldlM_cons_eq_ok

theorem proper_follow {here place : Place} {piece : String} (hhere : here.Proper)
    (hpiece : '/' ∉ piece.toList) (h : t.follow here piece = .ok place) : place.Proper := by
  unfold follow at h
  split at h
  · split at h
    · obtain rfl := Except.ok.inj h
      exact hhere
    · next hempty =>
        split at h
        · obtain rfl := Except.ok.inj h
          exact fun name hname => hhere name (List.dropLast_subset _ hname)
        · next hdots =>
            split at h
            · contradiction
            · split at h
              · obtain rfl := Except.ok.inj h
                intro name hname
                cases List.mem_append.mp hname with
                | inl hold => exact hhere name hold
                | inr hnew =>
                    obtain rfl := List.mem_singleton.mp hnew
                    simp at hempty hdots
                    exact ⟨hempty.1, hempty.2, hdots, hpiece⟩
              · contradiction
  · contradiction

theorem proper_foldlM_follow {ps : List String} {here place : Place} (hhere : here.Proper)
    (hps : ∀ p ∈ ps, '/' ∉ p.toList) (h : ps.foldlM t.follow here = .ok place) :
    place.Proper := by
  induction ps generalizing here with
  | nil =>
      obtain rfl := Except.ok.inj h
      exact hhere
  | cons p ps ih =>
      obtain ⟨next, hp, hrest⟩ := foldlM_follow_cons.mp h
      exact ih (proper_follow hhere (hps p List.mem_cons_self) hp)
        (fun q hq => hps q (List.mem_cons_of_mem p hq)) hrest

theorem no_slash_of_mem_pieces {p : Path} {piece : String} (h : piece ∈ pieces p) :
    '/' ∉ piece.toList := by
  obtain ⟨cs, hcs, rfl⟩ := List.mem_map.mp h
  rw [String.toList_ofList]
  exact no_slash_of_mem_splitSlashes hcs

theorem resolve_eq_ok {p : Path} {place : Place} (h : t.resolve p = .ok place) :
    p.text ≠ "" ∧ (pieces p).foldlM t.follow (t.origin p) = .ok place := by
  unfold resolve at h
  split at h
  · contradiction
  · split at h
    · contradiction
    · next hempty =>
        split at h
        · contradiction
        · exact ⟨by simpa using hempty, h⟩

/-- Paths lead to places with proper names. -/
theorem proper_resolve (ht : Place.Proper t.workingDirectory) {p : Path} {place : Place}
    (h : t.resolve p = .ok place) : place.Proper := by
  refine proper_foldlM_follow ?_ (fun _ => no_slash_of_mem_pieces) (resolve_eq_ok h).2
  unfold origin
  split
  · exact fun name hname => absurd hname (by simp)
  · exact ht

/-- A proper name leads to the place below that has the name. -/
theorem eq_of_follow {here place : Place} {name : String} (hname : ProperName name)
    (h : t.follow here name = .ok place) : place = here ++ [name] := by
  unfold follow at h
  split at h
  · rw [if_neg (by simp [hname.ne_empty, hname.ne_dot]), if_neg (by simp [hname.ne_dots])] at h
    split at h
    · contradiction
    · split at h
      · exact (Except.ok.inj h).symm
      · contradiction
  · contradiction

theorem eq_of_foldlM_follow {names here place : Place} (hnames : names.Proper)
    (h : names.foldlM t.follow here = .ok place) : place = here ++ names := by
  induction names generalizing here with
  | nil => simpa using (Except.ok.inj h).symm
  | cons name names ih =>
      obtain ⟨hname, hnames⟩ := List.forall_mem_cons.mp hnames
      obtain ⟨next, hnext, hrest⟩ := foldlM_follow_cons.mp h
      rw [ih hnames hrest, eq_of_follow hname hnext, List.append_assoc, List.singleton_append]

@[simp] theorem origin_pathOf (place : Place) : t.origin (pathOf place) = [] := by
  rw [origin, if_pos]
  rw [isAbsolute, toList_pathOf]
  rfl

theorem pieces_pathOf {place : Place} (h : place.Proper) (hne : place ≠ []) :
    pieces (pathOf place) = "" :: place := by
  rw [pieces, toList_pathOf, splitSlashes_slash, splitSlashes_joinSlashes_place h hne,
    List.map_cons, List.map_map]
  simp [Function.comp_def]

/-- A canonical path that leads anywhere leads to its place. -/
theorem eq_of_resolve_pathOf {place other : Place} (h : place.Proper)
    (hr : t.resolve (pathOf place) = .ok other) : other = place := by
  have hfold := (resolve_eq_ok hr).2
  rw [origin_pathOf] at hfold
  by_cases hnil : place = []
  · rw [hnil] at hfold ⊢
    exact (Except.ok.inj hfold).symm
  · rw [pieces_pathOf h hnil, List.foldlM_cons] at hfold
    exact eq_of_foldlM_follow h hfold

theorem mem_toList_pathOf {place : Place} {c : Char} :
    c ∈ (pathOf place).text.toList ↔ c = '/' ∨ ∃ name ∈ place, c ∈ name.toList := by
  rw [toList_pathOf, mem_cons_joinSlashes]
  simp

/-- When a canonical path leads to its place. -/
theorem resolve_pathOf_iff {place : Place} (h : place.Proper) (hne : place ≠ []) :
    t.resolve (pathOf place) = .ok place ↔
      (∀ name ∈ place, '\x00' ∉ name.toList) ∧ (pathOf place).text.utf8ByteSize ≤ pathLimit ∧
        place.foldlM t.follow [] = .ok place := by
  have hnul : (pathOf place).text.toList.contains '\x00' = true ↔
      ∃ name ∈ place, '\x00' ∈ name.toList := by
    rw [List.contains_iff_mem, mem_toList_pathOf]
    exact or_iff_right (by decide)
  have hempty : (pathOf place).text.isEmpty = false := by
    rw [String.isEmpty_eq_false_iff, Ne, ← String.toList_eq_nil_iff, toList_pathOf]
    exact List.cons_ne_nil _ _
  have hfold : (pieces (pathOf place)).foldlM t.follow (t.origin (pathOf place)) =
      place.foldlM t.follow [] := by
    rw [origin_pathOf, pieces_pathOf h hne, List.foldlM_cons]
    rfl
  rw [resolve, hempty, hfold]
  by_cases hbad : (pathOf place).text.toList.contains '\x00' = true
  · obtain ⟨name, hname, hmem⟩ := hnul.mp hbad
    rw [if_pos hbad]
    exact ⟨fun h => by contradiction, fun h => absurd hmem (h.1 name hname)⟩
  · have hgood : ∀ name ∈ place, '\x00' ∉ name.toList := fun name hname hmem =>
      hbad (hnul.mpr ⟨name, hname, hmem⟩)
    rw [if_neg hbad, if_neg Bool.false_ne_true]
    by_cases hlong : pathLimit < (pathOf place).text.utf8ByteSize
    · rw [if_pos hlong]
      exact ⟨fun h => by contradiction, fun h => by omega⟩
    · rw [if_neg hlong]
      exact ⟨fun h => ⟨hgood, by omega, h⟩, fun h => h.2.2⟩

/-- A canonical path is its own canonical path, whether it leads anywhere or not. -/
theorem canonicalOrSame_pathOf {place : Place} (h : place.Proper) :
    t.canonicalOrSame (pathOf place) = pathOf place := by
  rw [canonicalOrSame, canonical]
  cases hr : t.resolve (pathOf place) with
  | error fault => rfl
  | ok other => rw [eq_of_resolve_pathOf h hr]; rfl

theorem follow_of_get? {here : Place} {name : String} (hname : ProperName name)
    (hsize : name.utf8ByteSize ≤ nameLimit) (hhere : t.get? here = some .directory) {e : FileEntry}
    (h : t.get? (here ++ [name]) = some e) : t.follow here name = .ok (here ++ [name]) := by
  unfold follow
  rw [hhere]
  dsimp only
  rw [if_neg (by simp [hname.ne_empty, hname.ne_dot]), if_neg (by simp [hname.ne_dots]),
    if_neg (by omega), if_pos (by simp [h])]

theorem directory_of_follow {here place : Place} {piece : String}
    (h : t.follow here piece = .ok place) : t.get? here = some .directory := by
  unfold follow at h
  split at h
  · assumption
  · contradiction

theorem eq_of_follow_empty {here place : Place} (h : t.follow here "" = .ok place) :
    place = here := by
  unfold follow at h
  split at h
  · exact (Except.ok.inj h).symm
  · contradiction

/-- A name behind a path is followed from where the path leads to. -/
theorem follow_of_resolve_join {p : Path} {here place : Place} {name : String}
    (hname : ProperName name) (hp : t.resolve p = .ok here)
    (h : t.resolve (p.join ⟨name⟩) = .ok place) : t.follow here name = .ok place := by
  obtain ⟨hne, hfold⟩ := resolve_eq_ok hp
  obtain ⟨ps, hjoin, hps⟩ := splitSlashes_join hname.isAbsolute hne
  have hpieces : pieces (p.join ⟨name⟩) = ps.map String.ofList ++ [name] := by
    rw [pieces, hjoin, splitSlashes_of_no_slash hname.no_slash, List.map_append, List.map_singleton,
      String.ofList_toList]
  have horigin : t.origin (p.join ⟨name⟩) = t.origin p := by
    rw [origin, origin, isAbsolute_join hname.isAbsolute hne]
  have hjoined := (resolve_eq_ok h).2
  rw [hpieces, horigin, foldlM_follow_append] at hjoined
  obtain ⟨other, hother, hlast⟩ := hjoined
  -- an empty last piece leads nowhere else
  have hhere : here = other := by
    rcases hps with hps | hps
    · rw [pieces, hps, hother] at hfold
      exact (Except.ok.inj hfold).symm
    · rw [pieces, hps, List.map_append, foldlM_follow_append] at hfold
      obtain ⟨middle, hmiddle, hempty⟩ := hfold
      rw [hother] at hmiddle
      rw [List.map_singleton, foldlM_follow_singleton] at hempty
      rw [eq_of_follow_empty hempty, Except.ok.inj hmiddle]
  rwa [hhere, ← foldlM_follow_singleton]

theorem foldlM_follow_void {ps : List String} (h : ∀ p ∈ ps, isVoid p.toList = true) :
    ps.foldlM t.follow [] = .ok [] := by
  induction ps with
  | nil => rfl
  | cons p ps ih =>
      have hp : p = "" ∨ p = "." := by
        have hvoid := h p List.mem_cons_self
        simp only [isVoid, Bool.or_eq_true, beq_iff_eq] at hvoid
        exact hvoid.imp String.toList_eq_nil_iff.mp fun hd => String.toList_inj.mp hd
      have hstay : t.follow [] p = .ok [] := by
        rcases hp with rfl | rfl <;> rfl
      rw [List.foldlM_cons, hstay]
      exact ih fun q hq => h q (List.mem_cons_of_mem p hq)

/-! ## reading -/

theorem read_of_resolve {p : Path} {place : Place} (h : t.resolve p = .ok place) :
    t.read p = match t.get? place with
      | none => .error .missing
      | some .directory => .error .isDirectory
      | some (.file none) => .error .notText
      | some (.file (some text)) => .ok text := by
  unfold read
  rw [h]
  rfl

theorem exists_resolve_of_read {p : Path} {text : String} (h : t.read p = .ok text) :
    ∃ place, t.resolve p = .ok place ∧ t.get? place = some (.file (some text)) := by
  cases hr : t.resolve p with
  | error e =>
      rw [read, hr] at h
      contradiction
  | ok place =>
      rw [read_of_resolve hr] at h
      refine ⟨place, rfl, ?_⟩
      split at h
      · contradiction
      · contradiction
      · contradiction
      · next hget => rw [hget, Except.ok.inj h]

/-- A file is one of the entries of the tree. -/
theorem mem_entries_of_file {place : Place} {text : Option String}
    (h : t.get? place = some (.file text)) : place ∈ t.entries.map (·.1) := by
  unfold get? at h
  split at h
  · simp at h
  · obtain ⟨e, he, -⟩ := Option.map_eq_some_iff.mp h
    have hplace : e.1 = place := by simpa using List.find?_some he
    exact List.mem_map.mpr ⟨e, List.mem_of_find?_eq_some he, hplace⟩

/-- What can be read has a directory above it. -/
theorem exists_parent?_of_read {p : Path} {text : String} (h : t.read p = .ok text) :
    ∃ directory, p.parent? = some directory := by
  obtain ⟨place, hresolve, hfile⟩ := exists_resolve_of_read h
  obtain ⟨hne, hfold⟩ := resolve_eq_ok hresolve
  apply Option.ne_none_iff_exists'.mp
  intro hnone
  rcases void_of_parent?_eq_none hnone with hempty | ⟨habs, hvoid⟩
  · exact hne hempty
  · -- such a path leads to the top, which is no file
    have htop : (pieces p).foldlM t.follow (t.origin p) = .ok [] := by
      rw [origin, if_pos habs]
      apply foldlM_follow_void
      intro piece hpiece
      obtain ⟨cs, hcs, rfl⟩ := List.mem_map.mp hpiece
      rw [String.toList_ofList]
      exact hvoid cs hcs
    rw [htop] at hfold
    obtain rfl := Except.ok.inj hfold
    rw [get?_nil] at hfile
    simp at hfile

end FileTree

end TypeQuery
