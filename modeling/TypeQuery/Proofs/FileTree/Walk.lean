import TypeQuery.Proofs.FileTree
import TypeQuery.Proofs.Path.Above

/-!
# TypeQuery.Proofs.FileTree.Walk

Following a path component by component.  The pieces that mean nothing keep one
where one is, and so a path leads where its components lead (`foldlM_go_of_resolve`,
and back `resolve_of_foldlM_go`).  There are no links in a tree: where components
lead can be told from their names alone, if they lead anywhere (`stand_of_resolve`).

```
from /a :   b/./c//../d.ts
            b    c    ..   d.ts           components
       /a   /a/b /a/b/c /a/b /a/b/d.ts    where one stands
```

Names alone also tell what a walk passes: a place that it enters is on its way
(`exists_prefix_walk`), and without `..` it never leaves one (`prefix_foldl_walk`).
-/

namespace TypeQuery

/-- Where one stands after a component, told from its name alone. -/
def Place.walk (here : Place) : PathComponent → Place
  | .root => []
  | .current => here
  | .up => here.dropLast
  | .name name => here ++ [name]

/-! ## what a walk passes -/

/-- **A place that is entered is passed**: one enters it by its last name. -/
theorem exists_prefix_walk {cs : List PathComponent} {here place : Place} (hroot : .root ∉ cs)
    (hout : ¬place <+: here) (hin : place <+: cs.foldl Place.walk here) :
    ∃ ds, ds <+: cs ∧ ds.foldl Place.walk here = place := by
  induction cs generalizing here with
  | nil => exact absurd hin hout
  | cons c cs ih =>
      simp only [List.mem_cons, not_or] at hroot
      by_cases hnext : place <+: here.walk c
      · refine ⟨[c], List.cons_prefix_cons.mpr ⟨rfl, List.nil_prefix⟩, ?_⟩
        cases c with
        | root => exact absurd rfl hroot.1
        | current => exact absurd hnext hout
        | up => exact absurd (hnext.trans (List.dropLast_prefix here)) hout
        | name name => exact ((List.prefix_concat_iff.mp hnext).resolve_right hout).symm
      · obtain ⟨ds, hds, hstand⟩ := ih hroot.2 hnext hin
        exact ⟨c :: ds, List.cons_prefix_cons.mpr ⟨rfl, hds⟩, hstand⟩

/-- Without a way up one stays below where one was. -/
theorem prefix_foldl_walk {cs : List PathComponent} {here : Place} (hroot : .root ∉ cs)
    (hup : .up ∉ cs) : here <+: cs.foldl Place.walk here := by
  induction cs generalizing here with
  | nil => exact List.prefix_rfl
  | cons c cs ih =>
      simp only [List.mem_cons, not_or] at hroot hup
      refine .trans ?_ (ih hroot.2 hup.2)
      cases c with
      | root => exact absurd rfl hroot.1
      | current => exact List.prefix_rfl
      | up => exact absurd rfl hup.1
      | name name => exact List.prefix_append here [name]

namespace FileTree

open TypeQuery.Path

variable {t : FileTree}

/-! ## following components -/

/-- Follows one component. -/
def go (t : FileTree) (here : Place) : PathComponent → Except FileFault Place
  | .root => .ok []
  | .current => t.follow here "."
  | .up => t.follow here ".."
  | .name name => t.follow here name

theorem go_componentOf (here : Place) (piece : List Char) :
    t.go here (componentOf piece) = t.follow here (String.ofList piece) := by
  unfold componentOf
  split
  · next hp => rw [beq_iff_eq.mp hp]; rfl
  · rfl

theorem directory_of_go {c : PathComponent} {here next : Place} (hc : c ≠ .root)
    (h : t.go here c = .ok next) : t.get? here = some .directory := by
  cases c with
  | root => exact absurd rfl hc
  | current => exact directory_of_follow h
  | up => exact directory_of_follow h
  | name name => exact directory_of_follow h

theorem follow_dot {here : Place} (h : t.get? here = some .directory) :
    t.follow here "." = .ok here := by
  unfold follow
  rw [h]
  rfl

theorem follow_of_isVoid {here : Place} {piece : List Char} (hp : isVoid piece = true)
    (h : t.get? here = some .directory) : t.follow here (String.ofList piece) = .ok here := by
  simp only [isVoid, Bool.or_eq_true, beq_iff_eq] at hp
  rcases hp with rfl | rfl
  · unfold follow
    rw [h]
    rfl
  · exact follow_dot h

/-- One can only be in a directory when one is to go on from there. -/
theorem directory_of_foldlM_follow {ps : List String} {here place : Place}
    (h : ps.foldlM t.follow here = .ok place) (hplace : t.get? place = some .directory) :
    t.get? here = some .directory := by
  cases ps with
  | nil => rwa [Except.ok.inj h]
  | cons p ps =>
      obtain ⟨next, hnext, -⟩ := foldlM_cons_eq_ok.mp h
      exact directory_of_follow hnext

theorem foldlM_go_of_follow {ps : List (List Char)} {here place : Place}
    (h : (ps.map String.ofList).foldlM t.follow here = .ok place) :
    ((ps.filter (!isVoid ·)).map componentOf).foldlM t.go here = .ok place := by
  induction ps generalizing here with
  | nil => exact h
  | cons p ps ih =>
      rw [List.map_cons] at h
      obtain ⟨next, hnext, hrest⟩ := foldlM_cons_eq_ok.mp h
      cases hp : isVoid p with
      | true =>
          rw [List.filter_cons_of_neg (by simp [hp])]
          rw [follow_of_isVoid hp (directory_of_follow hnext)] at hnext
          exact ih (Except.ok.inj hnext ▸ hrest)
      | false =>
          rw [List.filter_cons_of_pos (by simp [hp]), List.map_cons]
          exact foldlM_cons_eq_ok.mpr ⟨next, (go_componentOf here p).trans hnext, ih hrest⟩

theorem foldlM_follow_of_go {ps : List (List Char)} {here place : Place}
    (h : ((ps.filter (!isVoid ·)).map componentOf).foldlM t.go here = .ok place)
    (hplace : t.get? place = some .directory) :
    (ps.map String.ofList).foldlM t.follow here = .ok place := by
  induction ps generalizing here with
  | nil => exact h
  | cons p ps ih =>
      rw [List.map_cons]
      cases hp : isVoid p with
      | true =>
          rw [List.filter_cons_of_neg (by simp [hp])] at h
          have hhere := directory_of_foldlM_follow (ih h) hplace
          exact foldlM_cons_eq_ok.mpr ⟨here, follow_of_isVoid hp hhere, ih h⟩
      | false =>
          rw [List.filter_cons_of_pos (by simp [hp]), List.map_cons] at h
          obtain ⟨next, hnext, hrest⟩ := foldlM_cons_eq_ok.mp h
          exact foldlM_cons_eq_ok.mpr
            ⟨next, (go_componentOf here p).symm.trans hnext, ih hrest⟩

/-! ## following paths -/

/-- The pieces that mean something are those of the body. -/
theorem filter_splitSlashes (cs : List Char) :
    (splitSlashes cs).filter (!isVoid ·) = (body cs).reverse.filter (!isVoid ·) := by
  rw [body, List.reverse_reverse]
  unfold front
  split
  · next ds => simp [splitSlashes_slash, isVoid]
  · decide
  · next ds =>
      have hdot : splitSlashes ('.' :: '/' :: ds) = ['.'] :: splitSlashes ds := by
        rw [← List.singleton_append, splitSlashes_append (by decide)]
      rw [hdot]
      simp [isVoid]
  · rfl

/-- A path means where it starts and the pieces that mean something. -/
theorem components_eq_append (p : Path) : p.components =
    frontComponents (front p.text.toList) ++
      ((splitSlashes p.text.toList).filter (!isVoid ·)).map componentOf := by
  rw [filter_splitSlashes]
  rfl

theorem root_not_mem_map_componentOf (ps : List (List Char)) : .root ∉ ps.map componentOf := by
  intro h
  obtain ⟨p, -, hp⟩ := List.mem_map.mp h
  unfold componentOf at hp
  split at hp <;> contradiction

/-- Only an absolute path means the top, and it does so first. -/
theorem root_not_mem_of_append {p : Path} {cs rest : List PathComponent}
    (h : p.components = cs ++ rest) (hcs : p.isAbsolute = true → cs ≠ []) : .root ∉ rest := by
  intro hmem
  have hbody := root_not_mem_map_componentOf ((splitSlashes p.text.toList).filter (!isVoid ·))
  have hall : .root ∈ p.components := h ▸ List.mem_append_right cs hmem
  rw [components_eq_append] at h hall
  have hfront := (List.mem_append.mp hall).resolve_right hbody
  rcases front_cases p.text.toList with ⟨ds, -, hfr⟩ | ⟨-, hfr⟩ | ⟨ds, -, hfr⟩ | ⟨hfr, -⟩
  · obtain ⟨c, cs, rfl⟩ := List.exists_cons_of_ne_nil (hcs (isAbsolute_iff.mpr hfr))
    rw [hfr] at h
    have htail : List.map componentOf _ = cs ++ rest := (List.cons.inj h).2
    rw [htail] at hbody
    exact hbody (List.mem_append_right cs hmem)
  · simp [hfr, frontComponents] at hfront
  · simp [hfr, frontComponents] at hfront
  · simp [hfr, frontComponents] at hfront

/-- The names in a path are proper. -/
theorem properName_of_mem_components {p : Path} {name : String} (h : .name name ∈ p.components) :
    ProperName name := by
  rw [components_eq_append] at h
  rcases List.mem_append.mp h with hfront | hname
  · unfold frontComponents at hfront
    split at hfront <;> simp at hfront
  · obtain ⟨piece, hpiece, he⟩ := List.mem_map.mp hname
    obtain ⟨hmem, hvoid⟩ := List.mem_filter.mp hpiece
    have hslash := no_slash_of_mem_splitSlashes hmem
    unfold componentOf at he
    split at he
    · contradiction
    · next hdots =>
        obtain rfl := PathComponent.name.inj he
        simp [isVoid] at hvoid
        simp only [beq_iff_eq] at hdots
        refine ⟨fun h => hvoid.1 ?_, fun h => hvoid.2 ?_, fun h => hdots ?_, by simpa using hslash⟩
        · simpa using congrArg String.toList h
        · simpa using congrArg String.toList h
        · simpa using congrArg String.toList h

/-- The front leads to where the path starts. -/
theorem foldlM_go_frontComponents (p : Path) {place : Place} :
    (frontComponents (front p.text.toList)).foldlM t.go t.workingDirectory = .ok place ↔
      place = t.origin p ∧
        (front p.text.toList = ['.'] → t.get? t.workingDirectory = some .directory) := by
  have hdot : t.follow t.workingDirectory "." = .ok place ↔
      place = t.workingDirectory ∧ t.get? t.workingDirectory = some .directory := by
    constructor
    · intro h
      have hdir := directory_of_follow h
      exact ⟨Except.ok.inj (h.symm.trans (follow_dot hdir)), hdir⟩
    · rintro ⟨rfl, hdir⟩
      exact follow_dot hdir
  rcases front_cases p.text.toList with ⟨ds, -, h⟩ | ⟨-, h⟩ | ⟨ds, -, h⟩ | ⟨h, -⟩
  · simp [origin, isAbsolute_iff, h, frontComponents, go]
  · simp [origin, isAbsolute_iff, h, frontComponents, go, hdot]
  · simp [origin, isAbsolute_iff, h, frontComponents, go, hdot]
  · simp [origin, isAbsolute_iff, h, frontComponents, pure, Except.pure]
    exact eq_comm

/-- **A path leads where its components lead.** -/
theorem foldlM_go_of_resolve {p : Path} {place : Place} (h : t.resolve p = .ok place) :
    p.components.foldlM t.go t.workingDirectory = .ok place := by
  have hfold := (resolve_eq_ok h).2
  obtain ⟨first, rest, hpieces⟩ := List.exists_cons_of_ne_nil (splitSlashes_ne_nil p.text.toList)
  -- the first piece is followed from where the path starts
  have hdir : t.get? (t.origin p) = some .directory := by
    rw [pieces, hpieces, List.map_cons] at hfold
    obtain ⟨next, hnext, -⟩ := foldlM_cons_eq_ok.mp hfold
    exact directory_of_follow hnext
  have hfront : front p.text.toList = ['.'] → t.get? t.workingDirectory = some .directory := by
    intro hdot
    rwa [origin, if_neg (by simp [isAbsolute_iff, hdot])] at hdir
  rw [components_eq_append]
  exact foldlM_append_eq_ok.mpr
    ⟨t.origin p, (foldlM_go_frontComponents p).mpr ⟨rfl, hfront⟩, foldlM_go_of_follow hfold⟩

/-- A path is followed to a directory if its components are, unless the text is at fault. -/
theorem resolve_of_foldlM_go {p : Path} {place : Place} (hne : p.text ≠ "")
    (hnul : '\x00' ∉ p.text.toList) (hsize : p.text.utf8ByteSize ≤ pathLimit)
    (h : p.components.foldlM t.go t.workingDirectory = .ok place)
    (hplace : t.get? place = some .directory) : t.resolve p = .ok place := by
  rw [components_eq_append] at h
  obtain ⟨middle, hfront, hrest⟩ := foldlM_append_eq_ok.mp h
  obtain ⟨rfl, -⟩ := (foldlM_go_frontComponents p).mp hfront
  rw [resolve, if_neg (by simpa using hnul), if_neg (by simpa using hne), if_neg (by omega)]
  exact foldlM_follow_of_go hrest hplace

/-! ## where one stands -/

/-- Where a path leads to, told from its names alone. -/
def stand (t : FileTree) (p : Path) : Place :=
  p.components.foldl Place.walk t.workingDirectory

theorem walk_of_go {c : PathComponent} {here next : Place}
    (hc : ∀ name, c = .name name → ProperName name) (h : t.go here c = .ok next) :
    here.walk c = next := by
  cases c with
  | root => exact Except.ok.inj h
  | current => exact Except.ok.inj ((follow_dot (directory_of_follow h)).symm.trans h)
  | up =>
      have hup : t.follow here ".." = .ok here.dropLast := by
        unfold follow
        rw [directory_of_follow h]
        rfl
      exact Except.ok.inj (hup.symm.trans h)
  | name name => exact (eq_of_follow (hc name rfl) h).symm

theorem foldl_walk_of_go {cs : List PathComponent} {here place : Place}
    (hcs : ∀ name, .name name ∈ cs → ProperName name) (h : cs.foldlM t.go here = .ok place) :
    cs.foldl Place.walk here = place := by
  induction cs generalizing here with
  | nil => exact Except.ok.inj h
  | cons c cs ih =>
      obtain ⟨next, hnext, hrest⟩ := foldlM_cons_eq_ok.mp h
      have hwalk := walk_of_go (fun name hname => hcs name (hname ▸ List.mem_cons_self)) hnext
      rw [List.foldl_cons, hwalk]
      exact ih (fun name hname => hcs name (List.mem_cons_of_mem c hname)) hrest

/-- **Where a path leads to can be told from its names.** -/
theorem stand_of_resolve {p : Path} {place : Place} (h : t.resolve p = .ok place) :
    t.stand p = place :=
  foldl_walk_of_go (fun _ => properName_of_mem_components) (foldlM_go_of_resolve h)

end FileTree

end TypeQuery
