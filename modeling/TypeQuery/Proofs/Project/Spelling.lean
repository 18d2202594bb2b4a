import TypeQuery.Proofs.FileTree.Walk
import TypeQuery.Proofs.Project.Discovery

/-!
# TypeQuery.Proofs.Project.Spelling

How the spelling of a path decides on the project of a file.  A configuration is
looked for along the paths above the one that is given, as they are written, and
these are not the directories above the file:

```
/             tsconfig.json    from /sub, the path  a.ts       ends at /sub,
└─ sub                         and the path  x/../a.ts         comes by /sub/x
   ├─ a.ts
   └─ x       tsconfig.json
```

The first one misses the configuration at the top, and the second one finds that
in `x`, which is not above the file.

* `NearestPath`, `Spelled` — the configuration along the paths above;
* `isFile_join_iff` — what it takes of the tree for such a path to show one;
* `exists_found_along` — it is the one that the project is loaded from;
* `spelled_iff_of_direct` — when it is that of the nearest directory above the file;
* `projectOf_same_iff` — when the canonical path has the same outcome, and
  `projectOf_differs` that it need not.
-/

namespace TypeQuery

namespace FileTree

open TypeQuery.Path

variable {t : FileTree}

/-! ## along the paths above -/

/-- Of the paths above `f`, `p` is the one with the most components that has a configuration file
next to it. -/
structure NearestPath (t : FileTree) (f p : Path) : Prop where
  above : p ∈ f.ancestors.tail
  has : t.isFile (p.join configFileName) = true
  deepest : ∀ q ∈ f.ancestors.tail, t.isFile (q.join configFileName) = true →
    q.components <+: p.components

/-- The place of the configuration that the paths above `f` lead to. -/
def Spelled (t : FileTree) (f : Path) (config : Place) : Prop :=
  ∃ p, t.NearestPath f p ∧ config = configIn (t.stand p)

/-- A path that is short enough for the configuration files next to it and above. -/
def HasRoom (p : Path) : Prop :=
  p.text.utf8ByteSize + configFileName.text.utf8ByteSize < pathLimit

/-- The path `f` comes by no configuration in a directory that is not above `dir`. -/
def Direct (t : FileTree) (f : Path) (dir : Place) : Prop :=
  ∀ p ∈ f.ancestors.tail, t.isFile (p.join configFileName) = true → t.stand p <+: dir

/-- The path `f` has the same project as the canonical path of `place`, or neither has one, or finding
it fails for both. -/
def SameOutcome (t : FileTree) (f : Path) (place : Place) : Prop :=
  (t.projectOf f none).toOption = (t.projectOf (pathOf place) none).toOption

/-- The project of the configuration that is found, or none if none is. -/
def projectAt (t : FileTree) : Option Place → Except ProjectFault (Option Project)
  | none => .ok none
  | some config => some <$> t.loadProject (pathOf config)

theorem NearestPath.components_eq {f p q : Path} (hp : t.NearestPath f p)
    (hq : t.NearestPath f q) : p.components = q.components :=
  (hq.deepest p hp.above hp.has).eq_of_length_le (hp.deepest q hq.above hq.has).length_le

theorem Spelled.unique {f : Path} {config other : Place} (h : t.Spelled f config)
    (h' : t.Spelled f other) : config = other := by
  obtain ⟨p, hp, rfl⟩ := h
  obtain ⟨q, hq, rfl⟩ := h'
  rw [stand, stand, hp.components_eq hq]

/-- The search passes all paths above that have more components. -/
theorem nearestPath_of_find? {f p : Path} (hne : f.text ≠ "")
    (h : f.ancestors.tail.find? (fun p => t.isFile (p.join configFileName)) = some p) :
    t.NearestPath f p := by
  obtain ⟨hhas, nearer, farther, hsplit, hnone⟩ := List.find?_eq_some_iff_append.mp h
  have hordered := pairwise_tail_ancestors hne
  rw [hsplit] at hordered
  refine ⟨hsplit ▸ by simp, hhas, fun q hq hqhas => ?_⟩
  rw [hsplit] at hq
  rcases List.mem_append.mp hq with hnearer | hrest
  · have := hnone q hnearer
    simp [hqhas] at this
  · rcases List.mem_cons.mp hrest with rfl | hfarther
    · exact List.prefix_rfl
    · exact (List.pairwise_cons.mp (List.pairwise_append.mp hordered).2.1).1 q hfarther

/-! ## where they lead -/

section

variable {f : Path} {place : Place} (hf : t.resolve f = .ok place) {p : Path}
  (hp : p ∈ f.ancestors.tail)
include hf hp

/-- A path above means the first components, and the rest lead on from where it leads to. -/
theorem exists_rest_of_mem : ∃ rest, rest ≠ [] ∧ f.components = p.components ++ rest ∧
    .root ∉ rest ∧ p.components.foldlM t.go t.workingDirectory = .ok (t.stand p) ∧
    t.get? (t.stand p) = some .directory ∧ rest.foldl Place.walk (t.stand p) = place := by
  have hne := (resolve_eq_ok hf).1
  have hgo := foldlM_go_of_resolve hf
  obtain ⟨⟨rest, hrest⟩, hall, htop⟩ := (exists_mem_tail_ancestors_iff hne).mp ⟨p, hp, rfl⟩
  have hroot := root_not_mem_of_append hrest.symm htop
  rw [← hrest] at hgo
  obtain ⟨middle, hmiddle, hlast⟩ := foldlM_append_eq_ok.mp hgo
  obtain rfl : t.stand p = middle :=
    foldl_walk_of_go (fun _ => properName_of_mem_components) hmiddle
  obtain ⟨c, cs, rfl⟩ : ∃ c cs, rest = c :: cs := by
    refine List.exists_cons_of_ne_nil fun hnil => hall ?_
    rw [← hrest, hnil, List.append_nil]
  obtain ⟨next, hnext, -⟩ := foldlM_cons_eq_ok.mp hlast
  refine ⟨c :: cs, List.cons_ne_nil c cs, hrest.symm, hroot, hmiddle,
    directory_of_go (fun hc => hroot (hc ▸ List.mem_cons_self)) hnext, ?_⟩
  refine foldl_walk_of_go (fun name hname => properName_of_mem_components (p := f) ?_) hlast
  rw [← hrest]
  exact List.mem_append_right _ hname

/-- It is no longer than the path below it, and as good to follow. -/
theorem text_of_mem : '\x00' ∉ p.text.toList ∧ p.text.utf8ByteSize ≤ f.text.utf8ByteSize ∧
    p.text.utf8ByteSize ≤ pathLimit := by
  have hmono := prefix_of_mem_tail_ancestors hp
  have hsize := utf8ByteSize_le_of_isPrefix hmono
  unfold resolve at hf
  split at hf
  · contradiction
  · next hnul =>
      split at hf
      · contradiction
      · split at hf
        · contradiction
        · refine ⟨fun hmem => hnul ?_, hsize, by omega⟩
          exact List.contains_iff_mem.mpr (hmono.subset hmem)

theorem directory_of_mem : t.get? (t.stand p) = some .directory := by
  obtain ⟨_, -, -, -, -, hdir, -⟩ := exists_rest_of_mem hf hp
  exact hdir

/-- A path above leads to a directory.  The empty one means the working directory, but cannot be
followed. -/
theorem resolve_of_mem (hne : p.text ≠ "") : t.resolve p = .ok (t.stand p) := by
  obtain ⟨_, -, -, -, hgo, hdir, -⟩ := exists_rest_of_mem hf hp
  obtain ⟨hnul, -, hsize⟩ := text_of_mem hf hp
  exact resolve_of_foldlM_go hne hnul hsize hgo hdir

theorem exists_pieces_join : ∃ ps, pieces (p.join configFileName) = ps ++ [configFileName.text] ∧
    ps.foldlM t.follow (t.origin (p.join configFileName)) = .ok (t.stand p) := by
  by_cases hne : p.text = ""
  · obtain rfl : p = ⟨""⟩ := congrArg Path.mk hne
    exact ⟨[], by decide, rfl⟩
  · have hrel := properName_configFileName.isAbsolute
    have hlast := splitSlashes_of_no_slash properName_configFileName.no_slash
    obtain ⟨ps, hjoin, hps⟩ := splitSlashes_join hrel hne
    have hfold := (resolve_eq_ok (resolve_of_mem hf hp hne)).2
    have horigin : t.origin (p.join configFileName) = t.origin p := by
      rw [origin, origin, isAbsolute_join hrel hne]
    refine ⟨ps.map String.ofList, ?_, ?_⟩
    · rw [pieces, hjoin, hlast, List.map_append, List.map_singleton, String.ofList_toList]
    · rw [horigin]
      rcases hps with hps | hps
      · rwa [pieces, hps] at hfold
      · rw [pieces, hps, List.map_append] at hfold
        obtain ⟨middle, hmiddle, hempty⟩ := foldlM_append_eq_ok.mp hfold
        rw [List.map_singleton, foldlM_singleton] at hempty
        rwa [eq_of_follow_empty hempty]

/-- What the path of a configuration file next to a path above leads to. -/
theorem resolve_join_iff {config : Place} : t.resolve (p.join configFileName) = .ok config ↔
    (p.join configFileName).text.utf8ByteSize ≤ pathLimit ∧
      t.follow (t.stand p) configFileName.text = .ok config := by
  obtain ⟨ps, hpieces, hfold⟩ := exists_pieces_join hf hp
  have hfollow : (pieces (p.join configFileName)).foldlM t.follow
      (t.origin (p.join configFileName)) = t.follow (t.stand p) configFileName.text := by
    rw [hpieces, List.foldlM_append, hfold]
    exact foldlM_singleton
  have hnul : ¬(p.join configFileName).text.toList.contains '\x00' = true := by
    intro hmem
    rcases mem_toList_join (List.contains_iff_mem.mp hmem) with h | h | h
    · exact (text_of_mem hf hp).1 h
    · exact absurd h (by decide)
    · exact absurd h (by decide)
  have hempty : ¬(p.join configFileName).text.isEmpty = true := by
    intro h
    have hnil : pieces (p.join configFileName) = [""] := by
      rw [pieces, String.isEmpty_iff.mp h]
      rfl
    have hlast := congrArg List.getLast? (hpieces.symm.trans hnil)
    rw [List.getLast?_concat] at hlast
    exact absurd hlast (by decide)
  rw [resolve, if_neg hnul, if_neg hempty, hfollow]
  split
  · exact ⟨fun h => by contradiction, fun h => by omega⟩
  · exact ⟨fun h => ⟨by omega, h⟩, fun h => h.2⟩

/-- **What the paths above show**: the configuration file of the directory that they lead to, unless
its path is too long. -/
theorem isFile_join_iff : t.isFile (p.join configFileName) = true ↔
    (∃ text, t.get? (configIn (t.stand p)) = some (.file text)) ∧
      (p.join configFileName).text.utf8ByteSize ≤ pathLimit := by
  have hdir := directory_of_mem hf hp
  constructor
  · intro h
    obtain ⟨config, text, hr, hget⟩ := isFile_iff.mp h
    obtain ⟨hsize, hfollow⟩ := (resolve_join_iff hf hp).mp hr
    obtain rfl := eq_of_follow properName_configFileName hfollow
    exact ⟨⟨text, hget⟩, hsize⟩
  · rintro ⟨⟨text, hget⟩, hsize⟩
    have hfollow := follow_of_get? properName_configFileName (by decide) hdir hget
    exact isFile_iff.mpr ⟨_, text, (resolve_join_iff hf hp).mpr ⟨hsize, hfollow⟩, hget⟩

theorem resolve_join_of_isFile (h : t.isFile (p.join configFileName) = true) :
    t.resolve (p.join configFileName) = .ok (configIn (t.stand p)) := by
  obtain ⟨config, -, hr, -⟩ := isFile_iff.mp h
  obtain ⟨-, hfollow⟩ := (resolve_join_iff hf hp).mp hr
  rw [hr, eq_of_follow properName_configFileName hfollow, configIn]

end

/-! ## the configuration that is found -/

section

variable {f : Path} {place : Place} (hf : t.resolve f = .ok place)
include hf

/-- The search is one along the paths above. -/
theorem findConfig?_of_parent : f.parent?.bind t.findConfig? =
    (f.ancestors.tail.find? fun p => t.isFile (p.join configFileName)).map
      fun p => pathOf (configIn (t.stand p)) := by
  have hne := (resolve_eq_ok hf).1
  cases hq : f.parent? with
  | none =>
      have hnil : f.ancestors.tail = [] := List.head?_eq_none_iff.mp hq
      rw [hnil]
      rfl
  | some q =>
      rw [Option.bind_some, findConfig?, ancestors_of_parent? hne hq, List.find?_map, Option.map_map]
      refine Option.map_congr fun p hp => ?_
      have hmem := List.mem_of_find?_eq_some hp
      have hhas := List.find?_some hp
      exact canonicalOrSame_of_resolve (resolve_join_of_isFile hf hmem hhas)

theorem exists_nearestPath {p : Path} (hp : p ∈ f.ancestors.tail)
    (hhas : t.isFile (p.join configFileName) = true) : ∃ q, t.NearestPath f q := by
  have hsome : (f.ancestors.tail.find? fun p => t.isFile (p.join configFileName)).isSome = true :=
    List.find?_isSome.mpr ⟨p, hp, hhas⟩
  obtain ⟨q, hq⟩ := Option.isSome_iff_exists.mp hsome
  exact ⟨q, nearestPath_of_find? (resolve_eq_ok hf).1 hq⟩

/-- **The project is that of the configuration that is found** along the paths above. -/
theorem exists_found_along : ∃ found, (∀ config, t.Spelled f config ↔ found = some config) ∧
    t.projectOf f none = t.projectAt found := by
  have hfind := findConfig?_of_parent hf
  cases hp : f.ancestors.tail.find? fun p => t.isFile (p.join configFileName) with
  | none =>
      refine ⟨none, fun config => iff_of_false ?_ ?_, ?_⟩
      · rintro ⟨p, hnearest, rfl⟩
        exact List.find?_eq_none.mp hp p hnearest.above hnearest.has
      · exact (Option.some_ne_none config).symm
      · rw [projectOf, hfind, hp]
        rfl
  | some p =>
      have hspelled : t.Spelled f (configIn (t.stand p)) :=
        ⟨p, nearestPath_of_find? (resolve_eq_ok hf).1 hp, rfl⟩
      refine ⟨some _, fun other => ⟨fun h => congrArg some (hspelled.unique h), ?_⟩, ?_⟩
      · rintro ⟨⟩
        exact hspelled
      · rw [projectOf, hfind, hp]
        rfl

theorem Spelled.proper (ht : Place.Proper t.workingDirectory) {config : Place}
    (h : t.Spelled f config) : config.Proper := by
  obtain ⟨p, hp, rfl⟩ := h
  exact proper_resolve ht (resolve_join_of_isFile hf hp.above hp.has)

end

theorem exists_found_above {dir : Place} {name : String} (h : Place.Proper (dir ++ [name])) :
    ∃ found, (∀ config, t.Governs dir none config ↔ found = some config) ∧
      t.projectOf (pathOf (dir ++ [name])) none = t.projectAt found := by
  rcases findConfig?_pathOf (t := t) (List.forall_mem_append.mp h).1 with
    ⟨nearest, hnearest, -⟩ | ⟨hno, -⟩
  · have hgoverns : t.Governs dir none (configIn nearest) := ⟨nearest, hnearest, rfl⟩
    refine ⟨some (configIn nearest), fun config => ⟨?_, ?_⟩, projectOf_of_governs h hgoverns⟩
    · rintro ⟨other, hother, rfl⟩
      rw [hother.unique hnearest]
    · rintro ⟨⟩
      exact hgoverns
  · refine ⟨none, fun config => iff_of_false ?_ ?_, projectOf_of_no_config h hno⟩
    · rintro ⟨other, hother, -⟩
      exact hno other hother.above hother.has
    · exact (Option.some_ne_none config).symm

/-! ## outcomes -/

/-- Projects of different configurations are different. -/
theorem eq_of_loadProject {config other : Place} (h : config.Proper) (h' : other.Proper)
    {project : Project} (hload : t.loadProject (pathOf config) = .ok project)
    (hload' : t.loadProject (pathOf other) = .ok project) : config = other := by
  have hpath := configPath_of_loadProject h hload
  rw [configPath_of_loadProject h' hload'] at hpath
  exact (eq_of_components_pathOf_eq h' h (congrArg Path.components hpath)).symm

theorem toOption_projectAt_eq_none {found : Option Place} : (t.projectAt found).toOption = none ↔
    ∃ config, found = some config ∧ ∃ fault, t.loadProject (pathOf config) = .error fault := by
  cases found with
  | none => simp [projectAt, Except.toOption]
  | some config =>
      cases hload : t.loadProject (pathOf config) <;> simp [projectAt, hload, Except.toOption]

theorem toOption_projectAt_eq_some_none {found : Option Place} :
    (t.projectAt found).toOption = some none ↔ found = none := by
  cases found with
  | none => simp [projectAt, Except.toOption]
  | some config =>
      cases hload : t.loadProject (pathOf config) <;> simp [projectAt, hload, Except.toOption]

theorem toOption_projectAt_eq_some_some {found : Option Place} {project : Project} :
    (t.projectAt found).toOption = some (some project) ↔
      ∃ config, found = some config ∧ t.loadProject (pathOf config) = .ok project := by
  cases found with
  | none => simp [projectAt, Except.toOption]
  | some config =>
      cases hload : t.loadProject (pathOf config) <;> simp [projectAt, hload, Except.toOption]

/-- The outcome is the same for the same configuration, and for two that cannot be loaded. -/
theorem toOption_projectAt_eq_iff {found found' : Option Place}
    (h : ∀ config, found = some config → config.Proper)
    (h' : ∀ config, found' = some config → config.Proper) :
    (t.projectAt found).toOption = (t.projectAt found').toOption ↔ found = found' ∨
      ∃ config other, found = some config ∧ found' = some other ∧
        (∃ fault, t.loadProject (pathOf config) = .error fault) ∧
        ∃ fault, t.loadProject (pathOf other) = .error fault := by
  constructor
  · intro hsame
    cases ho : (t.projectAt found').toOption with
    | none =>
        obtain ⟨config, hfound, hfail⟩ := toOption_projectAt_eq_none.mp (hsame.trans ho)
        obtain ⟨other, hfound', hfail'⟩ := toOption_projectAt_eq_none.mp ho
        exact .inr ⟨config, other, hfound, hfound', hfail, hfail'⟩
    | some outcome => cases outcome with
      | none =>
          have hnone := toOption_projectAt_eq_some_none.mp (hsame.trans ho)
          exact .inl (hnone.trans (toOption_projectAt_eq_some_none.mp ho).symm)
      | some project =>
          obtain ⟨config, hfound, hload⟩ := toOption_projectAt_eq_some_some.mp (hsame.trans ho)
          obtain ⟨other, hfound', hload'⟩ := toOption_projectAt_eq_some_some.mp ho
          have hplace := eq_of_loadProject (h _ hfound) (h' _ hfound') hload hload'
          exact .inl (by rw [hfound, hfound', hplace])
  · rintro (rfl | ⟨config, other, rfl, rfl, hfail, hfail'⟩)
    · rfl
    · rw [toOption_projectAt_eq_none.mpr ⟨config, rfl, hfail⟩,
        toOption_projectAt_eq_none.mpr ⟨other, rfl, hfail'⟩]

/-- The outcome is the same just if the same configuration is found, or none, or two that cannot be
loaded. -/
theorem sameOutcome_iff (ht : Place.Proper t.workingDirectory) {f : Path} {dir : Place}
    {name : String} (hf : t.resolve f = .ok (dir ++ [name])) :
    t.SameOutcome f (dir ++ [name]) ↔
      (∀ config, t.Spelled f config ↔ t.Governs dir none config) ∨
      ∃ config other, t.Spelled f config ∧ t.Governs dir none other ∧
        (∃ fault, t.loadProject (pathOf config) = .error fault) ∧
        ∃ fault, t.loadProject (pathOf other) = .error fault := by
  have hplace := proper_resolve ht hf
  obtain ⟨found, hspelled, hproject⟩ := exists_found_along hf
  obtain ⟨found', hgoverns, hproject'⟩ := exists_found_above (t := t) hplace
  have hproper : ∀ config, found = some config → config.Proper := fun config h =>
    ((hspelled config).mpr h).proper hf ht
  have hproper' : ∀ config, found' = some config → config.Proper := fun config h =>
    ((hgoverns config).mpr h).proper ht (List.forall_mem_append.mp hplace).1
  rw [SameOutcome, hproject, hproject', toOption_projectAt_eq_iff hproper hproper']
  rw [Option.ext_iff]
  simp only [hspelled, hgoverns]

/-! ## the directories that are passed -/

theorem HasRoom.join_le {p q : Path} (hp : HasRoom p)
    (h : q.text.utf8ByteSize ≤ p.text.utf8ByteSize) :
    (q.join configFileName).text.utf8ByteSize ≤ pathLimit := by
  have hjoin := utf8ByteSize_join_le q configFileName
  rw [HasRoom] at hp
  omega

theorem utf8ByteSize_pathOf_le {place other : Place} (h : place <+: other) :
    (pathOf place).text.utf8ByteSize ≤ (pathOf other).text.utf8ByteSize := by
  apply utf8ByteSize_le_of_isPrefix
  rw [toList_pathOf, toList_pathOf]
  exact List.cons_prefix_cons.mpr ⟨rfl, joinSlashes_mono (h.map String.toList)⟩

/-- What a path means before it leaves the place where it starts. -/
theorem exists_start (f : Path) : ∃ cs rest, f.components = cs ++ rest ∧
    (f.isAbsolute = true → cs ≠ []) ∧ cs.foldl Place.walk t.workingDirectory = t.origin f := by
  by_cases habs : f.isAbsolute = true
  · have hsplit := components_eq_append f
    rw [isAbsolute_iff.mp habs] at hsplit
    exact ⟨[.root], _, hsplit, fun _ => List.cons_ne_nil _ _, (if_pos habs).symm⟩
  · exact ⟨[], f.components, rfl, fun h => absurd h habs, (if_neg habs).symm⟩

section

variable {f : Path} {dir : Place} {name : String} (hf : t.resolve f = .ok (dir ++ [name]))
include hf

/-- **A directory above the file is passed** behind the first components of a path if it is not
above where they lead to. -/
theorem exists_mem_stand {cs rest : List PathComponent} (hsplit : f.components = cs ++ rest)
    (htop : f.isAbsolute = true → cs ≠ []) {other : Place} (hle : other <+: dir)
    (hout : other <+: cs.foldl Place.walk t.workingDirectory →
      other = cs.foldl Place.walk t.workingDirectory) :
    ∃ p ∈ f.ancestors.tail, cs <+: p.components ∧ t.stand p = other := by
  have hstand := stand_of_resolve hf
  have hne := (resolve_eq_ok hf).1
  rw [stand, hsplit, List.foldl_append] at hstand
  obtain ⟨ds, hds, hother⟩ : ∃ ds, ds <+: rest ∧
      ds.foldl Place.walk (cs.foldl Place.walk t.workingDirectory) = other := by
    by_cases hin : other <+: cs.foldl Place.walk t.workingDirectory
    · exact ⟨[], List.nil_prefix, (hout hin).symm⟩
    · refine exists_prefix_walk (root_not_mem_of_append hsplit htop) hin ?_
      rw [hstand]
      exact hle.trans (List.prefix_append dir [name])
  rw [← List.foldl_append] at hother
  obtain ⟨p, hp, hcomponents⟩ : ∃ p ∈ f.ancestors.tail, p.components = cs ++ ds := by
    refine (exists_mem_tail_ancestors_iff hne).mpr ⟨?_, fun hall => ?_, fun habs hnil => ?_⟩
    · rw [hsplit]
      exact (List.prefix_append_right_inj cs).mpr hds
    · -- then the file would be above itself
      rw [hall, ← stand, stand_of_resolve hf] at hother
      have := hle.length_le
      rw [← hother, List.length_append, List.length_singleton] at this
      omega
    · exact htop habs (List.append_eq_nil_iff.mp hnil).1
  refine ⟨p, hp, ?_, ?_⟩
  · rw [hcomponents]
    exact List.prefix_append cs ds
  · rw [stand, hcomponents, hother]

/-- What is below the start of a path is passed. -/
theorem exists_mem_stand_of_origin {other : Place} (hle : other <+: dir)
    (hstart : t.origin f <+: other) : ∃ p ∈ f.ancestors.tail, t.stand p = other := by
  obtain ⟨cs, rest, hsplit, htop, hcs⟩ := exists_start (t := t) f
  obtain ⟨p, hp, -, hother⟩ := exists_mem_stand hf hsplit htop hle fun hout => by
    rw [hcs] at hout ⊢
    exact hout.eq_of_length_le hstart.length_le
  exact ⟨p, hp, hother⟩

/-- Without a way up one passes nothing but directories above the file and below the start. -/
theorem stand_of_no_up (hup : .up ∉ f.components) {p : Path} (hp : p ∈ f.ancestors.tail)
    (hfile : t.get? (dir ++ [name]) ≠ some .directory) :
    t.origin f <+: t.stand p ∧ t.stand p <+: dir := by
  obtain ⟨rest, -, hsplit, hroot, -, hdir, hlast⟩ := exists_rest_of_mem hf hp
  rw [hsplit, List.mem_append, not_or] at hup
  constructor
  · by_cases habs : f.isAbsolute = true
    · rw [origin, if_pos habs]
      exact List.nil_prefix
    · have hroot' : .root ∉ f.components :=
        root_not_mem_of_append (List.nil_append _).symm fun h => absurd h habs
      rw [hsplit, List.mem_append, not_or] at hroot'
      rw [origin, if_neg habs]
      exact prefix_foldl_walk hroot'.1 hup.1
  · have hle : t.stand p <+: rest.foldl Place.walk (t.stand p) := prefix_foldl_walk hroot hup.2
    rw [hlast] at hle
    refine (List.prefix_concat_iff.mp hle).resolve_left fun hall => ?_
    rw [hall] at hdir
    exact hfile hdir

end

/-! ## the nearest one again -/

section

variable {f : Path} {dir : Place} {name : String} (ht : Place.Proper t.workingDirectory)
  (hf : t.resolve f = .ok (dir ++ [name])) (hfile : t.isFile (pathOf (dir ++ [name])) = true)
  (hroom : HasRoom f) (hroom' : HasRoom (pathOf (dir ++ [name])))
include ht hf hfile hroom hroom'

/-- A path that leads to a directory above the file shows its configuration. -/
theorem hasConfig_stand_iff {p : Path} (hp : p ∈ f.ancestors.tail) (hle : t.stand p <+: dir) :
    t.HasConfig (t.stand p) ↔ t.isFile (p.join configFileName) = true := by
  have hplace := proper_resolve ht hf
  have habove : Place.Proper (t.stand p) := fun other hother =>
    hplace other (List.mem_append_left _ (hle.subset hother))
  rw [hasConfig_iff hplace hfile hle, isFile_join_iff hf hp, ← join_configFileName habove]
  refine and_congr_right fun _ => iff_of_true (hroom'.join_le ?_) (hroom.join_le ?_)
  · exact utf8ByteSize_pathOf_le (hle.trans (List.prefix_append dir [name]))
  · exact (text_of_mem hf hp).2.1

/-- The last directory of a path that has a configuration is the nearest one, if it is above the file
at all: from there on the path passes all directories that are nearer. -/
theorem nearest_stand {p : Path} (h : t.NearestPath f p) (hle : t.stand p <+: dir) :
    t.Nearest dir (t.stand p) := by
  have hiff {q : Path} := hasConfig_stand_iff ht hf hfile hroom hroom' (p := q)
  refine ⟨hle, (hiff h.above hle).mpr h.has, fun other hother hhas => ?_⟩
  by_contra hout
  have hne := (resolve_eq_ok hf).1
  obtain ⟨-, -, htop⟩ := (exists_mem_tail_ancestors_iff hne).mp ⟨p, h.above, rfl⟩
  obtain ⟨rest, -, hsplit, -⟩ := exists_rest_of_mem hf h.above
  obtain ⟨q, hq, hpq, rfl⟩ := exists_mem_stand hf hsplit htop hother fun hin => absurd hin hout
  have hqp := h.deepest q hq ((hiff hq hother).mp hhas)
  have hsame : p.components = q.components := hpq.eq_of_length_le hqp.length_le
  exact hout (by rw [stand, stand, hsame])

/-- **What is found along a path** that comes by no other configurations is the nearest
configuration above the file, if the path passes its directory. -/
theorem spelled_iff_of_direct (hdirect : t.Direct f dir) (config : Place) :
    t.Spelled f config ↔ ∃ nearest, t.Nearest dir nearest ∧
      (∃ p ∈ f.ancestors.tail, t.stand p = nearest) ∧ config = configIn nearest := by
  constructor
  · rintro ⟨p, hp, rfl⟩
    have hle := hdirect p hp.above hp.has
    exact ⟨_, nearest_stand ht hf hfile hroom hroom' hp hle, ⟨p, hp.above, rfl⟩, rfl⟩
  · rintro ⟨_, hnearest, ⟨p, hp, rfl⟩, rfl⟩
    have hiff := hasConfig_stand_iff ht hf hfile hroom hroom' hp hnearest.above
    obtain ⟨q, hq⟩ := exists_nearestPath hf hp (hiff.mp hnearest.has)
    have hle := hdirect q hq.above hq.has
    have hnearest' := nearest_stand ht hf hfile hroom hroom' hq hle
    exact ⟨q, hq, by rw [hnearest.unique hnearest']⟩

theorem sameOutcome_iff_of_direct (hdirect : t.Direct f dir) :
    t.SameOutcome f (dir ++ [name]) ↔ ∀ nearest, t.Nearest dir nearest →
      ∃ p ∈ f.ancestors.tail, t.stand p = nearest := by
  have hspelled := spelled_iff_of_direct ht hf hfile hroom hroom' hdirect
  rw [sameOutcome_iff ht hf]
  constructor
  · intro h nearest hnearest
    have hgoverns : t.Governs dir none (configIn nearest) := ⟨nearest, hnearest, rfl⟩
    obtain ⟨config, hconfig⟩ : ∃ config, t.Spelled f config := by
      rcases h with h | ⟨config, -, hconfig, -⟩
      · exact ⟨_, (h _).mpr hgoverns⟩
      · exact ⟨config, hconfig⟩
    obtain ⟨other, hother, hpassed, -⟩ := (hspelled config).mp hconfig
    exact hnearest.unique hother ▸ hpassed
  · intro h
    refine .inl fun config => ⟨fun hconfig => ?_, ?_⟩
    · obtain ⟨nearest, hnearest, -, rfl⟩ := (hspelled config).mp hconfig
      exact ⟨nearest, hnearest, rfl⟩
    · rintro ⟨nearest, hnearest, rfl⟩
      exact (hspelled _).mpr ⟨nearest, hnearest, h nearest hnearest, rfl⟩

end

/-- **When the spelling of a path does not matter**: the canonical path of a file has the same outcome
just if the same configuration is found along both, or none, or two that cannot be loaded.

Unless they are too long, a path that comes by no configurations beside the directories above the file
has to pass the one that has the nearest configuration, as an absolute one always does. Without `..`
that means to start in this directory or above it. -/
theorem projectOf_same_iff (ht : Place.Proper t.workingDirectory) {f : Path} {place : Place}
    (hf : t.resolve f = .ok place) (hfile : t.isFile f = true) :
    (t.SameOutcome f place ↔
      (∀ config, t.Spelled f config ↔ t.Governs place.dropLast none config) ∨
      ∃ config other, t.Spelled f config ∧ t.Governs place.dropLast none other ∧
        (∃ fault, t.loadProject (pathOf config) = .error fault) ∧
        ∃ fault, t.loadProject (pathOf other) = .error fault) ∧
    (t.isFile (pathOf place) = true → HasRoom f → HasRoom (pathOf place) →
      (t.Direct f place.dropLast →
        (t.SameOutcome f place ↔ ∀ nearest, t.Nearest place.dropLast nearest →
          ∃ p ∈ f.ancestors.tail, t.stand p = nearest) ∧
        (f.isAbsolute = true → t.SameOutcome f place)) ∧
      (.up ∉ f.components →
        (t.SameOutcome f place ↔ ∀ nearest, t.Nearest place.dropLast nearest →
          t.origin f <+: nearest))) := by
  obtain ⟨other, text, hother, hget⟩ := isFile_iff.mp hfile
  obtain rfl := Except.ok.inj (hother.symm.trans hf)
  obtain rfl | ⟨dir, name, rfl⟩ := List.eq_nil_or_concat' other
  · -- the top is no file
    simp [get?_nil] at hget
  · rw [List.dropLast_concat]
    refine ⟨sameOutcome_iff ht hf, fun hplace hroom hroom' => ?_⟩
    have hiff := sameOutcome_iff_of_direct ht hf hplace hroom hroom'
    refine ⟨fun hdirect => ⟨hiff hdirect, fun habs => (hiff hdirect).mpr fun nearest h => ?_⟩,
      fun hup => ?_⟩
    · refine exists_mem_stand_of_origin hf h.above ?_
      rw [origin, if_pos habs]
      exact List.nil_prefix
    · have hnodir : t.get? (dir ++ [name]) ≠ some .directory := by simp [hget]
      have hstand {p : Path} (hp : p ∈ f.ancestors.tail) := stand_of_no_up hf hup hp hnodir
      rw [hiff fun p hp _ => (hstand hp).2]
      refine forall₂_congr fun nearest h => ⟨?_, exists_mem_stand_of_origin hf h.above⟩
      rintro ⟨p, hp, rfl⟩
      exact (hstand hp).1

/-- A path that leaves the directory of the file and comes back, from the top. -/
theorem projectOf_same_iff_there_and_back :
    let t : FileTree := ⟨[(["tsconfig.json"], .file (some "\x7b\x7d")), (["sub"], .directory),
      (["sub", "a.ts"], .file (some "x"))], []⟩
    let f : Path := ⟨"sub/../sub/./a.ts"⟩
    Place.Proper t.workingDirectory ∧ t.resolve f = .ok ["sub", "a.ts"] ∧ t.isFile f = true ∧
    t.isFile (pathOf ["sub", "a.ts"]) = true ∧ HasRoom f ∧ HasRoom (pathOf ["sub", "a.ts"]) ∧
    t.Direct f ["sub"] ∧ t.Nearest ["sub"] [] ∧ t.SameOutcome f ["sub", "a.ts"] := by
  intro t f
  have ht : Place.Proper t.workingDirectory := by decide
  have hf : t.resolve f = .ok ["sub", "a.ts"] := by decide +kernel
  have hfile : t.isFile f = true := by decide +kernel
  have hplace : t.isFile (pathOf ["sub", "a.ts"]) = true := by decide +kernel
  have hroom : HasRoom f := show _ < _ by decide +kernel
  have hroom' : HasRoom (pathOf ["sub", "a.ts"]) := show _ < _ by decide +kernel
  have hdirect : t.Direct f ["sub"] := by
    intro p hp _
    have hall : ∀ p ∈ f.ancestors.tail, t.stand p <+: ["sub"] := by decide +kernel
    exact hall p hp
  have hnearest : t.Nearest ["sub"] [] := by
    have hhas : t.HasConfig [] := show t.isFile _ = true by decide +kernel
    have hno : ¬t.HasConfig ["sub"] := show ¬t.isFile _ = true by decide +kernel
    exact (Nearest.self hhas).append hno
  obtain ⟨-, hall⟩ := projectOf_same_iff ht hf hfile
  have hsame := ((hall hplace hroom hroom').1 hdirect).1
  refine ⟨ht, hf, hfile, hplace, hroom, hroom', hdirect, hnearest, hsame.mpr fun nearest h => ?_⟩
  obtain rfl := h.unique hnearest
  exact ⟨⟨"sub/.."⟩, by decide +kernel, by decide +kernel⟩

/-- The spelling does matter: a relative path ends at the working directory and misses what is above
it, and one with `..` comes by a directory that is not above the file. -/
theorem projectOf_differs :
    let t : FileTree := ⟨[(["tsconfig.json"], .file (some "\x7b\x7d")), (["sub"], .directory),
      (["sub", "a.ts"], .file (some "x")), (["sub", "x"], .directory),
      (["sub", "x", "tsconfig.json"], .file (some "\x7b\x7d"))], ["sub"]⟩
    let project (config root : String) : Project := ⟨⟨config⟩, ⟨root⟩, {}⟩
    let expected := t.projectOf ⟨"/sub/a.ts"⟩ none
    (t.canonical ⟨"a.ts"⟩ = .ok ⟨"/sub/a.ts"⟩ ∧ t.isFile ⟨"a.ts"⟩ = true ∧
      t.canonical ⟨"x/../a.ts"⟩ = .ok ⟨"/sub/a.ts"⟩ ∧ t.isFile ⟨"x/../a.ts"⟩ = true) ∧
    expected = .ok (some (project "/tsconfig.json" "/")) ∧
    t.projectOf ⟨"a.ts"⟩ none = .ok none ∧ t.projectOf ⟨"a.ts"⟩ none ≠ expected ∧
    t.projectOf ⟨"x/../a.ts"⟩ none = .ok (some (project "/sub/x/tsconfig.json" "/sub/x")) ∧
    t.projectOf ⟨"x/../a.ts"⟩ none ≠ expected := by
  decide +kernel

end FileTree

end TypeQuery
