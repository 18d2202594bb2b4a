import Mathlib.Data.List.Induction
import TypeQuery.Proofs.FileTree
import TypeQuery.Proofs.Query.Answer

/-!
# TypeQuery.Proofs.Project.Discovery

Which project a query is answered with.  Without a pointer the configuration is
looked for upwards from the directory of the file, and the first one that is a
regular file counts, whether it can be loaded or not:

```
/                 tsconfig.json    ← only if there is none below
└─ a              tsconfig.json    ← the nearest one
   └─ b           tsconfig.json/   ← a directory, passed over
      └─ file.ts
```

A pointer names a configuration file, or a directory that has one, as seen from
the working directory.

* `Nearest`, `Points`, `Governs` — the place of the configuration that is meant;
* `hasConfig_iff` — what it takes of the tree for a directory to have one;
* `findConfig?_pathOf` — the upward search finds the nearest one;
* `projectOf_of_governs` — the project is loaded from there;
* `answer_uses_governing_project` — and is what the host is given and the answer
  names.
-/

namespace TypeQuery

namespace FileTree

variable {t : FileTree}

/-! ## what a path leads to -/

theorem isFile_iff {p : Path} : t.isFile p = true ↔
    ∃ place text, t.resolve p = .ok place ∧ t.get? place = some (.file text) := by
  unfold isFile at?
  cases hr : t.resolve p with
  | error fault => simp
  | ok place => cases hg : t.get? place with
    | none => simp [hg]
    | some e => cases e <;> simp [hg]

theorem isDirectory_iff {p : Path} : t.isDirectory p = true ↔
    ∃ place, t.resolve p = .ok place ∧ t.get? place = some .directory := by
  unfold isDirectory at?
  cases hr : t.resolve p with
  | error fault => simp
  | ok place => simp

theorem contains_of_isFile {p : Path} (h : t.isFile p = true) : t.contains p = true := by
  obtain ⟨place, text, hr, hg⟩ := isFile_iff.mp h
  simp [contains, at?, hr, hg]

theorem canonicalOrSame_of_resolve {p : Path} {place : Place} (h : t.resolve p = .ok place) :
    t.canonicalOrSame p = pathOf place := by
  simp [canonicalOrSame, canonical, h, Except.map]

/-! ## the configuration that is meant -/

/-- Where a directory has its configuration file. -/
def configIn (dir : Place) : Place :=
  dir ++ [configFileName.text]

/-- The directory has a configuration file: its path is that of a regular file. -/
def HasConfig (t : FileTree) (dir : Place) : Prop :=
  t.isFile (pathOf (configIn dir)) = true

/-- Of `dir` and the directories above it, `nearest` is the deepest one that has a configuration
file. -/
structure Nearest (t : FileTree) (dir nearest : Place) : Prop where
  above : nearest <+: dir
  has : t.HasConfig nearest
  deepest : ∀ other, other <+: dir → t.HasConfig other → other <+: nearest

/-- The path of a pointer, as seen from the working directory. -/
def pointed (t : FileTree) (pointer : Path) : Path :=
  (pathOf t.workingDirectory).join pointer

/-- The place that a pointer means: a regular file, or the regular file in a directory. -/
inductive Points (t : FileTree) (pointer : Path) : Place → Prop
  | file {config : Place} (h : t.resolve (t.pointed pointer) = .ok config)
      (hfile : t.isFile (t.pointed pointer) = true) : Points t pointer config
  | inside {dir : Place} (h : t.resolve (t.pointed pointer) = .ok dir)
      (hdir : t.get? dir = some .directory)
      (hfile : t.isFile ((t.pointed pointer).join configFileName) = true) :
      Points t pointer (configIn dir)

/-- The place of the configuration for a file in `dir`, with or without a pointer. -/
def Governs (t : FileTree) (dir : Place) : Option Path → Place → Prop
  | none, config => ∃ nearest, t.Nearest dir nearest ∧ config = configIn nearest
  | some pointer, config => t.Points pointer config

theorem properName_configFileName : ProperName configFileName.text := by decide

theorem proper_configIn {dir : Place} (h : dir.Proper) : (configIn dir).Proper :=
  List.forall_mem_append.mpr ⟨h, fun _ hname => List.mem_singleton.mp hname ▸ properName_configFileName⟩

theorem join_configFileName {dir : Place} (h : dir.Proper) :
    (pathOf dir).join configFileName = pathOf (configIn dir) :=
  join_pathOf (proper_configIn h)

theorem Governs.proper (ht : Place.Proper t.workingDirectory) {dir config : Place}
    (hdir : dir.Proper) {pointer : Option Path} (h : t.Governs dir pointer config) :
    config.Proper := by
  cases pointer with
  | none =>
      obtain ⟨nearest, hnearest, rfl⟩ := h
      exact proper_configIn fun name hname => hdir name (hnearest.above.subset hname)
  | some pointer =>
      cases h with
      | file hr _ => exact proper_resolve ht hr
      | inside hr _ _ => exact proper_configIn (proper_resolve ht hr)

/-- The directories above a file can be walked to. -/
theorem directory_of_isFile {dir above : Place} {name : String}
    (hplace : Place.Proper (dir ++ [name])) (hfile : t.isFile (pathOf (dir ++ [name])) = true)
    (h : above <+: dir) : (∀ other ∈ above, '\x00' ∉ other.toList) ∧
      above.foldlM t.follow [] = .ok above ∧ t.get? above = some .directory := by
  obtain ⟨place, text, hr, -⟩ := isFile_iff.mp hfile
  obtain rfl := eq_of_resolve_pathOf hplace hr
  obtain ⟨hnul, -, hfold⟩ := (resolve_pathOf_iff hplace (by simp)).mp hr
  obtain ⟨between, rfl⟩ := h
  obtain ⟨next, rest, hnext⟩ : ∃ next rest, between ++ [name] = next :: rest :=
    List.exists_cons_of_ne_nil (by simp)
  rw [List.append_assoc, hnext] at hplace hnul hfold
  obtain ⟨middle, hmiddle, hrest⟩ := foldlM_follow_append.mp hfold
  obtain rfl := eq_of_foldlM_follow (fun other hother => hplace other (by simp [hother])) hmiddle
  -- one goes on from there, so it is a directory
  obtain ⟨_, hfollow, -⟩ := foldlM_follow_cons.mp hrest
  exact ⟨fun other hother => hnul other (List.mem_append_left _ hother), hmiddle,
    directory_of_follow hfollow⟩

/-- Above a file, a directory has a configuration file just if the tree has a file of that name in
it, under a path that is not too long. -/
theorem hasConfig_iff {dir above : Place} {name : String} (hplace : Place.Proper (dir ++ [name]))
    (hfile : t.isFile (pathOf (dir ++ [name])) = true) (h : above <+: dir) :
    t.HasConfig above ↔ (∃ text, t.get? (configIn above) = some (.file text)) ∧
      (pathOf (configIn above)).text.utf8ByteSize ≤ pathLimit := by
  obtain ⟨hnul, hfold, hdir⟩ := directory_of_isFile hplace hfile h
  have habove : above.Proper := fun other hother =>
    hplace other (List.mem_append_left _ (h.subset hother))
  have hresolve := resolve_pathOf_iff (t := t) (proper_configIn habove) (List.concat_ne_nil _ _)
  constructor
  · intro hhas
    obtain ⟨place, text, hr, hget⟩ := isFile_iff.mp hhas
    obtain rfl := eq_of_resolve_pathOf (proper_configIn habove) hr
    exact ⟨⟨text, hget⟩, (hresolve.mp hr).2.1⟩
  · rintro ⟨⟨text, hget⟩, hsize⟩
    have hfollow : t.follow above configFileName.text = .ok (configIn above) :=
      follow_of_get? properName_configFileName (by decide) hdir hget
    refine isFile_iff.mpr ⟨_, text, hresolve.mpr ⟨?_, hsize, ?_⟩, hget⟩
    · refine List.forall_mem_append.mpr ⟨hnul, fun other hother => ?_⟩
      rw [List.mem_singleton.mp hother]
      decide
    · exact foldlM_follow_append.mpr ⟨above, hfold, foldlM_follow_singleton.trans hfollow⟩

/-! ## the nearest one -/

namespace Nearest

variable {dir nearest other : Place} {name : String}

theorem unique (h : t.Nearest dir nearest) (h' : t.Nearest dir other) : nearest = other :=
  (h'.deepest nearest h.above h.has).eq_of_length_le (h.deepest other h'.above h'.has).length_le

theorem self (h : t.HasConfig dir) : t.Nearest dir dir :=
  ⟨List.prefix_refl dir, h, fun _ hother _ => hother⟩

/-- A directory without a configuration is passed over. -/
theorem append (h : t.Nearest dir nearest) (hno : ¬t.HasConfig (dir ++ [name])) :
    t.Nearest (dir ++ [name]) nearest := by
  refine ⟨h.above.trans (List.prefix_append dir [name]), h.has, fun other hother hhas => ?_⟩
  rcases List.prefix_concat_iff.mp hother with rfl | hdir
  · exact absurd hhas hno
  · exact h.deepest other hdir hhas

end Nearest

theorem findConfig?_nil : t.findConfig? (pathOf []) =
    if t.isFile (pathOf (configIn [])) then some (pathOf (configIn [])) else none := by
  have hroot : Place.Proper [] := fun _ hname => absurd hname List.not_mem_nil
  rw [findConfig?, ancestors_pathOf_nil, List.map_singleton, join_configFileName hroot,
    List.find?_singleton]
  split
  · rw [Option.map_some, canonicalOrSame_pathOf (proper_configIn hroot)]
  · rfl

theorem findConfig?_append {dir : Place} {name : String} (h : Place.Proper (dir ++ [name])) :
    t.findConfig? (pathOf (dir ++ [name])) =
      if t.isFile (pathOf (configIn (dir ++ [name]))) then some (pathOf (configIn (dir ++ [name])))
      else t.findConfig? (pathOf dir) := by
  rw [findConfig?, ancestors_pathOf_append h, List.map_cons, join_configFileName h, List.find?_cons]
  cases t.isFile (pathOf (configIn (dir ++ [name]))) with
  | true => simp [canonicalOrSame_pathOf (proper_configIn h)]
  | false => rfl

/-- **The upward search finds the nearest configuration**, or there is none in any directory above. -/
theorem findConfig?_pathOf {dir : Place} (h : dir.Proper) :
    (∃ nearest, t.Nearest dir nearest ∧
      t.findConfig? (pathOf dir) = some (pathOf (configIn nearest))) ∨
    (∀ other, other <+: dir → ¬t.HasConfig other) ∧ t.findConfig? (pathOf dir) = none := by
  induction dir using List.reverseRecOn with
  | nil =>
      rw [findConfig?_nil]
      split
      · next hhas => exact .inl ⟨[], .self hhas, rfl⟩
      · next hno =>
          refine .inr ⟨fun other hother => ?_, rfl⟩
          obtain rfl := List.prefix_nil.mp hother
          exact hno
  | append_singleton dir name ih =>
      rw [findConfig?_append h]
      split
      · next hhas => exact .inl ⟨dir ++ [name], .self hhas, rfl⟩
      · next hno =>
          rcases ih (List.forall_mem_append.mp h).1 with ⟨nearest, hnearest, hfind⟩ | ⟨hnone, hfind⟩
          · exact .inl ⟨nearest, hnearest.append hno, hfind⟩
          · refine .inr ⟨fun other hother => ?_, hfind⟩
            rcases List.prefix_concat_iff.mp hother with rfl | hdir
            · exact hno
            · exact hnone other hdir

theorem findConfig?_of_nearest {dir nearest : Place} (h : dir.Proper)
    (hnearest : t.Nearest dir nearest) :
    t.findConfig? (pathOf dir) = some (pathOf (configIn nearest)) := by
  rcases findConfig?_pathOf (t := t) h with ⟨other, hother, hfind⟩ | ⟨hnone, -⟩
  · rw [hfind, hother.unique hnearest]
  · exact absurd hnearest.has (hnone nearest hnearest.above)

theorem findConfig?_eq_none {dir : Place} (h : dir.Proper)
    (hno : ∀ other, other <+: dir → ¬t.HasConfig other) : t.findConfig? (pathOf dir) = none := by
  rcases findConfig?_pathOf (t := t) h with ⟨nearest, hnearest, -⟩ | ⟨-, hfind⟩
  · exact absurd hnearest.has (hno nearest hnearest.above)
  · exact hfind

/-! ## pointers -/

theorem resolveConfigPath_eq_ok_iff_isFile {directory pointer path : Path} {candidate : Path}
    (h : candidate = if t.isDirectory (directory.join pointer)
      then (directory.join pointer).join configFileName else directory.join pointer) :
    t.resolveConfigPath directory pointer = .ok path ↔
      t.isFile candidate = true ∧ path = t.canonicalOrSame candidate := by
  unfold resolveConfigPath
  simp only [← h]
  by_cases hfile : t.isFile candidate = true
  · simp [hfile, contains_of_isFile hfile, eq_comm]
  · by_cases hcontains : t.contains candidate = true <;> simp [hfile, hcontains]

theorem not_isDirectory_of_isFile {p : Path} (h : t.isFile p = true) : ¬t.isDirectory p = true := by
  intro hdir
  obtain ⟨place, text, hr, hfile⟩ := isFile_iff.mp h
  obtain ⟨other, hr', hget⟩ := isDirectory_iff.mp hdir
  obtain rfl := Except.ok.inj (hr.symm.trans hr')
  simp [hfile] at hget

/-- The configuration file in the directory that a path leads to. -/
theorem canonicalOrSame_join {p : Path} {dir : Place} (hr : t.resolve p = .ok dir)
    (hfile : t.isFile (p.join configFileName) = true) :
    t.canonicalOrSame (p.join configFileName) = pathOf (configIn dir) := by
  obtain ⟨config, -, hconfig, -⟩ := isFile_iff.mp hfile
  have hfollow := follow_of_resolve_join properName_configFileName hr hconfig
  rw [canonicalOrSame_of_resolve hconfig, eq_of_follow properName_configFileName hfollow, configIn]

/-- **A pointer is accepted just if it points to a configuration file.** -/
theorem resolveConfigPath_eq_ok_iff {pointer path : Path} :
    t.resolveConfigPath (pathOf t.workingDirectory) pointer = .ok path ↔
      ∃ config, t.Points pointer config ∧ path = pathOf config := by
  constructor
  · intro h
    by_cases hdir : t.isDirectory (t.pointed pointer) = true
    · obtain ⟨hfile, rfl⟩ := (resolveConfigPath_eq_ok_iff_isFile (if_pos hdir).symm).mp h
      obtain ⟨dir, hr, hget⟩ := isDirectory_iff.mp hdir
      exact ⟨configIn dir, .inside hr hget hfile, canonicalOrSame_join hr hfile⟩
    · obtain ⟨hfile, rfl⟩ := (resolveConfigPath_eq_ok_iff_isFile (if_neg hdir).symm).mp h
      obtain ⟨config, -, hr, -⟩ := isFile_iff.mp hfile
      exact ⟨config, .file hr hfile, canonicalOrSame_of_resolve hr⟩
  · rintro ⟨config, hpoints, rfl⟩
    cases hpoints with
    | file hr hfile =>
        have hdir := not_isDirectory_of_isFile hfile
        exact (resolveConfigPath_eq_ok_iff_isFile (if_neg hdir).symm).mpr
          ⟨hfile, (canonicalOrSame_of_resolve hr).symm⟩
    | inside hr hget hfile =>
        have hdir := isDirectory_iff.mpr ⟨_, hr, hget⟩
        exact (resolveConfigPath_eq_ok_iff_isFile (if_pos hdir).symm).mpr
          ⟨hfile, (canonicalOrSame_join hr hfile).symm⟩

/-! ## the project -/

theorem configPath_of_loadProject {config : Place} (h : config.Proper) {project : Project}
    (hload : t.loadProject (pathOf config) = .ok project) : project.configPath = pathOf config := by
  rw [loadProject] at hload
  cases hc : t.loadConfig (pathOf config) with
  | error fault => rw [hc] at hload; contradiction
  | ok value =>
      rw [hc] at hload
      obtain rfl := Except.ok.inj hload
      exact canonicalOrSame_pathOf h

/-- The project is loaded from the configuration that governs the file. -/
theorem projectOf_of_governs {dir config : Place} {name : String} {pointer : Option Path}
    (hplace : Place.Proper (dir ++ [name])) (h : t.Governs dir pointer config) :
    t.projectOf (pathOf (dir ++ [name])) pointer = some <$> t.loadProject (pathOf config) := by
  cases pointer with
  | none =>
      obtain ⟨nearest, hnearest, rfl⟩ := h
      have hdir : dir.Proper := (List.forall_mem_append.mp hplace).1
      rw [projectOf, parent?_pathOf_append hplace, Option.bind_some,
        findConfig?_of_nearest hdir hnearest]
  | some pointer =>
      have hresolve := resolveConfigPath_eq_ok_iff.mpr ⟨config, h, rfl⟩
      rw [projectOf, hresolve]
      rfl

/-- A file with no configuration above it has no project. -/
theorem projectOf_of_no_config {dir : Place} {name : String}
    (hplace : Place.Proper (dir ++ [name])) (hno : ∀ other, other <+: dir → ¬t.HasConfig other) :
    t.projectOf (pathOf (dir ++ [name])) none = .ok none := by
  have hdir : dir.Proper := (List.forall_mem_append.mp hplace).1
  rw [projectOf, parent?_pathOf_append hplace, Option.bind_some, findConfig?_eq_none hdir hno]

/-- A pointer that points to no configuration file is refused. -/
theorem projectOf_of_not_points {pointer : Path} (hno : ¬∃ config, t.Points pointer config)
    (file : Path) : ∃ fault, t.projectOf file (some pointer) = .error fault := by
  cases hr : t.resolveConfigPath (pathOf t.workingDirectory) pointer with
  | error fault => exact ⟨fault, by rw [projectOf, hr]; rfl⟩
  | ok path =>
      obtain ⟨config, hpoints, -⟩ := resolveConfigPath_eq_ok_iff.mp hr
      exact absurd ⟨config, hpoints⟩ hno

end FileTree

/-! ## what a host says -/

namespace Host

/-- What the program of a host says to a query, when the host is asked about that file and project. -/
def answer (host : Host) (asked : ProgramRequest) (q : Query) (options : Options) :
    Except Failure Record :=
  match host asked with
  | .ok c => c.answer asked.file.text (asked.project.map (·.descriptor)) q.target options
  | .error reasons => .error (.programUnavailable (.notBuilt reasons))

variable {host : Host} {asked : ProgramRequest} {q : Query} {options : Options}

/-- Once a host is asked, the project is not what a query fails for. -/
theorem answer_ne_projectUnresolved (fault : ProjectFault) :
    host.answer asked q options ≠ .error (.projectUnresolved fault) := by
  rw [answer]
  split
  · next c _ =>
      rw [Checker.answer]
      split
      · next root text _ _ =>
          cases c.resolve asked.file.text text q.target <;> simp [Except.mapError]
      · intro h
        cases Except.error.inj h
  · simp

theorem project_of_answer {r : Record} (h : host.answer asked q options = .ok r) :
    r.project = asked.project.map (·.descriptor) := by
  rw [answer] at h
  split at h
  · obtain ⟨root, text, location, -, -, -, rfl⟩ := Checker.answer_eq_ok_iff.mp h
    rfl
  · contradiction

end Host

namespace FileTree

variable {t : FileTree}

/-! ## the project of an answer -/

/-- The project is looked for when the file is there. -/
theorem request_of_isFile {q : Query} {place : Place} (hq : t.resolve q.file = .ok place)
    (hfile : t.isFile (pathOf place) = true) :
    t.request q = match t.projectOf (pathOf place) q.project with
      | .ok project => .ok ⟨pathOf place, project⟩
      | .error fault => .error (.projectUnresolved fault) := by
  have hat : t.fileAt q.file = .ok (pathOf place) := by
    simp [fileAt, canonical, hq, hfile, Except.map]
  rw [request, hat]
  show ((t.projectOf (pathOf place) q.project).mapError _ >>= _) = _
  cases t.projectOf (pathOf place) q.project <;> rfl

/-- The host is asked when there is a project or none is needed. -/
theorem answer_of_isFile {q : Query} {place : Place} (hq : t.resolve q.file = .ok place)
    (hfile : t.isFile (pathOf place) = true) (host : Host) (options : Options) :
    t.answer host q options = match t.projectOf (pathOf place) q.project with
      | .ok project => host.answer ⟨pathOf place, project⟩ q options
      | .error fault => .error (.projectUnresolved fault) := by
  rw [answer, answerIn, request_of_isFile hq hfile]
  cases t.projectOf (pathOf place) q.project with
  | error fault => rfl
  | ok project =>
      show ((host ⟨pathOf place, project⟩).mapError _ >>= _) = host.answer _ q options
      rw [Host.answer]
      cases host ⟨pathOf place, project⟩ <;> rfl

section

variable (ht : Place.Proper t.workingDirectory) {q : Query} {dir : Place} {name : String}
  (hq : t.resolve q.file = .ok (dir ++ [name])) (hfile : t.isFile (pathOf (dir ++ [name])) = true)
  (host : Host) (options : Options)
include ht hq hfile

/-- A configuration that governs the file is the one that counts, loaded or not. -/
theorem answer_of_governs {config : Place} (h : t.Governs dir q.project config) :
    (∀ project, t.loadProject (pathOf config) = .ok project →
      project.configPath = pathOf config ∧
      t.answer host q options = host.answer ⟨pathOf (dir ++ [name]), some project⟩ q options) ∧
    ∀ fault, t.loadProject (pathOf config) = .error fault →
      t.answer host q options = .error (.projectUnresolved fault) := by
  have hplace := proper_resolve ht hq
  have hconfig := h.proper ht (List.forall_mem_append.mp hplace).1
  rw [answer_of_isFile hq hfile, projectOf_of_governs hplace h]
  refine ⟨fun project hload => ⟨configPath_of_loadProject hconfig hload, ?_⟩, fun fault hload => ?_⟩
  · rw [hload]
    rfl
  · rw [hload]
    rfl

theorem project_of_governs {config : Place} (h : t.Governs dir q.project config) {r : Record}
    (hr : t.answer host q options = .ok r) : r.project = some (pathOf config).text := by
  obtain ⟨hok, herror⟩ := answer_of_governs ht hq hfile host options h
  cases hload : t.loadProject (pathOf config) with
  | error fault =>
      rw [herror fault hload] at hr
      contradiction
  | ok project =>
      obtain ⟨hpath, hanswer⟩ := hok project hload
      rw [Host.project_of_answer (hanswer.symm.trans hr), Option.map_some, Project.descriptor, hpath]

/-- When no configuration governs the file, the host is asked about the file alone, unless there is a
pointer. -/
theorem answer_of_not_governs (hno : ¬∃ config, t.Governs dir q.project config) :
    (q.project = none ∧ (∀ other, other <+: dir → ¬t.HasConfig other) ∧
      t.answer host q options = host.answer ⟨pathOf (dir ++ [name]), none⟩ q options) ∨
    q.project ≠ none ∧ ∃ fault, t.answer host q options = .error (.projectUnresolved fault) := by
  have hplace := proper_resolve ht hq
  cases hpointer : q.project with
  | none =>
      rw [hpointer] at hno
      rcases findConfig?_pathOf (t := t) (List.forall_mem_append.mp hplace).1 with
        ⟨nearest, hnearest, -⟩ | ⟨hnone, -⟩
      · exact absurd ⟨_, nearest, hnearest, rfl⟩ hno
      · refine .inl ⟨rfl, hnone, ?_⟩
        rw [answer_of_isFile hq hfile, hpointer, projectOf_of_no_config hplace hnone]
  | some pointer =>
      rw [hpointer] at hno
      obtain ⟨fault, hfault⟩ := projectOf_of_not_points hno (pathOf (dir ++ [name]))
      refine .inr ⟨Option.some_ne_none pointer, fault, ?_⟩
      rw [answer_of_isFile hq hfile, hpointer, hfault]

theorem nearest_or_answer_alone (hpointer : q.project = none) :
    (∃ nearest, t.Nearest dir nearest) ∨
      (∀ other, other <+: dir → ¬t.HasConfig other) ∧
        t.answer host q options = host.answer ⟨pathOf (dir ++ [name]), none⟩ q options := by
  by_cases hex : ∃ nearest, t.Nearest dir nearest
  · exact .inl hex
  · have hno : ¬∃ config, t.Governs dir q.project config := by
      rw [hpointer]
      rintro ⟨_, nearest, hnearest, -⟩
      exact hex ⟨nearest, hnearest⟩
    rcases answer_of_not_governs ht hq hfile host options hno with ⟨-, halone⟩ | ⟨hsome, -⟩
    · exact .inr halone
    · exact absurd hpointer hsome

/-- A query fails for its project just if the pointer points to nothing or what governs the file
cannot be loaded. -/
theorem projectUnresolved_iff :
    (∃ fault, t.answer host q options = .error (.projectUnresolved fault)) ↔
      (q.project ≠ none ∧ ¬∃ config, t.Governs dir q.project config) ∨
      ∃ config fault, t.Governs dir q.project config ∧
        t.loadProject (pathOf config) = .error fault := by
  constructor
  · rintro ⟨fault, hfault⟩
    by_cases hex : ∃ config, t.Governs dir q.project config
    · obtain ⟨config, hconfig⟩ := hex
      cases hload : t.loadProject (pathOf config) with
      | error fault => exact .inr ⟨config, fault, hconfig, hload⟩
      | ok project =>
          have hgoverns := answer_of_governs ht hq hfile host options hconfig
          have hanswer := (hgoverns.1 project hload).2
          exact absurd (hanswer.symm.trans hfault) (Host.answer_ne_projectUnresolved fault)
    · rcases answer_of_not_governs ht hq hfile host options hex with ⟨-, -, hanswer⟩ | ⟨hsome, -⟩
      · exact absurd (hanswer.symm.trans hfault) (Host.answer_ne_projectUnresolved fault)
      · exact .inl ⟨hsome, hex⟩
  · rintro (⟨hsome, hno⟩ | ⟨config, fault, hconfig, hload⟩)
    · rcases answer_of_not_governs ht hq hfile host options hno with ⟨hpointer, -⟩ | ⟨-, hfault⟩
      · exact absurd hpointer hsome
      · exact hfault
    · exact ⟨fault, (answer_of_governs ht hq hfile host options hconfig).2 fault hload⟩

/-- An answer names the configuration that governs the file, and nothing if none does. -/
theorem project_eq_some_iff {r : Record} (hr : t.answer host q options = .ok r) (named : String) :
    r.project = some named ↔
      ∃ config, t.Governs dir q.project config ∧ named = (pathOf config).text := by
  constructor
  · intro hnamed
    by_cases hex : ∃ config, t.Governs dir q.project config
    · obtain ⟨config, hconfig⟩ := hex
      have hproject := project_of_governs ht hq hfile host options hconfig hr
      exact ⟨config, hconfig, Option.some.inj (hnamed.symm.trans hproject)⟩
    · rcases answer_of_not_governs ht hq hfile host options hex with
        ⟨-, -, hanswer⟩ | ⟨-, fault, hfault⟩
      · rw [Host.project_of_answer (hanswer.symm.trans hr)] at hnamed
        contradiction
      · rw [hfault] at hr
        contradiction
  · rintro ⟨config, hconfig, rfl⟩
    exact project_of_governs ht hq hfile host options hconfig hr

end

/-- **The right project is used**: of a file that is there, the nearest configuration above it or the
one that is pointed to is loaded, and no other one if that fails. The host is given that project, or
none if there is neither a pointer nor a configuration above the file, and the answer names it by the
canonical path of its configuration. -/
theorem answer_uses_governing_project (ht : Place.Proper t.workingDirectory) {q : Query}
    {place : Place} (hq : t.resolve q.file = .ok place) (hfile : t.isFile (pathOf place) = true)
    (host : Host) (options : Options) :
    (∀ config, t.Governs place.dropLast q.project config →
      (∀ project, t.loadProject (pathOf config) = .ok project →
        project.configPath = pathOf config ∧
        t.answer host q options = host.answer ⟨pathOf place, some project⟩ q options) ∧
      ∀ fault, t.loadProject (pathOf config) = .error fault →
        t.answer host q options = .error (.projectUnresolved fault)) ∧
    (q.project = none → (∃ nearest, t.Nearest place.dropLast nearest) ∨
      (∀ dir, dir <+: place.dropLast → ¬t.HasConfig dir) ∧
        t.answer host q options = host.answer ⟨pathOf place, none⟩ q options) ∧
    ((∃ fault, t.answer host q options = .error (.projectUnresolved fault)) ↔
      (q.project ≠ none ∧ ¬∃ config, t.Governs place.dropLast q.project config) ∨
      ∃ config fault, t.Governs place.dropLast q.project config ∧
        t.loadProject (pathOf config) = .error fault) ∧
    ∀ r, t.answer host q options = .ok r → ∀ named, r.project = some named ↔
      ∃ config, t.Governs place.dropLast q.project config ∧ named = (pathOf config).text := by
  obtain rfl | ⟨dir, name, rfl⟩ := List.eq_nil_or_concat' place
  · -- the top is no file
    obtain ⟨other, text, hother, hget⟩ := isFile_iff.mp hfile
    obtain rfl := eq_of_resolve_pathOf (fun _ hname => absurd hname List.not_mem_nil) hother
    simp [get?_nil] at hget
  · rw [List.dropLast_concat]
    exact ⟨fun config hconfig => answer_of_governs ht hq hfile host options hconfig,
      nearest_or_answer_alone ht hq hfile host options,
      projectUnresolved_iff ht hq hfile host options,
      fun r hr => project_eq_some_iff ht hq hfile host options hr⟩

/-- The nearest directory has a directory of that name, and the top has a file that is no JSON. -/
theorem answer_uses_governing_project_between :
    let t : FileTree := ⟨[(["tsconfig.json"], .file (some "[")), (["a"], .directory),
      (["a", "tsconfig.json"], .file (some "\x7b\x7d")), (["a", "b"], .directory),
      (["a", "b", "tsconfig.json"], .directory), (["a", "b", "c.ts"], .file (some "x"))], ["a"]⟩
    let q : Query := ⟨⟨"b/c.ts"⟩, none, .position 1 1⟩
    let c := (Program.empty.layOut [.addFile "/a/b/c.ts" "x"]).checker
    let host : Host := fun _ => .ok c
    Place.Proper t.workingDirectory ∧ t.resolve q.file = .ok ["a", "b", "c.ts"] ∧
    t.isFile (pathOf ["a", "b", "c.ts"]) = true ∧ t.Nearest ["a", "b"] ["a"] ∧
    ∃ project r, t.loadProject ⟨"/a/tsconfig.json"⟩ = .ok project ∧
      t.answer host q {} = host.answer ⟨⟨"/a/b/c.ts"⟩, some project⟩ q {} ∧
      t.answer host q {} = .ok r ∧ r.project = some "/a/tsconfig.json" := by
  intro t q c host
  have ht : Place.Proper t.workingDirectory := by decide
  have hq : t.resolve q.file = .ok ["a", "b", "c.ts"] := by decide +kernel
  have hfile : t.isFile (pathOf ["a", "b", "c.ts"]) = true := by decide +kernel
  have hnearest : t.Nearest ["a", "b"] ["a"] := by
    have hhas : t.HasConfig ["a"] := show t.isFile _ = true by decide +kernel
    have hno : ¬t.HasConfig ["a", "b"] := show ¬t.isFile _ = true by decide +kernel
    exact (Nearest.self hhas).append hno
  obtain ⟨hgoverns, -, -, hnamed⟩ := answer_uses_governing_project ht hq hfile host {}
  have hconfig : t.Governs ["a", "b"] none ["a", "tsconfig.json"] := ⟨["a"], hnearest, rfl⟩
  have hload : t.loadProject ⟨"/a/tsconfig.json"⟩ = .ok ⟨⟨"/a/tsconfig.json"⟩, ⟨"/a"⟩, {}⟩ := by
    decide +kernel
  have hanswer := ((hgoverns _ hconfig).1 _ hload).2
  have hroot : c.root? "/a/b/c.ts" = some ⟨0⟩ := by decide +kernel
  have htext : c.text? "/a/b/c.ts" = some "x" := by decide +kernel
  have hresolve : c.resolve "/a/b/c.ts" "x" (.position 1 1) = .ok ⟨0, 1, 1, ""⟩ := by decide +kernel
  have hok : c.answer "/a/b/c.ts" (some "/a/tsconfig.json") (.position 1 1) {} = .ok _ :=
    Checker.answer_eq_ok_iff.mpr ⟨_, _, _, hroot, htext, hresolve, rfl⟩
  exact ⟨ht, hq, hfile, hnearest, _, _, hload, hanswer, hanswer.trans hok,
    (hnamed _ (hanswer.trans hok) _).mpr ⟨_, hconfig, by decide +kernel⟩⟩

end FileTree

end TypeQuery
