import TypeQuery.Proofs.Project.Discovery

/-!
# TypeQuery.Proofs.Query.Stages

The stages of a query.  Each of them is passed or is where the query ends:

```
arguments ──→ file ──→ project ──→ host ──→ file of the program ──→ target ──→ record
    │          │          │         │               │                 │
 invalid   not found  unresolved  not built     file missing       invalid
```

Two failures come from two stages each, so a failure does not tell the stage by
itself.  `Stops` is the relation of the stages before the host, `Outcome` that of
all of them; `Outcome` has one constructor for every end, and each of the
statements about one kind of failure is read off its constructors.

* `QueryArgs.Names`, `FileTree.NamesFile` — arguments and files that are in order;
* `FileTree.exists_namesFile_iff` — a path names a file just if it leads to one;
* `FileTree.Reaches`, `FileTree.Stops` — what the host is asked, and what ends
  before;
* `FileTree.outcome_iff` — an answer is the outcome of the query;
* `FileTree.answerArgs_fails_at_first_stage` — exactly one failure, from the first
  stage that fails.
-/

namespace TypeQuery

/-! ## arguments -/

/-- The arguments name this target and no other: a line and a column from 1 to 2^32 - 1, or a
pattern, and nothing of the other kind. -/
inductive QueryArgs.Names (args : QueryArgs) : Target → Prop
  | position {line column : Int} (hline : args.line = some line)
    (hcolumn : args.column = some column) (hpattern : args.pattern = none)
    (hlines : 1 ≤ line ∧ line ≤ 0xFFFFFFFF) (hcolumns : 1 ≤ column ∧ column ≤ 0xFFFFFFFF) :
    Names args (.position line.toNat column.toNat)
  | pattern {pattern : String} (hline : args.line = none) (hcolumn : args.column = none)
    (hpattern : args.pattern = some pattern) :
    Names args (.pattern pattern args.flags (args.index.getD 0))

theorem positive_eq_ok_iff {what : String} {value : Int} {n : Nat} :
    positive what value = .ok n ↔ (1 ≤ value ∧ value ≤ 0xFFFFFFFF) ∧ n = value.toNat := by
  have hrange : (0 < value && value < 0x100000000) = true ↔ 1 ≤ value ∧ value ≤ 0xFFFFFFFF := by
    simp
    omega
  unfold positive
  by_cases h : 1 ≤ value ∧ value ≤ 0xFFFFFFFF
  · rw [if_pos (hrange.mpr h), Except.ok.injEq]
    exact ⟨fun hn => ⟨h, hn.symm⟩, fun hn => hn.2.symm⟩
  · rw [if_neg (mt hrange.mp h)]
    exact ⟨nofun, fun hn => absurd hn.1 h⟩

namespace QueryArgs

variable {args : QueryArgs} {target : Target}

theorem target_eq_ok_iff : args.target = .ok target ↔ args.Names target := by
  constructor
  · intro h
    unfold QueryArgs.target at h
    split at h
    · next pattern hline hcolumn hpattern =>
      cases h
      exact .pattern hline hcolumn hpattern
    · next line column hline hcolumn hpattern =>
      cases hl : positive "line" line with
      | error fault => rw [hl] at h; cases h
      | ok l =>
        cases hc : positive "column" column with
        | error fault => rw [hl, hc] at h; cases h
        | ok k =>
          rw [hl, hc] at h
          cases h
          obtain ⟨hlines, rfl⟩ := positive_eq_ok_iff.mp hl
          obtain ⟨hcolumns, rfl⟩ := positive_eq_ok_iff.mp hc
          exact .position hline hcolumn hpattern hlines hcolumns
    · cases h
    · cases h
    · cases h
  · intro h
    cases h with
    | @position line column hline hcolumn hpattern hlines hcolumns =>
      have hl : positive "line" line = .ok line.toNat := positive_eq_ok_iff.mpr ⟨hlines, rfl⟩
      have hc : positive "column" column = .ok column.toNat :=
        positive_eq_ok_iff.mpr ⟨hcolumns, rfl⟩
      simp only [QueryArgs.target, hline, hcolumn, hpattern, hl, hc]
      rfl
    | pattern hline hcolumn hpattern =>
      simp only [QueryArgs.target, hline, hcolumn, hpattern]

theorem validate_of_names (h : args.Names target) :
    args.validate = .ok ⟨args.file, args.project, target⟩ := by
  rw [validate, target_eq_ok_iff.mpr h]
  rfl

theorem validate_of_error {fault : QueryFault} (h : args.target = .error fault) :
    args.validate = .error fault := by
  rw [validate, h]
  rfl

theorem exists_fault_iff :
    (∃ fault, args.target = .error fault) ↔ ¬∃ target, args.Names target := by
  cases h : args.target with
  | error fault =>
    have hno : ¬∃ target, args.Names target := by
      rintro ⟨target, hnames⟩
      rw [target_eq_ok_iff.mpr hnames] at h
      cases h
    exact ⟨fun _ => hno, fun _ => ⟨fault, rfl⟩⟩
  | ok target =>
    have hnames : args.Names target := target_eq_ok_iff.mp h
    exact ⟨nofun, fun hno => absurd ⟨target, hnames⟩ hno⟩

end QueryArgs

/-! ## files -/

namespace FileTree

variable {t : FileTree} {args : QueryArgs} {target : Target} {place : Place}
  {project : Option Project} {failure : Failure} {options : Options}

/-- A path names the regular file at a place: it leads there, and so does the canonical path. -/
def NamesFile (t : FileTree) (path : Path) (place : Place) : Prop :=
  t.resolve path = .ok place ∧ t.isFile (pathOf place) = true

theorem NamesFile.unique {path : Path} {place other : Place} (h : t.NamesFile path place)
    (h' : t.NamesFile path other) : place = other :=
  Except.ok.inj (h.1.symm.trans h'.1)

theorem fileAt_of_not_namesFile {path : Path} (h : ¬∃ place, t.NamesFile path place) :
    t.fileAt path = .error (.fileNotFound path) := by
  unfold fileAt canonical
  cases hresolve : t.resolve path with
  | error fault => rfl
  | ok place =>
    have hfile : ¬ t.isFile (pathOf place) = true := fun hfile => h ⟨place, hresolve, hfile⟩
    exact if_neg hfile

/-! ## canonical paths of files -/

/-- A place that can be gone to from the top by its own names, which are fit for a path. -/
structure Reached (t : FileTree) (place : Place) : Prop where
  proper : place.Proper
  no_nul : ∀ name ∈ place, '\x00' ∉ name.toList
  reached : place.foldlM t.follow [] = .ok place

theorem Reached.nil : t.Reached [] :=
  ⟨List.forall_mem_nil _, List.forall_mem_nil _, rfl⟩

theorem Reached.dropLast (h : t.Reached place) : t.Reached place.dropLast := by
  obtain rfl | ⟨dir, name, rfl⟩ := List.eq_nil_or_concat' place
  · exact h
  · rw [List.dropLast_concat]
    have hproper : Place.Proper dir := (List.forall_mem_append.mp h.proper).1
    obtain ⟨middle, hmiddle, -⟩ := foldlM_follow_append.mp h.reached
    have hdir : middle = [] ++ dir := eq_of_foldlM_follow hproper hmiddle
    rw [List.nil_append] at hdir
    exact ⟨hproper, (List.forall_mem_append.mp h.no_nul).1, hdir ▸ hmiddle⟩

theorem Reached.follow {here : Place} {piece : String} (h : t.Reached here)
    (hslash : '/' ∉ piece.toList) (hnul : '\x00' ∉ piece.toList)
    (hfollow : t.follow here piece = .ok place) : t.Reached place := by
  have hplace : place = here ∨ place = here.dropLast ∨ place = here ++ [piece] := by
    unfold FileTree.follow at hfollow
    split at hfollow
    · split at hfollow
      · exact .inl (Except.ok.inj hfollow).symm
      · split at hfollow
        · exact .inr (.inl (Except.ok.inj hfollow).symm)
        · split at hfollow
          · cases hfollow
          · split at hfollow
            · exact .inr (.inr (Except.ok.inj hfollow).symm)
            · cases hfollow
    · cases hfollow
  have hproper : place.Proper := proper_follow h.proper hslash hfollow
  rcases hplace with rfl | rfl | rfl
  · exact h
  · exact h.dropLast
  · have hnames : ∀ name ∈ here ++ [piece], '\x00' ∉ name.toList :=
      List.forall_mem_append.mpr ⟨h.no_nul, List.forall_mem_singleton.mpr hnul⟩
    have hlast : [piece].foldlM t.follow here = .ok (here ++ [piece]) :=
      foldlM_follow_singleton.trans hfollow
    exact ⟨hproper, hnames, foldlM_follow_append.mpr ⟨here, h.reached, hlast⟩⟩

theorem Reached.foldlM {ps : List String} {here : Place} (h : t.Reached here)
    (hslash : ∀ p ∈ ps, '/' ∉ p.toList) (hnul : ∀ p ∈ ps, '\x00' ∉ p.toList)
    (hfold : ps.foldlM t.follow here = .ok place) : t.Reached place := by
  induction ps generalizing here with
  | nil =>
    obtain rfl := Except.ok.inj hfold
    exact h
  | cons p ps ih =>
    obtain ⟨hslash, hslashes⟩ := List.forall_mem_cons.mp hslash
    obtain ⟨hnul, hnuls⟩ := List.forall_mem_cons.mp hnul
    obtain ⟨next, hnext, hrest⟩ := foldlM_follow_cons.mp hfold
    exact ih (h.follow hslash hnul hnext) hslashes hnuls hrest

/-- Where a path leads to can be gone to from the top. -/
theorem reached_of_resolve (ht : t.Reached t.workingDirectory) {path : Path}
    (h : t.resolve path = .ok place) : t.Reached place := by
  have hnul : '\x00' ∉ path.text.toList := by
    intro hmem
    rw [resolve, if_pos (List.contains_iff_mem.mpr hmem)] at h
    cases h
  have hpieces : ∀ p ∈ pieces path, '\x00' ∉ p.toList := by
    intro p hp hmem
    obtain ⟨cs, hcs, rfl⟩ := List.mem_map.mp hp
    rw [String.toList_ofList] at hmem
    have hjoined := Path.mem_cons_joinSlashes.mpr (.inr ⟨cs, hcs, hmem⟩)
    rw [Path.joinSlashes_splitSlashes] at hjoined
    exact hnul (List.mem_of_ne_of_mem (by decide) hjoined)
  have horigin : t.Reached (t.origin path) := by
    unfold origin
    split
    · exact .nil
    · exact ht
  exact horigin.foldlM (fun _ => no_slash_of_mem_pieces) hpieces (resolve_eq_ok h).2

/-- In a tree whose working directory is one of its places, a path of moderate length names a
regular file just if it leads to one. -/
theorem exists_namesFile_iff (ht : t.Reached t.workingDirectory) {path : Path}
    (hlimit : ∀ place, t.resolve path = .ok place → (pathOf place).text.utf8ByteSize ≤ pathLimit) :
    (∃ place, t.NamesFile path place) ↔ t.isFile path = true := by
  constructor
  · rintro ⟨place, hresolve, hfile⟩
    obtain ⟨other, text, hother, hget⟩ := isFile_iff.mp hfile
    have hsame : other = place :=
      eq_of_resolve_pathOf (reached_of_resolve ht hresolve).proper hother
    exact isFile_iff.mpr ⟨place, text, hresolve, hsame ▸ hget⟩
  · intro hfile
    obtain ⟨place, text, hresolve, hget⟩ := isFile_iff.mp hfile
    have hreached : t.Reached place := reached_of_resolve ht hresolve
    have hne : place ≠ [] := by
      rintro rfl
      rw [get?_nil] at hget
      cases hget
    have hcanonical : t.resolve (pathOf place) = .ok place :=
      (resolve_pathOf_iff hreached.proper hne).mpr
        ⟨hreached.no_nul, hlimit place hresolve, hreached.reached⟩
    exact ⟨place, hresolve, isFile_iff.mpr ⟨place, text, hcanonical, hget⟩⟩

/-! ## the stages before the host -/

/-- The arguments, the file and the project are all found to be in order. -/
structure Reaches (t : FileTree) (args : QueryArgs) (target : Target) (place : Place)
    (project : Option Project) : Prop where
  names : args.Names target
  file : t.NamesFile args.file place
  project : t.projectOf (pathOf place) args.project = .ok project

/-- The first of the arguments, the file and the project that is not in order. -/
inductive Stops (t : FileTree) (args : QueryArgs) : Failure → Prop
  | arguments {fault : QueryFault} (h : args.target = .error fault) :
    Stops t args (.invalidQuery fault)
  | file {target : Target} (names : args.Names target)
    (h : ¬∃ place, t.NamesFile args.file place) : Stops t args (.fileNotFound args.file)
  | project {target : Target} {place : Place} {fault : ProjectFault} (names : args.Names target)
    (file : t.NamesFile args.file place)
    (h : t.projectOf (pathOf place) args.project = .error fault) :
    Stops t args (.projectUnresolved fault)

/-- A query that stops does not reach the host. -/
theorem Reaches.not_stops (h : t.Reaches args target place project) : ¬t.Stops args failure := by
  intro hstops
  cases hstops with
  | arguments htarget =>
    exact absurd ⟨target, h.names⟩ (QueryArgs.exists_fault_iff.mp ⟨_, htarget⟩)
  | file _ hfile => exact hfile ⟨place, h.file⟩
  | project _ hfile hproject =>
    rw [hfile.unique h.file, h.project] at hproject
    cases hproject

theorem stops_or_reaches (t : FileTree) (args : QueryArgs) :
    (∃ failure, t.Stops args failure) ∨
      ∃ target place project, t.Reaches args target place project := by
  cases htarget : args.target with
  | error fault => exact .inl ⟨_, .arguments htarget⟩
  | ok target =>
    have hnames : args.Names target := QueryArgs.target_eq_ok_iff.mp htarget
    by_cases hfile : ∃ place, t.NamesFile args.file place
    · obtain ⟨place, hplace⟩ := hfile
      cases hproject : t.projectOf (pathOf place) args.project with
      | error fault => exact .inl ⟨_, .project hnames hplace hproject⟩
      | ok project => exact .inr ⟨target, place, project, hnames, hplace, hproject⟩
    · exact .inl ⟨_, .file hnames hfile⟩

theorem request_of_namesFile (h : t.NamesFile args.file place) (target : Target) :
    t.request ⟨args.file, args.project, target⟩ =
      match t.projectOf (pathOf place) args.project with
      | .ok project => .ok ⟨pathOf place, project⟩
      | .error fault => .error (.projectUnresolved fault) :=
  request_of_isFile (q := ⟨args.file, args.project, target⟩) h.1 h.2

/-- The query is put to the host once, about the canonical path. -/
theorem answerArgsIn_of_reaches (h : t.Reaches args target place project)
    {m : Type → Type} [Monad m] (host : HostIn m) :
    t.answerArgsIn host args options = host ⟨pathOf place, project⟩ >>= fun built =>
      pure (ProgramRequest.answer ⟨pathOf place, project⟩ built
        ⟨args.file, args.project, target⟩ options) := by
  rw [answerArgsIn, QueryArgs.validate_of_names h.names]
  simp only [answerIn, request_of_namesFile h.file, h.project]

/-- A query that stops before is not put to the host. -/
theorem answerArgsIn_of_stops (h : t.Stops args failure) {m : Type → Type} [Monad m]
    (host : HostIn m) : t.answerArgsIn host args options = pure (.error failure) := by
  cases h with
  | arguments htarget => rw [answerArgsIn, QueryArgs.validate_of_error htarget]
  | file names hfile =>
    rw [answerArgsIn, QueryArgs.validate_of_names names]
    simp only [answerIn, request, fileAt_of_not_namesFile hfile]
    rfl
  | project names hfile hproject =>
    rw [answerArgsIn, QueryArgs.validate_of_names names]
    simp only [answerIn, request_of_namesFile hfile, hproject]

/-! ## the stages after it -/

end FileTree

/-- The program has a file of that name, with that root and that text. -/
structure Checker.Holds (c : Checker) (file : String) (root : NodeId) (text : String) : Prop where
  root : c.root? file = some root
  text : c.text? file = some text

theorem Checker.answer_of_not_holds {c : Checker} {file : String}
    (h : ¬∃ root text, c.Holds file root text) (project : Option String) (target : Target)
    (options : Options) :
    c.answer file project target options = .error (.programUnavailable (.fileMissing file)) := by
  unfold Checker.answer
  split
  · next root text hroot htext => exact absurd ⟨root, text, hroot, htext⟩ h
  · rfl

namespace FileTree

variable {t : FileTree} {host : Host} {args : QueryArgs} {options : Options}
  {r : Except Failure Record}

/-- What a query comes to, by the first stage that fails. -/
inductive Outcome (t : FileTree) (host : Host) (args : QueryArgs) (options : Options) :
    Except Failure Record → Prop
  | stopped {failure : Failure} (h : t.Stops args failure) :
    Outcome t host args options (.error failure)
  | notBuilt {target : Target} {place : Place} {project : Option Project} {reasons : List String}
    (h : t.Reaches args target place project)
    (hhost : host ⟨pathOf place, project⟩ = .error reasons) :
    Outcome t host args options (.error (.programUnavailable (.notBuilt reasons)))
  | fileMissing {target : Target} {place : Place} {project : Option Project} {c : Checker}
    (h : t.Reaches args target place project) (hhost : host ⟨pathOf place, project⟩ = .ok c)
    (hmissing : ¬∃ root text, c.Holds (pathOf place).text root text) :
    Outcome t host args options
      (.error (.programUnavailable (.fileMissing (pathOf place).text)))
  | offTarget {target : Target} {place : Place} {project : Option Project} {c : Checker}
    {root : NodeId} {text : String} {fault : QueryFault} (h : t.Reaches args target place project)
    (hhost : host ⟨pathOf place, project⟩ = .ok c) (hholds : c.Holds (pathOf place).text root text)
    (hresolve : c.resolve (pathOf place).text text target = .error fault) :
    Outcome t host args options (.error (.invalidQuery fault))
  | answered {target : Target} {place : Place} {project : Option Project} {c : Checker}
    {root : NodeId} {text : String} {location : Location}
    (h : t.Reaches args target place project) (hhost : host ⟨pathOf place, project⟩ = .ok c)
    (hholds : c.Holds (pathOf place).text root text)
    (hresolve : c.resolve (pathOf place).text text target = .ok location) :
    Outcome t host args options (.ok (c.recordAt (pathOf place).text
      (project.map (·.descriptor)) options root location))

theorem answerArgs_of_stops {failure : Failure} (h : t.Stops args failure) :
    t.answerArgs host args options = .error failure :=
  answerArgsIn_of_stops (m := Id) h host

theorem answerArgs_of_reaches {target : Target} {place : Place} {project : Option Project}
    (h : t.Reaches args target place project) :
    t.answerArgs host args options = match host ⟨pathOf place, project⟩ with
      | .ok c => c.answer (pathOf place).text (project.map (·.descriptor)) target options
      | .error reasons => .error (.programUnavailable (.notBuilt reasons)) := by
  refine Eq.trans (answerArgsIn_of_reaches (m := Id) h host) ?_
  show ProgramRequest.answer _ (host ⟨pathOf place, project⟩) _ _ = _
  cases host ⟨pathOf place, project⟩ <;> rfl

theorem outcome_answerArgs (t : FileTree) (host : Host) (args : QueryArgs) (options : Options) :
    Outcome t host args options (t.answerArgs host args options) := by
  rcases t.stops_or_reaches args with ⟨failure, h⟩ | ⟨target, place, project, h⟩
  · rw [answerArgs_of_stops h]
    exact .stopped h
  · rw [answerArgs_of_reaches h]
    cases hhost : host ⟨pathOf place, project⟩ with
    | error reasons => exact .notBuilt h hhost
    | ok c =>
      by_cases hholds : ∃ root text, c.Holds (pathOf place).text root text
      · obtain ⟨root, text, hholds⟩ := hholds
        simp only [Checker.answer_of_text? hholds.root hholds.text]
        cases hresolve : c.resolve (pathOf place).text text target with
        | error fault => exact .offTarget h hhost hholds hresolve
        | ok location => exact .answered h hhost hholds hresolve
      · simp only [Checker.answer_of_not_holds hholds]
        exact .fileMissing h hhost hholds

theorem answerArgs_of_outcome (h : Outcome t host args options r) :
    t.answerArgs host args options = r := by
  cases h with
  | stopped h => exact answerArgs_of_stops h
  | notBuilt h hhost => rw [answerArgs_of_reaches h, hhost]
  | fileMissing h hhost hmissing =>
    rw [answerArgs_of_reaches h, hhost]
    exact Checker.answer_of_not_holds hmissing _ _ _
  | offTarget h hhost hholds hresolve =>
    rw [answerArgs_of_reaches h, hhost]
    simp only [Checker.answer_of_text? hholds.root hholds.text, hresolve]
  | answered h hhost hholds hresolve =>
    rw [answerArgs_of_reaches h, hhost]
    simp only [Checker.answer_of_text? hholds.root hholds.text, hresolve]

theorem outcome_iff : Outcome t host args options r ↔ t.answerArgs host args options = r := by
  constructor
  · exact answerArgs_of_outcome
  · intro h
    rw [← h]
    exact outcome_answerArgs t host args options

/-! ## which failure it is -/

/-- The query is invalid if its arguments are or if its target is not in the file. -/
theorem invalidQuery_iff :
    (∃ fault, t.answerArgs host args options = .error (.invalidQuery fault)) ↔
      (¬∃ target, args.Names target) ∨ ∃ target place project c root text fault,
        t.Reaches args target place project ∧ host ⟨pathOf place, project⟩ = .ok c ∧
        c.Holds (pathOf place).text root text ∧
        c.resolve (pathOf place).text text target = .error fault := by
  constructor
  · rintro ⟨fault, hfault⟩
    cases outcome_iff.mpr hfault with
    | stopped h =>
      cases h with
      | arguments htarget => exact .inl (QueryArgs.exists_fault_iff.mp ⟨fault, htarget⟩)
    | offTarget h hhost hholds hresolve =>
      exact .inr ⟨_, _, _, _, _, _, fault, h, hhost, hholds, hresolve⟩
  · rintro (hno | ⟨_, _, _, _, _, _, fault, h, hhost, hholds, hresolve⟩)
    · obtain ⟨fault, htarget⟩ := QueryArgs.exists_fault_iff.mpr hno
      exact ⟨fault, answerArgs_of_stops (.arguments htarget)⟩
    · exact ⟨fault, outcome_iff.mp (.offTarget h hhost hholds hresolve)⟩

/-- The file is not found if the arguments are valid and name no regular file. -/
theorem fileNotFound_iff {path : Path} :
    t.answerArgs host args options = .error (.fileNotFound path) ↔
      path = args.file ∧ (∃ target, args.Names target) ∧
        ¬∃ place, t.NamesFile args.file place := by
  rw [← outcome_iff]
  constructor
  · intro h
    cases h with
    | stopped h =>
      cases h with
      | file names hfile => exact ⟨rfl, ⟨_, names⟩, hfile⟩
  · rintro ⟨rfl, ⟨target, names⟩, hfile⟩
    exact .stopped (.file names hfile)

/-- The project is not resolved if the file is there and its project is not. -/
theorem answerArgs_projectUnresolved_iff :
    (∃ fault, t.answerArgs host args options = .error (.projectUnresolved fault)) ↔
      (∃ target, args.Names target) ∧ ∃ place fault, t.NamesFile args.file place ∧
        t.projectOf (pathOf place) args.project = .error fault := by
  constructor
  · rintro ⟨fault, h⟩
    cases outcome_iff.mpr h with
    | stopped h =>
      cases h with
      | project names file hproject => exact ⟨⟨_, names⟩, _, fault, file, hproject⟩
  · rintro ⟨⟨target, names⟩, place, fault, file, hproject⟩
    exact ⟨fault, answerArgs_of_stops (.project names file hproject)⟩

/-- There is no program if the host fails or its program does not have the file. -/
theorem programUnavailable_iff :
    (∃ fault, t.answerArgs host args options = .error (.programUnavailable fault)) ↔
      ∃ target place project, t.Reaches args target place project ∧
        ∀ c, host ⟨pathOf place, project⟩ = .ok c →
          ¬∃ root text, c.Holds (pathOf place).text root text := by
  constructor
  · rintro ⟨fault, hfault⟩
    cases outcome_iff.mpr hfault with
    | stopped h => cases h
    | notBuilt h hhost =>
      refine ⟨_, _, _, h, fun c hc => ?_⟩
      rw [hhost] at hc
      cases hc
    | fileMissing h hhost hmissing =>
      refine ⟨_, _, _, h, fun c hc => ?_⟩
      rw [hhost] at hc
      cases hc
      exact hmissing
  · rintro ⟨target, place, project, h, hlacks⟩
    cases hhost : host ⟨pathOf place, project⟩ with
    | error reasons => exact ⟨_, outcome_iff.mp (.notBuilt h hhost)⟩
    | ok c => exact ⟨_, outcome_iff.mp (.fileMissing h hhost (hlacks c hhost))⟩

/-- In all other cases there is the record of the location of the target. -/
theorem answerArgs_eq_ok_iff {r : Record} :
    t.answerArgs host args options = .ok r ↔
      ∃ target place project c root text location, t.Reaches args target place project ∧
        host ⟨pathOf place, project⟩ = .ok c ∧ c.Holds (pathOf place).text root text ∧
        c.resolve (pathOf place).text text target = .ok location ∧
        r = c.recordAt (pathOf place).text (project.map (·.descriptor)) options root location := by
  rw [← outcome_iff]
  constructor
  · intro h
    cases h with
    | answered h hhost hholds hresolve =>
      exact ⟨_, _, _, _, _, _, _, h, hhost, hholds, hresolve, rfl⟩
  · rintro ⟨_, _, _, _, _, _, _, h, hhost, hholds, hresolve, rfl⟩
    exact .answered h hhost hholds hresolve

/-- Arguments that name no target are refused by themselves, in every tree and with every host. -/
theorem refused_iff (args : QueryArgs) (options : Options) :
    (∃ fault, ∀ (t : FileTree) (host : Host),
        t.answerArgs host args options = .error (.invalidQuery fault)) ↔
      ¬∃ target, args.Names target := by
  constructor
  · rintro ⟨fault, hrefused⟩ hnames
    -- without files every target fails for its file
    have hfile : ¬∃ place, FileTree.empty.NamesFile args.file place := by
      rintro ⟨place, -, hfile⟩
      obtain ⟨other, text, -, hget⟩ := isFile_iff.mp hfile
      cases other with
      | nil => cases hget
      | cons name names => cases hget
    have hnot : FileTree.empty.answerArgs (fun _ => .error []) args options =
        .error (.fileNotFound args.file) := fileNotFound_iff.mpr ⟨rfl, hnames, hfile⟩
    rw [hrefused] at hnot
    cases hnot
  · intro hno
    obtain ⟨fault, htarget⟩ := QueryArgs.exists_fault_iff.mpr hno
    exact ⟨fault, fun t host => answerArgs_of_stops (.arguments htarget)⟩

/-- The host is asked once, about the canonical path and the project of the file, or not at all. -/
theorem asks_host_once (t : FileTree) (args : QueryArgs) (options : Options)
    (m : Type → Type) [Monad m] (host : HostIn m) :
    (∃ failure, t.Stops args failure ∧
      t.answerArgsIn host args options = pure (.error failure)) ∨
    ∃ target place project, t.Reaches args target place project ∧
      t.answerArgsIn host args options = host ⟨pathOf place, project⟩ >>= fun built =>
        pure (ProgramRequest.answer ⟨pathOf place, project⟩ built
          ⟨args.file, args.project, target⟩ options) := by
  rcases t.stops_or_reaches args with ⟨failure, h⟩ | ⟨target, place, project, h⟩
  · exact .inl ⟨failure, h, answerArgsIn_of_stops h host⟩
  · exact .inr ⟨target, place, project, h, answerArgsIn_of_reaches h host⟩

end FileTree

end TypeQuery
