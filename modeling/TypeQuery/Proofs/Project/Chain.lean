import Mathlib.Data.List.Perm.Subperm
import TypeQuery.Project
import TypeQuery.Proofs.FileTree

/-!
# TypeQuery.Proofs.Project.Chain

Loading a configuration and those below it.  Each configuration that is read may
name the next one, so there is one `Chain` of links from every path, and it says
how loading ends: it comes back to a file, or it comes to a path where no
configuration can be read, or it stops at a configuration that names no other.

Two paths count as one when their canonical paths mean the same.  A path without
a canonical one stands for itself, so it can also *resemble* a file that it does
not lead to, as `/p/a.json/` resembles the file `/p/a.json`.

* `Loads` — the steps of loading, with the paths that are read;
* `exists_loads` — loading comes to its end before the levels do;
* `loadConfig_follows_chain` — when it ends how, and that no file is read twice.
-/

namespace TypeQuery

/-- The faults of a file that cannot be read or is no configuration. -/
def ProjectFault.IsUnusable : ProjectFault → Prop
  | .unreadable _ _ | .unparsable _ _ => True
  | _ => False

namespace FileTree

variable {t : FileTree}

/-! ## chains -/

/-- A configuration can be read at a path. -/
def Holds (t : FileTree) (p : Path) (config : Config) : Prop :=
  ∃ text, t.read p = .ok text ∧ Config.parse text = .ok config

/-- The configuration at `p` names the one at `q`. -/
structure Links (t : FileTree) (p : Path) (config : Config) (q : Path) : Prop where
  holds : t.Holds p config
  leads : ∃ parent, config.parent = some parent ∧ parentPath p parent = .ok q

/-- Configurations that name one another from a path on, with the path that the last of them
names. -/
inductive Chain (t : FileTree) : Path → List (Path × Config) → Path → Prop
  | nil (p : Path) : Chain t p [] p
  | cons {p q here : Path} {config : Config} {links : List (Path × Config)}
    (link : t.Links p config q) (rest : Chain t q links here) :
    Chain t p ((p, config) :: links) here

theorem Holds.unique {p : Path} {config config' : Config} (h : t.Holds p config)
    (h' : t.Holds p config') : config = config' := by
  obtain ⟨text, hread, hparse⟩ := h
  obtain ⟨text', hread', hparse'⟩ := h'
  rw [hread] at hread'
  obtain rfl := Except.ok.inj hread'
  rw [hparse] at hparse'
  exact Except.ok.inj hparse'

theorem Links.unique {p q q' : Path} {config config' : Config} (h : t.Links p config q)
    (h' : t.Links p config' q') : config = config' ∧ q = q' := by
  obtain rfl := h.holds.unique h'.holds
  obtain ⟨parent, hparent, hq⟩ := h.leads
  obtain ⟨parent', hparent', hq'⟩ := h'.leads
  rw [hparent] at hparent'
  obtain rfl := Option.some.inj hparent'
  rw [hq] at hq'
  exact ⟨rfl, Except.ok.inj hq'⟩

theorem Holds.exists_resolve {p : Path} {config : Config} (h : t.Holds p config) :
    ∃ place text, t.resolve p = .ok place ∧ t.get? place = some (.file (some text)) := by
  obtain ⟨text, hread, -⟩ := h
  obtain ⟨place, hplace, hget⟩ := exists_resolve_of_read hread
  exact ⟨place, text, hplace, hget⟩

/-! ## one path and another -/

/-- Two paths lead to one place. -/
def SamePlace (t : FileTree) (q p : Path) : Prop :=
  ∃ place, t.resolve q = .ok place ∧ t.resolve p = .ok place

/-- A path leads nowhere, but means the same as the canonical path of a place. -/
def Resembles (t : FileTree) (q p : Path) : Prop :=
  ∃ place fault, t.resolve q = .ok place ∧ t.resolve p = .error fault ∧
    p.components = (pathOf place).components

/-- The path `p` counts as the place that `q` leads to. -/
def Returns (t : FileTree) (q p : Path) : Prop :=
  t.SamePlace q p ∨ t.Resembles q p

/-- What the canonical path means, or the path itself if it leads nowhere. -/
def key (t : FileTree) (p : Path) : List PathComponent :=
  (t.canonicalOrSame p).components

theorem key_of_resolve {p : Path} {place : Place} (h : t.resolve p = .ok place) :
    t.key p = (pathOf place).components := by
  simp [key, canonicalOrSame, canonical, h, Except.map]

theorem key_of_not_resolve {p : Path} {fault : FileFault} (h : t.resolve p = .error fault) :
    t.key p = p.components := by
  simp [key, canonicalOrSame, canonical, h, Except.map]

theorem key_eq_of_samePlace {q p : Path} (h : t.SamePlace q p) : t.key q = t.key p := by
  obtain ⟨place, hq, hp⟩ := h
  rw [key_of_resolve hq, key_of_resolve hp]

theorem returns_iff_key_eq (ht : Place.Proper t.workingDirectory) {q p : Path} {place : Place}
    (hq : t.resolve q = .ok place) : t.Returns q p ↔ t.key q = t.key p := by
  rw [key_of_resolve hq]
  constructor
  · rintro (hsame | ⟨other, fault, hq', hp, hmeans⟩)
    · rw [← key_eq_of_samePlace hsame, key_of_resolve hq]
    · rw [hq] at hq'
      obtain rfl := Except.ok.inj hq'
      rw [key_of_not_resolve hp, hmeans]
  · intro hkey
    cases hp : t.resolve p with
    | ok other =>
        rw [key_of_resolve hp] at hkey
        obtain rfl := eq_of_components_pathOf_eq (proper_resolve ht hq) (proper_resolve ht hp) hkey
        exact .inl ⟨place, hq, hp⟩
    | error fault =>
        rw [key_of_not_resolve hp] at hkey
        exact .inr ⟨place, fault, hq, hp, hkey.symm⟩

/-! ## loading -/

/-- Loading from a path when what counts as `visited` is above it: the paths that are read, in
order, and how it ends. -/
inductive Loads (t : FileTree) :
    List (List PathComponent) → Path → List Path → Except ProjectFault Config → Prop
  | cycle {visited : List (List PathComponent)} {p : Path} (h : t.key p ∈ visited) :
    Loads t visited p [] (.error (.cycle (t.canonicalOrSame p)))
  | unreadable {visited : List (List PathComponent)} {p : Path} {fault : FileFault}
    (h : t.key p ∉ visited) (hread : t.read p = .error fault) :
    Loads t visited p [p] (.error (.unreadable p fault))
  | unparsable {visited : List (List PathComponent)} {p : Path} {text : String}
    {fault : Json.Fault} (h : t.key p ∉ visited) (hread : t.read p = .ok text)
    (hparse : Config.parse text = .error fault) :
    Loads t visited p [p] (.error (.unparsable p fault))
  | last {visited : List (List PathComponent)} {p : Path} {config : Config}
    (h : t.key p ∉ visited) (hholds : t.Holds p config) (hlast : config.parent = none) :
    Loads t visited p [p] (.ok config)
  | link {visited : List (List PathComponent)} {p q : Path} {config : Config} {reads : List Path}
    {result : Except ProjectFault Config} (h : t.key p ∉ visited) (hlink : t.Links p config q)
    (rest : Loads t (t.key p :: visited) q reads result) :
    Loads t visited p (p :: reads) (result.map config.overlay)

/-- One level of loading. -/
theorem loadFrom_succ (levels : Nat) (visited : List (List PathComponent)) (p : Path) :
    t.loadFrom (levels + 1) visited p =
      if t.key p ∈ visited then .error (.cycle (t.canonicalOrSame p))
      else match t.read p with
        | .error fault => .error (.unreadable p fault)
        | .ok text => match Config.parse text with
          | .error fault => .error (.unparsable p fault)
          | .ok config => match config.parent with
            | none => .ok config
            | some parent => match parentPath p parent with
              | .error fault => .error fault
              | .ok q => (t.loadFrom levels (t.key p :: visited) q).map config.overlay := by
  by_cases hkey : t.key p ∈ visited
  · have hseen : visited.contains (t.canonicalOrSame p).components = true := by simpa [key] using hkey
    rw [loadFrom, if_pos hkey]
    simp only [hseen]
    rfl
  · have hnew : visited.contains (t.canonicalOrSame p).components = false := by
      simpa [key] using hkey
    rw [loadFrom, if_neg hkey]
    simp only [hnew]
    cases t.read p with
    | error fault => rfl
    | ok text =>
        dsimp only
        cases hparse : Config.parse text with
        | error fault => simp [hparse, Except.mapError, bind, Except.bind]
        | ok config =>
            dsimp only
            cases hparent : config.parent with
            | none => simp [hparse, hparent, Except.mapError, bind, Except.bind, pure, Except.pure]
            | some parent =>
                dsimp only
                cases hq : parentPath p parent with
                | error fault => simp [hparse, hparent, hq, Except.mapError, bind, Except.bind]
                | ok q =>
                    dsimp only
                    cases hr : t.loadFrom levels (t.key p :: visited) q <;>
                      simp_all [key, Except.mapError, Except.map, bind, Except.bind, pure,
                        Except.pure]

theorem exists_link_of_parent {p : Path} {config : Config} {parent : String}
    (hholds : t.Holds p config) (hparent : config.parent = some parent) :
    ∃ q, parentPath p parent = .ok q ∧ t.Links p config q := by
  obtain ⟨directory, hdirectory⟩ := hholds.elim fun _ h => exists_parent?_of_read h.1
  cases hq : parentPath p parent with
  | error fault =>
      rw [parentPath, hdirectory] at hq
      contradiction
  | ok q => exact ⟨q, rfl, hholds, parent, hparent, hq⟩

/-! ## loading comes to its end -/

/-- Different files of a tree are no more than its entries. -/
theorem length_le_of_files {places : List Place} (hnodup : places.Nodup)
    (hfiles : ∀ place ∈ places, ∃ text, t.get? place = some (.file text)) :
    places.length ≤ t.entries.length := by
  have hsub : places ⊆ t.entries.map (·.1) := fun place hplace =>
    (hfiles place hplace).elim fun _ h => mem_entries_of_file h
  simpa using (List.subperm_of_subset hnodup hsub).length_le

/-- **Run lemma**: with a level left for every file that was not visited, loading comes to its end.
Each level visits one file more, and no file twice. -/
theorem exists_loads (ht : Place.Proper t.workingDirectory) (levels : Nat) {places : List Place}
    (hnodup : places.Nodup)
    (hfiles : ∀ place ∈ places, place.Proper ∧ ∃ text, t.get? place = some (.file text))
    (hlevels : t.entries.length < levels + places.length) (p : Path) :
    ∃ reads, t.Loads (places.map fun place => (pathOf place).components) p reads
        (t.loadFrom levels (places.map fun place => (pathOf place).components) p) ∧
      reads.length + places.length ≤ t.entries.length + 1 := by
  have hle := length_le_of_files hnodup fun place h => (hfiles place h).2
  induction levels generalizing places p with
  | zero => omega
  | succ levels ih =>
      rw [loadFrom_succ]
      split
      · next h => exact ⟨_, .cycle h, by simp; omega⟩
      · next h =>
          cases hread : t.read p with
          | error fault => exact ⟨_, .unreadable h hread, by simp; omega⟩
          | ok text =>
              dsimp only
              cases hparse : Config.parse text with
              | error fault => exact ⟨_, .unparsable h hread hparse, by simp; omega⟩
              | ok config =>
                  have hholds : t.Holds p config := ⟨text, hread, hparse⟩
                  dsimp only
                  cases hparent : config.parent with
                  | none => exact ⟨_, .last h hholds hparent, by simp; omega⟩
                  | some parent =>
                      obtain ⟨q, hq, hlink⟩ := exists_link_of_parent hholds hparent
                      obtain ⟨place, text, hplace, hfile⟩ := hholds.exists_resolve
                      have hkey := key_of_resolve hplace
                      -- the file at `p` is a new one, because its canonical path is
                      have hnew : place ∉ places := fun hmem =>
                        h (hkey ▸ List.mem_map_of_mem hmem)
                      have hnodup' : (place :: places).Nodup := List.nodup_cons.mpr ⟨hnew, hnodup⟩
                      have hfiles' : ∀ other ∈ place :: places,
                          other.Proper ∧ ∃ text, t.get? other = some (.file text) :=
                        List.forall_mem_cons.mpr
                          ⟨⟨proper_resolve ht hplace, _, hfile⟩, hfiles⟩
                      obtain ⟨reads, hloads, hlen⟩ := ih hnodup' hfiles'
                        (by simp only [List.length_cons]; omega) q
                        (length_le_of_files hnodup' fun other ho => (hfiles' other ho).2)
                      dsimp only
                      rw [hq]
                      refine ⟨p :: reads, .link h hlink ?_, by simp at hlen ⊢; omega⟩
                      rw [hkey]
                      exact hloads

/-- The paths that are read are all different, also from what was visited before. -/
theorem Loads.fresh {visited : List (List PathComponent)} {p : Path} {reads : List Path}
    {result : Except ProjectFault Config} (h : t.Loads visited p reads result) :
    (∀ r ∈ reads, t.key r ∉ visited) ∧ reads.Pairwise fun q r => t.key q ≠ t.key r := by
  induction h with
  | cycle => simp
  | unreadable h | unparsable h | last h => simpa using h
  | link h _ _ ih =>
      obtain ⟨hvisited, hpair⟩ := ih
      simp only [List.mem_cons, not_or] at hvisited
      exact ⟨List.forall_mem_cons.mpr ⟨h, fun r hr => (hvisited r hr).2⟩,
        List.pairwise_cons.mpr ⟨fun r hr => Ne.symm (hvisited r hr).1, hpair⟩⟩

/-! ## how it ends -/

/-- What loading reads are the files of the chain, and the chain says how loading ends. -/
theorem Loads.exists_chain {visited : List (List PathComponent)} {p : Path} {reads : List Path}
    {result : Except ProjectFault Config} (h : t.Loads visited p reads result) :
    ∃ links here, t.Chain p links here ∧
      ((reads = links.map (·.1) ∧ (∃ c, result = .error (.cycle c)) ∧
          (t.key here ∈ visited ∨ ∃ q ∈ links.map (·.1), t.key q = t.key here)) ∨
        (reads = links.map (·.1) ++ [here] ∧ (∃ fault, result = .error fault ∧ fault.IsUnusable) ∧
          ∀ config, ¬ t.Holds here config) ∨
        (reads = links.map (·.1) ++ [here] ∧ (∃ config, result = .ok config) ∧
          ∃ config, t.Holds here config ∧ config.parent = none)) := by
  induction h with
  | cycle h => exact ⟨[], _, .nil _, .inl ⟨rfl, ⟨_, rfl⟩, .inl h⟩⟩
  | unreadable h hread =>
      refine ⟨[], _, .nil _, .inr (.inl ⟨rfl, ⟨_, rfl, trivial⟩, ?_⟩)⟩
      rintro config ⟨text, hread', -⟩
      rw [hread] at hread'
      contradiction
  | unparsable h hread hparse =>
      refine ⟨[], _, .nil _, .inr (.inl ⟨rfl, ⟨_, rfl, trivial⟩, ?_⟩)⟩
      rintro config ⟨text, hread', hparse'⟩
      rw [hread] at hread'
      obtain rfl := Except.ok.inj hread'
      rw [hparse] at hparse'
      contradiction
  | last h hholds hlast => exact ⟨[], _, .nil _, .inr (.inr ⟨rfl, ⟨_, rfl⟩, _, hholds, hlast⟩)⟩
  | @link visited p q config reads result h hlink _ ih =>
      obtain ⟨links, here, hchain, hend⟩ := ih
      refine ⟨(p, config) :: links, here, .cons hlink hchain, ?_⟩
      rcases hend with ⟨rfl, ⟨c, rfl⟩, hback⟩ | ⟨rfl, ⟨fault, rfl, hfault⟩, hbad⟩ |
        ⟨rfl, ⟨below, rfl⟩, hlast⟩
      · refine .inl ⟨rfl, ⟨c, rfl⟩, ?_⟩
        rcases hback with hmem | ⟨r, hr, hkey⟩
        · cases List.mem_cons.mp hmem with
          | inl he => exact .inr ⟨p, by simp, he.symm⟩
          | inr hmem => exact .inl hmem
        · exact .inr ⟨r, List.mem_cons_of_mem p hr, hkey⟩
      · exact .inr (.inl ⟨rfl, ⟨fault, rfl, hfault⟩, hbad⟩)
      · exact .inr (.inr ⟨rfl, ⟨_, rfl⟩, hlast⟩)

/-- Loading from a configuration that names another one. -/
theorem Loads.of_links {visited : List (List PathComponent)} {p q : Path} {config : Config}
    {reads : List Path} {result : Except ProjectFault Config} (h : t.Loads visited p reads result)
    (link : t.Links p config q) :
    (t.key p ∈ visited ∧ ∃ c, result = .error (.cycle c)) ∨
    (t.key p ∉ visited ∧ ∃ reads' result', t.Loads (t.key p :: visited) q reads' result' ∧
      result = result'.map config.overlay) := by
  obtain ⟨text, hread, hparse⟩ := link.holds
  cases h with
  | cycle h => exact .inl ⟨h, _, rfl⟩
  | unreadable h hread' =>
      rw [hread] at hread'
      contradiction
  | unparsable h hread' hparse' =>
      rw [hread] at hread'
      obtain rfl := Except.ok.inj hread'
      rw [hparse] at hparse'
      contradiction
  | last h hholds hlast =>
      obtain ⟨parent, hparent, -⟩ := link.leads
      rw [link.holds.unique hholds, hlast] at hparent
      contradiction
  | link h hlink hrest =>
      obtain ⟨rfl, rfl⟩ := link.unique hlink
      exact .inr ⟨h, _, _, hrest, rfl⟩

/-- A chain that comes back makes loading end with a cycle. -/
theorem Chain.cycle_of_loads {p here : Path} {links : List (Path × Config)}
    (h : t.Chain p links here) {visited : List (List PathComponent)} {reads : List Path}
    {result : Except ProjectFault Config} (hl : t.Loads visited p reads result)
    (hback : t.key here ∈ visited ∨ ∃ q ∈ links.map (·.1), t.key q = t.key here) :
    ∃ c, result = .error (.cycle c) := by
  induction h generalizing visited reads result with
  | nil p =>
      have hmem : t.key p ∈ visited := by simpa using hback
      cases hl with
      | cycle => exact ⟨_, rfl⟩
      | unreadable h | unparsable h | last h | link h => exact absurd hmem h
  | @cons p q here config links link rest ih =>
      rcases hl.of_links link with ⟨-, c, rfl⟩ | ⟨-, reads', result', hrest, rfl⟩
      · exact ⟨c, rfl⟩
      · have hback' : t.key here ∈ t.key p :: visited ∨
            ∃ r ∈ links.map (·.1), t.key r = t.key here := by
          rcases hback with hmem | ⟨r, hr, hkey⟩
          · exact .inl (List.mem_cons_of_mem _ hmem)
          · cases List.mem_cons.mp hr with
            | inl he => exact .inl (by rw [← hkey, he]; exact List.mem_cons_self)
            | inr hr => exact .inr ⟨r, hr, hkey⟩
        obtain ⟨c, rfl⟩ := ih hrest hback'
        exact ⟨c, rfl⟩

/-- A chain of different files to a path that holds no configuration makes loading fail there. -/
theorem Chain.unusable_of_loads {p here : Path} {links : List (Path × Config)}
    (h : t.Chain p links here) (hbad : ∀ config, ¬ t.Holds here config)
    (hpair : (links.map (·.1) ++ [here]).Pairwise fun q r => t.key q ≠ t.key r)
    {visited : List (List PathComponent)} {reads : List Path}
    {result : Except ProjectFault Config} (hl : t.Loads visited p reads result)
    (hnew : ∀ r ∈ links.map (·.1) ++ [here], t.key r ∉ visited) :
    ∃ fault, result = .error fault ∧ fault.IsUnusable := by
  induction h generalizing visited reads result with
  | nil p =>
      cases hl with
      | cycle h => exact absurd h (hnew p (by simp))
      | unreadable | unparsable => exact ⟨_, rfl, trivial⟩
      | last _ hholds => exact absurd hholds (hbad _)
      | link _ hlink => exact absurd hlink.holds (hbad _)
  | @cons p q here config links link rest ih =>
      rcases hl.of_links link with ⟨hmem, -⟩ | ⟨-, reads', result', hrest, rfl⟩
      · exact absurd hmem (hnew p (by simp))
      · obtain ⟨hfirst, hpair'⟩ := List.pairwise_cons.mp hpair
        have hnew' : ∀ r ∈ links.map (·.1) ++ [here], t.key r ∉ t.key p :: visited := by
          intro r hr hmem
          cases List.mem_cons.mp hmem with
          | inl he => exact hfirst r hr he.symm
          | inr hmem => exact hnew r (List.mem_cons_of_mem p hr) hmem
        obtain ⟨fault, rfl, hfault⟩ := ih hbad hpair' hrest hnew'
        exact ⟨fault, rfl, hfault⟩

/-! ## loading follows the chain -/

/-- The chain from a path comes back to one of its files. -/
def ChainReturns (t : FileTree) (start : Path) : Prop :=
  ∃ links here, t.Chain start links here ∧ ∃ q ∈ links.map (·.1), t.Returns q here

/-- The chain from a path comes, without coming back before, to a path that holds no
configuration. -/
def ChainFails (t : FileTree) (start : Path) : Prop :=
  ∃ links here, t.Chain start links here ∧
    (links.map (·.1) ++ [here]).Pairwise (fun q p => ¬ t.Returns q p) ∧
    ∀ config, ¬ t.Holds here config

theorem Chain.exists_resolve_of_mem {p here : Path} {links : List (Path × Config)}
    (h : t.Chain p links here) : ∀ q ∈ links.map (·.1), ∃ place, t.resolve q = .ok place := by
  induction h with
  | nil => simp
  | cons link _ ih =>
      obtain ⟨place, -, hplace, -⟩ := link.holds.exists_resolve
      exact List.forall_mem_cons.mpr ⟨⟨place, hplace⟩, ih⟩

/-- Coming back is a matter of canonical paths. -/
theorem Chain.returns_iff (ht : Place.Proper t.workingDirectory) {p here : Path}
    {links : List (Path × Config)} (h : t.Chain p links here) {q : Path}
    (hq : q ∈ links.map (·.1)) (r : Path) : t.Returns q r ↔ t.key q = t.key r := by
  obtain ⟨place, hplace⟩ := h.exists_resolve_of_mem q hq
  exact returns_iff_key_eq ht hplace

theorem Chain.pairwise_iff (ht : Place.Proper t.workingDirectory) {p here : Path}
    {links : List (Path × Config)} (h : t.Chain p links here) :
    (links.map (·.1) ++ [here]).Pairwise (fun q r => ¬ t.Returns q r) ↔
      (links.map (·.1) ++ [here]).Pairwise fun q r => t.key q ≠ t.key r := by
  rw [List.pairwise_append, List.pairwise_append]
  refine and_congr ?_ (and_congr (by simp) ?_)
  · exact List.Pairwise.iff_of_mem fun hq _ => not_congr (h.returns_iff ht hq _)
  · exact forall₂_congr fun q hq => forall₂_congr fun r _ => not_congr (h.returns_iff ht hq r)

/-- **Loading follows the chain**: it comes to its end, and what it reads are different files, at
most one more than the tree has. It ends with a cycle exactly when the chain comes back, it ends at
an unusable file exactly when the chain comes to one before, and else it answers. -/
theorem loadConfig_follows_chain {t : FileTree} (ht : Place.Proper t.workingDirectory)
    (start : Path) :
    (∃ reads, t.Loads [] start reads (t.loadConfig start) ∧
      reads.Pairwise (fun q p => ¬ t.SamePlace q p) ∧ reads.length ≤ t.entries.length + 1) ∧
    ((∃ p, t.loadConfig start = .error (.cycle p)) ↔ t.ChainReturns start) ∧
    ((∃ fault, t.loadConfig start = .error fault ∧ fault.IsUnusable) ↔ t.ChainFails start) ∧
    ((∃ config, t.loadConfig start = .ok config) ↔
      ¬ t.ChainReturns start ∧ ¬ t.ChainFails start) := by
  obtain ⟨reads, hloads, hlen⟩ : ∃ reads, t.Loads [] start reads (t.loadConfig start) ∧
      reads.length ≤ t.entries.length + 1 := by
    simpa [loadConfig] using
      exists_loads ht (t.entries.length + 1) List.nodup_nil (by simp) (by simp) start
  have hfresh := hloads.fresh.2
  obtain ⟨links, here, hchain, hend⟩ := hloads.exists_chain
  have hcycle : (∃ p, t.loadConfig start = .error (.cycle p)) ↔ t.ChainReturns start := by
    constructor
    · rintro ⟨c, hc⟩
      rcases hend with ⟨-, -, hback⟩ | ⟨-, ⟨fault, hf, hfault⟩, -⟩ | ⟨-, ⟨config, hok⟩, -⟩
      · obtain ⟨q, hq, hkey⟩ := hback.resolve_left (by simp)
        exact ⟨links, here, hchain, q, hq, (hchain.returns_iff ht hq here).mpr hkey⟩
      · rw [hc] at hf
        obtain rfl := Except.error.inj hf
        exact hfault.elim
      · rw [hc] at hok
        contradiction
    · rintro ⟨links', here', hchain', q, hq, hreturns⟩
      exact hchain'.cycle_of_loads hloads
        (.inr ⟨q, hq, (hchain'.returns_iff ht hq here').mp hreturns⟩)
  have hfail : (∃ fault, t.loadConfig start = .error fault ∧ fault.IsUnusable) ↔
      t.ChainFails start := by
    constructor
    · rintro ⟨fault, hf, hfault⟩
      rcases hend with ⟨-, ⟨c, hc⟩, -⟩ | ⟨hreads, -, hbad⟩ | ⟨-, ⟨config, hok⟩, -⟩
      · rw [hf] at hc
        obtain rfl := Except.error.inj hc
        exact hfault.elim
      · exact ⟨links, here, hchain, (hchain.pairwise_iff ht).mpr (hreads ▸ hfresh), hbad⟩
      · rw [hf] at hok
        contradiction
    · rintro ⟨links', here', hchain', hpair, hbad⟩
      exact hchain'.unusable_of_loads hbad ((hchain'.pairwise_iff ht).mp hpair) hloads (by simp)
  refine ⟨⟨reads, hloads, hfresh.imp fun hne hsame => hne (key_eq_of_samePlace hsame), hlen⟩,
    hcycle, hfail, ?_⟩
  rw [← hcycle, ← hfail]
  rcases hend with ⟨-, ⟨c, hc⟩, -⟩ | ⟨-, ⟨fault, hf, hfault⟩, -⟩ | ⟨-, ⟨config, hok⟩, -⟩
  · simp [hc]
  · simp [hf, hfault]
  · simp [hok]

/-- Two files that name each other, the second one by a detour: the chain comes back. -/
theorem loadConfig_follows_chain_detour :
    let t : FileTree := ⟨[(["p"], .directory),
      (["p", "a.json"], .file (some "\x7b\"extends\": \"./b\"\x7d")),
      (["p", "b.json"], .file (some "\x7b\"extends\": \"/p/../p/./a.json\"\x7d"))], ["p"]⟩
    Place.Proper t.workingDirectory ∧ t.loadConfig ⟨"a.json"⟩ = .error (.cycle ⟨"/p/a.json"⟩) ∧
      t.ChainReturns ⟨"a.json"⟩ := by
  intro t
  have hproper : Place.Proper t.workingDirectory := by decide
  have hcycle : t.loadConfig ⟨"a.json"⟩ = .error (.cycle ⟨"/p/a.json"⟩) := by decide +kernel
  exact ⟨hproper, hcycle, (loadConfig_follows_chain hproper ⟨"a.json"⟩).2.1.mp ⟨_, hcycle⟩⟩

/-- A configuration that names itself with a slash behind its name, which leads nowhere. -/
def selfNaming : FileTree :=
  ⟨[(["p"], .directory), (["p", "a.json"], .file (some "\x7b\"extends\": \"/p/a.json/\"\x7d"))], ["p"]⟩

/-- Loading ends with a cycle where the chain reaches no file twice and comes to a path that cannot
be read. -/
theorem cycle_of_selfNaming :
    selfNaming.loadConfig ⟨"/p/a.json"⟩ = .error (.cycle ⟨"/p/a.json/"⟩) ∧
    (¬ ∃ links here, selfNaming.Chain ⟨"/p/a.json"⟩ links here ∧
      ∃ q ∈ links.map (·.1), selfNaming.SamePlace q here) ∧
    ∃ links here, selfNaming.Chain ⟨"/p/a.json"⟩ links here ∧
      (links.map (·.1) ++ [here]).Pairwise (fun q p => ¬ selfNaming.SamePlace q p) ∧
      selfNaming.read here = .error .notDirectory := by
  have hread : selfNaming.read ⟨"/p/a.json/"⟩ = .error .notDirectory := by decide +kernel
  have hresolve : selfNaming.resolve ⟨"/p/a.json/"⟩ = .error .notDirectory := by decide +kernel
  have hapart : ∀ q, ¬ selfNaming.SamePlace q ⟨"/p/a.json/"⟩ := by
    rintro q ⟨place, -, hplace⟩
    rw [hresolve] at hplace
    contradiction
  have hlink : selfNaming.Links ⟨"/p/a.json"⟩ { parent := some "/p/a.json/" } ⟨"/p/a.json/"⟩ :=
    ⟨⟨"\x7b\"extends\": \"/p/a.json/\"\x7d", by decide +kernel, by decide +kernel⟩,
      "/p/a.json/", rfl, by decide +kernel⟩
  refine ⟨by decide +kernel, ?_, [(⟨"/p/a.json"⟩, { parent := some "/p/a.json/" })], _,
    .cons hlink (.nil _), by simpa using hapart _, hread⟩
  rintro ⟨links, here, hchain, q, hq, hsame⟩
  cases hchain with
  | nil => simp at hq
  | cons hlink' rest =>
      obtain ⟨-, rfl⟩ := hlink.unique hlink'
      cases rest with
      | nil => exact hapart q hsame
      | cons hlink'' _ =>
          obtain ⟨text, hread', -⟩ := hlink''.holds
          rw [hread] at hread'
          contradiction

end FileTree

end TypeQuery
