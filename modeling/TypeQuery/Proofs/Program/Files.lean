import Mathlib.Data.List.Nodup
import TypeQuery.Proofs.Program.Build

/-!
# TypeQuery.Proofs.Program.Files

The files of a program.  Two kinds of steps reach them: one adds a file with the
line map of its text, the other adds a diagnostic to a file and leaves the rest
of it alone (`take_files`).  So in every program that can be laid out the line
map of a file belongs to its text, and the answers of the checker about offsets
and positions are those of the text.

* `take_files` — what a step can do to the files;
* `mapped_layOut` — every file has the line map of its text;
* `NamedApart.file?_name` — a file is found by its name, if no other one has it;
* `offsetOf?_checker`, `positionOf?_checker` — the checker's answers about a file.
-/

namespace TypeQuery

/-- The file without what was reported for it. -/
def SourceFile.bare (f : SourceFile) : SourceFile :=
  { f with diagnostics := [] }

namespace Program

/-! ## steps -/

/-- A diagnostic changes nothing else about the files. -/
theorem map_bare_reportIn {name : String} {d : Diagnostic} {fs gs : List SourceFile}
    (h : reportIn name d fs = some gs) : gs.map SourceFile.bare = fs.map SourceFile.bare := by
  induction fs generalizing gs with
  | nil => simp [reportIn] at h
  | cons f fs ih =>
      rw [reportIn] at h
      split at h
      · obtain rfl := Option.some.inj h
        rfl
      · obtain ⟨hs, hr, rfl⟩ := Option.map_eq_some_iff.mp h
        rw [List.map_cons, List.map_cons, ih hr]

theorem keepsBareFiles_addDiagnostic (name : String) (d : Diagnostic) :
    Keeps (fun p => p.files.map SourceFile.bare) (addDiagnostic name d) := by
  intro p
  rw [build_addDiagnostic]
  cases hr : reportIn name d p.files.toList with
  | none => rfl
  | some files =>
      show files.toArray.map SourceFile.bare = p.files.map SourceFile.bare
      rw [List.map_toArray, map_bare_reportIn hr, ← Array.toList_map]

/-- Only one kind of steps adds files. -/
theorem keepsBareFiles_run (s : Step) :
    Keeps (fun p => p.files.map SourceFile.bare) s.run ∨ ∃ name text, s = .addFile name text := by
  have hv : SeesSyntax fun p => p.files.map SourceFile.bare := fun _ _ _ _ => rfl
  rcases hv.keeps_run s with
    hkept | hadd | ⟨parent, kind, snippet, rfl⟩ | ⟨parent, kind, span, rfl⟩ | ⟨n, symbol, rfl⟩ |
    ⟨n, t, rfl⟩ | ⟨name, d, rfl⟩
  · exact .inl hkept
  · exact .inr hadd
  · exact .inl (.map (.addChild (fun _ _ => rfl) parent kind snippet))
  · exact .inl (.map (.addNode (fun _ _ => rfl) parent kind span))
  · exact .inl (.bind (.modifyNode fun _ => rfl) fun _ => .pure _)
  · exact .inl (.bind (.modifyNode fun _ => rfl) fun _ => .pure _)
  · exact .inl (.bind (keepsBareFiles_addDiagnostic name d) fun _ => .pure _)

/-- **What a step can do to the files**: report something for one of them, or add one with the line
map of its text. -/
theorem take_files (p : Program) (s : Step) :
    (p.take s).2.files.map SourceFile.bare = p.files.map SourceFile.bare ∨
    (∃ name text, s = .addFile name text ∧ (p.take s).2.files =
      p.files.push ⟨name, text, Text.LineMap.ofText text.toList, ⟨p.nodes.size⟩, []⟩) := by
  rcases keepsBareFiles_run s with hkept | ⟨name, text, rfl⟩
  · exact .inl (hkept p)
  · exact .inr ⟨name, text, rfl, rfl⟩

/-! ## line maps -/

/-- Every file has the line map of its text. -/
def Mapped (p : Program) : Prop :=
  ∀ f ∈ p.files, f.lineMap = Text.LineMap.ofText f.text.toList

theorem mapped_of_bare {p q : Program}
    (h : q.files.map SourceFile.bare = p.files.map SourceFile.bare) (hp : p.Mapped) : q.Mapped := by
  intro g hg
  have hmem : g.bare ∈ p.files.map SourceFile.bare := h ▸ Array.mem_map_of_mem hg
  obtain ⟨f, hf, hbare⟩ := Array.mem_map.mp hmem
  have htext : f.text = g.text := congrArg (·.text) hbare
  have hmap : f.lineMap = g.lineMap := congrArg (·.lineMap) hbare
  rw [← htext, ← hmap]
  exact hp f hf

theorem mapped_take {p : Program} (s : Step) (hp : p.Mapped) : (p.take s).2.Mapped := by
  rcases take_files p s with hbare | ⟨name, text, -, hfiles⟩
  · exact mapped_of_bare hbare hp
  · intro f hf
    rw [hfiles] at hf
    cases Array.mem_push.mp hf with
    | inl hm => exact hp f hm
    | inr he => rw [he]

theorem mapped_layOut (steps : List Step) : (empty.layOut steps).Mapped :=
  layOut_induction (fun _ s hp => mapped_take s hp) steps fun f hf => by simp [empty] at hf

/-! ## files by name -/

/-- No two files have one name. -/
def NamedApart (p : Program) : Prop :=
  (p.files.toList.map (·.name)).Nodup

theorem name_of_file? {p : Program} {name : String} {f : SourceFile}
    (h : p.file? name = some f) : f.name = name := by
  simpa using Array.find?_some h

theorem NamedApart.file?_name {p : Program} (hp : p.NamedApart) {f : SourceFile}
    (hf : f ∈ p.files) : p.file? f.name = some f := by
  cases hg : p.file? f.name with
  | none =>
      have hno := Array.find?_eq_none.mp hg f hf
      simp at hno
  | some g =>
      have hmem : g ∈ p.files := Array.mem_of_find?_eq_some hg
      rw [List.inj_on_of_nodup_map hp hmem.val hf.val (name_of_file? hg)]

/-! ## what the checker says about files -/

theorem text?_of_file? {p : Program} {name : String} {f : SourceFile} (h : p.file? name = some f) :
    p.checker.text? name = some f.text := by
  simp [checker, h]

theorem Mapped.lineMap_of_file? {p : Program} (hp : p.Mapped) {name : String} {f : SourceFile}
    (hf : p.file? name = some f) : f.lineMap = Text.LineMap.ofText f.text.toList :=
  hp f (Array.mem_of_find?_eq_some hf)

/-- A file that has a text has a line map, and it is that of the text. -/
theorem Mapped.positionOf?_checker {p : Program} (hp : p.Mapped) {name text : String}
    (h : p.checker.text? name = some text) (o : Nat) :
    p.checker.positionOf? name o = some ((Text.LineMap.ofText text.toList).positionOf o) := by
  obtain ⟨f, hf, rfl⟩ := Option.map_eq_some_iff.mp h
  show (p.file? name).map (·.lineMap.positionOf o) = _
  rw [hf, Option.map_some, hp.lineMap_of_file? hf]

theorem Mapped.offsetOf?_checker {p : Program} (hp : p.Mapped) {name text : String}
    (h : p.checker.text? name = some text) (pos : Text.Position) :
    p.checker.offsetOf? name pos = (Text.LineMap.ofText text.toList).offsetOf? pos := by
  obtain ⟨f, hf, rfl⟩ := Option.map_eq_some_iff.mp h
  show (p.file? name).bind (·.lineMap.offsetOf? pos) = _
  rw [hf, Option.bind_some, hp.lineMap_of_file? hf]

end Program

end TypeQuery
