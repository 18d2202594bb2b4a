import TypeQuery.Proofs.Program.Tree
import TypeQuery.Proofs.Query.Answer

/-!
# TypeQuery.Proofs.Query.Places

Where the places in an answer lead.  An answer names places in three ways: its
own line and column, those of declarations, which may be in any file of the
program, and those of diagnostics.  Each was read off an offset in the line map
of a file, and a query for it goes the other way:

```
            line map of the file               query
  offset  ──────────────────────→  line:column  ─────→  min offset (end of the text)
```

* `Program.LeadsTo` — a query for a line and a column leads to an offset;
* `leadsTo_positionOf` — the place of an offset leads back to it;
* `answer_leads_back` — so do all places in an answer.
-/

namespace TypeQuery

open Checker

/-- What is kept of a list is, in order, what its kept entries become. -/
theorem forall₂_filterMap {α β : Type} {R : α → β → Prop} {f : α → Option β}
    (h : ∀ a b, f a = some b → R a b) (as : List α) :
    List.Forall₂ R (as.filter fun a => (f a).isSome) (as.filterMap f) := by
  induction as with
  | nil => exact .nil
  | cons a as ih =>
      cases hf : f a with
      | none => simpa [hf] using ih
      | some b => simpa [hf] using ⟨h a b hf, ih⟩

@[simp] theorem Checker.place_summarize (c : Checker) (d : Diagnostic) :
    (c.summarize d).place = c.placeOf? d := by
  unfold summarize DiagnosticSummary.place
  cases c.placeOf? d <;> rfl

/-- A diagnostic is written with all fields of a place or with none. -/
theorem Checker.isSome_field?_summarize (c : Checker) (d : Diagnostic) {key : String}
    (h : key ∈ ["file", "line", "column"]) :
    ((c.summarize d).toJson.field? key).isSome = (c.summarize d).place.isSome := by
  rw [place_summarize]
  simp only [List.mem_cons, List.not_mem_nil, or_false] at h
  cases hplace : c.placeOf? d with
  | none =>
      rcases h with rfl | rfl | rfl <;>
        simp [summarize, DiagnosticSummary.toJson, Json.field?, Json.optionalField, hplace]
  | some place =>
      rcases h with rfl | rfl | rfl <;>
        simp [summarize, DiagnosticSummary.toJson, Json.field?, Json.optionalField, hplace]

namespace Program

variable {p : Program} {f : SourceFile} {name : String}

/-! ## places in a file -/

/-- Every offset into a text has a line and a column that 32-bit numbers can say. -/
def Addressable (p : Program) : Prop :=
  ∀ f ∈ p.files, Text.unitLength f.text.toList < Text.LineMap.offsetLimit - 1

/-- A query for that line and column of the file leads to that offset, and both are numbers of the
width that queries have. -/
structure LeadsTo (p : Program) (f : SourceFile) (line column offset : Nat) : Prop where
  named : p.file? f.name = some f
  resolves : p.checker.resolve f.name f.text (.position line column) = .ok ⟨offset, line, column, ""⟩
  line_lt : line < Text.LineMap.offsetLimit
  column_lt : column < Text.LineMap.offsetLimit

section

variable (hp : p.Mapped) (hf : p.file? name = some f)
  (hlen : Text.unitLength f.text.toList < Text.LineMap.offsetLimit - 1)
include hp hf hlen

/-- A position that has an offset leads to it. -/
theorem leadsTo_of_offsetOf? {q : Text.Position} {o : Nat}
    (h : p.checker.offsetOf? name q = some o) : p.LeadsTo f (q.line + 1) (q.character + 1) o := by
  obtain rfl := name_of_file? hf
  have hvalid := Text.LineMap.valid_ofText f.text.toList
  have hlimit : Text.unitLength f.text.toList < Text.LineMap.offsetLimit := by omega
  have hstands : (Text.LineMap.ofText f.text.toList).Stands q o := by
    rw [hp.offsetOf?_checker (text?_of_file? hf)] at h
    exact (Text.LineMap.offsetOf?_eq_some_iff hvalid hlimit q o).mp h
  have hle := hstands.le_offset hvalid
  have hinside : o ≤ Text.unitLength f.text.toList := hstands.inside
  exact ⟨hf, resolvePosition_of_offsetOf? h, by omega, by omega⟩

/-- The place of an offset leads back to it, that of an offset beyond the text to its end. -/
theorem leadsTo_positionOf {q : Text.Position} {o : Nat}
    (h : p.checker.positionOf? name o = some q) :
    p.LeadsTo f (q.line + 1) (q.character + 1) (min o (Text.unitLength f.text.toList)) := by
  have hvalid := Text.LineMap.valid_ofText f.text.toList
  have hlimit : Text.unitLength f.text.toList < Text.LineMap.offsetLimit := by omega
  rw [hp.positionOf?_checker (text?_of_file? hf)] at h
  obtain rfl := Option.some.inj h
  apply leadsTo_of_offsetOf? hp hf hlen
  rw [hp.offsetOf?_checker (text?_of_file? hf), Text.LineMap.offsetOf?_eq_some_iff hvalid hlimit,
    ← Text.LineMap.positionOf_min]
  exact Text.LineMap.stands_positionOf hvalid (Nat.min_le_right _ _)

/-- The place that a target was resolved to leads to its offset. -/
theorem leadsTo_of_resolve {target : Target} {location : Location}
    (h : p.checker.resolve name f.text target = .ok location) :
    p.LeadsTo f location.line location.column location.offset := by
  cases target with
  | position line column =>
      rw [resolve, resolvePosition] at h
      split at h
      · contradiction
      · next hpos =>
          split at h
          · contradiction
          · next offset hoffset =>
              obtain rfl := Except.ok.inj h
              have hleads := leadsTo_of_offsetOf? hp hf hlen hoffset
              rwa [Nat.sub_add_cancel (by omega), Nat.sub_add_cancel (by omega)] at hleads
  | pattern pattern flags index =>
      obtain ⟨s, hs⟩ := resolvePattern_eq_ok h
      rw [resolveSpan] at hs
      split at hs
      · contradiction
      · next q hq =>
          obtain rfl := Except.ok.inj hs
          have hleads := leadsTo_positionOf hp hf hlen hq
          rwa [Nat.min_eq_left (Text.unitLength_take_le _ _)] at hleads

end

/-! ## declarations -/

/-- The summary was read off the node: its file is the file of the node, and its place leads to the
start of the node, at most to the end of the text. -/
def Declares (p : Program) (n : NodeId) (d : DeclarationSummary) : Prop :=
  ∃ k f span, p.fileNumber? n = some k ∧ p.files[k]? = some f ∧ p.checker.span? n = some span ∧
    d.file = f.name ∧ p.LeadsTo f d.line d.column (min span.start (Text.unitLength f.text.toList))

/-- The declarations that an answer about the node lists: the first ones of its symbol, without those
that are no nodes. -/
def listed (p : Program) (limits : Limits) (n : NodeId) : List NodeId :=
  ((((p.checker.symbolOf? n).map p.checker.declarations).getD []).take limits.declarations).filter
    fun d => (p.checker.span? d).isSome

/-- In sound trees every node has a place. -/
theorem isSome_declaration? (htrees : p.SoundTrees) (hnames : p.NamedApart) (bound : Nat)
    (n : NodeId) :
    (p.checker.declaration? bound n).isSome = (p.checker.span? n).isSome := by
  cases hn : p.node? n with
  | none => simp [declaration?, checker, hn]
  | some node =>
      have hnumber : p.fileNumber? n = some node.file := by rw [fileNumber?, hn]; rfl
      have hlt := htrees.inFile n _ hnumber
      have hfound := hnames.file?_name (Array.getElem_mem hlt)
      simp [declaration?, checker, hn, hlt, hfound]

section

variable (hp : p.Mapped) (hnames : p.NamedApart) (hlen : p.Addressable)
include hp hnames hlen

theorem declares_of_declaration? {bound : Nat} {n : NodeId} {d : DeclarationSummary}
    (h : p.checker.declaration? bound n = some d) : p.Declares n d := by
  simp only [declaration?, Option.bind_eq_bind, Option.bind_eq_some_iff] at h
  obtain ⟨name, hname, span, hspan, q, hq, hd⟩ := h
  obtain rfl := Option.some.inj hd
  obtain ⟨node, hn, hfile⟩ := Option.bind_eq_some_iff.mp hname
  obtain ⟨f, hf, rfl⟩ := Option.map_eq_some_iff.mp hfile
  have hmem : f ∈ p.files := Array.mem_of_getElem? hf
  have hnumber : p.fileNumber? n = some node.file := by rw [fileNumber?, hn]; rfl
  exact ⟨node.file, f, span, hnumber, hf, hspan, rfl,
    leadsTo_positionOf hp (hnames.file?_name hmem) (hlen f hmem) hq⟩

/-- The declarations in an answer are those of the symbol, in order. -/
theorem forall₂_declares (htrees : p.SoundTrees) (limits : Limits) (n : NodeId) :
    List.Forall₂ p.Declares (p.listed limits n) (p.checker.facts n limits).declarations := by
  show List.Forall₂ p.Declares _
    (((p.checker.symbolOf? n).map (p.checker.declarationFacts · limits)).getD [])
  rw [listed]
  cases p.checker.symbolOf? n with
  | none => simp
  | some s =>
      simp only [← isSome_declaration? htrees hnames limits.snippet]
      exact forall₂_filterMap (fun _ _ => declares_of_declaration? hp hnames hlen) _

end

/-! ## diagnostics -/

/-- The summary was read off the diagnostic: it has a place just if the diagnostic starts in a file
of the program, and the place leads to where it starts, at most to the end of the text. -/
structure Reports (p : Program) (d : Diagnostic) (s : DiagnosticSummary) : Prop where
  placed : s.place.isSome ↔
    ∃ name start, d.file = some name ∧ d.start = some start ∧ (p.file? name).isSome
  leads : ∀ place, s.place = some place → ∃ f start, d.file = some f.name ∧ d.start = some start ∧
    place.file = f.name ∧
    p.LeadsTo f place.line place.column (min start (Text.unitLength f.text.toList))
  /-- A place is written with all of its fields or with none. -/
  together : ∀ key ∈ ["file", "line", "column"], (s.toJson.field? key).isSome = s.place.isSome

theorem isSome_placeOf? (d : Diagnostic) : (p.checker.placeOf? d).isSome ↔
    ∃ name start, d.file = some name ∧ d.start = some start ∧ (p.file? name).isSome := by
  cases hfile : d.file with
  | none => simp [placeOf?, hfile]
  | some name =>
      cases hstart : d.start with
      | none => simp [placeOf?, hfile, hstart]
      | some start => cases hf : p.file? name <;> simp [placeOf?, hfile, hstart, checker, hf]

/-- The diagnostics in an answer are those of the file, in order. -/
theorem forall₂_reports (hp : p.Mapped) (hlen : p.Addressable) (name : String) :
    List.Forall₂ p.Reports (p.checker.diagnostics name) (p.checker.report name) := by
  rw [report, List.forall₂_map_right_iff, List.forall₂_same]
  refine fun d _ => ⟨?_, fun place hplace => ?_, fun key hkey => isSome_field?_summarize _ d hkey⟩
  · rw [place_summarize]
    exact isSome_placeOf? d
  rw [place_summarize] at hplace
  simp only [placeOf?, Option.bind_eq_bind, Option.bind_eq_some_iff] at hplace
  obtain ⟨file, hfile, start, hstart, q, hq, hpl⟩ := hplace
  obtain rfl := Option.some.inj hpl
  obtain ⟨f, hf, -⟩ := Option.map_eq_some_iff.mp hq
  obtain rfl := name_of_file? hf
  exact ⟨f, start, hfile, hstart, rfl,
    leadsTo_positionOf hp hf (hlen f (Array.mem_of_find?_eq_some hf)) hq⟩

end Program

/-! ## whole answers -/

/-- Every place in the record leads back to what it was read off: its own one to its offset, those of
declarations to the declarations of the symbol and those of diagnostics to what the checker says. -/
structure Record.LeadsBack (r : Record) (p : Program) (options : Options) : Prop where
  own : ∃ f, f.name = r.file ∧
    p.LeadsTo f r.location.line r.location.column r.location.offset
  declarations : ∃ root, p.checker.root? r.file = some root ∧
    List.Forall₂ p.Declares (p.listed options.limits (p.checker.locate root r.location.offset))
      r.facts.declarations
  diagnostics : if options.omissions.diagnostics then r.diagnostics = []
    else List.Forall₂ p.Reports (p.checker.diagnostics r.file) r.diagnostics

namespace Program

/-- **Places lead back**: in a program whose files have different names and texts that 32-bit numbers
can address, every place in an answer leads back to what it was read off, whichever file it is in
and even if it was read off an offset beyond the text. -/
theorem answer_leads_back (steps : List Step) (hnames : (empty.layOut steps).NamedApart)
    (hlen : (empty.layOut steps).Addressable)
    (file : String) (project : Option String) (target : Target) (options : Options) (r : Record)
    (h : (empty.layOut steps).checker.answer file project target options = .ok r) :
    r.file = file ∧ r.LeadsBack (empty.layOut steps) options := by
  have hp := mapped_layOut steps
  have htrees := soundTrees_layOut steps
  obtain ⟨root, text, location, hroot, htext, hres, rfl⟩ := answer_eq_ok_iff.mp h
  obtain ⟨f, hf, rfl⟩ := Option.map_eq_some_iff.mp htext
  refine ⟨rfl, ⟨f, name_of_file? hf, ?_⟩, ⟨root, hroot, ?_⟩, ?_⟩
  · exact leadsTo_of_resolve hp hf (hlen f (Array.mem_of_find?_eq_some hf)) hres
  · exact forall₂_declares hp hnames hlen htrees _ _
  · show if options.omissions.diagnostics then (if _ then [] else _) = [] else
      List.Forall₂ _ _ (if _ then [] else _)
    split
    · rfl
    · exact forall₂_reports hp hlen _

/-- A symbol of one file with declarations in another one: one of them starts behind the end of the
text and one is no node.  The diagnostics are of that file, of no file of the program, and of none. -/
theorem answer_leads_back_across_files :
    let steps : List Step := [.addFile "/a.ts" "f", .addFile "/b.ts" "x\r\n😀y",
      .addNode ⟨1⟩ "Parameter" ⟨0, 99, 99⟩, .addNode ⟨1⟩ "FunctionDeclaration" ⟨0, 5, 6⟩,
      .addSymbol "f" 0, .declare ⟨0⟩ ⟨2⟩, .declare ⟨0⟩ ⟨7⟩, .declare ⟨0⟩ ⟨3⟩, .bind ⟨0⟩ ⟨0⟩,
      .addDiagnostic "/a.ts" (.error "/b.ts" 5 1 "no" 1),
      .addDiagnostic "/a.ts" (.error "/c.ts" 0 1 "no" 2),
      .addDiagnostic "/a.ts" (.unanchored .warning "no" 3)]
    (empty.layOut steps).NamedApart ∧ (empty.layOut steps).Addressable ∧
    ∃ r, (empty.layOut steps).checker.answer "/a.ts" none (.position 1 2) {} = .ok r ∧
      r.LeadsBack (empty.layOut steps) {} ∧
      r.facts.declarations.map (fun d => (d.file, d.line, d.column)) =
        [("/b.ts", 2, 4), ("/b.ts", 2, 3)] ∧
      r.diagnostics.map (·.place) = [some ⟨"/b.ts", 2, 3⟩, none, none] := by
  intro steps
  have hnames : (empty.layOut steps).NamedApart :=
    show (_ : List String).Nodup by decide +kernel
  have hlen : (empty.layOut steps).Addressable :=
    show ∀ f ∈ (empty.layOut steps).files, _ by decide +kernel
  have hroot : (empty.layOut steps).checker.root? "/a.ts" = some ⟨0⟩ := by decide +kernel
  have htext : (empty.layOut steps).checker.text? "/a.ts" = some "f" := by decide +kernel
  have hres : (empty.layOut steps).checker.resolve "/a.ts" "f" (.position 1 2) =
    .ok ⟨1, 1, 2, ""⟩ := by decide +kernel
  have hanswer : (empty.layOut steps).checker.answer "/a.ts" none (.position 1 2) {} = .ok _ :=
    answer_eq_ok_iff.mpr ⟨_, _, _, hroot, htext, hres, rfl⟩
  exact ⟨hnames, hlen, _, hanswer,
    (answer_leads_back steps hnames hlen "/a.ts" none _ {} _ hanswer).2,
    by decide +kernel, by decide +kernel⟩

end Program

end TypeQuery
