import TypeQuery.Proofs.Json.Printing
import TypeQuery.Record

/-!
# TypeQuery.Proofs.Query.Rendering

A rendered record says all that the record says.  Two steps lie between a record
and its text, and neither of them loses anything:

```
Record  --toJson-->  Json  --compact, pretty-->  String
        injective          read back by Json.parse
```

A field without a value is left out, so the fields after it move up; that one was
left out shows in the key that stands in its place.

* `Record.InRange` — a record whose numbers have 32 bits;
* `Record.toJson_injective` — no two records have the same JSON value;
* `Record.render_faithful` — no two records have the same text, and either layout
  is strict JSON for the same value.
-/

namespace TypeQuery

open Json (Fits IsStrictJson)

/-! ## records as values -/

/-- A field that may be left out, in front of fields of other names. -/
theorem Json.optionalField_append_inj {α : Type} {name : String} {toJson : α → Json}
    {a b : Option α} {fs gs : List (String × Json)} (hinj : Function.Injective toJson)
    (hfs : ∀ f ∈ fs.head?, f.1 ≠ name) (hgs : ∀ g ∈ gs.head?, g.1 ≠ name)
    (h : Json.optionalField name toJson a ++ fs = Json.optionalField name toJson b ++ gs) :
    a = b ∧ fs = gs := by
  cases a with
  | none =>
    cases b with
    | none => exact ⟨rfl, h⟩
    | some b =>
      have hhead : fs = (name, toJson b) :: gs := h
      exact absurd rfl (hfs (name, toJson b) (by rw [hhead]; rfl))
  | some a =>
    cases b with
    | none =>
      have hhead : (name, toJson a) :: fs = gs := h
      exact absurd rfl (hgs (name, toJson a) (by rw [← hhead]; rfl))
    | some b =>
      obtain ⟨hfield, hrest⟩ := List.cons.inj h
      exact ⟨congrArg some (hinj (Prod.mk.inj hfield).2), hrest⟩

theorem Json.optionalField_injective {α : Type} {name : String} {toJson : α → Json}
    (h : Function.Injective toJson) : Function.Injective (Json.optionalField name toJson) := by
  intro a b heq
  have hends : Json.optionalField name toJson a ++ [] = Json.optionalField name toJson b ++ [] := by
    rw [heq]
  exact (Json.optionalField_append_inj h (by simp) (by simp) hends).1

theorem Json.text_injective : Function.Injective Json.text :=
  fun _ _ h => Json.text.inj h

theorem Json.nat_injective : Function.Injective Json.nat := by
  intro m n h
  have hint : (m : Int) = n := JsonNumber.integer.inj (Json.number.inj h)
  exact Int.ofNat.inj hint

@[simp] theorem Json.nat_inj {m n : Nat} : Json.nat m = Json.nat n ↔ m = n :=
  Json.nat_injective.eq_iff

theorem SignatureKind.label_injective : Function.Injective SignatureKind.label := by
  intro k l h
  cases k <;> cases l <;> first | rfl | exact absurd h (by decide)

theorem FlagSummary.toJson_injective : Function.Injective FlagSummary.toJson := by
  rintro ⟨mask, names⟩ ⟨mask', names'⟩ h
  simpa [FlagSummary.toJson, UInt32.toNat_inj, List.map_inj_right, Json.text_injective.eq_iff]
    using h

theorem SymbolSummary.toJson_injective : Function.Injective SymbolSummary.toJson := by
  rintro ⟨name, flags⟩ ⟨name', flags'⟩ h
  simpa [SymbolSummary.toJson, FlagSummary.toJson_injective.eq_iff] using h

theorem SignatureSummary.toJson_injective : Function.Injective SignatureSummary.toJson := by
  rintro ⟨kind, text⟩ ⟨kind', text'⟩ h
  simpa [SignatureSummary.toJson, SignatureKind.label_injective.eq_iff] using h

theorem PropertySummary.toJson_injective : Function.Injective PropertySummary.toJson := by
  rintro ⟨name, typeText, optional⟩ ⟨name', typeText', optional'⟩ h
  simpa [PropertySummary.toJson] using h

theorem DeclarationSummary.toJson_injective : Function.Injective DeclarationSummary.toJson := by
  rintro ⟨file, line, column, kind, snippet⟩ ⟨file', line', column', kind', snippet'⟩ h
  simpa [DeclarationSummary.toJson] using h

theorem DiagnosticSummary.toJson_injective : Function.Injective DiagnosticSummary.toJson := by
  rintro ⟨category, code, message, file, line, column⟩
    ⟨category', code', message', file', line', column'⟩ h
  have afterFile (line column : Option Nat) : ∀ f ∈ (Json.optionalField "line" Json.nat line ++
      Json.optionalField "column" Json.nat column).head?, f.1 ≠ "file" := by
    cases line <;> cases column <;> simp [Json.optionalField]
  have afterLine (column : Option Nat) :
      ∀ f ∈ (Json.optionalField "column" Json.nat column).head?, f.1 ≠ "line" := by
    cases column <;> simp [Json.optionalField]
  simp only [DiagnosticSummary.toJson, Json.object.injEq, List.cons_append, List.nil_append,
    List.append_assoc, List.cons.injEq, Prod.mk.injEq, true_and, Json.text.injEq, Json.nat_inj] at h
  obtain ⟨rfl, rfl, rfl, hplace⟩ := h
  obtain ⟨rfl, hline⟩ := Json.optionalField_append_inj Json.text_injective (afterFile line column)
    (afterFile line' column') hplace
  obtain ⟨rfl, hcolumn⟩ := Json.optionalField_append_inj Json.nat_injective (afterLine column)
    (afterLine column') hline
  obtain rfl := Json.optionalField_injective Json.nat_injective hcolumn
  rfl

/-- The line, column and offset of a location say where it is. -/
theorem Record.positionJson_inj {l m : Location} (h : positionJson l = positionJson m) :
    l.line = m.line ∧ l.column = m.column ∧ l.offset = m.offset := by
  simpa [positionJson] using h

/-- No two records have the same JSON value. -/
theorem Record.toJson_injective : Function.Injective Record.toJson := by
  rintro ⟨file, project, ⟨offset, line, column, matched⟩, kind,
      ⟨typeText, flags, symbol, signatures, properties, declarations⟩, diagnostics⟩
    ⟨file', project', ⟨offset', line', column', matched'⟩, kind',
      ⟨typeText', flags', symbol', signatures', properties', declarations'⟩, diagnostics'⟩ h
  simp only [Record.toJson, Json.object.injEq, List.cons_append, List.nil_append,
    List.append_assoc, List.cons.injEq, Prod.mk.injEq, true_and, Json.text.injEq] at h
  obtain ⟨rfl, hproject⟩ := h
  obtain ⟨rfl, hfields⟩ :=
    Json.optionalField_append_inj Json.text_injective (by simp) (by simp) hproject
  simp only [List.cons.injEq, Prod.mk.injEq, true_and, Json.text.injEq] at hfields
  obtain ⟨hposition, rfl, rfl, rfl, hflags, hsymbol⟩ := hfields
  obtain ⟨rfl, rfl, rfl⟩ := Record.positionJson_inj hposition
  obtain rfl := FlagSummary.toJson_injective hflags
  obtain ⟨rfl, hlists⟩ := Json.optionalField_append_inj SymbolSummary.toJson_injective (by simp)
    (by simp) hsymbol
  simp only [List.cons.injEq, Prod.mk.injEq, true_and, and_true, Json.list.injEq,
    List.map_inj_right SignatureSummary.toJson_injective,
    List.map_inj_right PropertySummary.toJson_injective,
    List.map_inj_right DeclarationSummary.toJson_injective,
    List.map_inj_right DiagnosticSummary.toJson_injective] at hlists
  obtain ⟨rfl, rfl, rfl, rfl⟩ := hlists
  rfl

/-! ## records within the range of numbers -/

/-- A record whose numbers have 32 bits. -/
structure Record.InRange (r : Record) : Prop where
  line : r.location.line < 2 ^ 32
  column : r.location.column < 2 ^ 32
  offset : r.location.offset < 2 ^ 32
  declarations : ∀ d ∈ r.facts.declarations, d.line < 2 ^ 32 ∧ d.column < 2 ^ 32
  codes : ∀ d ∈ r.diagnostics, d.code < 2 ^ 32
  places : ∀ d ∈ r.diagnostics, (∀ l ∈ d.line, l < 2 ^ 32) ∧ ∀ c ∈ d.column, c < 2 ^ 32

theorem Json.fits_nat {n depth : Nat} (h : n < 2 ^ 32) : Fits (depth + 1) (Json.nat n) :=
  .nat (Nat.lt_trans h (by decide))

theorem Json.fits_list_map {α : Type} {toJson : α → Json} {as : List α} {depth : Nat}
    (h : ∀ a ∈ as, Fits (depth + 1) (toJson a)) : Fits (depth + 2) (.list (as.map toJson)) := by
  refine .list fun v hv => ?_
  obtain ⟨a, ha, rfl⟩ := List.mem_map.mp hv
  exact h a ha

/-- A field that may be left out fits if its value does. -/
theorem Json.fits_of_mem_optionalField {α : Type} {name : String} {toJson : α → Json}
    {a : Option α} {depth : Nat} (h : ∀ b ∈ a, Fits depth (toJson b)) :
    ∀ f ∈ Json.optionalField name toJson a, Fits depth f.2 := by
  cases a with
  | none => exact List.forall_mem_nil _
  | some a => simpa [Json.optionalField] using h a rfl

section Fits

variable {depth : Nat}

theorem FlagSummary.fits_toJson (s : FlagSummary) : Fits (depth + 3) s.toJson := by
  have hmask : s.mask.toNat < 2 ^ 32 := s.mask.toNat_lt
  have hnames : Fits (depth + 2) (.list (s.names.map .text)) :=
    Json.fits_list_map fun name _ => .text name
  exact .object (by simp [Json.fits_nat hmask, hnames])

theorem SymbolSummary.fits_toJson (s : SymbolSummary) : Fits (depth + 4) s.toJson :=
  .object (by simp [Fits.text, s.flags.fits_toJson])

theorem SignatureSummary.fits_toJson (s : SignatureSummary) : Fits (depth + 2) s.toJson :=
  .object (by simp [Fits.text])

theorem PropertySummary.fits_toJson (p : PropertySummary) : Fits (depth + 2) p.toJson :=
  .object (by simp [Fits.text, Fits.bool])

theorem DeclarationSummary.fits_toJson {d : DeclarationSummary} (hline : d.line < 2 ^ 32)
    (hcolumn : d.column < 2 ^ 32) : Fits (depth + 2) d.toJson :=
  .object (by simp [Fits.text, Json.fits_nat hline, Json.fits_nat hcolumn])

theorem DiagnosticSummary.fits_toJson {d : DiagnosticSummary} (hcode : d.code < 2 ^ 32)
    (hline : ∀ l ∈ d.line, l < 2 ^ 32) (hcolumn : ∀ c ∈ d.column, c < 2 ^ 32) :
    Fits (depth + 2) d.toJson := by
  have hfields : ∀ f ∈ [("category", Json.text d.category), ("code", Json.nat d.code),
      ("message", Json.text d.message)], Fits (depth + 1) f.2 := by
    simp [Fits.text, Json.fits_nat hcode]
  have hfile : ∀ f ∈ Json.optionalField "file" Json.text d.file, Fits (depth + 1) f.2 :=
    Json.fits_of_mem_optionalField fun file _ => .text file
  have hline : ∀ f ∈ Json.optionalField "line" Json.nat d.line, Fits (depth + 1) f.2 :=
    Json.fits_of_mem_optionalField fun l hl => Json.fits_nat (hline l hl)
  have hcolumn : ∀ f ∈ Json.optionalField "column" Json.nat d.column, Fits (depth + 1) f.2 :=
    Json.fits_of_mem_optionalField fun c hc => Json.fits_nat (hcolumn c hc)
  refine .object ?_
  simp only [List.forall_mem_append]
  exact ⟨⟨⟨hfields, hfile⟩, hline⟩, hcolumn⟩

/-- The value of a record is nested to few levels. -/
theorem Record.fits_toJson {r : Record} (hr : r.InRange) : Fits (depth + 5) r.toJson := by
  have hproject : ∀ f ∈ Json.optionalField "project" Json.text r.project, Fits (depth + 4) f.2 :=
    Json.fits_of_mem_optionalField fun project _ => .text project
  have hposition : Fits (depth + 4) (positionJson r.location) :=
    .object (by simp [Json.fits_nat hr.line, Json.fits_nat hr.column, Json.fits_nat hr.offset])
  have hsymbol : ∀ f ∈ Json.optionalField "symbol" SymbolSummary.toJson r.facts.symbol,
      Fits (depth + 4) f.2 :=
    Json.fits_of_mem_optionalField fun symbol _ => symbol.fits_toJson
  have hsignatures : Fits (depth + 4) (.list (r.facts.signatures.map SignatureSummary.toJson)) :=
    Json.fits_list_map fun s _ => s.fits_toJson
  have hproperties : Fits (depth + 4) (.list (r.facts.properties.map PropertySummary.toJson)) :=
    Json.fits_list_map fun p _ => p.fits_toJson
  have hdeclarations :
      Fits (depth + 4) (.list (r.facts.declarations.map DeclarationSummary.toJson)) :=
    Json.fits_list_map fun d hd =>
      DeclarationSummary.fits_toJson (hr.declarations d hd).1 (hr.declarations d hd).2
  have hdiagnostics : Fits (depth + 4) (.list (r.diagnostics.map DiagnosticSummary.toJson)) :=
    Json.fits_list_map fun d hd =>
      DiagnosticSummary.fits_toJson (hr.codes d hd) (hr.places d hd).1 (hr.places d hd).2
  have hflags : Fits (depth + 4) r.facts.typeFlags.toJson := r.facts.typeFlags.fits_toJson
  refine .object ?_
  simp only [List.forall_mem_append, List.forall_mem_cons]
  refine ⟨⟨⟨⟨.text r.file, hproject⟩, ?_⟩, hsymbol⟩, ?_⟩
  · simp [Fits.text, hposition, hflags]
  · simp [hsignatures, hproperties, hdeclarations, hdiagnostics]

end Fits

/-! ## rendered records -/

namespace Record

/-- Either layout reads as the value of the record. -/
theorem parse_render {r : Record} (hr : r.InRange) (l : Layout) :
    Json.parse (r.render l) = .ok r.toJson := by
  have hfits : Fits Json.Reader.depthLimit r.toJson := fits_toJson hr
  cases l with
  | compact =>
    rw [render, Json.parse, Json.compact, String.toList_ofList]
    exact Json.prints_compactChars.readText_eq hfits
  | pretty =>
    rw [render, Json.parse, Json.pretty, String.toList_ofList]
    exact Json.prints_prettyChars.readText_eq hfits

/-- **A rendered record is read back in full**: two records with the same text are the same record,
whichever layouts the text is in; in either layout the text is strict JSON, and it reads as the one
value that the record stands for; and the compact layout is a single line. -/
theorem render_faithful {r : Record} (hr : r.InRange) :
    (∀ s : Record, s.InRange → ∀ l m : Layout, r.render l = s.render m → r = s) ∧
    (∀ l : Layout, IsStrictJson (r.render l).toList ∧ Json.parse (r.render l) = .ok r.toJson) ∧
    '\n' ∉ (r.render .compact).toList := by
  have hfits : Fits Json.Reader.depthLimit r.toJson := fits_toJson hr
  refine ⟨fun s hs l m h => ?_, fun l => ⟨?_, parse_render hr l⟩, ?_⟩
  · have hvalue : (.ok r.toJson : Except Json.Fault Json) = .ok s.toJson := by
      rw [← parse_render hr l, ← parse_render hs m, h]
    exact toJson_injective (Except.ok.inj hvalue)
  · exact Json.Reader.isStrictJson_of_readText (Json.Reader.readsValue_value _) (parse_render hr l)
  · rw [render, Json.compact, String.toList_ofList]
    exact Json.prints_compactChars.newline_not_mem (fun _ => List.not_mem_nil) List.not_mem_nil
      hfits 0

/-- A record with escapes of every kind, without a project and with a diagnostic that has no
place. -/
def escaped : Record where
  file := "/a.ts"
  project := none
  location := ⟨2, 1, 3, "\x00\"\\\n\t\x1f"⟩
  nodeKind := "Identifier"
  facts :=
    { typeText := "\"\u2028𝒳\""
      typeFlags := ⟨1, ["Any"]⟩
      symbol := none
      signatures := [⟨.call, "(): void"⟩]
      properties := [⟨"", "\x00", true⟩]
      declarations := [⟨"/b.ts", 1, 4294967295, "Parameter", "x"⟩] }
  diagnostics := [⟨"error", 4294967295, "\n  ", none, none, none⟩]

theorem render_faithful_escaped :
    '\n' ∉ (escaped.render .compact).toList ∧
      Json.parse (escaped.render .pretty) = .ok escaped.toJson ∧
      escaped.render .pretty ≠ Record.render { escaped with project := some "" } .pretty := by
  have hrange : escaped.InRange :=
    ⟨by decide, by decide, by decide, by decide, by decide, by decide⟩
  have hother : Record.InRange { escaped with project := some "" } :=
    ⟨by decide, by decide, by decide, by decide, by decide, by decide⟩
  have hfaithful := render_faithful hrange
  refine ⟨hfaithful.2.2, (hfaithful.2.1 .pretty).2, fun h => ?_⟩
  exact absurd (hfaithful.1 _ hother .pretty .pretty h) (by decide)

end Record

end TypeQuery
