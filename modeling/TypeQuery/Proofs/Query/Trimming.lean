import TypeQuery.Proofs.Query.Answer

/-!
# TypeQuery.Proofs.Query.Trimming

What the options of a query can change.  A target is resolved before any option
is looked at, so options never decide whether there is an answer.  A limit cuts a
list behind its first entries, after the list was put in order, and what is left
out is left out at the very end:

```
properties     sort · · · take · · · look up · · ·┐
signatures          take of each kind · · · write ├ · · · omit
declarations        take · · · · · · · · look up ·┘
```

* `Limits.AtMost` — smaller counts, and snippets of one length;
* `Record.Trims` — what is left of a record;
* `answer_trims` — smaller limits and omissions leave just that.
-/

namespace TypeQuery

/-! ## what is left of a record -/

/-- No count is larger, and snippets are cut at the same length. -/
structure Limits.AtMost (a b : Limits) : Prop where
  signatures : a.signatures ≤ b.signatures
  properties : a.properties ≤ b.properties
  declarations : a.declarations ≤ b.declarations
  snippet : a.snippet = b.snippet

/-- The record with nothing in the four lists that options reach. -/
def Record.withoutLists (r : Record) : Record :=
  { r with
    diagnostics := []
    facts := { r.facts with signatures := [], properties := [], declarations := [] } }

namespace SignatureSummary

/-- The signatures of one kind. -/
def ofKind (kind : SignatureKind) (ss : List SignatureSummary) : List SignatureSummary :=
  ss.filter (·.kind = kind)

/-- Calls come before constructs. -/
def CallsFirst (ss : List SignatureSummary) : Prop :=
  ss = ofKind .call ss ++ ofKind .construct ss

end SignatureSummary

open SignatureSummary

/-- The record `r` is what is left of `s` when some lists are omitted and others are cut. -/
structure Record.Trims (omitted : Omissions) (r s : Record) : Prop where
  rest : r.withoutLists = s.withoutLists
  declarations : r.facts.declarations <+: s.facts.declarations
  properties : if omitted.properties then r.facts.properties = []
    else r.facts.properties <+: s.facts.properties
  signatures : if omitted.signatures then r.facts.signatures = []
    else ∀ kind, ofKind kind r.facts.signatures <+: ofKind kind s.facts.signatures
  callsFirst : CallsFirst r.facts.signatures ∧ CallsFirst s.facts.signatures
  diagnostics : r.diagnostics = if omitted.diagnostics then [] else s.diagnostics

namespace Checker

variable {c : Checker} {node : NodeId} {a b : Limits}

/-! ## signatures -/

theorem kind_of_mem_signatureFacts {t : TypeId} {limit : Nat} {kind : SignatureKind}
    {s : SignatureSummary} (h : s ∈ c.signatureFacts node t limit kind) : s.kind = kind := by
  obtain ⟨_, -, rfl⟩ := List.mem_map.mp h
  rfl

theorem ofKind_signatureFacts (c : Checker) (node : NodeId) (t : TypeId) (limit : Nat)
    (kind other : SignatureKind) : ofKind kind (c.signatureFacts node t limit other) =
      if other = kind then c.signatureFacts node t limit other else [] := by
  rw [ofKind]
  split
  · next he =>
      exact List.filter_eq_self.mpr fun s hs => by simp [kind_of_mem_signatureFacts hs, he]
  · next hne =>
      exact List.filter_eq_nil_iff.mpr fun s hs => by simp [kind_of_mem_signatureFacts hs, hne]

theorem ofKind_facts (c : Checker) (node : NodeId) (limits : Limits) (kind : SignatureKind) :
    ofKind kind (c.facts node limits).signatures =
      c.signatureFacts node (c.typeOf node) limits.signatures kind := by
  have happend : ofKind kind (c.facts node limits).signatures =
      ofKind kind (c.signatureFacts node (c.typeOf node) limits.signatures .call) ++
        ofKind kind (c.signatureFacts node (c.typeOf node) limits.signatures .construct) :=
    List.filter_append _ _
  rw [happend, ofKind_signatureFacts, ofKind_signatureFacts]
  cases kind <;> simp

theorem callsFirst_facts (c : Checker) (node : NodeId) (limits : Limits) :
    CallsFirst (c.facts node limits).signatures := by
  rw [CallsFirst, ofKind_facts, ofKind_facts]
  rfl

/-! ## smaller limits -/

theorem signatureFacts_prefix (h : a.AtMost b) (t : TypeId) (kind : SignatureKind) :
    c.signatureFacts node t a.signatures kind <+: c.signatureFacts node t b.signatures kind :=
  (List.take_prefix_take_left h.signatures).map _

theorem propertyFacts_prefix (h : a.AtMost b) (t : TypeId) :
    c.propertyFacts node t a.properties <+: c.propertyFacts node t b.properties :=
  (List.take_prefix_take_left h.properties).filterMap _

theorem declarationFacts_prefix (h : a.AtMost b) (s : SymbolId) :
    c.declarationFacts s a <+: c.declarationFacts s b := by
  rw [declarationFacts, declarationFacts, h.snippet]
  exact (List.take_prefix_take_left h.declarations).filterMap _

theorem facts_declarations_prefix (h : a.AtMost b) :
    (c.facts node a).declarations <+: (c.facts node b).declarations := by
  show ((c.symbolOf? node).map _).getD [] <+: ((c.symbolOf? node).map _).getD []
  cases c.symbolOf? node with
  | none => exact List.prefix_refl _
  | some s => exact declarationFacts_prefix h s

/-- Of a record that nothing is omitted from, smaller limits and omissions leave what they should. -/
theorem recordAt_trims {a b : Options} (h : a.limits.AtMost b.limits) (hb : b.omissions = {})
    (c : Checker) (file : String) (project : Option String) (root : NodeId) (location : Location) :
    (c.recordAt file project a root location).Trims a.omissions
      (c.recordAt file project b root location) := by
  have hcalls := callsFirst_facts c (c.locate root location.offset)
  have hkinds : ∀ kind,
      ofKind kind (c.facts (c.locate root location.offset) a.limits).signatures <+:
        ofKind kind (c.facts (c.locate root location.offset) b.limits).signatures := fun kind => by
    rw [ofKind_facts, ofKind_facts]
    exact signatureFacts_prefix h _ kind
  constructor
  · rfl
  · exact facts_declarations_prefix h
  · simp only [recordAt, Record.without, hb]
    split
    · rfl
    · exact propertyFacts_prefix h _
  · simp only [recordAt, Record.without, hb]
    split
    · rfl
    · exact hkinds
  · simp only [recordAt, Record.without, hb]
    refine ⟨?_, hcalls b.limits⟩
    split
    · rfl
    · exact hcalls a.limits
  · simp only [recordAt, Record.without, hb]
    rfl

/-! ## whole answers -/

/-- **Options only trim**: under any two options a query fails in the same way or has an answer, and
smaller limits and omissions leave of a full answer the first entries of its lists, or none. -/
theorem answer_trims (c : Checker) (file : String) (project : Option String) (target : Target)
    (a b : Options) :
    (∀ failure, c.answer file project target a = .error failure ↔
      c.answer file project target b = .error failure) ∧
    (a.limits.AtMost b.limits → b.omissions = {} →
      ∀ s, c.answer file project target b = .ok s →
        ∃ r, c.answer file project target a = .ok r ∧ r.Trims a.omissions s) := by
  cases hroot : c.root? file with
  | none => simp [answer, hroot]
  | some root =>
      cases htext : c.text? file with
      | none => simp [answer, hroot, htext]
      | some text =>
          rw [answer_of_text? hroot htext, answer_of_text? hroot htext]
          cases c.resolve file text target with
          | error fault => simp
          | ok location =>
              refine ⟨by simp, fun h hb s hs => ⟨_, rfl, ?_⟩⟩
              obtain rfl := Except.ok.inj hs
              exact recordAt_trims h hb c file project root location

/-- A call with signatures of both kinds, properties and declarations: of each kind of list the first
entry is left, and no diagnostics are. -/
theorem answer_trims_to_first_entries :
    let c := (Program.empty.layOut [.addFile "/t.ts" "f(); f", .addChild ⟨0⟩ "CallExpression" "f()",
      .addType "F" 0, .setNodeType ⟨1⟩ ⟨1⟩, .addSignature ⟨1⟩ .construct "new () => F",
      .addSignature ⟨1⟩ .call "() => F", .addSignature ⟨1⟩ .call "(x) => F",
      .addProperty ⟨1⟩ "b" ⟨0⟩ false, .addProperty ⟨1⟩ "a" ⟨0⟩ true, .addSymbol "f" 0,
      .declare ⟨2⟩ ⟨1⟩, .declare ⟨2⟩ ⟨0⟩, .bind ⟨1⟩ ⟨2⟩,
      .addDiagnostic "/t.ts" (.error "/t.ts" 0 1 "no" 1)]).checker
    let a : Options :=
      { limits := { signatures := 1, properties := 1, declarations := 1 }
        omissions := { diagnostics := true } }
    a.limits.AtMost ({} : Options).limits ∧
    ∃ r s, c.answer "/t.ts" none (.position 1 1) a = .ok r ∧
      c.answer "/t.ts" none (.position 1 1) {} = .ok s ∧ r.Trims a.omissions s ∧
      r.facts.signatures.map (·.text) = ["() => F", "new () => F"] ∧
      s.facts.signatures.map (·.text) = ["() => F", "(x) => F", "new () => F"] ∧
      r.facts.properties.map (·.name) = ["a"] ∧ s.facts.properties.map (·.name) = ["a", "b"] ∧
      r.facts.declarations.length = 1 ∧ s.facts.declarations.length = 2 ∧
      r.diagnostics.length = 0 ∧ s.diagnostics.length = 1 := by
  intro c a
  have hle : a.limits.AtMost ({} : Options).limits := ⟨by decide, by decide, by decide, rfl⟩
  have hroot : c.root? "/t.ts" = some ⟨0⟩ := by decide +kernel
  have htext : c.text? "/t.ts" = some "f(); f" := by decide +kernel
  have hres : c.resolve "/t.ts" "f(); f" (.position 1 1) = .ok ⟨0, 1, 1, ""⟩ := by decide +kernel
  have hrecord : ∀ options, c.answer "/t.ts" none (.position 1 1) options =
      .ok (c.recordAt "/t.ts" none options ⟨0⟩ ⟨0, 1, 1, ""⟩) := fun options =>
    answer_eq_ok_iff.mpr ⟨_, _, _, hroot, htext, hres, rfl⟩
  have hnode : c.locate ⟨0⟩ 0 = ⟨1⟩ := by decide +kernel
  -- the names are sorted before they are cut
  have hnames : c.propertyNames [⟨1⟩] = ["a", "b"] := by
    have hlisted : ([⟨1⟩] : List TypeId).flatMap (fun t => (c.properties t).map c.symbolName) =
      ["b", "a"] := by decide +kernel
    have hsorted : (["b", "a"].mergeSort fun a b => decide (a ≤ b)) = ["a", "b"] := by
      simp [List.mergeSort, List.MergeSort.Internal.splitInTwo]
    rw [propertyNames, hlisted, Text.sorted, hsorted]
    decide
  have hproperties : ∀ limit, c.propertyFacts ⟨1⟩ ⟨1⟩ limit =
      (["a", "b"].take limit).filterMap (c.property? ⟨1⟩ ⟨1⟩) := fun limit => by
    have hmembers : c.memberTypes (c.nonNullable ⟨1⟩) = [⟨1⟩] := by decide +kernel
    have htype : c.nonNullable ⟨1⟩ = ⟨1⟩ := by decide +kernel
    rw [propertyFacts, hmembers, htype, hnames]
  obtain ⟨r, hr, htrims⟩ :=
    (answer_trims c "/t.ts" none (.position 1 1) a {}).2 hle rfl _ (hrecord {})
  obtain rfl := Except.ok.inj (hr.symm.trans (hrecord a))
  refine ⟨hle, _, _, hr, hrecord {}, htrims, by decide +kernel, by decide +kernel, ?_, ?_,
    by decide +kernel, by decide +kernel, by decide +kernel, by decide +kernel⟩
  · show (c.propertyFacts (c.locate ⟨0⟩ 0) (c.typeOf (c.locate ⟨0⟩ 0)) 1).map (·.name) = _
    rw [hnode, show c.typeOf ⟨1⟩ = ⟨1⟩ by decide +kernel, hproperties]
    decide +kernel
  · show (c.propertyFacts (c.locate ⟨0⟩ 0) (c.typeOf (c.locate ⟨0⟩ 0)) _).map (·.name) = _
    rw [hnode, show c.typeOf ⟨1⟩ = ⟨1⟩ by decide +kernel, hproperties]
    decide +kernel

end Checker

end TypeQuery
