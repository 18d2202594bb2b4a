import Mathlib.Data.List.Basic
import Mathlib.Data.List.Find
import TypeQuery.Answer
import TypeQuery.Proofs.Checker.Locate

/-!
# TypeQuery.Proofs.Checker.Region

What an answer depends on.  The checker is asked about a file, and then only
about what its earlier answers name.  A *region* of a program is some of its
files, nodes, types, symbols and signatures, and it is closed when no answer
leads out of it:

```
file    →  its root, and the files that its diagnostics point into
node    →  its file, children, type and symbol
type    →  its symbol, members, properties, signatures, and the type without null
symbol  →  its declarations and its type
```

So two checkers that agree on a closed region give the same answers for its
files, whatever else the one or the other knows about.

* `Region.Closed` — nothing in the region leads out of it;
* `Region.Agree` — two checkers say the same about everything in the region;
* `Agree.locate_eq`, `Agree.facts_eq`, `Agree.report_eq` — the parts of an answer;
* `Agree.answer_eq` — the answers are the same.
-/

namespace TypeQuery

/-- Some of the files, nodes, types, symbols and signatures of a program. -/
structure Region where
  file : String → Prop
  node : NodeId → Prop
  type : TypeId → Prop
  symbol : SymbolId → Prop
  signature : SignatureId → Prop

namespace Region

/-- What a checker says about things of the region names only things of the region. -/
structure Closed (w : Region) (c : Checker) : Prop where
  root : ∀ f n, w.file f → c.root? f = some n → w.node n
  anchor : ∀ f d g, w.file f → d ∈ c.diagnostics f → d.file = some g → w.file g
  fileOf : ∀ n f, w.node n → c.fileOf? n = some f → w.file f
  child : ∀ n m, w.node n → m ∈ c.children n → w.node m
  typeOf : ∀ n, w.node n → w.type (c.typeOf n)
  symbolAt : ∀ n s, w.node n → c.symbolAt? n = some s → w.symbol s
  typeSymbol : ∀ t s, w.type t → c.typeSymbol? t = some s → w.symbol s
  nonNullable : ∀ t, w.type t → w.type (c.nonNullable t)
  unionMember : ∀ t us u, w.type t → c.unionMembers? t = some us → u ∈ us → w.type u
  property : ∀ t s, w.type t → s ∈ c.properties t → w.symbol s
  signature : ∀ t k s, w.type t → s ∈ c.signatures t k → w.signature s
  declaration : ∀ s n, w.symbol s → n ∈ c.declarations s → w.node n
  valueDeclaration : ∀ s n, w.symbol s → c.valueDeclaration? s = some n → w.node n
  symbolType : ∀ s n, w.symbol s → w.node n → w.type (c.symbolType s n)

/-- Both checkers say the same about everything in the region. They may count more nodes. -/
structure Agree (w : Region) (c d : Checker) : Prop where
  root? : ∀ f, w.file f → d.root? f = c.root? f
  text? : ∀ f, w.file f → d.text? f = c.text? f
  offsetOf? : ∀ f, w.file f → d.offsetOf? f = c.offsetOf? f
  positionOf? : ∀ f, w.file f → d.positionOf? f = c.positionOf? f
  diagnostics : ∀ f, w.file f → d.diagnostics f = c.diagnostics f
  fileOf? : ∀ n, w.node n → d.fileOf? n = c.fileOf? n
  span? : ∀ n, w.node n → d.span? n = c.span? n
  kind : ∀ n, w.node n → d.kind n = c.kind n
  children : ∀ n, w.node n → d.children n = c.children n
  nodeText? : ∀ n, w.node n → d.nodeText? n = c.nodeText? n
  typeOf : ∀ n, w.node n → d.typeOf n = c.typeOf n
  symbolAt? : ∀ n, w.node n → d.symbolAt? n = c.symbolAt? n
  typeText : ∀ t n, w.type t → w.node n → d.typeText t n = c.typeText t n
  typeFlags : ∀ t, w.type t → d.typeFlags t = c.typeFlags t
  typeSymbol? : ∀ t, w.type t → d.typeSymbol? t = c.typeSymbol? t
  nonNullable : ∀ t, w.type t → d.nonNullable t = c.nonNullable t
  unionMembers? : ∀ t, w.type t → d.unionMembers? t = c.unionMembers? t
  properties : ∀ t, w.type t → d.properties t = c.properties t
  signatures : ∀ t, w.type t → d.signatures t = c.signatures t
  symbolName : ∀ s, w.symbol s → d.symbolName s = c.symbolName s
  symbolFlags : ∀ s, w.symbol s → d.symbolFlags s = c.symbolFlags s
  isOptional : ∀ s, w.symbol s → d.isOptional s = c.isOptional s
  declarations : ∀ s, w.symbol s → d.declarations s = c.declarations s
  valueDeclaration? : ∀ s, w.symbol s → d.valueDeclaration? s = c.valueDeclaration? s
  symbolType : ∀ s n, w.symbol s → w.node n → d.symbolType s n = c.symbolType s n
  signatureText : ∀ s n, w.signature s → w.node n → d.signatureText s n = c.signatureText s n
  typeFlagTable : d.typeFlagTable = c.typeFlagTable
  symbolFlagTable : d.symbolFlagTable = c.symbolFlagTable

/-! ## what is reached from a closed region -/

namespace Closed

variable {w : Region} {c : Checker} (hw : w.Closed c)
include hw

/-- The search for an offset stays inside. -/
theorem locate {offset : Nat} {n m : NodeId} (hn : w.node n) (h : c.Search offset n m) :
    w.node m := by
  induction h with
  | found => exact hn
  | down hchild _ ih => exact ih (hw.child _ _ hn (Checker.mem_children_of_childAt? hchild).1)

theorem memberType {t u : TypeId} (ht : w.type t) (hu : u ∈ c.memberTypes t) : w.type u := by
  unfold Checker.memberTypes at hu
  cases hmembers : c.unionMembers? t with
  | some us =>
      rw [hmembers] at hu
      exact hw.unionMember t us u ht hmembers hu
  | none =>
      rw [hmembers] at hu
      rwa [List.mem_singleton.mp hu]

theorem propertyNamed {t : TypeId} {name : String} {s : SymbolId} (ht : w.type t)
    (h : c.propertyNamed? name t = some s) : w.symbol s :=
  hw.property t s ht (List.mem_of_find?_eq_some h)

theorem propertySite {node : NodeId} {s : SymbolId} (hnode : w.node node) (hs : w.symbol s) :
    w.node (c.propertySite node s) := by
  unfold Checker.propertySite
  cases hvalue : c.valueDeclaration? s with
  | some n => exact hw.valueDeclaration s n hs hvalue
  | none =>
      cases hdeclared : c.declarations s with
      | nil => exact hnode
      | cons n ns =>
          have hmem : n ∈ c.declarations s := by
            rw [hdeclared]
            exact List.mem_cons_self
          exact hw.declaration s n hs hmem

theorem symbolOf {n : NodeId} {s : SymbolId} (hn : w.node n) (h : c.symbolOf? n = some s) :
    w.symbol s := by
  unfold Checker.symbolOf? at h
  cases hbound : c.symbolAt? n with
  | some r =>
      rw [hbound] at h
      obtain rfl := Option.some.inj h
      exact hw.symbolAt n r hn hbound
  | none =>
      rw [hbound] at h
      exact hw.typeSymbol _ s (hw.typeOf n hn) h

end Closed

/-! ## the parts of an answer -/

namespace Agree

variable {w : Region} {c d : Checker} (h : w.Agree c d)
include h

/-! Places in a file depend on nothing but the file. -/

theorem resolveSpan_eq {file : String} (hfile : w.file file) :
    d.resolveSpan file = c.resolveSpan file := by
  funext text span
  unfold Checker.resolveSpan
  rw [h.positionOf? file hfile]

theorem resolve_eq {file : String} (hfile : w.file file) (text : String) (target : Target) :
    d.resolve file text target = c.resolve file text target := by
  cases target with
  | position line column =>
      unfold Checker.resolve Checker.resolvePosition
      rw [h.offsetOf? file hfile]
  | pattern pattern flags index =>
      unfold Checker.resolve Checker.resolvePattern
      rw [h.resolveSpan_eq hfile]

theorem declaration?_eq (hw : w.Closed c) (bound : Nat) {n : NodeId} (hn : w.node n) :
    d.declaration? bound n = c.declaration? bound n := by
  unfold Checker.declaration?
  rw [h.fileOf? n hn, h.span? n hn, h.kind n hn, h.nodeText? n hn]
  refine Option.bind_congr fun file hfile => ?_
  rw [h.positionOf? file (hw.fileOf n file hn hfile)]

theorem summarize_eq {e : Diagnostic} (he : ∀ g, e.file = some g → w.file g) :
    d.summarize e = c.summarize e := by
  have hplace : d.placeOf? e = c.placeOf? e := by
    unfold Checker.placeOf?
    refine Option.bind_congr fun g hg => ?_
    rw [h.positionOf? g (he g hg)]
  unfold Checker.summarize
  rw [hplace]

theorem report_eq (hw : w.Closed c) {file : String} (hfile : w.file file) :
    d.report file = c.report file := by
  unfold Checker.report
  rw [h.diagnostics file hfile]
  exact List.map_congr_left fun e he => h.summarize_eq fun g => hw.anchor file e g hfile he

/-! The search goes down the same children. -/

theorem childAt?_eq (hw : w.Closed c) {n : NodeId} (hn : w.node n) (offset : Nat) :
    d.childAt? n offset = c.childAt? n offset := by
  unfold Checker.childAt?
  rw [h.children n hn]
  exact List.find?_congr fun m hm => by rw [h.span? m (hw.child n m hn hm)]

theorem search (hw : w.Closed c) {offset : Nat} {n m : NodeId} (hn : w.node n)
    (hm : c.Search offset n m) : d.Search offset n m := by
  induction hm with
  | found hnone => exact .found ((h.childAt?_eq hw hn offset).trans hnone)
  | down hchild _ ih =>
      have hin := hw.child _ _ hn (Checker.mem_children_of_childAt? hchild).1
      exact .down ((h.childAt?_eq hw hn offset).trans hchild) (ih hin)

/-- The bounds on the levels of the two searches may differ, but both are enough. -/
theorem locate_eq (hw : w.Closed c) (hc : c.Ordered) (hd : d.Ordered) {n : NodeId} (hn : w.node n)
    (offset : Nat) : d.locate n offset = c.locate n offset :=
  (hd.search_locate n offset).unique (h.search hw hn (hc.search_locate n offset))

/-! Facts about a node. -/

theorem signatureFacts_eq (hw : w.Closed c) {node : NodeId} {t : TypeId} (hnode : w.node node)
    (ht : w.type t) (limit : Nat) (kind : SignatureKind) :
    d.signatureFacts node t limit kind = c.signatureFacts node t limit kind := by
  have htext : ∀ s ∈ (c.signatures t kind).take limit,
      d.signatureText s node = c.signatureText s node := fun s hs =>
    h.signatureText s node (hw.signature t kind s ht (List.mem_of_mem_take hs)) hnode
  unfold Checker.signatureFacts
  rw [h.signatures t ht]
  exact List.map_congr_left fun s hs => by rw [htext s hs]

theorem memberTypes_eq {t : TypeId} (ht : w.type t) : d.memberTypes t = c.memberTypes t := by
  unfold Checker.memberTypes
  rw [h.unionMembers? t ht]

theorem propertyNamed?_eq (hw : w.Closed c) {t : TypeId} (ht : w.type t) (name : String) :
    d.propertyNamed? name t = c.propertyNamed? name t := by
  unfold Checker.propertyNamed?
  rw [h.properties t ht]
  exact List.find?_congr fun s hs => by rw [h.symbolName s (hw.property t s ht hs)]

theorem propertyNames_eq (hw : w.Closed c) {ts : List TypeId} (hts : ∀ t ∈ ts, w.type t) :
    d.propertyNames ts = c.propertyNames ts := by
  have hnames : ∀ t ∈ ts,
      (d.properties t).map d.symbolName = (c.properties t).map c.symbolName := by
    intro t ht
    rw [h.properties t (hts t ht)]
    exact List.map_congr_left fun s hs => h.symbolName s (hw.property t s (hts t ht) hs)
  unfold Checker.propertyNames
  rw [List.flatMap_congr hnames]

theorem any_isOptional_eq {entries : List (Option SymbolId)}
    (hin : ∀ e ∈ entries, ∀ s, e = some s → w.symbol s) :
    entries.any (·.any d.isOptional) = entries.any (·.any c.isOptional) := by
  have hmap : entries.map (·.any d.isOptional) = entries.map (·.any c.isOptional) := by
    refine List.map_congr_left fun e he => ?_
    cases e with
    | none => rfl
    | some s => exact h.isOptional s (hin _ he s rfl)
  simpa only [List.any_map, Function.id_comp] using congrArg (List.any · id) hmap

theorem propertySite_eq {s : SymbolId} (hs : w.symbol s) (node : NodeId) :
    d.propertySite node s = c.propertySite node s := by
  unfold Checker.propertySite
  rw [h.valueDeclaration? s hs, h.declarations s hs]

theorem property?_eq (hw : w.Closed c) {node : NodeId} {t : TypeId} (hnode : w.node node)
    (ht : w.type t) (name : String) : d.property? node t name = c.property? node t name := by
  have hmembers : ∀ u ∈ c.memberTypes t, w.type u := fun u hu => hw.memberType ht hu
  have hentries : (d.memberTypes t).map (d.propertyNamed? name) =
      (c.memberTypes t).map (c.propertyNamed? name) := by
    rw [h.memberTypes_eq ht]
    exact List.map_congr_left fun u hu => h.propertyNamed?_eq hw (hmembers u hu) name
  have hin : ∀ e ∈ (c.memberTypes t).map (c.propertyNamed? name), ∀ s, e = some s →
      w.symbol s := by
    intro e he s hs
    obtain ⟨u, hu, rfl⟩ := List.mem_map.mp he
    exact hw.propertyNamed (hmembers u hu) hs
  unfold Checker.property?
  dsimp only
  rw [hentries, h.any_isOptional_eq hin, h.unionMembers? t ht]
  refine Option.bind_congr fun s hs => ?_
  -- the first entry is one of the entries
  obtain ⟨e, he, hsome⟩ := List.exists_of_findSome?_eq_some hs
  have hsymbol := hin e he s hsome
  have hsite := hw.propertySite hnode hsymbol
  rw [h.propertySite_eq hsymbol, h.symbolType s _ hsymbol hsite,
    h.typeText _ _ (hw.symbolType s _ hsymbol hsite) hsite]

theorem propertyFacts_eq (hw : w.Closed c) {node : NodeId} {t : TypeId} (hnode : w.node node)
    (ht : w.type t) (limit : Nat) :
    d.propertyFacts node t limit = c.propertyFacts node t limit := by
  have hproper := hw.nonNullable t ht
  unfold Checker.propertyFacts
  dsimp only
  rw [h.nonNullable t ht, h.memberTypes_eq hproper,
    h.propertyNames_eq hw fun u hu => hw.memberType hproper hu]
  exact List.filterMap_congr fun name _ => h.property?_eq hw hnode hproper name

theorem declarationFacts_eq (hw : w.Closed c) {s : SymbolId} (hs : w.symbol s) (limits : Limits) :
    d.declarationFacts s limits = c.declarationFacts s limits := by
  have hin : ∀ n ∈ (c.declarations s).take limits.declarations, w.node n := fun n hn =>
    hw.declaration s n hs (List.mem_of_mem_take hn)
  unfold Checker.declarationFacts
  rw [h.declarations s hs]
  exact List.filterMap_congr fun n hn => h.declaration?_eq hw limits.snippet (hin n hn)

theorem symbolOf?_eq (hw : w.Closed c) {n : NodeId} (hn : w.node n) :
    d.symbolOf? n = c.symbolOf? n := by
  unfold Checker.symbolOf?
  rw [h.symbolAt? n hn, h.typeOf n hn, h.typeSymbol? _ (hw.typeOf n hn)]

theorem facts_eq (hw : w.Closed c) {node : NodeId} (hnode : w.node node) (limits : Limits) :
    d.facts node limits = c.facts node limits := by
  have ht := hw.typeOf node hnode
  have hsummary : (c.symbolOf? node).map (fun s => SymbolSummary.mk (d.symbolName s)
        (Flags.summarize (d.symbolFlags s) d.symbolFlagTable)) =
      (c.symbolOf? node).map fun s => ⟨c.symbolName s,
        Flags.summarize (c.symbolFlags s) c.symbolFlagTable⟩ := by
    refine Option.map_congr fun s hs => ?_
    have hsymbol := hw.symbolOf hnode hs
    rw [h.symbolName s hsymbol, h.symbolFlags s hsymbol, h.symbolFlagTable]
  have hdeclarations : (c.symbolOf? node).map (d.declarationFacts · limits) =
      (c.symbolOf? node).map (c.declarationFacts · limits) :=
    Option.map_congr fun s hs => h.declarationFacts_eq hw (hw.symbolOf hnode hs) limits
  unfold Checker.facts
  dsimp only
  rw [h.symbolOf?_eq hw hnode, hsummary, hdeclarations, h.typeOf node hnode,
    h.typeText _ node ht hnode, h.typeFlags _ ht, h.typeFlagTable,
    h.signatureFacts_eq hw hnode ht, h.signatureFacts_eq hw hnode ht,
    h.propertyFacts_eq hw hnode ht]

/-! ## the answer -/

/-- **An answer depends on a closed region only**: two checkers that agree on a closed region, and
whose children come after their parents, give the same answer to every target in a file of the
region, for every project and all options. -/
theorem answer_eq (hw : w.Closed c) (hc : c.Ordered) (hd : d.Ordered) {file : String}
    (hfile : w.file file) (project : Option String) (target : Target) (options : Options) :
    d.answer file project target options = c.answer file project target options := by
  unfold Checker.answer
  rw [h.root? file hfile, h.text? file hfile]
  cases hroot : c.root? file with
  | none => rfl
  | some root =>
      cases c.text? file with
      | none => rfl
      | some text =>
          have hin := hw.root file root hfile hroot
          dsimp only
          rw [h.resolve_eq hfile, h.report_eq hw hfile]
          cases c.resolve file text target with
          | error fault => rfl
          | ok location =>
              have hnode := hw.locate hin (hc.search_locate root location.offset)
              simp only [Except.mapError, bind, Except.bind]
              rw [h.locate_eq hw hc hd hin, h.kind _ hnode, h.facts_eq hw hnode]

end Agree

end Region

end TypeQuery
