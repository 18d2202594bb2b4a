import Mathlib.Control.Monad.Basic
import TypeQuery.Answer
import TypeQuery.Proofs.Program.Files
import TypeQuery.Proofs.Text.LineMap
import TypeQuery.Proofs.Text.Utf16

/-!
# TypeQuery.Proofs.Query.Answer

How an answer depends on its target.  A target only decides on a location, and
everything else in the record is read off the offset of the location
(`recordAt`).  A match and the line and column it is reported at have the same
offset, so asking for the one or for the other gives one record, up to the text
that was matched.

* `answer_eq_ok_iff` — an answer is the record of the location of its target;
* `resolvePattern_eq_ok` — the location of a match is that of some span;
* `answer_position_of_answer_pattern` — pattern and position agree.
-/

namespace TypeQuery.Checker

/-! ## the stages of an answer -/

/-- The record of a location in a file with that root. -/
def recordAt (c : Checker) (file : String) (project : Option String) (options : Options)
    (root : NodeId) (location : Location) : Record :=
  Record.without
    { file := file
      project := project
      location := location
      nodeKind := c.kind (c.locate root location.offset)
      facts := c.facts (c.locate root location.offset) options.limits
      diagnostics := c.report file }
    options.omissions

/-- The answer of a file that is there: the target decides on the location alone. -/
theorem answer_of_text? {c : Checker} {file text : String} {root : NodeId}
    (hroot : c.root? file = some root) (htext : c.text? file = some text)
    (project : Option String) (target : Target) (options : Options) :
    c.answer file project target options =
      match c.resolve file text target with
      | .ok location => .ok (c.recordAt file project options root location)
      | .error fault => .error (.invalidQuery fault) := by
  unfold answer
  rw [hroot, htext]
  dsimp only
  cases c.resolve file text target <;> rfl

theorem answer_eq_ok_iff {c : Checker} {file : String} {project : Option String} {target : Target}
    {options : Options} {r : Record} :
    c.answer file project target options = .ok r ↔
      ∃ root text location, c.root? file = some root ∧ c.text? file = some text ∧
        c.resolve file text target = .ok location ∧
        r = c.recordAt file project options root location := by
  constructor
  · intro h
    cases hroot : c.root? file with
    | none => simp [answer, hroot] at h
    | some root =>
        cases htext : c.text? file with
        | none => simp [answer, hroot, htext] at h
        | some text =>
            rw [answer_of_text? hroot htext] at h
            cases hres : c.resolve file text target with
            | error fault => rw [hres] at h; contradiction
            | ok location =>
                rw [hres] at h
                exact ⟨root, text, location, rfl, rfl, hres, (Except.ok.inj h).symm⟩
  · rintro ⟨root, text, location, hroot, htext, hres, rfl⟩
    rw [answer_of_text? hroot htext, hres]

@[simp] theorem location_recordAt (c : Checker) (file : String) (project : Option String)
    (options : Options) (root : NodeId) (location : Location) :
    (c.recordAt file project options root location).location = location := rfl

/-! ## locations -/

/-- A pattern that is accepted is resolved by the match that is selected. -/
theorem resolvePattern_of_build {pattern : String} {flags : Option String} {m : Pattern.Matcher}
    (hb : Pattern.Matcher.build pattern (Query.globalFlags flags) = .ok m) (c : Checker)
    (file text : String) (index : Nat) :
    c.resolvePattern file text pattern flags index =
      match m.select text.toList.toArray index with
      | .error _ => .error .searchGaveUp
      | .ok (.only found) =>
        .error (.tooFewMatches pattern (Query.globalFlags flags) found file index)
      | .ok (.found s) => c.resolveSpan file text.toList s := by
  unfold resolvePattern
  dsimp only
  rw [hb]
  rfl

/-- The location of a match is that of a span of the text. -/
theorem resolvePattern_eq_ok {c : Checker} {file text pattern : String} {flags : Option String}
    {index : Nat} {location : Location}
    (h : c.resolvePattern file text pattern flags index = .ok location) :
    ∃ s, c.resolveSpan file text.toList s = .ok location := by
  cases hb : Pattern.Matcher.build pattern (Query.globalFlags flags) with
  | error fault =>
      unfold resolvePattern at h
      dsimp only at h
      rw [hb] at h
      contradiction
  | ok m =>
      rw [resolvePattern_of_build hb] at h
      split at h
      · contradiction
      · contradiction
      · next s _ => exact ⟨s, h⟩

/-- A place is named by the line and the column that it is reported at. -/
theorem resolvePosition_of_offsetOf? {c : Checker} {file : String} {p : Text.Position} {o : Nat}
    (h : c.offsetOf? file p = some o) :
    c.resolvePosition file (p.line + 1) (p.character + 1) =
      .ok ⟨o, p.line + 1, p.character + 1, ""⟩ := by
  rw [resolvePosition, if_neg (by omega)]
  simp only [Nat.add_sub_cancel]
  rw [h]

/-- In a program with the line maps of its texts, the line and column of a span lead back to its
offset. -/
theorem resolvePosition_of_resolveSpan {p : Program} (hp : p.Mapped) {file text : String}
    (htext : p.checker.text? file = some text)
    (hlen : Text.unitLength text.toList < Text.LineMap.offsetLimit) {s : Pattern.Span}
    {location : Location} (h : p.checker.resolveSpan file text.toList s = .ok location) :
    p.checker.resolvePosition file location.line location.column =
      .ok { location with matchedText := "" } := by
  rw [resolveSpan, hp.positionOf?_checker htext] at h
  obtain rfl := Except.ok.inj h
  apply resolvePosition_of_offsetOf?
  rw [hp.offsetOf?_checker htext]
  exact (Text.LineMap.offsetOf?_eq_some_iff (Text.LineMap.valid_ofText _) hlen _ _).mpr
    (Text.LineMap.stands_positionOf (Text.LineMap.valid_ofText _) (Text.unitLength_take_le _ _))

/-! ## patterns and positions -/

/-- **Patterns and positions agree**: whenever a pattern has an answer in a program that can be laid
out, the position in that answer has the same one, but for the text that was matched. -/
theorem answer_position_of_answer_pattern (steps : List Program.Step) (file : String)
    (hlen : ∀ text, (Program.empty.layOut steps).checker.text? file = some text →
      Text.unitLength text.toList < Text.LineMap.offsetLimit - 1)
    (project : Option String) (options : Options) (pattern : String) (flags : Option String)
    (index : Nat) (r : Record)
    (h : (Program.empty.layOut steps).checker.answer file project (.pattern pattern flags index)
      options = .ok r) :
    (Program.empty.layOut steps).checker.answer file project
        (.position r.location.line r.location.column) options =
      .ok { r with location := { r.location with matchedText := "" } } := by
  obtain ⟨root, text, location, hroot, htext, hres, rfl⟩ := answer_eq_ok_iff.mp h
  obtain ⟨s, hs⟩ := resolvePattern_eq_ok hres
  have hlimit : Text.unitLength text.toList < Text.LineMap.offsetLimit := by
    have := hlen text htext
    omega
  have hpos := resolvePosition_of_resolveSpan (Program.mapped_layOut steps) htext hlimit hs
  rw [location_recordAt, answer_of_text? hroot htext, resolve, hpos]
  rfl

/-- A match behind a line end of two characters and a character of two units. -/
theorem answer_position_of_answer_pattern_astral :
    ∃ r, (Program.empty.layOut [.addFile "/a.ts" "a\r\n😀b"]).checker.answer "/a.ts" none
        (.pattern "b" none 0) {} = .ok r ∧
      r.location = ⟨5, 2, 3, "b"⟩ ∧
      (Program.empty.layOut [.addFile "/a.ts" "a\r\n😀b"]).checker.answer "/a.ts" none
        (.position 2 3) {} = .ok { r with location := ⟨5, 2, 3, ""⟩ } := by
  have hres : (Program.empty.layOut [.addFile "/a.ts" "a\r\n😀b"]).checker.resolve "/a.ts"
      "a\r\n😀b" (.pattern "b" none 0) = .ok ⟨5, 2, 3, "b"⟩ := by decide +kernel
  have hlen : ∀ text, (Program.empty.layOut [.addFile "/a.ts" "a\r\n😀b"]).checker.text? "/a.ts" =
      some text → Text.unitLength text.toList < Text.LineMap.offsetLimit - 1 := fun text htext => by
    obtain rfl : "a\r\n😀b" = text := Option.some.inj htext
    decide
  obtain ⟨r, hr, hloc⟩ : ∃ r, (Program.empty.layOut [.addFile "/a.ts" "a\r\n😀b"]).checker.answer
      "/a.ts" none (.pattern "b" none 0) {} = .ok r ∧ r.location = ⟨5, 2, 3, "b"⟩ :=
    ⟨_, answer_eq_ok_iff.mpr ⟨⟨0⟩, _, _, rfl, rfl, hres, rfl⟩, rfl⟩
  have hagree := answer_position_of_answer_pattern _ _ hlen none {} "b" none 0 r hr
  rw [hloc] at hagree
  exact ⟨r, hr, hloc, hagree⟩

end TypeQuery.Checker
