import TypeQuery.Program.Step
import TypeQuery.Proofs.Pattern.Literal.Search
import TypeQuery.Proofs.Program.Build
import TypeQuery.Proofs.Query.Selection

/-!
# TypeQuery.Proofs.Query.Literal

Two ways to look for a text.  Whoever lays out a program looks for a needle by
comparing it with the text place by place (`Program.occurrencesFrom`); a query
looks for it as a pattern, by a walk over what an automaton finds:

```
text     a a a a a        needle  a a
builder  ^   ^            skips the rest of an occurrence
walk     ^   ^            resumes behind a match
```

Both come to the same occurrences in the same order, the empty needle at every
place and at the end of the text.

* `occurrencesFrom_of_first`, `occurrencesFrom_of_none` — the comparison, as far
  as the next occurrence;
* `exists_walk_literal` — the walk has the same offsets;
* `findOffset_agrees_with_literal` — so a number means the same place to both.
-/

namespace TypeQuery

open Pattern Automaton
open Text (unitLength)
open Program (occurrencesFrom)

/-! ## places of a text -/

variable {needle cs : List Char}

theorem agrees_iff_isPrefix {s : Nat} :
    Agrees needle cs.toArray s needle.length ↔ needle <+: cs.drop s := by
  rw [List.prefix_iff_getElem?]
  constructor
  · intro h j hj
    rw [List.getElem?_drop, ← List.getElem?_toArray, h j hj, List.getElem?_eq_getElem hj]
  · intro h j hj
    rw [List.getElem?_toArray, ← List.getElem?_drop, h j hj, List.getElem?_eq_getElem hj]

/-- The characters from a place on, with the offset of the next one. -/
theorem exists_drop_eq_cons {j : Nat} (h : j < cs.length) :
    ∃ c, cs.drop j = c :: cs.drop (j + 1) ∧
      unitLength (cs.take j) + Text.units c = unitLength (cs.take (j + 1)) := by
  refine ⟨cs[j], List.drop_eq_getElem_cons h, ?_⟩
  rw [← List.take_append_getElem h, Text.unitLength_append, Text.unitLength_cons,
    Text.unitLength_nil, Nat.add_zero]

/-! ## the comparison place by place -/

/-- The offsets that the comparison finds from place `j` on. -/
abbrev offsetsFrom (needle cs : List Char) (skip j : Nat) : List Nat :=
  occurrencesFrom needle skip (unitLength (cs.take j)) (cs.drop j)

/-- What belongs to the last occurrence is passed over. -/
theorem offsetsFrom_skip {j k : Nat} (h : j + k ≤ cs.length) :
    offsetsFrom needle cs k j = offsetsFrom needle cs 0 (j + k) := by
  induction k generalizing j with
  | zero => rfl
  | succ k ih =>
      have hj : j < cs.length := by omega
      obtain ⟨c, hdrop, hunits⟩ := exists_drop_eq_cons hj
      have hnext := ih (j := j + 1) (by omega)
      rw [offsetsFrom, hdrop, occurrencesFrom, hunits]
      rw [Nat.add_right_comm] at hnext
      exact hnext

/-- A place at which the needle does not stand is passed over. -/
theorem offsetsFrom_of_not_agrees {j : Nat} (hj : j < cs.length)
    (h : ¬Agrees needle cs.toArray j needle.length) :
    offsetsFrom needle cs 0 j = offsetsFrom needle cs 0 (j + 1) := by
  obtain ⟨c, hdrop, hunits⟩ := exists_drop_eq_cons hj
  rw [agrees_iff_isPrefix, hdrop, ← List.isPrefixOf_iff_prefix] at h
  rw [offsetsFrom, hdrop, occurrencesFrom, hunits]
  exact if_neg h

theorem offsetsFrom_of_missing {i s : Nat} (hle : i ≤ s) (hs : s ≤ cs.length)
    (h : ∀ t, i ≤ t → t < s → ¬Agrees needle cs.toArray t needle.length) :
    offsetsFrom needle cs 0 i = offsetsFrom needle cs 0 s := by
  induction hle with
  | refl => rfl
  | @step s hle ih =>
      rw [ih (by omega) fun t ht hlt => h t ht (Nat.lt_succ_of_lt hlt)]
      exact offsetsFrom_of_not_agrees hs (h s hle (Nat.lt_succ_self s))

theorem resumeAfter_occurrence (s n : Nat) : Matcher.resumeAfter ⟨s, s + n⟩ = s + 1 + (n - 1) := by
  unfold Matcher.resumeAfter
  dsimp only
  split <;> omega

/-- Behind an occurrence, the comparison goes on where a walk does. -/
theorem offsetsFrom_of_agrees {s : Nat} (hs : s ≤ cs.length)
    (h : Agrees needle cs.toArray s needle.length) :
    offsetsFrom needle cs 0 s = unitLength (cs.take s) ::
      if Matcher.resumeAfter ⟨s, s + needle.length⟩ ≤ cs.length then
        offsetsFrom needle cs 0 (Matcher.resumeAfter ⟨s, s + needle.length⟩)
      else [] := by
  have hfits : needle.length + s ≤ cs.length := h.le_size hs
  rw [resumeAfter_occurrence]
  by_cases hend : s = cs.length
  · -- only the empty needle stands at the end
    obtain rfl : needle = [] := List.eq_nil_of_length_eq_zero (by omega)
    have hbehind : ¬s + 1 + (([] : List Char).length - 1) ≤ cs.length := by omega
    rw [if_neg hbehind, offsetsFrom, hend, List.drop_length]
    rfl
  · have hlt : s < cs.length := by omega
    obtain ⟨c, hdrop, hunits⟩ := exists_drop_eq_cons hlt
    have hinside : s + 1 + (needle.length - 1) ≤ cs.length := by omega
    rw [agrees_iff_isPrefix, hdrop, ← List.isPrefixOf_iff_prefix] at h
    rw [if_pos hinside, ← offsetsFrom_skip hinside, offsetsFrom, hdrop, occurrencesFrom, hunits]
    exact if_pos h

/-- Where the needle does not stand any more, the comparison finds nothing. -/
theorem offsetsFrom_eq_nil {i : Nat} (hi : i ≤ cs.length)
    (h : ∀ s, i ≤ s → s ≤ cs.length → ¬Agrees needle cs.toArray s needle.length) :
    offsetsFrom needle cs 0 i = [] := by
  rw [offsetsFrom_of_missing hi (Nat.le_refl _) fun t ht hlt => h t ht (Nat.le_of_lt hlt),
    offsetsFrom, List.drop_length]
  refine if_neg fun hempty => h cs.length hi (Nat.le_refl _) ?_
  obtain rfl := List.isEmpty_iff.mp hempty
  exact agrees_zero _

/-! ## the walk of an automaton -/

/-- The matcher that looks for a text as it is. -/
abbrev literalMatcher (needle : List Char) : Matcher :=
  .automaton (.ofRegex (.literal needle))

/-- **One walk, the same offsets**: a walk over the matches of a literal comes to its end, and its
spans begin where the comparison finds the needle. -/
theorem exists_walk_literal (needle cs : List Char) (i : Nat) (hi : i ≤ cs.length) :
    ∃ places spans,
      Walk ((literalMatcher needle).findFrom cs.toArray) cs.length i places spans .exhausted ∧
        spans.map (fun s => unitLength (cs.take s.start)) = offsetsFrom needle cs 0 i := by
  have hsize : i ≤ cs.toArray.size := hi
  rcases search_literal needle hsize with
    ⟨s, hmatch, hsearch⟩ | ⟨hnone, hsearch⟩
  · have hfind : (literalMatcher needle).findFrom cs.toArray i = .ok (some ⟨s, s + needle.length⟩) := by
      simp only [Matcher.findFrom, hsearch, Option.map_some]
    have hoffsets := offsetsFrom_of_missing hmatch.le hmatch.inside hmatch.first
    rw [hoffsets, offsetsFrom_of_agrees hmatch.inside hmatch.agrees]
    have hlt : i < Matcher.resumeAfter ⟨s, s + needle.length⟩ := by
      have := hmatch.le
      rw [resumeAfter_occurrence]
      omega
    by_cases hnext : Matcher.resumeAfter ⟨s, s + needle.length⟩ ≤ cs.length
    · obtain ⟨places, spans, hwalk, hspans⟩ :=
        exists_walk_literal needle cs (Matcher.resumeAfter ⟨s, s + needle.length⟩) hnext
      exact ⟨_, _, .found hi hfind hwalk, by simp [hspans, hnext]⟩
    · exact ⟨_, _, .found hi hfind (.past (Nat.lt_of_not_le hnext)), by simp [hnext]⟩
  · have hfind : (literalMatcher needle).findFrom cs.toArray i = .ok none := by
      simp only [Matcher.findFrom, hsearch, Option.map_none]
    exact ⟨_, _, .missing hi hfind, (offsetsFrom_eq_nil hi hnone).symm⟩
termination_by cs.length - i

/-! ## one number, one place -/

/-- What looking for a needle answers, given the text of the file. -/
theorem build_findOffset {p : Program} {file text : String}
    (htext : p.checker.text? file = some text) (needle : String) (n : Nat) :
    (p.build (Program.findOffset file needle n)).1 =
      match (occurrencesFrom needle.toList 0 0 text.toList)[n]? with
      | some offset => .ok offset
      | none => .error (.tooFewOccurrences needle (n + 1)) := by
  obtain ⟨f, hf, rfl⟩ := Option.map_eq_some_iff.mp htext
  rw [Program.findOffset, Program.build_bind, Program.build_get]
  dsimp only
  rw [hf]
  dsimp only
  cases (occurrencesFrom needle.toList 0 0 f.text.toList)[n]? <;> rfl

/-- What a literal pattern stands for: the offset of the comparison with that number, if there are
so many. -/
theorem resolve_literal {p : Program} {file text needle : String} {m : Matcher}
    (htext : p.checker.text? file = some text) (hplain : Plain needle.toList)
    (hbuild : Matcher.build needle (Query.globalFlags none) = .ok m) (n : Nat) :
    match (occurrencesFrom needle.toList 0 0 text.toList)[n]? with
    | some offset => ∃ location,
        p.checker.resolve file text (.pattern needle none n) = .ok location ∧
          location.offset = offset
    | none => ∃ fault, p.checker.resolve file text (.pattern needle none n) = .error fault := by
  obtain rfl : m = literalMatcher needle.toList := by
    have hliteral := Matcher.build_of_plain hplain
    rw [show Query.globalFlags none = "g" from rfl, hliteral] at hbuild
    split at hbuild
    · exact (Except.ok.inj hbuild).symm
    · contradiction
  obtain ⟨places, spans, hwalk, hspans⟩ :=
    exists_walk_literal needle.toList text.toList 0 (Nat.zero_le _)
  have hoffsets : occurrencesFrom needle.toList 0 0 text.toList =
      spans.map fun s => unitLength (text.toList.take s.start) := hspans.symm
  rw [hoffsets, List.getElem?_map, Checker.resolve_pattern_of_walk hbuild hwalk p.checker n]
  cases spans[n]? with
  | none => exact ⟨_, rfl⟩
  | some s =>
      obtain ⟨location, hlocation, hoffset, -⟩ := Checker.exists_resolveSpan htext s
      exact ⟨location, hlocation, hoffset⟩

/-- **Literal patterns**: a needle without operators is accepted as a pattern if it is not too long,
and then each number of an occurrence means the same offset to who lays out the program and to a
query, or fails for both of them. -/
theorem findOffset_agrees_with_literal (p : Program) (file text needle : String)
    (htext : p.checker.text? file = some text) (hplain : Plain needle.toList) :
    ((∃ m, Matcher.build needle (Query.globalFlags none) = .ok m) ↔
        Text.byteLength needle.toList ≤ literalLimit) ∧
      ((∃ m, Matcher.build needle (Query.globalFlags none) = .ok m) → ∀ n,
        (∀ o, (p.build (Program.findOffset file needle n)).1 = .ok o ↔
          ∃ location, p.checker.resolve file text (.pattern needle none n) = .ok location ∧
            location.offset = o) ∧
        ((∃ failure, (p.build (Program.findOffset file needle n)).1 = .error failure) ↔
          ∃ fault, p.checker.resolve file text (.pattern needle none n) = .error fault)) := by
  refine ⟨?_, fun ⟨m, hbuild⟩ n => ?_⟩
  · rw [show Query.globalFlags none = "g" from rfl, Matcher.build_of_plain hplain]
    split <;> simp [*]
  · have hresolve := resolve_literal htext hplain hbuild n
    rw [build_findOffset htext]
    cases hoffset : (occurrencesFrom needle.toList 0 0 text.toList)[n]? with
    | some offset =>
        rw [hoffset] at hresolve
        obtain ⟨location, hlocation, rfl⟩ := hresolve
        simp [hlocation]
    | none =>
        rw [hoffset] at hresolve
        obtain ⟨fault, hfault⟩ := hresolve
        simp [hfault]

/-- In `aé😀aaa` the needle `aa` stands once, behind a character of two units: the third `a` of a row
does not begin another one. -/
theorem findOffset_agrees_with_literal_overlapping :
    let p := Program.empty.layOut [.addFile "a.ts" "aé😀aaa"]
    p.checker.text? "a.ts" = some "aé😀aaa" ∧ Plain "aa".toList ∧
      (p.build (Program.findOffset "a.ts" "aa" 0)).1 = .ok 4 ∧
      (∃ location, p.checker.resolve "a.ts" "aé😀aaa" (.pattern "aa" none 0) = .ok location ∧
        location.offset = 4) ∧
      ∃ fault, p.checker.resolve "a.ts" "aé😀aaa" (.pattern "aa" none 1) = .error fault := by
  intro p
  have htext : p.checker.text? "a.ts" = some "aé😀aaa" := by decide +kernel
  have hplain : Plain "aa".toList := by decide +kernel
  obtain ⟨hlength, hagree⟩ := findOffset_agrees_with_literal p "a.ts" "aé😀aaa" "aa" htext hplain
  have haccepted := hlength.mpr (by decide +kernel)
  have hfirst : (p.build (Program.findOffset "a.ts" "aa" 0)).1 = .ok 4 := by decide +kernel
  refine ⟨htext, hplain, hfirst, ((hagree haccepted 0).1 4).mp hfirst, ?_⟩
  exact (hagree haccepted 1).2.mp ⟨.tooFewOccurrences "aa" 2, by decide +kernel⟩

end TypeQuery
