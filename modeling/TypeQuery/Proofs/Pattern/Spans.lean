import TypeQuery.Pattern.Matcher
import TypeQuery.Proofs.Pattern.Backtracking.Reach
import TypeQuery.Proofs.Pattern.Walk

/-!
# TypeQuery.Proofs.Pattern.Spans

Where the matches of an accepted pattern lie.  Whatever the pattern, a match
starts before it ends, and it ends in the part of the text that was searched.
It also starts there, unless the pattern marks the start while looking behind
(`lookback`).

* `findFrom_within` — the place of a match;
* `usable_of_lookback` — when its searches are usable, so that walks come to an end;
* `resumeAfter_eq_iff` — when a walk does not move on.
-/

namespace TypeQuery.Pattern

/-- The span is one of a search from place `i` on, and starts at most `back` characters behind it. -/
def Span.Within (size i back : Nat) (s : Span) : Prop :=
  s.start ≤ s.stop ∧ s.stop ≤ size ∧ i ≤ s.stop ∧ i ≤ s.start + back

namespace Matcher

/-- How many characters behind the place of a search a match of the pattern may start. -/
def lookback (pattern flags : String) : Nat :=
  match modeLetters flags flags.toList with
  | .error _ => 0
  | .ok letters =>
    match Regex.parse? (modes letters) pattern.toList with
    | some _ => 0
    | none =>
      match Backtracking.parse? (withLetters letters pattern.toList) with
      | some parsed => parsed.expr.reach?.getD 0
      | none => 0

theorem findFrom_automaton_within {a : Automaton} {text : Array Char} {i back : Nat} {s : Span}
    (hi : i ≤ text.size) (h : (Matcher.automaton a).findFrom text i = .ok (some s)) :
    s.Within text.size i back := by
  obtain ⟨⟨start, stop⟩, hsearch, rfl⟩ := Option.map_eq_some_iff.mp (Except.ok.inj h)
  obtain ⟨hstart, hstop, hsize⟩ := Automaton.search_within hi hsearch
  exact ⟨hstop, hsize, Nat.le_trans hstart hstop, Nat.le_trans hstart (Nat.le_add_right _ _)⟩

theorem findFrom_backtracking_within {p : Backtracking.Program} {groups : Nat}
    {e : Backtracking.Expr} (he : e.Numbered groups)
    (hp : Backtracking.Program.ofExpr? groups e = some p) {text : Array Char} {i : Nat} {s : Span}
    (hi : i ≤ text.size) (h : (Matcher.backtracking p).findFrom text i = .ok (some s)) :
    s.Within text.size i (e.reach?.getD 0) := by
  unfold findFrom at h
  dsimp only at h
  split at h
  · next start stop hsearch =>
    obtain rfl := Option.some.inj (Except.ok.inj h)
    exact Backtracking.search_within he hp hi hsearch
  · exact absurd (Except.ok.inj h) (by simp)
  · contradiction

/-- A matcher that backtracks comes from a pattern in that notation. -/
theorem ofBacktracking?_eq_some {pattern : List Char} {m : Matcher}
    (h : ofBacktracking? pattern = some m) :
    ∃ parsed, Backtracking.parse? pattern = some parsed ∧
      ((∃ a, m = .automaton a) ∨ ∃ p, Backtracking.Program.ofExpr? parsed.groups parsed.expr = some p ∧
        m = .backtracking p) := by
  obtain ⟨parsed, hparsed, h⟩ := Option.bind_eq_some_iff.mp h
  refine ⟨parsed, hparsed, ?_⟩
  split at h
  · obtain ⟨p, hp, h⟩ := Option.bind_eq_some_iff.mp h
    exact .inr ⟨p, hp, (Option.some.inj h).symm⟩
  · obtain ⟨r, hr, h⟩ := Option.bind_eq_some_iff.mp h
    exact .inl ⟨_, (Option.some.inj h).symm⟩

/-- **Spans of accepted patterns**: every match lies in the text and ends behind the place of the
search, and starts behind it but for the lookback of the pattern. -/
theorem findFrom_within {pattern flags : String} {m : Matcher} (hb : build pattern flags = .ok m)
    {text : Array Char} {i : Nat} {s : Span} (hi : i ≤ text.size)
    (h : m.findFrom text i = .ok (some s)) :
    s.Within text.size i (lookback pattern flags) := by
  unfold lookback
  unfold build at hb
  cases hletters : modeLetters flags flags.toList with
  | error fault => rw [hletters] at hb; contradiction
  | ok letters =>
      rw [hletters] at hb
      cases hregex : Regex.parse? (modes letters) pattern.toList with
      | some r =>
          simp only [bind, Except.bind, hregex] at hb
          obtain rfl := Except.ok.inj hb
          exact findFrom_automaton_within hi h
      | none =>
          simp only [bind, Except.bind, hregex] at hb
          cases hback : ofBacktracking? (withLetters letters pattern.toList) with
          | none => rw [hback] at hb; contradiction
          | some m' =>
              rw [hback] at hb
              obtain rfl := Except.ok.inj hb
              obtain ⟨parsed, hparsed, ha | hp⟩ := ofBacktracking?_eq_some hback
              · obtain ⟨a, rfl⟩ := ha
                exact findFrom_automaton_within hi h
              · obtain ⟨p, hp, rfl⟩ := hp
                simp only [hparsed, hregex]
                exact findFrom_backtracking_within (Backtracking.numbered_of_parse? hparsed) hp hi h

theorem usable_of_lookback {pattern flags : String} {m : Matcher} (hb : build pattern flags = .ok m)
    (hback : lookback pattern flags = 0) (text : Array Char) :
    Usable (m.findFrom text) text.size := by
  intro i s hi hf
  obtain ⟨hstop, hsize, -, hstart⟩ := findFrom_within hb hi hf
  rw [hback] at hstart
  exact ⟨hstart, hstop, hsize⟩

/-- A walk never moves back, and it stays where it is only after a match that ends there and starts
before. -/
theorem resumeAfter_eq_iff {size i back : Nat} {s : Span} (h : s.Within size i back) :
    i ≤ resumeAfter s ∧ (resumeAfter s = i ↔ s.start < i ∧ s.stop = i) := by
  obtain ⟨hstop, -, hend, -⟩ := h
  unfold resumeAfter
  split <;> omega

end Matcher

end TypeQuery.Pattern
