import TypeQuery.Pattern.Matcher

/-!
# TypeQuery.Proofs.Pattern.Walk

The walk over the matches of a pattern.  A walk searches from a place, goes on
behind what it has found, and ends where nothing is found, where a search gives
up, or behind the end of the text.  `Walk` is that process as a relation between
the place where it begins, the places that it searches from, the spans that it
finds and how it ends; a walk that goes on forever is related to nothing.

A search is *usable* when all its answers lie between the place that it was
asked at and the end of the text.  Then

* `exists_walk` — a walk comes to its end, and there is only one;
* `Walk.apart` — its spans are in order and do not overlap;
* `Walk.length_le` — there is at most one more of them than there are characters;
* `Walk.steady` — in short, a walk from the beginning is `Steady`;
* `selectFrom_of_walk` — the match with a number is the span with that number.

Places are counted in characters, so each of them lies between two characters.
-/

namespace TypeQuery.Pattern

/-- All answers of the search lie between where it was asked and the end of the text. -/
def Usable (find : Nat → Except GaveUp (Option Span)) (size : Nat) : Prop :=
  ∀ i s, i ≤ size → find i = .ok (some s) → i ≤ s.start ∧ s.start ≤ s.stop ∧ s.stop ≤ size

/-- How a walk ends. -/
inductive Ending where
  /-- There is nothing more to be found. -/
  | exhausted
  /-- A search gave up. -/
  | gaveUp
  deriving DecidableEq, Repr

/-- A walk from a place on: the places that are searched from, the spans that are found there, and
how it ends. -/
inductive Walk (find : Nat → Except GaveUp (Option Span)) (size : Nat) :
    Nat → List Nat → List Span → Ending → Prop
  | past {i : Nat} (h : size < i) : Walk find size i [] [] .exhausted
  | missing {i : Nat} (h : i ≤ size) (hf : find i = .ok none) :
    Walk find size i [i] [] .exhausted
  | gaveUp {i : Nat} {e : GaveUp} (h : i ≤ size) (hf : find i = .error e) :
    Walk find size i [i] [] .gaveUp
  | found {i : Nat} {s : Span} {places : List Nat} {spans : List Span} {ending : Ending}
    (h : i ≤ size) (hf : find i = .ok (some s))
    (rest : Walk find size (Matcher.resumeAfter s) places spans ending) :
    Walk find size i (i :: places) (s :: spans) ending

variable {find : Nat → Except GaveUp (Option Span)} {size : Nat}

/-! ## a walk comes to its end -/

/-- A walk goes on behind the place that it searched from. -/
theorem Usable.lt_resumeAfter (hu : Usable find size) {i : Nat} {s : Span} (h : i ≤ size)
    (hf : find i = .ok (some s)) : i < Matcher.resumeAfter s := by
  obtain ⟨hstart, hstop, -⟩ := hu i s h hf
  unfold Matcher.resumeAfter
  split <;> omega

theorem exists_walk (hu : Usable find size) (i : Nat) :
    ∃ places spans ending, Walk find size i places spans ending := by
  by_cases h : i ≤ size
  · cases hf : find i with
    | error e => exact ⟨_, _, _, .gaveUp h hf⟩
    | ok found =>
        cases found with
        | none => exact ⟨_, _, _, .missing h hf⟩
        | some s =>
            have hlt := hu.lt_resumeAfter h hf
            obtain ⟨places, spans, ending, hrest⟩ := exists_walk hu (Matcher.resumeAfter s)
            exact ⟨_, _, _, .found h hf hrest⟩
  · exact ⟨_, _, _, .past (by omega)⟩
termination_by size + 1 - i
decreasing_by omega

theorem Walk.unique {i : Nat} {places places' : List Nat} {spans spans' : List Span}
    {ending ending' : Ending} (hw : Walk find size i places spans ending)
    (hw' : Walk find size i places' spans' ending') :
    places = places' ∧ spans = spans' ∧ ending = ending' := by
  induction hw generalizing places' spans' ending' with
  | past h =>
      cases hw' with
      | past => exact ⟨rfl, rfl, rfl⟩
      | _ => omega
  | missing h hf =>
      cases hw' with
      | past => omega
      | missing => exact ⟨rfl, rfl, rfl⟩
      | gaveUp _ hf' => rw [hf] at hf'; contradiction
      | found _ hf' => rw [hf] at hf'; exact absurd (Except.ok.inj hf') (by simp)
  | gaveUp h hf =>
      cases hw' with
      | past => omega
      | missing _ hf' => rw [hf] at hf'; contradiction
      | gaveUp => exact ⟨rfl, rfl, rfl⟩
      | found _ hf' => rw [hf] at hf'; contradiction
  | found h hf _ ih =>
      cases hw' with
      | past => omega
      | missing _ hf' => rw [hf] at hf'; exact absurd (Except.ok.inj hf') (by simp)
      | gaveUp _ hf' => rw [hf] at hf'; contradiction
      | found _ hf' hrest =>
          rw [hf] at hf'
          obtain rfl := Option.some.inj (Except.ok.inj hf')
          obtain ⟨rfl, rfl, rfl⟩ := ih hrest
          exact ⟨rfl, rfl, rfl⟩

/-! ## what a walk visits -/

theorem Walk.le_of_mem_places {i : Nat} {places : List Nat} {spans : List Span} {ending : Ending}
    (hw : Walk find size i places spans ending) : ∀ j ∈ places, j ≤ size := by
  induction hw with
  | past => simp
  | missing h | gaveUp h => simpa using h
  | found h _ _ ih =>
      intro j hj
      cases List.mem_cons.mp hj with
      | inl he => omega
      | inr hm => exact ih j hm

/-- Each span is what the search answers at the place with the same number. -/
theorem Walk.find_eq {i : Nat} {places : List Nat} {spans : List Span} {ending : Ending}
    (hw : Walk find size i places spans ending) {k : Nat} {s : Span} (hs : spans[k]? = some s) :
    ∃ j, places[k]? = some j ∧ find j = .ok (some s) := by
  induction hw generalizing k with
  | past | missing | gaveUp => simp at hs
  | found h hf _ ih =>
      cases k with
      | zero =>
          obtain rfl := Option.some.inj hs
          exact ⟨_, rfl, hf⟩
      | succ k => exact ih hs

/-- A walk begins with a search where it begins, if that is inside the text. -/
theorem Walk.places_zero {i : Nat} {places : List Nat} {spans : List Span} {ending : Ending}
    (hw : Walk find size i places spans ending) {j : Nat} (hj : places[0]? = some j) : j = i := by
  cases hw with
  | past => simp at hj
  | missing | gaveUp | found => exact (Option.some.inj hj).symm

/-- The place after a span is its end, or one character further on if the span is empty. -/
theorem Walk.places_succ {i : Nat} {places : List Nat} {spans : List Span} {ending : Ending}
    (hw : Walk find size i places spans ending) {k j : Nat} {s : Span} (hs : spans[k]? = some s)
    (hj : places[k + 1]? = some j) : j = if s.start < s.stop then s.stop else s.stop + 1 := by
  induction hw generalizing k with
  | past | missing | gaveUp => simp at hs
  | found h hf hrest ih =>
      cases k with
      | zero =>
          obtain rfl := Option.some.inj hs
          exact hrest.places_zero hj
      | succ k => exact ih hs hj

/-! ## spans in order -/

/-- Every span lies behind the place where the walk begins. -/
theorem Walk.le_start (hu : Usable find size) {i : Nat} {places : List Nat} {spans : List Span}
    {ending : Ending} (hw : Walk find size i places spans ending) : ∀ s ∈ spans, i ≤ s.start := by
  induction hw with
  | past | missing | gaveUp => simp
  | found h hf _ ih =>
      intro t ht
      have hlt := hu.lt_resumeAfter h hf
      cases List.mem_cons.mp ht with
      | inl he => rw [he]; exact (hu _ _ h hf).1
      | inr hm =>
          have := ih t hm
          omega

/-- Of two spans the later one starts behind the start of the earlier one and not before its end. -/
theorem Walk.apart (hu : Usable find size) {i : Nat} {places : List Nat} {spans : List Span}
    {ending : Ending} (hw : Walk find size i places spans ending) :
    spans.Pairwise fun s t => s.start < t.start ∧ s.stop ≤ t.start := by
  induction hw with
  | past | missing | gaveUp => exact List.Pairwise.nil
  | found h hf hrest ih =>
      refine List.pairwise_cons.mpr ⟨fun t ht => ?_, ih⟩
      obtain ⟨-, hstop, -⟩ := hu _ _ h hf
      have hle := hrest.le_start hu t ht
      unfold Matcher.resumeAfter at hle
      split at hle <;> omega

/-- Every span takes up a place of its own, of which there is one before each character and one at
the end. -/
theorem Walk.length_le (hu : Usable find size) {i : Nat} {places : List Nat} {spans : List Span}
    {ending : Ending} (hw : Walk find size i places spans ending) :
    spans.length ≤ size + 1 - i := by
  induction hw with
  | past | missing | gaveUp => simp
  | found h hf _ ih =>
      have hlt := hu.lt_resumeAfter h hf
      rw [List.length_cons]
      omega

/-! ## walks from the beginning -/

/-- What holds of the places and spans of a walk over a whole text. -/
structure Steady (find : Nat → Except GaveUp (Option Span)) (size : Nat) (places : List Nat)
    (spans : List Span) : Prop where
  /-- No search begins outside the text. -/
  inside : ∀ j ∈ places, j ≤ size
  /-- Starts increase, and no span begins before the one before it has ended. -/
  apart : spans.Pairwise fun s t => s.start < t.start ∧ s.stop ≤ t.start
  /-- There is at most one span before each character and one at the end. -/
  count : spans.length ≤ size + 1
  /-- The first span is what is found from the beginning. -/
  first : ∀ s, spans[0]? = some s → find 0 = .ok (some s)
  /-- A further span is what is found from the end of the one before it, or one character further
  on if that one is empty. -/
  next : ∀ k s t, spans[k]? = some s → spans[k + 1]? = some t →
    find (if s.start < s.stop then s.stop else s.stop + 1) = .ok (some t)

theorem Walk.steady (hu : Usable find size) {places : List Nat} {spans : List Span}
    {ending : Ending} (hw : Walk find size 0 places spans ending) :
    Steady find size places spans where
  inside := hw.le_of_mem_places
  apart := hw.apart hu
  count := hw.length_le hu
  first s hs := by
    obtain ⟨j, hj, hf⟩ := hw.find_eq hs
    rw [hw.places_zero hj] at hf
    exact hf
  next k s t hs ht := by
    obtain ⟨j, hj, hf⟩ := hw.find_eq ht
    rw [hw.places_succ hs hj] at hf
    exact hf

/-! ## the match with a number -/

/-- What is to be said of a match with a number that a walk does not come to. -/
def Ending.selection (found : Nat) : Ending → Except GaveUp Matcher.Selection
  | .exhausted => .ok (.only found)
  | .gaveUp => .error .gaveUp

/-- **Selection follows the walk**: the match with number `index` is the span with that number; when
there are fewer, the end of the walk decides. -/
theorem selectFrom_of_walk {i : Nat} {places : List Nat} {spans : List Span} {ending : Ending}
    (hw : Walk find size i places spans ending) (index seen : Nat) :
    Matcher.selectFrom find size index seen i =
      match spans[index]? with
      | some s => .ok (.found s)
      | none => ending.selection (seen + spans.length) := by
  induction hw generalizing index seen with
  | past h =>
      rw [Matcher.selectFrom, if_pos h]
      rfl
  | missing h hf =>
      rw [Matcher.selectFrom, if_neg (by omega), hf]
      rfl
  | gaveUp h hf =>
      rw [Matcher.selectFrom, if_neg (by omega), hf]
      rfl
  | @found _ _ _ spans _ h hf _ ih =>
      rw [Matcher.selectFrom, if_neg (by omega), hf]
      cases index with
      | zero => rfl
      | succ index =>
          have hcount : seen + (spans.length + 1) = seen + 1 + spans.length := by omega
          rw [List.getElem?_cons_succ, List.length_cons, hcount]
          exact ih index (seen + 1)

/-- A walk that comes back to where it was finds the same match for every number from there on. -/
theorem selectFrom_of_resumeAfter_eq {i : Nat} {s : Span} (hi : i ≤ size) (hf : find i = .ok (some s))
    (hresume : Matcher.resumeAfter s = i) (index seen : Nat) :
    Matcher.selectFrom find size index seen i = .ok (.found s) := by
  induction index generalizing seen with
  | zero =>
      rw [Matcher.selectFrom, if_neg (by omega), hf]
      rfl
  | succ index ih =>
      rw [Matcher.selectFrom, if_neg (by omega), hf]
      have hstuck := ih (seen + 1)
      rw [← hresume] at hstuck
      exact hstuck

end TypeQuery.Pattern
