import TypeQuery.Pattern.Automaton

/-!
# TypeQuery.Proofs.Pattern.Automaton

Where an automaton finds its matches.  A thread keeps the place where it began,
and new threads begin where the run is, so no thread of a run began before the
search or ahead of the run (`Begun`).  A match takes its start from a thread and
its end from the run, which never leaves the text.

* `mem_add`, `mem_advance` — where the threads of a step come from;
* `run_within` — the matches of a run lie between its first place and the end;
* `search_within`, `matchAt_within` — so do those of both kinds of searches.
-/

namespace TypeQuery.Pattern.Automaton

variable {a : Automaton} {text : Array Char}

/-! ## where threads come from -/

/-- Following instructions adds threads that begin at `start` and no others. -/
theorem mem_follow {i start fuel : Nat} {todo : List (Nat × Slots)} {ts : Threads} {t : Thread}
    (h : t ∈ (follow a text i start fuel todo ts).list) : t ∈ ts.list ∨ t.start = start := by
  fun_induction follow a text i start fuel todo ts
  case case1 | case2 => exact .inl h
  case case3 ih | case4 ih | case5 ih | case6 ih | case7 ih => exact ih h
  -- an instruction that reads or ends is where a thread is added
  case case8 ih =>
    cases ih h with
    | inl hm =>
        cases Array.mem_push.mp hm with
        | inl hold => exact .inl hold
        | inr hnew => exact .inr (by rw [hnew])
    | inr hs => exact .inr hs

theorem mem_add {i start pc : Nat} {slots : Slots} {ts : Threads} {t : Thread}
    (h : t ∈ (add a text i start pc slots ts).list) : t ∈ ts.list ∨ t.start = start :=
  mem_follow h

/-- Behind a character every thread goes on from one before it. -/
theorem mem_advance {i : Nat} {list : List Thread} {ts : Threads} {t : Thread}
    (h : t ∈ (advance a text i list ts).1.list) :
    t ∈ ts.list ∨ ∃ u ∈ list, t.start = u.start := by
  induction list generalizing ts with
  | nil => exact .inl h
  | cons u rest ih =>
      have hrest : ∀ {ts' : Threads}, t ∈ (advance a text i rest ts').1.list →
          t ∈ ts'.list ∨ ∃ v ∈ u :: rest, t.start = v.start := fun ht =>
        (ih ht).imp_right fun ⟨v, hv, heq⟩ => ⟨v, List.mem_cons_of_mem u hv, heq⟩
      rw [advance] at h
      split at h
      · split at h
        · split at h
          · cases hrest h with
            | inl hm => exact (mem_add hm).imp_right fun heq => ⟨u, List.mem_cons_self, heq⟩
            | inr hex => exact .inr hex
          · exact hrest h
        · exact hrest h
      · exact .inl h
      · exact hrest h

/-- A match ends where the run is and begins where one of its threads did. -/
theorem advance_eq_some {i : Nat} {list : List Thread} {ts : Threads} {m : Match}
    (h : (advance a text i list ts).2 = some m) : m.stop = i ∧ ∃ u ∈ list, m.start = u.start := by
  induction list generalizing ts with
  | nil => simp [advance] at h
  | cons u rest ih =>
      have hrest : ∀ {ts' : Threads}, (advance a text i rest ts').2 = some m →
          m.stop = i ∧ ∃ v ∈ u :: rest, m.start = v.start := fun hm => by
        obtain ⟨hstop, v, hv, heq⟩ := ih hm
        exact ⟨hstop, v, List.mem_cons_of_mem u hv, heq⟩
      rw [advance] at h
      split at h
      · split at h
        · split at h
          · exact hrest h
          · exact hrest h
        · exact hrest h
      · obtain rfl := Option.some.inj h
        exact ⟨rfl, u, List.mem_cons_self, rfl⟩
      · exact hrest h

/-! ## runs -/

/-- The threads of a run that came from place `lo` to place `i` began on the way. -/
def Begun (lo i : Nat) (ts : Threads) : Prop :=
  ∀ t ∈ ts.list, lo ≤ t.start ∧ t.start ≤ i

/-- The match lies between two places. -/
def Match.Within (lo hi : Nat) (m : Match) : Prop :=
  lo ≤ m.start ∧ m.start ≤ m.stop ∧ m.stop ≤ hi

theorem begun_none (a : Automaton) (lo i : Nat) : Begun lo i (Threads.none a) := by
  intro t ht
  simp [Threads.none] at ht

theorem Begun.add {lo i j start pc : Nat} {slots : Slots} {ts : Threads} (h : Begun lo j ts)
    (hlo : lo ≤ start) (hj : start ≤ j) : Begun lo j (add a text i start pc slots ts) := by
  intro t ht
  cases mem_add ht with
  | inl hm => exact h t hm
  | inr heq => omega

theorem Begun.advance {lo i : Nat} {ts : Threads} (h : Begun lo i ts) :
    Begun lo (i + 1) (advance a text i ts.list.toList (Threads.none a)).1 := by
  intro t ht
  cases mem_advance ht with
  | inl hm => simp [Threads.none] at hm
  | inr hex =>
      obtain ⟨u, hu, heq⟩ := hex
      have := h u (by simpa using hu)
      omega

/-- A match that ends at place `i` lies between the first place of the run and any later one. -/
theorem Begun.within_of_advance {lo hi i : Nat} {ts : Threads} (h : Begun lo i ts) (hi' : i ≤ hi)
    {m : Match} (hm : (Automaton.advance a text i ts.list.toList (Threads.none a)).2 = some m) :
    m.Within lo hi := by
  obtain ⟨hstop, u, hu, heq⟩ := advance_eq_some hm
  have := h u (by simpa using hu)
  unfold Match.Within
  omega

/-- **Run lemma**: a run over the rest of the text finds no match outside of it. -/
theorem run_within {anchored : Bool} {slots : Slots} {lo hi left i : Nat} {ts : Threads}
    {best : Option Match} (hts : Begun lo i ts) (hlo : lo ≤ i) (hhi : i + left ≤ hi)
    (hbest : ∀ m, best = some m → m.Within lo hi) {m : Match}
    (h : run a text anchored slots left i ts best = some m) : m.Within lo hi := by
  induction left generalizing i ts best with
  | zero =>
      rw [run] at h
      cases Option.or_eq_some_iff.mp h with
      | inl hf => exact hts.within_of_advance (by omega) hf
      | inr hb => exact hbest m hb.2
  | succ left ih =>
      -- what this step has found, or else what was found before it
      have hbest' : ∀ m, (advance a text i ts.list.toList (Threads.none a)).2.or best = some m →
          m.Within lo hi := fun m hm => by
        cases Option.or_eq_some_iff.mp hm with
        | inl hf => exact hts.within_of_advance (by omega) hf
        | inr hb => exact hbest m hb.2
      rw [run] at h
      dsimp only at h
      generalize (advance a text i ts.list.toList (Threads.none a)).2.or best = best' at h hbest'
      have hnext : Begun lo (i + 1) (if anchored || best'.isSome then
          (advance a text i ts.list.toList (Threads.none a)).1
          else add a text (i + 1) (i + 1) a.start slots
            (advance a text i ts.list.toList (Threads.none a)).1) := by
        split
        · exact hts.advance
        · exact hts.advance.add (by omega) (Nat.le_refl _)
      generalize (if anchored || best'.isSome then _ else _) = next at h hnext
      split at h
      · exact hbest' m h
      · split at h
        · exact hbest' m h
        · exact ih hnext (by omega) (by omega) hbest' h

/-! ## searches -/

theorem searchWith_within {anchored : Bool} {slots : Slots} {i : Nat} (hi : i ≤ text.size)
    {m : Match} (h : a.searchWith text anchored slots i = some m) : m.Within i text.size := by
  refine run_within ?_ (Nat.le_refl i) (by omega) ?_ h
  · exact (begun_none a i i).add (Nat.le_refl i) (Nat.le_refl i)
  · intro m hm
    contradiction

/-- **Searches stay inside**: a match starts where the search began or later, and ends in the
text. -/
theorem search_within {i start stop : Nat} (hi : i ≤ text.size)
    (h : a.search text i = some (start, stop)) :
    i ≤ start ∧ start ≤ stop ∧ stop ≤ text.size := by
  obtain ⟨m, hm, heq⟩ := Option.map_eq_some_iff.mp h
  obtain ⟨rfl, rfl⟩ := Prod.mk.inj heq
  exact searchWith_within hi hm

/-- A match at a place ends there or later. -/
theorem matchAt_within {slots i : Nat} (hi : i ≤ text.size) {m : Match}
    (h : a.matchAt text slots i = some m) : i ≤ m.stop ∧ m.stop ≤ text.size := by
  obtain ⟨hstart, hstop, hsize⟩ := searchWith_within hi h
  exact ⟨by omega, hsize⟩

end TypeQuery.Pattern.Automaton
