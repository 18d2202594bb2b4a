import TypeQuery.Proofs.Pattern.Literal

/-!
# TypeQuery.Proofs.Pattern.Literal.Search

What an automaton finds that looks for a text as it is.  Its instructions are
numbered by what is left to be read, so a thread that began at place `s` stands at

```
place        s            i            s + n
pc           n   …    n + s - i   …      0
```

and the threads at a place are exactly the places from which the text has agreed
with the needle so far (`alive`), in ascending order.  The oldest of them is the
first to end, so the match is the first place at which the needle stands.

* `ofRegex_literal` — the instructions;
* `Holds.advance` — one step of all threads;
* `run_literal` — a run, by induction over what is left of the text;
* `search_literal` — a search finds the first place, if there is one.
-/

namespace TypeQuery.Pattern.Automaton

/-! ## instructions -/

/-- The instructions for a text: the one with number `k` is where `k` characters are left. -/
def literalCode (cs : List Char) : List Instr :=
  .done :: cs.reverse.mapIdx fun k c => .char (.single c) k

theorem length_literalCode (cs : List Char) : (literalCode cs).length = cs.length + 1 := by
  simp [literalCode]

theorem literalCode_cons (c : Char) (cs : List Char) :
    literalCode (c :: cs) = literalCode cs ++ [.char (.single c) cs.length] := by
  simp [literalCode, List.mapIdx_append]

theorem compile_letter (c : Char) (next : Nat) (code : Array Instr) :
    (compile (.letter c) next).run code = (code.size, code.push (.char (.single c) next)) := rfl

theorem compile_literal (cs : List Char) :
    (compile (.literal cs) 0).run #[.done] = (cs.length, (literalCode cs).toArray) := by
  match cs with
  | [] => rfl
  | [c] => rfl
  | c :: d :: cs =>
    have ih := compile_literal (d :: cs)
    have hseq : (compile (.literal (c :: d :: cs)) 0).run #[.done] =
        (compile (.letter c) ((compile (.literal (d :: cs)) 0).run #[.done]).1).run
          ((compile (.literal (d :: cs)) 0).run #[.done]).2 := rfl
    rw [hseq, ih, compile_letter, literalCode_cons c]
    simp [length_literalCode]

theorem ofRegex_literal (cs : List Char) :
    ofRegex (.literal cs) = ⟨(literalCode cs).toArray, cs.length⟩ := by
  rw [ofRegex, compile_literal]

section

variable {needle : List Char} {text : Array Char}

/-- The instruction with which the next character of the needle is read. -/
theorem code_of_lt {k : Nat} {c : Char} (h : needle[k]? = some c) :
    (ofRegex (.literal needle)).code[needle.length - k]? =
      some (.char (.single c) (needle.length - (k + 1))) := by
  obtain ⟨hk, -⟩ := List.getElem?_eq_some_iff.mp h
  have hplace : needle.length - k = needle.length - (k + 1) + 1 := by omega
  have hreverse : needle.reverse[needle.length - (k + 1)]? = some c := by
    rw [List.getElem?_reverse (by omega), ← h]
    congr 1
    omega
  rw [ofRegex_literal, List.getElem?_toArray, hplace, literalCode, List.getElem?_cons_succ,
    List.getElem?_mapIdx, hreverse]
  rfl

/-- Every instruction reads a character or ends. -/
theorem stops_of_code {pc : Nat} {instr : Instr}
    (h : (ofRegex (.literal needle)).code[pc]? = some instr) :
    instr = .done ∨ ∃ c next, instr = .char (.single c) next := by
  rw [ofRegex_literal, List.getElem?_toArray] at h
  have hmem := List.mem_of_getElem? h
  rw [literalCode, List.mem_cons, List.mem_mapIdx] at hmem
  exact hmem.imp_right fun ⟨k, _, heq⟩ => ⟨_, k, heq.symm⟩

theorem contains_single (c d : Char) : (CharSet.single c).contains d = true ↔ d = c := by
  rw [← Char.toNat_inj]
  simp [CharSet.single, CharSet.range, CharSet.contains, CharSet.holds]
  omega

/-! ## threads -/

/-- The first `k` characters of the needle stand in the text from place `s` on. -/
def Agrees (needle : List Char) (text : Array Char) (s k : Nat) : Prop :=
  ∀ j < k, text[s + j]? = needle[j]?

instance (s k : Nat) : Decidable (Agrees needle text s k) :=
  inferInstanceAs (Decidable (∀ j < k, text[s + j]? = needle[j]?))

theorem agrees_zero (s : Nat) : Agrees needle text s 0 := by
  simp [Agrees]

theorem agrees_succ {s k : Nat} :
    Agrees needle text s (k + 1) ↔ Agrees needle text s k ∧ text[s + k]? = needle[k]? :=
  Nat.forall_lt_succ_right

/-- The thread at place `i` that began at place `s`. -/
def threadAt (needle : List Char) (i s : Nat) : Thread :=
  ⟨needle.length + s - i, s, #[]⟩

/-- The threads at place `i` are those that began at the given places, and no instruction counts as
reached without one of them. -/
structure Holds (needle : List Char) (i : Nat) (starts : List Nat) (ts : Threads) : Prop where
  list : ts.list.toList = starts.map (threadAt needle i)
  size : ts.seen.size = needle.length + 1
  seen : ∀ pc, ts.seen[pc]? = some true → ∃ s ∈ starts, pc = needle.length + s - i

theorem holds_none (i : Nat) :
    Holds needle i [] (Threads.none (ofRegex (.literal needle))) where
  list := rfl
  size := by simp [Threads.none, ofRegex_literal, length_literalCode]
  seen pc h := by simp [Threads.none, Array.getElem?_replicate] at h

theorem follow_nil (a : Automaton) (i start fuel : Nat) (ts : Threads) :
    follow a text i start fuel [] ts = ts := by
  cases fuel <;> rfl

/-- An instruction that was not reached before becomes a thread. -/
theorem add_literal {i start pc : Nat} {ts : Threads} (hseen : ts.seen[pc]? = some false) :
    add (ofRegex (.literal needle)) text i start pc #[] ts =
      ⟨ts.list.push ⟨pc, start, #[]⟩, ts.seen.setIfInBounds pc true⟩ := by
  rw [add, follow, Array.getD_eq_getD_getElem?, hseen]
  simp only [Option.getD_some, Bool.false_eq_true, if_false]
  cases hcode : (ofRegex (.literal needle)).code[pc]? with
  | none => exact follow_nil ..
  | some instr =>
      obtain rfl | ⟨c, next, rfl⟩ := stops_of_code hcode
      · exact follow_nil ..
      · exact follow_nil ..

/-- A thread that began at a place of its own is added behind the others. -/
theorem Holds.add (text : Array Char) {i s : Nat} {starts : List Nat} {ts : Threads} (h : Holds needle i starts ts)
    (hi : ∀ t ∈ starts, i ≤ needle.length + t) (hs : s ≤ i) (hs' : i ≤ needle.length + s)
    (hnew : s ∉ starts) :
    Holds needle i (starts ++ [s])
      (add (ofRegex (.literal needle)) text i s (needle.length + s - i) #[] ts) := by
  have hlt : needle.length + s - i < ts.seen.size := by
    have := h.size
    omega
  have hseen : ts.seen[needle.length + s - i]? = some false := by
    rw [Array.getElem?_eq_getElem hlt, Option.some.injEq, ← Bool.not_eq_true]
    intro hreached
    obtain ⟨t, ht, heq⟩ := h.seen _ (by rw [Array.getElem?_eq_getElem hlt, hreached])
    have := hi t ht
    obtain rfl : s = t := by omega
    exact hnew ht
  rw [add_literal hseen]
  refine ⟨by simp [h.list, threadAt], by simp [h.size], fun pc hpc => ?_⟩
  dsimp only at hpc
  by_cases heq : needle.length + s - i = pc
  · exact ⟨s, by simp, heq.symm⟩
  · rw [Array.getElem?_setIfInBounds_ne heq] at hpc
    obtain ⟨t, ht, rfl⟩ := h.seen pc hpc
    exact ⟨t, by simp [ht], rfl⟩

/-! ## one step -/

/-- The character at place `i` is the next one of the needle for a thread that began at `s`. -/
def Goes (needle : List Char) (text : Array Char) (i s : Nat) : Prop :=
  text[i]? = needle[i - s]?

instance (i : Nat) : DecidablePred (Goes needle text i) := fun s =>
  inferInstanceAs (Decidable (text[i]? = needle[i - s]?))

/-- A thread that is not at its end. -/
theorem advance_threadAt {i s : Nat} (hs : s ≤ i) (hlt : i < needle.length + s)
    (rest : List Thread) (ts : Threads) :
    advance (ofRegex (.literal needle)) text i (threadAt needle i s :: rest) ts =
      if Goes needle text i s then
        advance (ofRegex (.literal needle)) text i rest
          (add (ofRegex (.literal needle)) text (i + 1) s (needle.length + s - (i + 1)) #[] ts)
      else advance (ofRegex (.literal needle)) text i rest ts := by
  obtain ⟨c, hc⟩ : ∃ c, needle[i - s]? = some c := ⟨_, List.getElem?_eq_getElem (by omega)⟩
  have hcode := code_of_lt hc
  have hpc : needle.length - (i - s) = needle.length + s - i := by omega
  have hnext : needle.length - (i - s + 1) = needle.length + s - (i + 1) := by omega
  rw [hpc, hnext] at hcode
  rw [advance, threadAt, hcode]
  cases ht : text[i]? with
  | none => simp [Goes, hc, ht]
  | some d => simp [Goes, hc, ht, contains_single]

/-- **Step lemma**: threads that are not at their end go over a character if it is the next one of
the needle. -/
theorem Holds.advance (text : Array Char) {i : Nat} {before starts : List Nat} {ts : Threads}
    (h : Holds needle (i + 1) before ts)
    (hbefore : ∀ s ∈ before, s ≤ i ∧ i < needle.length + s)
    (hstarts : ∀ s ∈ starts, s ≤ i ∧ i < needle.length + s)
    (hnodup : (before ++ starts).Nodup) :
    ∃ ts', Automaton.advance (ofRegex (.literal needle)) text i
        (starts.map (threadAt needle i)) ts = (ts', none) ∧
      Holds needle (i + 1) (before ++ starts.filter (Goes needle text i)) ts' := by
  induction starts generalizing before ts with
  | nil => exact ⟨ts, rfl, by simpa using h⟩
  | cons s starts ih =>
      obtain ⟨hle, hlt⟩ := hstarts s List.mem_cons_self
      have hrest := fun t ht => hstarts t (List.mem_cons_of_mem s ht)
      rw [List.map_cons, advance_threadAt hle hlt]
      by_cases hgoes : Goes needle text i s
      · have hnew : s ∉ before := fun hmem =>
          (List.nodup_append.mp hnodup).2.2 s hmem s List.mem_cons_self rfl
        have hadd := h.add text (s := s)
          (fun t ht => Nat.succ_le_of_lt (hbefore t ht).2) (by omega) (by omega) hnew
        have hmore := List.forall_mem_append.mpr
          ⟨hbefore, List.forall_mem_singleton.mpr ⟨hle, hlt⟩⟩
        obtain ⟨ts', hadvance, hholds⟩ := ih hadd hmore hrest (by simpa using hnodup)
        exact ⟨ts', by simpa [hgoes] using hadvance, by simpa [hgoes] using hholds⟩
      · obtain ⟨ts', hadvance, hholds⟩ := ih h hbefore hrest (hnodup.sublist (by simp))
        exact ⟨ts', by simpa [hgoes] using hadvance, by simpa [hgoes] using hholds⟩

/-! ## all threads at a place -/

/-- The places from `lo` on from which the text agrees with the needle up to place `i`. -/
def alive (needle : List Char) (text : Array Char) (lo i : Nat) : List Nat :=
  (List.range' lo (i + 1 - lo)).filter fun s =>
    i ≤ needle.length + s ∧ Agrees needle text s (i - s)

theorem mem_alive {lo i s : Nat} :
    s ∈ alive needle text lo i ↔
      lo ≤ s ∧ s ≤ i ∧ i ≤ needle.length + s ∧ Agrees needle text s (i - s) := by
  simp only [alive, List.mem_filter, List.mem_range'_1, decide_eq_true_eq]
  grind

/-- **The first occurrence**: of the places from `lo` on where the needle stands, the first one. -/
structure FirstMatch (needle : List Char) (text : Array Char) (lo s : Nat) : Prop where
  le : lo ≤ s
  inside : s ≤ text.size
  agrees : Agrees needle text s needle.length
  first : ∀ t, lo ≤ t → t < s → ¬Agrees needle text t needle.length

theorem alive_self (i : Nat) : alive needle text i i = [i] := by
  simp [alive, agrees_zero]

/-- Unless a thread has come to its end, the threads at the next place are those that go on and the
one that begins there. -/
theorem alive_succ {lo i : Nat} (hlo : lo ≤ i)
    (hend : ∀ s, lo ≤ s → needle.length + s = i → ¬Agrees needle text s needle.length) :
    alive needle text lo (i + 1) =
      (alive needle text lo i).filter (Goes needle text i) ++ [i + 1] := by
  have hrange : List.range' lo (i + 1 + 1 - lo) = List.range' lo (i + 1 - lo) ++ [i + 1] := by
    have hcount : i + 1 + 1 - lo = i + 1 - lo + 1 := by omega
    have hlast : lo + (i + 1 - lo) = i + 1 := by omega
    rw [hcount, List.range'_1_concat, hlast]
  rw [alive, hrange, List.filter_append, alive, List.filter_filter]
  congr 1
  · refine List.filter_congr fun s hs => ?_
    obtain ⟨hle, hlt⟩ := List.mem_range'_1.mp hs
    have hsucc : i + 1 - s = i - s + 1 := by omega
    have hplace : s + (i - s) = i := by omega
    have hgoes : Goes needle text i s ↔ text[s + (i - s)]? = needle[i - s]? := by
      rw [hplace]
      exact Iff.rfl
    rw [Bool.eq_iff_iff]
    simp only [decide_eq_true_eq, Bool.and_eq_true, hsucc, agrees_succ, hgoes]
    constructor
    · rintro ⟨hlt, hagrees, hnext⟩
      exact ⟨hnext, by omega, hagrees⟩
    · rintro ⟨hnext, hle', hagrees⟩
      refine ⟨Nat.lt_of_le_of_ne hle' fun heq => ?_, hagrees, hnext⟩
      have hlength : i - s = needle.length := by omega
      exact hend s hle heq.symm (hlength ▸ hagrees)
  · have hle : i + 1 ≤ needle.length + (i + 1) := by omega
    have hnew : Agrees needle text (i + 1) (i + 1 - (i + 1)) := by
      rw [Nat.sub_self]
      exact agrees_zero _
    exact List.filter_cons_of_pos (decide_eq_true ⟨hle, hnew⟩)

theorem nodup_alive (lo i : Nat) : (alive needle text lo i).Nodup :=
  List.Nodup.sublist List.filter_sublist (List.nodup_range' 1)

/-- Where no thread ends, all of them have something left to read. -/
theorem going_of_mem_alive {lo i : Nat}
    (hend : ∀ s, lo ≤ s → needle.length + s = i → ¬Agrees needle text s needle.length) :
    ∀ s ∈ alive needle text lo i, s ≤ i ∧ i < needle.length + s := by
  intro s hs
  obtain ⟨hle, hsi, hlt, hagrees⟩ := mem_alive.mp hs
  refine ⟨hsi, Nat.lt_of_le_of_ne hlt fun heq => ?_⟩
  have hlength : i - s = needle.length := by omega
  exact hend s hle heq.symm (hlength ▸ hagrees)

/-- A thread that has come to its end is the oldest one. -/
theorem alive_of_end {lo i s : Nat} (hlo : lo ≤ s) (hend : needle.length + s = i)
    (hagrees : Agrees needle text s needle.length) :
    ∃ rest, alive needle text lo i = s :: rest := by
  have hrange : List.range' lo (i + 1 - lo) =
      List.range' lo (s - lo) ++ s :: List.range' (s + 1) (i - s) := by
    have hcount : i + 1 - lo = s - lo + (i - s + 1) := by omega
    have hmiddle : lo + 1 * (s - lo) = s := by omega
    rw [hcount, ← List.range'_append, hmiddle, List.range'_succ]
  have hyoung : (List.range' lo (s - lo)).filter
      (fun t => i ≤ needle.length + t ∧ Agrees needle text t (i - t)) = [] := by
    refine List.filter_eq_nil_iff.mpr fun t ht => ?_
    have := (List.mem_range'_1.mp ht).2
    have hlt : ¬i ≤ needle.length + t := by omega
    simp [hlt]
  have hlength : i - s = needle.length := by omega
  have hle : i ≤ needle.length + s := by omega
  rw [alive, hrange, List.filter_append, hyoung, List.nil_append, List.filter_cons_of_pos]
  · exact ⟨_, rfl⟩
  · simp [hlength, hagrees, hle]

theorem advance_end {i s : Nat} (hend : needle.length + s = i) (rest : List Thread) (ts : Threads) :
    advance (ofRegex (.literal needle)) text i (threadAt needle i s :: rest) ts =
      (ts, some ⟨s, i, #[]⟩) := by
  have hcode : (ofRegex (.literal needle)).code[needle.length + s - i]? = some .done := by
    rw [hend, Nat.sub_self, ofRegex_literal]
    rfl
  rw [advance, threadAt, hcode]

/-- Where the whole needle stands, it ends in the text. -/
theorem Agrees.le_size {s : Nat} (h : Agrees needle text s needle.length) (hs : s ≤ text.size) :
    needle.length + s ≤ text.size := by
  cases hn : needle.length with
  | zero => omega
  | succ n =>
      have hlast := h n (by omega)
      rw [List.getElem?_eq_getElem (by omega)] at hlast
      obtain ⟨hlt, -⟩ := Array.getElem?_eq_some_iff.mp hlast
      omega

/-! ## runs -/

/-- A run ends where its first thread ends: there are no threads that are preferred to it. -/
theorem run_of_found {a : Automaton} {slots : Slots} {left i : Nat} {ts : Threads} {m : Match}
    (h : advance a text i ts.list.toList (Threads.none a) = (Threads.none a, some m)) :
    run a text false slots left i ts none = some m := by
  rw [run, h]
  cases left <;> rfl

/-- As long as no thread ends, a run goes on with one more thread. -/
theorem run_of_missing {a : Automaton} {slots : Slots} {left i : Nat} {ts ts' : Threads}
    (h : advance a text i ts.list.toList (Threads.none a) = (ts', none)) :
    run a text false slots left i ts none =
      match left with
      | 0 => none
      | left + 1 =>
        run a text false slots left (i + 1) (add a text (i + 1) (i + 1) a.start slots ts') none := by
  rw [run, h]
  cases left <;> rfl

/-- A run that comes to the end of the needle has found the first place where it stands. -/
theorem run_of_end {lo left i s : Nat} {ts : Threads} (hi : i ≤ text.size)
    (hts : Holds needle i (alive needle text lo i) ts)
    (hpast : ∀ s, lo ≤ s → needle.length + s < i → ¬Agrees needle text s needle.length)
    (hs : lo ≤ s) (hend : needle.length + s = i) (hagrees : Agrees needle text s needle.length) :
    FirstMatch needle text lo s ∧ run (ofRegex (.literal needle)) text false #[] left i ts none =
      some ⟨s, s + needle.length, #[]⟩ := by
  obtain ⟨rest, hrest⟩ := alive_of_end hs hend hagrees
  have hadvance : advance (ofRegex (.literal needle)) text i ts.list.toList
      (Threads.none (ofRegex (.literal needle))) =
        (Threads.none (ofRegex (.literal needle)), some ⟨s, i, #[]⟩) := by
    rw [hts.list, hrest]
    exact advance_end hend _ _
  refine ⟨⟨hs, by omega, hagrees, fun t ht hlt => hpast t ht (by omega)⟩, ?_⟩
  rw [run_of_found hadvance, Nat.add_comm, hend]

/-- The threads of the next place, where no thread has come to its end. -/
theorem Holds.next {lo i : Nat} {ts : Threads} (hlo : lo ≤ i)
    (hts : Holds needle i (alive needle text lo i) ts)
    (hend : ∀ s, lo ≤ s → needle.length + s = i → ¬Agrees needle text s needle.length) :
    ∃ ts', Automaton.advance (ofRegex (.literal needle)) text i ts.list.toList
        (Threads.none (ofRegex (.literal needle))) = (ts', none) ∧
      Holds needle (i + 1) (alive needle text lo (i + 1))
        (Automaton.add (ofRegex (.literal needle)) text (i + 1) (i + 1)
          (ofRegex (.literal needle)).start #[] ts') := by
  have hgoing := going_of_mem_alive hend
  obtain ⟨ts', hadvance, hholds⟩ := (holds_none (i + 1)).advance text (by simp) hgoing
    (nodup_alive lo i)
  refine ⟨ts', hts.list ▸ hadvance, ?_⟩
  have hstart : (ofRegex (.literal needle)).start = needle.length + (i + 1) - (i + 1) := by
    rw [ofRegex_literal, Nat.add_sub_cancel]
  rw [alive_succ hlo hend, hstart]
  refine hholds.add text (fun t ht => ?_) (Nat.le_refl _) (by omega) fun hmem => ?_
  · exact (hgoing t (List.mem_filter.mp ht).1).2
  · have := (hgoing _ (List.mem_filter.mp hmem).1).1
    omega

/-- **Run lemma**: a run of the threads at place `i` finds the first place from `lo` on where the
needle stands. -/
theorem run_literal {lo left i : Nat} {ts : Threads} (hlo : lo ≤ i) (hleft : i + left = text.size)
    (hts : Holds needle i (alive needle text lo i) ts)
    (hpast : ∀ s, lo ≤ s → needle.length + s < i → ¬Agrees needle text s needle.length) :
    (∃ s, FirstMatch needle text lo s ∧
        run (ofRegex (.literal needle)) text false #[] left i ts none =
          some ⟨s, s + needle.length, #[]⟩) ∨
      (∀ s, lo ≤ s → s ≤ text.size → ¬Agrees needle text s needle.length) ∧
        run (ofRegex (.literal needle)) text false #[] left i ts none = none := by
  induction left generalizing i ts with
  | zero =>
      by_cases hex : ∃ s, lo ≤ s ∧ needle.length + s = i ∧ Agrees needle text s needle.length
      · obtain ⟨s, hs, hend, hagrees⟩ := hex
        exact .inl ⟨s, run_of_end (by omega) hts hpast hs hend hagrees⟩
      · have hend : ∀ s, lo ≤ s → needle.length + s = i → ¬Agrees needle text s needle.length :=
          fun s hs heq hagrees => hex ⟨s, hs, heq, hagrees⟩
        obtain ⟨ts', hadvance, -⟩ := hts.next hlo hend
        refine .inr ⟨fun s hs hsize hagrees => ?_, run_of_missing hadvance⟩
        have hinside := hagrees.le_size hsize
        have hle : needle.length + s ≤ i := by omega
        exact (Nat.lt_or_eq_of_le hle).elim (hpast s hs · hagrees) (hend s hs · hagrees)
  | succ left ih =>
      by_cases hex : ∃ s, lo ≤ s ∧ needle.length + s = i ∧ Agrees needle text s needle.length
      · obtain ⟨s, hs, hend, hagrees⟩ := hex
        exact .inl ⟨s, run_of_end (by omega) hts hpast hs hend hagrees⟩
      · have hend : ∀ s, lo ≤ s → needle.length + s = i → ¬Agrees needle text s needle.length :=
          fun s hs heq hagrees => hex ⟨s, hs, heq, hagrees⟩
        obtain ⟨ts', hadvance, hnext⟩ := hts.next hlo hend
        rw [run_of_missing hadvance]
        exact ih (by omega) (by omega) hnext fun s hs hlt =>
          (Nat.lt_succ_iff_lt_or_eq.mp hlt).elim (hpast s hs) (hend s hs)

/-- **Searches for a text**: what is found is the first place where the needle stands. -/
theorem search_literal (needle : List Char) {text : Array Char} {lo : Nat} (hlo : lo ≤ text.size) :
    (∃ s, FirstMatch needle text lo s ∧
        (ofRegex (.literal needle)).search text lo = some (s, s + needle.length)) ∨
      (∀ s, lo ≤ s → s ≤ text.size → ¬Agrees needle text s needle.length) ∧
        (ofRegex (.literal needle)).search text lo = none := by
  have hstart : (ofRegex (.literal needle)).start = needle.length + lo - lo := by
    rw [ofRegex_literal, Nat.add_sub_cancel]
  have hfirst : Holds needle lo (alive needle text lo lo)
      (add (ofRegex (.literal needle)) text lo lo (ofRegex (.literal needle)).start #[]
        (Threads.none (ofRegex (.literal needle)))) := by
    rw [alive_self, hstart]
    exact (holds_none lo).add text (by simp) (Nat.le_refl lo) (by omega) (by simp)
  have hrun := run_literal (Nat.le_refl lo) (by omega : lo + (text.size - lo) = text.size) hfirst
    fun s hs hlt => absurd hlt (by omega)
  refine hrun.imp (fun ⟨s, hmatch, hs⟩ => ⟨s, hmatch, ?_⟩) fun ⟨hnone, hs⟩ => ⟨hnone, ?_⟩
  · rw [search, searchWith, hs]
    rfl
  · rw [search, searchWith, hs]
    rfl

end

end TypeQuery.Pattern.Automaton
