import Mathlib.Data.List.Chain
import TypeQuery.Text.Snippet

/-!
# TypeQuery.Proofs.Text.Words

The words of a text and the line they make.  A text is cut into its words in one
way only, since a word takes in all that stands between two pieces of white space:

```
cs     =  gap  word  gap  word  …  gap        each inner gap has a character
line   =       word  ' '  word  …
```

On the line every piece of white space is a single space between two words, and a
text of that form is its own line.

* `Runs`, `runs_iff` — the maximal runs without white space, which `words` finds;
* `SingleSpaced`, `singleSpaced_collapse` — the form of a line;
* `collapse_eq_self` — a text of that form stays what it is.
-/

namespace TypeQuery.Text

/-! ## words -/

/-- White space and nothing else, perhaps none at all. -/
def IsGap (cs : List Char) : Prop :=
  ∀ c ∈ cs, isBlank c = true

/-- Characters that are no white space, at least one. -/
def IsWord (cs : List Char) : Prop :=
  cs ≠ [] ∧ ∀ c ∈ cs, isBlank c = false

/-- The maximal runs without white space of a text, from left to right. Ahead of a run there is
white space only, and behind it there is white space or nothing. -/
inductive Runs : List Char → List (List Char) → Prop where
  | blank {gap : List Char} (hgap : IsGap gap) : Runs gap []
  | run {gap word rest : List Char} {runs : List (List Char)} (hgap : IsGap gap)
      (hword : IsWord word) (hrest : ∀ c ∈ rest.head?, isBlank c = true) (h : Runs rest runs) :
      Runs (gap ++ word ++ rest) (word :: runs)

theorem Runs.cons_blank {c : Char} {cs : List Char} {runs : List (List Char)}
    (hc : isBlank c = true) (h : Runs cs runs) : Runs (c :: cs) runs := by
  have hcons {gap : List Char} (hgap : IsGap gap) : IsGap (c :: gap) := by
    simpa [IsGap, hc] using hgap
  cases h with
  | blank hgap => exact .blank (hcons hgap)
  | run hgap hword hrest h => exact .run (hcons hgap) hword hrest h

theorem Runs.isWord {cs : List Char} {runs : List (List Char)} (h : Runs cs runs) :
    ∀ w ∈ runs, IsWord w := by
  induction h with
  | blank => simp
  | run _ hword _ _ ih => simpa using ⟨hword, ih⟩

theorem Runs.cons_word {word rest : List Char} {runs : List (List Char)} (hword : IsWord word)
    (hrest : ∀ c ∈ rest.head?, isBlank c = true) (h : Runs rest runs) :
    Runs (word ++ rest) (word :: runs) := by
  have hgap : IsGap [] := by simp [IsGap]
  exact .run hgap hword hrest h

/-- The scan reads the runs, the first of them begun with the word being read. -/
theorem runs_wordsFrom (word cs : List Char) (hword : ∀ c ∈ word, isBlank c = false) :
    Runs (word.reverse ++ cs) (wordsFrom word cs) := by
  have hisWord {word : List Char} (hne : word ≠ []) (hword : ∀ c ∈ word, isBlank c = false) :
      IsWord word.reverse := by
    simpa [IsWord, hne] using hword
  induction cs generalizing word with
  | nil =>
      cases word with
      | nil => exact .blank (by simp [IsGap])
      | cons c word =>
          exact .cons_word (hisWord (by simp) hword) (by simp) (.blank (by simp [IsGap]))
  | cons c cs ih =>
      cases hc : isBlank c with
      | true =>
          have hrest : Runs (c :: cs) (wordsFrom [] cs) := (ih [] (by simp)).cons_blank hc
          cases word with
          | nil => simpa [wordsFrom, hc] using hrest
          | cons d word =>
              rw [wordsFrom, if_pos hc, if_neg (by simp)]
              exact .cons_word (hisWord (by simp) hword) (by simp [hc]) hrest
      | false =>
          have hrest := ih (c :: word) (by simpa [hc] using hword)
          simpa [wordsFrom, hc] using hrest

theorem wordsFrom_append {word w : List Char} (hw : ∀ c ∈ w, isBlank c = false) (cs : List Char) :
    wordsFrom word (w ++ cs) = wordsFrom (w.reverse ++ word) cs := by
  induction w generalizing word with
  | nil => rfl
  | cons c w ih =>
      have ⟨hc, hw⟩ := List.forall_mem_cons.mp hw
      simp [wordsFrom, hc, ih hw]

theorem words_append_of_isGap {gap : List Char} (hgap : IsGap gap) (cs : List Char) :
    words (gap ++ cs) = words cs := by
  induction gap with
  | nil => rfl
  | cons c gap ih =>
      have ⟨hc, hgap⟩ := List.forall_mem_cons.mp hgap
      have hstep : words (c :: (gap ++ cs)) = words (gap ++ cs) := by simp [words, wordsFrom, hc]
      rw [List.cons_append, hstep, ih hgap]

theorem words_append_of_isWord {w rest : List Char} (hw : IsWord w)
    (hrest : ∀ c ∈ rest.head?, isBlank c = true) : words (w ++ rest) = w :: words rest := by
  rw [words, wordsFrom_append hw.2]
  cases rest with
  | nil => simp [wordsFrom, words, hw.1]
  | cons c rest =>
      have hc : isBlank c = true := hrest c rfl
      simp [wordsFrom, words, hc, hw.1]

/-- **The words of a text are its maximal runs without white space**, and no other list of words is
made of such runs. -/
theorem runs_iff {cs : List Char} {runs : List (List Char)} : Runs cs runs ↔ runs = words cs := by
  constructor
  · intro h
    induction h with
    | @blank gap hgap =>
        have hwords : words (gap ++ []) = [] := words_append_of_isGap hgap []
        rw [← hwords, List.append_nil]
    | run hgap hword hrest _ ih =>
        rw [List.append_assoc, words_append_of_isGap hgap, words_append_of_isWord hword hrest, ih]
  · rintro rfl
    exact runs_wordsFrom [] cs (by simp)

theorem isWord_of_mem_words {cs w : List Char} (h : w ∈ words cs) : IsWord w :=
  (runs_iff.mpr rfl).isWord w h

/-! ## lines -/

theorem joinWords_cons {ws : List (List Char)} (w : List Char) (hws : ws ≠ []) :
    joinWords (w :: ws) = w ++ ' ' :: joinWords ws := by
  cases ws with
  | nil => contradiction
  | cons v ws => rfl

theorem joinWords_ne_nil {w : List Char} (hw : IsWord w) (ws : List (List Char)) :
    joinWords (w :: ws) ≠ [] := by
  cases ws <;> simp [joinWords, hw.1]

theorem joinWords_eq_intercalate (ws : List (List Char)) :
    joinWords ws = [' '].intercalate ws := by
  induction ws with
  | nil => rfl
  | cons w ws ih =>
      cases ws with
      | nil => simp [joinWords]
      | cons v ws =>
          rw [joinWords_cons w (by simp), ih]
          simp [List.intercalate]

/-- All white space of the text is single spaces between other characters. -/
structure SingleSpaced (cs : List Char) : Prop where
  spaces : ∀ c ∈ cs, isBlank c = true → c = ' '
  begins : ∀ c ∈ cs.head?, isBlank c = false
  ends : ∀ c ∈ cs.getLast?, isBlank c = false
  apart : cs.IsChain fun c d => isBlank c = true → isBlank d = false

theorem singleSpaced_nil : SingleSpaced [] :=
  ⟨by simp, by simp, by simp, .nil⟩

theorem IsWord.singleSpaced {w : List Char} (hw : IsWord w) : SingleSpaced w := by
  have hchain : w.Pairwise fun c d => isBlank c = true → isBlank d = false :=
    List.pairwise_iff_forall_sublist.mpr fun {c d} h _ => hw.2 d (h.subset (by simp))
  exact ⟨by grind [IsWord], by grind [IsWord], by grind [IsWord], hchain.isChain⟩

theorem SingleSpaced.cons_word {w rest : List Char} (hw : IsWord w) (h : SingleSpaced rest)
    (hne : rest ≠ []) : SingleSpaced (w ++ ' ' :: rest) where
  spaces := by grind [h.spaces, hw.2]
  begins := by
    have hhead : (w ++ ' ' :: rest).head? = w.head? := by
      cases w with
      | nil => exact absurd rfl hw.1
      | cons c w => rfl
    rw [hhead]
    exact hw.singleSpaced.begins
  ends := by
    rw [List.append_cons, List.getLast?_append_of_ne_nil _ hne]
    exact h.ends
  apart := by
    have hrest : (' ' :: rest).IsChain fun c d => isBlank c = true → isBlank d = false :=
      List.isChain_cons.mpr ⟨fun c hc _ => h.begins c hc, h.apart⟩
    refine hw.singleSpaced.apart.append hrest fun c hc d _ hblank => ?_
    rw [hw.singleSpaced.ends c hc] at hblank
    contradiction

/-- A piece of white space is a single space with more of the line behind it. -/
theorem SingleSpaced.of_blank {front rest : List Char} {c : Char}
    (h : SingleSpaced (front ++ c :: rest)) (hc : isBlank c = true) :
    c = ' ' ∧ rest ≠ [] ∧ SingleSpaced rest := by
  have hchain := List.isChain_cons.mp h.apart.right_of_append
  have hne : rest ≠ [] := by
    rintro rfl
    have hend := h.ends c (by simp)
    rw [hc] at hend
    contradiction
  have hends := h.ends
  rw [List.append_cons, List.getLast?_append_of_ne_nil _ hne] at hends
  exact ⟨h.spaces c (by simp) hc, hne, fun d hd => h.spaces d (by simp [hd]),
    fun d hd => hchain.1 d hd hc, hends, hchain.2⟩

/-- A line has the form that its name says. -/
theorem singleSpaced_joinWords {ws : List (List Char)} (h : ∀ w ∈ ws, IsWord w) :
    SingleSpaced (joinWords ws) := by
  induction ws with
  | nil => exact singleSpaced_nil
  | cons w ws ih =>
      have ⟨hw, hws⟩ := List.forall_mem_cons.mp h
      cases ws with
      | nil => exact hw.singleSpaced
      | cons v ws =>
          have hne : joinWords (v :: ws) ≠ [] := joinWords_ne_nil (hws v (by simp)) ws
          exact (ih hws).cons_word hw hne

/-- What the scan reads joins to the text again, when all white space is single spaces. -/
theorem joinWords_wordsFrom (word cs : List Char) (h : SingleSpaced (word.reverse ++ cs)) :
    joinWords (wordsFrom word cs) = word.reverse ++ cs := by
  induction cs generalizing word with
  | nil => cases word <;> simp [wordsFrom, joinWords]
  | cons c cs ih =>
      cases hc : isBlank c with
      | true =>
          obtain ⟨rfl, hne, hrest⟩ := h.of_blank hc
          have hword : word ≠ [] := by
            rintro rfl
            have hbegin := h.begins ' ' rfl
            contradiction
          have hjoin : joinWords (wordsFrom [] cs) = cs := ih [] hrest
          have hwords : wordsFrom [] cs ≠ [] := by
            intro hnil
            rw [hnil] at hjoin
            exact hne hjoin.symm
          rw [wordsFrom, if_pos hc, if_neg (by simpa using hword), joinWords_cons _ hwords, hjoin]
      | false =>
          have hrest := ih (c :: word) (by simpa using h)
          simpa [wordsFrom, hc] using hrest

theorem singleSpaced_collapse (cs : List Char) : SingleSpaced (collapse cs) :=
  singleSpaced_joinWords fun _ => isWord_of_mem_words

/-- A line is not collapsed any further. -/
theorem collapse_eq_self {cs : List Char} (h : SingleSpaced cs) : collapse cs = cs :=
  joinWords_wordsFrom [] cs h

theorem collapse_eq_nil_iff {cs : List Char} : collapse cs = [] ↔ IsGap cs := by
  constructor
  · intro h
    cases hwords : words cs with
    | nil =>
        cases runs_iff.mpr hwords.symm with
        | blank hgap => exact hgap
    | cons w ws =>
        have hw : w ∈ words cs := hwords ▸ List.mem_cons_self
        rw [collapse, hwords] at h
        exact absurd h (joinWords_ne_nil (isWord_of_mem_words hw) ws)
  · intro h
    rw [collapse, ← runs_iff.mp (.blank h), joinWords]

end TypeQuery.Text
