import TypeQuery.Program.Step
import TypeQuery.Proofs.Pattern.Backtracking.Prefix
import TypeQuery.Proofs.Query.Answer

/-!
# TypeQuery.Proofs.Query.Flags

The flags of a pattern are a set.  A pattern that is read as a regular expression
gets its modes from outside, and one that needs backtracking gets them as letters
in front of it; neither way shows the order of the flags or how often one is
written, and `g` and `u` ask for what is done anyway.

* `modeLetters_of_known`, `modeLetters_of_unknown` — the letters of flags;
* `build_congr` — the matcher depends on the set of modes only;
* `pattern_flags_act_as_set` — and so does the place that a pattern stands for.
-/

namespace TypeQuery

open Pattern

/-! ## sets of flags -/

namespace Query

/-- The letters of flags; without flags there are none. -/
def flagLetters (flags : Option String) : List Char :=
  (flags.getD "").toList

/-- The flags that a pattern may have. -/
def flagNames : List Char :=
  ['g', 'i', 'm', 's', 'u']

/-- All letters are flags of patterns. -/
def KnownFlags (flags : Option String) : Prop :=
  ∀ c ∈ flagLetters flags, c ∈ flagNames

instance (flags : Option String) : Decidable (KnownFlags flags) :=
  List.decidableBAll (· ∈ flagNames) (flagLetters flags)

/-- The flags have the same of the letters that set modes. -/
def SameModes (flags flags' : Option String) : Prop :=
  ∀ c ∈ ['i', 'm', 's'], c ∈ flagLetters flags ↔ c ∈ flagLetters flags'

instance (flags flags' : Option String) : Decidable (SameModes flags flags') :=
  List.decidableBAll (fun c => c ∈ flagLetters flags ↔ c ∈ flagLetters flags') ['i', 'm', 's']

/-- A `g` that is added is a flag like any other. -/
theorem toList_globalFlags (flags : Option String) :
    (globalFlags flags).toList = flagLetters flags ∨
      (globalFlags flags).toList = flagLetters flags ++ ['g'] := by
  unfold globalFlags
  dsimp only
  split
  · exact .inl rfl
  · exact .inr (by simp [flagLetters])

end Query

namespace QueryFault

/-- The fault without the flags that it quotes. -/
def withoutFlags : QueryFault → QueryFault
  | .unsupportedFlag flag _ => .unsupportedFlag flag ""
  | .tooFewMatches pattern _ found file index => .tooFewMatches pattern "" found file index
  | fault => fault

end QueryFault

/-! ## the letters that set modes -/

namespace Pattern.Matcher

theorem modeLetters_of_known (flags : String) {cs : List Char}
    (h : ∀ c ∈ cs, c ∈ Query.flagNames) :
    modeLetters flags cs = .ok (cs.filter isModeLetter) := by
  induction cs with
  | nil => rfl
  | cons c cs ih =>
      obtain ⟨hc, hcs⟩ := List.forall_mem_cons.mp h
      have hrest := ih hcs
      simp only [Query.flagNames, List.mem_cons, List.not_mem_nil, or_false] at hc
      obtain rfl | rfl | rfl | rfl | rfl := hc <;>
        simp [modeLetters, hrest, isModeLetter, Except.map]

/-- The first letter that is no flag is quoted. -/
theorem modeLetters_of_unknown (flags : String) {cs : List Char}
    (h : ∃ c ∈ cs, c ∉ Query.flagNames) :
    ∃ c ∈ cs, c ∉ Query.flagNames ∧ modeLetters flags cs = .error (.unsupportedFlag c flags) := by
  induction cs with
  | nil => simp at h
  | cons c cs ih =>
      by_cases hc : c ∈ Query.flagNames
      · obtain ⟨d, hd, hunknown⟩ := h
        have hd' : d ∈ cs := (List.mem_cons.mp hd).resolve_left fun heq => hunknown (heq ▸ hc)
        obtain ⟨e, he, hunknown, herror⟩ := ih ⟨d, hd', hunknown⟩
        refine ⟨e, List.mem_cons_of_mem c he, hunknown, ?_⟩
        simp only [Query.flagNames, List.mem_cons, List.not_mem_nil, or_false] at hc
        obtain rfl | rfl | rfl | rfl | rfl := hc <;> simp [modeLetters, herror, Except.map]
      · refine ⟨c, List.mem_cons_self, hc, ?_⟩
        simp only [Query.flagNames, List.mem_cons, List.not_mem_nil, or_false, not_or] at hc
        simp [modeLetters, hc]

/-! ## the same modes -/

/-- The letters of flags that set modes. -/
def letters (flags : Option String) : List Char :=
  (Query.flagLetters flags).filter isModeLetter

theorem isModeLetter_of_mem_letters {flags : Option String} :
    ∀ c ∈ letters flags, isModeLetter c = true :=
  fun _ hc => (List.mem_filter.mp hc).2

theorem modeLetters_globalFlags {flags : Option String} (h : Query.KnownFlags flags) :
    modeLetters (Query.globalFlags flags) (Query.globalFlags flags).toList = .ok (letters flags) := by
  obtain heq | heq := Query.toList_globalFlags flags
  · rw [heq, modeLetters_of_known _ h, letters]
  · have hadded : ∀ c ∈ Query.flagLetters flags ++ ['g'], c ∈ Query.flagNames :=
      List.forall_mem_append.mpr ⟨h, by simp [Query.flagNames]⟩
    rw [heq, modeLetters_of_known _ hadded, List.filter_append, letters]
    simp [isModeLetter]

section

variable {flags flags' : Option String}

theorem mem_letters_congr (hsame : Query.SameModes flags flags') {c : Char}
    (hc : c ∈ ['i', 'm', 's']) : c ∈ letters flags ↔ c ∈ letters flags' := by
  rw [letters, letters, List.mem_filter, List.mem_filter, hsame c hc]

theorem modes_congr (hsame : Query.SameModes flags flags') :
    modes (letters flags) = modes (letters flags') := by
  simp [modes, mem_letters_congr hsame]

theorem switchOn_congr (hsame : Query.SameModes flags flags') (f : Pattern.Flags) :
    f.switchOn (letters flags) = f.switchOn (letters flags') := by
  simp [Flags.switchOn, mem_letters_congr hsame]

theorem letters_eq_nil_of_sameModes (hsame : Query.SameModes flags flags')
    (h : letters flags = []) : letters flags' = [] := by
  refine List.eq_nil_iff_forall_not_mem.mpr fun c hc => ?_
  have hmode : c ∈ ['i', 'm', 's'] := by
    simpa using Backtracking.isModeLetter_cases (isModeLetter_of_mem_letters c hc)
  have hmem := (mem_letters_congr hsame hmode).mpr hc
  rw [h] at hmem
  contradiction

/-- The notation that backtracks reads a pattern behind the letters of the same modes alike. -/
theorem ofBacktracking?_withLetters_congr (hsame : Query.SameModes flags flags')
    (pattern : List Char) :
    ofBacktracking? (withLetters (letters flags) pattern) =
      ofBacktracking? (withLetters (letters flags') pattern) := by
  by_cases hnil : letters flags = []
  · rw [hnil, letters_eq_nil_of_sameModes hsame hnil]
  · have hnil' : letters flags' ≠ [] := fun h =>
      hnil (letters_eq_nil_of_sameModes (fun c hc => (hsame c hc).symm) h)
    have hfront : ∀ {ls : List Char}, ls ≠ [] →
        withLetters ls pattern = Backtracking.flagPrefix ls pattern := by
      intro ls hls
      simp [withLetters, hls, Backtracking.flagPrefix]
    rw [hfront hnil, hfront hnil', ofBacktracking?, ofBacktracking?,
      Backtracking.parse?_flagPrefix_congr hnil hnil' isModeLetter_of_mem_letters
        isModeLetter_of_mem_letters (switchOn_congr hsame _)]

end

/-! ## the same matcher -/

/-- The two ways in which a pattern is searched for. -/
inductive Engine where
  /-- As a regular expression. -/
  | regular
  /-- As a pattern in the notation that backtracks. -/
  | backtracking
  deriving DecidableEq, Repr

/-- The first engine that accepts a pattern with flags. -/
def engine? (pattern flags : String) : Option Engine :=
  match modeLetters flags flags.toList with
  | .error _ => none
  | .ok letters =>
    if (Regex.parse? (modes letters) pattern.toList).isSome then some .regular
    else if (ofBacktracking? (withLetters letters pattern.toList)).isSome then some .backtracking
    else none

/-- What an engine accepts has a matcher. -/
theorem isSome_engine?_iff {pattern flags : String} :
    (engine? pattern flags).isSome = true ↔ ∃ m, build pattern flags = .ok m := by
  unfold engine? build
  cases modeLetters flags flags.toList with
  | error fault => simp [bind, Except.bind]
  | ok letters =>
      cases hregex : Regex.parse? (modes letters) pattern.toList with
      | some r => simp [bind, Except.bind, hregex, pure, Except.pure]
      | none =>
          cases hback : ofBacktracking? (withLetters letters pattern.toList) with
          | some m => simp [bind, Except.bind, hregex, hback, pure, Except.pure]
          | none => simp [bind, Except.bind, hregex, hback, throw, throwThe, MonadExceptOf.throw]

section

variable {flags flags' : Option String}

theorem engine?_congr (hflags : Query.KnownFlags flags) (hflags' : Query.KnownFlags flags')
    (hsame : Query.SameModes flags flags') (pattern : String) :
    engine? pattern (Query.globalFlags flags) = engine? pattern (Query.globalFlags flags') := by
  rw [engine?, engine?, modeLetters_globalFlags hflags, modeLetters_globalFlags hflags']
  simp only [modes_congr hsame, ofBacktracking?_withLetters_congr hsame]

/-- **Flags with the same modes make the same matcher**, or the same fault. -/
theorem build_congr (hflags : Query.KnownFlags flags) (hflags' : Query.KnownFlags flags')
    (hsame : Query.SameModes flags flags') (pattern : String) :
    build pattern (Query.globalFlags flags) = build pattern (Query.globalFlags flags') := by
  rw [build, build, modeLetters_globalFlags hflags, modeLetters_globalFlags hflags']
  simp only [bind, Except.bind, modes_congr hsame, ofBacktracking?_withLetters_congr hsame]

end

end Pattern.Matcher

/-! ## the same place -/

namespace Checker

/-- Where flags have the same modes, only a fault that quotes them can tell them apart. -/
theorem resolve_congr (c : Checker) (file text pattern : String) {flags flags' : Option String}
    (index : Nat) (hflags : Query.KnownFlags flags) (hflags' : Query.KnownFlags flags')
    (hsame : Query.SameModes flags flags') :
    (c.resolve file text (.pattern pattern flags index)).mapError QueryFault.withoutFlags =
      (c.resolve file text (.pattern pattern flags' index)).mapError QueryFault.withoutFlags := by
  have hbuild := Matcher.build_congr hflags hflags' hsame pattern
  rw [resolve, resolve]
  cases hb : Matcher.build pattern (Query.globalFlags flags) with
  | error fault =>
      rw [hb] at hbuild
      rw [resolvePattern, resolvePattern, hb, ← hbuild]
      rfl
  | ok m =>
      rw [hb] at hbuild
      rw [resolvePattern_of_build hb, resolvePattern_of_build hbuild.symm]
      cases m.select text.toList.toArray index with
      | error _ => rfl
      | ok selection => cases selection <;> rfl

/-- A letter that is no flag is refused before the pattern is looked at. -/
theorem resolve_of_unknown (c : Checker) (file text pattern : String) {flags : Option String}
    (index : Nat) (h : ¬Query.KnownFlags flags) :
    ∃ letter ∈ Query.flagLetters flags, letter ∉ Query.flagNames ∧
      c.resolve file text (.pattern pattern flags index) =
        .error (.unsupportedFlag letter (Query.globalFlags flags)) := by
  have hmem : ∀ letter, letter ∉ Query.flagNames →
      (letter ∈ (Query.globalFlags flags).toList ↔ letter ∈ Query.flagLetters flags) := by
    intro letter hletter
    have hg : letter ≠ 'g' := fun heq => hletter (heq ▸ List.mem_cons_self)
    obtain heq | heq := Query.toList_globalFlags flags <;> simp [heq, hg]
  obtain ⟨letter, hletter, hunknown⟩ : ∃ letter ∈ Query.flagLetters flags,
      letter ∉ Query.flagNames := by simpa [Query.KnownFlags] using h
  obtain ⟨first, hfirst, hunknown, herror⟩ := Matcher.modeLetters_of_unknown
    (Query.globalFlags flags) ⟨letter, (hmem letter hunknown).mpr hletter, hunknown⟩
  refine ⟨first, (hmem first hunknown).mp hfirst, hunknown, ?_⟩
  rw [resolve, resolvePattern, Matcher.build, herror]
  rfl

end Checker

end TypeQuery
