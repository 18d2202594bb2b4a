import TypeQuery.Config.Reader
import TypeQuery.Proofs.Json.Values

/-!
# TypeQuery.Proofs.Config.Reader

A configuration is read from strict JSON only.  Every reader of a setting reads a
value, a group of settings reads a list or an object of such values, and what is
passed over is a value as well.

* `readsValue_textSetting`, … — settings of one kind;
* `readsValue_group` — groups of settings;
* `isStrictJson_of_parseJson` — configurations.
-/

namespace TypeQuery.Config

open Json Json.Reader

variable {α σ : Type} {K : Language Token}

/-! ## settings of one kind -/

theorem fails_unexpected : Fails (unexpected : Reader α) := by
  have scalar {β γ : Type} (x : Reader β) (y : Reader γ) :
      Fails (x >>= fun _ => y >>= fun _ => (failShape : Reader α)) :=
    .bind_right fun _ => .bind_right fun _ => fails_failShape
  refine .bind_right fun o => ?_
  split
  iterate 5 exact scalar _ _
  · exact fails_failShape
  · exact fails_failShape
  · split
    · exact .bind_right fun _ => fails_failShape
    · exact fails_failNext _
  · exact fails_failNext _

theorem readsValue_nullable {r : Reader α} (hr : ReadsValue r) : ReadsValue (nullable r) := by
  refine fun K => .bind reads_skipBlanks fun o => ?_
  split
  · exact reads_word (.inl rfl) (.pure _)
  · exact .given (.bind (hr K) fun _ => .pure _)

theorem readsValue_textSetting : ReadsValue textSetting := by
  refine fun K => .bind reads_skipBlanks fun o => ?_
  split
  · exact reads_key fun _ _ us hus => single_mem_phrase_mul .string hus
  · exact fails_unexpected.reads

theorem readsValue_textsSetting : ReadsValue textsSetting := by
  refine fun K => .bind reads_skipBlanks fun o => ?_
  split
  · exact reads_token (t := .opening .list) rfl rfl (fun _ => cons_mem_phrase_mul .group)
      (reads_listOf readsValue_textSetting)
  · exact fails_unexpected.reads

theorem readsValue_textMapSetting : ReadsValue textMapSetting := by
  refine fun K => .bind reads_skipBlanks fun o => ?_
  split
  · refine reads_token (t := .opening .object) rfl rfl (fun _ => cons_mem_phrase_mul .group)
      (reads_fieldsFrom (fun entries k K => ?_) _)
    exact .bind reads_colon fun _ => .bind (readsValue_textsSetting K) fun _ => .pure _
  · exact fails_unexpected.reads

theorem readsValue_switchSetting : ReadsValue switchSetting := by
  refine fun K => .bind (readsValue_value _ K) fun j => ?_
  split
  · exact .pure _
  · split
    · exact .pure _
    · exact (fails_throw _).reads
  · exact fails_failShape.reads

/-! ## groups of settings -/

/-- Every setting of the group reads a value. -/
def Settings.ReadValues (g : Settings σ) : Prop :=
  ∀ name ∈ g.names, ∀ s, ReadsValue (g.read s name)

variable {g : Settings σ}

theorem reads_inOrder (hg : g.ReadValues) {names : List String} (hnames : ∀ n ∈ names, n ∈ g.names)
    (first : Bool) (s : σ) :
    Reads (g.inOrder names first s) (written (phrase (position first .list) * K))
      (fun _ => written K) := by
  have close (first : Bool) (s : σ) : Reads (next >>= fun _ => pure s)
      (given (some ']') (written (phrase (position first .list) * K))) (fun _ => written K) :=
    reads_token (t := .closing .list) rfl rfl
      (fun us hus => single_mem_phrase_mul (closing_position first .list) hus) (.pure _)
  induction names generalizing first s with
  | nil =>
    refine .bind reads_skipBlanks fun o => ?_
    split
    · exact (fails_failNext _).reads
    · exact close first s
    · exact (Fails.bind_right fun _ => .bind_right fun _ => fails_failNext _).reads
    · exact (fails_failNext _).reads
  | cons name names ih =>
    obtain ⟨hname, hnames⟩ := List.forall_mem_cons.mp hnames
    have more : Reads (g.read s name >>= fun s => g.inOrder names false s)
        (written (phrase (.items .list) * K)) (fun _ => written K) :=
      .mono (.bind (hg name hname s _) fun s => ih hnames false s)
        (written_mono ((phrase_mul_le .element).trans (phrase_item_mul_le .list)))
    refine .bind reads_skipBlanks fun o => ?_
    split
    · exact (fails_failNext _).reads
    · exact close first s
    · cases first with
      | true => exact .given (more.mono (written_mono (phrase_mul_le .filled)))
      | false =>
        refine .ite (fun _ => .ite (fun _ => (fails_failNext _).bind.reads) fun hc => ?_) nofun
        obtain rfl : _ = ',' := by simpa using hc
        refine reads_comma fun o => ?_
        split
        · exact (fails_failNext _).bind.reads
        · exact (fails_failNext _).bind.reads
        · exact .given more

theorem readsField_named (hg : g.ReadValues) : ReadsField g.named := by
  intro seen k K
  refine .ite (fun hk => .ite (fun _ => fails_failShape.bind.reads) fun _ => ?_) fun _ => ?_
  · have hk : k ∈ g.names := by simpa using hk
    exact .bind reads_colon fun _ => .bind (hg k hk _ K) fun _ => .pure _
  · exact .bind reads_colon fun _ => .bind (readsValue_skipValue K) fun _ => .pure _

theorem readsValue_group (hg : g.ReadValues) (init : σ) : ReadsValue (g.group init) := by
  refine fun K => .bind reads_skipBlanks fun o => ?_
  split
  · exact reads_token (t := .opening .list) rfl rfl (fun _ => cons_mem_phrase_mul .group)
      (reads_inOrder hg (fun _ h => h) true init)
  · exact reads_object (readsField_named hg) fun _ => .pure _
  · exact fails_unexpected.reads

theorem readValues_optionSettings : optionSettings.ReadValues := by
  have setting {β : Type} {r : Reader β} (hr : ReadsValue r)
      (set : Option β → CompilerOptions) : ReadsValue (nullable r >>= fun v => pure (set v)) :=
    fun K => .bind (readsValue_nullable hr K) fun _ => .pure _
  intro name hname o
  simp only [optionSettings, List.mem_cons, List.not_mem_nil, or_false] at hname
  rcases hname with rfl | rfl | rfl | rfl | rfl | rfl | rfl | rfl | rfl | rfl | rfl | rfl
  iterate 4 exact setting readsValue_textSetting _
  iterate 2 exact setting readsValue_textsSetting _
  · exact setting readsValue_textSetting _
  · exact setting readsValue_textMapSetting _
  iterate 4 exact setting readsValue_switchSetting _

theorem readValues_configSettings : configSettings.ReadValues := by
  have setting {β : Type} {r : Reader β} (hr : ReadsValue r)
      (set : Option β → Config) : ReadsValue (nullable r >>= fun v => pure (set v)) :=
    fun K => .bind (readsValue_nullable hr K) fun _ => .pure _
  intro name hname c
  simp only [configSettings, List.mem_cons, List.not_mem_nil, or_false] at hname
  rcases hname with rfl | rfl | rfl | rfl | rfl
  · exact setting readsValue_textSetting _
  · exact setting (readsValue_group readValues_optionSettings _) _
  iterate 3 exact setting readsValue_textsSetting _

/-! ## whole configurations -/

/-- Only strict JSON is read as a configuration. -/
theorem isStrictJson_of_parseJson {cs : List Char} {c : Config} (h : parseJson cs = .ok c) :
    IsStrictJson cs :=
  isStrictJson_of_readText (readsValue_group readValues_configSettings {}) h

end TypeQuery.Config
