import TypeQuery.Proofs.Project.Chain

/-!
# TypeQuery.Proofs.Project.Inheritance

What is left of a chain of configurations when it was loaded.  Each of them is
laid over what comes from below it, so that of every setting the nearest value
counts, whatever the other settings do:

```
/p/app.json      strict                 files      ↓ names
/p/team.json                 include    files      ↓ names
/p/base.json     strict  jsx include
                 ──────  ───  ───────   ───────
                 app     base team      app
```

A compiler option is looked up by its name (`CompilerOptions.get?`), so that one
statement speaks of all of them, and a configuration without compiler options is
one that sets none.

* `CompilerOptions.ext_get?` — the names cover the compiler options;
* `Config.SettledBy` — what every setting comes to along a chain;
* `Config.SettledBy.overlay`, `Config.SettledBy.unique` — one more configuration in front, and
  nothing left open;
* `loadConfig_settles` — what loading answers is settled by the chain.
-/

namespace TypeQuery

/-! ## compiler options by name -/

/-- The names of the compiler options. -/
inductive OptionName where
  | target
  | moduleKind
  | moduleResolution
  | jsx
  | lib
  | types
  | baseUrl
  | paths
  | strict
  | strictNullChecks
  | noImplicitAny
  | allowJs
  deriving DecidableEq, Repr

/-- The values that an option can have. -/
def OptionName.Value : OptionName → Type
  | .target | .moduleKind | .moduleResolution | .jsx | .baseUrl => String
  | .lib | .types => List String
  | .paths => List (String × List String)
  | .strict | .strictNullChecks | .noImplicitAny | .allowJs => Bool

namespace CompilerOptions

/-- The value of an option, if it is set. -/
def get? (o : CompilerOptions) : (n : OptionName) → Option n.Value
  | .target => o.target
  | .moduleKind => o.moduleKind
  | .moduleResolution => o.moduleResolution
  | .jsx => o.jsx
  | .lib => o.lib
  | .types => o.types
  | .baseUrl => o.baseUrl
  | .paths => o.paths
  | .strict => o.strict
  | .strictNullChecks => o.strictNullChecks
  | .noImplicitAny => o.noImplicitAny
  | .allowJs => o.allowJs

/-- There is nothing else in the compiler options. -/
theorem ext_get? {o u : CompilerOptions} (h : ∀ n, o.get? n = u.get? n) : o = u := by
  cases o
  cases u
  congr
  · exact h .target
  · exact h .moduleKind
  · exact h .moduleResolution
  · exact h .jsx
  · exact h .lib
  · exact h .types
  · exact h .baseUrl
  · exact h .paths
  · exact h .strict
  · exact h .strictNullChecks
  · exact h .noImplicitAny
  · exact h .allowJs

theorem get?_overlay (upper lower : CompilerOptions) (n : OptionName) :
    (upper.overlay lower).get? n = (upper.get? n).or (lower.get? n) := by
  cases n <;> rfl

end CompilerOptions

namespace Config

/-- The value of a compiler option, if there are compiler options and it is set. -/
def option? (c : Config) (n : OptionName) : Option n.Value :=
  c.compilerOptions.bind (·.get? n)

theorem option?_overlay (upper lower : Config) (n : OptionName) :
    (upper.overlay lower).option? n = (upper.option? n).or (lower.option? n) := by
  unfold option? overlay
  cases upper.compilerOptions with
  | none => cases lower.compilerOptions <;> rfl
  | some o =>
      cases lower.compilerOptions with
      | none => simp
      | some u => exact o.get?_overlay u n

theorem isSome_compilerOptions_overlay (upper lower : Config) :
    (upper.overlay lower).compilerOptions.isSome ↔
      upper.compilerOptions.isSome ∨ lower.compilerOptions.isSome := by
  unfold overlay
  cases upper.compilerOptions <;> cases lower.compilerOptions <;> simp

/-! ## settings along a chain -/

/-- Every setting is as the first configuration of the chain says that sets it. -/
structure SettledBy (c : Config) (chain : List Config) : Prop where
  parent : c.parent = none
  included : c.included = chain.findSome? (·.included)
  excluded : c.excluded = chain.findSome? (·.excluded)
  files : c.files = chain.findSome? (·.files)
  hasOptions : c.compilerOptions.isSome ↔ ∃ d ∈ chain, d.compilerOptions.isSome
  options : ∀ n, c.option? n = chain.findSome? (·.option? n)

theorem findSome?_cons_eq_or {α : Type} (f : Config → Option α) (c : Config)
    (chain : List Config) : (c :: chain).findSome? f = (f c).or (chain.findSome? f) := by
  cases h : f c <;> simp [h]

namespace SettledBy

/-- A configuration that names no other one stands for itself. -/
theorem singleton {c : Config} (h : c.parent = none) : c.SettledBy [c] := by
  constructor
  · exact h
  all_goals simp

/-- **Step lemma**: laid over what a chain comes to, a configuration comes before the chain. -/
theorem overlay {c below : Config} {chain : List Config} (h : below.SettledBy chain) :
    (c.overlay below).SettledBy (c :: chain) := by
  constructor
  · rfl
  · rw [findSome?_cons_eq_or, ← h.included]
    rfl
  · rw [findSome?_cons_eq_or, ← h.excluded]
    rfl
  · rw [findSome?_cons_eq_or, ← h.files]
    rfl
  · rw [isSome_compilerOptions_overlay, h.hasOptions, List.exists_mem_cons_iff]
  · intro n
    rw [findSome?_cons_eq_or, ← h.options, option?_overlay]

/-- Nothing else in a configuration is left open. -/
theorem unique {c d : Config} {chain : List Config} (hc : c.SettledBy chain)
    (hd : d.SettledBy chain) : c = d := by
  have hoptions : c.compilerOptions = d.compilerOptions := by
    have hsome : c.compilerOptions.isSome ↔ d.compilerOptions.isSome :=
      hc.hasOptions.trans hd.hasOptions.symm
    have hget : ∀ n, c.option? n = d.option? n := fun n =>
      (hc.options n).trans (hd.options n).symm
    unfold option? at hget
    cases ho : c.compilerOptions <;> cases hu : d.compilerOptions <;> simp [ho, hu] at hsome hget
    · rfl
    · exact congrArg some (CompilerOptions.ext_get? hget)
  cases c
  cases d
  congr
  · exact hc.parent.trans hd.parent.symm
  · exact hc.included.trans hd.included.symm
  · exact hc.excluded.trans hd.excluded.symm
  · exact hc.files.trans hd.files.symm

end SettledBy

end Config

namespace FileTree

variable {t : FileTree}

/-! ## chains of configurations -/

/-- The configurations from a path on: the one at the path, and below it those from the path on that
it names. -/
inductive Inherits (t : FileTree) : Path → List Config → Prop
  | last {p : Path} {config : Config} (hholds : t.Holds p config) (hlast : config.parent = none) :
    Inherits t p [config]
  | link {p q : Path} {config : Config} {chain : List Config} (hlink : t.Links p config q)
    (rest : Inherits t q chain) : Inherits t p (config :: chain)

theorem Inherits.unique {p : Path} {chain chain' : List Config} (h : t.Inherits p chain)
    (h' : t.Inherits p chain') : chain = chain' := by
  induction h generalizing chain' with
  | last hholds hlast =>
      cases h' with
      | last hholds' => rw [hholds.unique hholds']
      | link hlink =>
          obtain ⟨parent, hparent, -⟩ := hlink.leads
          rw [← hholds.unique hlink.holds, hlast] at hparent
          contradiction
  | link hlink _ ih =>
      cases h' with
      | last hholds hlast =>
          obtain ⟨parent, hparent, -⟩ := hlink.leads
          rw [hlink.holds.unique hholds, hlast] at hparent
          contradiction
      | link hlink' rest' =>
          obtain ⟨rfl, rfl⟩ := hlink.unique hlink'
          rw [ih rest']

/-! ## loading -/

/-- **Run lemma**: however many levels there are and whatever was visited before, what loading
answers is settled by the configurations from the path on. -/
theorem exists_inherits_of_loadFrom (levels : Nat) {visited : List (List PathComponent)} {p : Path}
    {config : Config} (h : t.loadFrom levels visited p = .ok config) :
    ∃ chain, t.Inherits p chain ∧ config.SettledBy chain := by
  induction levels generalizing visited p config with
  | zero => contradiction
  | succ levels ih =>
      rw [loadFrom_succ] at h
      split at h
      · contradiction
      · cases hread : t.read p with
        | error fault => simp [hread] at h
        | ok text =>
            cases hparse : Config.parse text with
            | error fault => simp [hread, hparse] at h
            | ok upper =>
                have hholds : t.Holds p upper := ⟨text, hread, hparse⟩
                cases hparent : upper.parent with
                | none =>
                    simp only [hread, hparse, hparent] at h
                    obtain rfl := Except.ok.inj h
                    exact ⟨[upper], .last hholds hparent, .singleton hparent⟩
                | some parent =>
                    obtain ⟨q, hq, hlink⟩ := exists_link_of_parent hholds hparent
                    simp only [hread, hparse, hparent, hq] at h
                    cases hbelow : t.loadFrom levels (t.key p :: visited) q with
                    | error fault =>
                        rw [hbelow] at h
                        contradiction
                    | ok below =>
                        rw [hbelow] at h
                        obtain rfl := Except.ok.inj h
                        obtain ⟨chain, hchain, hsettled⟩ := ih hbelow
                        exact ⟨upper :: chain, .link hlink hchain, hsettled.overlay⟩

/-- **The nearest setter counts**: when a configuration could be loaded, there is just one chain of
configurations from its path on, and every setting of the answer is as the first of them says that
sets it. No configuration is left below the answer, it has compiler options if one of the chain has,
and this leaves nothing of it open. -/
theorem loadConfig_settles {start : Path} {config : Config} (h : t.loadConfig start = .ok config) :
    ∃ chain, t.Inherits start chain ∧ (∀ other, t.Inherits start other → other = chain) ∧
      config.SettledBy chain ∧ ∀ other : Config, other.SettledBy chain → other = config := by
  obtain ⟨chain, hchain, hsettled⟩ := exists_inherits_of_loadFrom _ h
  exact ⟨chain, hchain, fun other hother => hother.unique hchain, hsettled,
    fun other hother => hother.unique hsettled⟩

/-- A chain of three: the second configuration has no compiler options and hands down those of the
third, and the first one sets an option that the third one sets as well. -/
theorem loadConfig_settles_through_bare :
    let t : FileTree := ⟨[(["p"], .directory),
      (["p", "a.json"], .file (some
        "\x7b\"extends\": \"./b\", \"compilerOptions\": \x7b\"strict\": true\x7d\x7d")),
      (["p", "b.json"], .file (some "\x7b\"extends\": \"/p/c.json\", \"include\": [\"b\"]\x7d")),
      (["p", "c.json"], .file (some
        "\x7b\"compilerOptions\": \x7b\"strict\": \"off\", \"jsx\": \"c\"\x7d, \"include\": []\x7d"))],
      ["p"]⟩
    let config : Config :=
      { compilerOptions := some { strict := some true, jsx := some "c" }, included := some ["b"] }
    t.loadConfig ⟨"a.json"⟩ = .ok config ∧
      ∃ chain, t.Inherits ⟨"a.json"⟩ chain ∧ config.SettledBy chain := by
  intro t config
  have h : t.loadConfig ⟨"a.json"⟩ = .ok config := by decide +kernel
  obtain ⟨chain, hchain, -, hsettled, -⟩ := loadConfig_settles h
  exact ⟨h, chain, hchain, hsettled⟩

end FileTree

end TypeQuery
