/-!
# TypeQuery.Config

Project configurations: what a `tsconfig.json` says about the program that is to be checked. A
setting that is absent stays unset, so that a configuration can be laid over another one: what it
sets wins, what it leaves unset comes from below.

* `Config`, `CompilerOptions`
* `CompilerOptions.overlay`, `Config.overlay` — one configuration over another
* `CompilerOptions.strictNullChecksInEffect`
-/

namespace TypeQuery

/-- The compiler options that change what a checker reports. -/
structure CompilerOptions where
  target : Option String := none
  moduleKind : Option String := none
  moduleResolution : Option String := none
  jsx : Option String := none
  lib : Option (List String) := none
  types : Option (List String) := none
  baseUrl : Option String := none
  /-- Path patterns with what they stand for. -/
  paths : Option (List (String × List String)) := none
  strict : Option Bool := none
  strictNullChecks : Option Bool := none
  noImplicitAny : Option Bool := none
  allowJs : Option Bool := none
  deriving DecidableEq, Repr, Inhabited

/-- A project configuration. -/
structure Config where
  /-- The configuration that this one is laid over. -/
  parent : Option String := none
  compilerOptions : Option CompilerOptions := none
  included : Option (List String) := none
  excluded : Option (List String) := none
  files : Option (List String) := none
  deriving DecidableEq, Repr, Inhabited

namespace CompilerOptions

/-- Whether `null` and `undefined` are types of their own: as the option says, or else as the
strict family says, or else not. -/
def strictNullChecksInEffect (o : CompilerOptions) : Bool :=
  (o.strictNullChecks.or o.strict).getD false

/-- Each option as `upper` sets it, or else as `lower` does. -/
def overlay (upper lower : CompilerOptions) : CompilerOptions where
  target := upper.target.or lower.target
  moduleKind := upper.moduleKind.or lower.moduleKind
  moduleResolution := upper.moduleResolution.or lower.moduleResolution
  jsx := upper.jsx.or lower.jsx
  lib := upper.lib.or lower.lib
  types := upper.types.or lower.types
  baseUrl := upper.baseUrl.or lower.baseUrl
  paths := upper.paths.or lower.paths
  strict := upper.strict.or lower.strict
  strictNullChecks := upper.strictNullChecks.or lower.strictNullChecks
  noImplicitAny := upper.noImplicitAny.or lower.noImplicitAny
  allowJs := upper.allowJs.or lower.allowJs

end CompilerOptions

namespace Config

/-- The configuration `upper` laid over `lower`. Nothing is left below the result. -/
def overlay (upper lower : Config) : Config where
  parent := none
  compilerOptions :=
    match upper.compilerOptions, lower.compilerOptions with
    | some o, some u => some (o.overlay u)
    | o, u => o.or u
  included := upper.included.or lower.included
  excluded := upper.excluded.or lower.excluded
  files := upper.files.or lower.files

end Config

end TypeQuery
