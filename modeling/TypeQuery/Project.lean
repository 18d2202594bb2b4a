import TypeQuery.Config.Reader
import TypeQuery.FileTree

/-!
# TypeQuery.Project

The project of a file. A project is given by a configuration file, which is named by the caller or
looked for in the directory of the file and in those above it. A configuration may name another one
that it is laid over, and so on; a chain that comes back to itself is refused.

* `FileTree.loadConfig` — a configuration with those below it
* `FileTree.findConfig?`, `FileTree.resolveConfigPath` — which configuration file is meant
* `FileTree.projectOf` — the project of a file
-/

namespace TypeQuery

/-- A project. -/
structure Project where
  /-- The canonical path of the configuration file. -/
  configPath : Path
  /-- The directory of the configuration file. -/
  rootDirectory : Path
  config : Config
  deriving DecidableEq, Repr

namespace Project

/-- The compiler options of a project, all unset if the configuration has none. -/
def compilerOptions (p : Project) : CompilerOptions :=
  p.config.compilerOptions.getD {}

/-- How an answer names the project. -/
def descriptor (p : Project) : String :=
  p.configPath.text

end Project

/-! ## faults -/

/-- Why there is no project. -/
inductive ProjectFault where
  | unreadable (path : Path) (fault : FileFault)
  | unparsable (path : Path) (fault : Json.Fault)
  /-- A configuration that is below itself. -/
  | cycle (path : Path)
  /-- A configuration whose directory cannot be told. -/
  | noDirectory
  | notFound (path : Path)
  | notFile (path : Path)
  deriving DecidableEq, Repr

/-- The fault in words. What is wrong with the JSON of a configuration is not part of them. -/
def ProjectFault.message : ProjectFault → String
  | .unreadable path fault => "failed to read tsconfig: " ++ path.text ++ ": " ++ fault.message
  | .unparsable path _ =>
    "failed to parse tsconfig: " ++ path.text ++ ": failed to parse tsconfig JSON"
  | .cycle path => "tsconfig extends cycle detected at " ++ path.text
  | .noDirectory => "tsconfig has no parent directory"
  | .notFound path => "tsconfig not found at " ++ path.text
  | .notFile path => "project path is not a file: " ++ path.text

namespace FileTree

/-! ## loading -/

/-- The path that a configuration at `path` means by `parent`: seen from its own directory, and with
`.json` added to a name without an extension. -/
def parentPath (path : Path) (parent : String) : Except ProjectFault Path :=
  match path.parent? with
  | none => .error .noDirectory
  | some directory =>
    let candidate : Path := ⟨parent⟩
    let candidate :=
      if candidate.extension?.isNone then candidate.addExtension "json" else candidate
    .ok (directory.join candidate)

/-- The configuration at `path` with those below it, when the ones in `visited` are above it. A chain
that has more levels than there are files comes back to itself. -/
def loadFrom (t : FileTree) :
    Nat → List (List PathComponent) → Path → Except ProjectFault Config
  | 0, _, path => .error (.cycle (t.canonicalOrSame path))
  | levels + 1, visited, path => do
    let canonical := t.canonicalOrSame path
    if visited.contains canonical.components then throw (.cycle canonical)
    let text ← (t.read path).mapError (.unreadable path)
    let config ← (Config.parse text).mapError (.unparsable path)
    match config.parent with
    | none => return config
    | some parent =>
      let below ← loadFrom t levels (canonical.components :: visited) (← parentPath path parent)
      return config.overlay below

/-- The configuration at a path, laid over those that it names. -/
def loadConfig (t : FileTree) (path : Path) : Except ProjectFault Config :=
  t.loadFrom (t.entries.length + 1) [] path

/-- The project of the configuration at a path. -/
def loadProject (t : FileTree) (path : Path) : Except ProjectFault Project := do
  let config ← t.loadConfig path
  let configPath := t.canonicalOrSame path
  return ⟨configPath, configPath.parent?.getD ⟨"."⟩, config⟩

/-! ## finding -/

/-- The name of a configuration file. -/
def configFileName : Path := ⟨"tsconfig.json"⟩

/-- The configuration file in the directory `start` or in the nearest one above it that has one. -/
def findConfig? (t : FileTree) (start : Path) : Option Path :=
  ((start.ancestors.map (·.join configFileName)).find? t.isFile).map t.canonicalOrSame

/-- The configuration file that a caller names, as seen from `directory`: a file, or a directory that
has one. -/
def resolveConfigPath (t : FileTree) (directory pointer : Path) : Except ProjectFault Path :=
  let candidate := directory.join pointer
  let candidate := if t.isDirectory candidate then candidate.join configFileName else candidate
  if !t.contains candidate then .error (.notFound candidate)
  else if !t.isFile candidate then .error (.notFile candidate)
  else .ok (t.canonicalOrSame candidate)

/-- The project of a file: the one that a caller names, or else the nearest one, or else none. -/
def projectOf (t : FileTree) (file : Path) (pointer : Option Path) :
    Except ProjectFault (Option Project) :=
  match pointer with
  | some pointer => do
    let path ← t.resolveConfigPath (pathOf t.workingDirectory) pointer
    some <$> t.loadProject path
  | none =>
    match file.parent?.bind t.findConfig? with
    | none => .ok none
    | some path => some <$> t.loadProject path

end FileTree

end TypeQuery
