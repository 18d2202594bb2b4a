import TypeQuery.Checker.Locate
import TypeQuery.Failure
import TypeQuery.Record

/-!
# TypeQuery.Answer

Answering queries. A query goes through its stages one after the other: its arguments are validated,
its file and its project are looked up in a file tree, a host builds a program for them, and the
program is asked about the target.

* `Checker.answer` — the answer of a program
* `FileTree.request` — what a host is asked to build a program for
* `FileTree.answerIn`, `FileTree.answerArgsIn` — the answer to a query, in the monad of the host
* `FileTree.answer`, `FileTree.answerArgs` — the answer to a query
-/

namespace TypeQuery

/-- The answer to a target in a file of the program. -/
def Checker.answer (c : Checker) (file : String) (project : Option String) (target : Target)
    (options : Options) : Except Failure Record := do
  match c.root? file, c.text? file with
  | some root, some text =>
    let location ← (c.resolve file text target).mapError .invalidQuery
    let node := c.locate root location.offset
    let record : Record := {
      file := file
      project := project
      location := location
      nodeKind := c.kind node
      facts := c.facts node options.limits
      diagnostics := c.report file }
    return record.without options.omissions
  | _, _ => throw (.programUnavailable (.fileMissing file))

/-- A file and its project. -/
structure ProgramRequest where
  /-- The canonical path of the file. -/
  file : Path
  /-- The project; none if no configuration governs the file. -/
  project : Option Project
  deriving Repr

/-- What builds programs, in the monad of whatever else it does. A program has its file under the text
of the canonical path. A host that fails gives its reasons, the outermost first. -/
abbrev HostIn (m : Type → Type) := ProgramRequest → m (Except (List String) Checker)

/-- A host that does nothing but build programs. -/
abbrev Host := ProgramRequest → Except (List String) Checker

/-- The answer to a query, given what the host has built for it. -/
def ProgramRequest.answer (request : ProgramRequest) (built : Except (List String) Checker)
    (q : Query) (options : Options) : Except Failure Record := do
  let checker ← built.mapError fun reasons => .programUnavailable (.notBuilt reasons)
  checker.answer request.file.text (request.project.map (·.descriptor)) q.target options

namespace FileTree

/-- The canonical path of a file. -/
def fileAt (t : FileTree) (path : Path) : Except Failure Path :=
  match t.canonical path with
  | .ok file => if t.isFile file then .ok file else .error (.fileNotFound path)
  | .error _ => .error (.fileNotFound path)

/-- The file and the project of a query. -/
def request (t : FileTree) (q : Query) : Except Failure ProgramRequest := do
  let file ← t.fileAt q.file
  let project ← (t.projectOf file q.project).mapError .projectUnresolved
  return ⟨file, project⟩

/-- The answer to a query, with what the host does on the way. -/
def answerIn {m : Type → Type} [Monad m] (t : FileTree) (host : HostIn m) (q : Query)
    (options : Options) : m (Except Failure Record) :=
  match t.request q with
  | .error failure => return .error failure
  | .ok request => do
    let built ← host request
    return request.answer built q options

/-- The answer to the arguments of a query, with what the host does on the way. -/
def answerArgsIn {m : Type → Type} [Monad m] (t : FileTree) (host : HostIn m) (args : QueryArgs)
    (options : Options) : m (Except Failure Record) :=
  match args.validate with
  | .error fault => return .error (.invalidQuery fault)
  | .ok q => t.answerIn host q options

/-- The answer to a query. -/
def answer (t : FileTree) (host : Host) (q : Query) (options : Options) :
    Except Failure Record :=
  t.answerIn (m := Id) host q options

/-- The answer to the arguments of a query. -/
def answerArgs (t : FileTree) (host : Host) (args : QueryArgs) (options : Options) :
    Except Failure Record :=
  t.answerArgsIn (m := Id) host args options

end FileTree

end TypeQuery
