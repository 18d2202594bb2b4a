import TypeQuery.Path

/-!
# TypeQuery.FileTree

A tree of directories and files, and where in it one stands. Everything in the tree has one place,
the list of names that leads to it from the top; a path is followed name by name and leads to a
place or to a fault.

* `FileTree.resolve` — the place that a path leads to
* `FileTree.read` — the text of a file
* `FileTree.canonical` — the one absolute path of a place, without detours
* `FileTree.write`, `FileTree.makeDirectories`, `FileTree.remove`, `FileTree.enter`
-/

namespace TypeQuery

/-- A place in a file tree: the names that lead to it. -/
abbrev Place := List String

/-- What is at a place. -/
inductive FileEntry where
  | directory
  /-- A file with its text; none if its bytes are no text. -/
  | file (text : Option String)
  deriving DecidableEq, Repr

/-- Why a path cannot be followed or a file cannot be read. -/
inductive FileFault where
  | missing
  | notDirectory
  | isDirectory
  | nameTooLong
  /-- A path with U+0000 in it. -/
  | nulInName
  /-- A file whose bytes are no text. -/
  | notText
  deriving DecidableEq, Repr

/-- The fault in words. -/
def FileFault.message : FileFault → String
  | .missing => "No such file or directory (os error 2)"
  | .notDirectory => "Not a directory (os error 20)"
  | .isDirectory => "Is a directory (os error 21)"
  | .nameTooLong => "File name too long (os error 36)"
  | .nulInName => "file name contained an unexpected NUL byte"
  | .notText => "stream did not contain valid UTF-8"

/-- A file tree. -/
structure FileTree where
  /-- What is where; the top is a directory in any case. -/
  entries : List (Place × FileEntry)
  /-- Where relative paths start. -/
  workingDirectory : Place
  deriving Repr

namespace FileTree

/-- A tree with nothing in it. -/
def empty : FileTree := ⟨[], []⟩

/-- What is at a place. -/
def get? (t : FileTree) (place : Place) : Option FileEntry :=
  if place.isEmpty then some .directory
  else (t.entries.find? (·.1 == place)).map (·.2)

/-! ## following paths -/

/-- The most bytes that a name may have. -/
def nameLimit : Nat := 255

/-- The most bytes that a path may have. -/
def pathLimit : Nat := 4095

/-- Follows one piece of a path, for which one has to stand in a directory. -/
def follow (t : FileTree) (here : Place) (piece : String) : Except FileFault Place :=
  match t.get? here with
  | some .directory =>
    if piece == "" || piece == "." then .ok here
    else if piece == ".." then .ok here.dropLast
    else if nameLimit < piece.utf8ByteSize then .error .nameTooLong
    else if (t.get? (here ++ [piece])).isSome then .ok (here ++ [piece])
    else .error .missing
  | _ => .error .notDirectory

/-- The pieces of a path, also those that mean nothing. -/
def pieces (p : Path) : List String :=
  (Path.splitSlashes p.text.toList).map String.ofList

/-- The place where a path starts. -/
def origin (t : FileTree) (p : Path) : Place :=
  if p.isAbsolute then [] else t.workingDirectory

/-- The place that a path leads to. -/
def resolve (t : FileTree) (p : Path) : Except FileFault Place :=
  if p.text.toList.contains '\x00' then .error .nulInName
  else if p.text.isEmpty then .error .missing
  else if pathLimit < p.text.utf8ByteSize then .error .nameTooLong
  else (pieces p).foldlM t.follow (t.origin p)

/-- What a path leads to. -/
def at? (t : FileTree) (p : Path) : Option FileEntry :=
  match t.resolve p with
  | .ok place => t.get? place
  | .error _ => none

/-- Whether a path leads to a file. -/
def isFile (t : FileTree) (p : Path) : Bool :=
  match t.at? p with
  | some (.file _) => true
  | _ => false

/-- Whether a path leads to a directory. -/
def isDirectory (t : FileTree) (p : Path) : Bool :=
  t.at? p == some .directory

/-- Whether a path leads anywhere. -/
def contains (t : FileTree) (p : Path) : Bool :=
  (t.at? p).isSome

/-- The text of the file that a path leads to. -/
def read (t : FileTree) (p : Path) : Except FileFault String := do
  match t.get? (← t.resolve p) with
  | none => throw .missing
  | some .directory => throw .isDirectory
  | some (.file none) => throw .notText
  | some (.file (some text)) => return text

/-! ## canonical paths -/

/-- The absolute path of a place. -/
def pathOf (place : Place) : Path :=
  ⟨"/" ++ "/".intercalate place⟩

/-- The absolute path of where a path leads to. -/
def canonical (t : FileTree) (p : Path) : Except FileFault Path :=
  (t.resolve p).map pathOf

/-- The canonical path, or the path itself if it leads nowhere. -/
def canonicalOrSame (t : FileTree) (p : Path) : Path :=
  match t.canonical p with
  | .ok q => q
  | .error _ => p

/-! ## changes -/

/-- Puts something at a place in place of what was there. -/
def put (t : FileTree) (place : Place) (e : FileEntry) : FileTree :=
  { t with entries := (place, e) :: t.entries.filter (·.1 != place) }

/-- What was put at a place below the top is there. -/
theorem get?_put_self (t : FileTree) {place : Place} (h : place ≠ []) (e : FileEntry) :
    (t.put place e).get? place = some e := by
  simp [get?, put, h]

/-- What is at another place is still there. -/
theorem get?_put_of_ne (t : FileTree) {place other : Place} (h : other ≠ place) (e : FileEntry) :
    (t.put place e).get? other = t.get? other := by
  unfold get? put
  split
  · rfl
  · congr 1
    rw [List.find?_cons_of_neg (by simpa using h.symm), List.find?_filter]
    congr 1
    funext x
    by_cases hx : x.1 = other <;> simp [hx, h]

/-- Makes a directory where there is nothing yet. -/
def putDirectory (t : FileTree) (place : Place) : FileTree :=
  if (t.get? place).isSome then t else t.put place .directory

/-- Makes the directories that the pieces lead through. Answers where they lead to. -/
def makeWay (t : FileTree) (here : Place) : List String → FileTree × Place
  | [] => (t, here)
  | piece :: rest =>
    if piece == "" || piece == "." then makeWay t here rest
    else if piece == ".." then makeWay t here.dropLast rest
    else makeWay (t.putDirectory (here ++ [piece])) (here ++ [piece]) rest

/-- Makes the directory of a path and all directories above it. -/
def makeDirectories (t : FileTree) (p : Path) : FileTree :=
  (t.makeWay (t.origin p) (pieces p)).1

/-- Writes a file, and makes the directories above it. -/
def write (t : FileTree) (p : Path) (text : Option String) : FileTree :=
  match p.fileName?, p.parent? with
  | some name, some parent =>
    let (t, place) := t.makeWay (t.origin p) (pieces parent)
    t.put (place ++ [String.ofList name]) (.file text)
  | _, _ => t

/-- Removes the file that a path leads to. -/
def remove (t : FileTree) (p : Path) : FileTree :=
  match t.resolve p with
  | .ok place => { t with entries := t.entries.filter (·.1 != place) }
  | .error _ => t

/-- Goes where a path leads to. -/
def enter (t : FileTree) (p : Path) : FileTree :=
  match t.resolve p with
  | .ok place => { t with workingDirectory := place }
  | .error _ => t

end FileTree

end TypeQuery
