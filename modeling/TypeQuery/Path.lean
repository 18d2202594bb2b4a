/-!
# TypeQuery.Path

Paths as they are written. A path keeps its text, which is what messages show; two texts can name
the same file. The text is read as a front, which is `/`, `.` or nothing, and a body of pieces
between slashes; pieces that are empty or `.` mean nothing.

* `Path.components` — what a path means, piece by piece
* `Path.parent?`, `Path.ancestors` — the paths above
* `Path.join`, `Path.extension?`, `Path.addExtension`
-/

namespace TypeQuery

/-- A path. -/
structure Path where
  text : String
  deriving DecidableEq, Repr

/-- A part of a path that means something. -/
inductive PathComponent where
  /-- The top of the file tree. -/
  | root
  /-- The directory that a relative path starts from. -/
  | current
  /-- The directory above. -/
  | up
  | name (name : String)
  deriving DecidableEq, Repr

namespace Path

/-! ## pieces -/

/-- The pieces between slashes. There is always at least one. -/
def splitSlashes : List Char → List (List Char)
  | [] => [[]]
  | c :: cs =>
    if c = '/' then [] :: splitSlashes cs
    else
      match splitSlashes cs with
      | [] => [[c]]
      | p :: ps => (c :: p) :: ps

/-- Pieces with slashes between them. -/
def joinSlashes : List (List Char) → List Char
  | [] => []
  | [p] => p
  | p :: ps => p ++ '/' :: joinSlashes ps

theorem splitSlashes_ne_nil (cs : List Char) : splitSlashes cs ≠ [] := by
  cases cs with
  | nil => simp [splitSlashes]
  | cons c cs =>
    unfold splitSlashes
    split
    · simp
    · split <;> simp

theorem joinSlashes_cons (p : List Char) {ps : List (List Char)} (h : ps ≠ []) :
    joinSlashes (p :: ps) = p ++ '/' :: joinSlashes ps := by
  cases ps with
  | nil => exact absurd rfl h
  | cons q qs => rfl

/-- Nothing is lost between the slashes. -/
@[simp] theorem joinSlashes_splitSlashes (cs : List Char) : joinSlashes (splitSlashes cs) = cs := by
  induction cs with
  | nil => rfl
  | cons c cs ih =>
    have hne := splitSlashes_ne_nil cs
    unfold splitSlashes
    split
    · next h => rw [joinSlashes_cons [] hne, ih, h]; rfl
    · split
      · next h => exact absurd h hne
      · next p ps h =>
        rw [h] at ih
        cases ps with
        | nil => simpa [joinSlashes] using ih
        | cons q qs =>
          rw [joinSlashes_cons _ (by simp)] at ih
          rw [joinSlashes_cons _ (by simp), List.cons_append, ih]

/-- What comes before the pieces of the body: a slash, a dot that stands alone, or nothing. -/
def front : List Char → List Char
  | '/' :: _ => ['/']
  | ['.'] => ['.']
  | '.' :: '/' :: _ => ['.']
  | _ => []

/-- The pieces of the body, the last one first. -/
def body (cs : List Char) : List (List Char) :=
  (splitSlashes (cs.drop (front cs).length)).reverse

/-- Whether a piece of the body means nothing. -/
def isVoid (piece : List Char) : Bool :=
  piece == [] || piece == ['.']

/-- The path of a front and pieces, the last piece first. -/
def assemble (front : List Char) (pieces : List (List Char)) : Path :=
  ⟨String.ofList (front ++ joinSlashes pieces.reverse)⟩

/-! ## components -/

/-- The component of a piece. -/
def componentOf (piece : List Char) : PathComponent :=
  if piece == ['.', '.'] then .up else .name (String.ofList piece)

/-- The component of a front. -/
def frontComponents (front : List Char) : List PathComponent :=
  match front with
  | '/' :: _ => [.root]
  | '.' :: _ => [.current]
  | _ => []

/-- The components of a path. Paths with the same components are the same to all intents. -/
def components (p : Path) : List PathComponent :=
  let cs := p.text.toList
  frontComponents (front cs) ++ ((body cs).reverse.filter (!isVoid ·)).map componentOf

/-- Whether a path starts from the top of the file tree. -/
def isAbsolute (p : Path) : Bool :=
  p.text.toList.head? == some '/'

/-! ## above -/

/-- The paths above a front and pieces, the nearest first. Above the body there is only the
directory that a path with a dot in front starts from. -/
def above (front : List Char) : List (List Char) → List Path
  | [] => if front == ['.'] then [⟨""⟩] else []
  | piece :: rest =>
    if isVoid piece then above front rest
    else assemble front (rest.dropWhile isVoid) :: above front rest

/-- The path without its last component, if that names something below it. -/
def parent? (p : Path) : Option Path :=
  (above (front p.text.toList) (body p.text.toList)).head?

/-- The path and all paths above it, the nearest first. -/
def ancestors (p : Path) : List Path :=
  p :: above (front p.text.toList) (body p.text.toList)

/-! ## below -/

/-- The path `q` as seen from `p`. -/
def join (p q : Path) : Path :=
  if q.isAbsolute then q
  else if p.text.toList.getLast?.all (· == '/') then ⟨p.text ++ q.text⟩
  else ⟨p.text ++ "/" ++ q.text⟩

/-! ## file names -/

/-- The last component if it is a name. -/
def fileName? (p : Path) : Option (List Char) :=
  match (body p.text.toList).dropWhile isVoid with
  | [] => none
  | piece :: _ => if piece == ['.', '.'] then none else some piece

/-- What follows the last dot of the file name, unless the name begins with that dot. -/
def extension? (p : Path) : Option (List Char) := do
  let name ← p.fileName?
  match name.reverse.dropWhile (· != '.') with
  | [] | [_] => none
  | _ :: _ :: _ => some (name.reverse.takeWhile (· != '.')).reverse

/-- The path with an extension added to its file name, if there is one. What follows the file name
is dropped. -/
def addExtension (p : Path) (extension : String) : Path :=
  match p.fileName? with
  | none => p
  | some _ =>
    let cs := p.text.toList
    ⟨(assemble (front cs) ((body cs).dropWhile isVoid)).text ++ "." ++ extension⟩

end Path

end TypeQuery
