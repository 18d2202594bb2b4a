import TypeQuery.Json
import TypeQuery.Json.Cursor

/-!
# TypeQuery.Json.Reader

Reading JSON values. A value is either kept, as a `Json`, or passed over; both accept strict JSON
only. What is kept may be nested to a bounded depth and its numbers have to fit a double, while
what is passed over may be of any depth and any size.

* `value` — a value that is kept
* `skipValue` — a value that nobody keeps
* `Json.parse` — a whole text
-/

namespace TypeQuery.Json.Reader

/-! ## numbers -/

/-- Reads a number after its sign. -/
def number (negative : Bool) : Reader JsonNumber := do
  let parts ← numberParts keptNumber
  if parts.isHuge then failHere .malformed
  let n : Int := if negative then -(digitsValue parts.whole : Int) else digitsValue parts.whole
  let inRange := if negative then -0x8000000000000000 ≤ n && n < 0 else n < 0x10000000000000000
  if parts.fraction.isEmpty && parts.exponent.isEmpty && inRange then return .integer n
  else return .decimal (String.ofList ((if negative then ['-'] else []) ++ parts.written))

/-! ## lists and objects -/

/-- Reads items up to the closing bracket, which is read as well. Every round reads at least one
character, so the length of the text is enough fuel. -/
def items {α : Type} (item : Reader α) : Nat → Bool → Reader (List α)
  | 0, _ => failNext .truncated
  | fuel + 1, first => do
    match ← skipBlanks with
    | none => failNext .truncated
    | some ']' =>
      let _ ← next
      return []
    | some c =>
      if !first then
        if c != ',' then failNext .malformed
        let _ ← next
        match ← skipBlanks with
        | none => failNext .truncated
        | some ']' => failNext .malformed
        | some _ => pure ()
      let a ← item
      return a :: (← items item fuel false)

/-- Reads the items of a list whose bracket was read. -/
def listOf {α : Type} (item : Reader α) : Reader (List α) := do
  items item ((← get).rest.length + 1) true

/-- Reads a key and the colon after it. The opening quote comes next. -/
def key : Reader String := do
  let _ ← next
  string

/-- Reads the colon between a key and its value. -/
def colon : Reader Unit := do
  match ← skipBlanks with
  | none => failNext .truncated
  | some ':' => let _ ← next
  | some _ => failNext .malformed

/-- Moves to the next key of an object: true when there is one, false when the closing brace comes
next. -/
def nextKey (first : Bool) : Reader Bool := do
  match ← skipBlanks with
  | none => failNext .truncated
  | some '}' => return false
  | some c =>
    if first then
      if c == '"' then return true else failNext .malformed
    else if c == ',' then
      let _ ← next
      match ← skipBlanks with
      | none => failNext .truncated
      | some '"' => return true
      | some _ => failNext .malformed
    else failNext .malformed

/-- Reads fields up to the closing brace, which is read as well. What is read of a field may depend
on the fields before it. -/
def fields {σ : Type} (field : σ → String → Reader σ) : Nat → Bool → σ → Reader σ
  | 0, _, _ => failNext .truncated
  | fuel + 1, first, s => do
    if ← nextKey first then
      let k ← key
      let s ← field s k
      fields field fuel false s
    else
      let _ ← next
      return s

/-- Reads the fields of an object whose brace was read. -/
def fieldsFrom {σ : Type} (field : σ → String → Reader σ) (s : σ) : Reader σ := do
  fields field ((← get).rest.length + 1) true s

/-! ## values -/

/-- How deeply a value that is kept may be nested. -/
def depthLimit : Nat := 128

/-- Reads a value of less than the given depth. -/
def value : Nat → Reader Json
  | 0 => failNext .malformed
  | depth + 1 => do
    match ← skipBlanks with
    | none => failNext .truncated
    | some 'n' =>
      let _ ← next
      literal ['u', 'l', 'l']
      return .null
    | some 't' =>
      let _ ← next
      literal ['r', 'u', 'e']
      return .bool true
    | some 'f' =>
      let _ ← next
      literal ['a', 'l', 's', 'e']
      return .bool false
    | some '"' =>
      let _ ← next
      return .text (← string)
    | some '-' =>
      let _ ← next
      return .number (← number true)
    | some '[' =>
      if depth = 0 then failNext .malformed
      let _ ← next
      return .list (← listOf (value depth))
    | some '{' =>
      if depth = 0 then failNext .malformed
      let _ ← next
      let fs ← fieldsFrom (fun fs k => do
        colon
        return (k, ← value depth) :: fs) []
      return .object fs.reverse
    | some c => if isDigit c then return .number (← number false) else failNext .malformed

/-! ## values that nobody keeps -/

/-- What a value stands in. -/
inductive Frame where
  | list
  | object
  deriving DecidableEq, Repr

/-- The character that closes a frame. -/
def Frame.close : Frame → Char
  | .list => ']'
  | .object => '}'

/-- Closes all frames that end here; `comma` says whether a comma may come next, which leads to
one more value of the innermost frame. Answers the frames that are still open. -/
def closeFrames (comma : Bool) : List Frame → Reader (List Frame)
  | [] => return []
  | frame :: outer => do
    match ← skipBlanks with
    | none => failNext .truncated
    | some c =>
      if comma && c == ',' then
        let _ ← next
        return frame :: outer
      else if c == frame.close then
        let _ ← next
        closeFrames true outer
      else if comma then failNext .malformed
      else return frame :: outer

/-- Passes over a key and its colon. -/
def skipKey : Reader Unit := do
  match ← skipBlanks with
  | none => failNext .truncated
  | some '"' =>
    let _ ← next
    skipString
    colon
  | some _ => failNext .malformed

/-- Passes over a scalar, or over the opening bracket of a list or object, which becomes the
innermost frame. Answers the frames that are open then and whether a comma may come next. -/
def skipHead (frames : List Frame) : Reader (List Frame × Bool) := do
  match ← skipBlanks with
  | none => failNext .truncated
  | some 'n' =>
    let _ ← next
    literal ['u', 'l', 'l']
    return (frames, true)
  | some 't' =>
    let _ ← next
    literal ['r', 'u', 'e']
    return (frames, true)
  | some 'f' =>
    let _ ← next
    literal ['a', 'l', 's', 'e']
    return (frames, true)
  | some '"' =>
    let _ ← next
    skipString
    return (frames, true)
  | some '-' =>
    let _ ← next
    let _ ← numberParts skippedNumber
    return (frames, true)
  | some '[' =>
    let _ ← next
    return (.list :: frames, false)
  | some '{' =>
    let _ ← next
    return (.object :: frames, false)
  | some c =>
    if isDigit c then
      let _ ← numberParts skippedNumber
      return (frames, true)
    else failNext .malformed

/-- Passes over values until all frames are closed. Every round reads at least one character, so
the length of the text is enough fuel. -/
def skipWithin : Nat → List Frame → Reader Unit
  | 0, _ => failNext .truncated
  | fuel + 1, frames => do
    let (frames, comma) ← skipHead frames
    match ← closeFrames comma frames with
    | [] => return
    | .list :: outer => skipWithin fuel (.list :: outer)
    | .object :: outer =>
      skipKey
      skipWithin fuel (.object :: outer)

/-- Passes over a value. -/
def skipValue : Reader Unit := do
  skipWithin ((← get).rest.length + 1) []

/-! ## whole texts -/

/-- Reads with `r` and then allows blanks only. -/
def whole {α : Type} (r : Reader α) : Reader α := do
  let a ← r
  match ← skipBlanks with
  | none => return a
  | some _ => failNext .malformed

/-- Runs a reader over a whole text. -/
def readText {α : Type} (r : Reader α) (cs : List Char) : Except Fault α :=
  match (whole r).run (Cursor.ofText cs) with
  | .ok (a, _) => .ok a
  | .error e => .error e

end Reader

/-- The value of a JSON text. -/
def parse (s : String) : Except Fault Json :=
  Reader.readText (Reader.value Reader.depthLimit) s.toList

end TypeQuery.Json
