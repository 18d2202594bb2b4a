import TypeQuery.Text.Utf16

/-!
# TypeQuery.Json.Cursor

Reading through a JSON text. A reader moves a cursor, which holds what is left of the text and the
number of the line it stands on, and either answers or stops at the first fault. A text that ends
too early, a text that is not JSON and a text that is JSON of the wrong shape are three different
faults; the first two know their line.

* `Fault`, `Cursor`, `Reader`
* `skipBlanks`, `literal`, `string`, `number` — the pieces that values are made of
-/

namespace TypeQuery.Json

/-! ## faults -/

/-- Why a text was not accepted. -/
inductive Fault where
  /-- The text is not JSON at a character on this line. -/
  | malformed (line : Nat)
  /-- The text ends too early, on this line. -/
  | truncated (line : Nat)
  /-- The text is JSON so far but not of the wanted shape; some shapes say what is wrong. -/
  | mismatch (detail : Option String)
  deriving DecidableEq, Repr

/-! ## the cursor -/

/-- A place in a text. -/
structure Cursor where
  /-- What is left of the text. -/
  rest : List Char
  /-- One more than the number of newlines before this place. -/
  line : Nat

/-- A step through a text. -/
abbrev Reader (α : Type) := StateT Cursor (Except Fault) α

namespace Cursor

/-- The start of a text. -/
def ofText (cs : List Char) : Cursor :=
  ⟨cs, 1⟩

/-- The line number after `c` was read on line `line`. -/
def lineAfter (line : Nat) (c : Char) : Nat :=
  if c == '\n' then line + 1 else line

end Cursor

namespace Reader

/-- The next character, which stays where it is. -/
def peek : Reader (Option Char) := do
  return (← get).rest.head?

/-- Takes the next character. -/
def next : Reader (Option Char) := do
  let here ← get
  match here.rest with
  | [] => return none
  | c :: cs =>
    set (Cursor.mk cs (Cursor.lineAfter here.line c))
    return some c

/-- Stops because of what was read last. -/
def failHere {α : Type} (fault : Nat → Fault) : Reader α := do
  throw (fault (← get).line)

/-- Stops because of the next character. -/
def failNext {α : Type} (fault : Nat → Fault) : Reader α := do
  let here ← get
  match here.rest with
  | [] => throw (fault here.line)
  | c :: _ => throw (fault (Cursor.lineAfter here.line c))

/-- Stops because the value has the wrong shape. -/
def failShape {α : Type} : Reader α :=
  throw (.mismatch none)

/-! ## blanks and words -/

/-- White space between tokens. -/
def isBlank (c : Char) : Bool :=
  c == ' ' || c == '\n' || c == '\t' || c == '\r'

/-- The place after the blanks. -/
def dropBlanks : List Char → Nat → Cursor
  | [], line => ⟨[], line⟩
  | c :: cs, line => if isBlank c then dropBlanks cs (Cursor.lineAfter line c) else ⟨c :: cs, line⟩

/-- Passes over blanks and looks at the character after them. -/
def skipBlanks : Reader (Option Char) := do
  let here ← get
  set (dropBlanks here.rest here.line)
  peek

/-- Reads exactly these characters. -/
def literal : List Char → Reader Unit
  | [] => return
  | e :: es => do
    match ← next with
    | none => failHere .truncated
    | some c => if c == e then literal es else failHere .malformed

/-! ## strings -/

/-- The value of a hexadecimal digit. -/
def hexDigit? (c : Char) : Option Nat :=
  if '0' ≤ c && c ≤ '9' then some (c.toNat - '0'.toNat)
  else if 'a' ≤ c && c ≤ 'f' then some (c.toNat - 'a'.toNat + 10)
  else if 'A' ≤ c && c ≤ 'F' then some (c.toNat - 'A'.toNat + 10)
  else none

/-- The number that four hexadecimal digits at the start of the text stand for, and what follows
them. -/
def hexQuad? : List Char → Option (Nat × List Char)
  | a :: b :: c :: d :: rest => do
    let a ← hexDigit? a
    let b ← hexDigit? b
    let c ← hexDigit? c
    let d ← hexDigit? d
    return (((a * 16 + b) * 16 + c) * 16 + d, rest)
  | _ => none

/-- Counts the lines of the characters that begin in the next `bytes` bytes. -/
def lineWithin : Nat → Nat → List Char → Nat
  | line, _, [] => line
  | line, bytes, c :: cs =>
    if bytes = 0 then line else lineWithin (Cursor.lineAfter line c) (bytes - c.utf8Size) cs

/-- Reads four hexadecimal digits. With fewer than four bytes left the text ends too early. -/
def hexQuad : Reader Nat := do
  let here ← get
  match hexQuad? here.rest with
  | some (n, rest) =>
    set (Cursor.mk rest here.line)
    return n
  | none =>
    let line := lineWithin here.line 4 here.rest
    throw (if Text.byteLength here.rest < 4 then .truncated line else .malformed line)

/-- Reads the character `c`. -/
def follow (c : Char) : Reader Unit := do
  match ← next with
  | none => failHere .truncated
  | some d => if d == c then return else failHere .malformed

/-- Reads the code point of an escape whose first four digits are still to come. The two halves of
a surrogate pair stand in two escapes, one right after the other. -/
def escapedChar : Reader Char := do
  let high ← hexQuad
  if 0xDC00 ≤ high && high ≤ 0xDFFF then failHere .malformed
  else if high < 0xD800 || 0xDBFF < high then return Char.ofNat high
  else
    follow '\\'
    follow 'u'
    let low ← hexQuad
    if low < 0xDC00 || 0xDFFF < low then failHere .malformed
    else return Char.ofNat (0x10000 + (high - 0xD800) * 0x400 + (low - 0xDC00))

/-- Reads what follows a backslash. A string that nobody keeps may hold lone surrogates; its
escapes have no character. -/
def escape (keep : Bool) : Reader (List Char) := do
  match ← next with
  | none => failHere .truncated
  | some '"' => return ['"']
  | some '\\' => return ['\\']
  | some '/' => return ['/']
  | some 'b' => return ['\x08']
  | some 'f' => return ['\x0c']
  | some 'n' => return ['\n']
  | some 'r' => return ['\r']
  | some 't' => return ['\t']
  | some 'u' =>
    if keep then return [← escapedChar]
    else
      let _ ← hexQuad
      return []
  | some _ => failHere .malformed

/-- Stops because of a control character, which stood on the given line and was read. In a string
that is kept a line end counts for the line that it begins. -/
def failControl {α : Type} (keep : Bool) (line : Nat) : Reader α :=
  if keep then failHere .malformed else throw (.malformed line)

/-- Reads a string up to its closing quote; `read` holds its characters so far, the last one first.
Every round reads at least one character, so the length of the text is enough fuel. -/
def stringBody (keep : Bool) : Nat → List Char → Reader (List Char)
  | 0, _ => failHere .truncated
  | fuel + 1, read => do
    let line := (← get).line
    match ← next with
    | none => failHere .truncated
    | some '"' => return read.reverse
    | some '\\' =>
      let cs ← escape keep
      stringBody keep fuel (cs ++ read)
    | some c =>
      if c.toNat < 0x20 then failControl keep line else stringBody keep fuel (c :: read)

/-- Reads a string whose opening quote was read. -/
def string : Reader String := do
  return String.ofList (← stringBody true ((← get).rest.length + 1) [])

/-- Passes over a string whose opening quote was read. -/
def skipString : Reader Unit := do
  let _ ← stringBody false ((← get).rest.length + 1) []

/-! ## numbers -/

/-- Whether `c` is a decimal digit of a number. -/
def isDigit (c : Char) : Bool :=
  '0' ≤ c && c ≤ '9'

/-- Reads all digits that come next. -/
def digits : Reader (List Char) := do
  let here ← get
  set (Cursor.mk (here.rest.dropWhile isDigit) here.line)
  return here.rest.takeWhile isDigit

/-- Reads the character `c` if it comes next. -/
def optionally (p : Char → Bool) : Reader (List Char) := do
  match ← peek with
  | some c =>
    if p c then
      let _ ← next
      return [c]
    else return []
  | none => return []

/-- Which fault a number ends with when a digit is missing at the end of the text. -/
structure NumberRules where
  /-- A missing digit at the end of the text. -/
  atEnd : Nat → Fault

/-- A number that is kept has come to an early end of the text. -/
def keptNumber : NumberRules := ⟨.truncated⟩

/-- A number that nobody keeps is malformed when the text ends too early. -/
def skippedNumber : NumberRules := ⟨.malformed⟩

/-- Reads the digits before the point: a single zero, or digits that begin with another one. -/
def wholePart (rules : NumberRules) : Reader (List Char) := do
  match ← next with
  | none => failHere rules.atEnd
  | some '0' =>
    match ← peek with
    | some c => if isDigit c then failNext .malformed else return ['0']
    | none => return ['0']
  | some c => if isDigit c then return c :: (← digits) else failHere .malformed

/-- Reads the digits after a point, at least one. -/
def fractionPart (rules : NumberRules) : Reader (List Char) := do
  let point ← optionally (· == '.')
  if point.isEmpty then return []
  let ds ← digits
  if ds.isEmpty then
    match ← peek with
    | some _ => failNext .malformed
    | none => failNext rules.atEnd
  else return '.' :: ds

/-- Reads an exponent: the letter, perhaps a sign, at least one digit. -/
def exponentPart (rules : NumberRules) : Reader (List Char) := do
  let mark ← optionally fun c => c == 'e' || c == 'E'
  if mark.isEmpty then return []
  let sign ← optionally fun c => c == '+' || c == '-'
  match ← next with
  | none => failHere rules.atEnd
  | some c => if isDigit c then return mark ++ sign ++ c :: (← digits) else failHere .malformed

/-- The parts of a number after its sign. -/
structure NumberParts where
  whole : List Char
  /-- The point and the digits after it, or nothing. -/
  fraction : List Char
  /-- The letter, the sign and the digits of the exponent, or nothing. -/
  exponent : List Char

/-- Reads a number after its sign. -/
def numberParts (rules : NumberRules) : Reader NumberParts := do
  let whole ← wholePart rules
  let fraction ← fractionPart rules
  let exponent ← exponentPart rules
  return ⟨whole, fraction, exponent⟩

/-- The natural number that decimal digits stand for. -/
def digitsValue (ds : List Char) : Nat :=
  ds.foldl (fun n c => n * 10 + (c.toNat - '0'.toNat)) 0

namespace NumberParts

/-- The exponent as a number. -/
def exponentValue (p : NumberParts) : Int :=
  match p.exponent.drop 1 with
  | '-' :: ds => -(digitsValue ds : Int)
  | '+' :: ds => digitsValue ds
  | ds => digitsValue ds

/-- What the digits of a number come to: a number of 64 bits, and by how many places it has to be
moved to the left, or to the right if that is negative. -/
structure Scaled where
  significand : Nat := 0
  places : Int := 0

namespace Scaled

/-- One more than the largest number of 64 bits. -/
def limit : Nat := 0x10000000000000000

/-- The significand with one more digit. -/
def push (n : Scaled) (d : Char) : Nat :=
  n.significand * 10 + (d.toNat - '0'.toNat)

/-- Adds digits before the point. From the first one that does not fit on they only count as
places. -/
def addWhole (n : Scaled) : List Char → Scaled
  | [] => n
  | d :: ds =>
    if n.push d < limit then addWhole { n with significand := n.push d } ds
    else { n with places := ds.length + 1 }

/-- Adds digits after the point, up to the first one that does not fit. -/
def addFraction (n : Scaled) : List Char → Scaled
  | [] => n
  | d :: ds => if n.push d < limit then addFraction ⟨n.push d, n.places - 1⟩ ds else n

end Scaled

/-- A number rounded to 53 bits, a half to the even neighbour. -/
def roundedTo53 (n : Nat) : Nat :=
  let drop := n.log2 - 52
  let unit := 1 <<< drop
  let q := n / unit
  let twice := 2 * (n % unit)
  let up := if unit < twice || (unit == twice && q % 2 == 1) then 1 else 0
  if drop = 0 then n else (q + up) * unit

/-- Whether the number is too large for a double. Its digits and the power of ten are rounded before
they are multiplied, and the product is compared with the least number that rounds to infinity. -/
def isHuge (p : NumberParts) : Bool :=
  let n := (Scaled.addWhole {} p.whole).addFraction (p.fraction.drop 1)
  let places := n.places + p.exponentValue
  n.significand != 0 && 0 ≤ places &&
    (308 < places ||
      1 <<< 1024 - 1 <<< 970 ≤
        roundedTo53 n.significand * roundedTo53 (Nat.pow 10 places.toNat))

/-- The number as it was written. -/
def written (p : NumberParts) : List Char :=
  p.whole ++ p.fraction ++ p.exponent

end NumberParts

end TypeQuery.Json.Reader
