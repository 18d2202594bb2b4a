import TypeQuery.Text.Utf16

/-!
# TypeQuery.Text.LineMap

Lines of a source text. A line ends with `\n`, with `\r\n`, with a `\r` that no `\n` follows, or
with one of the two separators U+2028 and U+2029; the next line starts right after. A line map
holds where the lines start, and turns an offset into a line and a character and back. All counts
are zero-based and in UTF-16 code units.

* `LineMap.ofText` — the line map of a text
* `LineMap.positionOf` — an offset as a position, the end of the text for an offset beyond it
* `LineMap.offsetOf?` — a position as an offset, for the positions that exist
-/

namespace TypeQuery.Text

/-- A line and a character in it, both zero-based. -/
structure Position where
  line : Nat
  /-- UTF-16 code units from the start of the line. -/
  character : Nat
  deriving DecidableEq, Repr

/-- Whether a line ends right after `c`, when `next` comes after it. -/
def endsLine (c : Char) (next : Option Char) : Bool :=
  c == '\n' || c == '\u2028' || c == '\u2029' || (c == '\r' && next != some '\n')

/-- Where lines start after offset `here`, which is where the rest of the text stands. -/
def startsAfter (here : Nat) : List Char → List Nat
  | [] => []
  | c :: cs =>
    let next := here + units c
    if endsLine c cs.head? then next :: startsAfter next cs else startsAfter next cs

/-- Where the lines of a text start. -/
structure LineMap where
  /-- Offsets of the line starts, the first of them 0. -/
  starts : List Nat
  /-- Length of the text. -/
  length : Nat
  deriving DecidableEq, Repr

namespace LineMap

/-- The line map of a text. -/
def ofText (cs : List Char) : LineMap where
  starts := 0 :: startsAfter 0 cs
  length := unitLength cs

/-- Number of lines. -/
def lineCount (m : LineMap) : Nat :=
  m.starts.length

/-- Every text has a first line. -/
theorem lineCount_ofText_pos (cs : List Char) : 0 < (ofText cs).lineCount := by
  simp [lineCount, ofText]

/-- Where a line starts, if the line exists. -/
def lineStart? (m : LineMap) (line : Nat) : Option Nat :=
  m.starts[line]?

/-- Walks over the line starts up to `offset` and keeps the last of them with its number. -/
def locate (offset : Nat) : List Nat → (line start : Nat) → Position
  | [], line, start => ⟨line, offset - start⟩
  | s :: ss, line, start =>
    if s ≤ offset then locate offset ss (line + 1) s else ⟨line, offset - start⟩

/-- The position of an offset. An offset beyond the text is taken for the end of the text. -/
def positionOf (m : LineMap) (offset : Nat) : Position :=
  locate (min offset m.length) m.starts.tail 0 0

/-- Offsets are numbers of 32 bits. -/
def offsetLimit : Nat := 0x100000000

/-- The offset of a position. The line has to exist, the offset has to fit its width, and the
character has to lie before the start of the next line, or at most at the end of the text on the
last line; so the characters that end a line belong to it. -/
def offsetOf? (m : LineMap) (p : Position) : Option Nat :=
  match m.starts[p.line]? with
  | none => none
  | some start =>
    let offset := start + p.character
    if offsetLimit ≤ offset then none
    else
      match m.starts[p.line + 1]? with
      | some next => if offset < next then some offset else none
      | none => if offset ≤ m.length then some offset else none

end LineMap

end TypeQuery.Text
