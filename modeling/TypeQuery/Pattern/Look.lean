import TypeQuery.Text.Word

/-!
# TypeQuery.Pattern.Look

Places in a text. A pattern can ask for a place without reading a character there: the ends of the
text, the ends of a line, the edges of a word. `Look.holds` says which places are meant.

Line ends are line feeds, or, when `crlf` is set, line feeds, carriage returns and the two of them
together; a line never begins or ends between the two.
-/

namespace TypeQuery.Pattern

/-- A kind of place. -/
inductive Look where
  | textStart
  | textEnd
  | lineStart (crlf : Bool)
  | lineEnd (crlf : Bool)
  /-- Where a word begins or ends. -/
  | wordEdge
  | notWordEdge
  | wordStart
  | wordEnd
  /-- No word character before. -/
  | wordStartHalf
  /-- No word character after. -/
  | wordEndHalf
  deriving DecidableEq, Repr

namespace Look

/-- The character before place `i`. -/
def before? (text : Array Char) (i : Nat) : Option Char :=
  if i = 0 then none else text[i - 1]?

/-- Whether there is a word character. -/
def isWordAt : Option Char → Bool
  | some c => Text.isWord c
  | none => false

/-- Whether place `i` of the text, between character `i - 1` and character `i`, is of this kind. -/
def holds (text : Array Char) (i : Nat) (l : Look) : Bool :=
  let before := before? text i
  let after := text[i]?
  match l with
  | .textStart => before.isNone
  | .textEnd => after.isNone
  | .lineStart false => before.isNone || before == some '\n'
  | .lineStart true =>
    before.isNone || before == some '\n' || (before == some '\r' && after != some '\n')
  | .lineEnd false => after.isNone || after == some '\n'
  | .lineEnd true =>
    after.isNone || after == some '\r' || (after == some '\n' && before != some '\r')
  | .wordEdge => isWordAt before != isWordAt after
  | .notWordEdge => isWordAt before == isWordAt after
  | .wordStart => !isWordAt before && isWordAt after
  | .wordEnd => isWordAt before && !isWordAt after
  | .wordStartHalf => !isWordAt before
  | .wordEndHalf => !isWordAt after

end Look

end TypeQuery.Pattern
