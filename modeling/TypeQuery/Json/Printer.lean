import TypeQuery.Json

/-!
# TypeQuery.Json.Printer

JSON values as text, in two layouts. `compact` writes everything on one line without blanks;
`pretty` gives every item and every field a line of its own, indented by two spaces per level, and
leaves empty lists and objects as `[]` and braces without anything between them.
-/

namespace TypeQuery.Json

/-! ## strings and numbers -/

/-- A control character by its code point, in four hexadecimal digits. -/
def controlEscape (c : Char) : List Char :=
  let digits := Nat.toDigits 16 c.toNat
  '\\' :: 'u' :: (List.replicate (4 - digits.length) '0' ++ digits)

/-- One character inside a string. Only quotes, backslashes and control characters are escaped. -/
def escapeChar (c : Char) : List Char :=
  match c with
  | '"' => ['\\', '"']
  | '\\' => ['\\', '\\']
  | '\x08' => ['\\', 'b']
  | '\x0c' => ['\\', 'f']
  | '\n' => ['\\', 'n']
  | '\r' => ['\\', 'r']
  | '\t' => ['\\', 't']
  | c => if c.toNat < 0x20 then controlEscape c else [c]

/-- A string in quotes. -/
def printText (s : String) : List Char :=
  '"' :: (s.toList.flatMap escapeChar ++ ['"'])

/-- A number in decimal digits, or as it was written. -/
def printNumber : JsonNumber → List Char
  | .integer (.ofNat n) => Nat.toDigits 10 n
  | .integer (.negSucc n) => '-' :: Nat.toDigits 10 (n + 1)
  | .decimal written => written.toList

/-! ## layouts -/

mutual

/-- A value on one line. -/
def compactChars : Json → List Char
  | .null => "null".toList
  | .bool true => "true".toList
  | .bool false => "false".toList
  | .number n => printNumber n
  | .text s => printText s
  | .list items => '[' :: (compactItems true items ++ [']'])
  | .object fields => '{' :: (compactFields true fields ++ ['}'])

/-- Items on one line; all but the first follow a comma. -/
def compactItems (first : Bool) : List Json → List Char
  | [] => []
  | v :: vs => (if first then [] else [',']) ++ compactChars v ++ compactItems false vs

/-- Fields on one line; all but the first follow a comma. -/
def compactFields (first : Bool) : List (String × Json) → List Char
  | [] => []
  | (k, v) :: fs =>
    (if first then [] else [',']) ++ printText k ++ ':' :: compactChars v ++ compactFields false fs

end

/-- A line end and the blanks before what stands at the given depth. -/
def newLine (depth : Nat) : List Char :=
  '\n' :: List.replicate (2 * depth) ' '

mutual

/-- A value whose first line begins at the given depth. -/
def prettyChars (depth : Nat) : Json → List Char
  | .null => "null".toList
  | .bool true => "true".toList
  | .bool false => "false".toList
  | .number n => printNumber n
  | .text s => printText s
  | .list [] => ['[', ']']
  | .list (v :: vs) =>
    '[' :: newLine (depth + 1) ++ prettyChars (depth + 1) v ++ prettyItems (depth + 1) vs ++
      newLine depth ++ [']']
  | .object [] => ['{', '}']
  | .object ((k, v) :: fs) =>
    '{' :: newLine (depth + 1) ++ printText k ++ ':' :: ' ' :: prettyChars (depth + 1) v ++
      prettyFields (depth + 1) fs ++ newLine depth ++ ['}']

/-- Further items, each after a comma and on a line of its own. -/
def prettyItems (depth : Nat) : List Json → List Char
  | [] => []
  | v :: vs => ',' :: newLine depth ++ prettyChars depth v ++ prettyItems depth vs

/-- Further fields, each after a comma and on a line of its own. -/
def prettyFields (depth : Nat) : List (String × Json) → List Char
  | [] => []
  | (k, v) :: fs =>
    ',' :: newLine depth ++ printText k ++ ':' :: ' ' :: prettyChars depth v ++
      prettyFields depth fs

end

/-- A value as text on one line. -/
def compact (v : Json) : String :=
  String.ofList (compactChars v)

/-- A value as indented text. -/
def pretty (v : Json) : String :=
  String.ofList (prettyChars 0 v)

end TypeQuery.Json
