import TypeQuery.Text.Blank

/-!
# TypeQuery.Config.Comments

Configurations are JSON with comments and trailing commas. Both are taken out before the text is
read: a comment leaves behind the newlines it covers, so that every line keeps its number, and a
comma right before a closing bracket becomes a space. What stands inside a string is never touched.

* `stripComments` — the text without comments
* `blankTrailingCommas` — the text without trailing commas
* `plainJson` — one after the other
-/

namespace TypeQuery.Config

/-! ## comments -/

/-- What a character of the text belongs to. -/
inductive Zone where
  /-- Neither a string nor a comment. -/
  | code
  /-- A string; `escaped` right after a backslash. -/
  | string (escaped : Bool)
  /-- A comment up to the end of the line. -/
  | lineComment
  /-- A comment up to the closing mark; `star` right after a star inside it. -/
  | blockComment (star : Bool)
  deriving DecidableEq, Repr

/-- What comes after a character of a string. -/
def Zone.afterStringChar (escaped : Bool) (c : Char) : Zone :=
  if escaped then .string false
  else if c == '\\' then .string true
  else if c == '"' then .code
  else .string false

/-- Removes the comments of a text that begins in the given zone. -/
def stripFrom : Zone → List Char → List Char
  | _, [] => []
  | .code, '/' :: '/' :: cs => stripFrom .lineComment cs
  | .code, '/' :: '*' :: cs => stripFrom (.blockComment false) cs
  | .code, c :: cs => c :: stripFrom (if c == '"' then .string false else .code) cs
  | .string escaped, c :: cs => c :: stripFrom (.afterStringChar escaped c) cs
  | .lineComment, c :: cs =>
    if c == '\n' then c :: stripFrom .code cs else stripFrom .lineComment cs
  | .blockComment star, c :: cs =>
    if star && c == '/' then stripFrom .code cs
    else if c == '\n' then c :: stripFrom (.blockComment false) cs
    else stripFrom (.blockComment (c == '*')) cs

/-- The text without its comments; the newlines in them stay. -/
def stripComments (cs : List Char) : List Char :=
  stripFrom .code cs

/-! ## trailing commas -/

/-- Whether a closing bracket is the next thing after white space. -/
def closesNext (cs : List Char) : Bool :=
  match cs.dropWhile Text.isBlank with
  | c :: _ => c == '}' || c == ']'
  | [] => false

/-- Blanks the trailing commas of a text that begins in the given zone. -/
def blankFrom : Zone → List Char → List Char
  | _, [] => []
  | .string escaped, c :: cs => c :: blankFrom (.afterStringChar escaped c) cs
  | zone, c :: cs =>
    if c == '"' then c :: blankFrom (.string false) cs
    else if c == ',' && closesNext cs then ' ' :: blankFrom zone cs
    else c :: blankFrom zone cs

/-- The text with a space for every comma that a closing bracket follows. -/
def blankTrailingCommas (cs : List Char) : List Char :=
  blankFrom .code cs

/-! ## both -/

/-- The text without comments and trailing commas. -/
def plainJson (cs : List Char) : List Char :=
  blankTrailingCommas (stripComments cs)

end TypeQuery.Config
