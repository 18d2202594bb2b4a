import TypeQuery.Config
import TypeQuery.Config.Comments
import TypeQuery.Json.Reader

/-!
# TypeQuery.Config.Reader

Reading a configuration. The text is read once from left to right, and the first fault stops it: a
value of the wrong kind counts as soon as it is seen, whatever comes later. A group of settings is
an object, or a list with the settings in their fixed order. A setting that is not known is passed
over; one that is given twice is a fault.

* `Config.parse` — the configuration of a text with comments and trailing commas
-/

namespace TypeQuery.Config

open Json Json.Reader

/-! ## settings of one kind -/

/-- Stops because a value of another kind was expected. A scalar is read first, so a scalar that is
not JSON is the fault that counts. -/
def unexpected {α : Type} : Reader α := do
  match ← peek with
  | some 'n' =>
    let _ ← next
    literal ['u', 'l', 'l']
    failShape
  | some 't' =>
    let _ ← next
    literal ['r', 'u', 'e']
    failShape
  | some 'f' =>
    let _ ← next
    literal ['a', 'l', 's', 'e']
    failShape
  | some '"' =>
    let _ ← next
    let _ ← string
    failShape
  | some '-' =>
    let _ ← next
    let _ ← number true
    failShape
  | some '[' => failShape
  | some '{' => failShape
  | some c =>
    if isDigit c then
      let _ ← number false
      failShape
    else failNext .malformed
  | none => failNext .truncated

/-- Reads a value that may be `null`. -/
def nullable {α : Type} (r : Reader α) : Reader (Option α) := do
  match ← skipBlanks with
  | some 'n' =>
    let _ ← next
    literal ['u', 'l', 'l']
    return none
  | _ => return some (← r)

/-- Reads a string. -/
def textSetting : Reader String := do
  match ← skipBlanks with
  | some '"' =>
    let _ ← next
    string
  | _ => unexpected

/-- Reads a list of strings. -/
def textsSetting : Reader (List String) := do
  match ← skipBlanks with
  | some '[' =>
    let _ ← next
    listOf textSetting
  | _ => unexpected

/-- Sets the value of a key, in the place of an earlier one. -/
def putKey {α : Type} (entries : List (String × α)) (k : String) (v : α) : List (String × α) :=
  if entries.any (·.1 == k) then entries.map fun e => if e.1 == k then (k, v) else e
  else entries ++ [(k, v)]

/-- Reads an object of lists of strings. Of a repeated key the last value counts. -/
def textMapSetting : Reader (List (String × List String)) := do
  match ← skipBlanks with
  | some '{' =>
    let _ ← next
    fieldsFrom (fun entries k => do
      colon
      return putKey entries k (← textsSetting)) []
  | _ => unexpected

/-- The spellings of a switch that are not booleans, in lower case. -/
def switchWord? (word : List Char) : Option Bool :=
  let w := String.ofList (word.map Char.toLower)
  if w == "true" || w == "1" || w == "yes" || w == "on" then some true
  else if w == "false" || w == "0" || w == "no" || w == "off" then some false
  else none

/-- What is said of a spelling that means neither. -/
def switchDetail (s : String) : String :=
  "invalid boolean value: '" ++ s ++ "'. Expected true, false, 'true', or 'false'"

/-- The depth that is left for the value of a switch, two levels inside the text. -/
def switchDepth : Nat := depthLimit - 2

/-- Reads a switch: a boolean, or a word for one with blanks around it and in any case. -/
def switchSetting : Reader Bool := do
  match ← value switchDepth with
  | .bool b => return b
  | .text s =>
    match switchWord? (Text.trim s.toList) with
    | some b => return b
    | none => throw (.mismatch (some (switchDetail s)))
  | _ => failShape

/-! ## groups of settings -/

/-- A group of settings: their names in order, and how each is read into what was read before. -/
structure Settings (σ : Type) where
  names : List String
  read : σ → String → Reader σ

/-- Reads settings in their fixed order up to the closing bracket, which is read as well. -/
def Settings.inOrder {σ : Type} (g : Settings σ) : List String → Bool → σ → Reader σ
  | [], _, s => do
    match ← skipBlanks with
    | none => failNext .truncated
    | some ']' =>
      let _ ← next
      return s
    | some ',' =>
      let _ ← next
      let _ ← skipBlanks
      failNext .malformed
    | some _ => failNext .malformed
  | name :: names, first, s => do
    match ← skipBlanks with
    | none => failNext .truncated
    | some ']' =>
      let _ ← next
      return s
    | some c =>
      if !first then
        if c != ',' then failNext .malformed
        let _ ← next
        match ← skipBlanks with
        | none => failNext .truncated
        | some ']' => failNext .malformed
        | some _ => pure ()
      let s ← g.read s name
      g.inOrder names false s

/-- Reads one setting of an object; the names that were read before come along. -/
def Settings.named {σ : Type} (g : Settings σ) (seen : List String × σ) (k : String) :
    Reader (List String × σ) := do
  if g.names.contains k then
    if seen.1.contains k then failShape
    colon
    return (k :: seen.1, ← g.read seen.2 k)
  else
    colon
    skipValue
    return seen

/-- Reads a group of settings, as an object or as a list. -/
def Settings.group {σ : Type} (g : Settings σ) (init : σ) : Reader σ := do
  match ← skipBlanks with
  | some '[' =>
    let _ ← next
    g.inOrder g.names true init
  | some '{' =>
    let _ ← next
    return (← fieldsFrom g.named ([], init)).2
  | _ => unexpected

/-- The compiler options. -/
def optionSettings : Settings CompilerOptions where
  names := ["target", "module", "moduleResolution", "jsx", "lib", "types", "baseUrl", "paths",
    "strict", "strictNullChecks", "noImplicitAny", "allowJs"]
  read o name :=
    match name with
    | "target" => return { o with target := ← nullable textSetting }
    | "module" => return { o with moduleKind := ← nullable textSetting }
    | "moduleResolution" => return { o with moduleResolution := ← nullable textSetting }
    | "jsx" => return { o with jsx := ← nullable textSetting }
    | "lib" => return { o with lib := ← nullable textsSetting }
    | "types" => return { o with types := ← nullable textsSetting }
    | "baseUrl" => return { o with baseUrl := ← nullable textSetting }
    | "paths" => return { o with paths := ← nullable textMapSetting }
    | "strict" => return { o with strict := ← nullable switchSetting }
    | "strictNullChecks" => return { o with strictNullChecks := ← nullable switchSetting }
    | "noImplicitAny" => return { o with noImplicitAny := ← nullable switchSetting }
    | "allowJs" => return { o with allowJs := ← nullable switchSetting }
    | _ => return o

/-- The settings of a configuration. -/
def configSettings : Settings Config where
  names := ["extends", "compilerOptions", "include", "exclude", "files"]
  read c name :=
    match name with
    | "extends" => return { c with parent := ← nullable textSetting }
    | "compilerOptions" =>
      return { c with compilerOptions := ← nullable (optionSettings.group {}) }
    | "include" => return { c with included := ← nullable textsSetting }
    | "exclude" => return { c with excluded := ← nullable textsSetting }
    | "files" => return { c with files := ← nullable textsSetting }
    | _ => return c

/-! ## whole configurations -/

/-- The configuration of a JSON text. -/
def parseJson (cs : List Char) : Except Fault Config :=
  readText (configSettings.group {}) cs

/-- The configuration of a text with comments and trailing commas. -/
def parse (source : String) : Except Fault Config :=
  parseJson (plainJson source.toList)

end TypeQuery.Config
