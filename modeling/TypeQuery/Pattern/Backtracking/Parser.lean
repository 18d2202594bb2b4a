import TypeQuery.Pattern.Backtracking.Expr
import TypeQuery.Pattern.Regex.Parser
import TypeQuery.Text.Utf16

/-!
# TypeQuery.Pattern.Backtracking.Parser

Reading patterns that need backtracking. The notation extends the one of regular expressions, and
it is more lenient: a brace that begins no repetition stands for itself, a count may lack its lower
bound, and comments can stand anywhere. Groups are numbered in the order of their opening
parentheses.

* `Backtracking.parse?` — the expression of a pattern and the number of its groups
-/

namespace TypeQuery.Pattern.Backtracking

/-! ## the text of a pattern -/

/-- What the reader knows while it moves through a pattern. -/
structure State where
  /-- What is left of the pattern. -/
  rest : List Char
  /-- The modes at this place. -/
  flags : Flags := {}
  /-- How many groups were opened. -/
  groups : Nat := 0
  /-- The names of groups, the latest first. -/
  names : List (String × Nat) := []
  /-- Whether a group is referred to by its number. -/
  numbered : Bool := false
  /-- Group numbers have to be below this bound: a pattern of that length has no more groups. -/
  groupBound : Nat

/-- A step through a pattern, which fails on what is not part of the notation. -/
abbrev Reader (α : Type) := StateT State Option α

/-- Refuses the pattern. -/
def refuse {α : Type} : Reader α :=
  StateT.lift none

/-- The next character, which stays where it is. -/
def peek : Reader (Option Char) := do
  return (← get).rest.head?

/-- Passes over `n` characters. -/
def drop (n : Nat) : Reader Unit :=
  modify fun s => { s with rest := s.rest.drop n }

/-- The next character, or nothing but refusal at the end. -/
def here : Reader Char := do
  match ← peek with
  | some c => return c
  | none => refuse

/-- Passes over the given text if it comes next. -/
def accept (text : String) : Reader Bool := do
  let s ← get
  if text.toList.isPrefixOf s.rest then
    set { s with rest := s.rest.drop text.length }
    return true
  else return false

/-- What follows a comment in parentheses, whose opening was read; a backslash takes the character
behind it along. None when the comment is not closed. -/
def afterComment? : List Char → Option (List Char)
  | [] => none
  | ')' :: cs => some cs
  | ['\\'] => none
  | '\\' :: _ :: cs => afterComment? cs
  | _ :: cs => afterComment? cs

/-- What is left after blanks and line comments, which count in extended mode only, and after
comments in parentheses. The fuel is the length of the text. -/
def dropIgnored? (extended : Bool) : Nat → List Char → Option (List Char)
  | 0, cs => some cs
  | _, [] => some []
  | fuel + 1, c :: cs =>
    if extended && c == '#' then
      dropIgnored? extended fuel ((cs.dropWhile (· != '\n')).drop 1)
    else if extended && (c == ' ' || c == '\r' || c == '\n' || c == '\t') then
      dropIgnored? extended fuel cs
    else if c == '(' && "?#".toList.isPrefixOf cs then
      (afterComment? (cs.drop 2)).bind (dropIgnored? extended fuel)
    else some (c :: cs)

/-- Passes over what is left out. -/
def skipIgnored : Reader Unit := do
  let s ← get
  match dropIgnored? s.flags.extended (s.rest.length + 1) s.rest with
  | some rest => set { s with rest := rest }
  | none => refuse

/-! ## numbers and names -/

/-- Reads a number that fits 64 bits; nothing is read when there is none. -/
def decimal? : Reader (Option Nat) := do
  let s ← get
  let ds := s.rest.takeWhile PatternReader.isDigit
  let n := PatternReader.decimalValue ds
  if ds.isEmpty || 0x10000000000000000 ≤ n then return none
  set { s with rest := s.rest.drop ds.length }
  return some n

/-- An upper count that is no bound: the largest number of 64 bits. -/
def endless : Nat := 0xFFFFFFFFFFFFFFFF

/-- Reads the counts of a repetition from its opening brace on. -/
def counts : Reader (Nat × Option Nat) := do
  drop 1
  skipIgnored
  let low ←
    if (← here) == ',' then pure 0
    else
      match ← decimal? with
      | some n => pure n
      | none => refuse
  skipIgnored
  let high ←
    match ← here with
    | '}' => pure (some low)
    | ',' => do
      drop 1
      skipIgnored
      pure ((← decimal?).filter (· < endless))
    | _ => refuse
  skipIgnored
  if (← here) == '}' then
    drop 1
    return (low, high)
  else refuse

/-- Reads the counts of a repetition; nothing is read when they are no counts. -/
def counts? : Reader (Option (Nat × Option Nat)) := fun s =>
  match counts.run s with
  | some (r, s) => some (some r, s)
  | none => some (none, s)

/-- Whether `c` may stand in the name of a group. -/
def isNameChar (c : Char) : Bool :=
  c == '_' || Text.isLetter c || Text.isNumber c

/-- Reads a name between two marks, which may have a minus sign in front if it is `signed`. Names are
not empty. -/
def name (opening closing : String) (signed : Bool) : Reader String := do
  if !(← accept opening) then refuse
  let negative ← if signed then accept "-" else pure false
  let sign := if negative then ['-'] else []
  let cs := sign ++ (← get).rest.takeWhile isNameChar
  if cs.isEmpty then refuse
  drop (cs.length - sign.length)
  if ← accept closing then return String.ofList cs else refuse

/-- Reads a character by its number in hexadecimal digits: as many as given, or up to eight of them
in braces. -/
def hexChar (digits : Nat) : Reader Char := do
  let rest := (← get).rest
  let isHex (c : Char) : Bool := (PatternReader.hexValue? c).isSome
  let value (ds : List Char) : Nat :=
    ds.foldl (fun n c => n * 16 + (PatternReader.hexValue? c).getD 0) 0
  let fixed := rest.take digits
  let (ds, length) ←
    if fixed.length = digits && fixed.all isHex then pure (fixed, digits)
    else
      match rest with
      | '{' :: cs =>
        let ds := cs.takeWhile isHex
        if ds.isEmpty || 8 < ds.length || (cs.drop ds.length).head? != some '}' then refuse
        else pure (ds, ds.length + 2)
      | _ => refuse
  let n := value ds
  if n.isValidChar then
    drop length
    return Char.ofNat n
  else refuse

/-! ## references -/

/-- A reference to a group, which has to be opened before. The whole match is group zero. -/
def refer (index : Nat) : Reader Expr := do
  if index ≤ (← get).groups then return .backref index else refuse

/-- Reads a reference by number. -/
def numberedRef : Reader Expr := do
  match ← decimal? with
  | some n =>
    if n < (← get).groupBound then
      modify ({ · with numbered := true })
      refer n
    else refuse
  | none => refuse

/-- Reads a reference by name, or by a number in the place of a name. If it is `signed`, a negative
number counts back from the group that was opened last. -/
def namedRef (opening closing : String) (signed : Bool) : Reader Expr := do
  let id ← name opening closing signed
  let s ← get
  match s.names.find? (·.1 == id), id.toList with
  | some (_, index), _ => refer index
  | none, '-' :: ds =>
    let back := PatternReader.decimalValue ds
    if ds.all PatternReader.isDigit && 0 < back && back ≤ s.groups + 1 then
      refer (s.groups + 1 - back)
    else refuse
  | none, ds =>
    if ds.all PatternReader.isDigit then refer (PatternReader.decimalValue ds) else refuse

/-! ## escapes and classes -/

/-- What an escape stands for. -/
inductive Escaped where
  /-- A character as it is. -/
  | char (c : Char)
  /-- A character that is given by its number and stands for all its cases where cases do not
  matter. -/
  | code (c : Char)
  /-- A set, with its notation inside a class. -/
  | set (s : CharSet) (written : List Char)
  /-- What is no single character. -/
  | other (e : Expr)

/-- The notation of a character that stands for itself in every class. -/
def quoted (c : Char) : List Char :=
  if PatternReader.isMeta c then ['\\', c] else [c]

/-- Reads what follows a backslash, inside of a class or not. -/
def escape (inClass : Bool) : Reader Escaped := do
  let c ← here
  if PatternReader.isDigit c then return .other (← numberedRef)
  drop 1
  match c with
  | 'd' => return .set .digit ['\\', 'd']
  | 'D' => return .set CharSet.digit.compl ['\\', 'D']
  | 's' => return .set .space ['\\', 's']
  | 'S' => return .set CharSet.space.compl ['\\', 'S']
  | 'w' => return .set .word ['\\', 'w']
  | 'W' => return .set CharSet.word.compl ['\\', 'W']
  | 'h' => return .set .hexDigit "[0-9A-Fa-f]".toList
  | 'H' => return .set CharSet.hexDigit.compl "[^0-9A-Fa-f]".toList
  | 'a' => return .char '\x07'
  | 'e' => return .char '\x1b'
  | 'f' => return .char '\x0c'
  | 'n' => return .char '\n'
  | 'r' => return .char '\r'
  | 't' => return .char '\t'
  | 'v' => return .char '\x0b'
  | 'x' => return .code (← hexChar 2)
  | 'u' => return .code (← hexChar 4)
  | 'U' => return .code (← hexChar 8)
  | c =>
    if inClass then
      if c == 'b' then return .char '\x08'
      else if "kAzBKG".toList.contains c then return .char c
      else if c.isAlpha then refuse
      else return .char c
    else
      match c with
      | 'k' =>
        if (← peek) == some '\'' then return .other (← namedRef "'" "'" true)
        else return .other (← namedRef "<" ">" true)
      | 'A' => return .other (.look .textStart)
      | 'z' => return .other (.look .textEnd)
      | 'b' => if (← peek) == some '{' then refuse else return .other (.look .wordEdge)
      | 'B' => if (← peek) == some '{' then refuse else return .other (.look .notWordEdge)
      | '<' => return .other (.look .wordStart)
      | '>' => return .other (.look .wordEnd)
      | 'K' => return .other .keepOut
      | 'G' => return .other .resume
      | c => if c.isAlpha then refuse else return .char c

/-- Reads a class up to its last bracket and answers it with its escapes resolved, the last
character first. Blanks and comments stand for themselves in every mode. `nesting` counts the open
brackets. The fuel is the length of the pattern. -/
def classText : Nat → Nat → List Char → Reader (List Char)
  | 0, _, _ => refuse
  | fuel + 1, nesting, text => do
    let c ← here
    drop 1
    match c with
    | '\\' =>
      match ← escape true with
      | .char c => classText fuel nesting ((quoted c).reverse ++ text)
      | .code c => classText fuel nesting ((quoted c).reverse ++ text)
      | .set _ written => classText fuel nesting (written.reverse ++ text)
      | .other _ => refuse
    | '[' => classText fuel (nesting + 1) (c :: text)
    | ']' => if nesting ≤ 1 then return c :: text else classText fuel (nesting - 1) (c :: text)
    | c => classText fuel nesting (c :: text)

/-- Reads a bracketed class. A closing bracket that comes first stands for itself. -/
def bracketClass : Reader Expr := do
  drop 1
  let negation := if ← accept "^" then ['^'] else []
  let first := if ← accept "]" then [']'] else []
  let text ← classText ((← get).rest.length + 1) 1 (first ++ negation ++ ['['])
  let ignoreCase := (← get).flags.ignoreCase
  match CharSet.parse? ignoreCase text.reverse with
  | some (s, depth) => return .set s (if ignoreCase then depth + 1 else depth)
  | none => refuse

/-! ## groups -/

/-- Reads the closing parenthesis. -/
def close : Reader Unit := do
  skipIgnored
  if (← here) == ')' then drop 1 else refuse

/-- Opens a group that can be referred to and answers its number. -/
def openGroup (name? : Option String) : Reader Nat := do
  let s ← get
  let index := s.groups + 1
  let names := match name? with
    | some n => (n, index) :: s.names
    | none => s.names
  set { s with groups := index, names := names }
  return index

/-- The effect of a flag letter. -/
def setFlag? (f : Flags) (on : Bool) : Char → Option Flags
  | 'i' => some { f with ignoreCase := on }
  | 'm' => some { f with multiLine := on }
  | 's' => some { f with dotAll := on }
  | 'U' => some { f with swapGreed := on }
  | 'x' => some { f with extended := on }
  | 'u' => if on then some f else none
  | _ => none

/-- Reads flags, which take effect at once, up to a colon or a closing parenthesis. Answers whether
it was a colon. Something has to stand before a parenthesis and behind a minus sign, if only blanks.
`start` is what was left of the pattern where the flags began, and the fuel is its length. -/
def flagLetters (start : Nat) : Nat → Bool → Reader Bool
  | 0, _ => refuse
  | fuel + 1, negated => do
    skipIgnored
    let read := start - (← get).rest.length
    let c ← here
    drop 1
    if c == ')' then
      if read = 0 || (negated && read = 1) then refuse else return false
    else if c == ':' then
      if negated && read = 1 then refuse else return true
    else if c == '-' then
      if negated then refuse else flagLetters start fuel true
    else
      match setFlag? (← get).flags (!negated) c with
      | some f =>
        modify ({ · with flags := f })
        flagLetters start fuel negated
      | none => refuse

/-- Reads a condition and its branches, with `body` for patterns. A condition without branches is
the condition itself. -/
def condition (body : Reader Expr) : Reader Expr := do
  let c ← match ← here with
    | '\'' => namedRef "'" "'" true
    | '<' => namedRef "<" ">" true
    | c => if PatternReader.isDigit c then numberedRef else body
  close
  let before := (← get).rest.length
  let branches ← body
  let after := (← get).rest.length
  close
  let test := match c with
    | .backref index => .taken index
    | e => e
  if before = after then
    match c with
    | .backref _ => return test
    | _ => refuse
  else
    let (yes, no) := match branches with
      | .alt [y, n] => (y, n)
      | .alt (y :: ns) => (y, .alt ns)
      | e => (e, .empty)
    if yes.isEmpty && no.isEmpty then return test else return .conditional test yes no

/-- Reads what stands up to the closing parenthesis. -/
def enclosed (body : Reader Expr) (wrap : Expr → Expr) : Reader Expr := do
  let e ← body
  close
  return wrap e

/-- Reads a group from its name on. -/
def namedGroup (body : Reader Expr) : Reader Expr := do
  let index ← openGroup (some (← name "" ">" false))
  enclosed body (.group index)

/-- Reads flags and, behind a colon, what they hold for. Flags without a colon hold for what follows
the group. -/
def flagGroup (body : Reader Expr) : Reader Expr := do
  let outer := (← get).flags
  let start := (← get).rest.length
  if ← flagLetters start (start + 1) false then
    let e ← body
    if (← here) != ')' then refuse
    drop 1
    modify ({ · with flags := outer })
    return e
  else return .empty

/-- Reads a group from its opening parenthesis on, with `body` for what stands in it. -/
def group (body : Reader Expr) : Reader Expr := do
  drop 1
  skipIgnored
  if ← accept "?=" then enclosed body (.around false false)
  else if ← accept "?!" then enclosed body (.around false true)
  else if ← accept "?<=" then enclosed body (.around true false)
  else if ← accept "?<!" then enclosed body (.around true true)
  else if ← accept "?P<" then namedGroup body
  else if ← accept "?<" then namedGroup body
  else if ← accept "?P=" then namedRef "" ")" false
  else if ← accept "?>" then enclosed body .atomic
  else if ← accept "?(" then condition body
  else if ← accept "?" then flagGroup body
  else enclosed body (.group (← openGroup none))

/-! ## pieces and branches -/

/-- How deeply the notation of a set outside of classes is nested: a bracket is a level, and so is a
mode, which only sets without one need. -/
def setDepth (ignoreCase : Bool) (written : List Char) : Nat :=
  if written.head? == some '[' then 2 else if ignoreCase then 1 else 0

/-- Reads a single thing, with `groups` for groups; the empty pattern where none begins. -/
def atom (groups : Reader Expr) : Reader Expr := do
  skipIgnored
  let f := (← get).flags
  match ← peek with
  | none => return .empty
  | some c =>
    match c with
    | '(' => groups
    | '[' => bracketClass
    | '+' => return .empty
    | '*' => return .empty
    | '?' => return .empty
    | '|' => return .empty
    | ')' => return .empty
    | '\\' =>
      drop 1
      match ← escape false with
      | .char c => return .char c false
      | .code c => return .char c f.ignoreCase
      | .set s written => return .set s (setDepth f.ignoreCase written)
      | .other e => return e
    | '.' =>
      drop 1
      return .any f.dotAll
    | '^' =>
      drop 1
      return .look (if f.multiLine then .lineStart false else .textStart)
    | '$' =>
      drop 1
      return .look (if f.multiLine then .lineEnd false else .textEnd)
    | c =>
      drop 1
      return .char c f.ignoreCase

/-- Reads the mark of a repetition; none is read when there is none. -/
def repetition? : Reader (Option (Nat × Option Nat)) := do
  match ← peek with
  | some '?' =>
    drop 1
    return some (0, some 1)
  | some '*' =>
    drop 1
    return some (0, none)
  | some '+' =>
    drop 1
    return some (1, none)
  | some '{' => counts?
  | _ => return none

/-- Reads a single thing and how often it is repeated. A second plus sign keeps the repetition from
being entered again. -/
def piece (groups : Reader Expr) : Reader Expr := do
  let e ← atom groups
  skipIgnored
  match ← repetition? with
  | none => return e
  | some (min, max) =>
    if !e.isRepeatable then refuse
    skipIgnored
    let lazy ← accept "?"
    let loop := .loop e min max (lazy == (← get).flags.swapGreed)
    if ← accept "+" then return .atomic loop else return loop

/-- Patterns one after the other. -/
def sequence : List Expr → Expr
  | [] => .empty
  | [e] => e
  | es => .seq es

/-- Reads pieces until one reads nothing; `read` holds them, the last one first. Every round reads
at least one character, so the length of the pattern is enough fuel. -/
def branch (groups : Reader Expr) : Nat → List Expr → Reader Expr
  | 0, _ => refuse
  | fuel + 1, read => do
    let before := (← get).rest.length
    if before = 0 then return sequence read.reverse
    let e ← piece groups
    if (← get).rest.length = before then return sequence read.reverse
    else branch groups fuel (if e.isEmpty then read else e :: read)

/-- Reads branches after the first one; `read` holds them, the last one first. -/
def moreBranches (groups : Reader Expr) : Nat → List Expr → Reader Expr
  | 0, _ => refuse
  | fuel + 1, read => do
    skipIgnored
    if ← accept "|" then
      let e ← branch groups ((← get).rest.length + 1) []
      moreBranches groups fuel (e :: read)
    else
      match read with
      | [e] =>
        let s ← get
        if s.numbered && !s.names.isEmpty then refuse else return e
      | es => return .alt es.reverse

/-- Reads branches up to where none begins. -/
def branches (groups : Reader Expr) : Reader Expr := do
  let e ← branch groups ((← get).rest.length + 1) []
  moreBranches groups ((← get).rest.length + 1) [e]

/-- Reads branches with at most that many groups inside one another. -/
def groupBody : Nat → Reader Expr
  | 0 => branches refuse
  | nesting + 1 => branches (group (groupBody nesting))

/-! ## whole patterns -/

/-- How many groups may stand inside one another. -/
def nestingLimit : Nat := 63

/-- A pattern and its groups. -/
structure Parsed where
  expr : Expr
  /-- The number of its groups. -/
  groups : Nat

/-- The expression of a pattern, if the notation has such a pattern. -/
def parse? (pattern : List Char) : Option Parsed := do
  let bound := Text.byteLength pattern / 2
  let (e, s) ← (groupBody nestingLimit).run { rest := pattern, groupBound := bound }
  if s.rest.isEmpty then some ⟨e, s.groups⟩ else none

end TypeQuery.Pattern.Backtracking
