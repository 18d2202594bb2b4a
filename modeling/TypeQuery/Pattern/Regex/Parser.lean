import TypeQuery.Pattern.Footprint
import TypeQuery.Pattern.Regex.Flags
import TypeQuery.Text.Letter

/-!
# TypeQuery.Pattern.Regex.Parser

Reading regular expressions. The notation is the usual one without what needs more than an
automaton: there is no looking around and no reference to a group. Everything that is not part of
the notation is refused, so that a pattern never means something else than it seems to.

* `Regex.parse?` — the expression of a pattern in the given modes
* `CharSet.parse?` — the set of a bracketed class
-/

namespace TypeQuery.Pattern

/-! ## the text of a pattern -/

/-- What a reader of patterns knows while it moves through one. -/
structure PatternState where
  /-- What is left of the pattern. -/
  rest : List Char
  /-- The modes at this place. -/
  flags : Flags
  /-- The names of the groups so far. -/
  names : List String := []
  /-- How many groups were opened. -/
  groups : Nat := 0

/-- A step through a pattern, which fails on what is not part of the notation. -/
abbrev PatternReader (α : Type) := StateT PatternState Option α

namespace PatternReader

/-- Refuses the pattern. -/
def refuse {α : Type} : PatternReader α :=
  StateT.lift none

/-- The next character, which stays where it is. -/
def peek : PatternReader (Option Char) := do
  return (← get).rest.head?

/-- The character after the next one. -/
def peekSecond : PatternReader (Option Char) := do
  return (← get).rest.tail.head?

/-- Passes over one character. -/
def advance : PatternReader Unit :=
  modify fun s => { s with rest := s.rest.tail }

/-- Drops blanks, and comments up to the end of their line. -/
def dropIgnored (comment : Bool) : List Char → List Char
  | [] => []
  | c :: cs =>
    if comment then dropIgnored (c != '\n') cs
    else if Text.isBlank c then dropIgnored false cs
    else if c == '#' then dropIgnored true cs
    else c :: cs

/-- Passes over blanks and comments in extended mode. -/
def skipIgnored : PatternReader Unit :=
  modify fun s => if s.flags.extended then { s with rest := dropIgnored false s.rest } else s

/-- Passes over one character and, in extended mode, over what is left out behind it. -/
def advanceSkipping : PatternReader Unit := do
  advance
  skipIgnored

/-- Passes over the given text if it comes next. -/
def accept (cs : List Char) : PatternReader Bool := do
  let s ← get
  if cs.isPrefixOf s.rest then
    set { s with rest := s.rest.drop cs.length }
    return true
  else return false

/-- The next character, or nothing but refusal at the end. -/
def here : PatternReader Char := do
  match ← peek with
  | some c => return c
  | none => refuse

/-! ## numbers -/

/-- Whether `c` is an ASCII digit. -/
def isDigit (c : Char) : Bool :=
  '0' ≤ c && c ≤ '9'

/-- The value of a hexadecimal digit. -/
def hexValue? (c : Char) : Option Nat :=
  if isDigit c then some (c.toNat - '0'.toNat)
  else if 'a' ≤ c && c ≤ 'f' then some (c.toNat - 'a'.toNat + 10)
  else if 'A' ≤ c && c ≤ 'F' then some (c.toNat - 'A'.toNat + 10)
  else none

/-- The number that decimal digits stand for. -/
def decimalValue (ds : List Char) : Nat :=
  ds.foldl (fun n c => n * 10 + (c.toNat - '0'.toNat)) 0

/-- Reads digits; the fuel is the length of the pattern. -/
def digitRun : Nat → List Char → PatternReader (List Char)
  | 0, ds => return ds.reverse
  | fuel + 1, ds => do
    match ← peek with
    | some c =>
      if isDigit c then
        advanceSkipping
        digitRun fuel (c :: ds)
      else return ds.reverse
    | none => return ds.reverse

/-- Passes over blanks, in every mode. -/
def skipBlanks : PatternReader Unit :=
  modify fun s => { s with rest := s.rest.dropWhile Text.isBlank }

/-- Reads a count of a repetition with the blanks around it: nothing when there is none, and
refusal when it does not fit 32 bits. -/
def count? : PatternReader (Option Nat) := do
  skipBlanks
  let ds ← digitRun ((← get).rest.length + 1) []
  skipBlanks
  skipIgnored
  if ds.isEmpty then return none
  let n := decimalValue ds
  if n < 0x100000000 then return some n else refuse

/-- The character with that number, if there is one. -/
def charOf (n : Nat) : PatternReader Char :=
  if n.isValidChar then return Char.ofNat n else refuse

/-- Reads `n` hexadecimal digits in front of a number. -/
def hexDigits : Nat → Nat → PatternReader Nat
  | 0, value => return value
  | n + 1, value => do
    match hexValue? (← here) with
    | some d =>
      advanceSkipping
      hexDigits n (value * 16 + d)
    | none => refuse

/-- Reads hexadecimal digits up to the closing brace; the fuel is the length of the pattern. -/
def hexBraced : Nat → Option Nat → PatternReader Nat
  | 0, _ => refuse
  | fuel + 1, value? => do
    let c ← here
    if c == '}' then
      advanceSkipping
      match value? with
      | some value => return value
      | none => refuse
    else
      match hexValue? c with
      | some d =>
        advanceSkipping
        hexBraced fuel (some (value?.getD 0 * 16 + d))
      | none => refuse

/-- Reads a character by its number in hexadecimal digits: as many as given, or any number of them
in braces. -/
def hexChar (digits : Nat) : PatternReader Char := do
  advanceSkipping
  let value ←
    if (← here) == '{' then do
      advanceSkipping
      hexBraced ((← get).rest.length + 1) none
    else hexDigits digits 0
  charOf value

/-! ## escapes -/

/-- What a single character or an escape stands for. -/
inductive Atom where
  | char (c : Char)
  | set (s : CharSet)
  | look (l : Look)

/-- Characters that mean something by themselves somewhere in a pattern. -/
def isMeta (c : Char) : Bool :=
  "\\.+*?()|[]\x7b\x7d^$#&-~".toList.contains c

/-- Whether a backslash before `c` just means `c`. -/
def isEscapable (c : Char) : Bool :=
  isMeta c || (c.toNat < 0x80 && !c.isAlphanum && c != '<' && c != '>')

/-- Whether `c` can be part of the name of a word edge. -/
def isEdgeNameChar (c : Char) : Bool :=
  c.isAlpha || c == '-'

/-- Reads the name of a word edge up to its closing brace; the fuel is the length of the pattern. -/
def edgeName : Nat → List Char → PatternReader (List Char)
  | 0, _ => refuse
  | fuel + 1, name => do
    let c ← here
    if isEdgeNameChar c then
      advanceSkipping
      edgeName fuel (c :: name)
    else if c == '}' then
      advance
      return name.reverse
    else refuse

/-- Reads which word edge is meant when a brace follows. A brace that begins a count is left for
the repetition. -/
def wordEdge : PatternReader Look := do
  if (← peek) != some '{' then return .wordEdge
  let before ← get
  advanceSkipping
  if !isEdgeNameChar (← here) then
    set before
    return .wordEdge
  match String.ofList (← edgeName ((← get).rest.length + 1) []) with
  | "start" => return .wordStart
  | "end" => return .wordEnd
  | "start-half" => return .wordStartHalf
  | "end-half" => return .wordEndHalf
  | _ => refuse

/-- Reads what follows a backslash. -/
def escape : PatternReader Atom := do
  let c ← here
  match c with
  | 'x' => return .char (← hexChar 2)
  | 'u' => return .char (← hexChar 4)
  | 'U' => return .char (← hexChar 8)
  | _ =>
    advance
    match c with
    | 'd' => return .set .digit
    | 'D' => return .set CharSet.digit.compl
    | 's' => return .set .space
    | 'S' => return .set CharSet.space.compl
    | 'w' => return .set .word
    | 'W' => return .set CharSet.word.compl
    | 'a' => return .char '\x07'
    | 'f' => return .char '\x0c'
    | 't' => return .char '\t'
    | 'n' => return .char '\n'
    | 'r' => return .char '\r'
    | 'v' => return .char '\x0b'
    | 'A' => return .look .textStart
    | 'z' => return .look .textEnd
    | 'b' => return .look (← wordEdge)
    | 'B' => return .look .notWordEdge
    | '<' => return .look .wordStart
    | '>' => return .look .wordEnd
    | c => if isEscapable c then return .char c else refuse

/-! ## classes -/

/-- How two sets in a class are combined. -/
inductive SetOperator where
  | intersection
  | difference
  | symmetricDifference

/-- A set of a class and how deeply brackets, operators and lists of items are nested in it. -/
structure ClassPart where
  set : CharSet := .none
  depth : Nat := 0

/-- A bracket that is being read. -/
structure Bracket where
  negated : Bool
  /-- What stands before the last operator. -/
  left : Option (SetOperator × ClassPart) := none
  /-- What stands after it. -/
  items : ClassPart := {}
  /-- How many items stand after it. -/
  count : Nat := 0

namespace Bracket

/-- Adds an item. -/
def push (b : Bracket) (p : ClassPart) : Bracket :=
  { b with
    items := ⟨b.items.set.union p.set, max b.items.depth p.depth⟩
    count := b.count + 1 }

/-- Adds a character. -/
def pushChar (b : Bracket) (c : Char) : Bracket :=
  b.push { set := .single c }

/-- What stands after the last operator; several items are a level of their own. -/
def right (b : Bracket) : ClassPart :=
  if 1 < b.count then { b.items with depth := b.items.depth + 1 } else b.items

/-- The part so far, up to negation. -/
def combined (b : Bracket) (ignoreCase : Bool) : ClassPart :=
  match b.left with
  | none => b.right
  | some (op, l) =>
    let s := l.set.withCase ignoreCase
    let t := b.right.set.withCase ignoreCase
    let set := match op with
      | .intersection => s.inter t
      | .difference => s.diff t
      | .symmetricDifference => s.symmDiff t
    ⟨set, max l.depth b.right.depth + 1⟩

/-- Goes on behind an operator. -/
def operate (b : Bracket) (op : SetOperator) (ignoreCase : Bool) : Bracket :=
  { negated := b.negated, left := some (op, b.combined ignoreCase) }

/-- The part that the bracket is. -/
def close (b : Bracket) (ignoreCase : Bool) : ClassPart :=
  let p := b.combined ignoreCase
  let s := p.set.withCase ignoreCase
  ⟨if b.negated then s.compl else s, p.depth + 1⟩

end Bracket

/-- Reads hyphens at the start of a bracket, which stand for themselves; the fuel is the length of
the pattern. -/
def leadingHyphens : Nat → Bracket → PatternReader Bracket
  | 0, _ => refuse
  | fuel + 1, b => do
    if (← here) == '-' then
      advanceSkipping
      leadingHyphens fuel (b.pushChar '-')
    else return b

/-- Reads the start of a bracket: the bracket itself, a negation, hyphens, and a closing bracket
that comes first and stands for itself. -/
def openBracket : PatternReader Bracket := do
  advanceSkipping
  let negated := (← here) == '^'
  if negated then advanceSkipping
  let b ← leadingHyphens ((← get).rest.length + 1) { negated := negated }
  if (← here) == ']' && b.count = 0 then
    advanceSkipping
    let _ ← here
    return b.pushChar ']'
  else return b

/-- Reads a class such as `[:digit:]`; nothing is read when there is none. Its negation leaves out
all cases of what it leaves out. -/
def asciiClass? : PatternReader (Option CharSet) := do
  match (← get).rest with
  | '[' :: ':' :: cs =>
    let (negated, cs) := match cs with
      | '^' :: cs => (true, cs)
      | cs => (false, cs)
    let name := cs.takeWhile (· != ':')
    match cs.drop name.length with
    | ':' :: ']' :: rest =>
      match CharSet.ascii? (String.ofList name) with
      | some s =>
        modify ({ · with rest := rest })
        let s := s.withCase (← get).flags.ignoreCase
        return some (if negated then s.compl else s)
      | none => return none
    | _ => return none
  | _ => return none

/-- Reads one character or escape of a class. -/
def classAtom : PatternReader Atom := do
  let c ← here
  advance
  if c == '\\' then escape else return .char c

/-- The next character after a hyphen. In extended mode blanks are passed over, and one mark of a
comment, but not the comment. -/
def peekAfterHyphen : PatternReader (Option Char) := do
  let s ← get
  let rest := s.rest.tail
  if !s.flags.extended then return rest.head?
  match rest.dropWhile Text.isBlank with
  | '#' :: cs => return (cs.dropWhile Text.isBlank).head?.or rest.head?
  | cs => return cs.head?.or rest.head?

/-- Reads a single item or a range of a class. -/
def classItem : PatternReader CharSet := do
  let first ← classAtom
  skipIgnored
  let after ← if (← here) == '-' then peekAfterHyphen else pure (some ']')
  if after == some ']' || after == some '-' then
    match first with
    | .char c => return .single c
    | .set s => return s
    | .look _ => refuse
  else
    advanceSkipping
    match first, ← classAtom with
    | .char c, .char d => if c ≤ d then return .range c d else refuse
    | _, _ => refuse

/-- Reads a class up to its last bracket; `outer` are the brackets around the one that is being
read. Every round reads at least one character, so the length of the pattern is enough fuel. -/
def classBody : Nat → Bracket → List Bracket → PatternReader ClassPart
  | 0, _, _ => refuse
  | fuel + 1, b, outer => do
    skipIgnored
    let ignoreCase := (← get).flags.ignoreCase
    let c ← here
    let second ← peekSecond
    if c == '[' then
      match ← asciiClass? with
      | some s => classBody fuel (b.push { set := s }) outer
      | none => classBody fuel (← openBracket) (b :: outer)
    else if c == ']' then
      advance
      match outer with
      | [] => return b.close ignoreCase
      | o :: outer => classBody fuel (o.push (b.close ignoreCase)) outer
    else if c == '&' && second == some '&' then
      advance
      advance
      classBody fuel (b.operate .intersection ignoreCase) outer
    else if c == '-' && second == some '-' then
      advance
      advance
      classBody fuel (b.operate .difference ignoreCase) outer
    else if c == '~' && second == some '~' then
      advance
      advance
      classBody fuel (b.operate .symmetricDifference ignoreCase) outer
    else classBody fuel (b.push { set := ← classItem }) outer

/-- Reads a bracketed class. -/
def bracketClass : PatternReader ClassPart := do
  let b ← openBracket
  classBody ((← get).rest.length + 1) b []

/-! ## flags and names -/

/-- The effect of a flag letter; nothing for letters that are no flags. -/
def setFlag? (f : Flags) (on : Bool) : Char → Option Flags
  | 'i' => some { f with ignoreCase := on }
  | 'm' => some { f with multiLine := on }
  | 's' => some { f with dotAll := on }
  | 'U' => some { f with swapGreed := on }
  | 'R' => some { f with crlf := on }
  | 'x' => some { f with extended := on }
  | 'u' => if on then some f else none
  | _ => none

/-- Reads flags up to a colon or a closing parenthesis, neither of which is read. No letter may
come twice, and a minus sign has to be followed by a letter. -/
def flagLetters : Nat → List Char → Flags → PatternReader (Flags × List Char)
  | 0, _, _ => refuse
  | fuel + 1, seen, f => do
    let c ← here
    if c == ':' || c == ')' then
      if seen.head? == some '-' then refuse else return (f, seen)
    else if seen.contains c then refuse
    else if c == '-' then
      advance
      flagLetters fuel (c :: seen) f
    else
      match setFlag? f (!seen.contains '-') c with
      | some f =>
        advance
        flagLetters fuel (c :: seen) f
      | none => refuse

/-- Whether `c` may stand in the name of a group. -/
def isNameChar (first : Bool) (c : Char) : Bool :=
  if first then c == '_' || Text.isLetter c
  else c == '_' || c == '.' || c == '[' || c == ']' || Text.isLetter c || Text.isNumber c

/-- Reads the name of a group and the mark behind it. Names are not empty and not used twice. -/
def groupName : PatternReader Unit := do
  let s ← get
  let name := s.rest.takeWhile (· != '>')
  match name, s.rest.drop name.length with
  | c :: cs, '>' :: rest =>
    if isNameChar true c && cs.all (isNameChar false) && !s.names.contains (String.ofList name) then
      set { s with rest := rest, names := String.ofList name :: s.names }
    else refuse
  | _, _ => refuse

/-! ## pieces -/

/-- A piece of a pattern. -/
structure Piece where
  regex : Regex
  /-- How deeply groups, repetitions and sequences are nested in it. -/
  depth : Nat := 0
  /-- Whether it can be repeated: a change of modes cannot. -/
  repeatable : Bool := true

namespace Piece

/-- The depth of the deepest piece. -/
def maxDepth (ps : List Piece) : Nat :=
  ps.foldl (fun d p => max d p.depth) 0

/-- Pieces one after the other. -/
def sequence : List Piece → Piece
  | [] => { regex := .empty }
  | [p] => p
  | ps => { regex := .concat (ps.map (·.regex)), depth := maxDepth ps + 1 }

/-- One of several pieces. -/
def alternatives : List Piece → Piece
  | [p] => p
  | ps => { regex := .either (ps.map (·.regex)), depth := maxDepth ps + 1 }

/-- A piece of one expression. -/
def leaf (r : Regex) : Piece :=
  { regex := r }

end Piece

/-- The last piece again, as often as said: `done` holds the pieces so far, the last one first. -/
def repeatLast (done : List Piece) (min : Nat) (max : Option Nat) (greedy : Bool) :
    PatternReader (List Piece) := do
  match done with
  | p :: ps =>
    if p.repeatable then
      let greedy := greedy != (← get).flags.swapGreed
      return { regex := p.regex.repeated min max greedy, depth := p.depth + 1 } :: ps
    else refuse
  | [] => refuse

/-- Reads the mark of a lazy repetition. -/
def isGreedy : PatternReader Bool := do
  return !(← accept ['?'])

/-- Reads the counts of a repetition from its opening brace on. -/
def counts : PatternReader (Nat × Option Nat) := do
  advanceSkipping
  let _ ← here
  let low ← count?
  let range ←
    if (← here) == ',' then do
      advanceSkipping
      if (← here) == '}' then
        match low with
        | some n => pure (n, none)
        | none => refuse
      else
        match low, ← count? with
        | some n, some m => pure (n, some m)
        | _, _ => refuse
    else
      match low with
      | some n => pure (n, some n)
      | none => refuse
  if (← here) == '}' then
    advanceSkipping
    return range
  else refuse

/-- Whether the upper count, if there is one, is not below the lower one. -/
def isRange : Nat × Option Nat → Bool
  | (n, some m) => n ≤ m
  | (_, none) => true

/-- Reads a single character, a place or an escape outside of classes. -/
def primitive : PatternReader Piece := do
  let f := (← get).flags
  let c ← here
  advance
  match c with
  | '.' => return .leaf (.set (if f.dotAll then .all else .inLine f.crlf))
  | '^' => return .leaf (.look (if f.multiLine then .lineStart f.crlf else .textStart))
  | '$' => return .leaf (.look (if f.multiLine then .lineEnd f.crlf else .textEnd))
  | '\\' =>
    match ← escape with
    | .char c => return .leaf (.set (.ofChar c f.ignoreCase))
    | .set s => return .leaf (.set s)
    | .look l => return .leaf (.look l)
  | c => return .leaf (.set (.ofChar c f.ignoreCase))

/-- Opens a group that keeps its match and answers its number. -/
def openGroup : PatternReader (Option Nat) := do
  let s ← get
  set { s with groups := s.groups + 1 }
  return some (s.groups + 1)

/-- Reads what stands in a group and its closing parenthesis, behind which the modes are those of
`outer` again. -/
def closeGroup (body : PatternReader Piece) (outer : Flags) (index? : Option Nat) :
    PatternReader Piece := do
  let p ← body
  if (← here) != ')' then refuse
  advance
  modify ({ · with flags := outer })
  let r := match index? with
    | some i => .group i p.regex
    | none => p.regex
  return { regex := r, depth := p.depth + 1 }

/-- Reads a group from its opening parenthesis on, with `body` for what stands in it. Looking around
is refused. Flags without a colon change the modes of what follows them. -/
def group (body : PatternReader Piece) : PatternReader Piece := do
  advanceSkipping
  for mark in ["?=", "?!", "?<=", "?<!"] do
    if ← accept mark.toList then refuse
  let outer := (← get).flags
  if ← accept "?P<".toList then
    groupName
    closeGroup body outer (← openGroup)
  else if ← accept "?<".toList then
    groupName
    closeGroup body outer (← openGroup)
  else if ← accept ['?'] then
    let (f, letters) ← flagLetters ((← get).rest.length + 1) [] outer
    modify ({ · with flags := f })
    if (← here) == ')' then
      advance
      if letters.isEmpty then refuse
      return { regex := .empty, repeatable := false }
    advance
    closeGroup body outer none
  else closeGroup body outer (← openGroup)

/-- Reads branches up to a closing parenthesis, which is not read, or the end of the pattern.
`branches` holds the branches so far and `done` the pieces of the current one, the last one first.
Every round reads at least one character, so the length of the pattern is enough fuel. -/
def branches (inner : PatternReader Piece) :
    Nat → List Piece → List Piece → PatternReader Piece
  | 0, _, _ => refuse
  | fuel + 1, finished, done => do
    skipIgnored
    match ← peek with
    | none => return .alternatives ((Piece.sequence done.reverse) :: finished).reverse
    | some ')' => return .alternatives ((Piece.sequence done.reverse) :: finished).reverse
    | some '|' =>
      advance
      branches inner fuel ((Piece.sequence done.reverse) :: finished) []
    | some '[' =>
      let p ← bracketClass
      branches inner fuel finished ({ regex := .set p.set, depth := p.depth } :: done)
    | some '?' =>
      advance
      branches inner fuel finished (← repeatLast done 0 (some 1) (← isGreedy))
    | some '*' =>
      advance
      branches inner fuel finished (← repeatLast done 0 none (← isGreedy))
    | some '+' =>
      advance
      branches inner fuel finished (← repeatLast done 1 none (← isGreedy))
    | some '{' =>
      let (min, max) ← counts
      let greedy ← isGreedy
      if isRange (min, max) then
        branches inner fuel finished (← repeatLast done min max greedy)
      else refuse
    | some '(' =>
      let p ← group inner
      branches inner fuel finished (p :: done)
    | some _ =>
      let p ← primitive
      branches inner fuel finished (p :: done)

/-- Reads what stands in a group with at most that many groups inside one another. -/
def groupBody : Nat → PatternReader Piece
  | 0 => refuse
  | nesting + 1 => do
    branches (groupBody nesting) ((← get).rest.length + 1) [] []

end PatternReader

/-! ## whole patterns -/

/-- The expression of a pattern in the given modes, if the notation has such a pattern and it is not
too large. -/
def Regex.parse? (flags : Flags) (pattern : List Char) : Option Regex := do
  let (p, s) ← (PatternReader.groupBody (pattern.length + 1)).run { rest := pattern, flags := flags }
  if s.rest.isEmpty && p.depth ≤ depthLimit && p.regex.fits then some p.regex else none

/-- The set of a bracketed class, which has to be the whole text, and how deeply it is nested. -/
def CharSet.parse? (ignoreCase : Bool) (text : List Char) : Option (CharSet × Nat) := do
  let (p, s) ← PatternReader.bracketClass.run { rest := text, flags := { ignoreCase := ignoreCase } }
  if s.rest.isEmpty then some (p.set, p.depth) else Option.none

end TypeQuery.Pattern
