import TypeQuery.Pattern.Automaton
import TypeQuery.Pattern.Backtracking.Expr

/-!
# TypeQuery.Pattern.Backtracking.Program

Programs for patterns that need backtracking. An expression becomes a list of instructions for a
machine with a place in the text, numbered slots and a stack of ways that are still to be tried.
What is a regular expression is left to an automaton, which finds one match, with the groups in it,
and no second one. This is done where no match of another width can make a difference later:

* at the start of a sequence and at its end, as far as the width is fixed;
* anywhere in what is looked at or never entered again, unless something hard follows.

The slots hold, in this order, the ends of the groups, and what loops and looking around have to
remember.

* `Program.ofExpr?` — the program of an expression; none when looking behind has no fixed width
-/

namespace TypeQuery.Pattern.Backtracking

/-- An instruction of the machine; `next` and the like are places of instructions. -/
inductive Op where
  /-- The match is complete. -/
  | done
  /-- Reads any character, line feeds only if `newline` is set. -/
  | any (newline : Bool)
  /-- Reads a character of the set. -/
  | set (s : CharSet)
  /-- Reads exactly this text. -/
  | literal (cs : List Char)
  /-- Goes on at this kind of place only. -/
  | look (l : Look)
  /-- Goes on at `first`, and at `second` when that fails. -/
  | split (first second : Nat)
  | jump (target : Nat)
  /-- Writes the place in the text into a slot. -/
  | save (slot : Nat)
  /-- Writes zero into a slot. -/
  | reset (slot : Nat)
  /-- Goes back to the place in a slot. -/
  | restore (slot : Nat)
  /-- Begins one more round of a counted loop, or leaves it for `next`. -/
  | round (min : Nat) (max : Option Nat) (greedy : Bool) (next counter : Nat)
  /-- Begins one more round of a loop that fails after a round that read nothing; where the last
  round began is in the slot `began`. -/
  | roundOrStop (min : Nat) (greedy : Bool) (next counter began : Nat)
  /-- Moves back over `n` characters. -/
  | goBack (n : Nat)
  /-- What must not stand here does: fails, and with it all ways since the split that led here. -/
  | failAround
  /-- Reads what the group has matched. -/
  | backref (group : Nat)
  /-- Goes on if the group has matched. -/
  | taken (group : Nat)
  /-- Marks the stack. -/
  | beginAtomic
  /-- Forgets all ways since the mark. -/
  | endAtomic
  /-- Reads what the automaton matches here; the groups are set to what they have matched in it. -/
  | delegate (a : Automaton) (groups : List Nat)
  /-- Goes on where the search began only. -/
  | resume
  deriving Repr

/-- Instructions, with the number of slots that they use. -/
structure Program where
  code : Array Op
  slots : Nat
  deriving Repr

namespace Program

/-- A step of building a program, which knows how many slots are in use. -/
abbrev Build (α : Type) := StateT Nat Option α

/-- The number of a slot that is not in use. -/
def newSlot : Build Nat := do
  let n ← get
  set (n + 1)
  return n

/-- What an automaton does for patterns one after the other, which are not hard. Nothing is left to
do for none of them. -/
def delegate (es : List Expr) : Build (List Op) := do
  if es.isEmpty then return []
  match Expr.literals? es with
  | some cs => return [.literal cs]
  | none =>
    match Expr.rowRegex? es with
    | some (.set s) => return [.set s]
    | some r => return [.delegate (.ofRegex r) (Expr.groupsOf es)]
    | none => StateT.lift none

/-- The place behind which nothing but easy patterns follow, and how many of fixed width come
first: the former of the two only if a width need not be fixed. -/
def easyEnds (hard : Bool) (items : List Expr) : Nat × Nat :=
  let easy (e : Expr) : Bool := !e.isHard
  let fixed (e : Expr) : Bool := e.fixedWidth && easy e
  let first := (items.takeWhile fixed).length
  let last := ((items.drop first).reverse.takeWhile (if hard then fixed else easy)).length
  (first, items.length - last)

/-- One of several lists of instructions that begin at place `pc`: a split before each but the
last, and a jump to the end behind it. -/
def choose (codes : List (Nat → Build (List Op))) (pc : Nat) : Build (List Op) :=
  match codes with
  | [] => return []
  | [code] => code pc
  | code :: codes => do
    let first ← code (pc + 1)
    let second := pc + 1 + first.length + 1
    let rest ← choose codes second
    return .split (pc + 1) second :: first ++ .jump (second + rest.length) :: rest

/-- A split between a body, which begins right behind it, and what follows at `next`. -/
def splitFor (greedy : Bool) (body next : Nat) : Op :=
  if greedy then .split body next else .split next body

/-- A loop around a body that counts its rounds. -/
def countedLoop (min : Nat) (max : Option Nat) (greedy : Bool) (body : Nat → Build (List Op))
    (pc : Nat) : Build (List Op) := do
  let counter ← newSlot
  let code ← body (pc + 2)
  let next := pc + 2 + code.length + 1
  return [.reset counter, .round min max greedy next counter] ++ code ++ [.jump (pc + 1)]

/-- A loop around a body that may read nothing, which ends after such a round. -/
def stoppingLoop (min : Nat) (greedy : Bool) (body : Nat → Build (List Op)) (pc : Nat) :
    Build (List Op) := do
  let counter ← newSlot
  let began ← newSlot
  let code ← body (pc + 2)
  let next := pc + 2 + code.length + 1
  return [.reset counter, .roundOrStop min greedy next counter began] ++ code ++ [.jump (pc + 1)]

/-- A loop around a body, where `width` is the least width of the body. -/
def loopCode (min : Nat) (max : Option Nat) (greedy : Bool) (width : Nat)
    (body : Nat → Build (List Op)) (pc : Nat) : Build (List Op) := do
  match min, max with
  | 0, some 1 =>
    let code ← body (pc + 1)
    return splitFor greedy (pc + 1) (pc + 1 + code.length) :: code
  | min, some max => countedLoop min (some max) greedy body pc
  | min, none =>
    if width = 0 then stoppingLoop min greedy body pc
    else
      match min with
      | 0 =>
        let code ← body (pc + 1)
        return splitFor greedy (pc + 1) (pc + 1 + code.length + 1) :: code ++ [.jump pc]
      | 1 =>
        let code ← body pc
        return code ++ [splitFor greedy pc (pc + code.length + 1)]
      | min => countedLoop min none greedy body pc

/-- Looking at a body; the machine goes back by `back` characters first when it looks behind. -/
def lookCode (negated : Bool) (back : Option Nat) (body : Nat → Build (List Op)) (pc : Nat) :
    Build (List Op) := do
  let step := match back with
    | some n => [Op.goBack n]
    | none => []
  if negated then
    let code ← body (pc + 1 + step.length)
    let next := pc + 1 + step.length + code.length + 1
    return .split (pc + 1) next :: step ++ code ++ [.failAround]
  else
    let slot ← newSlot
    let code ← body (pc + 1 + step.length)
    return .save slot :: step ++ code ++ [.restore slot]

/-- Lists of instructions one after the other. -/
def chain (codes : List (Nat → Build (List Op))) (pc : Nat) : Build (List Op) :=
  match codes with
  | [] => return []
  | code :: codes => do
    let first ← code pc
    return first ++ (← chain codes (pc + first.length))

mutual

/-- The instructions of an expression that begin at place `pc`. Unless something hard comes after
it, an easy expression is left to an automaton. Where the machine looks behind, each branch of an
alternative may have a width of its own, and every width has to be fixed. -/
def compile (hard : Bool) (e : Expr) (pc : Nat) : Build (List Op) := do
  if !hard && !e.isHard then delegate [e]
  else
    match e with
    | .empty => return []
    | .any newline => return [.any newline]
    | .char .. => delegate [e]
    | .set .. => delegate [e]
    | .look l => return [.look l]
    | .seq items =>
      let (first, last) := easyEnds hard items
      let start ← delegate (items.take first)
      let middle ← compileItems (first, last) 0 items (pc + start.length)
      return start ++ middle ++ (← delegate (items.drop last))
    | .alt branches => choose (compileEach hard branches) pc
    | .group index body =>
      let code ← compile hard body (pc + 1)
      return .save (2 * index) :: code ++ [.save (2 * index + 1)]
    | .loop body min max greedy =>
      let hard := if min = 0 && max == some 1 then hard else hard || body.isHard
      loopCode min max greedy body.minWidth (compile hard body) pc
    | .around behind negated body =>
      if !behind then lookCode negated none (compile false body) pc
      else if body.fixedWidth then
        lookCode negated (some body.minWidth) (compile false body) pc
      else
        match body with
        | .alt branches =>
          let codes := compileBehind negated branches
          if negated then chain codes pc else choose codes pc
        | _ => StateT.lift none
    | .backref index => return [.backref index]
    | .taken index => return [.taken index]
    | .atomic body =>
      let code ← compile false body (pc + 1)
      return .beginAtomic :: code ++ [.endAtomic]
    | .keepOut => return [.save 0]
    | .resume => return [.resume]
    | .conditional condition yes no =>
      let test ← compile hard condition (pc + 2)
      let onYes ← compile hard yes (pc + 2 + test.length + 1)
      let onNo := pc + 2 + test.length + 1 + onYes.length + 1
      let code ← compile hard no onNo
      return [.beginAtomic, .split (pc + 2) onNo] ++ test ++ .endAtomic :: onYes ++
        .jump (onNo + code.length) :: code

/-- The instructions of the items from place `range.1` up to place `range.2` of a sequence, where
the given ones begin at place `i`. -/
def compileItems (range : Nat × Nat) (i : Nat) :
    List Expr → Nat → Build (List Op)
  | [], _ => return []
  | e :: es, pc => do
    let code ← if range.1 ≤ i && i < range.2 then compile true e pc else pure []
    return code ++ (← compileItems range (i + 1) es (pc + code.length))

/-- How each of several expressions is compiled. -/
def compileEach (hard : Bool) : List Expr → List (Nat → Build (List Op))
  | [] => []
  | e :: es => compile hard e :: compileEach hard es

/-- How looking behind at each of several branches is compiled. -/
def compileBehind (negated : Bool) :
    List Expr → List (Nat → Build (List Op))
  | [] => []
  | e :: es =>
    (fun pc =>
      if e.fixedWidth then lookCode negated (some e.minWidth) (compile false e) pc
      else StateT.lift none) :: compileBehind negated es

end

/-- The program of an expression with that many groups: it tries to match at the place where the
search begins, then one character further on, and so forth. -/
def ofExpr? (groups : Nat) (e : Expr) : Option Program := do
  let (code, slots) ← (compile true e 4).run (2 * (groups + 1))
  let ops : List Op := [.split 3 1, .any true, .jump 0, .save 0] ++ code ++ [.save 1, .done]
  return ⟨ops.toArray, slots⟩

end Program

end TypeQuery.Pattern.Backtracking
