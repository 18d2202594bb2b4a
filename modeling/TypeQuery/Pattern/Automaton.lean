import TypeQuery.Pattern.Regex

/-!
# TypeQuery.Pattern.Automaton

Automata for regular expressions. An expression becomes a list of instructions, and a search runs
all ways through it side by side, one character at a time, so its cost grows with the text times
the expression and never faster. Threads are kept in order of preference: of two that reach the
same instruction the preferred one stays, and a match puts an end to all threads that are less
preferred. A search may ask for what the groups have matched, too; each thread then notes the places
where groups began and ended on its way.

* `Automaton.ofRegex` — the automaton of an expression
* `Automaton.search` — the preferred match, at a fixed place or from there on
* `Automaton.matchAt` — the preferred match at a place, with its groups
-/

namespace TypeQuery.Pattern

/-- An instruction of an automaton; the numbers are places of instructions. -/
inductive Instr where
  /-- Reads a character of the set. -/
  | char (s : CharSet) (next : Nat)
  /-- Goes on at this kind of place only. -/
  | look (l : Look) (next : Nat)
  /-- Goes on in two ways, preferably the first. -/
  | split (first second : Nat)
  /-- Notes the place. -/
  | save (slot next : Nat)
  /-- The match is complete. -/
  | done
  deriving DecidableEq, Repr

/-- Instructions and the one that a match begins with. -/
structure Automaton where
  code : Array Instr
  start : Nat
  deriving Repr

namespace Automaton

/-! ## from expressions to instructions -/

/-- Adds an instruction and answers its place. -/
def emit (i : Instr) : StateM (Array Instr) Nat :=
  modifyGet fun code => (code.size, code.push i)

/-- The choice between one more round of a repetition and what follows it. -/
def choice (greedy : Bool) (round next : Nat) : Instr :=
  if greedy then .split round next else .split next round

/-- A loop around instructions that end where the choice stands. Answers where a round begins and
where the choice stands. -/
def emitLoop (greedy : Bool) (body : Nat → StateM (Array Instr) Nat) (next : Nat) :
    StateM (Array Instr) (Nat × Nat) := do
  let place ← emit .done
  let round ← body place
  modify (·.setIfInBounds place (choice greedy round next))
  return (round, place)

/-- Instructions `n` times over, the last of them ending at `next`. -/
def emitTimes (body : Nat → StateM (Array Instr) Nat) : Nat → Nat → StateM (Array Instr) Nat
  | 0, next => return next
  | n + 1, next => do emitTimes body n (← body next)

/-- Up to `n` more rounds, each of which may be the one before `next`; `start` is where the last
round ends. -/
def emitUpTo (greedy : Bool) (body : Nat → StateM (Array Instr) Nat) (next : Nat) :
    Nat → Nat → StateM (Array Instr) Nat
  | 0, start => return start
  | n + 1, start => do
    let round ← body start
    emitUpTo greedy body next n (← emit (choice greedy round next))

/-- The instructions of an expression, going on at `next` after it. Answers where they begin. An
expression that may match nothing is repeated as an optional group of one or more rounds: a loop
entered through its choice would prefer no round at all to a round that reads nothing. The group with
number `i` notes its ends in the slots `2 * i` and `2 * i + 1`. -/
def compile : Regex → Nat → StateM (Array Instr) Nat
  | .empty, next => return next
  | .set s, next => emit (.char s next)
  | .look l, next => emit (.look l next)
  | .seq r s, next => do compile r (← compile s next)
  | .alt r s, next => do
    let first ← compile r next
    let second ← compile s next
    emit (.split first second)
  | .loop r 0 none greedy, next => do
    let (round, place) ← emitLoop greedy (compile r) next
    if r.alwaysReads then return place else emit (choice greedy round next)
  | .loop r (n + 1) none greedy, next => do
    let (round, _) ← emitLoop greedy (compile r) next
    emitTimes (compile r) n round
  | .loop r min (some max) greedy, next => do
    let start ← emitUpTo greedy (compile r) next (max - min) next
    emitTimes (compile r) min start
  | .group index r, next => do
    let stop ← emit (.save (2 * index + 1) next)
    emit (.save (2 * index) (← compile r stop))

/-- The automaton of an expression. -/
def ofRegex (r : Regex) : Automaton :=
  let (start, code) := (compile r 0).run #[.done]
  ⟨code, start⟩

/-! ## threads -/

/-- The places that a thread has noted; a slot that is not there is never written. -/
abbrev Slots := Array (Option Nat)

/-- A way through the instructions that began at place `start` of the text. -/
structure Thread where
  pc : Nat
  start : Nat
  slots : Slots
  deriving DecidableEq, Repr

/-- Threads in order of preference, and the instructions that were reached. -/
structure Threads where
  list : Array Thread
  seen : Array Bool

/-- No threads. -/
def Threads.none (a : Automaton) : Threads :=
  ⟨#[], Array.replicate a.code.size false⟩

/-- Follows the instructions that read nothing from the places in `todo`, depth first, and adds a
thread for each instruction that reads or ends. Each instruction is followed once and adds at most
two places, which bounds the fuel. -/
def follow (a : Automaton) (text : Array Char) (i start : Nat) :
    Nat → List (Nat × Slots) → Threads → Threads
  | 0, _, ts => ts
  | _, [], ts => ts
  | fuel + 1, (pc, slots) :: todo, ts =>
    if ts.seen.getD pc true then follow a text i start fuel todo ts
    else
      let ts := { ts with seen := ts.seen.setIfInBounds pc true }
      match a.code[pc]? with
      | some (.split first second) =>
        follow a text i start fuel ((first, slots) :: (second, slots) :: todo) ts
      | some (.look l next) =>
        if l.holds text i then follow a text i start fuel ((next, slots) :: todo) ts
        else follow a text i start fuel todo ts
      | some (.save slot next) =>
        follow a text i start fuel ((next, slots.setIfInBounds slot (some i)) :: todo) ts
      | _ => follow a text i start fuel todo { ts with list := ts.list.push ⟨pc, start, slots⟩ }

/-- Adds the threads of instruction `pc` at place `i`. -/
def add (a : Automaton) (text : Array Char) (i start pc : Nat) (slots : Slots) (ts : Threads) :
    Threads :=
  follow a text i start (2 * a.code.size + 2) [(pc, slots)] ts

/-- A match: where it starts and ends, and what its thread has noted. -/
structure Match where
  start : Nat
  stop : Nat
  slots : Slots
  deriving DecidableEq, Repr

/-- Moves the threads over character `i` in order of preference, up to the first one that ends.
Answers the threads behind the character and the match that ends here, if one does. -/
def advance (a : Automaton) (text : Array Char) (i : Nat) :
    List Thread → Threads → Threads × Option Match
  | [], ts => (ts, Option.none)
  | t :: rest, ts =>
    match a.code[t.pc]? with
    | some (.char s next) =>
      match text[i]? with
      | some c =>
        if s.contains c then advance a text i rest (add a text (i + 1) t.start next t.slots ts)
        else advance a text i rest ts
      | Option.none => advance a text i rest ts
    | some .done => (ts, some ⟨t.start, i, t.slots⟩)
    | _ => advance a text i rest ts

/-! ## searching -/

/-- Runs the threads from place `i` on, for at most `left` more characters. Unless the match is
`anchored`, one may begin at every place until one was found. -/
def run (a : Automaton) (text : Array Char) (anchored : Bool) (slots : Slots) :
    Nat → Nat → Threads → Option Match → Option Match
  | left, i, ts, best =>
    let (next, found) := advance a text i ts.list.toList (Threads.none a)
    let best := found.or best
    match left with
    | 0 => best
    | left + 1 =>
      let next :=
        if anchored || best.isSome then next else add a text (i + 1) (i + 1) a.start slots next
      if best.isSome && next.list.isEmpty then best
      else if anchored && next.list.isEmpty then best
      else run a text anchored slots left (i + 1) next best

/-- The preferred match that begins at place `i`, or at the first place from there on where one
begins; `slots` is what threads begin with. -/
def searchWith (a : Automaton) (text : Array Char) (anchored : Bool) (slots : Slots) (i : Nat) :
    Option Match :=
  run a text anchored slots (text.size - i) i (add a text i i a.start slots (Threads.none a))
    Option.none

/-- The first match that begins at place `i` or after it: where it starts and where it ends. -/
def search (a : Automaton) (text : Array Char) (i : Nat) : Option (Nat × Nat) :=
  (a.searchWith text false #[] i).map fun m => (m.start, m.stop)

/-- The preferred match that begins at place `i`, with what that many slots were left at. -/
def matchAt (a : Automaton) (text : Array Char) (slots i : Nat) : Option Match :=
  a.searchWith text true (Array.replicate slots Option.none) i

end Automaton

end TypeQuery.Pattern
