import TypeQuery.Pattern.Backtracking.Program

/-!
# TypeQuery.Pattern.Backtracking.Machine

Running a backtracking program. The machine takes one step at a time. A step that fails goes back to
the way that was put aside last, with the slots as they were then; when none is left there is no
match. Some patterns have exponentially many ways, so a search that has failed too often gives up.

* `Machine.step` — one instruction
* `Program.search` — the first match from a place on
-/

namespace TypeQuery.Pattern.Backtracking

/-- What a search comes to. -/
inductive Outcome where
  /-- The places where a match starts and ends. -/
  | found (start stop : Nat)
  | missing
  /-- There were too many ways. -/
  | gaveUp
  deriving DecidableEq, Repr

/-- A way that is still to be tried. -/
structure Branch where
  pc : Nat
  place : Nat
  slots : Array (Option Nat)
  marks : List Nat

/-- The state of a search. -/
structure Machine where
  /-- The instruction that comes next. -/
  pc : Nat
  /-- The place in the text. -/
  place : Nat
  /-- What the instructions have written; nothing in a slot that was not written. -/
  slots : Array (Option Nat)
  /-- How many ways were put aside at the marks that are set, the latest first. -/
  marks : List Nat
  /-- The ways that were put aside, the latest last. -/
  stack : Array Branch
  /-- How often the search has failed. -/
  failures : Nat

namespace Machine

/-- How often a search may fail. -/
def failureLimit : Nat := 1000000

/-- How many ways may be put aside. -/
def stackLimit : Nat := 1000000

/-- The end of a search or a further state. -/
abbrev Step := Except Outcome Machine

/-- The content of a slot. -/
def slot (m : Machine) (i : Nat) : Option Nat :=
  m.slots.getD i none

/-- Writes a slot. -/
def write (m : Machine) (i n : Nat) : Machine :=
  { m with slots := m.slots.setIfInBounds i (some n) }

/-- The number of slots up to those of the given groups. -/
def groupSlots (groups : List Nat) : Nat :=
  groups.foldl (fun n g => max n (2 * g + 2)) 0

/-- Writes what the given groups have matched; a group without a match has none afterwards. -/
def writeGroups (m : Machine) (found : Array (Option Nat)) (groups : List Nat) : Machine :=
  { m with
    slots := groups.foldl (fun slots g =>
      (slots.setIfInBounds (2 * g) (found.getD (2 * g) none)).setIfInBounds (2 * g + 1)
        (found.getD (2 * g + 1) none)) m.slots }

/-- Goes on with the next instruction. -/
def next (m : Machine) : Step :=
  .ok { m with pc := m.pc + 1 }

/-- Goes on with the next instruction at another place of the text. -/
def nextAt (m : Machine) (place : Nat) : Step :=
  .ok { m with pc := m.pc + 1, place := place }

/-- Goes on with instruction `pc`. -/
def jump (m : Machine) (pc : Nat) : Step :=
  .ok { m with pc := pc }

/-- Goes back to the way that was put aside last. -/
def fail (m : Machine) : Step :=
  match m.stack.back? with
  | none => .error .missing
  | some b =>
    if failureLimit ≤ m.failures then .error .gaveUp
    else .ok ⟨b.pc, b.place, b.slots, b.marks, m.stack.pop, m.failures + 1⟩

/-- Puts aside the way that goes on with instruction `other`, and goes on with `pc`. -/
def fork (m : Machine) (pc other : Nat) : Step :=
  if stackLimit ≤ m.stack.size then .error .gaveUp
  else .ok { m with pc := pc, stack := m.stack.push ⟨other, m.place, m.slots, m.marks⟩ }

/-- Begins a round of a loop or leaves the loop; if a further round is not needed, the less
preferred of the two is put aside. -/
def enter (m : Machine) (needed greedy : Bool) (leave : Nat) : Step :=
  if needed then m.next
  else if greedy then m.fork (m.pc + 1) leave
  else m.fork leave (m.pc + 1)

/-- Whether the characters stand at a place of the text. -/
def standsAt (text : Array Char) : Nat → List Char → Bool
  | _, [] => true
  | i, c :: cs => text[i]? == some c && standsAt text (i + 1) cs

/-- The ways without those that were put aside since the one that goes on with `pc`, and without
that one. -/
def dropThrough (stack : Array Branch) (pc : Nat) : Nat → Array Branch
  | 0 => stack
  | n + 1 =>
    match stack.back? with
    | none => stack
    | some b => if b.pc = pc then stack.pop else dropThrough stack.pop pc n

/-- The result of a complete match. A mark for the start may stand behind the end; then the match is
empty. -/
def result (m : Machine) : Outcome :=
  let stop := (m.slot 1).getD m.place
  .found (min ((m.slot 0).getD stop) stop) stop

/-- One step of a search that began at place `origin`. -/
def step (p : Program) (text : Array Char) (origin : Nat) (m : Machine) : Step :=
  match p.code[m.pc]? with
  | none => .error .missing
  | some op =>
    match op with
    | .done => .error m.result
    | .any newline =>
      match text[m.place]? with
      | some c => if newline || c != '\n' then m.nextAt (m.place + 1) else m.fail
      | none => m.fail
    | .set s =>
      match text[m.place]? with
      | some c => if s.contains c then m.nextAt (m.place + 1) else m.fail
      | none => m.fail
    | .literal cs => if standsAt text m.place cs then m.nextAt (m.place + cs.length) else m.fail
    | .look l => if l.holds text m.place then m.next else m.fail
    | .split first second => m.fork first second
    | .jump target => m.jump target
    | .save i => (m.write i m.place).next
    | .reset i => (m.write i 0).next
    | .restore i => m.nextAt ((m.slot i).getD m.place)
    | .round min max greedy leave counter =>
      let count := (m.slot counter).getD 0
      if max == some count then m.jump leave
      else (m.write counter (count + 1)).enter (decide (count < min)) greedy leave
    | .roundOrStop min greedy leave counter began =>
      let count := (m.slot counter).getD 0
      if min < count && m.slot began == some m.place then m.fail
      else
        let m := m.write counter (count + 1)
        if count < min then m.next
        else (m.write began m.place).enter false greedy leave
    | .goBack n => if n ≤ m.place then m.nextAt (m.place - n) else m.fail
    | .failAround => { m with stack := dropThrough m.stack (m.pc + 1) m.stack.size }.fail
    | .backref group =>
      match m.slot (2 * group), m.slot (2 * group + 1) with
      | some lo, some hi =>
        let cs := (text.extract lo hi).toList
        if standsAt text m.place cs then m.nextAt (m.place + cs.length) else m.fail
      | _, _ => m.fail
    | .taken group => if (m.slot (2 * group)).isSome then m.next else m.fail
    | .beginAtomic => { m with marks := m.stack.size :: m.marks }.next
    | .endAtomic =>
      match m.marks with
      | [] => m.next
      | mark :: marks => { m with marks := marks, stack := m.stack.take mark }.next
    | .delegate a groups =>
      match a.matchAt text (groupSlots groups) m.place with
      | some found => (m.writeGroups found.slots groups).nextAt found.stop
      | none => m.fail
    | .resume => if m.place ≤ origin then m.next else m.fail

/-- Takes at most that many steps. -/
def run (p : Program) (text : Array Char) (origin : Nat) : Nat → Machine → Outcome
  | 0, _ => .gaveUp
  | steps + 1, m =>
    match step p text origin m with
    | .ok m => run p text origin steps m
    | .error o => o

end Machine

namespace Program

/-- More steps than a search takes before it has failed too often. -/
def stepLimit : Nat := 0x1000000000000000

/-- The first match that begins at place `i` or after it. -/
def search (p : Program) (text : Array Char) (i : Nat) : Outcome :=
  Machine.run p text i stepLimit ⟨0, i, Array.replicate p.slots none, [], #[], 0⟩

end Program

end TypeQuery.Pattern.Backtracking
