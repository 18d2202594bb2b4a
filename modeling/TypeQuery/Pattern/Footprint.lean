import TypeQuery.Pattern.Regex
import Std.Data.HashMap

/-!
# TypeQuery.Pattern.Footprint

How much memory a regular expression takes when it is run on the bytes of a text. Automata over bytes
are built for both directions, one that reads the text forwards and one that reads it backwards, and a
pattern is refused when one of them needs more than `Footprint.limit` bytes. This module counts what
they need; it does not build them.

A state takes 32 bytes, and besides that each way out of a choice takes four bytes and each range of
a state with several ranges takes eight. A character outside of ASCII is read as several bytes, so
the states of a set are those of an automaton for the byte sequences of its characters. Forwards,
sequences share what they begin with and what they end with; backwards they share what they begin
with only. What can be shared is remembered in a table of limited size, in which a later entry takes
the place of an earlier one, so how much is shared depends on the numbers of the states.

* `ByteRange.sequences` — the characters of a range as sequences of ranges of bytes
* `Regex.fits` — whether both automata keep to the limit
-/

namespace TypeQuery.Pattern

/-! ## ranges of bytes -/

/-- Bytes from `first` to `last`. -/
structure ByteRange where
  first : Nat
  last : Nat
  deriving DecidableEq, Repr

namespace ByteRange

/-- All bytes that continue a character. -/
def rest : ByteRange :=
  ⟨0x80, 0xBF⟩

/-- One byte before each of the sequences. -/
def before (b : Nat) (seqs : List (List ByteRange)) : List (List ByteRange) :=
  seqs.map (⟨b, b⟩ :: ·)

/-- The numbers from `s` to `e` with `k` digits of six bits behind a first one, each digit in a byte
of its own; `lead` is added to the first digit. The sequences are in ascending order. -/
def digits (lead : Nat) : Nat → Nat → Nat → List (List ByteRange)
  | 0, s, e => [[⟨lead + s, lead + e⟩]]
  | k + 1, s, e =>
    let unit := 64 ^ (k + 1)
    let hs := s / unit
    let he := e / unit
    if hs = he then before (lead + hs) (digits 0x80 k (s % unit) (e % unit))
    else
      let startsFull := s % unit == 0
      let endsFull := e % unit == unit - 1
      let head :=
        if startsFull then [] else before (lead + hs) (digits 0x80 k (s % unit) (unit - 1))
      let tail := if endsFull then [] else before (lead + he) (digits 0x80 k 0 (e % unit))
      let lo := if startsFull then hs else hs + 1
      let hi := if endsFull then he else he - 1
      let middle := if lo ≤ hi then [⟨lead + lo, lead + hi⟩ :: List.replicate (k + 1) rest] else []
      head ++ middle ++ tail

/-- The part of the code points from `s` to `e` that lies between `lo` and `hi`, which have `k` bytes
behind the first one. -/
def sequencesIn (s e lo hi lead k : Nat) : List (List ByteRange) :=
  if max s lo ≤ min e hi then digits lead k (max s lo) (min e hi) else []

/-- The characters with code points from `s` to `e` as sequences of ranges of bytes, in ascending
order. -/
def sequences (s e : Nat) : List (List ByteRange) :=
  sequencesIn s e 0 0x7F 0 0 ++ sequencesIn s e 0x80 0x7FF 0xC0 1 ++
    sequencesIn s e 0x800 0xD7FF 0xE0 2 ++ sequencesIn s e 0xE000 0xFFFF 0xE0 2 ++
    sequencesIn s e 0x10000 0x10FFFF 0xF0 3

end ByteRange

/-! ## counting -/

/-- What was counted so far. -/
structure Footprint where
  /-- The number of states; the next state has this number. -/
  states : Nat := 0
  /-- The bytes of all lists that states have. -/
  lists : Nat := 0
  deriving Repr

namespace Footprint

/-- The bytes of everything that was counted. -/
def bytes (f : Footprint) : Nat :=
  32 * f.states + f.lists

/-- The largest number of bytes. -/
def limit : Nat := 10 * 1024 * 1024

/-- A step of counting, which fails when there are too many bytes. -/
abbrev Meter (α : Type) := StateT Footprint Option α

/-- Counts a state with a list of that many bytes, and answers its number. -/
def state (list : Nat) : Meter Nat := fun f =>
  let g : Footprint := ⟨f.states + 1, f.lists + list⟩
  if g.bytes ≤ limit then some (f.states, g) else none

/-- Counts a state that has no list. -/
def plain : Meter Unit := do
  let _ ← state 0

/-- Counts a choice between that many ways. -/
def choice (ways : Nat) : Meter Unit := do
  let _ ← state (4 * ways)

/-- Counts a state with that many ranges. -/
def sparse (ranges : Nat) : Meter Nat :=
  state (8 * ranges)

/-! ## sets -/

/-- A number made from numbers, well scattered. -/
def scatter (ns : List Nat) : UInt64 :=
  ns.foldl (fun h n => (h ^^^ n.toUInt64) * 1099511628211) 14695981039346656037

/-- A table of states by what they do, with a limited number of places; what belongs to a place
where something else stands takes its place. -/
abbrev Memo := Std.HashMap UInt64 (List Nat × Nat)

/-- The state that does what `key` says: one from the table, or a new one. -/
def shared (places : UInt64) (list : Nat) (key : List Nat) : StateT Memo Meter Nat := do
  let place := scatter key % places
  let memo ← get
  match memo[place]? with
  | some (known, id) =>
    if known == key then return id
    else
      let id ← state list
      set (memo.insert place (key, id))
      return id
  | none =>
    let id ← state list
    set (memo.insert place (key, id))
    return id

/-- The states of a sequence that is read backwards, where `next` is the state behind it. The first
byte is the last one to be read. -/
def backwardSequence (next : Nat) : List ByteRange → StateT Memo Meter Nat
  | [] => return next
  | r :: rs => do
    let id ← shared 1000 0 [next, r.first, r.last]
    backwardSequence id rs

/-- The states of sequences that are read backwards. -/
def backwardSequences (next : Nat) : List (List ByteRange) → StateT Memo Meter Unit
  | [] => return
  | rs :: rss => do
    let _ ← backwardSequence next rs
    backwardSequences next rss

/-- The states of a set that is read backwards: a choice between its sequences. -/
def backwardSet (seqs : List (List ByteRange)) : Meter Unit := do
  choice seqs.length
  let last ← state 0
  let _ ← (backwardSequences last seqs).run {}

/-- A state that is not complete: its ranges with the states behind them, the last one first, and a
range that is still open. -/
structure OpenState where
  done : List (List Nat) := []
  open? : Option ByteRange := none

namespace OpenState

/-- Closes the open range. -/
def close (n : OpenState) (next : Nat) : OpenState :=
  match n.open? with
  | some r => ⟨[r.first, r.last, next] :: n.done, none⟩
  | none => n

/-- The state, complete. -/
def complete (n : OpenState) : StateT Memo Meter Nat :=
  shared 10000 (8 * n.done.length) n.done.reverse.flatten

end OpenState

/-- Completes the states of a path, the deepest one first, down to the given number of them; `next` is
the state behind the path. -/
def completeTo (depth : Nat) (next : Nat) : List OpenState → StateT Memo Meter (List OpenState)
  | [] => return []
  | n :: ns =>
    if depth ≤ ns.length then do
      let id ← (n.close next).complete
      completeTo depth id ns
    else return n.close next :: ns

/-- How many ranges of a sequence are the open ones of a path, from the start on. -/
def sharedLength : List ByteRange → List OpenState → Nat
  | r :: rs, n :: ns => if n.open? == some r then sharedLength rs ns + 1 else 0
  | _, _ => 0

/-- Adds a sequence to a path of open states, the deepest one first: states that it does not share
are completed, and new ones are opened for the rest of it. -/
def forwardSequence (last : Nat) (rs : List ByteRange) (path : List OpenState) :
    StateT Memo Meter (List OpenState) := do
  let same := sharedLength rs path.reverse
  let path ← completeTo (same + 1) last path
  match path, rs.drop same with
  | n :: ns, r :: rest =>
    return (rest.map fun r => { open? := some r }).reverse ++ { n with open? := some r } :: ns
  | path, _ => return path

/-- Adds sequences to a path of open states and completes all of them. -/
def forwardSequences (last : Nat) :
    List (List ByteRange) → List OpenState → StateT Memo Meter Unit
  | [], path => do
    let path ← completeTo 1 last path
    match path with
    | n :: _ =>
      let _ ← n.complete
    | [] => return
  | rs :: rss, path => do forwardSequences last rss (← forwardSequence last rs path)

/-- The states of a set that is read forwards. -/
def forwardSet (seqs : List (List ByteRange)) : Meter Unit := do
  let last ← state 0
  let _ ← (forwardSequences last seqs [{}]).run {}

/-- The states of a character of a set. Sets of ASCII characters are a single state, and one more to
come together in. -/
def set (backward : Bool) (s : CharSet) : Meter Unit := do
  if s.ranges.all (·.2 ≤ 0x7F) then
    plain
    let _ ← sparse s.ranges.length
  else
    let seqs := s.ranges.flatMap fun (first, last) => ByteRange.sequences first last
    if backward then backwardSet seqs else forwardSet seqs

/-! ## alternatives of texts -/

/-- The bytes of a character. -/
def charBytes (c : Char) : List Nat :=
  ((ByteRange.sequences c.toNat c.toNat).flatten).map (·.first)

/-- The bytes of an expression that matches one text only. -/
def text? (r : Regex) : Option (List Nat) := do
  let cs ← r.items.mapM Regex.char?
  if cs.isEmpty then none else some (cs.flatMap charBytes)

/-- Texts by their first bytes, with what is left of them, the latest first. -/
abbrev ByFirst := List (Nat × List (List Nat))

/-- Adds a text to those with the same first byte. -/
def addText (b : Nat) (bs : List Nat) : ByFirst → ByFirst
  | [] => [(b, [bs])]
  | (c, bss) :: rs => if b = c then (c, bs :: bss) :: rs else (c, bss) :: addText b bs rs

/-- Texts by their first bytes, in chunks: a chunk ends where one of the texts is empty, since the
texts after it are less preferred. `done` holds the finished chunks, and `chunk` is the current
one. Empty texts before all others count once. -/
def chunks (done : List ByFirst) (chunk : ByFirst) : List (List Nat) → List ByFirst
  | [] => done ++ [chunk]
  | [] :: rest =>
    if !done.isEmpty && (done ++ [chunk]).all (·.isEmpty) then chunks done chunk rest
    else chunks (done ++ [chunk]) [] rest
  | (b :: bs) :: rest => chunks done (addText b bs chunk) rest

/-- The states of a tree of texts, where the fuel is the length of the longest one: for each chunk a
state with the ranges that begin it, and a choice between the chunks and the end behind each. -/
def textTree : Nat → List (List Nat) → Meter Unit
  | 0, _ => return
  | fuel + 1, texts => do
    let cs := chunks [] [] texts
    cs.forM fun chunk => do
      chunk.forM fun (_, rests) => do
        if rests.all (·.isEmpty) then return
        else textTree fuel rests.reverse
      if chunk.length = 1 then plain
      else if 1 < chunk.length then
        let _ ← sparse chunk.length
    choice ((cs.filter (!·.isEmpty)).length + cs.length - 1)

/-- The states of an alternative of texts. -/
def texts (backward : Bool) (ts : List (List Nat)) : Meter Unit := do
  plain
  let ts := if backward then ts.map List.reverse else ts
  textTree ((ts.map List.length).foldl max 0 + 1) ts

/-! ## expressions -/

/-- Counts the same `n` times over. -/
def times (one : Meter Unit) : Nat → Meter Unit
  | 0 => return
  | n + 1 => do
    one
    times one n

/-- Counts what stands `n` times in a row; nothing in a row is a state, too. -/
def exactly (one : Meter Unit) (n : Nat) : Meter Unit :=
  if n = 0 then plain else times one n

/-- Counts a repetition; `reads` says whether each round reads a character. -/
def loop (one : Meter Unit) (reads : Bool) : Nat → Option Nat → Meter Unit
  | 0, some 1 => do
    choice 2
    one
    plain
  | 0, none =>
    if reads then do
      choice 2
      one
    else do
      one
      choice 2
      choice 2
      plain
  | 1, none => do
    one
    choice 2
  | n, none => do
    exactly one (n - 1)
    one
    choice 2
  | n, some m => do
    exactly one n
    if n < m then
      plain
      times (do choice 2; one) (m - n)

/-- Where an expression stands among the branches of an alternative. -/
inductive BranchPlace where
  /-- It is no branch, or the first one. -/
  | first
  | second
  | later
  deriving DecidableEq, Repr

/-- Counts the choice between that many branches, which comes behind the second of them, and the
state in which they come together. -/
def fork (ways : Nat) : Meter Unit := do
  choice ways
  plain

/-- Counts what comes behind a branch that has no further one behind it. -/
def finish (place : BranchPlace) : Meter Unit :=
  if place = .second then fork 2 else return

/-- The states of an expression. Groups keep their places forwards only. -/
def measure (backward : Bool) : BranchPlace → Regex → Meter Unit
  | place, .empty => do
    plain
    finish place
  | place, .set s => do
    match s.single? with
    | some c => times plain (charBytes c).length
    | none => set backward s
    finish place
  | place, .look _ => do
    plain
    finish place
  | place, .seq r s => do
    if backward then
      measure backward .first s
      measure backward .first r
    else
      measure backward .first r
      measure backward .first s
    finish place
  | place, .alt r s => do
    match place with
    | .first =>
      match (Regex.alt r s).branches.mapM text? with
      | some ts => texts backward ts
      | none =>
        measure backward .first r
        measure backward .second s
    | .second =>
      measure backward .first r
      fork (2 + s.branches.length)
      measure backward .later s
    | .later =>
      measure backward .first r
      measure backward .later s
  | place, .loop r min max _ => do
    loop (measure backward .first r) r.alwaysReads min max
    finish place
  | place, .group _ r => do
    if backward then measure backward .first r
    else
      plain
      measure backward .first r
      plain
    finish place

/-! ## whole patterns -/

/-- Whether each match of the expression begins at the given kind of place. -/
def beginsAt (l : Look) : Regex → Bool
  | .look k => k == l
  | .seq r s => beginsAt l r || (r.neverReads && beginsAt l s)
  | .alt r s => beginsAt l r && beginsAt l s
  | .loop r min _ _ => 0 < min && beginsAt l r
  | .group _ r => beginsAt l r
  | _ => false

/-- Whether each match of the expression ends at the given kind of place. -/
def endsAt (l : Look) : Regex → Bool
  | .look k => k == l
  | .seq r s => endsAt l s || (s.neverReads && endsAt l r)
  | .alt r s => endsAt l r && endsAt l s
  | .loop r min _ _ => 0 < min && endsAt l r
  | .group _ r => endsAt l r
  | _ => false

/-- Counts what comes before a match, which is any text unless matches have one place to begin at. -/
def approach (anchored : Bool) : Meter Unit := do
  if anchored then plain
  else
    choice 2
    plain
    let _ ← sparse 1

/-- The automaton that reads forwards: around a match it notes where the match begins and ends. -/
def forward (r : Regex) : Meter Unit := do
  approach (beginsAt .textStart r)
  plain
  measure false .first r
  plain
  plain

/-- The automaton that reads backwards. -/
def backward (r : Regex) : Meter Unit := do
  approach (endsAt .textEnd r)
  measure true .first r
  plain

end Footprint

/-- Whether the automata of the expression keep to the limit. -/
def Regex.fits (r : Regex) : Bool :=
  ((Footprint.forward r).run {}).isSome && ((Footprint.backward r).run {}).isSome

end TypeQuery.Pattern
