import TypeQuery.Pattern.Matcher

/-!
# TypeQuery.Proofs.Pattern.Literal

Patterns that stand for themselves.  A text without operators is a pattern in both
notations, and both read it letter by letter, as the one expression
`Regex.literal`:

```
pattern        a            b            c
literal   .seq [a]  (.seq  [b]          [c])
```

Its automata take one state for each byte of the text, so the only such patterns
that are refused are those that are too long.

* `parse?_of_plain`, `ofBacktracking?_of_plain` — both notations read the literal;
* `fits_literal_iff` — how long a literal may be;
* `build_of_plain` — the matcher of a text without operators.
-/

namespace TypeQuery.Pattern

/-- Whether `c` means something by itself outside of classes. -/
def isOperator (c : Char) : Bool :=
  "\\.+*?()|[]\x7b\x7d^$".toList.contains c

/-- A text without operators. -/
def Plain (cs : List Char) : Prop :=
  ∀ c ∈ cs, isOperator c = false

instance (cs : List Char) : Decidable (Plain cs) :=
  List.decidableBAll (isOperator · = false) cs

/-- The expression that matches one character. -/
def Regex.letter (c : Char) : Regex :=
  .set (.single c)

/-- The expression that matches a text, letter by letter. -/
def Regex.literal (cs : List Char) : Regex :=
  .seqs (cs.map letter)

theorem plain_cons {c : Char} {cs : List Char} :
    Plain (c :: cs) ↔ isOperator c = false ∧ Plain cs :=
  List.forall_mem_cons

/-- What a reader finds when it asks whether `c` is one of the operators. -/
theorem ne_of_isOperator_eq_false {c d : Char} (h : isOperator c = false)
    (hd : isOperator d = true) : c ≠ d := by
  rintro rfl
  rw [h] at hd
  contradiction

namespace Regex

@[simp] theorem literal_nil : literal [] = .empty := rfl

@[simp] theorem literal_singleton (c : Char) : literal [c] = letter c := rfl

@[simp] theorem literal_cons_cons (c d : Char) (cs : List Char) :
    literal (c :: d :: cs) = .seq (letter c) (literal (d :: cs)) := rfl

@[simp] theorem concat_letters (cs : List Char) : concat (cs.map letter) = literal cs := by
  have hitems : (cs.map letter).flatMap items = cs.map letter := by
    induction cs with
    | nil => rfl
    | cons c cs ih => simpa [letter, items] using ih
  rw [concat, hitems, literal]

end Regex

/-! ## the notation of regular expressions -/

namespace PatternReader

/-- The piece that one character is. -/
def Piece.letter (c : Char) : Piece :=
  .leaf (.letter c)

theorem sequence_letters (cs : List Char) :
    (Piece.sequence (cs.map Piece.letter)).regex = .literal cs ∧
      (Piece.sequence (cs.map Piece.letter)).depth ≤ 1 := by
  match cs with
  | [] => exact ⟨rfl, Nat.zero_le 1⟩
  | [c] => exact ⟨rfl, Nat.zero_le 1⟩
  | c :: d :: cs =>
    have hdepth : ∀ (ps : List Char) (n : Nat),
        (ps.map Piece.letter).foldl (fun d p => max d p.depth) n = n := by
      intro ps
      induction ps with
      | nil => simp
      | cons p ps ih => simp [Piece.letter, Piece.leaf, ih]
    constructor
    · have hregex : ((c :: d :: cs).map Piece.letter).map (·.regex) = (c :: d :: cs).map .letter := by
        simp [Piece.letter, Piece.leaf]
      simpa [Piece.sequence] using (congrArg Regex.concat hregex).trans (Regex.concat_letters _)
    · simp [Piece.sequence, Piece.maxDepth, hdepth, Piece.letter, Piece.leaf]

/-- A character without a meaning of its own. -/
theorem primitive_plain {c : Char} (cs : List Char) {s : PatternState} (hc : isOperator c = false)
    (hi : s.flags.ignoreCase = false) :
    primitive.run { s with rest := c :: cs } = some (Piece.letter c, { s with rest := cs }) := by
  have hne : ∀ d, isOperator d = true → c ≠ d := fun d => ne_of_isOperator_eq_false hc
  simp [primitive, here, peek, advance, CharSet.ofChar, hi, hne '.' rfl, hne '^' rfl, hne '$' rfl,
    hne '\\' rfl, Piece.letter, Regex.letter]

/-- One round over a text without operators. -/
theorem branches_plain_cons (inner : PatternReader Piece) (fuel : Nat) (finished done : List Piece)
    {c : Char} (cs : List Char) {s : PatternState} (hc : isOperator c = false)
    (hi : s.flags.ignoreCase = false) (hx : s.flags.extended = false) :
    (branches inner (fuel + 1) finished done).run { s with rest := c :: cs } =
      (branches inner fuel finished (Piece.letter c :: done)).run { s with rest := cs } := by
  have hne : ∀ d, isOperator d = true → c ≠ d := fun d => ne_of_isOperator_eq_false hc
  simp [branches, skipIgnored, peek, hx, hne ')' rfl, hne '|' rfl, hne '[' rfl, hne '?' rfl,
    hne '*' rfl, hne '+' rfl, hne '{' rfl, hne '(' rfl, primitive_plain cs hc hi]

/-- A text without operators is one branch, a piece for each character. -/
theorem branches_plain (inner : PatternReader Piece) (done : List Piece) {cs : List Char}
    {s : PatternState} (hcs : Plain cs) (hi : s.flags.ignoreCase = false)
    (hx : s.flags.extended = false) {fuel : Nat} (hfuel : cs.length < fuel) :
    (branches inner fuel [] done).run { s with rest := cs } =
      some (Piece.sequence (done.reverse ++ cs.map Piece.letter), { s with rest := [] }) := by
  induction cs generalizing done fuel with
  | nil =>
      obtain ⟨fuel, rfl⟩ := Nat.exists_eq_add_of_lt hfuel
      simp [branches, skipIgnored, peek, hx, Piece.alternatives]
  | cons c cs ih =>
      obtain ⟨hc, hcs⟩ := plain_cons.mp hcs
      cases fuel with
      | zero => contradiction
      | succ fuel =>
          rw [branches_plain_cons inner fuel [] done cs hc hi hx,
            ih _ hcs (Nat.lt_of_succ_lt_succ hfuel)]
          simp

end PatternReader

/-- **Regular expressions read a text without operators letter by letter**, unless it is too
long. -/
theorem Regex.parse?_of_plain {flags : Flags} {cs : List Char} (hcs : Plain cs)
    (hi : flags.ignoreCase = false) (hx : flags.extended = false) :
    Regex.parse? flags cs = if (literal cs).fits then some (literal cs) else none := by
  have hread := PatternReader.branches_plain (PatternReader.groupBody cs.length) []
    (s := { rest := cs, flags := flags }) hcs hi hx (Nat.lt_succ_self _)
  obtain ⟨hregex, hdepth⟩ := PatternReader.sequence_letters cs
  have hlimit : (PatternReader.Piece.sequence (cs.map PatternReader.Piece.letter)).depth ≤ depthLimit :=
    Nat.le_trans hdepth (by decide)
  simp [parse?, PatternReader.groupBody, hread, hregex, hlimit]

/-! ## the notation that backtracks -/

namespace Backtracking

/-- The expression of one character that stands for itself. -/
def letter (c : Char) : Expr :=
  .char c false

/-- Nothing in a text without operators is left out. -/
theorem skipIgnored_plain {cs : List Char} {s : State} (hcs : Plain cs)
    (hx : s.flags.extended = false) :
    skipIgnored.run { s with rest := cs } = some ((), { s with rest := cs }) := by
  have hkeep : ∀ n, dropIgnored? false (n + 1) cs = some cs := by
    intro n
    cases cs with
    | nil => rfl
    | cons c cs =>
        have hc := ne_of_isOperator_eq_false (plain_cons.mp hcs).1 (d := '(') rfl
        simp [dropIgnored?, hc]
  simp [skipIgnored, hx, hkeep]

/-- A text without operators does not begin with a mark of a repetition. -/
theorem repetition?_plain {cs : List Char} {s : State} (hcs : Plain cs) :
    repetition?.run { s with rest := cs } = some (none, { s with rest := cs }) := by
  cases cs with
  | nil => simp [repetition?, peek]
  | cons c cs =>
      have hne : ∀ d, isOperator d = true → c ≠ d := fun d =>
        ne_of_isOperator_eq_false (plain_cons.mp hcs).1
      simp [repetition?, peek, hne '?' rfl, hne '*' rfl, hne '+' rfl, hne '{' rfl]

theorem atom_plain_cons (groups : Reader Expr) {c : Char} {cs : List Char} {s : State}
    (hcs : Plain (c :: cs)) (hi : s.flags.ignoreCase = false) (hx : s.flags.extended = false) :
    (atom groups).run { s with rest := c :: cs } = some (letter c, { s with rest := cs }) := by
  have hne : ∀ d, isOperator d = true → c ≠ d := fun d =>
    ne_of_isOperator_eq_false (plain_cons.mp hcs).1
  simp [atom, skipIgnored_plain hcs hx, peek, drop, hi, hne '(' rfl, hne '[' rfl, hne '+' rfl,
    hne '*' rfl, hne '?' rfl, hne '|' rfl, hne ')' rfl, hne '\\' rfl, hne '.' rfl, hne '^' rfl,
    hne '$' rfl, letter]

/-- A single character, which no mark of a repetition follows. -/
theorem piece_plain_cons (groups : Reader Expr) {c : Char} {cs : List Char} {s : State}
    (hcs : Plain (c :: cs)) (hi : s.flags.ignoreCase = false) (hx : s.flags.extended = false) :
    (piece groups).run { s with rest := c :: cs } = some (letter c, { s with rest := cs }) := by
  have hrest := (plain_cons.mp hcs).2
  simp [piece, atom_plain_cons groups hcs hi hx, skipIgnored_plain hrest hx,
    repetition?_plain hrest]

/-- A text without operators is one branch, a piece for each character. -/
theorem branch_plain (groups : Reader Expr) (read : List Expr) {cs : List Char} {s : State}
    (hcs : Plain cs) (hi : s.flags.ignoreCase = false) (hx : s.flags.extended = false) {fuel : Nat}
    (hfuel : cs.length < fuel) :
    (branch groups fuel read).run { s with rest := cs } =
      some (sequence (read.reverse ++ cs.map letter), { s with rest := [] }) := by
  induction cs generalizing read fuel with
  | nil =>
      obtain ⟨fuel, rfl⟩ := Nat.exists_eq_add_of_lt hfuel
      simp [branch]
  | cons c cs ih =>
      have hrest := (plain_cons.mp hcs).2
      cases fuel with
      | zero => contradiction
      | succ fuel =>
          have hpiece := piece_plain_cons groups hcs hi hx
          simp [branch, hpiece, letter, Expr.isEmpty, ih _ hrest (Nat.lt_of_succ_lt_succ hfuel)]

theorem branches_run_plain (groups : Reader Expr) {cs : List Char} {s : State} (hcs : Plain cs)
    (hi : s.flags.ignoreCase = false) (hx : s.flags.extended = false)
    (hnumbered : s.numbered = false) :
    (branches groups).run { s with rest := cs } =
      some (sequence (cs.map letter), { s with rest := [] }) := by
  have hread := branch_plain groups [] hcs hi hx (Nat.lt_add_one cs.length)
  have hend : skipIgnored.run { s with rest := [] } = some ((), { s with rest := [] }) :=
    skipIgnored_plain (by simp [Plain]) hx
  have hone : ¬(s.numbered = true ∧ ¬s.names = []) := by simp [hnumbered]
  simp only [branches, moreBranches, accept]
  simp [hread, hend, if_neg hone]

theorem parse?_of_plain {cs : List Char} (hcs : Plain cs) :
    parse? cs = some ⟨sequence (cs.map letter), 0⟩ := by
  have hread := branches_run_plain (group (groupBody 62))
    (s := { rest := cs, groupBound := Text.byteLength cs / 2 }) hcs rfl rfl rfl
  rw [parse?, nestingLimit, groupBody, hread]
  rfl

/-! ## the expression of letters -/

theorem isHard_letters (cs : List Char) : (sequence (cs.map letter)).isHard = false := by
  have hany : ∀ cs : List Char, Expr.anyHard (cs.map letter) = false := by
    intro cs
    induction cs with
    | nil => rfl
    | cons c cs ih => simpa [letter, Expr.anyHard, Expr.isHard] using ih
  match cs with
  | [] => rfl
  | [c] => rfl
  | c :: d :: cs => exact hany (c :: d :: cs)

theorem toRegex?_letters (cs : List Char) :
    (sequence (cs.map letter)).toRegex? = some (.literal cs) := by
  have hall : ∀ cs : List Char, Expr.toRegexes? (cs.map letter) = some (cs.map Regex.letter) := by
    intro cs
    induction cs with
    | nil => rfl
    | cons c cs ih => simp [letter, Expr.toRegexes?, Expr.toRegex?, CharSet.ofChar, ih, Regex.letter]
  match cs with
  | [] => rfl
  | [c] => rfl
  | c :: d :: cs =>
    have hseq : sequence ((c :: d :: cs).map letter) = .seq ((c :: d :: cs).map letter) := rfl
    rw [hseq, Expr.toRegex?, hall, Option.bind_eq_bind, Option.bind_some, Regex.concat_letters]
    rfl

theorem depth_letters_le (cs : List Char) : (sequence (cs.map letter)).depth 0 ≤ 1 := by
  have hdepth : ∀ cs : List Char, Expr.depthOf 2 (cs.map letter) = 0 := by
    intro cs
    induction cs with
    | nil => rfl
    | cons c cs ih => simp [letter, Expr.depthOf, Expr.depth, ih]
  match cs with
  | [] => decide
  | [c] => exact Nat.zero_le 1
  | c :: d :: cs =>
    have hseq : sequence ((c :: d :: cs).map letter) = .seq ((c :: d :: cs).map letter) := rfl
    rw [hseq, Expr.depth, hdepth]
    decide

end Backtracking

/-- **The notation that backtracks reads a text without operators as the same expression**, with
the same limit. -/
theorem Matcher.ofBacktracking?_of_plain {cs : List Char} (hcs : Plain cs) :
    ofBacktracking? cs =
      if (Regex.literal cs).fits then some (.automaton (.ofRegex (.literal cs))) else none := by
  have hlimit : (Backtracking.sequence (cs.map Backtracking.letter)).depth 0 ≤ Regex.depthLimit :=
    Nat.le_trans (Backtracking.depth_letters_le cs) (by decide)
  have hwhole : (Backtracking.sequence (cs.map Backtracking.letter)).wholeRegex? =
      if (Regex.literal cs).fits then some (.literal cs) else none := by
    simp [Backtracking.Expr.wholeRegex?, Backtracking.toRegex?_letters, Backtracking.Expr.limited,
      hlimit]
  rw [ofBacktracking?, Backtracking.parse?_of_plain hcs, Option.bind_eq_bind, Option.bind_some]
  dsimp only
  rw [Backtracking.isHard_letters, hwhole]
  by_cases hfits : (Regex.literal cs).fits <;> simp [hfits]

/-! ## size -/

namespace Footprint

/-- The step counts that many states, and that many bytes of lists, or fails where this is too
much. -/
def Counts (m : Meter Unit) (states lists : Nat) : Prop :=
  ∀ f : Footprint, f.bytes ≤ limit → m.run f =
    if f.bytes + 32 * states + lists ≤ limit then
      some ((), ⟨f.states + states, f.lists + lists⟩)
    else none

namespace Counts

variable {m n : Meter Unit} {s t k l : Nat}

theorem pure : Counts (Pure.pure ()) 0 0 := by
  intro f hf
  simp [hf]

theorem bind (hm : Counts m s k) (hn : Counts n t l) :
    Counts (m >>= fun _ => n) (s + t) (k + l) := by
  intro f hf
  have hbytes : Footprint.bytes ⟨f.states + s, f.lists + k⟩ = f.bytes + 32 * s + k := by
    simp only [bytes]
    omega
  rw [StateT.run_bind, hm f hf]
  by_cases hk : f.bytes + 32 * s + k ≤ limit
  · rw [if_pos hk, Option.bind_eq_bind, Option.bind_some, hn _ (hbytes ▸ hk), hbytes]
    have hsum : f.bytes + 32 * s + k + 32 * t + l = f.bytes + 32 * (s + t) + (k + l) := by omega
    rw [hsum, Nat.add_assoc f.states, Nat.add_assoc f.lists]
  · have hsum : ¬f.bytes + 32 * (s + t) + (k + l) ≤ limit := by omega
    rw [if_neg hk, if_neg hsum]
    rfl

theorem state (list : Nat) : Counts (do let _ ← Footprint.state list) 1 list := by
  intro f hf
  have hbytes : Footprint.bytes ⟨f.states + 1, f.lists + list⟩ = f.bytes + 32 * 1 + list := by
    simp only [bytes]
    omega
  simp only [StateT.run, Bind.bind, StateT.bind, Footprint.state, hbytes]
  split <;> rfl

theorem plain : Counts Footprint.plain 1 0 := state 0

theorem times_plain (n : Nat) : Counts (times Footprint.plain n) n 0 := by
  induction n with
  | zero => exact pure
  | succ n ih =>
      have hround := plain.bind ih
      rw [Nat.add_comm] at hround
      exact hround

/-- Whether all of it fits. -/
theorem isSome_iff (hm : Counts m s k) : (m.run {}).isSome = true ↔ 32 * s + k ≤ limit := by
  rw [hm {} (by decide)]
  by_cases h : 32 * s + k ≤ limit <;> simp [bytes, h]

end Counts

/-- A character is counted by its bytes. -/
theorem length_charBytes (c : Char) : (charBytes c).length = c.utf8Size := by
  have hdigits : ∀ k lead n, ∃ rs, ByteRange.digits lead k n n = [rs] ∧ rs.length = k + 1 := by
    intro k
    induction k with
    | zero => intro lead n; exact ⟨_, rfl, rfl⟩
    | succ k ih =>
        intro lead n
        obtain ⟨rs, hrs, hlength⟩ := ih 0x80 (n % 64 ^ (k + 1))
        have hfirst : ByteRange.digits lead (k + 1) n n =
            ByteRange.before (lead + n / 64 ^ (k + 1))
              (ByteRange.digits 0x80 k (n % 64 ^ (k + 1)) (n % 64 ^ (k + 1))) := if_pos rfl
        rw [hfirst, hrs]
        exact ⟨_, rfl, by simp [hlength]⟩
  have hin : ∀ lo hi lead k n, ((ByteRange.sequencesIn n n lo hi lead k).flatten.map (·.first)).length =
      if lo ≤ n ∧ n ≤ hi then k + 1 else 0 := by
    intro lo hi lead k n
    rw [ByteRange.sequencesIn]
    by_cases h : lo ≤ n ∧ n ≤ hi
    · obtain ⟨rs, hrs, hlength⟩ := hdigits k lead n
      have hbounds : max n lo = n ∧ min n hi = n := by omega
      rw [hbounds.1, hbounds.2, if_pos (Nat.le_refl n), if_pos h, hrs]
      simp [hlength]
    · have h' : ¬max n lo ≤ min n hi := by omega
      simp [h, h']
  have hvalid : c.toNat < 0xD800 ∨ 0xDFFF < c.toNat ∧ c.toNat < 0x110000 := c.valid
  have hsize : c.utf8Size = if c.toNat ≤ 0x7F then 1 else if c.toNat ≤ 0x7FF then 2 else
      if c.toNat ≤ 0xFFFF then 3 else 4 := rfl
  rw [charBytes, ByteRange.sequences, hsize]
  simp only [List.flatten_append, List.map_append, List.length_append, hin]
  grind

/-- A literal takes a state for each byte; the empty one takes a state, too. -/
theorem counts_measure_literal (backward : Bool) (cs : List Char) :
    Counts (measure backward .first (.literal cs)) (max 1 (Text.byteLength cs)) 0 := by
  have hletter : ∀ c, Counts (measure backward .first (.letter c)) c.utf8Size 0 := fun c => by
    have hsingle : (CharSet.single c).single? = some c := by
      simp [CharSet.single, CharSet.range, CharSet.single?]
    have hmeasure : measure backward .first (.letter c) =
        (do times plain c.utf8Size; Pure.pure ()) := by
      rw [Regex.letter, measure, hsingle, ← length_charBytes]
      rfl
    rw [hmeasure]
    exact (Counts.times_plain _).bind .pure
  match cs with
  | [] => exact Counts.plain.bind .pure
  | [c] =>
    have hpos := c.utf8Size_pos
    have hmax : max 1 (Text.byteLength [c]) = c.utf8Size := by simp; omega
    rw [hmax]
    exact hletter c
  | c :: d :: cs =>
    have hpos := c.utf8Size_pos
    have hpos' := d.utf8Size_pos
    have ih := counts_measure_literal backward (d :: cs)
    have hmax : max 1 (Text.byteLength (c :: d :: cs)) =
        c.utf8Size + max 1 (Text.byteLength (d :: cs)) := by
      simp only [Text.byteLength_cons]
      omega
    rw [hmax, Regex.literal_cons_cons, measure]
    cases backward with
    | true =>
        rw [Nat.add_comm]
        exact ih.bind ((hletter c).bind .pure)
    | false => exact (hletter c).bind (ih.bind .pure)

theorem beginsAt_literal (l : Look) (cs : List Char) : beginsAt l (.literal cs) = false := by
  match cs with
  | [] => rfl
  | [c] => rfl
  | c :: d :: cs => rfl

theorem endsAt_literal (l : Look) (cs : List Char) : endsAt l (.literal cs) = false := by
  match cs with
  | [] => rfl
  | [c] => rfl
  | c :: d :: cs =>
    have hreads : (Regex.literal (d :: cs)).neverReads = false := by cases cs <;> rfl
    simp [endsAt, endsAt_literal l (d :: cs), hreads]

/-- Any text may stand before a match. -/
theorem counts_approach : Counts (approach false) 3 16 :=
  (Counts.state 8).bind (Counts.plain.bind (Counts.state 8))

theorem counts_forward_literal (cs : List Char) :
    Counts (forward (.literal cs)) (max 1 (Text.byteLength cs) + 6) 16 := by
  have hcounts := counts_approach.bind
    (Counts.plain.bind ((counts_measure_literal false cs).bind (Counts.plain.bind .plain)))
  rw [forward, beginsAt_literal]
  have hstates : max 1 (Text.byteLength cs) + 6 =
      3 + (1 + (max 1 (Text.byteLength cs) + (1 + 1))) := by omega
  rw [hstates]
  exact hcounts

theorem counts_backward_literal (cs : List Char) :
    Counts (backward (.literal cs)) (max 1 (Text.byteLength cs) + 4) 16 := by
  have hcounts := counts_approach.bind ((counts_measure_literal true cs).bind .plain)
  rw [backward, endsAt_literal]
  have hstates : max 1 (Text.byteLength cs) + 4 = 3 + (max 1 (Text.byteLength cs) + 1) := by omega
  rw [hstates]
  exact hcounts

end Footprint

/-- The length of the longest literal, in bytes. -/
def literalLimit : Nat := 327673

/-- **Size**: automata of a literal keep to the limit if it is not too long. -/
theorem Regex.fits_literal_iff (cs : List Char) :
    (literal cs).fits = true ↔ Text.byteLength cs ≤ literalLimit := by
  rw [fits, Bool.and_eq_true, (Footprint.counts_forward_literal cs).isSome_iff,
    (Footprint.counts_backward_literal cs).isSome_iff, Footprint.limit, literalLimit]
  omega

/-! ## matchers -/

/-- **A text without operators is a pattern that stands for itself**, unless it is too long. -/
theorem Matcher.build_of_plain {needle : String} (hplain : Plain needle.toList) :
    build needle "g" =
      if Text.byteLength needle.toList ≤ literalLimit then
        .ok (.automaton (.ofRegex (.literal needle.toList)))
      else .error (.invalidPattern needle) := by
  have hletters : modeLetters "g" "g".toList = .ok [] := rfl
  have hregex : Regex.parse? (modes []) needle.toList = if (Regex.literal needle.toList).fits then
      some (.literal needle.toList) else none := Regex.parse?_of_plain hplain rfl rfl
  have hback := ofBacktracking?_of_plain hplain
  rw [build, hletters]
  simp only [bind, Except.bind, hregex, withLetters, List.isEmpty_nil, if_true, hback,
    Regex.fits_literal_iff]
  by_cases hfits : Text.byteLength needle.toList ≤ literalLimit
  · simp only [if_pos hfits]
    rfl
  · simp only [if_neg hfits]
    rfl

end TypeQuery.Pattern
