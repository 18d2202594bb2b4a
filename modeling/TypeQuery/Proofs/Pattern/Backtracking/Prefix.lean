import TypeQuery.Pattern.Matcher
import TypeQuery.Proofs.Pattern.Backtracking.Bound

/-!
# TypeQuery.Proofs.Pattern.Backtracking.Prefix

Modes that are written in front of a pattern.  For the notation that backtracks
the letters of the modes become a group without anything in it:

```
( ? i m s )  pattern
```

The reader passes over it, and what is left for the pattern is the set of the
modes: neither the order of the letters nor how often they are written is seen
again.  Only the bound on group numbers still tells how long the prefix was, and
that makes no difference (`TypeQuery.Proofs.Pattern.Backtracking.Bound`).

* `flagLetters_run` — reading the letters;
* `branches_run_prefix` — what follows the prefix is read in these modes;
* `parse?_flagPrefix_congr` — two prefixes with the same letters.
-/

namespace TypeQuery.Pattern

/-- The letters that set modes. -/
def isModeLetter (c : Char) : Bool :=
  c == 'i' || c == 'm' || c == 's'

/-- The modes with some of them switched on. -/
def Flags.switchOn (f : Flags) (letters : List Char) : Flags :=
  { f with
    ignoreCase := f.ignoreCase || letters.contains 'i'
    multiLine := f.multiLine || letters.contains 'm'
    dotAll := f.dotAll || letters.contains 's' }

namespace Backtracking

theorem isModeLetter_cases {c : Char} (h : isModeLetter c = true) : c = 'i' ∨ c = 'm' ∨ c = 's' := by
  simpa [isModeLetter, or_assoc] using h

/-! ## reading the letters -/

/-- Outside of extended mode, what is left out begins with a parenthesis. -/
theorem skipIgnored_run_cons {s : State} {c : Char} {cs : List Char} (hc : c ≠ '(')
    (hx : s.flags.extended = false) :
    skipIgnored.run { s with rest := c :: cs } = some ((), { s with rest := c :: cs }) := by
  simp [skipIgnored, dropIgnored?, hx, hc]

theorem flagLetters_run_cons {start fuel : Nat} {s : State} {c : Char} {cs : List Char}
    (hc : isModeLetter c = true) (hx : s.flags.extended = false) :
    (flagLetters start (fuel + 1) false).run { s with rest := c :: cs } =
      (flagLetters start fuel false).run
        { s with rest := cs, flags := s.flags.switchOn [c] } := by
  obtain rfl | rfl | rfl := isModeLetter_cases hc <;>
    simp [flagLetters, skipIgnored_run_cons, hx, here, peek, drop, setFlag?, Flags.switchOn]

theorem switchOn_nil (f : Flags) : f.switchOn [] = f := by
  simp [Flags.switchOn]

theorem switchOn_cons (f : Flags) (c : Char) (letters : List Char) :
    (f.switchOn [c]).switchOn letters = f.switchOn (c :: letters) := by
  simp [Flags.switchOn, Bool.or_assoc]

/-- The letters switch on their modes, in any order and however often they are written. -/
theorem flagLetters_run {letters : List Char} (hletters : ∀ c ∈ letters, isModeLetter c = true)
    {start fuel : Nat} {s : State} {p : List Char} (hx : s.flags.extended = false)
    (hstart : p.length + 1 < start) (hfuel : letters.length < fuel) :
    (flagLetters start fuel false).run { s with rest := letters ++ ')' :: p } =
      some (false, { s with rest := p, flags := s.flags.switchOn letters }) := by
  induction letters generalizing fuel s with
  | nil =>
      obtain ⟨fuel, rfl⟩ := Nat.exists_eq_add_of_lt hfuel
      have hread : start - (p.length + 1) ≠ 0 := by omega
      simp [flagLetters, skipIgnored_run_cons, hx, here, peek, drop, hread, switchOn_nil]
  | cons c letters ih =>
      cases fuel with
      | zero => contradiction
      | succ fuel =>
          obtain ⟨hc, hletters⟩ := List.forall_mem_cons.mp hletters
          have hrest := ih hletters (s := { s with flags := s.flags.switchOn [c] }) hx
            (Nat.lt_of_succ_lt_succ hfuel)
          dsimp only at hrest
          rw [List.cons_append, flagLetters_run_cons hc hx, hrest, switchOn_cons]

/-! ## the group of the letters -/

/-- A pattern with letters in front of it. -/
def flagPrefix (letters p : List Char) : List Char :=
  '(' :: '?' :: letters ++ ')' :: p

/-- Flags without a colon are a group that matches nothing. -/
theorem flagGroup_run (body : Reader Expr) {letters : List Char} (hne : letters ≠ [])
    (hletters : ∀ c ∈ letters, isModeLetter c = true) {s : State} {p : List Char}
    (hx : s.flags.extended = false) :
    (flagGroup body).run { s with rest := letters ++ ')' :: p } =
      some (.empty, { s with rest := p, flags := s.flags.switchOn letters }) := by
  have hpos := List.length_pos_iff.mpr hne
  have hstart : p.length + 1 < letters.length + (p.length + 1) := by omega
  have hfuel : letters.length < letters.length + (p.length + 1) + 1 := by omega
  have hflags := flagLetters_run hletters hx hstart hfuel
  rw [flagGroup, StateT.run_bind, StateT.run_get]
  simp [hflags]

/-- Where a mark is there, it is passed over. -/
theorem marked_run {α : Type} {text : String} {yes no : Reader α} {s : State}
    (h : text.toList.isPrefixOf s.rest = true) :
    (do if ← accept text then yes else no : Reader α).run s =
      yes.run { s with rest := s.rest.drop text.length } := by
  simp [accept, List.isPrefixOf_iff_prefix.mp h]

/-- Where a mark is not there, the other step is taken from the same state. -/
theorem unmarked_run {α : Type} {text : String} {yes no : Reader α} {s : State}
    (h : text.toList.isPrefixOf s.rest = false) :
    (do if ← accept text then yes else no : Reader α).run s = no.run s := by
  have hnot : ¬text.toList <+: s.rest := by
    simp [← List.isPrefixOf_iff_prefix, h]
  simp [accept, hnot]

/-- The prefix is a group that matches nothing and changes the modes of what follows it. -/
theorem group_run_prefix (body : Reader Expr) {letters : List Char} (hne : letters ≠ [])
    (hletters : ∀ c ∈ letters, isModeLetter c = true) {s : State} {p : List Char}
    (hx : s.flags.extended = false) :
    (group body).run { s with rest := flagPrefix letters p } =
      some (.empty, { s with rest := p, flags := s.flags.switchOn letters }) := by
  rw [← flagGroup_run body hne hletters (s := s) (p := p) hx]
  obtain ⟨c, cs, rfl⟩ := List.exists_cons_of_ne_nil hne
  have hstart : ∀ r : Reader Expr, (do drop 1; skipIgnored; r).run
      { s with rest := flagPrefix (c :: cs) p } =
        r.run { s with rest := '?' :: (c :: cs ++ ')' :: p) } := by
    intro r
    simp [drop, flagPrefix, skipIgnored_run_cons, hx]
  -- no other kind of group begins with a question mark and a letter of a mode
  have hmiss : ∀ text ∈ ["?=", "?!", "?<=", "?<!", "?P<", "?<", "?P=", "?>", "?("],
      text.toList.isPrefixOf ('?' :: (c :: cs ++ ')' :: p)) = false := by
    obtain rfl | rfl | rfl := isModeLetter_cases (List.forall_mem_cons.mp hletters).1 <;>
      simp [List.isPrefixOf]
  simp only [List.forall_mem_cons] at hmiss
  obtain ⟨h1, h2, h3, h4, h5, h6, h7, h8, h9, -⟩ := hmiss
  rw [group, hstart, unmarked_run h1, unmarked_run h2, unmarked_run h3, unmarked_run h4,
    unmarked_run h5, unmarked_run h6, unmarked_run h7, unmarked_run h8, unmarked_run h9,
    marked_run rfl]
  rfl

/-! ## what follows the prefix -/

/-- What the round that has read the prefix does then: no repetition may follow. -/
def afterPrefix : Reader Unit := do
  skipIgnored
  if (← repetition?).isSome then refuse

/-- What is read behind the prefix, of at most that many characters. -/
def behindPrefix (groups : Reader Expr) (size : Nat) : Reader Expr := do
  afterPrefix
  let e ← branch groups (size + 1) []
  moreBranches groups ((← get).rest.length + 1) [e]

theorem calm_afterPrefix : Calm afterPrefix := by
  refine .bind calm_skipIgnored fun _ => .bind calm_repetition? fun r => ?_
  split
  · exact .refuse
  · exact .pure _

theorem steady_behindPrefix {groups : Reader Expr} (hgroups : SteadyFrom State.Open groups 0)
    (size : Nat) : Steady (behindPrefix groups size) 0 := by
  refine .calmly calm_afterPrefix fun _ => .after (steady_branch hgroups _ _) fun e => ?_
  exact .look (fun _ _ => rfl) fun s => steady_moreBranches hgroups _ _

section

variable {body : Reader Expr} {letters : List Char} {s : State} {p : List Char}

theorem piece_run_prefix (hne : letters ≠ []) (hletters : ∀ c ∈ letters, isModeLetter c = true)
    (hx : s.flags.extended = false) :
    (piece (group body)).run { s with rest := flagPrefix letters p } =
      (do afterPrefix; return .empty : Reader Expr).run
        { s with rest := p, flags := s.flags.switchOn letters } := by
  have hgroup := group_run_prefix body hne hletters (s := s) (p := p) hx
  have hskip : skipIgnored.run { s with rest := flagPrefix letters p } =
      some ((), { s with rest := flagPrefix letters p }) := by
    obtain ⟨c, cs, rfl⟩ := List.exists_cons_of_ne_nil hne
    obtain rfl | rfl | rfl := isModeLetter_cases (List.forall_mem_cons.mp hletters).1 <;>
      simp [skipIgnored, dropIgnored?, flagPrefix, hx]
  have hatom : (atom (group body)).run { s with rest := flagPrefix letters p } =
      some (.empty, { s with rest := p, flags := s.flags.switchOn letters }) := by
    rw [← hgroup]
    simp [atom, hskip, peek]
    simp [flagPrefix]
  rw [piece, StateT.run_bind, hatom, Option.bind_eq_bind, Option.bind_some, afterPrefix, bind_assoc]
  -- the empty piece cannot be repeated
  refine congrArg (fun r : Reader Expr => r.run _) ?_
  refine congrArg (skipIgnored >>= ·) (funext fun _ => ?_)
  rw [bind_assoc]
  refine congrArg (repetition? >>= ·) (funext fun r => ?_)
  cases r <;> rfl

/-- **Behind a prefix**: the pattern is read in the modes of the letters, from no piece on. -/
theorem branches_run_prefix (hbody : SteadyFrom State.Open (group body) 0) (hne : letters ≠ [])
    (hletters : ∀ c ∈ letters, isModeLetter c = true) (hx : s.flags.extended = false) :
    (branches (group body)).run { s with rest := flagPrefix letters p } =
      (behindPrefix (group body) p.length).run
        { s with rest := p, flags := s.flags.switchOn letters } := by
  have hlength : p.length < (flagPrefix letters p).length := by
    simp [flagPrefix]
    omega
  have hbranch : (branch (group body) ((flagPrefix letters p).length + 1) []).run
      { s with rest := flagPrefix letters p } =
        (do afterPrefix; branch (group body) (p.length + 1) [] : Reader Expr).run
          { s with rest := p, flags := s.flags.switchOn letters } := by
    rw [branch_run_succ, if_neg (by dsimp only; omega), piece_run_prefix hne hletters hx,
      StateT.run_bind, StateT.run_bind]
    cases hafter : afterPrefix.run { s with rest := p, flags := s.flags.switchOn letters } with
    | none => rfl
    | some x =>
        have hforward := calm_afterPrefix.forward _ _ _ hafter
        dsimp only at hforward
        have hne : ¬x.2.rest.length = (flagPrefix letters p).length := by omega
        simp only [Option.bind_eq_bind, Option.bind_some, StateT.run_pure, Option.pure_def]
        rw [if_neg hne]
        exact branch_fuel hbody [] (by omega) (by omega)
  have hread : (branches (group body)).run { s with rest := flagPrefix letters p } =
      (branch (group body) ((flagPrefix letters p).length + 1) [] >>= fun e => do
        moreBranches (group body) ((← get).rest.length + 1) [e] : Reader Expr).run
          { s with rest := flagPrefix letters p } := rfl
  have hbehind : behindPrefix (group body) p.length =
      ((do afterPrefix; branch (group body) (p.length + 1) []) >>= fun e => do
        moreBranches (group body) ((← get).rest.length + 1) [e]) := by
    rw [behindPrefix, bind_assoc]
  rw [hread, StateT.run_bind, hbranch, hbehind]
  exact (StateT.run_bind (do afterPrefix; branch (group body) (p.length + 1) [] : Reader Expr)
    (fun e => do moreBranches (group body) ((← get).rest.length + 1) [e]) _).symm

end

/-! ## whole patterns -/

/-- The parsed pattern, if nothing is left of it. -/
def Parsed.ofEnd? (x : Expr × State) : Option Parsed :=
  if x.2.rest.isEmpty then some ⟨x.1, x.2.groups⟩ else none

/-- A pattern that is read to its end has room for its groups, so it is read to its end under every
bound that is half its length. -/
theorem ofEnd?_of_bound {r : Reader Expr} (hr : Steady r 0) {s : State} {b b' : Nat} {x : Parsed}
    (hb' : s.rest.length + 2 * s.groups < 2 * b')
    (h : (r.run (s.withBound b)).bind Parsed.ofEnd? = some x) :
    (r.run (s.withBound b')).bind Parsed.ofEnd? = some x := by
  obtain ⟨⟨e, t⟩, hread, hend⟩ := Option.bind_eq_some_iff.mp h
  obtain ⟨hmoves, hbound⟩ := hr _ e t trivial hread
  have hroom := hmoves.room
  simp only [State.withBound_rest, State.withBound_groups] at hroom
  have hread' := hbound b' (by omega)
  have hsame : (s.withBound b).withBound b' = s.withBound b' := rfl
  rw [← hsame, hread']
  exact hend

theorem ofEnd?_bound {r : Reader Expr} (hr : Steady r 0) {s : State} {b b' : Nat}
    (hb : s.rest.length + 2 * s.groups < 2 * b) (hb' : s.rest.length + 2 * s.groups < 2 * b') :
    (r.run (s.withBound b)).bind Parsed.ofEnd? = (r.run (s.withBound b')).bind Parsed.ofEnd? :=
  Option.ext fun _ => ⟨ofEnd?_of_bound hr hb', ofEnd?_of_bound hr hb⟩

theorem length_le_byteLength (cs : List Char) : cs.length ≤ Text.byteLength cs := by
  induction cs with
  | nil => exact Nat.le_refl 0
  | cons c cs ih =>
      have hpos := c.utf8Size_pos
      rw [List.length_cons, Text.byteLength_cons]
      omega

/-- A pattern with a prefix, read from behind the prefix on. -/
theorem parse?_flagPrefix {letters : List Char} (hne : letters ≠ [])
    (hletters : ∀ c ∈ letters, isModeLetter c = true) (p : List Char) :
    parse? (flagPrefix letters p) =
      ((behindPrefix (group (groupBody 62)) p.length).run
        (State.withBound { rest := p, flags := ({} : Flags).switchOn letters, groupBound := 0 }
          (Text.byteLength (flagPrefix letters p) / 2))).bind Parsed.ofEnd? := by
  have hread := branches_run_prefix (steady_group (steady_groupBody 62)) hne hletters (p := p)
    (s := { rest := [], groupBound := Text.byteLength (flagPrefix letters p) / 2 }) rfl
  rw [parse?, nestingLimit, groupBody, hread]
  rfl

/-- **Two prefixes with the same letters**: a pattern behind the one is read as it is behind the
other. -/
theorem parse?_flagPrefix_congr {letters letters' : List Char} (hne : letters ≠ [])
    (hne' : letters' ≠ []) (hletters : ∀ c ∈ letters, isModeLetter c = true)
    (hletters' : ∀ c ∈ letters', isModeLetter c = true)
    (hsame : ({} : Flags).switchOn letters = ({} : Flags).switchOn letters') (p : List Char) :
    parse? (flagPrefix letters p) = parse? (flagPrefix letters' p) := by
  have hroom : ∀ {letters}, letters ≠ [] → p.length + 2 * 0 <
      2 * (Text.byteLength (flagPrefix letters p) / 2) := by
    intro letters hne
    have hpos := List.length_pos_iff.mpr hne
    have hbytes := length_le_byteLength (flagPrefix letters p)
    have hlength : (flagPrefix letters p).length = letters.length + p.length + 3 := by
      simp [flagPrefix]
      omega
    omega
  rw [parse?_flagPrefix hne hletters, parse?_flagPrefix hne' hletters', hsame]
  exact ofEnd?_bound (steady_behindPrefix (steady_group (steady_groupBody 62)) _) (hroom hne)
    (hroom hne')

end Backtracking

end TypeQuery.Pattern
