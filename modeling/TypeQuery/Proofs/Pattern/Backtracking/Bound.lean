import TypeQuery.Proofs.Pattern.Backtracking.Calm

/-!
# TypeQuery.Proofs.Pattern.Backtracking.Bound

What the reader of patterns makes of the bound on group numbers.  The bound comes
from the length of the whole pattern, so what stands in front of a piece of a
pattern could change how the piece is read.  It does not: every group takes up
two parentheses, so a pattern that is read to its end has fewer groups than any
bound that is half its length, and whoever refers to a group that is there passes
every such bound.

```
        (       …       )
room    1 - 2           + 1        what is left, and two for each group
```

Every reader is given one fact of the form `Steady r k`: the reader `r` never takes
a group back, uses up room for `k` characters at least, and where it succeeds it
does so under each bound above the groups that are open in the end.  A reader that
is `Calm` is steady and uses up no room.

The main results are `steady_groupBody`, of a whole pattern, and `branch_fuel`:
as every round of a branch reads something, its fuel does not matter.
-/

namespace TypeQuery.Pattern.Backtracking

/-! ## readers that succeed under every bound -/

/-- From `s` to `t` no group was taken back, nothing was put back, and room for `k` characters was
used up; a group takes the room of its two parentheses. -/
structure Moves (k : Int) (s t : State) : Prop where
  groups : s.groups ≤ t.groups
  forward : t.rest.length ≤ s.rest.length
  room : (t.rest.length + 2 * t.groups : Int) + k ≤ s.rest.length + 2 * s.groups

/-- From a state with the property `pre`, the reader only moves on, and its success does not depend
on the bound, as long as that is above the groups in the end. -/
def SteadyFrom {α : Type} (pre : State → Prop) (r : Reader α) (k : Int) : Prop :=
  ∀ s a t, pre s → r.run s = some (a, t) →
    Moves k s t ∧ ∀ b, t.groups < b → r.run (s.withBound b) = some (a, t.withBound b)

/-- The reader is steady wherever it is started. -/
abbrev Steady {α : Type} (r : Reader α) (k : Int) : Prop :=
  SteadyFrom (fun _ => True) r k

/-- Something is left of the pattern. -/
def State.Open (s : State) : Prop :=
  s.rest ≠ []

theorem Calm.steady {α : Type} {r : Reader α} (h : Calm r) : Steady r 0 := by
  intro s a t _ hr
  have hgroups := h.groups s a t hr
  have hforward := h.forward s a t hr
  refine ⟨⟨by omega, hforward, by omega⟩, fun b _ => ?_⟩
  rw [h.blind, hr]
  rfl

namespace SteadyFrom

variable {α β : Type} {pre : State → Prop} {r : Reader α} {f : α → Reader β} {k l m : Int}

theorem weaken {pre' : State → Prop} (h : SteadyFrom pre r k) (hpre : ∀ s, pre' s → pre s)
    (hl : l ≤ k) : SteadyFrom pre' r l := by
  intro s a t hs hr
  obtain ⟨hmoves, hbound⟩ := h s a t (hpre s hs) hr
  exact ⟨⟨hmoves.groups, hmoves.forward, by have := hmoves.room; omega⟩, hbound⟩

theorem pure (a : α) : Steady (Pure.pure a : Reader α) 0 :=
  (Calm.pure a).steady

theorem refuse : SteadyFrom pre (Backtracking.refuse : Reader α) k := by
  intro s a t _ h
  contradiction

theorem bind (hr : SteadyFrom pre r k) (hf : ∀ a, Steady (f a) l) (hm : m ≤ k + l) :
    SteadyFrom pre (r >>= f) m := by
  intro s b u hs h
  rw [StateT.run_bind] at h
  obtain ⟨⟨a, t⟩, hra, hfa⟩ := Option.bind_eq_some_iff.mp h
  obtain ⟨hst, hrb⟩ := hr s a t hs hra
  obtain ⟨htu, hfb⟩ := hf a t b u trivial hfa
  have hroom := hst.room
  have hroom' := htu.room
  refine ⟨⟨Nat.le_trans hst.groups htu.groups, Nat.le_trans htu.forward hst.forward, by omega⟩,
    fun c hc => ?_⟩
  -- the groups in the middle are among those in the end
  rw [StateT.run_bind, hrb c (Nat.lt_of_le_of_lt htu.groups hc)]
  exact hfb c hc

/-- The step that goes on after a reader. -/
theorem after (hr : SteadyFrom pre r 0) (hf : ∀ a, Steady (f a) k) : SteadyFrom pre (r >>= f) k :=
  hr.bind hf (by omega)

/-- The step that goes on after a reader that opens no group. -/
theorem calmly (hr : Calm r) (hf : ∀ a, Steady (f a) k) : Steady (r >>= f) k :=
  hr.steady.after hf

/-- One step or another, as a mark is there or not. -/
theorem marked {text : String} {yes no : Reader α} (hyes : Steady yes k) (hno : Steady no k) :
    Steady (do if ← accept text then yes else no) k := by
  refine .calmly (calm_accept text) fun found => ?_
  split
  · exact hyes
  · exact hno

theorem look {f : State → Reader β} (hb : ∀ s b, f (s.withBound b) = f s)
    (hf : ∀ s, SteadyFrom pre (f s) k) : SteadyFrom pre (MonadState.get >>= f) k := by
  intro s a t hs h
  obtain ⟨hmoves, hbound⟩ := hf s s a t hs h
  refine ⟨hmoves, fun b hb' => ?_⟩
  have hrun : (MonadState.get >>= f).run (s.withBound b) = (f s).run (s.withBound b) := by
    rw [← hb s b]
    rfl
  exact hrun.trans (hbound b hb')

/-- What follows a look at the next character knows that character. -/
theorem peek {f : Option Char → Reader β}
    (hf : ∀ c, SteadyFrom (fun s => s.rest.head? = c) (f c) k) : Steady (Backtracking.peek >>= f) k :=
  fun s a t _ h => hf s.rest.head? s a t rfl h

/-- What follows a look at the next character knows that there is one. -/
theorem here {f : Char → Reader β} (hf : ∀ c, SteadyFrom State.Open (f c) k) :
    Steady (Backtracking.here >>= f) k := by
  rw [Backtracking.here, bind_assoc]
  refine .peek fun c => ?_
  cases c with
  | none => exact .refuse
  | some c =>
      refine (hf c).weaken (fun s hs hnil => ?_) (Int.le_refl _)
      rw [hnil] at hs
      contradiction

end SteadyFrom

/-- Passing over a character uses up its room. -/
theorem steady_drop_one : SteadyFrom State.Open (drop 1) 1 := by
  intro s a t hs h
  obtain ⟨rfl, rfl⟩ := Prod.mk.inj (Option.some.inj h)
  have hpos := List.length_pos_iff.mpr hs
  have hlength : (s.rest.drop 1).length = s.rest.length - 1 := List.length_drop
  exact ⟨⟨Nat.le_refl _, by dsimp only; omega, by dsimp only; omega⟩, fun b _ => rfl⟩

/-! ## references -/

/-- Only a group that is there is referred to. -/
theorem le_groups_of_refer {index : Nat} {s t : State} {e : Expr}
    (h : (refer index).run s = some (e, t)) : index ≤ t.groups := by
  have hgroups := (calm_refer index).groups s e t h
  by_cases hle : index ≤ s.groups
  · omega
  · simp [refer, hle, refuse] at h

/-- A group that is there passes every bound above the groups. -/
theorem steady_numberedRef : Steady numberedRef 0 := by
  refine .calmly calm_decimal? fun n => ?_
  split
  · next n =>
    intro s e t _ h
    have hmark : Calm (modify (fun s : State => { s with numbered := true }) >>= fun _ => refer n) :=
      .bind (.modified (fun _ => rfl) (fun _ => Nat.le_refl _) fun _ _ => rfl) fun _ => calm_refer n
    have hrun : ∀ s : State, (do
        if n < (← get).groupBound then
          modify ({ · with numbered := true })
          refer n
        else Backtracking.refuse : Reader Expr).run s =
          if n < s.groupBound then
            (modify (fun s : State => { s with numbered := true }) >>= fun _ => refer n).run s
          else none := by
      intro s
      by_cases hn : n < s.groupBound <;> simp [hn, Backtracking.refuse]
    rw [hrun] at h
    split at h
    · obtain ⟨hmoves, hbound⟩ := hmark.steady s e t trivial h
      refine ⟨hmoves, fun b hb => ?_⟩
      have hle : n ≤ t.groups := le_groups_of_refer (s := { s with numbered := true }) h
      rw [hrun, State.withBound_groupBound, if_pos (Nat.lt_of_le_of_lt hle hb)]
      exact hbound b hb
    · contradiction
  · exact .refuse

/-! ## escapes and classes -/

theorem steady_escape (inClass : Bool) : Steady (escape inClass) 0 := by
  have hother : ∀ {r : Reader Expr}, Steady r 0 →
      Steady (r >>= fun e => pure (Escaped.other e)) 0 := fun hr => .after hr fun _ => .pure _
  have hcode : ∀ digits, Steady (hexChar digits >>= fun c => pure (Escaped.code c)) 0 :=
    fun digits => .calmly (calm_hexChar digits) fun _ => .pure _
  refine .calmly calm_here fun c => ?_
  split
  · exact hother steady_numberedRef
  · refine .calmly (calm_drop 1) fun _ => ?_
    split
    case h_16 | h_17 | h_18 => exact hcode _
    case h_19 =>
      split
      · split
        · exact .pure _
        · split
          · exact .pure _
          · split
            · exact .refuse
            · exact .pure _
      · split
        case h_1 =>
          refine .calmly calm_peek fun _ => ?_
          split
          · exact hother (calm_namedRef "'" "'" true).steady
          · exact hother (calm_namedRef "<" ">" true).steady
        case h_4 | h_5 =>
          refine .calmly calm_peek fun _ => ?_
          split
          · exact .refuse
          · exact .pure _
        case h_10 =>
          split
          · exact .refuse
          · exact .pure _
        all_goals exact .pure _
    all_goals exact .pure _

theorem steady_classText (fuel nesting : Nat) (text : List Char) :
    Steady (classText fuel nesting text) 0 := by
  induction fuel generalizing nesting text with
  | zero => exact .refuse
  | succ fuel ih =>
      refine .calmly calm_here fun c => .calmly (calm_drop 1) fun _ => ?_
      split
      · refine .after (steady_escape true) fun x => ?_
        split
        · exact ih _ _
        · exact ih _ _
        · exact ih _ _
        · exact .refuse
      · exact ih _ _
      · split
        · exact .pure _
        · exact ih _ _
      · exact ih _ _

theorem steady_bracketClass : Steady bracketClass 0 := by
  refine .calmly (calm_drop 1) fun _ => .calmly (calm_accept "^") fun _ => ?_
  refine .calmly (calm_accept "]") fun _ => .look (fun _ _ => rfl) fun s => ?_
  refine .after (steady_classText _ _ _) fun text => .look (fun _ _ => rfl) fun s => ?_
  extract_lets ignoreCase
  clear_value ignoreCase
  split
  · exact .pure _
  · exact .refuse

/-! ## groups -/

/-- A closing parenthesis takes up room. -/
theorem steady_close : Steady close 1 := by
  refine .calmly calm_skipIgnored fun _ => .here fun c => ?_
  split
  · exact steady_drop_one
  · exact .refuse

/-- A group takes the room of two parentheses. -/
theorem steady_openGroup (name? : Option String) : Steady (openGroup name?) (-2) := by
  intro s index t _ h
  obtain ⟨rfl, rfl⟩ := Prod.mk.inj (Option.some.inj h)
  exact ⟨⟨Nat.le_succ _, Nat.le_refl _, by simp; omega⟩, fun b _ => rfl⟩

theorem steady_enclosed {body : Reader Expr} (wrap : Expr → Expr) (hbody : Steady body 0) :
    Steady (enclosed body wrap) 1 :=
  .after hbody fun _ => .bind steady_close (fun _ => .pure _) (by omega)

theorem steady_namedGroup {body : Reader Expr} (hbody : Steady body 0) :
    Steady (namedGroup body) (-1) := by
  refine .calmly (calm_name "" ">" false) fun id => ?_
  exact .bind (steady_openGroup (some id)) (fun _ => steady_enclosed _ hbody) (by omega)

theorem steady_flagGroup {body : Reader Expr} (hbody : Steady body 0) :
    Steady (flagGroup body) 0 := by
  refine .look (fun _ _ => rfl) fun s => .look (fun _ _ => rfl) fun s' => ?_
  refine .calmly (calm_flagLetters _ _ false) fun colon => ?_
  split
  · refine .after hbody fun e => .calmly calm_here fun c => ?_
    extract_lets rest
    have hrest : ∀ u, Steady (rest u) 0 := fun _ => by
      refine .calmly (calm_drop 1) fun _ => .calmly ?_ fun _ => .pure _
      exact .modified (fun _ => rfl) (fun _ => Nat.le_refl _) fun _ _ => rfl
    split
    · exact .after .refuse hrest
    · exact hrest ()
  · exact .pure _

theorem steady_condition {body : Reader Expr} (hbody : Steady body 0) :
    Steady (condition body) 0 := by
  refine .calmly calm_here fun c => ?_
  extract_lets rest
  have hrest : ∀ c, Steady (rest c) 0 := fun c => by
    refine .calmly calm_close fun _ => .look (fun _ _ => rfl) fun s => ?_
    refine .after hbody fun branches => .look (fun _ _ => rfl) fun s' => ?_
    refine .calmly calm_close fun _ => ?_
    extract_lets test
    clear_value test
    split
    · split
      · exact .pure _
      · exact .refuse
    · split
      split
      · exact .pure _
      · exact .pure _
  split
  · exact .calmly (calm_namedRef _ _ _) hrest
  · exact .calmly (calm_namedRef _ _ _) hrest
  · split
    · exact .after steady_numberedRef hrest
    · exact .after hbody hrest

/-- What stands behind the opening parenthesis of a group may need the room of it. -/
theorem steady_group {body : Reader Expr} (hbody : Steady body 0) :
    SteadyFrom State.Open (group body) 0 := by
  have henclosed : ∀ wrap, Steady (enclosed body wrap) (-1) := fun wrap =>
    (steady_enclosed wrap hbody).weaken (fun _ h => h) (by omega)
  have hlower : ∀ {r : Reader Expr}, Steady r 0 → Steady r (-1) := fun hr =>
    hr.weaken (fun _ h => h) (by omega)
  unfold group
  refine .bind steady_drop_one (l := -1) (fun _ => .calmly calm_skipIgnored fun _ => ?_) (by omega)
  refine .marked (henclosed _) (.marked (henclosed _) ?_)
  refine .marked (henclosed _) (.marked (henclosed _) ?_)
  refine .marked (steady_namedGroup hbody) (.marked (steady_namedGroup hbody) ?_)
  refine .marked (hlower (calm_namedRef _ _ _).steady) (.marked (henclosed _) ?_)
  refine .marked (hlower (steady_condition hbody)) (.marked (hlower (steady_flagGroup hbody)) ?_)
  exact .bind (steady_openGroup none) (fun _ => steady_enclosed _ hbody) (by omega)

/-! ## pieces and branches -/

theorem steady_atom {groups : Reader Expr} (hgroups : SteadyFrom State.Open groups 0) :
    Steady (atom groups) 0 := by
  have hany : ∀ {pre : State → Prop} {r : Reader Expr}, Steady r 0 → SteadyFrom pre r 0 :=
    fun hr => hr.weaken (fun _ _ => trivial) (Int.le_refl _)
  refine .calmly calm_skipIgnored fun _ => .look (fun _ _ => rfl) fun s => .peek fun c => ?_
  split
  · exact hany (.pure _)
  · split
    case h_1 =>
      refine hgroups.weaken (fun s hs hnil => ?_) (Int.le_refl _)
      rw [hnil] at hs
      contradiction
    case h_2 => exact hany steady_bracketClass
    case h_8 =>
      refine hany (.calmly (calm_drop 1) fun _ => .after (steady_escape false) fun x => ?_)
      split
      · exact .pure _
      · exact .pure _
      · exact .pure _
      · exact .pure _
    case h_9 | h_10 | h_11 | h_12 => exact hany (.calmly (calm_drop 1) fun _ => .pure _)
    all_goals exact hany (.pure _)

theorem steady_piece {groups : Reader Expr} (hgroups : SteadyFrom State.Open groups 0) :
    Steady (piece groups) 0 := by
  refine .after (steady_atom hgroups) fun e => .calmly calm_skipIgnored fun _ => ?_
  refine .calmly calm_repetition? fun r => ?_
  split
  · exact .pure _
  · extract_lets rest
    have hrest : ∀ u, Steady (rest u) 0 := fun _ => by
      refine .calmly calm_skipIgnored fun _ => .calmly (calm_accept "?") fun _ => ?_
      refine .look (fun _ _ => rfl) fun s => .calmly (calm_accept "+") fun _ => ?_
      split
      · exact .pure _
      · exact .pure _
    split
    · exact .after .refuse hrest
    · exact hrest ()

theorem steady_branch {groups : Reader Expr} (hgroups : SteadyFrom State.Open groups 0)
    (fuel : Nat) (read : List Expr) : Steady (branch groups fuel read) 0 := by
  induction fuel generalizing read with
  | zero => exact .refuse
  | succ fuel ih =>
      refine .look (fun _ _ => rfl) fun s => ?_
      extract_lets before
      split
      · exact .pure _
      · refine .after (steady_piece hgroups) fun e => .look (fun _ _ => rfl) fun s' => ?_
        split
        · exact .pure _
        · exact ih _

theorem steady_moreBranches {groups : Reader Expr} (hgroups : SteadyFrom State.Open groups 0)
    (fuel : Nat) (read : List Expr) : Steady (moreBranches groups fuel read) 0 := by
  induction fuel generalizing read with
  | zero => exact .refuse
  | succ fuel ih =>
      refine .calmly calm_skipIgnored fun _ => .calmly (calm_accept "|") fun _ => ?_
      split
      · refine .look (fun _ _ => rfl) fun s => .after (steady_branch hgroups _ _) fun e => ?_
        exact ih _
      · split
        · refine .look (fun _ _ => rfl) fun s => ?_
          split
          · exact .refuse
          · exact .pure _
        · exact .pure _

theorem steady_branches {groups : Reader Expr} (hgroups : SteadyFrom State.Open groups 0) :
    Steady (branches groups) 0 := by
  refine .look (fun _ _ => rfl) fun s => .after (steady_branch hgroups _ _) fun e => ?_
  exact .look (fun _ _ => rfl) fun s' => steady_moreBranches hgroups _ _

theorem steady_groupBody (nesting : Nat) : Steady (groupBody nesting) 0 := by
  induction nesting with
  | zero => exact steady_branches .refuse
  | succ nesting ih => exact steady_branches (steady_group ih)

/-! ## the fuel of a branch -/

/-- One round of a branch. -/
theorem branch_run_succ (groups : Reader Expr) (fuel : Nat) (read : List Expr) (s : State) :
    (branch groups (fuel + 1) read).run s =
      if s.rest.length = 0 then some (sequence read.reverse, s)
      else (piece groups).run s >>= fun x =>
        if x.2.rest.length = s.rest.length then some (sequence read.reverse, x.2)
        else (branch groups fuel (if x.1.isEmpty then read else x.1 :: read)).run x.2 := by
  have hrun : (branch groups (fuel + 1) read).run s =
      (if s.rest.length = 0 then pure (sequence read.reverse) else do
        let e ← piece groups
        if (← get).rest.length = s.rest.length then pure (sequence read.reverse)
        else branch groups fuel (if e.isEmpty then read else e :: read) : Reader Expr).run s := rfl
  rw [hrun]
  split
  · rfl
  · rw [StateT.run_bind]
    cases (piece groups).run s with
    | none => rfl
    | some x =>
        by_cases hsame : x.2.rest.length = s.rest.length
        · simp [hsame]
        · simp [hsame]

/-- Every round of a branch reads something, so more fuel than there are characters makes no
difference. -/
theorem branch_fuel {groups : Reader Expr} (hgroups : SteadyFrom State.Open groups 0)
    {fuel fuel' : Nat} (read : List Expr) {s : State} (h : s.rest.length < fuel)
    (h' : s.rest.length < fuel') :
    (branch groups fuel read).run s = (branch groups fuel' read).run s := by
  induction fuel generalizing fuel' read s with
  | zero => contradiction
  | succ fuel ih =>
      cases fuel' with
      | zero => contradiction
      | succ fuel' =>
          rw [branch_run_succ, branch_run_succ]
          split
          · rfl
          · cases hpiece : (piece groups).run s with
            | none => rfl
            | some x =>
                have hforward := (steady_piece hgroups s x.1 x.2 trivial hpiece).1.forward
                simp only [Option.bind_eq_bind, Option.bind_some]
                split
                · rfl
                · exact ih _ (by omega) (by omega)

end TypeQuery.Pattern.Backtracking
