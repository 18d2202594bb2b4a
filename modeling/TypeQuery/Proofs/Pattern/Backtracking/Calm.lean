import TypeQuery.Pattern.Backtracking.Parser

/-!
# TypeQuery.Proofs.Pattern.Backtracking.Calm

Most readers of a pattern only pass over some of its characters: marks, numbers,
names, the letters of modes, references.  They open no group, put nothing back,
and do not ask for the bound on group numbers (`Calm`).

What is read where groups can be opened is the matter of
`TypeQuery.Proofs.Pattern.Backtracking.Groups` (their numbers) and of
`TypeQuery.Proofs.Pattern.Backtracking.Bound` (the bound).
-/

namespace TypeQuery.Pattern.Backtracking

/-- The state with another bound on group numbers. -/
def State.withBound (s : State) (b : Nat) : State :=
  { s with groupBound := b }

@[simp] theorem State.withBound_rest (s : State) (b : Nat) : (s.withBound b).rest = s.rest := rfl

@[simp] theorem State.withBound_groups (s : State) (b : Nat) : (s.withBound b).groups = s.groups :=
  rfl

@[simp] theorem State.withBound_groupBound (s : State) (b : Nat) : (s.withBound b).groupBound = b :=
  rfl

@[simp] theorem State.withBound_self (s : State) : s.withBound s.groupBound = s := rfl

/-! ## readers that open no group -/

/-- The reader leaves the groups alone, does not move back, and does the same under every bound. -/
structure Calm {α : Type} (r : Reader α) : Prop where
  groups : ∀ s a t, r.run s = some (a, t) → t.groups = s.groups
  forward : ∀ s a t, r.run s = some (a, t) → t.rest.length ≤ s.rest.length
  blind : ∀ s b, r.run (s.withBound b) = (r.run s).map fun x => (x.1, x.2.withBound b)

namespace Calm

variable {α β : Type} {r : Reader α} {f : α → Reader β}

theorem pure (a : α) : Calm (Pure.pure a : Reader α) where
  groups s b t h := by
    obtain ⟨-, rfl⟩ := Prod.mk.inj (Option.some.inj h)
    rfl
  forward s b t h := by
    obtain ⟨-, rfl⟩ := Prod.mk.inj (Option.some.inj h)
    exact Nat.le_refl _
  blind s b := rfl

theorem refuse : Calm (Backtracking.refuse : Reader α) where
  groups s a t h := by contradiction
  forward s a t h := by contradiction
  blind s b := rfl

theorem bind (hr : Calm r) (hf : ∀ a, Calm (f a)) : Calm (r >>= f) where
  groups s b u h := by
    rw [StateT.run_bind] at h
    obtain ⟨⟨a, t⟩, hra, hfa⟩ := Option.bind_eq_some_iff.mp h
    exact ((hf a).groups t b u hfa).trans (hr.groups s a t hra)
  forward s b u h := by
    rw [StateT.run_bind] at h
    obtain ⟨⟨a, t⟩, hra, hfa⟩ := Option.bind_eq_some_iff.mp h
    exact Nat.le_trans ((hf a).forward t b u hfa) (hr.forward s a t hra)
  blind s b := by
    rw [StateT.run_bind, StateT.run_bind, hr.blind]
    cases r.run s with
    | none => rfl
    | some x => exact (hf x.1).blind x.2 b

/-- A look at the state, of which the bound does not count. -/
theorem look {f : State → Reader β} (hb : ∀ s b, f (s.withBound b) = f s) (hf : ∀ s, Calm (f s)) :
    Calm (MonadState.get >>= f) where
  groups s := (hf s).groups s
  forward s := (hf s).forward s
  blind s b := by
    have hrun : (MonadState.get >>= f).run (s.withBound b) = (f s).run (s.withBound b) := by
      rw [← hb s b]
      rfl
    exact hrun.trans ((hf s).blind s b)

/-- A change of the state that moves forward at most. -/
theorem modified {g : State → State} (hgroups : ∀ s, (g s).groups = s.groups)
    (hforward : ∀ s, (g s).rest.length ≤ s.rest.length)
    (hb : ∀ s b, g (s.withBound b) = (g s).withBound b) : Calm (modify g : Reader Unit) where
  groups s a t h := by
    obtain ⟨-, rfl⟩ := Prod.mk.inj (Option.some.inj h)
    exact hgroups s
  forward s a t h := by
    obtain ⟨-, rfl⟩ := Prod.mk.inj (Option.some.inj h)
    exact hforward s
  blind s b := by
    show some ((), g (s.withBound b)) = some ((), (g s).withBound b)
    rw [hb]

/-- A reader that takes something from the rest of the pattern, if it does not refuse. -/
theorem taking (g : State → Option (α × List Char))
    (hrun : ∀ s, r.run s = (g s).map fun x => (x.1, { s with rest := x.2 }))
    (hforward : ∀ s x, g s = some x → x.2.length ≤ s.rest.length)
    (hb : ∀ s b, g (s.withBound b) = g s) : Calm r where
  groups s a t h := by
    rw [hrun] at h
    obtain ⟨x, -, heq⟩ := Option.map_eq_some_iff.mp h
    obtain ⟨-, rfl⟩ := Prod.mk.inj heq
    rfl
  forward s a t h := by
    rw [hrun] at h
    obtain ⟨x, hx, heq⟩ := Option.map_eq_some_iff.mp h
    obtain ⟨-, rfl⟩ := Prod.mk.inj heq
    exact hforward s x hx
  blind s b := by
    rw [hrun, hrun, hb, Option.map_map]
    rfl

end Calm

theorem calm_peek : Calm peek :=
  .look (fun _ _ => rfl) fun _ => .pure _

theorem calm_drop (n : Nat) : Calm (drop n) :=
  .modified (fun _ => rfl) (fun s => by simp) fun _ _ => rfl

theorem calm_here : Calm here := by
  refine .bind calm_peek fun c => ?_
  split
  · exact .pure _
  · exact .refuse

theorem calm_accept (text : String) : Calm (accept text) := by
  refine .taking (fun s => some (if text.toList.isPrefixOf s.rest then
    (true, s.rest.drop text.length) else (false, s.rest))) (fun s => ?_) (fun s x hx => ?_)
    fun _ _ => rfl
  · by_cases h : text.toList.isPrefixOf s.rest = true
    · simp [accept, List.isPrefixOf_iff_prefix.mp h]
    · simp [accept, mt List.isPrefixOf_iff_prefix.mpr h]
  · obtain rfl := Option.some.inj hx
    split <;> simp

/-! ## what is left out -/

theorem length_afterComment?_le {cs rest : List Char} (h : afterComment? cs = some rest) :
    rest.length ≤ cs.length := by
  fun_induction afterComment? cs <;> grind

theorem length_dropIgnored?_le {extended : Bool} {fuel : Nat} {cs rest : List Char}
    (h : dropIgnored? extended fuel cs = some rest) : rest.length ≤ cs.length := by
  induction fuel generalizing cs with
  | zero => exact Nat.le_of_eq (congrArg List.length (Option.some.inj h)).symm
  | succ fuel ih =>
      cases cs with
      | nil => exact Nat.le_of_eq (congrArg List.length (Option.some.inj h)).symm
      | cons c cs =>
          have hline : ((cs.dropWhile (· != '\n')).drop 1).length ≤ cs.length :=
            ((List.drop_sublist 1 _).trans (List.dropWhile_sublist _)).length_le
          rw [dropIgnored?] at h
          split at h
          · exact Nat.le_succ_of_le (Nat.le_trans (ih h) hline)
          · split at h
            · exact Nat.le_succ_of_le (ih h)
            · split at h
              · obtain ⟨behind, hbehind, hrest⟩ := Option.bind_eq_some_iff.mp h
                have hcomment := length_afterComment?_le hbehind
                rw [List.length_drop] at hcomment
                have hrest := ih hrest
                rw [List.length_cons]
                omega
              · exact Nat.le_of_eq (congrArg List.length (Option.some.inj h)).symm

theorem calm_skipIgnored : Calm skipIgnored := by
  refine .taking (fun s => (dropIgnored? s.flags.extended (s.rest.length + 1) s.rest).map ((), ·))
    (fun s => ?_) (fun s x hx => ?_) fun _ _ => rfl
  · cases h : dropIgnored? s.flags.extended (s.rest.length + 1) s.rest <;>
      simp [skipIgnored, h, Backtracking.refuse]
  · obtain ⟨rest, hrest, rfl⟩ := Option.map_eq_some_iff.mp hx
    exact length_dropIgnored?_le hrest

/-! ## numbers and names -/

theorem calm_decimal? : Calm decimal? := by
  refine .taking (fun s =>
    let ds := s.rest.takeWhile PatternReader.isDigit
    some (if ds.isEmpty || 0x10000000000000000 ≤ PatternReader.decimalValue ds then (none, s.rest)
      else (some (PatternReader.decimalValue ds), s.rest.drop ds.length)))
    (fun s => ?_) (fun s x hx => ?_) fun _ _ => rfl
  · have hrun : decimal?.run s =
        (if (s.rest.takeWhile PatternReader.isDigit).isEmpty || 0x10000000000000000 ≤
            PatternReader.decimalValue (s.rest.takeWhile PatternReader.isDigit) then pure none
        else do
          set { s with rest := s.rest.drop (s.rest.takeWhile PatternReader.isDigit).length }
          return some (PatternReader.decimalValue (s.rest.takeWhile PatternReader.isDigit)) :
          Reader (Option Nat)).run s := rfl
    rw [hrun]
    split <;> simp [*]
  · obtain rfl := Option.some.inj hx
    split <;> simp

theorem calm_counts : Calm counts := by
  refine .bind (calm_drop 1) fun _ => .bind calm_skipIgnored fun _ => .bind calm_here fun c => ?_
  extract_lets low
  have hlow : ∀ n, Calm (low n) := fun n => by
    refine .bind calm_skipIgnored fun _ => .bind calm_here fun c => ?_
    extract_lets high
    have hhigh : ∀ n, Calm (high n) := fun n => by
      refine .bind calm_skipIgnored fun _ => .bind calm_here fun c => ?_
      split
      · exact .bind (calm_drop 1) fun _ => .pure _
      · exact .refuse
    split
    · exact hhigh _
    · refine .bind (calm_drop 1) fun _ => .bind calm_skipIgnored fun _ => ?_
      exact .bind calm_decimal? fun _ => hhigh _
    · exact .bind .refuse hhigh
  split
  · exact hlow 0
  · refine .bind calm_decimal? fun n => ?_
    split
    · exact hlow _
    · exact .bind .refuse hlow

theorem calm_counts? : Calm counts? where
  groups s a t h := by
    rw [StateT.run, counts?] at h
    split at h
    · next hcounts =>
      obtain ⟨-, rfl⟩ := Prod.mk.inj (Option.some.inj h)
      exact calm_counts.groups s _ _ hcounts
    · obtain ⟨-, rfl⟩ := Prod.mk.inj (Option.some.inj h)
      rfl
  forward s a t h := by
    rw [StateT.run, counts?] at h
    split at h
    · next hcounts =>
      obtain ⟨-, rfl⟩ := Prod.mk.inj (Option.some.inj h)
      exact calm_counts.forward s _ _ hcounts
    · obtain ⟨-, rfl⟩ := Prod.mk.inj (Option.some.inj h)
      exact Nat.le_refl _
  -- what is no count is none under every bound
  blind s b := by
    rw [StateT.run, StateT.run, counts?, counts?, calm_counts.blind]
    cases counts.run s <;> rfl

theorem calm_name (opening closing : String) (signed : Bool) :
    Calm (name opening closing signed) := by
  refine .bind (calm_accept opening) fun opened => ?_
  extract_lets letters signs
  have hletters : ∀ negative, Calm (letters negative) := fun negative => by
    refine .look (fun _ _ => rfl) fun s => ?_
    extract_lets cs closed
    have hclosed : ∀ u, Calm (closed u) := fun _ => by
      refine .bind (calm_drop _) fun _ => .bind (calm_accept closing) fun _ => ?_
      split
      · exact .pure _
      · exact .refuse
    split
    · exact .bind .refuse hclosed
    · exact hclosed ()
  have hsigns : ∀ u, Calm (signs u) := fun _ => by
    dsimp only [signs]
    split
    · exact .bind (calm_accept "-") hletters
    · exact hletters false
  split
  · exact .bind .refuse hsigns
  · exact hsigns ()

theorem calm_hexChar (digits : Nat) : Calm (hexChar digits) := by
  refine .look (fun _ _ => rfl) fun s => ?_
  extract_lets rest isHex value fixed char
  have hchar : ∀ x, Calm (char x) := fun x => by
    dsimp only [char]
    split
    · exact .bind (calm_drop _) fun _ => .pure _
    · exact .refuse
  clear_value char fixed rest
  split
  · exact hchar (fixed, digits)
  · split
    · extract_lets ds
      split
      · exact .bind .refuse hchar
      · exact hchar (ds, ds.length + 2)
    · exact .bind .refuse hchar

theorem calm_refer (index : Nat) : Calm (refer index) := by
  refine .look (fun _ _ => rfl) fun s => ?_
  split
  · exact .pure _
  · exact .refuse

theorem calm_namedRef (opening closing : String) (signed : Bool) :
    Calm (namedRef opening closing signed) := by
  refine .bind (calm_name opening closing signed) fun id => .look (fun _ _ => rfl) fun s => ?_
  split
  · exact calm_refer _
  · extract_lets back
    split
    · exact calm_refer _
    · exact .refuse
  · split
    · exact calm_refer _
    · exact .refuse

theorem calm_close : Calm close := by
  refine .bind calm_skipIgnored fun _ => .bind calm_here fun c => ?_
  split
  · exact calm_drop 1
  · exact .refuse

theorem calm_flagLetters (start fuel : Nat) (negated : Bool) :
    Calm (flagLetters start fuel negated) := by
  induction fuel generalizing negated with
  | zero => exact .refuse
  | succ fuel ih =>
      refine .bind calm_skipIgnored fun _ => .look (fun _ _ => rfl) fun s => ?_
      refine .bind calm_here fun c => .bind (calm_drop 1) fun _ => ?_
      split
      · split
        · exact .refuse
        · exact .pure _
      · split
        · split
          · exact .refuse
          · exact .pure _
        · split
          · split
            · exact .refuse
            · exact ih true
          · refine .look (fun _ _ => rfl) fun s => ?_
            split
            · exact .bind (.modified (fun _ => rfl) (fun _ => Nat.le_refl _) fun _ _ => rfl)
                fun _ => ih negated
            · exact .refuse

theorem calm_repetition? : Calm repetition? := by
  have hmark : ∀ r, Calm (drop 1 >>= fun _ => pure r : Reader (Option (Nat × Option Nat))) :=
    fun _ => .bind (calm_drop 1) fun _ => .pure _
  refine .bind calm_peek fun c => ?_
  split
  · exact hmark _
  · exact hmark _
  · exact hmark _
  · exact calm_counts?
  · exact .pure _

end TypeQuery.Pattern.Backtracking
