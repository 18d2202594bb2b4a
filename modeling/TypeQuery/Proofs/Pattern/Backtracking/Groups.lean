import TypeQuery.Proofs.Pattern.Backtracking.Calm

/-!
# TypeQuery.Proofs.Pattern.Backtracking.Groups

The numbers of the groups in a pattern.  The reader counts the groups that it
opens, and a group has the count as its number, so every group of the expression
that it answers has a number from one to the count at the end
(`numbered_of_parse?`).

Every reader is given one fact of the form `Opens m r P`: started with at least
`m` groups, the reader `r` never takes a group back, and what it answers has the
property `P` with the number of groups at that time.  A reader that is `Calm` has
the same groups when it ends.
-/

namespace TypeQuery.Pattern.Backtracking

/-! ## numbers of groups -/

namespace Expr

mutual

/-- All groups in the pattern have numbers from one to `n`. -/
def Numbered (n : Nat) : Expr → Prop
  | .seq items => AllNumbered n items
  | .alt branches => AllNumbered n branches
  | .group index body => (0 < index ∧ index ≤ n) ∧ body.Numbered n
  | .around _ _ body => body.Numbered n
  | .loop body _ _ _ => body.Numbered n
  | .atomic body => body.Numbered n
  | .conditional condition yes no => condition.Numbered n ∧ yes.Numbered n ∧ no.Numbered n
  | _ => True

/-- All groups in the patterns have numbers from one to `n`. -/
def AllNumbered (n : Nat) : List Expr → Prop
  | [] => True
  | e :: es => e.Numbered n ∧ AllNumbered n es

end

theorem allNumbered_iff {n : Nat} {es : List Expr} :
    AllNumbered n es ↔ ∀ e ∈ es, e.Numbered n := by
  induction es with
  | nil => simp [AllNumbered]
  | cons e es ih => simp [AllNumbered, ih]

mutual

theorem Numbered.mono {m n : Nat} (hmn : m ≤ n) :
    (e : Expr) → e.Numbered m → e.Numbered n
  | .seq items, h => AllNumbered.mono hmn items h
  | .alt branches, h => AllNumbered.mono hmn branches h
  | .group _ body, h => ⟨⟨h.1.1, Nat.le_trans h.1.2 hmn⟩, Numbered.mono hmn body h.2⟩
  | .around _ _ body, h => Numbered.mono hmn body h
  | .loop body _ _ _, h => Numbered.mono hmn body h
  | .atomic body, h => Numbered.mono hmn body h
  | .conditional condition yes no, h =>
    ⟨Numbered.mono hmn condition h.1, Numbered.mono hmn yes h.2.1, Numbered.mono hmn no h.2.2⟩
  | .empty, _ | .any _, _ | .char _ _, _ | .set _ _, _ | .look _, _ | .backref _, _ | .taken _, _
  | .keepOut, _ | .resume, _ => trivial

theorem AllNumbered.mono {m n : Nat} (hmn : m ≤ n) :
    (es : List Expr) → AllNumbered m es → AllNumbered n es
  | [], _ => trivial
  | e :: es, h => ⟨Numbered.mono hmn e h.1, AllNumbered.mono hmn es h.2⟩

end

mutual

/-- The groups that an automaton takes over have numbers in range, too. -/
theorem Numbered.groups {n : Nat} : (e : Expr) → e.Numbered n → ∀ g ∈ e.groups, 0 < g ∧ g ≤ n
  | .seq items, h => AllNumbered.groupsOf items h
  | .alt branches, h => AllNumbered.groupsOf branches h
  | .group index body, h => fun g hg => by
    cases List.mem_cons.mp hg with
    | inl heq => exact heq ▸ h.1
    | inr hm => exact Numbered.groups body h.2 g hm
  | .loop body _ _ _, h => Numbered.groups body h
  | .empty, _ | .any _, _ | .char _ _, _ | .set _ _, _ | .look _, _ | .backref _, _ | .taken _, _
  | .keepOut, _ | .resume, _ | .around _ _ _, _ | .atomic _, _ | .conditional _ _ _, _ =>
    fun g hg => absurd hg List.not_mem_nil

theorem AllNumbered.groupsOf {n : Nat} :
    (es : List Expr) → AllNumbered n es → ∀ g ∈ groupsOf es, 0 < g ∧ g ≤ n
  | [], _ => fun g hg => absurd hg List.not_mem_nil
  | e :: es, h => fun g hg => by
    cases List.mem_append.mp hg with
    | inl hm => exact Numbered.groups e h.1 g hm
    | inr hm => exact AllNumbered.groupsOf es h.2 g hm

end

theorem AllNumbered.take {n : Nat} {es : List Expr} (h : AllNumbered n es) (k : Nat) :
    AllNumbered n (es.take k) :=
  allNumbered_iff.mpr fun e he => allNumbered_iff.mp h e (List.mem_of_mem_take he)

theorem AllNumbered.drop {n : Nat} {es : List Expr} (h : AllNumbered n es) (k : Nat) :
    AllNumbered n (es.drop k) :=
  allNumbered_iff.mpr fun e he => allNumbered_iff.mp h e (List.mem_of_mem_drop he)

theorem numbered_sequence {n : Nat} {es : List Expr} (h : ∀ e ∈ es, e.Numbered n) :
    (sequence es).Numbered n := by
  unfold sequence
  split
  · trivial
  · exact h _ List.mem_cons_self
  · exact allNumbered_iff.mpr h

end Expr

open TypeQuery.Pattern.Backtracking.Expr

/-! ## readers -/

/-- Started with at least `m` groups, the reader keeps or opens groups, and `P` holds of their number
and of its answer. -/
def Opens {α : Type} (m : Nat) (r : Reader α) (P : Nat → α → Prop) : Prop :=
  ∀ s a s', m ≤ s.groups → r.run s = some (a, s') → s.groups ≤ s'.groups ∧ P s'.groups a

/-- A reader that keeps or opens groups, whatever it answers. -/
abbrev Keeps {α : Type} (r : Reader α) : Prop :=
  Opens 0 r fun _ _ => True

namespace Opens

variable {α β : Type} {m : Nat} {P : Nat → α → Prop} {Q : Nat → β → Prop}

theorem pure {a : α} (h : ∀ n, m ≤ n → P n a) : Opens m (Pure.pure a) P := by
  intro s b s' hm hr
  obtain ⟨rfl, rfl⟩ := Prod.mk.inj (Option.some.inj hr)
  exact ⟨Nat.le_refl _, h _ hm⟩

theorem refuse : Opens m (Backtracking.refuse : Reader α) P := by
  intro s a s' _ hr
  exact absurd hr (by simp [Backtracking.refuse])

theorem bind {r : Reader α} {f : α → Reader β} (hr : Opens m r P)
    (hf : ∀ n a, m ≤ n → P n a → Opens n (f a) Q) : Opens m (r >>= f) Q := by
  intro s b s'' hm h
  rw [StateT.run_bind] at h
  obtain ⟨⟨a, s'⟩, hra, hfa⟩ := Option.bind_eq_some_iff.mp h
  obtain ⟨hle, ha⟩ := hr s a s' hm hra
  obtain ⟨hle', hb⟩ := hf s'.groups a (by omega) ha s' b s'' (Nat.le_refl _) hfa
  exact ⟨by omega, hb⟩

theorem mono {n : Nat} {r : Reader α} (hr : Opens m r P) (hmn : m ≤ n) : Opens n r P :=
  fun s a s' hn => hr s a s' (by omega)

/-- The step that goes on after a reader of which nothing needs to be known. -/
theorem after {r : Reader α} {f : α → Reader β} (hr : Keeps r) (hf : ∀ a, Opens m (f a) Q) :
    Opens m (r >>= f) Q := by
  refine bind (hr.mono (Nat.zero_le m)) fun n a hn _ => ?_
  exact (hf a).mono hn

/-- The step that goes on after a reader that opens no group. -/
theorem calmly {r : Reader α} {f : α → Reader β} (hr : Calm r) (hf : ∀ a, Opens m (f a) Q) :
    Opens m (r >>= f) Q :=
  after (fun s a s' _ h => ⟨Nat.le_of_eq (hr.groups s a s' h).symm, trivial⟩) hf

/-- One step or another, as a mark is there or not. -/
theorem marked {text : String} {yes no : Reader α} (hyes : Opens m yes P) (hno : Opens m no P) :
    Opens m (do if ← accept text then yes else no) P := by
  refine .calmly (calm_accept text) fun found => ?_
  split
  · exact hyes
  · exact hno

theorem get : Keeps (MonadState.get : Reader State) := by
  intro s a s' _ hr
  obtain ⟨rfl, rfl⟩ := Prod.mk.inj (Option.some.inj hr)
  exact ⟨Nat.le_refl _, trivial⟩

/-- Changes of the state that leave the groups alone. -/
theorem modified {f : State → State} (hf : ∀ s, (f s).groups = s.groups) :
    Keeps (modify f : Reader Unit) := by
  intro s a s' _ hr
  obtain ⟨rfl, rfl⟩ := Prod.mk.inj (Option.some.inj hr)
  exact ⟨Nat.le_of_eq (hf s).symm, trivial⟩

end Opens

/-! ## references -/

theorem opens_refer (index : Nat) : Opens 0 (refer index) Numbered := by
  refine .after .get fun s => ?_
  split
  · exact .pure fun _ _ => trivial
  · exact .refuse

theorem opens_numberedRef : Opens 0 numberedRef Numbered := by
  refine .calmly calm_decimal? fun n => ?_
  split
  · refine .after .get fun s => ?_
    split
    · exact .after (.modified fun _ => rfl) fun _ => opens_refer _
    · exact .refuse
  · exact .refuse

theorem opens_namedRef (opening closing : String) (signed : Bool) :
    Opens 0 (namedRef opening closing signed) Numbered := by
  refine .calmly (calm_name opening closing signed) fun id => .after .get fun s => ?_
  split
  · exact opens_refer _
  · extract_lets back
    split
    · exact opens_refer _
    · exact .refuse
  · split
    · exact opens_refer _
    · exact .refuse

/-! ## escapes and classes -/

/-- What an escape stands for has no groups with other numbers. -/
def Escaped.Numbered (n : Nat) : Escaped → Prop
  | .other e => e.Numbered n
  | _ => True

theorem opens_escape (inClass : Bool) : Opens 0 (escape inClass) Escaped.Numbered := by
  have hpure : ∀ x : Escaped, (∀ n, x.Numbered n) → Opens 0 (pure x : Reader Escaped)
      Escaped.Numbered := fun x hx => .pure fun n _ => hx n
  have hother : ∀ {r : Reader Expr}, Opens 0 r Numbered →
      Opens 0 (r >>= fun e => pure (.other e)) Escaped.Numbered := fun hr =>
    .bind hr fun n e _ he => .pure fun k hk => Numbered.mono hk e he
  have hcode : ∀ digits, Opens 0 (hexChar digits >>= fun c => pure (.code c)) Escaped.Numbered :=
    fun digits => .calmly (calm_hexChar digits) fun _ => .pure fun _ _ => trivial
  refine .calmly calm_here fun c => ?_
  split
  · exact hother opens_numberedRef
  · refine .calmly (calm_drop 1) fun _ => ?_
    split
    case h_16 | h_17 | h_18 => exact hcode _
    case h_19 =>
      split
      · split
        · exact hpure _ fun _ => trivial
        · split
          · exact hpure _ fun _ => trivial
          · split
            · exact .refuse
            · exact hpure _ fun _ => trivial
      · split
        case h_1 =>
          refine .calmly calm_peek fun _ => ?_
          split
          · exact hother (opens_namedRef "'" "'" true)
          · exact hother (opens_namedRef "<" ">" true)
        case h_4 | h_5 =>
          refine .calmly calm_peek fun _ => ?_
          split
          · exact .refuse
          · exact hpure _ fun _ => trivial
        case h_10 =>
          split
          · exact .refuse
          · exact hpure _ fun _ => trivial
        all_goals exact hpure _ fun _ => trivial
    all_goals exact hpure _ fun _ => trivial

theorem keeps_classText (fuel nesting : Nat) (text : List Char) :
    Keeps (classText fuel nesting text) := by
  induction fuel generalizing nesting text with
  | zero => exact .refuse
  | succ fuel ih =>
      refine .calmly calm_here fun c => .calmly (calm_drop 1) fun _ => ?_
      split
      · refine .bind (opens_escape true) fun n x _ _ => ?_
        split
        · exact (ih _ _).mono (Nat.zero_le n)
        · exact (ih _ _).mono (Nat.zero_le n)
        · exact (ih _ _).mono (Nat.zero_le n)
        · exact .refuse
      · exact ih _ _
      · split
        · exact .pure fun _ _ => trivial
        · exact ih _ _
      · exact ih _ _

theorem opens_bracketClass : Opens 0 bracketClass Numbered := by
  refine .calmly (calm_drop 1) fun _ => .calmly (calm_accept "^") fun _ => ?_
  refine .calmly (calm_accept "]") fun _ => .after .get fun s => ?_
  refine .after (keeps_classText _ _ _) fun text => .after .get fun s => ?_
  extract_lets ignoreCase
  clear_value ignoreCase
  split
  · exact .pure fun _ _ => trivial
  · exact .refuse

/-! ## groups -/

/-- The number of a group that is opened is the number of groups then. -/
theorem opens_openGroup (name? : Option String) :
    Opens 0 (openGroup name?) fun n index => 0 < index ∧ index ≤ n := by
  intro s index s' _ hr
  obtain ⟨rfl, rfl⟩ := Prod.mk.inj (Option.some.inj hr)
  exact ⟨Nat.le_succ _, Nat.succ_pos _, Nat.le_refl _⟩

theorem opens_enclosed {m : Nat} {body : Reader Expr} {wrap : Expr → Expr}
    (hbody : Opens m body Numbered)
    (hwrap : ∀ n e, m ≤ n → e.Numbered n → (wrap e).Numbered n) :
    Opens m (enclosed body wrap) Numbered := by
  refine .bind hbody fun n e hn he => .calmly calm_close fun _ => .pure fun k hk => ?_
  exact hwrap k e (by omega) (Numbered.mono hk e he)

/-- The group that was opened last and what is read into it. -/
theorem opens_enclosed_group {m index : Nat} {body : Reader Expr} (hbody : Opens 0 body Numbered)
    (hindex : 0 < index ∧ index ≤ m) : Opens m (enclosed body (.group index)) Numbered :=
  opens_enclosed (hbody.mono (Nat.zero_le m)) fun _ _ hn he =>
    ⟨⟨hindex.1, Nat.le_trans hindex.2 hn⟩, he⟩

theorem opens_namedGroup {body : Reader Expr} (hbody : Opens 0 body Numbered) :
    Opens 0 (namedGroup body) Numbered := by
  refine .calmly (calm_name "" ">" false) fun id => ?_
  exact .bind (opens_openGroup (some id)) fun n index _ h => opens_enclosed_group hbody h

theorem opens_flagGroup {body : Reader Expr} (hbody : Opens 0 body Numbered) :
    Opens 0 (flagGroup body) Numbered := by
  refine .after .get fun s => .after .get fun s' => ?_
  refine .calmly (calm_flagLetters _ _ false) fun colon => ?_
  split
  · refine .bind hbody fun n e _ he => .calmly calm_here fun c => ?_
    extract_lets rest
    have hrest : ∀ u, Opens n (rest u) Numbered := fun _ => by
      refine .calmly (calm_drop 1) fun _ => .after (.modified fun _ => rfl) fun _ => ?_
      exact .pure fun k hk => Numbered.mono hk e he
    split
    · exact .after .refuse hrest
    · exact hrest ()
  · exact .pure fun _ _ => trivial

theorem opens_condition {body : Reader Expr} (hbody : Opens 0 body Numbered) :
    Opens 0 (condition body) Numbered := by
  refine .calmly calm_here fun c => ?_
  extract_lets rest
  have hrest : ∀ n c, c.Numbered n → Opens n (rest c) Numbered := fun n c hc => by
    refine .calmly calm_close fun _ => .after .get fun s => ?_
    refine .bind (hbody.mono (Nat.zero_le n)) fun k branches hk hbranches => ?_
    refine .after .get fun s' => .calmly calm_close fun _ => ?_
    extract_lets test
    have htest : ∀ j, k ≤ j → test.Numbered j := fun j hj => by
      dsimp only [test]
      split
      · trivial
      · exact Numbered.mono (Nat.le_trans hk hj) c hc
    clear_value test
    split
    · split
      · exact .pure htest
      · exact .refuse
    · split
      next yes no heq =>
      have hparts : yes.Numbered k ∧ no.Numbered k := by
        split at heq
        · obtain ⟨rfl, rfl⟩ := Prod.mk.inj heq
          exact ⟨hbranches.1, hbranches.2.1⟩
        · obtain ⟨rfl, rfl⟩ := Prod.mk.inj heq
          exact ⟨hbranches.1, hbranches.2⟩
        · obtain ⟨rfl, rfl⟩ := Prod.mk.inj heq
          exact ⟨hbranches, trivial⟩
      split
      · exact .pure htest
      · exact .pure fun j hj => ⟨htest j hj, Numbered.mono hj yes hparts.1,
          Numbered.mono hj no hparts.2⟩
  split
  · exact .bind (opens_namedRef _ _ _) fun n c _ => hrest n c
  · exact .bind (opens_namedRef _ _ _) fun n c _ => hrest n c
  · split
    · exact .bind opens_numberedRef fun n c _ => hrest n c
    · exact .bind hbody fun n c _ => hrest n c

theorem opens_group {body : Reader Expr} (hbody : Opens 0 body Numbered) :
    Opens 0 (group body) Numbered := by
  have henclosed : ∀ {wrap : Expr → Expr}, (∀ n e, e.Numbered n → (wrap e).Numbered n) →
      Opens 0 (enclosed body wrap) Numbered := fun hwrap =>
    opens_enclosed hbody fun n e _ => hwrap n e
  unfold group
  refine .calmly (calm_drop 1) fun _ => .calmly calm_skipIgnored fun _ => ?_
  refine .marked (henclosed fun _ _ he => he) ?_
  refine .marked (henclosed fun _ _ he => he) ?_
  refine .marked (henclosed fun _ _ he => he) ?_
  refine .marked (henclosed fun _ _ he => he) ?_
  refine .marked (opens_namedGroup hbody) ?_
  refine .marked (opens_namedGroup hbody) ?_
  refine .marked (opens_namedRef _ _ _) ?_
  refine .marked (henclosed fun _ _ he => he) ?_
  refine .marked (opens_condition hbody) ?_
  refine .marked (opens_flagGroup hbody) ?_
  exact .bind (opens_openGroup none) fun n index _ h => opens_enclosed_group hbody h

/-! ## pieces and branches -/

theorem opens_atom {groups : Reader Expr} (hgroups : Opens 0 groups Numbered) :
    Opens 0 (atom groups) Numbered := by
  refine .calmly calm_skipIgnored fun _ => .after .get fun s => .calmly calm_peek fun c => ?_
  split
  · exact .pure fun _ _ => trivial
  · split
    case h_1 => exact hgroups
    case h_2 => exact opens_bracketClass
    case h_8 =>
      refine .calmly (calm_drop 1) fun _ => .bind (opens_escape false) fun n x _ hx => ?_
      split
      · exact .pure fun _ _ => trivial
      · exact .pure fun _ _ => trivial
      · exact .pure fun _ _ => trivial
      · exact .pure fun k hk => Numbered.mono hk _ hx
    case h_9 | h_10 | h_11 | h_12 =>
      exact .calmly (calm_drop 1) fun _ => .pure fun _ _ => trivial
    all_goals exact .pure fun _ _ => trivial

theorem opens_piece {groups : Reader Expr} (hgroups : Opens 0 groups Numbered) :
    Opens 0 (piece groups) Numbered := by
  refine .bind (opens_atom hgroups) fun n e _ he => .calmly calm_skipIgnored fun _ => ?_
  refine .calmly calm_repetition? fun r => ?_
  split
  · exact .pure fun k hk => Numbered.mono hk e he
  · extract_lets rest
    have hrest : ∀ u, Opens n (rest u) Numbered := fun _ => by
      refine .calmly calm_skipIgnored fun _ => .calmly (calm_accept "?") fun _ => ?_
      refine .after .get fun s => .calmly (calm_accept "+") fun _ => ?_
      split
      · exact .pure fun k hk => Numbered.mono hk e he
      · exact .pure fun k hk => Numbered.mono hk e he
    split
    · exact .after .refuse hrest
    · exact hrest ()

/-- Pieces are added to those that were read before. -/
theorem opens_branch {groups : Reader Expr} (hgroups : Opens 0 groups Numbered) (fuel m : Nat)
    (read : List Expr) (hread : ∀ e ∈ read, e.Numbered m) :
    Opens m (branch groups fuel read) Numbered := by
  induction fuel generalizing m read with
  | zero => exact .refuse
  | succ fuel ih =>
      have hdone : ∀ n, m ≤ n → (sequence read.reverse).Numbered n := fun n hn =>
        numbered_sequence fun e he => Numbered.mono hn e (hread e (List.mem_reverse.mp he))
      refine .after .get fun s => ?_
      extract_lets before
      split
      · exact .pure hdone
      · refine .bind ((opens_piece hgroups).mono (Nat.zero_le m)) fun n e hn he => ?_
        refine .after .get fun s' => ?_
        split
        · exact .pure fun k hk => hdone k (by omega)
        · refine ih n _ fun e' he' => ?_
          split at he'
          · exact Numbered.mono hn e' (hread e' he')
          · cases List.mem_cons.mp he' with
            | inl heq => exact heq ▸ he
            | inr hm => exact Numbered.mono hn e' (hread e' hm)

theorem opens_branch_nil {groups : Reader Expr} (hgroups : Opens 0 groups Numbered)
    (fuel m : Nat) : Opens m (branch groups fuel []) Numbered :=
  opens_branch hgroups fuel m [] fun _ he => absurd he List.not_mem_nil

theorem opens_moreBranches {groups : Reader Expr} (hgroups : Opens 0 groups Numbered)
    (fuel m : Nat) (read : List Expr) (hread : ∀ e ∈ read, e.Numbered m) :
    Opens m (moreBranches groups fuel read) Numbered := by
  induction fuel generalizing m read with
  | zero => exact .refuse
  | succ fuel ih =>
      refine .calmly calm_skipIgnored fun _ => .calmly (calm_accept "|") fun _ => ?_
      split
      · refine .after .get fun s => .bind (opens_branch_nil hgroups _ m) fun n e hn he => ?_
        refine ih n _ fun e' he' => ?_
        cases List.mem_cons.mp he' with
        | inl heq => exact heq ▸ he
        | inr hm => exact Numbered.mono hn e' (hread e' hm)
      · split
        · refine .after .get fun s => ?_
          split
          · exact .refuse
          · exact .pure fun n hn => Numbered.mono hn _ (hread _ List.mem_cons_self)
        · refine .pure fun n hn => allNumbered_iff.mpr fun e he => ?_
          exact Numbered.mono hn e (hread e (List.mem_reverse.mp he))

theorem opens_branches {groups : Reader Expr} (hgroups : Opens 0 groups Numbered) :
    Opens 0 (branches groups) Numbered := by
  refine .after .get fun s => .bind (opens_branch_nil hgroups _ 0) fun n e _ he => ?_
  refine .after .get fun s' => opens_moreBranches hgroups _ n [e] fun e' he' => ?_
  rw [List.mem_singleton] at he'
  exact he' ▸ he

theorem opens_groupBody (nesting : Nat) : Opens 0 (groupBody nesting) Numbered := by
  induction nesting with
  | zero => exact opens_branches .refuse
  | succ nesting ih => exact opens_branches (opens_group ih)

/-! ## whole patterns -/

/-- **Groups are numbered**: every group of a pattern has a number from one to how many there are. -/
theorem numbered_of_parse? {pattern : List Char} {parsed : Parsed}
    (h : parse? pattern = some parsed) : parsed.expr.Numbered parsed.groups := by
  unfold parse? at h
  obtain ⟨⟨e, s⟩, hread, hs⟩ := Option.bind_eq_some_iff.mp h
  dsimp only at hs
  split at hs
  · obtain rfl := Option.some.inj hs
    exact (opens_groupBody nestingLimit _ e s (Nat.zero_le _) hread).2
  · contradiction

end TypeQuery.Pattern.Backtracking
