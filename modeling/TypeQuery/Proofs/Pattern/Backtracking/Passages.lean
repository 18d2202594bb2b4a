import TypeQuery.Proofs.Pattern.Automaton
import TypeQuery.Proofs.Pattern.Backtracking.Ways

/-!
# TypeQuery.Proofs.Pattern.Backtracking.Passages

Parts of a backtracking program that are entered in one place and left in one
place.  Every way to the end of the program that enters such a part leaves it
again, and what it has done in between is bounded (`Reaches`): it has not moved
back, it has kept what others have in their slots, and if it has marked the
start of the match, then not too far behind the place where it came in.  How far
that may be is a number, or nothing where no mark is set.

* `Passes` — a part of a program with these properties;
* `Passes.trans`, `Passes.step`, `Passes.loop` — parts one after the other,
  choices and loops;
* `Passes.look`, `Passes.lookNot` — looking around, which comes back to the place
  it started from whatever happens inside.
-/

namespace TypeQuery.Pattern.Backtracking

/-! ## distances -/

theorem reach_refl (a : Option Nat) : a ≤ a := by
  cases a <;> simp

theorem reach_trans {a b c : Option Nat} (hab : a ≤ b) (hbc : b ≤ c) : a ≤ c := by
  cases a with
  | none => exact Option.none_le
  | some a =>
      cases b with
      | none => exact absurd hab Option.not_some_le_none
      | some b =>
          cases c with
          | none => exact absurd hbc Option.not_some_le_none
          | some c =>
              rw [Option.some_le_some] at hab hbc ⊢
              exact Nat.le_trans hab hbc

theorem le_max_reach (a b : Option Nat) : a ≤ max a b ∧ b ≤ max a b := by
  cases a with
  | none => cases b <;> simp
  | some a =>
      cases b with
      | none => simp
      | some b =>
          rw [Option.max_some_some, Option.some_le_some, Option.some_le_some]
          exact ⟨Nat.le_max_left a b, Nat.le_max_right a b⟩

/-- A mark at most `d` characters behind a place is at most `d + w` behind one that is `w` characters
further on. -/
theorem reach_shift {place place' v w : Nat} {d : Option Nat} (hplace : place ≤ place' + w)
    (h : some (place' - v) ≤ d) : some (place - v) ≤ d.map (· + w) := by
  cases d with
  | none => exact absurd h Option.not_some_le_none
  | some a =>
      rw [Option.map_some, Option.some_le_some]
      rw [Option.some_le_some] at h
      omega

theorem reach_map_mono {d d' : Option Nat} {w w' : Nat} (hd : d ≤ d') (hw : w ≤ w') :
    d.map (· + w) ≤ d'.map (· + w') := by
  cases d with
  | none => exact Option.none_le
  | some a =>
      cases d' with
      | none => exact absurd hd Option.not_some_le_none
      | some a' =>
          rw [Option.some_le_some] at hd
          rw [Option.map_some, Option.map_some, Option.some_le_some]
          omega

/-! ## slots -/

theorem Branch.slot_write (b : Branch) (i v j : Nat) :
    (b.write i v).slot j = if i = j ∧ i < b.slots.size then some v else b.slot j := by
  unfold Branch.slot Branch.write
  simp only [Array.getD_eq_getD_getElem?, Array.getElem?_setIfInBounds]
  by_cases hij : i = j
  · subst hij
    by_cases hi : i < b.slots.size
    · simp [hi]
    · simp [hi]
  · simp [hij]

theorem Branch.slot_write_of_ne (b : Branch) {i v j : Nat} (h : i ≠ j) :
    (b.write i v).slot j = b.slot j := by
  rw [Branch.slot_write, if_neg fun hij => h hij.1]

@[simp] theorem Branch.size_write (b : Branch) (i v : Nat) :
    (b.write i v).slots.size = b.slots.size :=
  Array.size_setIfInBounds ..

theorem Branch.writeGroups_cons (b : Branch) (found : Array (Option Nat)) (g : Nat)
    (groups : List Nat) : b.writeGroups found (g :: groups) = Branch.writeGroups
      { b with
        slots := (b.slots.setIfInBounds (2 * g) (found.getD (2 * g) none)).setIfInBounds (2 * g + 1)
          (found.getD (2 * g + 1) none) } found groups := rfl

/-- Writing what groups have matched leaves the slots of others alone. -/
theorem Branch.slot_writeGroups (b : Branch) (found : Array (Option Nat)) {groups : List Nat}
    {i : Nat} (hi : ∀ g ∈ groups, 2 * g ≠ i ∧ 2 * g + 1 ≠ i) :
    (b.writeGroups found groups).slot i = b.slot i := by
  induction groups generalizing b with
  | nil => rfl
  | cons g groups ih =>
      obtain ⟨heven, hodd⟩ := hi g List.mem_cons_self
      rw [Branch.writeGroups_cons, ih _ fun g' hg' => hi g' (List.mem_cons_of_mem g hg')]
      simp only [Branch.slot, Array.getD_eq_getD_getElem?]
      rw [Array.getElem?_setIfInBounds_ne hodd, Array.getElem?_setIfInBounds_ne heven]

theorem Branch.size_writeGroups (b : Branch) (found : Array (Option Nat)) (groups : List Nat) :
    (b.writeGroups found groups).slots.size = b.slots.size := by
  induction groups generalizing b with
  | nil => rfl
  | cons g groups ih =>
      rw [Branch.writeGroups_cons, ih, Array.size_setIfInBounds, Array.size_setIfInBounds]

/-! ## what happens between two branches -/

/-- What a way from `b` to `b'` has done in a text of that size. Slots from `base` on that are below
`n` belong to others; a mark for the start of the match is in slot 0. -/
structure Reaches (size base : Nat) (d : Option Nat) (n : Nat) (b b' : Branch) : Prop where
  /-- It has not moved back. -/
  forward : b.place ≤ b'.place
  /-- It has stayed in the text. -/
  inside : b'.place ≤ size
  size_eq : b'.slots.size = b.slots.size
  /-- It has left alone what belongs to others. -/
  kept : ∀ i, base ≤ i → i < n → b'.slot i = b.slot i
  /-- It has set no mark, or one at most `d` characters behind where it came in. -/
  mark : b'.slot 0 = b.slot 0 ∨ ∃ v, b'.slot 0 = some v ∧ some (b.place - v) ≤ d

namespace Reaches

variable {size base n m : Nat} {d d' : Option Nat} {b b' b'' : Branch}

theorem trans (h : Reaches size base d n b b') (h' : Reaches size base d n b' b'') :
    Reaches size base d n b b'' where
  forward := Nat.le_trans h.forward h'.forward
  inside := h'.inside
  size_eq := h'.size_eq.trans h.size_eq
  kept i hbase hn := (h'.kept i hbase hn).trans (h.kept i hbase hn)
  mark := by
    cases h'.mark with
    | inl hsame => rw [hsame]; exact h.mark
    | inr hset =>
        -- the second mark is no farther from the first place, which is not behind the second
        obtain ⟨v, hv, hle⟩ := hset
        have hforward := h.forward
        have hcloser : some (b.place - v) ≤ some (b'.place - v) :=
          Option.some_le_some.mpr (by omega)
        exact .inr ⟨v, hv, reach_trans hcloser hle⟩

theorem weaken (h : Reaches size base d n b b') (hd : d ≤ d') (hn : m ≤ n) :
    Reaches size base d' m b b' where
  forward := h.forward
  inside := h.inside
  size_eq := h.size_eq
  kept i hbase hi := h.kept i hbase (by omega)
  mark := h.mark.imp_right fun ⟨v, hv, hle⟩ => ⟨v, hv, reach_trans hle hd⟩

/-- Moving forward only. -/
theorem move (hle : b.place ≤ b'.place) (hsize : b'.place ≤ size) (hslots : b'.slots = b.slots) :
    Reaches size base d n b b' where
  forward := hle
  inside := hsize
  size_eq := by rw [hslots]
  kept i _ _ := by rw [Branch.slot, hslots, Branch.slot]
  mark := .inl (by rw [Branch.slot, hslots, Branch.slot])

/-- Staying where one is. -/
theorem stay (hsize : b.place ≤ size) (hplace : b'.place = b.place) (hslots : b'.slots = b.slots) :
    Reaches size base d n b b' :=
  move (by omega) (by omega) hslots

/-- Writing a slot that does not belong to others and is not the mark. -/
theorem write {i v : Nat} (hsize : b.place ≤ size) (hi : i < base ∨ n ≤ i) (hzero : i ≠ 0)
    (hplace : b'.place = b.place) (hslots : b'.slots = (b.write i v).slots) :
    Reaches size base d n b b' where
  forward := by omega
  inside := by omega
  size_eq := by rw [hslots, Branch.size_write]
  kept j hbase hj := by
    rw [Branch.slot, hslots, ← Branch.slot, Branch.slot_write_of_ne b (by omega)]
  mark := .inl (by rw [Branch.slot, hslots, ← Branch.slot, Branch.slot_write_of_ne b hzero])

end Reaches

/-! ## passages -/

/-- Every way to the end from instruction `pc` comes to instruction `exit`, after at least as much
as `Reaches` says. The instructions in between use slots below `n'`. -/
def Passes (p : Program) (text : Array Char) (base : Nat) (d : Option Nat) (n n' pc exit : Nat) :
    Prop :=
  ∀ k e b, b.pc = pc → b.place ≤ text.size → n' ≤ b.slots.size → Arrives p text e k b →
    ∃ j ≤ k, ∃ b', b'.pc = exit ∧ Reaches text.size base d n b b' ∧ Arrives p text e j b'

variable {p : Program} {text : Array Char} {base n n' pc exit : Nat} {d : Option Nat}

namespace Passes

theorem refl : Passes p text base d n n' pc pc := fun k _ b hpc hplace _ ha =>
  ⟨k, Nat.le_refl k, b, hpc, .stay hplace rfl rfl, ha⟩

theorem trans {mid : Nat} (h : Passes p text base d n n' pc mid)
    (h' : Passes p text base d n n' mid exit) : Passes p text base d n n' pc exit := by
  intro k e b hpc hplace hslots ha
  obtain ⟨j, hj, b₁, hpc₁, hr₁, ha₁⟩ := h k e b hpc hplace hslots ha
  obtain ⟨i, hi, b₂, hpc₂, hr₂, ha₂⟩ :=
    h' j e b₁ hpc₁ hr₁.inside (by rw [hr₁.size_eq]; exact hslots) ha₁
  exact ⟨i, by omega, b₂, hpc₂, hr₁.trans hr₂, ha₂⟩

theorem weaken {m m' : Nat} {d' : Option Nat} (h : Passes p text base d n n' pc exit)
    (hd : d ≤ d') (hn : m ≤ n) (hn' : n' ≤ m') : Passes p text base d' m m' pc exit := by
  intro k e b hpc hplace hslots ha
  obtain ⟨j, hj, b', hpc', hr, ha'⟩ := h k e b hpc hplace (by omega) ha
  exact ⟨j, hj, b', hpc', hr.weaken hd hn, ha'⟩

/-- Two parts of which the second one uses slots that the first one does not. -/
theorem append {n₁ mid : Nat} (h : Passes p text base d n n₁ pc mid)
    (h' : Passes p text base d n₁ n' mid exit) (hn : n ≤ n₁) (hn' : n₁ ≤ n') :
    Passes p text base d n n' pc exit :=
  (h.weaken (reach_refl d) (Nat.le_refl n) hn').trans
    (h'.weaken (reach_refl d) hn (Nat.le_refl n'))

/-- One instruction, when there is a passage from wherever it leads. -/
theorem step {op : Op} (hop : p.code[pc]? = some op) (hdone : op ≠ .done)
    (h : ∀ b b', b.pc = pc → b.place ≤ text.size → n' ≤ b.slots.size → op.Leads text b b' →
      Reaches text.size base d n b b' ∧ Passes p text base d n n' b'.pc exit) :
    Passes p text base d n n' pc exit := by
  intro k e b hpc hplace hslots ha
  obtain ⟨j, b₁, rfl, hleads, ha₁⟩ := ha.next hpc hop hdone
  obtain ⟨hr, hpass⟩ := h b b₁ hpc hplace hslots hleads
  obtain ⟨i, hi, b₂, hpc₂, hr₂, ha₂⟩ :=
    hpass j e b₁ rfl hr.inside (by rw [hr.size_eq]; exact hslots) ha₁
  exact ⟨i, by omega, b₂, hpc₂, hr.trans hr₂, ha₂⟩

/-- One instruction that leads to the next one only. -/
theorem next {op : Op} (hop : p.code[pc]? = some op) (hdone : op ≠ .done)
    (h : ∀ b b', b.place ≤ text.size → op.Leads text b b' →
      b'.pc = b.pc + 1 ∧ Reaches text.size base d n b b') :
    Passes p text base d n n' pc (pc + 1) := by
  refine step hop hdone fun b b' hpc hplace _ hleads => ?_
  obtain ⟨hpc', hr⟩ := h b b' hplace hleads
  rw [hpc', hpc]
  exact ⟨hr, refl⟩

theorem jump {target : Nat} (hop : p.code[pc]? = some (.jump target))
    (h : Passes p text base d n n' target exit) : Passes p text base d n n' pc exit := by
  refine step hop (by simp) fun b b' _ hplace _ hleads => ?_
  obtain rfl : b' = b.jump target := hleads
  exact ⟨.stay hplace rfl rfl, h⟩

theorem split {first second : Nat} (hop : p.code[pc]? = some (.split first second))
    (hfirst : Passes p text base d n n' first exit)
    (hsecond : Passes p text base d n n' second exit) : Passes p text base d n n' pc exit := by
  refine step hop (by simp) fun b b' _ hplace _ hleads => ?_
  cases hleads with
  | inl h => rw [h]; exact ⟨.stay hplace rfl rfl, hfirst⟩
  | inr h => rw [h]; exact ⟨.stay hplace rfl rfl, hsecond⟩

/-- **Loops**: an instruction that leads into a body or out, and a body that comes back to it. -/
theorem loop {op : Op} {body : Nat} (hop : p.code[pc]? = some op) (hdone : op ≠ .done)
    (hhead : ∀ b b', b.place ≤ text.size → op.Leads text b b' →
      Reaches text.size base d n b b' ∧ (b.pc = pc → b'.pc = body ∨ b'.pc = exit))
    (hbody : Passes p text base d n n' body pc) : Passes p text base d n n' pc exit := by
  intro k
  induction k using Nat.strongRecOn with
  | ind k ih =>
      intro e b hpc hplace hslots ha
      obtain ⟨j, b₁, rfl, hleads, ha₁⟩ := ha.next hpc hop hdone
      obtain ⟨hr₁, hpcs⟩ := hhead b b₁ hplace hleads
      cases hpcs hpc with
      | inr hout => exact ⟨j, by omega, b₁, hout, hr₁, ha₁⟩
      | inl hin =>
          -- a round takes a step at least, so what follows it is shorter
          have hslots₁ : n' ≤ b₁.slots.size := by rw [hr₁.size_eq]; exact hslots
          obtain ⟨i, hi, b₂, hpc₂, hr₂, ha₂⟩ := hbody j e b₁ hin hr₁.inside hslots₁ ha₁
          have hslots₂ : n' ≤ b₂.slots.size := by rw [hr₂.size_eq]; exact hslots₁
          obtain ⟨l, hl, b₃, hpc₃, hr₃, ha₃⟩ :=
            ih i (by omega) e b₂ hpc₂ hr₂.inside hslots₂ ha₂
          exact ⟨l, by omega, b₃, hpc₃, (hr₁.trans hr₂).trans hr₃, ha₃⟩

end Passes

/-! ## single instructions -/

namespace Passes

/-- Reading leads forward, as far as the text goes. -/
theorem read {op : Op} (hop : p.code[pc]? = some op) (hdone : op ≠ .done)
    (h : ∀ b b', op.Leads text b b' →
      ∃ n, (b.place ≤ text.size → b.place + n ≤ text.size) ∧ b' = b.nextAt (b.place + n)) :
    Passes p text base d n n' pc (pc + 1) := by
  refine next hop hdone fun b b' hplace hleads => ?_
  obtain ⟨k, hk, rfl⟩ := h b b' hleads
  exact ⟨rfl, .move (Nat.le_add_right _ _) (hk hplace) rfl⟩

/-- Looking at a place or at a group leads to the next instruction. -/
theorem test {op : Op} (hop : p.code[pc]? = some op) (hdone : op ≠ .done)
    (h : ∀ b b', op.Leads text b b' → b' = b.nextAt b.place) :
    Passes p text base d n n' pc (pc + 1) :=
  read hop hdone fun b b' hleads => ⟨0, id, h b b' hleads⟩

/-- Entering or leaving what is never entered again. -/
theorem atomic {op : Op} (hop : p.code[pc]? = some op)
    (hop' : op = .beginAtomic ∨ op = .endAtomic) : Passes p text base d n n' pc (pc + 1) := by
  refine next hop (by rintro rfl; simp at hop') fun b b' hplace hleads => ?_
  obtain ⟨marks, rfl⟩ : ∃ marks, b' = { b.nextAt b.place with marks := marks } := by
    cases hop' with
    | inl h => rw [h] at hleads; exact hleads
    | inr h => rw [h] at hleads; exact hleads
  exact ⟨rfl, .stay hplace rfl rfl⟩

/-- Noting an end of a group. -/
theorem save {slot : Nat} (hop : p.code[pc]? = some (.save slot)) (hzero : slot ≠ 0)
    (hslot : slot < base) : Passes p text base d n n' pc (pc + 1) := by
  refine next hop (by simp) fun b b' hplace hleads => ?_
  obtain rfl : b' = (b.write slot b.place).nextAt b.place := hleads
  exact ⟨rfl, .write hplace (.inl hslot) hzero rfl rfl⟩

/-- Marking the start of the match where one is. -/
theorem saveStart (hop : p.code[pc]? = some (.save 0)) (hbase : 0 < base) :
    Passes p text base (some 0) n n' pc (pc + 1) := by
  refine next hop (by simp) fun b b' hplace hleads => ?_
  obtain rfl : b' = (b.write 0 b.place).nextAt b.place := hleads
  refine ⟨rfl, Nat.le_refl _, hplace, Branch.size_write b 0 b.place, fun i hi _ => ?_, ?_⟩
  · exact Branch.slot_write_of_ne b (by omega)
  · have hslot := Branch.slot_write b 0 b.place 0
    by_cases hsize : 0 < b.slots.size
    · rw [if_pos ⟨rfl, hsize⟩] at hslot
      exact .inr ⟨b.place, hslot, by simp⟩
    · rw [if_neg fun h => hsize h.2] at hslot
      exact .inl hslot

/-- Leaving a part to an automaton, with groups whose slots do not belong to others. -/
theorem delegate {a : Automaton} {groups : List Nat}
    (hop : p.code[pc]? = some (.delegate a groups))
    (hgroups : ∀ g ∈ groups, 0 < g ∧ 2 * g + 1 < base) : Passes p text base d n n' pc (pc + 1) := by
  refine next hop (by simp) fun b b' hplace hleads => ?_
  obtain ⟨found, hfound, rfl⟩ := hleads
  obtain ⟨hforward, hinside⟩ := Automaton.matchAt_within hplace hfound
  refine ⟨rfl, hforward, hinside, Branch.size_writeGroups .., fun i hi _ => ?_, .inl ?_⟩
  · refine Branch.slot_writeGroups b _ fun g hg => ?_
    have := hgroups g hg
    omega
  · refine Branch.slot_writeGroups b _ fun g hg => ?_
    have := hgroups g hg
    omega

end Passes

/-! ## looking around -/

/-- From instruction `pc` every way comes to instruction `body` at a place at most `w` characters
behind, with nothing else changed. -/
def StepsBack (p : Program) (text : Array Char) (w pc body : Nat) : Prop :=
  ∀ k e b, b.pc = pc → Arrives p text e k b → ∃ j ≤ k, ∃ place, place ≤ b.place ∧
    b.place ≤ place + w ∧ Arrives p text e j { b with pc := body, place := place }

theorem stepsBack_zero : StepsBack p text 0 pc pc := fun k _ b hpc ha =>
  ⟨k, Nat.le_refl k, b.place, Nat.le_refl _, Nat.le_refl _, hpc ▸ ha⟩

theorem stepsBack_goBack {w : Nat} (hop : p.code[pc]? = some (.goBack w)) :
    StepsBack p text w pc (pc + 1) := by
  intro k e b hpc ha
  obtain ⟨j, b', rfl, ⟨hle, rfl⟩, ha'⟩ := ha.next hpc hop (by simp)
  rw [Branch.nextAt, hpc] at ha'
  exact ⟨j, by omega, b.place - w, by omega, by omega, ha'⟩

namespace Passes

/-- **Looking around** comes back to the place that it has noted, so the place has not changed; a
mark that was set while looking behind stays. -/
theorem look {slot w body : Nat} (hsave : p.code[pc]? = some (.save slot))
    (hback : StepsBack p text w (pc + 1) body)
    (hbody : Passes p text base d (slot + 1) n' body exit)
    (hrestore : p.code[exit]? = some (.restore slot)) (hbase : 0 < base) (hslot : base ≤ slot)
    (hlt : slot < n') : Passes p text base (d.map (· + w)) slot n' pc (exit + 1) := by
  intro k e b hpc hplace hslots ha
  obtain ⟨k₁, b₁, rfl, rfl, ha₁⟩ := ha.next hpc hsave (by simp)
  obtain ⟨k₂, hk₂, place, hle, hw, ha₂⟩ := hback k₁ e _ (by rw [Branch.nextAt, ← hpc]; rfl) ha₁
  have hle' : place ≤ b.place := hle
  obtain ⟨k₃, hk₃, b₃, hpc₃, hr, ha₃⟩ :=
    hbody k₂ e _ rfl (Nat.le_trans hle' hplace) (Nat.le_trans hslots (by simp [Branch.nextAt])) ha₂
  obtain ⟨k₄, b₄, rfl, rfl, ha₄⟩ := ha₃.next hpc₃ hrestore (by simp)
  -- other slots are those from before, and the body has left alone the one with the place
  have hkept : ∀ i, base ≤ i → i < slot + 1 → b₃.slot i = (b.write slot b.place).slot i := hr.kept
  have hnoted : b₃.slot slot = some b.place := by
    rw [hkept slot hslot (by omega), Branch.slot_write, if_pos ⟨rfl, by omega⟩]
  rw [hnoted] at ha₄
  refine ⟨k₄, by omega, b₃.nextAt b.place, by rw [Branch.nextAt, hpc₃], ?_, ha₄⟩
  constructor
  · exact Nat.le_refl b.place
  · exact hplace
  · exact hr.size_eq.trans (Branch.size_write b slot b.place)
  · intro i hi hlt
    exact (hkept i hi (by omega)).trans (Branch.slot_write_of_ne b (by omega))
  · cases hr.mark with
    | inl hsame => exact .inl (hsame.trans (Branch.slot_write_of_ne b (by omega)))
    | inr hset =>
        obtain ⟨v, hv, hreach⟩ := hset
        exact .inr ⟨v, hv, reach_shift hw hreach⟩

/-- **Looking for what must not be there** goes on from where it began and only if the body leads
nowhere, so nothing that happens in the body is left. -/
theorem lookNot {w body mid : Nat} {d' : Option Nat}
    (hsplit : p.code[pc]? = some (.split (pc + 1) exit))
    (hback : StepsBack p text w (pc + 1) body) (hbody : Passes p text base d' n n' body mid)
    (hfail : p.code[mid]? = some .failAround) : Passes p text base d n n' pc exit := by
  intro k e b hpc hplace hslots ha
  obtain ⟨k₁, b₁, rfl, hleads, ha₁⟩ := ha.next hpc hsplit (by simp)
  cases hleads with
  | inr hout =>
      rw [hout] at ha₁
      exact ⟨k₁, by omega, b.jump exit, rfl, .stay hplace rfl rfl, ha₁⟩
  | inl hin =>
      rw [hin] at ha₁
      obtain ⟨k₂, hk₂, place, hle, -, ha₂⟩ := hback k₁ e _ rfl ha₁
      have hle' : place ≤ b.place := hle
      obtain ⟨k₃, hk₃, b₃, hpc₃, -, ha₃⟩ :=
        hbody k₂ e { b with pc := body, place := place } rfl (Nat.le_trans hle' hplace) hslots ha₂
      obtain ⟨_, _, _, hfalse, _⟩ := ha₃.next hpc₃ hfail (by simp)
      exact absurd hfalse id

end Passes

end TypeQuery.Pattern.Backtracking
