import TypeQuery.Pattern.Backtracking.Machine

/-!
# TypeQuery.Proofs.Pattern.Backtracking.Ways

The ways through a backtracking program.  Each instruction leads a branch on to
others, without regard to which of them is tried first (`Op.Leads`).  Whatever
the machine does, the branch it is at and those that it has put aside were led
to from where it began, so a match that it finds stands at the end of some way
through the program (`Arrives`).

* `follows_step` — what one step of the machine can do;
* `exists_arrives_of_run` — a match is the result of an end that is arrived at.
-/

namespace TypeQuery.Pattern.Backtracking

/-! ## branches -/

namespace Branch

/-- The content of a slot. -/
def slot (b : Branch) (i : Nat) : Option Nat :=
  b.slots.getD i none

/-- Writes a slot. -/
def write (b : Branch) (i n : Nat) : Branch :=
  { b with slots := b.slots.setIfInBounds i (some n) }

/-- The branch at another instruction. -/
def jump (b : Branch) (pc : Nat) : Branch :=
  { b with pc := pc }

/-- The branch at the next instruction and at another place. -/
def nextAt (b : Branch) (place : Nat) : Branch :=
  { b with pc := b.pc + 1, place := place }

/-- Writes what the given groups have matched. -/
def writeGroups (b : Branch) (found : Array (Option Nat)) (groups : List Nat) : Branch :=
  { b with
    slots := groups.foldl (fun slots g =>
      (slots.setIfInBounds (2 * g) (found.getD (2 * g) none)).setIfInBounds (2 * g + 1)
        (found.getD (2 * g + 1) none)) b.slots }

/-- The result of a match that is complete with this branch. -/
def result (b : Branch) : Outcome :=
  let stop := (b.slot 1).getD b.place
  .found (min ((b.slot 0).getD stop) stop) stop

end Branch

/-- The branch that a machine is at. -/
def Machine.branch (m : Machine) : Branch :=
  ⟨m.pc, m.place, m.slots, m.marks⟩

/-! ## where instructions lead -/

/-- The branches that an instruction leads to. What a loop decides by its counter and a reference by
its group is left open. -/
def Op.Leads (text : Array Char) (b b' : Branch) : Op → Prop
  | .done => False
  | .failAround => False
  | .any _ => b.place < text.size ∧ b' = b.nextAt (b.place + 1)
  | .set _ => b.place < text.size ∧ b' = b.nextAt (b.place + 1)
  | .literal cs =>
    (b.place ≤ text.size → b.place + cs.length ≤ text.size) ∧ b' = b.nextAt (b.place + cs.length)
  | .backref _ =>
    ∃ n, (b.place ≤ text.size → b.place + n ≤ text.size) ∧ b' = b.nextAt (b.place + n)
  | .look _ => b' = b.nextAt b.place
  | .taken _ => b' = b.nextAt b.place
  | .resume => b' = b.nextAt b.place
  | .split first second => b' = b.jump first ∨ b' = b.jump second
  | .jump target => b' = b.jump target
  | .save i => b' = (b.write i b.place).nextAt b.place
  | .reset i => b' = (b.write i 0).nextAt b.place
  | .restore i => b' = b.nextAt ((b.slot i).getD b.place)
  | .round _ _ _ leave counter =>
    b' = b.jump leave ∨
      ∃ n, b' = (b.write counter n).nextAt b.place ∨ b' = (b.write counter n).jump leave
  | .roundOrStop _ _ leave counter began =>
    ∃ n, b' = (b.write counter n).nextAt b.place ∨
      b' = ((b.write counter n).write began b.place).nextAt b.place ∨
      b' = ((b.write counter n).write began b.place).jump leave
  | .goBack n => n ≤ b.place ∧ b' = b.nextAt (b.place - n)
  | .beginAtomic => ∃ marks, b' = { b.nextAt b.place with marks := marks }
  | .endAtomic => ∃ marks, b' = { b.nextAt b.place with marks := marks }
  | .delegate a groups =>
    ∃ found, a.matchAt text (Machine.groupSlots groups) b.place = some found ∧
      b' = (b.writeGroups found.slots groups).nextAt found.stop

/-- The branches that are led to by the instruction that comes next. -/
def Leads (p : Program) (text : Array Char) (b b' : Branch) : Prop :=
  ∃ op, p.code[b.pc]? = some op ∧ op.Leads text b b'

/-- A branch gets to the end `e` of the program in that many steps. -/
inductive Arrives (p : Program) (text : Array Char) (e : Branch) : Nat → Branch → Prop
  | here (h : p.code[e.pc]? = some .done) : Arrives p text e 0 e
  | step {n : Nat} {b b' : Branch} (h : Leads p text b b') (rest : Arrives p text e n b') :
    Arrives p text e (n + 1) b

variable {p : Program} {text : Array Char} {origin : Nat}

/-- A way that is not at its end yet goes on with the instruction that comes next. -/
theorem Arrives.next {e b : Branch} {n pc : Nat} {op : Op} (h : Arrives p text e n b)
    (hpc : b.pc = pc) (hop : p.code[pc]? = some op) (hdone : op ≠ .done) :
    ∃ j b', n = j + 1 ∧ op.Leads text b b' ∧ Arrives p text e j b' := by
  subst hpc
  cases h with
  | here hend =>
      rw [hop] at hend
      exact absurd (Option.some.inj hend) hdone
  | step hleads rest =>
      obtain ⟨op', hop', hl⟩ := hleads
      rw [hop] at hop'
      obtain rfl := Option.some.inj hop'
      exact ⟨_, _, rfl, hl, rest⟩

/-- The end of a program leads nowhere. -/
theorem Arrives.eq_of_done {e b : Branch} {n pc : Nat} (h : Arrives p text e n b) (hpc : b.pc = pc)
    (hdone : p.code[pc]? = some .done) : e = b := by
  subst hpc
  cases h with
  | here => rfl
  | step hleads =>
      obtain ⟨op, hop, hl⟩ := hleads
      rw [hdone] at hop
      obtain rfl := Option.some.inj hop
      exact absurd hl id

/-! ## what a step can do -/

/-- What a step from `m` may come to: the machine is led on or goes back to a way that was put
aside, and what it has put aside it was led to, too; a match is found at the end only. -/
def Follows (p : Program) (text : Array Char) (m : Machine) : Machine.Step → Prop
  | .ok m' =>
    (Leads p text m.branch m'.branch ∨ m'.branch ∈ m.stack) ∧
      ∀ b ∈ m'.stack, Leads p text m.branch b ∨ b ∈ m.stack
  | .error (.found start stop) =>
    p.code[m.pc]? = some .done ∧ m.branch.result = .found start stop
  | .error _ => True

theorem mem_of_mem_pop {stack : Array Branch} {b : Branch} (h : b ∈ stack.pop) : b ∈ stack := by
  rw [← Array.mem_toList_iff, Array.toList_pop] at h
  exact Array.mem_toList_iff.mp ((List.dropLast_subset _) h)

theorem mem_of_mem_take {stack : Array Branch} {n : Nat} {b : Branch} (h : b ∈ stack.take n) :
    b ∈ stack := by
  obtain ⟨i, _, rfl⟩ := Array.mem_extract_iff_getElem.mp h
  exact Array.getElem_mem _

namespace Follows

variable {m : Machine}

/-- Going on with the same stack. -/
theorem goOn {m' : Machine} (hstack : m'.stack = m.stack) (h : Leads p text m.branch m'.branch) :
    Follows p text m (.ok m') :=
  ⟨.inl h, fun _ hb => .inr (hstack ▸ hb)⟩

/-- Going back, whatever was dropped from the stack before. -/
theorem fail {m' : Machine} (hstack : ∀ b ∈ m'.stack, b ∈ m.stack) :
    Follows p text m m'.fail := by
  unfold Machine.fail
  split
  · trivial
  · next b hb =>
    split
    · trivial
    · exact ⟨.inr (hstack b (Array.mem_of_back? hb)),
        fun b' hb' => .inr (hstack b' (mem_of_mem_pop hb'))⟩

theorem fork {m' : Machine} {pc other : Nat} (hstack : m'.stack = m.stack)
    (hpc : Leads p text m.branch (m'.branch.jump pc))
    (hother : Leads p text m.branch (m'.branch.jump other)) :
    Follows p text m (m'.fork pc other) := by
  unfold Machine.fork
  split
  · trivial
  · refine ⟨.inl hpc, fun b hb => ?_⟩
    cases Array.mem_push.mp hb with
    | inl hold => exact .inr (hstack ▸ hold)
    | inr hnew => exact .inl (hnew ▸ hother)

end Follows

/-- Characters that stand in a text end inside of it. -/
theorem le_size_of_standsAt {cs : List Char} {i : Nat} (h : Machine.standsAt text i cs = true)
    (hi : i ≤ text.size) : i + cs.length ≤ text.size := by
  induction cs generalizing i with
  | nil => exact hi
  | cons c cs ih =>
      simp only [Machine.standsAt, Bool.and_eq_true, beq_iff_eq] at h
      have hlt : i < text.size := (Array.getElem?_eq_some_iff.mp h.1).1
      have := ih h.2 hlt
      rw [List.length_cons]
      omega

/-- Dropping ways leaves some of them. -/
theorem mem_of_mem_dropThrough {stack : Array Branch} {pc n : Nat} {b : Branch}
    (h : b ∈ Machine.dropThrough stack pc n) : b ∈ stack := by
  induction n generalizing stack with
  | zero => exact h
  | succ n ih =>
      rw [Machine.dropThrough] at h
      split at h
      · exact h
      · split at h
        · exact mem_of_mem_pop h
        · exact mem_of_mem_pop (ih h)

/-- **Step lemma**: the instruction leads to wherever a step goes on. -/
theorem follows_step (m : Machine) : Follows p text m (Machine.step p text origin m) := by
  unfold Machine.step
  cases hop : p.code[m.pc]? with
  | none => trivial
  | some op =>
      -- what the instruction leads to, the machine is led to
      have hleads : ∀ {b : Branch}, op.Leads text m.branch b → Leads p text m.branch b :=
        fun h => ⟨op, hop, h⟩
      have hfail : Follows p text m m.fail := .fail fun _ hb => hb
      cases op with
      | done => exact ⟨hop, rfl⟩
      | any newline =>
          dsimp only
          split
          · next c hc =>
            split
            · exact .goOn rfl (hleads ⟨(Array.getElem?_eq_some_iff.mp hc).1, rfl⟩)
            · exact hfail
          · exact hfail
      | set s =>
          dsimp only
          split
          · next c hc =>
            split
            · exact .goOn rfl (hleads ⟨(Array.getElem?_eq_some_iff.mp hc).1, rfl⟩)
            · exact hfail
          · exact hfail
      | literal cs =>
          dsimp only
          split
          · next hs => exact .goOn rfl (hleads ⟨le_size_of_standsAt hs, rfl⟩)
          · exact hfail
      | look l =>
          dsimp only
          split
          · exact .goOn rfl (hleads rfl)
          · exact hfail
      | split first second => exact .fork rfl (hleads (.inl rfl)) (hleads (.inr rfl))
      | jump target => exact .goOn rfl (hleads rfl)
      | save i => exact .goOn rfl (hleads rfl)
      | reset i => exact .goOn rfl (hleads rfl)
      | restore i => exact .goOn rfl (hleads rfl)
      | round min max greedy leave counter =>
          dsimp only
          split
          · exact .goOn rfl (hleads (.inl rfl))
          · have hin := hleads (.inr ⟨(m.slot counter).getD 0 + 1, .inl rfl⟩)
            have hout := hleads (.inr ⟨(m.slot counter).getD 0 + 1, .inr rfl⟩)
            unfold Machine.enter
            split
            · exact .goOn rfl hin
            · split
              · exact .fork rfl hin hout
              · exact .fork rfl hout hin
      | roundOrStop min greedy leave counter began =>
          dsimp only
          split
          · exact hfail
          · split
            · exact .goOn rfl (hleads ⟨(m.slot counter).getD 0 + 1, .inl rfl⟩)
            · have hin := hleads ⟨(m.slot counter).getD 0 + 1, .inr (.inl rfl)⟩
              have hout := hleads ⟨(m.slot counter).getD 0 + 1, .inr (.inr rfl)⟩
              unfold Machine.enter
              split
              · contradiction
              · split
                · exact .fork rfl hin hout
                · exact .fork rfl hout hin
      | goBack n =>
          dsimp only
          split
          · next hn => exact .goOn rfl (hleads ⟨hn, rfl⟩)
          · exact hfail
      | failAround => exact .fail fun _ hb => mem_of_mem_dropThrough hb
      | backref group =>
          dsimp only
          split
          · split
            · next hs => exact .goOn rfl (hleads ⟨_, le_size_of_standsAt hs, rfl⟩)
            · exact hfail
          · exact hfail
      | taken group =>
          dsimp only
          split
          · exact .goOn rfl (hleads rfl)
          · exact hfail
      | beginAtomic => exact .goOn rfl (hleads ⟨_, rfl⟩)
      | endAtomic =>
          dsimp only
          split
          · exact .goOn rfl (hleads ⟨_, rfl⟩)
          · exact ⟨.inl (hleads ⟨_, rfl⟩), fun _ hb => .inr (mem_of_mem_take hb)⟩
      | delegate a groups =>
          dsimp only
          split
          · next found hf => exact .goOn rfl (hleads ⟨found, hf, rfl⟩)
          · exact hfail
      | resume =>
          dsimp only
          split
          · exact .goOn rfl (hleads rfl)
          · exact hfail

/-! ## runs -/

/-- **Run lemma**: if all ends that the machine and the ways put aside can arrive at have a
property, then a match is the result of an end with that property. -/
theorem exists_arrives_of_run {P : Branch → Prop} {steps start stop : Nat} {m : Machine}
    (hm : ∀ n e, Arrives p text e n m.branch → P e)
    (hstack : ∀ b ∈ m.stack, ∀ n e, Arrives p text e n b → P e)
    (h : Machine.run p text origin steps m = .found start stop) :
    ∃ e, P e ∧ e.result = .found start stop := by
  induction steps generalizing m with
  | zero => contradiction
  | succ steps ih =>
      have hfollows : Follows p text m (Machine.step p text origin m) := follows_step m
      -- a branch that is led to can arrive at nothing new
      have hled : ∀ b, Leads p text m.branch b ∨ b ∈ m.stack →
          ∀ n e, Arrives p text e n b → P e := by
        intro b hb n e ha
        cases hb with
        | inl hl => exact hm (n + 1) e (.step hl ha)
        | inr hs => exact hstack b hs n e ha
      rw [Machine.run] at h
      cases hstep : Machine.step p text origin m with
      | ok m' =>
          rw [hstep] at h hfollows
          exact ih (hled m'.branch hfollows.1) (fun b hb => hled b (hfollows.2 b hb)) h
      | error o =>
          rw [hstep] at h hfollows
          obtain rfl : o = .found start stop := h
          obtain ⟨hdone, hresult⟩ := hfollows
          exact ⟨m.branch, hm 0 m.branch (.here hdone), hresult⟩

end TypeQuery.Pattern.Backtracking
