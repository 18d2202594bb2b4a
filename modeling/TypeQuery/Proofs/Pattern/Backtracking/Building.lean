import TypeQuery.Proofs.Pattern.Backtracking.Groups
import TypeQuery.Proofs.Pattern.Backtracking.Passages

/-!
# TypeQuery.Proofs.Pattern.Backtracking.Building

Putting instructions together.  Code that is built for a place is `Sound` when
the instructions are a passage wherever they stand in a program, and use slots
that nothing else uses.  Every way of putting code together keeps this: lists of
code one after the other and choices between them, loops, looking around, groups
and conditions; so does what is left to an automaton, as long as its groups are
numbered (`Sound.delegate`).
-/

namespace TypeQuery.Pattern.Backtracking

/-! ## instructions in a program -/

/-- The instructions stand in the program from place `pc` on. -/
def CodeAt (p : Program) (pc : Nat) (ops : List Op) : Prop :=
  ∀ i op, ops[i]? = some op → p.code[pc + i]? = some op

variable {p : Program} {text : Array Char} {base n n' pc exit : Nat} {d : Option Nat}

theorem CodeAt.cons {op : Op} {ops : List Op} (h : CodeAt p pc (op :: ops)) :
    p.code[pc]? = some op ∧ CodeAt p (pc + 1) ops := by
  refine ⟨h 0 op rfl, fun i op' hi => ?_⟩
  have := h (i + 1) op' hi
  rwa [show pc + (i + 1) = pc + 1 + i by omega] at this

theorem CodeAt.at {ops : List Op} {pc' : Nat} (h : CodeAt p pc ops) (hpc : pc = pc') :
    CodeAt p pc' ops :=
  hpc ▸ h

theorem CodeAt.append {xs ys : List Op} (h : CodeAt p pc (xs ++ ys)) :
    CodeAt p pc xs ∧ CodeAt p (pc + xs.length) ys := by
  refine ⟨fun i op hi => h i op ?_, fun i op hi => ?_⟩
  · have hlt := (List.getElem?_eq_some_iff.mp hi).1
    rw [List.getElem?_append_left hlt]
    exact hi
  · have := h (xs.length + i) op (by rw [List.getElem?_append_right (by omega)]; simpa using hi)
    rwa [← Nat.add_assoc] at this

/-! ## instructions of loops -/

namespace Passes

theorem splitFor {greedy : Bool} {body next : Nat}
    (hop : p.code[pc]? = some (Program.splitFor greedy body next))
    (hbody : Passes p text base d n n' body exit) (hnext : Passes p text base d n n' next exit) :
    Passes p text base d n n' pc exit := by
  cases greedy with
  | true => exact .split hop hbody hnext
  | false => exact .split hop hnext hbody

/-- A loop that begins with a split between a round and what follows. -/
theorem splitFor_loop {greedy : Bool} {body : Nat}
    (hop : p.code[pc]? = some (Program.splitFor greedy body exit))
    (hbody : Passes p text base d n n' body pc) : Passes p text base d n n' pc exit := by
  refine .loop hop (by cases greedy <;> simp [Program.splitFor]) (fun b b' hplace hleads => ?_) hbody
  obtain rfl | rfl : b' = b.jump body ∨ b' = b.jump exit := by
    cases greedy with
    | true => exact hleads
    | false => exact hleads.symm
  · exact ⟨.stay hplace rfl rfl, fun _ => .inl rfl⟩
  · exact ⟨.stay hplace rfl rfl, fun _ => .inr rfl⟩

theorem reset {slot : Nat} (hop : p.code[pc]? = some (.reset slot)) (hzero : slot ≠ 0)
    (hslot : n ≤ slot) : Passes p text base d n n' pc (pc + 1) := by
  refine .next hop (by simp) fun b b' hplace hleads => ?_
  obtain rfl : b' = (b.write slot 0).nextAt b.place := hleads
  exact ⟨rfl, .write hplace (.inr hslot) hzero rfl rfl⟩

/-- A loop that counts its rounds: the counter is reset, and each round begins with the same
instruction, which leads into the round or out. -/
theorem rounds {head : Op} {code : List Op} {counter : Nat}
    (hat : CodeAt p pc ([Op.reset counter, head] ++ code ++ [Op.jump (pc + 1)])) (hzero : counter ≠ 0)
    (hcounter : n ≤ counter) (hdone : head ≠ .done)
    (hhead : ∀ b b', b.place ≤ text.size → head.Leads text b b' →
      Reaches text.size base d n b b' ∧ (b'.pc = b.pc + 1 ∨ b'.pc = pc + 2 + code.length + 1))
    (hbody : Passes p text base d n n' (pc + 2) (pc + 2 + code.length)) :
    Passes p text base d n n' pc
      (pc + ([Op.reset counter, head] ++ code ++ [Op.jump (pc + 1)]).length) := by
  have hlen : pc + ([Op.reset counter, head] ++ code ++ [Op.jump (pc + 1)]).length =
      pc + 2 + code.length + 1 := by
    simp; omega
  have hend : pc + ([Op.reset counter, head] ++ code).length = pc + 2 + code.length := by
    simp; omega
  obtain ⟨hreset, hat'⟩ := hat.append.1.cons
  have hjump := hat.append.2.cons.1
  rw [hend] at hjump
  rw [hlen]
  have hround : Passes p text base d n n' (pc + 2) (pc + 1) := hbody.trans (.jump hjump .refl)
  refine (reset hreset hzero hcounter).trans
    (.loop hat'.cons.1 hdone (fun b b' hplace hleads => ?_) hround)
  obtain ⟨hr, hpc⟩ := hhead b b' hplace hleads
  exact ⟨hr, fun h => hpc.imp_left fun hnext => by omega⟩

end Passes

/-! ## building instructions -/

theorem build_bind {α β : Type} {x : Program.Build α} {f : α → Program.Build β} {b : β}
    (h : (x >>= f).run n = some (b, n')) :
    ∃ a m, x.run n = some (a, m) ∧ (f a).run m = some (b, n') := by
  rw [StateT.run_bind] at h
  obtain ⟨⟨a, m⟩, hx, hf⟩ := Option.bind_eq_some_iff.mp h
  exact ⟨a, m, hx, hf⟩

theorem build_pure {α : Type} {a b : α} (h : (pure a : Program.Build α).run n = some (b, n')) :
    a = b ∧ n = n' :=
  Prod.mk.inj (Option.some.inj h)

/-- A new slot is the first one that is not in use. -/
theorem build_newSlot {slot : Nat} (h : Program.newSlot.run n = some (slot, n')) :
    slot = n ∧ n' = n + 1 := by
  obtain ⟨rfl, rfl⟩ := Prod.mk.inj (Option.some.inj h)
  exact ⟨rfl, rfl⟩

/-- Whatever instructions are built are a passage wherever they stand, and they use none but new
slots and those of the groups. -/
def Sound (p : Program) (text : Array Char) (base : Nat) (d : Option Nat)
    (code : Nat → Program.Build (List Op)) : Prop :=
  ∀ pc n ops n', base ≤ n → (code pc).run n = some (ops, n') →
    n ≤ n' ∧ (CodeAt p pc ops → Passes p text base d n n' pc (pc + ops.length))

namespace Sound

theorem weaken {d' : Option Nat} {code : Nat → Program.Build (List Op)}
    (h : Sound p text base d code) (hd : d ≤ d') : Sound p text base d' code := by
  intro pc n ops n' hn hc
  obtain ⟨hle, hpass⟩ := h pc n ops n' hn hc
  exact ⟨hle, fun hat => (hpass hat).weaken hd (Nat.le_refl n) (Nat.le_refl n')⟩

theorem nil : Sound p text base d fun _ => pure [] := by
  intro pc n ops n' _ hc
  obtain ⟨rfl, rfl⟩ := build_pure hc
  exact ⟨Nat.le_refl n, fun _ => .refl⟩

theorem single {op : Op} (h : ∀ pc n, p.code[pc]? = some op → Passes p text base d n n pc (pc + 1)) :
    Sound p text base d fun _ => pure [op] := by
  intro pc n ops n' _ hc
  obtain ⟨rfl, rfl⟩ := build_pure hc
  exact ⟨Nat.le_refl n, fun hat => h pc n hat.cons.1⟩

theorem append {code code' : Nat → Program.Build (List Op)} (h : Sound p text base d code)
    (h' : Sound p text base d code') :
    Sound p text base d fun pc => do
      let first ← code pc
      return first ++ (← code' (pc + first.length)) := by
  intro pc n ops n' hn hc
  obtain ⟨first, n₁, hfirst, hc⟩ := build_bind hc
  obtain ⟨rest, n₂, hrest, hc⟩ := build_bind hc
  obtain ⟨rfl, rfl⟩ := build_pure hc
  obtain ⟨hle₁, hpass₁⟩ := h pc n first n₁ hn hfirst
  obtain ⟨hle₂, hpass₂⟩ := h' (pc + first.length) n₁ rest n₂ (by omega) hrest
  refine ⟨by omega, fun hat => ?_⟩
  rw [List.length_append, ← Nat.add_assoc]
  exact (hpass₁ hat.append.1).append (hpass₂ hat.append.2) hle₁ hle₂

/-- Lists of instructions one after the other. -/
theorem chain {codes : List (Nat → Program.Build (List Op))}
    (h : ∀ code ∈ codes, Sound p text base d code) :
    Sound p text base d (Program.chain codes) := by
  induction codes with
  | nil => exact nil
  | cons code codes ih =>
      exact append (h code List.mem_cons_self) (ih fun c hm => h c (List.mem_cons_of_mem code hm))

/-- One of several lists of instructions. -/
theorem choose {codes : List (Nat → Program.Build (List Op))}
    (h : ∀ code ∈ codes, Sound p text base d code) :
    Sound p text base d (Program.choose codes) := by
  induction codes with
  | nil => exact nil
  | cons code codes ih =>
      cases codes with
      | nil => exact h code List.mem_cons_self
      | cons code' codes =>
          intro pc n ops n' hn hc
          obtain ⟨first, n₁, hfirst, hc⟩ := build_bind hc
          obtain ⟨rest, n₂, hrest, hc⟩ := build_bind hc
          obtain ⟨rfl, rfl⟩ := build_pure hc
          obtain ⟨hle₁, hpass₁⟩ := h code List.mem_cons_self (pc + 1) n first n₁ hn hfirst
          obtain ⟨hle₂, hpass₂⟩ := ih (fun c hm => h c (List.mem_cons_of_mem code hm))
            (pc + 1 + first.length + 1) n₁ rest n₂ (by omega) hrest
          refine ⟨by omega, fun hat => ?_⟩
          obtain ⟨hsplit, hat⟩ := hat.cons
          obtain ⟨hjump, hat₂⟩ := hat.append.2.cons
          have hlen : pc + (.split (pc + 1) (pc + 1 + first.length + 1) :: first ++
              .jump (pc + 1 + first.length + 1 + rest.length) :: rest : List Op).length =
                pc + 1 + first.length + 1 + rest.length := by
            simp; omega
          rw [hlen]
          refine .split hsplit ?_ ?_
          · exact (hpass₁ hat.append.1).append (.jump hjump .refl) hle₁ hle₂
          · exact (hpass₂ hat₂).weaken (reach_refl d) hle₁ (Nat.le_refl _)

/-! ### loops -/

theorem countedLoop (hbase : 0 < base) {min : Nat} {max : Option Nat} {greedy : Bool}
    {body : Nat → Program.Build (List Op)} (h : Sound p text base d body) :
    Sound p text base d (Program.countedLoop min max greedy body) := by
  intro pc n ops n' hn hc
  obtain ⟨counter, n₁, hslot, hc⟩ := build_bind hc
  obtain ⟨rfl, rfl⟩ := build_newSlot hslot
  obtain ⟨code, n₂, hcode, hc⟩ := build_bind hc
  obtain ⟨rfl, rfl⟩ := build_pure hc
  obtain ⟨hle, hpass⟩ := h (pc + 2) (counter + 1) code n₂ (by omega) hcode
  refine ⟨by omega, fun hat => .rounds hat (by omega) (Nat.le_refl _) (by simp) ?_ ?_⟩
  · intro b b' hplace hleads
    have hwrite : ∀ {b'' : Branch} {k : Nat}, b''.place = b.place →
        b''.slots = (b.write counter k).slots → Reaches text.size base d counter b b'' :=
      .write hplace (.inr (Nat.le_refl _)) (by omega)
    obtain rfl | ⟨k, rfl | rfl⟩ := hleads
    · exact ⟨.stay hplace rfl rfl, .inr rfl⟩
    · exact ⟨hwrite rfl rfl, .inl rfl⟩
    · exact ⟨hwrite rfl rfl, .inr rfl⟩
  · exact (hpass hat.append.1.append.2).weaken (reach_refl d) (by omega) (Nat.le_refl _)

theorem stoppingLoop (hbase : 0 < base) {min : Nat} {greedy : Bool}
    {body : Nat → Program.Build (List Op)} (h : Sound p text base d body) :
    Sound p text base d (Program.stoppingLoop min greedy body) := by
  intro pc n ops n' hn hc
  obtain ⟨counter, n₁, hslot, hc⟩ := build_bind hc
  obtain ⟨rfl, rfl⟩ := build_newSlot hslot
  obtain ⟨began, n₂, hslot, hc⟩ := build_bind hc
  obtain ⟨rfl, rfl⟩ := build_newSlot hslot
  obtain ⟨code, n₃, hcode, hc⟩ := build_bind hc
  obtain ⟨rfl, rfl⟩ := build_pure hc
  obtain ⟨hle, hpass⟩ := h (pc + 2) (counter + 1 + 1) code n₃ (by omega) hcode
  refine ⟨by omega, fun hat => .rounds hat (by omega) (Nat.le_refl _) (by simp) ?_ ?_⟩
  · intro b b' hplace hleads
    obtain ⟨k, hleads⟩ := hleads
    have hcount : Reaches text.size base d counter b (b.write counter k) :=
      .write hplace (.inr (Nat.le_refl _)) (by omega) rfl rfl
    have hbegan : ∀ {b'' : Branch}, b''.place = b.place →
        b''.slots = ((b.write counter k).write (counter + 1) b.place).slots →
        Reaches text.size base d counter b b'' := fun hplace' hslots =>
      hcount.trans (.write hplace (.inr (Nat.le_succ _)) (by omega) hplace' hslots)
    obtain rfl | rfl | rfl := hleads
    · exact ⟨.write hplace (.inr (Nat.le_refl _)) (by omega) rfl rfl, .inl rfl⟩
    · exact ⟨hbegan rfl rfl, .inl rfl⟩
    · exact ⟨hbegan rfl rfl, .inr rfl⟩
  · exact (hpass hat.append.1.append.2).weaken (reach_refl d) (by omega) (Nat.le_refl _)

/-- Whichever way a loop is built, it is a passage if its body is one. -/
theorem loopCode (hbase : 0 < base) {min : Nat} {max : Option Nat} {greedy : Bool} {width : Nat}
    {body : Nat → Program.Build (List Op)} (h : Sound p text base d body) :
    Sound p text base d (Program.loopCode min max greedy width body) := by
  intro pc n ops n' hn hc
  unfold Program.loopCode at hc
  split at hc
  -- at most one round
  · obtain ⟨code, n₁, hcode, hc⟩ := build_bind hc
    obtain ⟨rfl, rfl⟩ := build_pure hc
    obtain ⟨hle, hpass⟩ := h (pc + 1) n code n₁ hn hcode
    refine ⟨hle, fun hat => ?_⟩
    rw [List.length_cons, ← Nat.add_assoc, Nat.add_right_comm]
    exact .splitFor hat.cons.1 (hpass hat.cons.2) .refl
  · exact countedLoop hbase h pc n ops n' hn hc
  · split at hc
    · exact stoppingLoop hbase h pc n ops n' hn hc
    · split at hc
      -- any number of rounds
      · obtain ⟨code, n₁, hcode, hc⟩ := build_bind hc
        obtain ⟨rfl, rfl⟩ := build_pure hc
        obtain ⟨hle, hpass⟩ := h (pc + 1) n code n₁ hn hcode
        refine ⟨hle, fun hat => ?_⟩
        obtain ⟨hsplit, hat⟩ := hat.cons
        have hlen : pc + (Program.splitFor greedy (pc + 1) (pc + 1 + code.length + 1) :: code ++
            [Op.jump pc]).length = pc + 1 + code.length + 1 := by
          simp; omega
        rw [hlen]
        exact .splitFor_loop hsplit
          ((hpass hat.append.1).trans (.jump hat.append.2.cons.1 .refl))
      -- at least one round
      · obtain ⟨code, n₁, hcode, hc⟩ := build_bind hc
        obtain ⟨rfl, rfl⟩ := build_pure hc
        obtain ⟨hle, hpass⟩ := h pc n code n₁ hn hcode
        refine ⟨hle, fun hat => ?_⟩
        have hbody := hpass hat.append.1
        rw [List.length_append, List.length_singleton, ← Nat.add_assoc]
        exact hbody.trans (.splitFor_loop hat.append.2.cons.1 hbody)
      · exact countedLoop hbase h pc n ops n' hn hc

/-! ### looking around -/

/-- The instructions that look behind begin with a step back. -/
theorem stepsBack {back : Option Nat}
    (hat : CodeAt p pc (match back with | some w => [Op.goBack w] | none => [])) :
    StepsBack p text (back.getD 0) pc
      (pc + (match back with | some w => [Op.goBack w] | none => []).length) := by
  cases back with
  | none => exact stepsBack_zero
  | some w => exact stepsBack_goBack hat.cons.1

/-- Looking for what is there. -/
theorem look (hbase : 0 < base) {back : Option Nat} {body : Nat → Program.Build (List Op)}
    (h : Sound p text base d body) :
    Sound p text base (d.map (· + back.getD 0)) (Program.lookCode false back body) := by
  intro pc n ops n' hn hc
  unfold Program.lookCode at hc
  extract_lets step at hc
  have hback : CodeAt p (pc + 1) step →
      StepsBack p text (back.getD 0) (pc + 1) (pc + 1 + step.length) := stepsBack
  clear_value step
  obtain ⟨slot, n₁, hslot, hc⟩ := build_bind hc
  obtain ⟨rfl, rfl⟩ := build_newSlot hslot
  obtain ⟨code, n₂, hcode, hc⟩ := build_bind hc
  obtain ⟨rfl, rfl⟩ := build_pure hc
  obtain ⟨hle, hpass⟩ := h (pc + 1 + step.length) (slot + 1) code n₂ (by omega) hcode
  refine ⟨by omega, fun hat => ?_⟩
  obtain ⟨hsave, hstep⟩ := hat.append.1.append.1.cons
  have hbody := hat.append.1.append.2
  have hrestore := hat.append.2.cons.1
  rw [List.length_cons, Nat.add_comm step.length, ← Nat.add_assoc] at hbody
  have hend : pc + (Op.save slot :: step ++ code).length = pc + 1 + step.length + code.length := by
    simp; omega
  rw [hend] at hrestore
  rw [List.length_append, ← Nat.add_assoc, hend]
  exact .look hsave (hback hstep) (hpass hbody) hrestore hbase hn (by omega)

/-- Looking for what is not there. -/
theorem lookNot {d' : Option Nat} {back : Option Nat} {body : Nat → Program.Build (List Op)}
    (h : Sound p text base d' body) :
    Sound p text base d (Program.lookCode true back body) := by
  intro pc n ops n' hn hc
  unfold Program.lookCode at hc
  extract_lets step at hc
  have hback : CodeAt p (pc + 1) step →
      StepsBack p text (back.getD 0) (pc + 1) (pc + 1 + step.length) := stepsBack
  clear_value step
  obtain ⟨code, n₁, hcode, hc⟩ := build_bind hc
  obtain ⟨rfl, rfl⟩ := build_pure hc
  obtain ⟨hle, hpass⟩ := h (pc + 1 + step.length) n code n₁ hn hcode
  refine ⟨hle, fun hat => ?_⟩
  obtain ⟨hsplit, hstep⟩ := hat.append.1.append.1.cons
  have hbody := hat.append.1.append.2
  have hfail := hat.append.2.cons.1
  rw [List.length_cons, Nat.add_comm step.length, ← Nat.add_assoc] at hbody
  have hend : pc + (Op.split (pc + 1) (pc + 1 + step.length + code.length + 1) :: step ++
      code).length = pc + 1 + step.length + code.length := by
    simp; omega
  rw [hend] at hfail
  rw [List.length_append, ← Nat.add_assoc, hend]
  exact .lookNot hsplit (hback hstep) (hpass hbody) hfail

/-- Looking around leaves a mark if it looks for what is there. -/
theorem lookCode (hbase : 0 < base) {negated : Bool} {back : Option Nat} {w : Nat}
    {body : Nat → Program.Build (List Op)} (h : Sound p text base d body)
    (hw : back.getD 0 ≤ w) :
    Sound p text base (if negated then none else d.map (· + w))
      (Program.lookCode negated back body) := by
  cases negated with
  | true => exact lookNot h
  | false => exact (look hbase h).weaken (reach_map_mono (reach_refl d) hw)

/-! ### groups, automata and conditions -/

/-- A body between two instructions that are passages. -/
theorem between {first last : Op} {body : Nat → Program.Build (List Op)}
    (hfirst : ∀ pc n n', p.code[pc]? = some first → Passes p text base d n n' pc (pc + 1))
    (hlast : ∀ pc n n', p.code[pc]? = some last → Passes p text base d n n' pc (pc + 1))
    (h : Sound p text base d body) :
    Sound p text base d fun pc => do return first :: (← body (pc + 1)) ++ [last] := by
  intro pc n ops n' hn hc
  obtain ⟨code, n₁, hcode, hc⟩ := build_bind hc
  obtain ⟨rfl, rfl⟩ := build_pure hc
  obtain ⟨hle, hpass⟩ := h (pc + 1) n code n₁ hn hcode
  refine ⟨hle, fun hat => ?_⟩
  obtain ⟨hop, hbody⟩ := hat.append.1.cons
  have hop' := hat.append.2.cons.1
  rw [List.length_cons, Nat.add_comm code.length, ← Nat.add_assoc] at hop'
  have hlen : pc + (first :: code ++ [last]).length = pc + 1 + code.length + 1 := by
    simp; omega
  rw [hlen]
  exact ((hfirst pc n n₁ hop).trans (hpass hbody)).trans (hlast _ n n₁ hop')

/-- Leaving patterns to an automaton. -/
theorem delegate {groups : Nat} {es : List Expr} (h : Expr.AllNumbered groups es) :
    Sound p text (2 * (groups + 1)) d fun _ => Program.delegate es := by
  intro pc n ops n' hn hc
  dsimp only at hc
  unfold Program.delegate at hc
  split at hc
  · exact nil pc n ops n' hn hc
  · split at hc
    · refine single (fun pc n hop => ?_) pc n ops n' hn hc
      exact .read hop (by simp) fun b b' hleads => ⟨_, hleads⟩
    · split at hc
      · refine single (fun pc n hop => ?_) pc n ops n' hn hc
        exact .read hop (by simp) fun b b' hleads => ⟨1, fun _ => hleads.1, hleads.2⟩
      · refine single (fun pc n hop => ?_) pc n ops n' hn hc
        refine .delegate hop fun g hg => ?_
        have := Expr.AllNumbered.groupsOf es h g hg
        omega
      · contradiction

/-- A condition, which is not entered again, and two branches. -/
theorem conditional {test yes no : Nat → Program.Build (List Op)} (htest : Sound p text base d test)
    (hyes : Sound p text base d yes) (hno : Sound p text base d no) :
    Sound p text base d fun pc => do
      let test ← test (pc + 2)
      let onYes ← yes (pc + 2 + test.length + 1)
      let onNo := pc + 2 + test.length + 1 + onYes.length + 1
      let code ← no onNo
      return [Op.beginAtomic, .split (pc + 2) onNo] ++ test ++ .endAtomic :: onYes ++
        .jump (onNo + code.length) :: code := by
  intro pc n ops n' hn hc
  obtain ⟨tested, n₁, h₁, hc⟩ := build_bind hc
  obtain ⟨onYes, n₂, h₂, hc⟩ := build_bind hc
  obtain ⟨onNo, n₃, h₃, hc⟩ := build_bind hc
  obtain ⟨rfl, rfl⟩ := build_pure hc
  obtain ⟨hle₁, hpass₁⟩ := htest (pc + 2) n tested n₁ hn h₁
  obtain ⟨hle₂, hpass₂⟩ := hyes (pc + 2 + tested.length + 1) n₁ onYes n₂ (by omega) h₂
  obtain ⟨hle₃, hpass₃⟩ :=
    hno (pc + 2 + tested.length + 1 + onYes.length + 1) n₂ onNo n₃ (by omega) h₃
  refine ⟨by omega, fun hat => ?_⟩
  obtain ⟨hatLeft, hatRight⟩ := hat.append
  obtain ⟨hatTest, hatYes⟩ := hatLeft.append
  obtain ⟨hbegin, hsplit⟩ := hatTest.append.1.cons
  obtain ⟨hend, hatYes⟩ := (hatYes.at (show _ = pc + 2 + tested.length by simp; omega)).cons
  obtain ⟨hjump, hatNo⟩ := (hatRight.at
    (show _ = pc + 2 + tested.length + 1 + onYes.length by simp; omega)).cons
  have hpassTest : Passes p text base d n n₁ (pc + 2) (pc + 2 + tested.length + 1) :=
    (hpass₁ hatTest.append.2).trans (.atomic hend (.inr rfl))
  have hpassYes := (hpass₂ hatYes).trans (.jump hjump .refl)
  have hlen : pc + ([Op.beginAtomic, .split (pc + 2) (pc + 2 + tested.length + 1 + onYes.length + 1)]
      ++ tested ++ .endAtomic :: onYes ++
        .jump (pc + 2 + tested.length + 1 + onYes.length + 1 + onNo.length) :: onNo).length =
      pc + 2 + tested.length + 1 + onYes.length + 1 + onNo.length := by
    simp; omega
  rw [hlen]
  refine Passes.trans (.atomic hbegin (.inl rfl)) (.split hsplit.cons.1 ?_ ?_)
  · exact (hpassTest.append hpassYes hle₁ hle₂).weaken (reach_refl d) (Nat.le_refl n) hle₃
  · exact (hpass₃ hatNo).weaken (reach_refl d) (Nat.le_trans hle₁ hle₂) (Nat.le_refl n₃)

/-- An expression is left to an automaton or has instructions of its own. -/
theorem compile {groups : Nat} {e : Expr} {hard : Bool} {code : Nat → Program.Build (List Op)}
    (he : e.Numbered groups)
    (heq : ∀ pc, Program.compile hard e pc =
      if !hard && !e.isHard then Program.delegate [e] else code pc)
    (h : Sound p text (2 * (groups + 1)) d code) :
    Sound p text (2 * (groups + 1)) d (Program.compile hard e) := by
  intro pc n ops n' hn hc
  rw [heq] at hc
  split at hc
  · have hes : Expr.AllNumbered groups [e] := ⟨he, trivial⟩
    exact delegate hes pc n ops n' hn hc
  · exact h pc n ops n' hn hc

/-- A sequence whose ends are left to automata. -/
theorem seq {start last : Program.Build (List Op)} {middle : Nat → Program.Build (List Op)}
    (hstart : Sound p text base d fun _ => start) (hmiddle : Sound p text base d middle)
    (hlast : Sound p text base d fun _ => last) :
    Sound p text base d fun pc => do
      let start ← start
      let middle ← middle (pc + start.length)
      return start ++ middle ++ (← last) := by
  intro pc n ops n' hn hc
  obtain ⟨ops₁, n₁, h₁, hc⟩ := build_bind hc
  obtain ⟨ops₂, n₂, h₂, hc⟩ := build_bind hc
  obtain ⟨ops₃, n₃, h₃, hc⟩ := build_bind hc
  obtain ⟨rfl, rfl⟩ := build_pure hc
  obtain ⟨hle₁, hpass₁⟩ := hstart pc n ops₁ n₁ hn h₁
  obtain ⟨hle₂, hpass₂⟩ := hmiddle (pc + ops₁.length) n₁ ops₂ n₂ (by omega) h₂
  obtain ⟨hle₃, hpass₃⟩ := hlast (pc + (ops₁ ++ ops₂).length) n₂ ops₃ n₃ (by omega) h₃
  refine ⟨by omega, fun hat => ?_⟩
  obtain ⟨hat₁₂, hat₃⟩ := hat.append
  have hpass₁₂ := (hpass₁ hat₁₂.append.1).append (hpass₂ hat₁₂.append.2) hle₁ hle₂
  rw [Nat.add_assoc, ← List.length_append] at hpass₁₂
  rw [List.length_append, ← Nat.add_assoc]
  exact hpass₁₂.append (hpass₃ hat₃) (by omega) hle₃

end Sound

end TypeQuery.Pattern.Backtracking
