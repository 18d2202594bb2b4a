import TypeQuery.Proofs.Pattern.Backtracking.Building

/-!
# TypeQuery.Proofs.Pattern.Backtracking.Reach

How far behind the place of a search a match may start.  The start of a match
can be marked anywhere in a pattern, also while looking around.  `Expr.reach?`
reads off a pattern how far behind the place where it is matched it may put the
mark: no way, unless it looks behind for something that holds a mark.

* `sound_compile` — the instructions of an expression are a passage, whose marks
  reach as far as those of the expression, by induction on the expression;
* `search_within` — a match starts no farther behind the place of the search than
  marks reach; whatever the pattern, it starts before it ends and ends in the
  part of the text that was searched.
-/

namespace TypeQuery.Pattern.Backtracking

/-! ## how far marks reach -/

namespace Expr

/-- The width of the widest of the patterns. -/
def widest : List Expr → Nat
  | [] => 0
  | e :: es => max e.minWidth (widest es)

/-- How far one goes back to look behind at the pattern: branches may have widths of their own. -/
def backWidth : Expr → Nat
  | .alt branches => widest branches
  | e => e.minWidth

mutual

/-- How many characters behind the place where it begins the pattern may mark the start of the match;
none if it marks no start. What must not be there leaves no mark. -/
def reach? : Expr → Option Nat
  | .keepOut => some 0
  | .seq items => reachOf? items
  | .alt branches => reachOf? branches
  | .group _ body => body.reach?
  | .around behind negated body =>
    if negated then none else body.reach?.map (· + if behind then body.backWidth else 0)
  | .loop body _ _ _ => body.reach?
  | .atomic body => body.reach?
  | .conditional condition yes no => max condition.reach? (max yes.reach? no.reach?)
  | _ => none

/-- How far behind the first place several patterns may mark the start of the match. -/
def reachOf? : List Expr → Option Nat
  | [] => none
  | e :: es => max e.reach? (reachOf? es)

end

theorem minWidth_le_widest {e : Expr} {es : List Expr} (h : e ∈ es) : e.minWidth ≤ widest es := by
  induction es with
  | nil => exact absurd h List.not_mem_nil
  | cons e' es ih =>
      rw [widest]
      cases List.mem_cons.mp h with
      | inl heq => rw [heq]; exact Nat.le_max_left _ _
      | inr hm => exact Nat.le_trans (ih hm) (Nat.le_max_right _ _)

theorem minWidth_le_backWidth (e : Expr) : e.minWidth ≤ e.backWidth := by
  unfold backWidth
  split
  · next branches =>
    rw [minWidth]
    unfold minWidthMin
    split
    · exact Nat.zero_le _
    · exact minWidth_le_widest List.mem_cons_self
    · exact Nat.le_trans (Nat.min_le_left _ _) (minWidth_le_widest List.mem_cons_self)
  · exact Nat.le_refl _

end Expr

/-! ## compiled expressions -/

variable {p : Program} {text : Array Char}

section

open TypeQuery.Pattern.Backtracking.Program (compile compileItems compileEach compileBehind)

variable {groups : Nat}

mutual

/-- **Compiled expressions are passages**, whose marks reach as far as those of the expression. -/
theorem sound_compile (hard : Bool) :
    (e : Expr) → e.Numbered groups → Sound p text (2 * (groups + 1)) e.reach? (compile hard e)
  | .empty, h => by
    refine .compile h (fun _ => by rw [compile]) ?_
    exact .nil
  | .any newline, h => by
    refine .compile h (fun _ => by rw [compile]) (.single fun pc n hop => ?_)
    exact .read hop (by simp) fun b b' hleads => ⟨1, fun _ => hleads.1, hleads.2⟩
  | .char c ignoreCase, h => by
    refine .compile h (fun _ => by rw [compile]) ?_
    exact .delegate ⟨h, trivial⟩
  | .set s depth, h => by
    refine .compile h (fun _ => by rw [compile]) ?_
    exact .delegate ⟨h, trivial⟩
  | .look l, h => by
    refine .compile h (fun _ => by rw [compile]) (.single fun pc n hop => ?_)
    exact .test hop (by simp) fun b b' hleads => hleads
  | .seq items, h => by
    have hends : ∀ k, Expr.AllNumbered groups (items.take k) ∧ Expr.AllNumbered groups (items.drop k) :=
      fun k => ⟨h.take k, h.drop k⟩
    refine .compile h (fun _ => by rw [compile]) ?_
    split
    next first last _ =>
    exact .seq (.delegate (hends first).1) (sound_compileItems _ 0 items h)
      (.delegate (hends last).2)
  | .alt branches, h => by
    refine .compile h (fun _ => by rw [compile]) ?_
    exact .choose (sound_compileEach hard branches h)
  | .group index body, h => by
    have hindex := h.1
    refine .compile h (fun _ => by rw [compile]) ?_
    refine .between (fun pc n n' hop => ?_) (fun pc n n' hop => ?_) (sound_compile hard body h.2)
    · exact .save hop (by omega) (by omega)
    · exact .save hop (by omega) (by omega)
  | .loop body min max greedy, h => by
    refine .compile h (fun _ => by rw [compile]) ?_
    exact .loopCode (by omega) (sound_compile _ body h)
  | .around behind negated body, h => by
    have hbody : Sound p text (2 * (groups + 1)) body.reach? (compile false body) :=
      sound_compile false body h
    have hbranches : ∀ branches, body = .alt branches → ∀ code ∈ compileBehind negated branches,
        Sound p text (2 * (groups + 1))
          (if negated then none else (Expr.reachOf? branches).map (· + Expr.widest branches)) code := by
      rintro branches rfl
      exact sound_compileBehind negated branches h
    refine .compile h (fun _ => by rw [compile.eq_def]) fun pc n ops n' hn hc => ?_
    rw [Expr.reach?]
    dsimp only at hc
    cases behind with
    | false =>
        rw [if_pos (by simp)] at hc
        exact Sound.lookCode (by omega) hbody (Nat.le_refl 0) pc n ops n' hn hc
    | true =>
        rw [if_neg (by simp)] at hc
        split at hc
        · exact Sound.lookCode (by omega) hbody body.minWidth_le_backWidth pc n ops n' hn hc
        · split at hc
          · next branches _ =>
            cases negated with
            | true => exact Sound.chain (hbranches branches rfl) pc n ops n' hn hc
            | false => exact Sound.choose (hbranches branches rfl) pc n ops n' hn hc
          · contradiction
  | .backref index, h => by
    refine .compile h (fun _ => by rw [compile]) (.single fun pc n hop => ?_)
    exact .read hop (by simp) fun b b' hleads => hleads
  | .taken index, h => by
    refine .compile h (fun _ => by rw [compile]) (.single fun pc n hop => ?_)
    exact .test hop (by simp) fun b b' hleads => hleads
  | .atomic body, h => by
    refine .compile h (fun _ => by rw [compile]) ?_
    refine .between (fun pc n n' hop => ?_) (fun pc n n' hop => ?_) (sound_compile false body h)
    · exact .atomic hop (.inl rfl)
    · exact .atomic hop (.inr rfl)
  | .keepOut, h => by
    refine .compile h (fun _ => by rw [compile]) (.single fun pc n hop => ?_)
    exact .saveStart hop (by omega)
  | .resume, h => by
    refine .compile h (fun _ => by rw [compile]) (.single fun pc n hop => ?_)
    exact .test hop (by simp) fun b b' hleads => hleads
  | .conditional condition yes no, h => by
    have hmax := le_max_reach condition.reach? (max yes.reach? no.reach?)
    have hmax' := le_max_reach yes.reach? no.reach?
    have hcondition := (sound_compile hard condition h.1).weaken hmax.1
    have hyes := (sound_compile hard yes h.2.1).weaken (reach_trans hmax'.1 hmax.2)
    have hno := (sound_compile hard no h.2.2).weaken (reach_trans hmax'.2 hmax.2)
    refine .compile h (fun _ => by rw [compile]) ?_
    exact .conditional hcondition hyes hno

theorem sound_compileItems (range : Nat × Nat) (i : Nat) :
    (es : List Expr) → Expr.AllNumbered groups es →
      Sound p text (2 * (groups + 1)) (Expr.reachOf? es) (compileItems range i es)
  | [], _ => .nil
  | e :: es, h => by
    have hmax := le_max_reach e.reach? (Expr.reachOf? es)
    have hes := (sound_compileItems range (i + 1) es h.2).weaken hmax.2
    intro pc n ops n' hn hc
    rw [compileItems] at hc
    split at hc
    · have he := (sound_compile true e h.1).weaken hmax.1
      exact Sound.append he hes pc n ops n' hn hc
    · exact Sound.append .nil hes pc n ops n' hn hc

theorem sound_compileEach (hard : Bool) :
    (es : List Expr) → Expr.AllNumbered groups es → ∀ code ∈ compileEach hard es,
      Sound p text (2 * (groups + 1)) (Expr.reachOf? es) code
  | [], _ => fun code hcode => absurd hcode List.not_mem_nil
  | e :: es, h => fun code hcode => by
    have hmax := le_max_reach e.reach? (Expr.reachOf? es)
    cases List.mem_cons.mp hcode with
    | inl heq => rw [heq]; exact (sound_compile hard e h.1).weaken hmax.1
    | inr hm => exact (sound_compileEach hard es h.2 code hm).weaken hmax.2

theorem sound_compileBehind (negated : Bool) :
    (es : List Expr) → Expr.AllNumbered groups es → ∀ code ∈ compileBehind negated es,
      Sound p text (2 * (groups + 1))
        (if negated then none else (Expr.reachOf? es).map (· + Expr.widest es)) code
  | [], _ => fun code hcode => absurd hcode List.not_mem_nil
  | e :: es, h => fun code hcode => by
    have hmax := le_max_reach e.reach? (Expr.reachOf? es)
    cases List.mem_cons.mp hcode with
    | inl heq =>
        intro pc n ops n' hn hc
        rw [heq] at hc
        dsimp only at hc
        split at hc
        · refine (Sound.lookCode (by omega) (sound_compile false e h.1)
            (Nat.le_refl _)).weaken ?_ pc n ops n' hn hc
          split
          · exact Option.none_le
          · exact reach_map_mono hmax.1 (Nat.le_max_left _ _)
        · contradiction
    | inr hm =>
        refine (sound_compileBehind negated es h.2 code hm).weaken ?_
        split
        · exact Option.none_le
        · exact reach_map_mono hmax.2 (Nat.le_max_right _ _)

end

end

/-! ## searches -/

/-- Where a match of a search from place `i` on is noted at the end of a program: its start, which
may be up to `reach` characters behind that place, and its end, which is not. -/
def Branch.Noted (size i reach : Nat) (e : Branch) : Prop :=
  ∃ v stop, e.slot 0 = some v ∧ e.slot 1 = some stop ∧ i ≤ v + reach ∧ i ≤ stop ∧ stop ≤ size

theorem Branch.Noted.result {size i reach start stop : Nat} {e : Branch} (h : e.Noted size i reach)
    (hr : e.result = .found start stop) :
    start ≤ stop ∧ stop ≤ size ∧ i ≤ stop ∧ i ≤ start + reach := by
  obtain ⟨v, stop', hv, hstop, hreach, hle, hsize⟩ := h
  rw [Branch.result, hstop, hv] at hr
  injection hr with hstart hstop'
  dsimp only [Option.getD_some] at hstart hstop'
  omega

theorem codeAt_of_ofExpr? {groups : Nat} {e : Expr} (hp : Program.ofExpr? groups e = some p) :
    ∃ code, (Program.compile true e 4).run (2 * (groups + 1)) = some (code, p.slots) ∧
      CodeAt p 0 ([.split 3 1, .any true, .jump 0, .save 0] ++ code ++ [.save 1, .done]) := by
  obtain ⟨⟨code, slots⟩, hcode, hp⟩ := Option.bind_eq_some_iff.mp hp
  obtain rfl := Option.some.inj hp
  refine ⟨code, hcode, fun i op hi => ?_⟩
  rw [Nat.zero_add, List.getElem?_toArray]
  exact hi

/-- Every way through the program of an expression notes a match. -/
theorem noted_of_arrives {groups : Nat} {e : Expr} (he : e.Numbered groups)
    (hp : Program.ofExpr? groups e = some p) {i : Nat} (hi : i ≤ text.size) {n : Nat} {last : Branch}
    (h : Arrives p text last n ⟨0, i, Array.replicate p.slots none, []⟩) :
    last.Noted text.size i (e.reach?.getD 0) := by
  obtain ⟨code, hcode, hat⟩ := codeAt_of_ofExpr? hp
  have hsound : Sound p text (2 * (groups + 1)) e.reach? (Program.compile true e) :=
    sound_compile true e he
  obtain ⟨hle, hpass⟩ := hsound 4 _ code p.slots (Nat.le_refl _) hcode
  obtain ⟨hsplit, hat₁⟩ := hat.append.1.append.1.cons
  obtain ⟨hany, hat₂⟩ := hat₁.cons
  obtain ⟨hjump, hat₃⟩ := hat₂.cons
  obtain ⟨hsave, hdone⟩ := (hat.append.2.at (show _ = 4 + code.length by simp; omega)).cons
  -- the search moves on to where the match begins
  have hskip : Passes p text (2 * (groups + 1)) none (2 * (groups + 1)) p.slots 0 3 := by
    have hround : Passes p text (2 * (groups + 1)) none (2 * (groups + 1)) p.slots 1 0 :=
      Passes.trans (.read hany (by simp) fun b b' hl => ⟨1, fun _ => hl.1, hl.2⟩)
        (.jump hjump .refl)
    have hhead : p.code[0]? = some (Program.splitFor false 1 3) := hsplit
    exact .splitFor_loop hhead hround
  obtain ⟨k₁, -, b₁, hpc₁, hr₁, ha₁⟩ := hskip n last _ rfl hi (by simp) h
  have hslots : b₁.slots.size = p.slots := by rw [hr₁.size_eq]; simp
  have hi₁ : i ≤ b₁.place := hr₁.forward
  -- there it notes the start, which the pattern may mark anew
  obtain ⟨k₂, b₂, rfl, rfl, ha₂⟩ := ha₁.next hpc₁ hat₃.cons.1 (by simp)
  have hstart : (b₁.write 0 b₁.place).slot 0 = some b₁.place := by
    rw [Branch.slot_write, if_pos ⟨rfl, by omega⟩]
  have hpc₂ : ((b₁.write 0 b₁.place).nextAt b₁.place).pc = 4 :=
    congrArg (· + 1) hpc₁
  have hslots₂ : p.slots ≤ ((b₁.write 0 b₁.place).nextAt b₁.place).slots.size := by
    rw [← hslots]
    exact Nat.le_of_eq (Branch.size_write ..).symm
  obtain ⟨k₃, -, b₃, hpc₃, hr₃, ha₃⟩ :=
    hpass hat.append.1.append.2 k₂ last _ hpc₂ hr₁.inside hslots₂ ha₂
  have hforward : b₁.place ≤ b₃.place := hr₃.forward
  have hslots₃ : b₃.slots.size = p.slots := by
    rw [hr₃.size_eq, ← hslots]
    exact Branch.size_write ..
  -- and at last the end
  obtain ⟨k₄, b₄, rfl, rfl, ha₄⟩ := ha₃.next hpc₃ hsave (by simp)
  obtain rfl := ha₄.eq_of_done (congrArg (· + 1) hpc₃) hdone.cons.1
  have hstop : (b₃.write 1 b₃.place).slot 1 = some b₃.place := by
    rw [Branch.slot_write, if_pos ⟨rfl, by omega⟩]
  have hkept : (b₃.write 1 b₃.place).slot 0 = b₃.slot 0 := Branch.slot_write_of_ne b₃ (by omega)
  cases hr₃.mark with
  | inl hsame =>
      refine ⟨b₁.place, b₃.place, ?_, hstop, by omega, by omega, hr₃.inside⟩
      exact hkept.trans (hsame.trans hstart)
  | inr hset =>
      obtain ⟨v, hv, hreach⟩ := hset
      have hreach' : some (b₁.place - v) ≤ e.reach? := hreach
      refine ⟨v, b₃.place, hkept.trans hv, hstop, ?_, by omega, hr₃.inside⟩
      cases hd : e.reach? with
      | none => rw [hd] at hreach'; exact absurd hreach' Option.not_some_le_none
      | some a =>
          rw [hd, Option.some_le_some] at hreach'
          rw [Option.getD_some]
          omega

/-- **Searches stay in reach**: a match ends in the part of the text that was searched, it starts
before it ends, and it starts behind the place of the search by no more than marks reach. -/
theorem search_within {groups : Nat} {e : Expr} (he : e.Numbered groups)
    (hp : Program.ofExpr? groups e = some p) {i start stop : Nat} (hi : i ≤ text.size)
    (h : p.search text i = .found start stop) :
    start ≤ stop ∧ stop ≤ text.size ∧ i ≤ stop ∧ i ≤ start + e.reach?.getD 0 := by
  have hm : ∀ n last, Arrives p text last n ⟨0, i, Array.replicate p.slots none, []⟩ →
      last.Noted text.size i (e.reach?.getD 0) := fun _ _ => noted_of_arrives he hp hi
  obtain ⟨last, hnoted, hresult⟩ := exists_arrives_of_run hm (by simp) h
  exact hnoted.result hresult

end TypeQuery.Pattern.Backtracking
