import Mathlib.Data.List.Perm.Subperm
import Mathlib.Data.Nat.Bitwise
import TypeQuery.Flags
import TypeQuery.Proofs.Text.Sorted

/-!
# TypeQuery.Proofs.Flags

Which names a mask has.  A constant *names a bit* of a mask when its value is one
bit that is set in the mask; of several constants for one bit the first one is
listed:

```
table     A = 0001   B = 0011   C = 0100   D = 0100
mask      0111
names     A                     C
```

* `mem_setBits_iff` — which constants are listed;
* `length_setBits_le` — there is at most one for every bit of the mask;
* `names_exact` — so the names are those of the listed constants, each of them once.
-/

namespace TypeQuery.Flags

variable {mask : UInt32} {table : List FlagConstant} {c : FlagConstant}

/-! ## bits of a mask -/

/-- The number of bits that are set in the mask. -/
def bitCount (mask : UInt32) : Nat :=
  (List.range 32).countP mask.toNat.testBit

/-- The value of the constant is one bit, which is set in the mask. -/
def NamesBit (mask : UInt32) (c : FlagConstant) : Prop :=
  c.value.toNat.isPowerOfTwo ∧ mask &&& c.value = c.value

theorem isSingleBit_iff {v : UInt32} : isSingleBit v = true ↔ v.toNat.isPowerOfTwo := by
  have hne : v ≠ 0 ↔ v.toNat ≠ 0 := by simp [← UInt32.toNat_inj]
  have hand (h : v.toNat ≠ 0) : v &&& (v - 1) = 0 ↔ v.toNat &&& (v.toNat - 1) = 0 := by
    have hle : (1 : UInt32) ≤ v := UInt32.le_iff_toNat_le.mpr (Nat.pos_of_ne_zero h)
    rw [← UInt32.toNat_inj, UInt32.toNat_and, UInt32.toNat_sub_of_le _ _ hle]
    rfl
  rw [← Nat.ne_zero_and_sub_one_eq_zero_iff_isPowerOfTwo]
  simp only [isSingleBit, Bool.and_eq_true, bne_iff_ne, beq_iff_eq, hne]
  exact and_congr_right hand

/-- A single bit shares something with a mask only if it is set there. -/
theorem and_ne_zero_iff_of_isPowerOfTwo {v : UInt32} (h : v.toNat.isPowerOfTwo) :
    mask &&& v ≠ 0 ↔ mask &&& v = v := by
  obtain ⟨i, hi⟩ := h
  have hpos : 0 < 2 ^ i := Nat.two_pow_pos i
  simp only [ne_eq, ← UInt32.toNat_inj, UInt32.toNat_and, hi, Nat.and_two_pow]
  cases mask.toNat.testBit i <;> simp [Nat.ne_of_lt hpos]

theorem selects_iff :
    (isSingleBit c.value && mask &&& c.value != 0) = true ↔ NamesBit mask c := by
  rw [Bool.and_eq_true, isSingleBit_iff, bne_iff_ne, NamesBit]
  exact and_congr_right fun h => and_ne_zero_iff_of_isPowerOfTwo h

/-- The value of a constant that names a bit is the bit at a place where the mask has one. -/
theorem NamesBit.exists_bit (h : NamesBit mask c) :
    ∃ i, i < 32 ∧ mask.toNat.testBit i = true ∧ c.value = UInt32.ofNat (2 ^ i) := by
  obtain ⟨⟨i, hi⟩, hset⟩ := h
  have hlt : i < 32 := (Nat.pow_lt_pow_iff_right (by decide : 1 < 2)).mp (hi ▸ c.value.toNat_lt)
  have hbit : mask.toNat &&& 2 ^ i = 2 ^ i := by
    rw [← hi, ← UInt32.toNat_and, hset]
  refine ⟨i, hlt, ?_, ?_⟩
  · have hpos : 0 < 2 ^ i := Nat.two_pow_pos i
    cases ht : mask.toNat.testBit i with
    | true => rfl
    | false =>
        rw [Nat.and_two_pow, ht, Bool.toNat_false, Nat.zero_mul] at hbit
        omega
  · rw [← hi, UInt32.ofNat_toNat]

/-! ## the first constant for each value -/

theorem mem_firstPerValue_iff :
    c ∈ firstPerValue table ↔
      ∃ before after, table = before ++ c :: after ∧ ∀ b ∈ before, b.value ≠ c.value := by
  induction table with
  | nil => simp [firstPerValue]
  | cons d table ih =>
      simp only [firstPerValue, List.mem_cons, List.mem_filter, ih, bne_iff_ne]
      constructor
      · rintro (rfl | ⟨⟨before, after, rfl, hbefore⟩, hne⟩)
        · exact ⟨[], table, rfl, by simp⟩
        · exact ⟨d :: before, after, rfl, List.forall_mem_cons.mpr ⟨Ne.symm hne, hbefore⟩⟩
      · rintro ⟨before, after, hsplit, hbefore⟩
        cases before with
        | nil => exact .inl (List.cons.inj hsplit).1.symm
        | cons b before =>
            obtain ⟨rfl, rfl⟩ := List.cons.inj hsplit
            have ⟨hne, hrest⟩ := List.forall_mem_cons.mp hbefore
            exact .inr ⟨⟨before, after, rfl, hrest⟩, Ne.symm hne⟩

/-- Leaving out values does not change which constants come first for the others. -/
theorem firstPerValue_filter (p : UInt32 → Bool) (table : List FlagConstant) :
    firstPerValue (table.filter fun c => p c.value) =
      (firstPerValue table).filter fun c => p c.value := by
  induction table with
  | nil => rfl
  | cons d table ih =>
      cases hd : p d.value with
      | true => simp [firstPerValue, hd, ih, List.filter_filter, Bool.and_comm]
      | false =>
          have hdrop : ∀ c ∈ firstPerValue table, (p c.value && c.value != d.value) = p c.value := by
            intro c _
            by_cases hc : c.value = d.value
            · simp [hc, hd]
            · simp [hc]
          simp [firstPerValue, hd, ih, List.filter_filter, List.filter_congr hdrop]

theorem nodup_values_firstPerValue (table : List FlagConstant) :
    ((firstPerValue table).map (·.value)).Nodup := by
  induction table with
  | nil => exact .nil
  | cons d table ih =>
      rw [firstPerValue, List.map_cons, List.nodup_cons]
      constructor
      · simp
      · exact ih.sublist (List.filter_sublist.map _)

/-! ## the constants that are listed -/

/-- The constants that name a bit of the mask, the first one for each bit. -/
theorem mem_setBits_iff :
    c ∈ setBits mask table ↔ NamesBit mask c ∧
      ∃ before after, table = before ++ c :: after ∧ ∀ b ∈ before, b.value ≠ c.value := by
  rw [setBits, firstPerValue_filter fun v => isSingleBit v && mask &&& v != 0, List.mem_filter,
    selects_iff, mem_firstPerValue_iff, and_comm]

theorem length_setBits_le (mask : UInt32) (table : List FlagConstant) :
    (setBits mask table).length ≤ bitCount mask := by
  let bits := ((List.range 32).filter mask.toNat.testBit).map fun i => UInt32.ofNat (2 ^ i)
  have hsubset : (setBits mask table).map (·.value) ⊆ bits := by
    intro v hv
    obtain ⟨c, hc, rfl⟩ := List.mem_map.mp hv
    obtain ⟨i, hlt, htest, hvalue⟩ := (mem_setBits_iff.mp hc).1.exists_bit
    exact List.mem_map.mpr ⟨i, List.mem_filter.mpr ⟨List.mem_range.mpr hlt, htest⟩, hvalue.symm⟩
  have hle := (nodup_values_firstPerValue _).length_le_of_subset hsubset
  rw [List.length_map, List.length_map] at hle
  rw [bitCount, List.countP_eq_length_filter]
  exact hle

/-! ## the names -/

/-- **The names of a mask**: they ascend, there are no more of them than bits in the mask, and they
are the names of the constants that name a bit of the mask and come first for it. -/
theorem names_exact (mask : UInt32) (table : List FlagConstant) :
    (names mask table).Pairwise (· < ·) ∧
      (names mask table).length ≤ bitCount mask ∧
      ∀ name, name ∈ names mask table ↔
        ∃ before c after, table = before ++ c :: after ∧ c.name = name ∧ NamesBit mask c ∧
          ∀ b ∈ before, b.value ≠ c.value := by
  have hordered : (names mask table).Pairwise (· < ·) := Text.pairwise_lt_sorted _
  refine ⟨hordered, ?_, fun name => ?_⟩
  · have hnodup : (names mask table).Nodup := hordered.imp fun hlt => String.ne_of_lt hlt
    have hsubset : names mask table ⊆ (setBits mask table).map (·.name) :=
      fun name hname => Text.mem_sorted.mp hname
    have hle := hnodup.length_le_of_subset hsubset
    rw [List.length_map] at hle
    exact Nat.le_trans hle (length_setBits_le mask table)
  · rw [names, Text.mem_sorted, List.mem_map]
    constructor
    · rintro ⟨c, hc, hname⟩
      obtain ⟨hbit, before, after, hsplit, hfirst⟩ := mem_setBits_iff.mp hc
      exact ⟨before, c, after, hsplit, hname, hbit, hfirst⟩
    · rintro ⟨before, c, after, hsplit, hname, hbit, hfirst⟩
      exact ⟨c, mem_setBits_iff.mpr ⟨hbit, before, after, hsplit, hfirst⟩, hname⟩

/-- A composite names nothing, and of two constants for one bit only the first one is listed. -/
example : names 0b0111 [⟨"A", 1⟩, ⟨"B", 3⟩, ⟨"C", 4⟩, ⟨"D", 4⟩] = ["A", "C"] := by cbv

end TypeQuery.Flags
