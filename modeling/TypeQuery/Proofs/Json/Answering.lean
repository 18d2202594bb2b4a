import TypeQuery.Json.Printer
import TypeQuery.Proofs.Json.Reading

/-!
# TypeQuery.Proofs.Json.Answering

What a reader makes of a text, told forwards.  `Answers r before a after` says:
on the text `before` the reader does answer, with `a`, and leaves `after`.  The
line number is left out of it, as no answer depends on it:

```
Answers x s a t  →  Answers (f a) t b u  →  Answers (x >>= f) s b u
```

The scalars are read back from what is printed of them.  A number ends where the
text goes on with a character that no number has, so what follows it is asked to
be of that kind (`Stops`).

* `Answers` — the calculus, and one rule per primitive;
* `answers_string`, `answers_number` — the scalars.
-/

namespace TypeQuery.Json.Reader

open Lexical

variable {α β : Type} {x : Reader α} {f : α → Reader β} {a : α} {b : β} {s t u : List Char}

/-! ## the calculus -/

/-- On the text `before`, on whatever line, `r` answers `a` and leaves `after`. -/
def Answers (r : Reader α) (before : List Char) (a : α) (after : List Char) : Prop :=
  ∀ line, ∃ line', r.run ⟨before, line⟩ = .ok (a, ⟨after, line'⟩)

namespace Answers

theorem pure (a : α) : Answers (Pure.pure a) s a s :=
  fun line => ⟨line, rfl⟩

theorem bind (hx : Answers x s a t) (hf : Answers (f a) t b u) : Answers (x >>= f) s b u := by
  intro line
  obtain ⟨mid, hfirst⟩ := hx line
  obtain ⟨last, hrest⟩ := hf mid
  exact ⟨last, run_bind_eq_ok.mpr ⟨a, _, hfirst, hrest⟩⟩

theorem get_bind {f : Cursor → Reader β} (hf : ∀ line, Answers (f ⟨s, line⟩) s b u) :
    Answers (get >>= f) s b u :=
  fun line => hf line line

end Answers

theorem answers_peek : Answers peek s s.head? s :=
  fun line => ⟨line, rfl⟩

theorem answers_next (c : Char) : Answers next (c :: s) (some c) s :=
  fun _ => ⟨_, rfl⟩

theorem answers_literal (es : List Char) : Answers (literal es) (es ++ s) () s := by
  induction es with
  | nil => exact .pure ()
  | cons e es ih =>
    have hsame : (e == e) = true := beq_self_eq_true e
    refine .bind (answers_next e) ?_
    simp only [hsame, if_true]
    exact ih

/-- Blanks are passed over up to the first other character. -/
theorem answers_skipBlanks {cs : List Char} {c : Char} (hcs : ∀ d ∈ cs, isBlank d = true)
    (hc : isBlank c = false) : Answers skipBlanks (cs ++ c :: s) (some c) (c :: s) := by
  intro line
  have stops : ∃ line', dropBlanks (cs ++ c :: s) line = ⟨c :: s, line'⟩ := by
    induction cs generalizing line with
    | nil => exact ⟨line, by simp [dropBlanks, hc]⟩
    | cons d cs ih =>
      obtain ⟨hd, hcs⟩ := List.forall_mem_cons.mp hcs
      simp only [List.cons_append, dropBlanks, hd, if_true]
      exact ih hcs _
  obtain ⟨line', h⟩ := stops
  have hrun : skipBlanks.run ⟨cs ++ c :: s, line⟩ =
      .ok ((dropBlanks (cs ++ c :: s) line).rest.head?, dropBlanks (cs ++ c :: s) line) := rfl
  exact ⟨line', by rw [hrun, h]; rfl⟩

/-- A character that is not blank comes next, with no blanks before it. -/
theorem answers_skipBlanks_none {c : Char} (hc : isBlank c = false) :
    Answers skipBlanks (c :: s) (some c) (c :: s) := by
  have hread : Answers skipBlanks ([] ++ c :: s) (some c) (c :: s) :=
    answers_skipBlanks (List.forall_mem_nil _) hc
  exact hread

/-! ## strings -/

theorem hexQuad?_append {q : List Char} {n : Nat} (h : hexQuad? q = some (n, [])) :
    hexQuad? (q ++ s) = some (n, s) := by
  match q, h with
  | a :: b :: c :: d :: cs, h =>
    simp only [hexQuad?, Option.bind_eq_bind, Option.bind_eq_some_iff, Option.pure_def,
      Option.some.injEq, Prod.mk.injEq] at h
    obtain ⟨_, ha, _, hb, _, hc, _, hd, hn, rfl⟩ := h
    simp [hexQuad?, ha, hb, hc, hd, hn]

theorem answers_hexQuad {q : List Char} {n : Nat} (h : hexQuad? q = some (n, [])) :
    Answers hexQuad (q ++ s) n s := by
  refine .get_bind fun line => ?_
  simp only [hexQuad?_append h]
  exact fun line' => ⟨_, rfl⟩

/-- The four digits of a control character are its code point. -/
theorem exists_hexQuad?_of_controlEscape {c : Char} (hc : c.toNat < 0x20) :
    ∃ q, controlEscape c = '\\' :: 'u' :: q ∧ hexQuad? q = some (c.toNat, []) := by
  have each : ∀ n < 0x20, hexQuad? (List.replicate (4 - (Nat.toDigits 16 n).length) '0' ++
      Nat.toDigits 16 n) = some (n, []) := by decide
  exact ⟨_, rfl, each c.toNat hc⟩

theorem answers_escapedChar {q : List Char} {c : Char} (hc : c.toNat < 0x20)
    (h : hexQuad? q = some (c.toNat, [])) : Answers escapedChar (q ++ s) c s := by
  refine .bind (answers_hexQuad h) ?_
  have hlow : ¬ (0xDC00 ≤ c.toNat && c.toNat ≤ 0xDFFF) = true := by simp; omega
  have hsmall : (c.toNat < 0xD800 || 0xDBFF < c.toNat) = true := by simp; omega
  rw [if_neg hlow, if_pos hsmall, Char.ofNat_toNat]
  exact .pure c

/-- One character of a string, as it is printed. -/
theorem answers_stringBody_escapeChar {fuel : Nat} {read cs : List Char} (c : Char)
    (h : Answers (stringBody true fuel (c :: read)) s cs t) :
    Answers (stringBody true (fuel + 1) read) (escapeChar c ++ s) cs t := by
  have escaped {e : Char} (digits : List Char)
      (he : Answers (escape true) (e :: (digits ++ s)) [c] s) :
      Answers (stringBody true (fuel + 1) read) ('\\' :: e :: (digits ++ s)) cs t :=
    .get_bind fun _ => .bind (answers_next '\\') (.bind he h)
  unfold escapeChar
  split
  iterate 7 exact escaped [] (.bind (answers_next _) (.pure _))
  · next hquote hslash _ _ _ _ _ =>
    split
    · next hcontrol =>
      obtain ⟨q, hq, hquad⟩ := exists_hexQuad?_of_controlEscape hcontrol
      have hescape : Answers (escape true) ('u' :: (q ++ s)) [c] s :=
        .bind (answers_next 'u') (.bind (answers_escapedChar hcontrol hquad) (.pure [c]))
      rw [hq]
      exact escaped q hescape
    · next hprint =>
      refine .get_bind fun _ => .bind (answers_next c) ?_
      split
      · next heq => cases heq
      · next heq => exact absurd (Option.some.inj heq) hquote
      · next heq => exact absurd (Option.some.inj heq) hslash
      · next heq =>
        cases heq
        rw [if_neg hprint]
        exact h

theorem length_le_length_escapeChar (cs : List Char) :
    cs.length ≤ (cs.flatMap escapeChar).length := by
  induction cs with
  | nil => exact Nat.le_refl 0
  | cons c cs ih =>
    have hpos : 0 < (escapeChar c).length := by
      unfold escapeChar
      split <;> try exact Nat.zero_lt_succ _
      split <;> exact Nat.zero_lt_succ _
    simp only [List.flatMap_cons, List.length_append, List.length_cons]
    omega

theorem answers_stringBody {fuel : Nat} {read : List Char} (cs : List Char)
    (hfuel : cs.length < fuel) :
    Answers (stringBody true fuel read) (cs.flatMap escapeChar ++ '"' :: s) (read.reverse ++ cs)
      s := by
  induction cs generalizing fuel read with
  | nil =>
    obtain ⟨fuel, rfl⟩ := Nat.exists_eq_succ_of_ne_zero (Nat.ne_zero_of_lt hfuel)
    rw [List.append_nil]
    exact .get_bind fun _ => .bind (answers_next '"') (.pure _)
  | cons c cs ih =>
    obtain ⟨fuel, rfl⟩ := Nat.exists_eq_succ_of_ne_zero (Nat.ne_zero_of_lt hfuel)
    have hrest : Answers (stringBody true fuel (c :: read)) _ ((c :: read).reverse ++ cs) s :=
      ih (Nat.lt_of_succ_lt_succ hfuel)
    rw [List.reverse_cons, List.append_assoc] at hrest
    rw [List.flatMap_cons, List.append_assoc]
    exact answers_stringBody_escapeChar c hrest

/-- What is printed of a string after its opening quote is read back. -/
theorem answers_string (str : String) :
    Answers string (str.toList.flatMap escapeChar ++ '"' :: s) str s := by
  refine .get_bind fun line => ?_
  have hfuel : str.toList.length <
      (str.toList.flatMap escapeChar ++ '"' :: s).length + 1 := by
    have := length_le_length_escapeChar str.toList
    rw [List.length_append]
    omega
  have hbody : Answers (stringBody true _ []) _ ([].reverse ++ str.toList) s :=
    answers_stringBody str.toList hfuel
  have hanswer : Answers (Pure.pure (String.ofList str.toList)) s str s := by
    rw [String.ofList_toList]
    exact .pure str
  exact .bind hbody hanswer

/-! ## numbers -/

/-- Nothing that could belong to a number or a word begins the text. -/
def Stops (s : List Char) : Prop :=
  ∀ c ∈ s.head?, isAtomChar c = false

theorem stops_nil : Stops [] :=
  nofun

theorem stops_cons {c : Char} (h : isAtomChar c = false) : Stops (c :: s) := by
  intro d hd
  cases hd
  exact h

/-- What comes next is none of the characters of a number. -/
theorem Stops.next_ne (hs : Stops s) {p : Char → Bool}
    (hp : ∀ c, p c = true → isAtomChar c = true) : ∀ c ∈ s.head?, p c = false := by
  intro c hc
  by_contra h
  have hatom : isAtomChar c = true := hp c (Bool.eq_true_of_not_eq_false h)
  rw [hs c hc] at hatom
  cases hatom

theorem Stops.next_not_isDigit (hs : Stops s) : ∀ c ∈ s.head?, isDigit c = false :=
  hs.next_ne fun c hc => by simp [isAtomChar, hc]

theorem isDigit_of_mem_toDigits {n : Nat} {c : Char} (h : c ∈ Nat.toDigits 10 n) :
    isDigit c = true := by
  have hc : c.isDigit = true := Nat.isDigit_of_mem_toDigits (by decide) (by decide) h
  simpa [Char.isDigit, isDigit, Char.le_def] using hc

/-- Only zero begins with a zero. -/
theorem head?_toDigits_ne_zero {n : Nat} (h : 0 < n) : (Nat.toDigits 10 n).head? ≠ some '0' := by
  induction n using Nat.strong_induction_on with
  | h n ih =>
    by_cases hn : n < 10
    · rw [Nat.toDigits_of_lt_base hn]
      simp
      omega
    · rw [Nat.toDigits_of_base_le (by decide) (by omega),
        List.head?_append_of_ne_nil _ Nat.toDigits_ne_nil]
      exact ih (n / 10) (by omega) (by omega)

theorem answers_digits {ds : List Char} (hds : ∀ d ∈ ds, isDigit d = true) (hs : Stops s) :
    Answers digits (ds ++ s) ds s := by
  have hnone : s.takeWhile isDigit = [] ∧ s.dropWhile isDigit = s := by
    cases s with
    | nil => exact ⟨rfl, rfl⟩
    | cons c s => simp [hs.next_not_isDigit c rfl]
  have htake : (ds ++ s).takeWhile isDigit = ds := by
    rw [List.takeWhile_append_of_pos hds, hnone.1, List.append_nil]
  have hdrop : (ds ++ s).dropWhile isDigit = s := by
    rw [List.dropWhile_append_of_pos hds, hnone.2]
  intro line
  have hrun : digits.run ⟨ds ++ s, line⟩ =
      .ok ((ds ++ s).takeWhile isDigit, ⟨(ds ++ s).dropWhile isDigit, line⟩) := rfl
  exact ⟨line, by rw [hrun, htake, hdrop]⟩

theorem answers_optionally {p : Char → Bool} (hs : ∀ c ∈ s.head?, p c = false) :
    Answers (optionally p) s [] s := by
  refine .bind answers_peek ?_
  cases hc : s.head? with
  | none => exact .pure []
  | some c =>
    simp only [hs c hc]
    exact .pure []

theorem answers_wholePart (n : Nat) (hs : Stops s) :
    Answers (wholePart keptNumber) (Nat.toDigits 10 n ++ s) (Nat.toDigits 10 n) s := by
  cases n with
  | zero =>
    rw [Nat.toDigits_zero]
    refine .bind (answers_next '0') (.bind (t := s) answers_peek ?_)
    cases s with
    | nil => exact .pure ['0']
    | cons c cs =>
      show Answers (if isDigit c = true then failNext .malformed else pure ['0']) (c :: cs) ['0']
        (c :: cs)
      simp only [hs.next_not_isDigit c rfl]
      exact .pure ['0']
  | succ n =>
    have hdigits : ∀ d ∈ Nat.toDigits 10 (n + 1), isDigit d = true :=
      fun d => isDigit_of_mem_toDigits
    have hhead : (Nat.toDigits 10 (n + 1)).head? ≠ some '0' := head?_toDigits_ne_zero n.succ_pos
    obtain ⟨c, ds, hcons⟩ := List.exists_cons_of_ne_nil (Nat.toDigits_ne_nil (n := n + 1) (b := 10))
    rw [hcons] at hdigits hhead ⊢
    obtain ⟨hc, hds⟩ := List.forall_mem_cons.mp hdigits
    refine .bind (answers_next c) ?_
    split
    · next heq => cases heq
    · next heq => exact absurd heq hhead
    · next heq =>
      cases heq
      rw [if_pos hc]
      exact .bind (answers_digits hds hs) (.pure _)

theorem answers_numberParts (n : Nat) (hs : Stops s) :
    Answers (numberParts keptNumber) (Nat.toDigits 10 n ++ s) ⟨Nat.toDigits 10 n, [], []⟩ s := by
  have hpoint : ∀ c ∈ s.head?, (c == '.') = false :=
    hs.next_ne fun c hc => by simp [isAtomChar, eq_of_beq hc]
  have hmark : ∀ c ∈ s.head?, (c == 'e' || c == 'E') = false :=
    hs.next_ne fun c hc => by
      obtain rfl | rfl : c = 'e' ∨ c = 'E' := by simpa using hc
      · rfl
      · rfl
  have hfraction : Answers (fractionPart keptNumber) s [] s :=
    .bind (answers_optionally hpoint) (.pure [])
  have hexponent : Answers (exponentPart keptNumber) s [] s :=
    .bind (answers_optionally hmark) (.pure [])
  exact .bind (answers_wholePart n hs) (.bind hfraction (.bind hexponent (.pure _)))

theorem foldl_digits_eq (ds : List Char) (m : Nat) :
    ds.foldl (fun n c => n * 10 + (c.toNat - '0'.toNat)) m = Nat.ofDigitChars 10 ds m := by
  rw [Nat.ofDigitChars_eq_foldl]
  congr 1
  funext n c
  rw [Nat.mul_comm]

theorem digitsValue_toDigits (n : Nat) : digitsValue (Nat.toDigits 10 n) = n := by
  rw [digitsValue, foldl_digits_eq, Nat.ofDigitChars_ten_toDigits]

/-- The values of digits grow while they are read. -/
theorem le_ofDigitChars (ds : List Char) (m : Nat) : m ≤ Nat.ofDigitChars 10 ds m := by
  induction ds generalizing m with
  | nil => simp
  | cons d ds ih =>
    rw [Nat.ofDigitChars_cons]
    have := ih (10 * m + (d.toNat - '0'.toNat))
    omega

/-- Digits that fit 64 bits are all added up. -/
theorem addWhole_eq {m : Nat} (ds : List Char)
    (h : Nat.ofDigitChars 10 ds m < NumberParts.Scaled.limit) :
    NumberParts.Scaled.addWhole ⟨m, 0⟩ ds = ⟨Nat.ofDigitChars 10 ds m, 0⟩ := by
  induction ds generalizing m with
  | nil => rw [NumberParts.Scaled.addWhole, Nat.ofDigitChars_nil]
  | cons d ds ih =>
    have hpush : NumberParts.Scaled.push ⟨m, 0⟩ d = 10 * m + (d.toNat - '0'.toNat) := by
      rw [NumberParts.Scaled.push, Nat.mul_comm]
    rw [Nat.ofDigitChars_cons] at h ⊢
    have hfits : 10 * m + (d.toNat - '0'.toNat) < NumberParts.Scaled.limit :=
      Nat.lt_of_le_of_lt (le_ofDigitChars ds _) h
    rw [NumberParts.Scaled.addWhole, hpush, if_pos hfits]
    exact ih h

theorem roundedTo53_le (n : Nat) : NumberParts.roundedTo53 n ≤ 2 * n := by
  unfold NumberParts.roundedTo53
  simp only
  split
  · omega
  · next hdrop =>
    have hn : n ≠ 0 := by
      rintro rfl
      simp at hdrop
    have hunit : 1 <<< (n.log2 - 52) ≤ n := by
      rw [Nat.shiftLeft_eq, Nat.one_mul]
      exact (Nat.pow_le_pow_right (by decide) (Nat.sub_le _ _)).trans (Nat.log2_self_le hn)
    have hwhole : n / (1 <<< (n.log2 - 52)) * (1 <<< (n.log2 - 52)) ≤ n := Nat.div_mul_le_self _ _
    rw [Nat.add_mul]
    split <;> omega

/-- A number of 64 bits is not too large. -/
theorem isHuge_toDigits {n : Nat} (h : n < NumberParts.Scaled.limit) :
    NumberParts.isHuge ⟨Nat.toDigits 10 n, [], []⟩ = false := by
  have hvalue : Nat.ofDigitChars 10 (Nat.toDigits 10 n) 0 = n := Nat.ofDigitChars_ten_toDigits
  have hwhole : NumberParts.Scaled.addWhole {} (Nat.toDigits 10 n) = ⟨n, 0⟩ := by
    have hadd := addWhole_eq (m := 0) (Nat.toDigits 10 n) (by rwa [hvalue])
    rwa [hvalue] at hadd
  have hone : NumberParts.roundedTo53 (Nat.pow 10 (0 : Int).toNat) = 1 := by decide
  have hsmall : ¬ 1 <<< 1024 - 1 <<< 970 ≤ NumberParts.roundedTo53 n * 1 := by
    have hround : NumberParts.roundedTo53 n ≤ 2 * n := roundedTo53_le n
    have hbound : 2 * NumberParts.Scaled.limit < 1 <<< 1024 - 1 <<< 970 := by decide +kernel
    generalize 1 <<< 1024 - 1 <<< 970 = bound at hbound
    omega
  have hplaces : (0 : Int) + NumberParts.exponentValue ⟨Nat.toDigits 10 n, [], []⟩ = 0 := rfl
  unfold NumberParts.isHuge
  simp only [hwhole, List.drop_nil, NumberParts.Scaled.addFraction, hplaces, hone,
    decide_eq_false hsmall]
  simp

/-- The digits of a number of 64 bits are read back. -/
theorem answers_number {n : Nat} (h : n < NumberParts.Scaled.limit) (hs : Stops s) :
    Answers (number false) (Nat.toDigits 10 n ++ s) (.integer n) s := by
  have hvalue : digitsValue (Nat.toDigits 10 n) = n := digitsValue_toDigits n
  have hfits : ((n : Int) < 0x10000000000000000) = true := by
    have : (NumberParts.Scaled.limit : Int) = 0x10000000000000000 := rfl
    simp
    omega
  unfold number
  refine .bind (answers_numberParts n hs) ?_
  simp only [isHuge_toDigits h, hvalue, Bool.false_eq_true, if_false, List.isEmpty_nil, hfits]
  exact .pure _

end TypeQuery.Json.Reader
