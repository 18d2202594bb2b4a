import Mathlib.Computability.MyhillNerode
import Mathlib.Data.List.TakeWhile
import TypeQuery.Proofs.Json.Grammar

/-!
# TypeQuery.Proofs.Json.Reading

What a reader has read, told backwards.  `Reads r before after` says: whatever
`r` leaves behind, if that is a text of `after` then the text it began with is
one of `before`.  So the statements compose like continuations, and nothing has
to be said about where a piece of the text ends:

```
Reads x P Q  →  (∀ a, Reads (f a) (Q a) R)  →  Reads (x >>= f) P R
```

* `Reads`, `Fails`, `given` — the calculus, and one rule per primitive;
* `reads_string`, `reads_numberParts` — the scalars.
-/

namespace TypeQuery.Json.Reader

open Lexical

variable {α β : Type} {r x : Reader α} {f : α → Reader β} {P P' : Language Char}
  {Q : α → Language Char} {R : β → Language Char}

/-! ## the calculus -/

/-- Whenever `r` leaves a text of `after`, it has begun with one of `before`. -/
def Reads (r : Reader α) (before : Language Char) (after : α → Language Char) : Prop :=
  ∀ ⦃here a there⦄, r.run here = .ok (a, there) → there.rest ∈ after a → here.rest ∈ before

/-- `r` never answers. -/
def Fails (r : Reader α) : Prop :=
  ∀ ⦃here a there⦄, r.run here ≠ .ok (a, there)

/-- The texts that belong to `P` if the character `o` is what they begin with. -/
def given (o : Option Char) (P : Language Char) : Language Char :=
  {cs | cs.head? = o → cs ∈ P}

/-- The texts that belong to `P` if `p` holds. -/
def assuming (p : Prop) (P : Language Char) : Language Char :=
  {cs | p → cs ∈ P}

theorem le_given {o : Option Char} : P ≤ given o P :=
  fun _ h _ => h

theorem run_bind_eq_ok {here there : Cursor} {b : β} :
    (x >>= f).run here = .ok (b, there) ↔
      ∃ a mid, x.run here = .ok (a, mid) ∧ (f a).run mid = .ok (b, there) := by
  rw [StateT.run_bind]
  cases hx : x.run here with
  | error e =>
    refine ⟨nofun, ?_⟩
    rintro ⟨_, _, h, -⟩
    cases h
  | ok p =>
    obtain ⟨a, mid⟩ := p
    refine ⟨fun h => ⟨a, mid, rfl, h⟩, ?_⟩
    rintro ⟨_, _, h, h'⟩
    cases h
    exact h'

namespace Reads

theorem pure (a : α) : Reads (Pure.pure a) (Q a) Q := by
  intro here b there h hafter
  cases h
  exact hafter

theorem bind (hx : Reads x P Q) (hf : ∀ a, Reads (f a) (Q a) R) : Reads (x >>= f) P R := by
  intro here b there h hafter
  obtain ⟨a, mid, hfirst, hrest⟩ := run_bind_eq_ok.mp h
  exact hx hfirst (hf a hrest hafter)

theorem mono (h : Reads r P' Q) (hle : P' ≤ P) : Reads r P Q :=
  fun _ _ _ hrun hafter => hle (h hrun hafter)

theorem ite {c : Prop} [Decidable c] {y : Reader α} (hx : c → Reads x P Q)
    (hy : ¬c → Reads y P Q) : Reads (if c then x else y) P Q := by
  split
  · exact hx ‹_›
  · exact hy ‹_›

theorem assuming {p : Prop} (h : p → Reads r P Q) : Reads r (assuming p P) Q :=
  fun _ _ _ hrun hafter hp => h hp hrun hafter

theorem given {o : Option Char} (h : Reads r P Q) : Reads r (given o P) Q :=
  h.mono le_given

end Reads

namespace Fails

theorem reads (h : Fails r) : Reads r P Q :=
  fun _ _ _ hrun _ => (h hrun).elim

theorem bind (h : Fails x) : Fails (x >>= f) := by
  intro here b there hrun
  obtain ⟨a, mid, hfirst, -⟩ := run_bind_eq_ok.mp hrun
  exact h hfirst

theorem bind_right (h : ∀ a, Fails (f a)) : Fails (x >>= f) := by
  intro here b there hrun
  obtain ⟨a, mid, -, hrest⟩ := run_bind_eq_ok.mp hrun
  exact h a hrest

end Fails

theorem fails_throw (e : Fault) : Fails (throw e : Reader α) := by
  intro here a there h
  cases h

theorem fails_failHere (e : Nat → Fault) : Fails (failHere e : Reader α) := by
  intro here a there h
  cases h

theorem fails_failNext (e : Nat → Fault) : Fails (failNext e : Reader α) := by
  intro here a there h
  obtain ⟨_, mid, -, h⟩ := run_bind_eq_ok.mp h
  split at h <;> cases h

theorem fails_failShape : Fails (failShape : Reader α) := by
  intro here a there h
  cases h

/-! ## primitives -/

theorem reads_get : Reads get P (fun _ => P) := by
  intro here a there h hafter
  cases h
  exact hafter

theorem reads_peek : Reads peek P (fun o => given o P) := by
  intro here a there h hafter
  cases h
  exact hafter rfl

/-- What `next` has taken. -/
def taken : Option Char → List Char
  | some c => [c]
  | none => []

theorem reads_next : Reads next P (fun o => P.leftQuotient (taken o)) := by
  intro here a there h hafter
  obtain ⟨rest, line⟩ := here
  cases rest <;> cases h <;> exact hafter

/-- Taking the character that is known to come next. -/
theorem reads_next_given (c : Char) :
    Reads next (given (some c) P) (fun _ => P.leftQuotient [c]) := by
  intro here a there h hafter hc
  obtain ⟨rest, line⟩ := here
  cases rest with
  | nil => cases hc
  | cons d ds =>
    obtain rfl : d = c := Option.some.inj hc
    cases h
    exact hafter

theorem reads_digits : Reads digits P (fun ds =>
    assuming (∀ d ∈ ds, isDigit d = true) (P.leftQuotient ds)) := by
  intro here a there h hafter
  cases h
  have := hafter fun d hd => List.mem_takeWhile_imp hd
  rwa [Language.mem_leftQuotient, List.takeWhile_append_dropWhile] at this

theorem reads_optionally (p : Char → Bool) : Reads (optionally p) P (fun ds =>
    assuming (ds = [] ∨ ∃ c, p c = true ∧ ds = [c]) (P.leftQuotient ds)) := by
  refine .bind reads_peek fun o => ?_
  split
  · next c =>
    split
    · next hc =>
      exact .bind (reads_next_given c) fun _ =>
        (Reads.pure _).mono fun cs h => h (.inr ⟨c, hc, rfl⟩)
    · exact .given ((Reads.pure _).mono fun cs h => h (.inl rfl))
  · exact .given ((Reads.pure _).mono fun cs h => h (.inl rfl))

theorem reads_literal (es : List Char) : Reads (literal es) ({es} * P) (fun _ => P) := by
  induction es with
  | nil => exact (Reads.pure ()).mono fun cs h => ⟨[], rfl, cs, h, rfl⟩
  | cons e es ih =>
    refine .bind reads_next fun o => ?_
    split
    · exact (fails_failHere _).reads
    · next c =>
      split
      · next hc =>
        obtain rfl : c = e := by simpa using hc
        refine ih.mono ?_
        rintro _ ⟨cs, hes, rest, hrest, rfl⟩
        obtain rfl : cs = es := hes
        exact ⟨c :: cs, rfl, rest, hrest, rfl⟩
      · exact (fails_failHere _).reads

/-! ## numbers -/

theorem reads_wholePart (rules : NumberRules) :
    Reads (wholePart rules) (Lexical.whole * P) (fun _ => P) := by
  refine .bind reads_next fun o => ?_
  split
  · exact (fails_failHere _).reads
  · have zero : P ≤ (Lexical.whole * P).leftQuotient ['0'] := fun cs h =>
      ⟨['0'], ⟨⟨by simp, by simp [isDigit]⟩, fun _ => rfl⟩, cs, h, rfl⟩
    refine .bind reads_peek fun o => ?_
    split
    · split
      · exact (fails_failNext _).reads
      · exact .given ((Reads.pure _).mono zero)
    · exact .given ((Reads.pure _).mono zero)
  · next c hzero =>
    split
    · next hc =>
      refine .bind reads_digits fun ds => .assuming fun hds => (Reads.pure _).mono fun cs h => ?_
      refine ⟨c :: ds, ⟨⟨by simp, ?_⟩, fun hhead => ?_⟩, cs, h, rfl⟩
      · exact List.forall_mem_cons.mpr ⟨hc, hds⟩
      · obtain rfl : c = '0' := Option.some.inj hhead
        exact absurd rfl hzero
    · exact (fails_failHere _).reads

theorem reads_fractionPart (rules : NumberRules) :
    Reads (fractionPart rules) (fraction * P) (fun _ => P) := by
  refine .bind (reads_optionally _) fun point => .assuming fun hpoint => ?_
  split
  · next hempty =>
    obtain rfl : point = [] := by simpa using hempty
    exact (Reads.pure _).mono fun cs h => ⟨[], .inl rfl, cs, h, rfl⟩
  · next hempty =>
    obtain rfl | ⟨c, hc, rfl⟩ := hpoint
    · exact absurd rfl hempty
    obtain rfl : c = '.' := by simpa using hc
    refine .bind reads_digits fun ds => .assuming fun hds => ?_
    split
    · refine .bind reads_peek fun o => ?_
      split <;> exact (fails_failNext _).reads
    · next hne =>
      exact (Reads.pure _).mono fun cs h =>
        ⟨'.' :: ds, .inr ⟨['.'], rfl, ds, ⟨by simpa using hne, hds⟩, rfl⟩, cs, h, rfl⟩

theorem reads_exponentPart (rules : NumberRules) :
    Reads (exponentPart rules) (exponent * P) (fun _ => P) := by
  refine .bind (reads_optionally _) fun mark => .assuming fun hmark => ?_
  split
  · next hempty =>
    obtain rfl : mark = [] := by simpa using hempty
    exact (Reads.pure _).mono fun cs h => ⟨[], .inl rfl, cs, h, rfl⟩
  · next hempty =>
    obtain rfl | ⟨e, he, rfl⟩ := hmark
    · exact absurd rfl hempty
    refine .bind (reads_optionally _) fun sign => .assuming fun hsign => ?_
    refine .bind reads_next fun o => ?_
    split
    · exact (fails_failHere _).reads
    · next c =>
      split
      · next hc =>
        refine .bind reads_digits fun ds => .assuming fun hds => (Reads.pure _).mono fun cs h => ?_
        have hletter : [e] ∈ ({['e'], ['E']} : Language Char) := by
          simp only [Bool.or_eq_true, beq_iff_eq] at he
          rcases he with rfl | rfl
          · exact .inl rfl
          · exact .inr rfl
        have hsign : sign ∈ ({[], ['+'], ['-']} : Language Char) := by
          rcases hsign with rfl | ⟨s, hs, rfl⟩
          · exact .inl rfl
          · simp only [Bool.or_eq_true, beq_iff_eq] at hs
            rcases hs with rfl | rfl
            · exact .inr (.inl rfl)
            · exact .inr (.inr rfl)
        refine ⟨[e] ++ (sign ++ c :: ds), .inr ⟨[e], hletter, _, ⟨sign, hsign, c :: ds,
          ⟨by simp, List.forall_mem_cons.mpr ⟨hc, hds⟩⟩, rfl⟩, rfl⟩, cs, h, by simp [taken]⟩
      · exact (fails_failHere _).reads

/-- A number is read after its sign. -/
theorem reads_numberParts (rules : NumberRules) :
    Reads (numberParts rules) (unsigned * P) (fun _ => P) := by
  rw [unsigned, mul_assoc, mul_assoc]
  exact .bind (reads_wholePart rules) fun _ => .bind (reads_fractionPart rules) fun _ =>
    .bind (reads_exponentPart rules) fun _ => .pure _

theorem reads_number (negative : Bool) : Reads (number negative) (unsigned * P) (fun _ => P) := by
  refine .bind (reads_numberParts _) fun parts => .ite (fun _ => (fails_failHere _).bind.reads)
    fun _ => .ite (fun _ => .pure _) fun _ => .pure _

/-! ## strings -/

/-- What stands between quotes. -/
def bodies : Language Char :=
  {body | StringBody body}

/-- Four hexadecimal digits. -/
def quads : Language Char :=
  {cs | ∃ a b c d, (∀ e ∈ [a, b, c, d], (hexDigit? e).isSome) ∧ cs = [a, b, c, d]}

theorem nil_mem_bodies_mul {cs : List Char} (h : cs ∈ P) : cs ∈ bodies * P :=
  ⟨[], .nil, cs, h, rfl⟩

theorem char_mem_bodies_mul {c : Char} {cs : List Char} (hprint : 0x20 ≤ c.toNat)
    (hquote : c ≠ '"') (hslash : c ≠ '\\') (h : cs ∈ bodies * P) : c :: cs ∈ bodies * P := by
  obtain ⟨body, hbody, rest, hrest, rfl⟩ := h
  exact ⟨_, .char hprint hquote hslash hbody, rest, hrest, rfl⟩

theorem escape_mem_bodies_mul {c : Char} {cs : List Char}
    (hc : c ∈ ['"', '\\', '/', 'b', 'f', 'n', 'r', 't']) (h : cs ∈ bodies * P) :
    '\\' :: c :: cs ∈ bodies * P := by
  obtain ⟨body, hbody, rest, hrest, rfl⟩ := h
  exact ⟨_, .escape hc hbody, rest, hrest, rfl⟩

theorem quad_mem_bodies_mul {cs : List Char} (h : cs ∈ quads * (bodies * P)) :
    '\\' :: 'u' :: cs ∈ bodies * P := by
  obtain ⟨_, ⟨a, b, c, d, hhex, rfl⟩, _, ⟨body, hbody, rest, hrest, rfl⟩, rfl⟩ := h
  exact ⟨_, .codePoint hhex hbody, rest, hrest, rfl⟩

theorem hexQuad?_eq_some {cs rest : List Char} {n : Nat} (h : hexQuad? cs = some (n, rest)) :
    ∃ q ∈ quads, cs = q ++ rest := by
  match cs, h with
  | a :: b :: c :: d :: cs, h =>
    simp only [hexQuad?, Option.bind_eq_bind, Option.bind_eq_some_iff, Option.pure_def,
      Option.some.injEq, Prod.mk.injEq] at h
    obtain ⟨_, ha, _, hb, _, hc, _, hd, -, rfl⟩ := h
    exact ⟨[a, b, c, d], ⟨a, b, c, d, by simp [ha, hb, hc, hd], rfl⟩, rfl⟩

theorem reads_hexQuad : Reads hexQuad (quads * P) (fun _ => P) := by
  intro here n there h hafter
  obtain ⟨_, mid, hget, h⟩ := run_bind_eq_ok.mp h
  cases hget
  split at h
  · next hquad =>
    obtain ⟨q, hq, heq⟩ := hexQuad?_eq_some hquad
    cases h
    rw [heq]
    exact ⟨q, hq, _, hafter, rfl⟩
  · cases h

theorem reads_follow (c : Char) : Reads (follow c) P (fun _ => P.leftQuotient [c]) := by
  refine .bind reads_next fun o => ?_
  split
  · exact (fails_failHere _).reads
  · next d =>
    split
    · next hd =>
      obtain rfl : d = c := by simpa using hd
      exact .pure _
    · exact (fails_failHere _).reads

theorem reads_escapedChar :
    Reads escapedChar (quads * (bodies * P)) (fun _ => bodies * P) := by
  refine .bind reads_hexQuad fun high => ?_
  split
  · exact (fails_failHere _).reads
  · split
    · exact .pure _
    · refine .bind (reads_follow _) fun _ => .bind (reads_follow _) fun _ =>
        .mono (.bind reads_hexQuad fun low => ?_) fun cs h => quad_mem_bodies_mul h
      refine .ite (fun _ => (fails_failHere _).reads) fun _ => ?_
      -- the code point is kept from being computed
      generalize Char.ofNat _ = c
      exact .pure c

theorem reads_escape (keep : Bool) :
    Reads (escape keep) ((bodies * P).leftQuotient ['\\']) (fun _ => bodies * P) := by
  have simple {c : Char} {cs : List Char} (hc : c ∈ ['"', '\\', '/', 'b', 'f', 'n', 'r', 't']) :
      Reads (pure cs) (((bodies * P).leftQuotient ['\\']).leftQuotient [c])
        (fun _ => bodies * P) :=
    (Reads.pure cs).mono fun _ h => escape_mem_bodies_mul hc h
  refine .bind reads_next fun o => ?_
  split
  · exact (fails_failHere _).reads
  iterate 8 exact simple (by decide)
  · split
    · exact .mono (.bind reads_escapedChar fun _ => .pure _) fun cs h => quad_mem_bodies_mul h
    · exact .mono (.bind reads_hexQuad fun _ => .pure _) fun cs h => quad_mem_bodies_mul h
  · exact (fails_failHere _).reads

theorem reads_stringBody (keep : Bool) (fuel : Nat) (read : List Char) :
    Reads (stringBody keep fuel read) (bodies * ({['"']} * P)) (fun _ => P) := by
  induction fuel generalizing read with
  | zero => exact (fails_failHere _).reads
  | succ fuel ih =>
    refine .bind reads_get fun here => .bind reads_next fun o => ?_
    split
    · exact (fails_failHere _).reads
    · exact (Reads.pure _).mono fun cs h => nil_mem_bodies_mul ⟨['"'], rfl, cs, h, rfl⟩
    · exact .bind (reads_escape keep) fun cs => ih _
    · next c hquote hslash =>
      split
      · unfold failControl
        split
        · exact (fails_failHere _).reads
        · exact (fails_throw _).reads
      · next hprint =>
        exact (ih _).mono fun cs h => char_mem_bodies_mul (by simpa using hprint)
          (by simpa using hquote) (by simpa using hslash) h

/-- A string is read after its opening quote. -/
theorem reads_string : Reads string (bodies * ({['"']} * P)) (fun _ => P) :=
  .bind reads_get fun _ => .bind (reads_stringBody ..) fun _ => .pure _

theorem reads_skipString : Reads skipString (bodies * ({['"']} * P)) (fun _ => P) :=
  .bind reads_get fun _ => .bind (reads_stringBody ..) fun _ => .pure _

end TypeQuery.Json.Reader
