import TypeQuery.Text.LineMap

/-!
# TypeQuery.Proofs.Text.LineMap

Offsets and positions of a text are two names for the same places. The line
starts of a line map are strictly increasing and none of them lies beyond the
text (`LineMap.Valid`), so every offset belongs to exactly one line.  Both
directions of the line map are measured against one relation:

```
m.Stands p o   :   offset o is on line p.line, p.character units after its start
```

* `offsetOf?_eq_some_iff` — a position has an offset exactly when it stands there;
* `stands_positionOf` — an offset of the text stands at its position;
* `positionOf_bijective_on_text` — the two directions are inverse to each other.
-/

namespace TypeQuery.Text

/-! ## where lines start -/

theorem lt_of_mem_startsAfter {here s : Nat} {cs : List Char} (h : s ∈ startsAfter here cs) :
    here < s := by
  induction cs generalizing here with
  | nil => simp [startsAfter] at h
  | cons c cs ih =>
      have hc := units_pos c
      have htail : s ∈ startsAfter (here + units c) cs → here < s := fun hs => by
        have hlt := ih hs
        omega
      simp only [startsAfter] at h
      split at h
      · cases List.mem_cons.mp h with
        | inl he => omega
        | inr hs => exact htail hs
      · exact htail h

theorem le_of_mem_startsAfter {here s : Nat} {cs : List Char} (h : s ∈ startsAfter here cs) :
    s ≤ here + unitLength cs := by
  induction cs generalizing here with
  | nil => simp [startsAfter] at h
  | cons c cs ih =>
      have htail : s ∈ startsAfter (here + units c) cs → s ≤ here + unitLength (c :: cs) :=
        fun hs => by
          have hle := ih hs
          rw [unitLength_cons]
          omega
      simp only [startsAfter] at h
      split at h
      · cases List.mem_cons.mp h with
        | inl he => rw [he, unitLength_cons]; omega
        | inr hs => exact htail hs
      · exact htail h

theorem pairwise_startsAfter (here : Nat) (cs : List Char) :
    (startsAfter here cs).Pairwise (· < ·) := by
  induction cs generalizing here with
  | nil => exact List.Pairwise.nil
  | cons c cs ih =>
      simp only [startsAfter]
      split
      · exact List.pairwise_cons.mpr ⟨fun _ hs => lt_of_mem_startsAfter hs, ih _⟩
      · exact ih _

namespace LineMap

/-- What makes a list of offsets the line starts of a text of that length. -/
structure Valid (m : LineMap) : Prop where
  first : m.starts[0]? = some 0
  increasing : m.starts.Pairwise (· < ·)
  within : ∀ s ∈ m.starts, s ≤ m.length

theorem valid_ofText (cs : List Char) : (ofText cs).Valid where
  first := rfl
  increasing :=
    List.pairwise_cons.mpr ⟨fun _ hs => lt_of_mem_startsAfter hs, pairwise_startsAfter 0 cs⟩
  within s hs := by
    cases List.mem_cons.mp hs with
    | inl he => omega
    | inr ht =>
        have hle := le_of_mem_startsAfter ht
        simpa [ofText] using hle

/-- A later line starts later. -/
theorem Valid.lt_of_lt {m : LineMap} (hm : m.Valid) {i j s t : Nat} (hs : m.starts[i]? = some s)
    (ht : m.starts[j]? = some t) (hij : i < j) : s < t := by
  obtain ⟨hi, rfl⟩ := List.getElem?_eq_some_iff.mp hs
  obtain ⟨hj, rfl⟩ := List.getElem?_eq_some_iff.mp ht
  exact List.pairwise_iff_getElem.mp hm.increasing i j hi hj hij

/-- Every line before a line has at least one unit. -/
theorem Valid.line_le_start {m : LineMap} (hm : m.Valid) {i s : Nat}
    (hs : m.starts[i]? = some s) : i ≤ s := by
  induction i generalizing s with
  | zero => exact Nat.zero_le s
  | succ i ih =>
      have hlt : i < m.starts.length := Nat.lt_of_succ_lt (List.getElem?_eq_some_iff.mp hs).1
      have hprev := ih (List.getElem?_eq_getElem hlt)
      have hlater := hm.lt_of_lt (List.getElem?_eq_getElem hlt) hs (Nat.lt_succ_self i)
      omega

/-! ## places -/

/-- Offset `o` stands at position `p`: on that line, before the next one starts, and that many units
behind the start of the line. -/
structure Stands (m : LineMap) (p : Position) (o : Nat) : Prop where
  start : ∃ s, m.starts[p.line]? = some s ∧ o = s + p.character
  before : ∀ next, m.starts[p.line + 1]? = some next → o < next
  inside : o ≤ m.length

/-- The line of an offset is unique: a later line would start behind the offset. -/
theorem Stands.line_le {m : LineMap} (hm : m.Valid) {p q : Position} {o : Nat}
    (hp : m.Stands p o) (hq : m.Stands q o) : q.line ≤ p.line := by
  obtain ⟨t, ht, hot⟩ := hq.start
  apply Nat.le_of_not_lt
  intro hlt
  -- the line after `p` exists, because the line of `q` does
  have hlen : p.line + 1 < m.starts.length := by
    have := (List.getElem?_eq_some_iff.mp ht).1
    omega
  have hnext := hp.before _ (List.getElem?_eq_getElem hlen)
  rcases Nat.lt_or_ge (p.line + 1) q.line with hfar | hnear
  · have := hm.lt_of_lt (List.getElem?_eq_getElem hlen) ht hfar
    omega
  · have heq : q.line = p.line + 1 := by omega
    rw [heq, List.getElem?_eq_getElem hlen] at ht
    have := Option.some.inj ht
    omega

theorem Stands.unique {m : LineMap} (hm : m.Valid) {p q : Position} {o : Nat}
    (hp : m.Stands p o) (hq : m.Stands q o) : p = q := by
  have hline : p.line = q.line := Nat.le_antisymm (hq.line_le hm hp) (hp.line_le hm hq)
  obtain ⟨s, hs, hos⟩ := hp.start
  obtain ⟨t, ht, hot⟩ := hq.start
  rw [hline, ht] at hs
  have hst : t = s := Option.some.inj hs
  have hchar : p.character = q.character := by omega
  cases p
  cases q
  simp_all

/-- Neither the line nor the character is larger than the offset. -/
theorem Stands.le_offset {m : LineMap} (hm : m.Valid) {p : Position} {o : Nat}
    (h : m.Stands p o) : p.line ≤ o ∧ p.character ≤ o := by
  obtain ⟨s, hs, ho⟩ := h.start
  have hline := hm.line_le_start hs
  omega

/-! ## from offsets to positions -/

/-- The walk over the line starts stops at the last one that does not exceed the offset. -/
theorem locate_eq (offset : Nat) (ss : List Nat) (line start : Nat) (h : start ≤ offset) :
    ∃ k s, (start :: ss)[k]? = some s ∧ s ≤ offset ∧
      (∀ next, (start :: ss)[k + 1]? = some next → offset < next) ∧
      locate offset ss line start = ⟨line + k, offset - s⟩ := by
  induction ss generalizing line start with
  | nil => exact ⟨0, start, rfl, h, by simp, rfl⟩
  | cons t ts ih =>
      by_cases ht : t ≤ offset
      · obtain ⟨k, s, hk, hs, hnext, heq⟩ := ih (line + 1) t ht
        refine ⟨k + 1, s, hk, hs, hnext, ?_⟩
        rw [locate, if_pos ht, heq]
        congr 1
        omega
      · refine ⟨0, start, rfl, h, ?_, ?_⟩
        · intro next hn
          have : t = next := Option.some.inj hn
          omega
        · rw [locate, if_neg ht, Nat.add_zero]

theorem stands_positionOf {m : LineMap} (hm : m.Valid) {o : Nat} (h : o ≤ m.length) :
    m.Stands (m.positionOf o) o := by
  obtain ⟨ss, hss⟩ : ∃ ss, m.starts = 0 :: ss := by
    have hfirst := hm.first
    cases hstarts : m.starts with
    | nil => simp [hstarts] at hfirst
    | cons s ss =>
        rw [hstarts] at hfirst
        have : s = 0 := Option.some.inj hfirst
        exact ⟨ss, by rw [this]⟩
  obtain ⟨k, s, hk, hs, hnext, heq⟩ := locate_eq o ss 0 0 (Nat.zero_le o)
  have hpos : m.positionOf o = ⟨k, o - s⟩ := by
    rw [positionOf, hss, List.tail_cons, Nat.min_eq_left h, heq, Nat.zero_add]
  rw [hpos]
  exact ⟨⟨s, by rw [hss]; exact hk, by simp; omega⟩, by rw [hss]; exact hnext, h⟩

@[simp] theorem positionOf_min (m : LineMap) (o : Nat) :
    m.positionOf (min o m.length) = m.positionOf o := by
  rw [positionOf, positionOf, Nat.min_assoc, Nat.min_self]

theorem positionOf_of_length_le {m : LineMap} {o : Nat} (h : m.length ≤ o) :
    m.positionOf o = m.positionOf m.length := by
  rw [positionOf, positionOf, Nat.min_eq_right h, Nat.min_self]

/-! ## from positions to offsets -/

/-- A position has an offset exactly when the offset stands there, as long as the text is no longer
than offsets can say. -/
theorem offsetOf?_eq_some_iff {m : LineMap} (hm : m.Valid) (hlen : m.length < offsetLimit)
    (p : Position) (o : Nat) : m.offsetOf? p = some o ↔ m.Stands p o := by
  unfold offsetOf?
  constructor
  · intro h
    split at h
    · contradiction
    · next s hs =>
        dsimp only at h
        split at h
        · contradiction
        · split at h
          · next next hn =>
              split at h
              · next hlt =>
                  have ho : s + p.character = o := Option.some.inj h
                  have hin := hm.within next (List.mem_of_getElem? hn)
                  refine ⟨⟨s, hs, ho.symm⟩, ?_, by omega⟩
                  intro next' hn'
                  rw [hn] at hn'
                  have := Option.some.inj hn'
                  omega
              · contradiction
          · next hn =>
              split at h
              · next hle =>
                  have ho : s + p.character = o := Option.some.inj h
                  exact ⟨⟨s, hs, ho.symm⟩, fun next' hn' => by simp [hn] at hn', by omega⟩
              · contradiction
  · rintro ⟨⟨s, hs, rfl⟩, hbefore, hin⟩
    rw [hs]
    dsimp only
    rw [if_neg (by omega)]
    split
    · next next hn => rw [if_pos (hbefore next hn)]
    · rw [if_pos hin]

/-- A position without a fitting offset is refused before it is compared with any line. -/
theorem offsetOf?_of_limit_le {m : LineMap} {p : Position} {s : Nat}
    (hs : m.lineStart? p.line = some s) (h : offsetLimit ≤ s + p.character) :
    m.offsetOf? p = none := by
  rw [lineStart?] at hs
  unfold offsetOf?
  rw [hs]
  exact if_pos h

/-- **Offsets and positions are inverse**: over a text that offsets can address, the offsets up to
its end and the positions that have an offset are in bijection. Every other position is refused,
also one whose sum leaves the width of an offset, and an offset beyond the text has the position of
its end. -/
theorem positionOf_bijective_on_text (cs : List Char) (h : unitLength cs < offsetLimit) :
    (∀ o ≤ (ofText cs).length, (ofText cs).offsetOf? ((ofText cs).positionOf o) = some o) ∧
    (∀ p o, (ofText cs).offsetOf? p = some o →
      o ≤ (ofText cs).length ∧ (ofText cs).positionOf o = p) ∧
    (∀ p, (ofText cs).offsetOf? p ≠ none ↔ ∃ o ≤ (ofText cs).length, (ofText cs).positionOf o = p) ∧
    (∀ p s, (ofText cs).lineStart? p.line = some s → offsetLimit ≤ s + p.character →
      (ofText cs).offsetOf? p = none) ∧
    (∀ o, (ofText cs).length ≤ o →
      (ofText cs).positionOf o = (ofText cs).positionOf (ofText cs).length) := by
  have hm := valid_ofText cs
  have hlen : (ofText cs).length < offsetLimit := h
  have hthere : ∀ o ≤ (ofText cs).length,
      (ofText cs).offsetOf? ((ofText cs).positionOf o) = some o := fun o ho =>
    (offsetOf?_eq_some_iff hm hlen _ o).mpr (stands_positionOf hm ho)
  have hback : ∀ p o, (ofText cs).offsetOf? p = some o →
      o ≤ (ofText cs).length ∧ (ofText cs).positionOf o = p := fun p o hp => by
    have hst := (offsetOf?_eq_some_iff hm hlen p o).mp hp
    exact ⟨hst.inside, (stands_positionOf hm hst.inside).unique hm hst⟩
  refine ⟨hthere, hback, ?_, fun p s hs hlim => offsetOf?_of_limit_le hs hlim,
    fun o ho => positionOf_of_length_le ho⟩
  intro p
  constructor
  · intro hne
    obtain ⟨o, ho⟩ := Option.ne_none_iff_exists'.mp hne
    exact ⟨o, hback p o ho⟩
  · rintro ⟨o, ho, rfl⟩
    rw [hthere o ho]
    exact Option.some_ne_none o

/-- A text with every kind of line end, a pair of units and an empty last line. -/
theorem positionOf_bijective_on_mixed_lines :
    unitLength "a\r\nb\r\u2028😀\n".toList < offsetLimit ∧
    (ofText "a\r\nb\r\u2028😀\n".toList).offsetOf?
      ((ofText "a\r\nb\r\u2028😀\n".toList).positionOf 9) = some 9 := by
  have h : unitLength "a\r\nb\r\u2028😀\n".toList < offsetLimit := by decide
  exact ⟨h, (positionOf_bijective_on_text _ h).1 9 (by decide)⟩

end LineMap

end TypeQuery.Text
