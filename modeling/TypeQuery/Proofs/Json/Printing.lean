import TypeQuery.Proofs.Json.Answering
import TypeQuery.Proofs.Json.Values

/-!
# TypeQuery.Proofs.Json.Printing

Printed values are read back.  The two layouts differ in their white space only:
a `Spacing` says what stands before the items of a group and after a colon, and
`Prints` that a printer writes everything else the same way:

```
gap (d+1)              gap (d+1)          gap d
   ↓                      ↓                  ↓
[      item , ... ,           item                 ]
```

So reading back is proved once, by induction on the values that fit the limits
of the reader, and holds of both layouts.

* `Spacing`, `Spacing.Prints` — a layout by its white space;
* `Fits` — the values within the limits of the reader;
* `Spacing.Prints.readText_eq` — what is printed of a value reads as that value.
-/

namespace TypeQuery.Json

open Reader

variable {α : Type} {s : List Char}

/-! ## layouts -/

/-- Where a layout puts white space. -/
structure Spacing where
  /-- What stands before the items of a group and before its closing mark, by their depth. -/
  gap : Nat → List Char
  /-- What stands between a colon and the value after it. -/
  space : List Char
  blank_gap : ∀ depth, ∀ c ∈ gap depth, isBlank c = true
  blank_space : ∀ c ∈ space, isBlank c = true

namespace Spacing

variable (sp : Spacing)

/-- Items one after the other; all but the first follow a comma. -/
def items (depth : Nat) (print : α → List Char) (first : Bool) : List α → List Char
  | [] => []
  | a :: as => (if first then [] else [',']) ++
      (sp.gap depth ++ (print a ++ items depth print false as))

/-- A list or an object that stands at the given depth. -/
def group (depth : Nat) (f : Frame) (print : α → List Char) (as : List α) : List Char :=
  Frame.opener f :: (sp.items (depth + 1) print true as ++
    ((if as.isEmpty then [] else sp.gap depth) ++ [f.close]))

/-- A field of an object. -/
def field (print : Json → List Char) (f : String × Json) : List Char :=
  printText f.1 ++ ':' :: (sp.space ++ print f.2)

/-- `chars` prints values with this spacing. -/
structure Prints (chars : Nat → Json → List Char) : Prop where
  null : ∀ depth, chars depth .null = ['n', 'u', 'l', 'l']
  yes : ∀ depth, chars depth (.bool true) = ['t', 'r', 'u', 'e']
  no : ∀ depth, chars depth (.bool false) = ['f', 'a', 'l', 's', 'e']
  number : ∀ depth n, chars depth (.number n) = printNumber n
  text : ∀ depth s, chars depth (.text s) = printText s
  list : ∀ depth vs, chars depth (.list vs) = sp.group depth .list (chars (depth + 1)) vs
  object : ∀ depth fs,
    chars depth (.object fs) = sp.group depth .object (sp.field (chars (depth + 1))) fs

end Spacing

/-- No white space at all. -/
def compactSpacing : Spacing where
  gap _ := []
  space := []
  blank_gap _ := List.forall_mem_nil _
  blank_space := List.forall_mem_nil _

theorem compactItems_eq (depth : Nat) (first : Bool) (vs : List Json) :
    compactItems first vs = compactSpacing.items depth compactChars first vs := by
  induction vs generalizing first with
  | nil => rfl
  | cons v vs ih =>
    rw [compactItems, Spacing.items, ih, List.append_assoc]
    rfl

theorem compactFields_eq (depth : Nat) (first : Bool) (fs : List (String × Json)) :
    compactFields first fs =
      compactSpacing.items depth (compactSpacing.field compactChars) first fs := by
  induction fs generalizing first with
  | nil => rfl
  | cons f fs ih =>
    rw [compactFields, Spacing.items, ih]
    simp [compactSpacing, Spacing.field]

/-- The compact layout has no white space. -/
theorem prints_compactChars : compactSpacing.Prints fun _ => compactChars where
  null _ := rfl
  yes _ := rfl
  no _ := rfl
  number _ _ := rfl
  text _ _ := rfl
  list depth vs := by
    rw [compactChars, compactItems_eq (depth + 1), Spacing.group]
    simp [compactSpacing, Frame.opener, Frame.close]
  object depth fs := by
    rw [compactChars, compactFields_eq (depth + 1), Spacing.group]
    simp [compactSpacing, Frame.opener, Frame.close]

theorem isBlank_of_mem_newLine {depth : Nat} {c : Char} (hc : c ∈ newLine depth) :
    isBlank c = true := by
  cases hc with
  | head => rfl
  | tail _ hc =>
    rw [List.eq_of_mem_replicate hc]
    rfl

/-- A line for every item, two spaces deeper than the marks around it. -/
def prettySpacing : Spacing where
  gap := newLine
  space := [' ']
  blank_gap _ _ := isBlank_of_mem_newLine
  blank_space := by simp [isBlank]

theorem prettyItems_eq (depth : Nat) (vs : List Json) :
    prettyItems depth vs = prettySpacing.items depth (prettyChars depth) false vs := by
  induction vs with
  | nil => rfl
  | cons v vs ih =>
    rw [prettyItems, Spacing.items, ih]
    simp [prettySpacing]

theorem prettyFields_eq (depth : Nat) (fs : List (String × Json)) :
    prettyFields depth fs =
      prettySpacing.items depth (prettySpacing.field (prettyChars depth)) false fs := by
  induction fs with
  | nil => rfl
  | cons f fs ih =>
    rw [prettyFields, Spacing.items, ih]
    simp [prettySpacing, Spacing.field]

/-- The pretty layout has a line for every item. -/
theorem prints_prettyChars : prettySpacing.Prints prettyChars where
  null _ := rfl
  yes _ := rfl
  no _ := rfl
  number _ _ := rfl
  text _ _ := rfl
  list depth vs := by
    cases vs with
    | nil => rfl
    | cons v vs =>
      rw [prettyChars, prettyItems_eq, Spacing.group, Spacing.items]
      simp [prettySpacing, Frame.opener, Frame.close]
  object depth fs := by
    cases fs with
    | nil => rfl
    | cons f fs =>
      rw [prettyChars, prettyFields_eq, Spacing.group, Spacing.items]
      simp [prettySpacing, Spacing.field, Frame.opener, Frame.close]

/-! ## reading groups -/

namespace Reader

theorem isAtomChar_eq_false_of_isBlank {c : Char} (h : isBlank c = true) :
    Lexical.isAtomChar c = false := by
  simp [isBlank] at h
  obtain ((rfl | rfl) | rfl) | rfl := h <;> decide

theorem isBlank_eq_false_of_isDigit {c : Char} (h : isDigit c = true) : isBlank c = false := by
  by_contra hblank
  have hatom : Lexical.isAtomChar c = false :=
    isAtomChar_eq_false_of_isBlank (Bool.eq_true_of_not_eq_false hblank)
  simp [Lexical.isAtomChar, h] at hatom

theorem stops_blanks {cs : List Char} {c : Char} (hcs : ∀ d ∈ cs, isBlank d = true)
    (hc : Lexical.isAtomChar c = false) : Stops (cs ++ c :: s) := by
  cases cs with
  | nil => exact stops_cons hc
  | cons d ds => exact stops_cons (isAtomChar_eq_false_of_isBlank (hcs d List.mem_cons_self))

/-- The text begins with a character that neither is blank nor closes a list. -/
def Begins (cs : List Char) : Prop :=
  ∃ c ds, cs = c :: ds ∧ isBlank c = false ∧ c ≠ ']'

variable {sp : Spacing} {print : α → List Char} {as : List α} {fuel depth : Nat} {first : Bool}
  {blanks : List Char}

theorem stops_items (f : Frame) (hblanks : ∀ c ∈ blanks, isBlank c = true) :
    Stops (sp.items depth print false as ++ (blanks ++ f.close :: s)) := by
  cases as with
  | nil => exact stops_blanks hblanks (by cases f <;> decide)
  | cons a as => exact stops_cons (by decide)

theorem length_le_length_items (hprint : ∀ a ∈ as, print a ≠ []) :
    as.length ≤ (sp.items depth print first as).length := by
  induction as generalizing first with
  | nil => exact Nat.le_refl 0
  | cons a as ih =>
    obtain ⟨ha, has⟩ := List.forall_mem_cons.mp hprint
    have hpos : 0 < (print a).length := List.length_pos_of_ne_nil ha
    have hrest : as.length ≤ (sp.items depth print false as).length := ih has
    simp only [Spacing.items, List.length_append, List.length_cons]
    omega

/-- Items are read up to the closing bracket. -/
theorem answers_items {item : Reader Json} {print : Json → List Char} {vs : List Json}
    (hblanks : ∀ c ∈ blanks, isBlank c = true) (hbegins : ∀ v ∈ vs, Begins (print v))
    (hitem : ∀ v ∈ vs, ∀ s, Stops s → Answers item (print v ++ s) v s) (hfuel : vs.length < fuel) :
    Answers (items item fuel first)
      (sp.items depth print first vs ++ (blanks ++ ']' :: s)) vs s := by
  induction vs generalizing fuel first with
  | nil =>
    obtain ⟨fuel, rfl⟩ := Nat.exists_eq_succ_of_ne_zero (Nat.ne_zero_of_lt hfuel)
    exact .bind (answers_skipBlanks hblanks rfl) (.bind (answers_next ']') (.pure []))
  | cons v vs ih =>
    obtain ⟨fuel, rfl⟩ := Nat.exists_eq_succ_of_ne_zero (Nat.ne_zero_of_lt hfuel)
    obtain ⟨⟨c, cs, hcs, hblank, hclose⟩, hbegins⟩ := List.forall_mem_cons.mp hbegins
    obtain ⟨hv, hitem⟩ := List.forall_mem_cons.mp hitem
    have hstop : Stops (sp.items depth print false vs ++ (blanks ++ ']' :: s)) :=
      stops_items .list hblanks
    have hrest : Answers (items item fuel false) _ vs s :=
      ih hbegins hitem (Nat.lt_of_succ_lt_succ hfuel)
    have hmore : Answers (item >>= fun a => items item fuel false >>= fun as => pure (a :: as))
        (print v ++ (sp.items depth print false vs ++ (blanks ++ ']' :: s))) (v :: vs) s :=
      .bind (hv _ hstop) (.bind hrest (.pure (v :: vs)))
    simp only [Spacing.items, List.append_assoc]
    rw [hcs] at hmore ⊢
    have hgap := answers_skipBlanks (s := cs ++ (sp.items depth print false vs ++
      (blanks ++ ']' :: s))) (sp.blank_gap depth) hblank
    cases first with
    | true =>
      refine .bind hgap ?_
      split
      · next heq => cases heq
      · next heq => exact absurd (Option.some.inj heq) hclose
      · exact hmore
    | false =>
      refine .bind (answers_skipBlanks_none rfl)
        (.bind (answers_next ',') (.bind hgap ?_))
      split
      · next heq => cases heq
      · next heq => exact absurd (Option.some.inj heq) hclose
      · exact hmore

/-- A list is read after its opening bracket. -/
theorem answers_listOf {item : Reader Json} {print : Json → List Char} {vs : List Json}
    (hbegins : ∀ v ∈ vs, Begins (print v))
    (hitem : ∀ v ∈ vs, ∀ s, Stops s → Answers item (print v ++ s) v s) :
    Answers (listOf item) ((sp.group depth .list print vs).tail ++ s) vs s := by
  have hblanks : ∀ c ∈ (if vs.isEmpty then [] else sp.gap depth), isBlank c = true := by
    split
    · exact List.forall_mem_nil _
    · exact sp.blank_gap depth
  have hlength : vs.length ≤ (sp.items (depth + 1) print true vs).length := by
    refine length_le_length_items fun v hv => ?_
    obtain ⟨c, cs, hcs, -⟩ := hbegins v hv
    rw [hcs]
    exact List.cons_ne_nil c cs
  rw [Spacing.group, List.tail_cons, List.append_assoc, List.append_assoc]
  refine .get_bind fun line => answers_items hblanks hbegins hitem ?_
  simp only [List.length_append]
  omega

theorem answers_nextKey_true (hblanks : ∀ c ∈ blanks, isBlank c = true) :
    Answers (nextKey first) ((if first then [] else [',']) ++ (blanks ++ '"' :: s)) true
      ('"' :: s) := by
  have hgap : Answers skipBlanks (blanks ++ '"' :: s) (some '"') ('"' :: s) :=
    answers_skipBlanks hblanks rfl
  cases first with
  | true => exact .bind hgap (.pure true)
  | false =>
    exact .bind (answers_skipBlanks_none rfl)
      (.bind (answers_next ',') (.bind hgap (.pure true)))

theorem answers_nextKey_false (hblanks : ∀ c ∈ blanks, isBlank c = true) :
    Answers (nextKey first) (blanks ++ '}' :: s) false ('}' :: s) :=
  .bind (answers_skipBlanks hblanks rfl) (.pure false)

theorem answers_key (k : String) : Answers key (printText k ++ s) k s := by
  rw [printText, List.cons_append, List.append_assoc]
  exact .bind (answers_next '"') (answers_string k)

theorem answers_colon : Answers colon (':' :: s) () s :=
  .bind (answers_skipBlanks_none rfl)
    (.bind (answers_next ':') (.pure ()))

/-- Fields are read up to the closing brace, the last one first. -/
theorem answers_fields {field : List (String × Json) → String → Reader (List (String × Json))}
    {print : Json → List Char} {fs read : List (String × Json)}
    (hblanks : ∀ c ∈ blanks, isBlank c = true)
    (hfield : ∀ f ∈ fs, ∀ read s, Stops s →
      Answers (field read f.1) (':' :: (sp.space ++ (print f.2 ++ s))) (f :: read) s)
    (hfuel : fs.length < fuel) :
    Answers (fields field fuel first read)
      (sp.items depth (sp.field print) first fs ++ (blanks ++ '}' :: s)) (fs.reverse ++ read)
      s := by
  induction fs generalizing fuel first read with
  | nil =>
    obtain ⟨fuel, rfl⟩ := Nat.exists_eq_succ_of_ne_zero (Nat.ne_zero_of_lt hfuel)
    exact .bind (answers_nextKey_false hblanks) (.bind (answers_next '}') (.pure read))
  | cons f fs ih =>
    obtain ⟨fuel, rfl⟩ := Nat.exists_eq_succ_of_ne_zero (Nat.ne_zero_of_lt hfuel)
    obtain ⟨hf, hfield⟩ := List.forall_mem_cons.mp hfield
    have hstop : Stops (sp.items depth (sp.field print) false fs ++ (blanks ++ '}' :: s)) :=
      stops_items .object hblanks
    have hrest : Answers (fields field fuel false (f :: read)) _ (fs.reverse ++ f :: read) s :=
      ih hfield (Nat.lt_of_succ_lt_succ hfuel)
    have hone := hf read _ hstop
    have hkey := answers_key (s := ':' :: (sp.space ++ (print f.2 ++
      (sp.items depth (sp.field print) false fs ++ (blanks ++ '}' :: s))))) f.1
    simp only [Spacing.items, Spacing.field, List.append_assoc, List.cons_append, List.reverse_cons,
      List.nil_append]
    exact .bind (answers_nextKey_true (sp.blank_gap depth)) (.bind hkey (.bind hone hrest))

/-- An object is read after its opening brace. -/
theorem answers_fieldsFrom {field : List (String × Json) → String → Reader (List (String × Json))}
    {print : Json → List Char} {fs : List (String × Json)}
    (hfield : ∀ f ∈ fs, ∀ read s, Stops s →
      Answers (field read f.1) (':' :: (sp.space ++ (print f.2 ++ s))) (f :: read) s) :
    Answers (fieldsFrom field []) ((sp.group depth .object (sp.field print) fs).tail ++ s)
      fs.reverse s := by
  have hblanks : ∀ c ∈ (if fs.isEmpty then [] else sp.gap depth), isBlank c = true := by
    split
    · exact List.forall_mem_nil _
    · exact sp.blank_gap depth
  have hlength : fs.length ≤ (sp.items (depth + 1) (sp.field print) true fs).length :=
    length_le_length_items fun f _ => List.cons_ne_nil _ _
  rw [Spacing.group, List.tail_cons, List.append_assoc, List.append_assoc]
  rw [← List.append_nil fs.reverse]
  refine .get_bind fun line => answers_fields hblanks hfield ?_
  simp only [List.length_append]
  omega

end Reader

/-! ## reading values -/

/-- Values that are nested to less than the given depth and whose numbers are natural numbers of 64
bits. -/
inductive Fits : Nat → Json → Prop
  | null {depth : Nat} : Fits (depth + 1) .null
  | bool {depth : Nat} (b : Bool) : Fits (depth + 1) (.bool b)
  | nat {depth n : Nat} (h : n < NumberParts.Scaled.limit) : Fits (depth + 1) (.nat n)
  | text {depth : Nat} (str : String) : Fits (depth + 1) (.text str)
  | list {depth : Nat} {vs : List Json} (h : ∀ v ∈ vs, Fits (depth + 1) v) :
    Fits (depth + 2) (.list vs)
  | object {depth : Nat} {fs : List (String × Json)} (h : ∀ f ∈ fs, Fits (depth + 1) f.2) :
    Fits (depth + 2) (.object fs)

theorem newline_not_mem_escapeChar (c : Char) : '\n' ∉ escapeChar c := by
  unfold escapeChar
  split
  iterate 7 decide
  · next hnewline _ _ =>
    split
    · next hcontrol =>
      have each : ∀ n < 0x20, '\n' ∉ List.replicate (4 - (Nat.toDigits 16 n).length) '0' ++
          Nat.toDigits 16 n := by decide
      simpa [controlEscape] using each c.toNat hcontrol
    · simpa [eq_comm] using hnewline

theorem newline_not_mem_printText (str : String) : '\n' ∉ printText str := by
  have hbody : '\n' ∉ str.toList.flatMap escapeChar := by
    intro hmem
    obtain ⟨c, -, hc⟩ := List.mem_flatMap.mp hmem
    exact newline_not_mem_escapeChar c hc
  simp [printText, hbody]

theorem newline_not_mem_items {sp : Spacing} {print : α → List Char} {as : List α} {depth : Nat}
    {first : Bool} (hgap : '\n' ∉ sp.gap depth) (hprint : ∀ a ∈ as, '\n' ∉ print a) :
    '\n' ∉ sp.items depth print first as := by
  induction as generalizing first with
  | nil => exact List.not_mem_nil
  | cons a as ih =>
    obtain ⟨ha, has⟩ := List.forall_mem_cons.mp hprint
    have hrest : '\n' ∉ sp.items depth print false as := ih has
    cases first <;> simp [Spacing.items, hgap, ha, hrest]

theorem newline_not_mem_group {sp : Spacing} {print : α → List Char} {as : List α} {depth : Nat}
    {f : Frame} (hgap : ∀ depth, '\n' ∉ sp.gap depth) (hprint : ∀ a ∈ as, '\n' ∉ print a) :
    '\n' ∉ sp.group depth f print as := by
  have hitems : '\n' ∉ sp.items (depth + 1) print true as :=
    newline_not_mem_items (hgap (depth + 1)) hprint
  have hmarks : '\n' ≠ Frame.opener f ∧ '\n' ≠ f.close := by cases f <;> decide
  simp [Spacing.group, hitems, hmarks, hgap depth]

namespace Spacing.Prints

variable {sp : Spacing} {chars : Nat → Json → List Char} {v : Json} {bound : Nat}

theorem begins (hp : sp.Prints chars) (h : Fits bound v) (depth : Nat) :
    Begins (chars depth v) := by
  cases h with
  | null => exact ⟨_, _, hp.null depth, rfl, by decide⟩
  | bool b =>
    cases b with
    | true => exact ⟨_, _, hp.yes depth, rfl, by decide⟩
    | false => exact ⟨_, _, hp.no depth, rfl, by decide⟩
  | @nat _ n hn =>
    obtain ⟨c, cs, hcs⟩ := List.exists_cons_of_ne_nil (Nat.toDigits_ne_nil (n := n) (b := 10))
    have hc : isDigit c = true := isDigit_of_mem_toDigits (n := n) (by simp [hcs])
    have hclose : c ≠ ']' := by
      rintro rfl
      exact absurd hc (by decide)
    exact ⟨c, cs, (hp.number depth _).trans hcs, isBlank_eq_false_of_isDigit hc, hclose⟩
  | text str => exact ⟨_, _, hp.text depth str, rfl, by decide⟩
  | list _ => exact ⟨_, _, hp.list depth _, rfl, by decide⟩
  | object _ => exact ⟨_, _, hp.object depth _, rfl, by decide⟩

/-- What is printed of a value is read back. -/
theorem answers_value (hp : sp.Prints chars) (h : Fits bound v) (depth : Nat) {blanks s : List Char}
    (hblanks : ∀ c ∈ blanks, isBlank c = true) (hs : Stops s) :
    Answers (value bound) (blanks ++ (chars depth v ++ s)) v s := by
  induction h generalizing depth blanks s with
  | null =>
    rw [hp.null]
    exact .bind (answers_skipBlanks hblanks rfl)
      (.bind (answers_next 'n') (.bind (answers_literal _) (.pure Json.null)))
  | bool b =>
    cases b with
    | true =>
      rw [hp.yes]
      exact .bind (answers_skipBlanks hblanks rfl)
        (.bind (answers_next 't') (.bind (answers_literal _) (.pure (Json.bool true))))
    | false =>
      rw [hp.no]
      exact .bind (answers_skipBlanks hblanks rfl)
        (.bind (answers_next 'f') (.bind (answers_literal _) (.pure (Json.bool false))))
  | @nat _ n hn =>
    have hprint : chars depth (.nat n) = Nat.toDigits 10 n := hp.number depth _
    have hread := answers_number hn hs
    obtain ⟨c, cs, hcs⟩ := List.exists_cons_of_ne_nil (Nat.toDigits_ne_nil (n := n) (b := 10))
    have hc : isDigit c = true := isDigit_of_mem_toDigits (n := n) (by simp [hcs])
    rw [hprint, hcs]
    rw [hcs] at hread
    refine .bind (answers_skipBlanks hblanks (isBlank_eq_false_of_isDigit hc)) ?_
    split
    · next heq => cases heq
    iterate 7
      next heq =>
        cases heq
        exact absurd hc (by decide)
    · next heq =>
      cases heq
      rw [if_pos hc]
      exact .bind hread (.pure (Json.nat n))
  | text str =>
    rw [hp.text, printText, List.cons_append, List.append_assoc]
    exact .bind (answers_skipBlanks hblanks rfl)
      (.bind (answers_next '"') (.bind (answers_string str) (.pure (Json.text str))))
  | @list inner vs hfits ih =>
    have hitem : ∀ v ∈ vs, ∀ s, Stops s →
        Answers (value (inner + 1)) (chars (depth + 1) v ++ s) v s :=
      fun v hv s hs => (ih v hv (depth + 1) (List.forall_mem_nil _) hs :)
    have hlist : Answers (listOf (value (inner + 1)))
        ((sp.group depth .list (chars (depth + 1)) vs).tail ++ s) vs s :=
      answers_listOf (fun v hv => hp.begins (hfits v hv) (depth + 1)) hitem
    rw [hp.list]
    exact .bind (answers_skipBlanks hblanks rfl)
      (.bind (answers_next '[') (.bind hlist (.pure (Json.list vs))))
  | @object inner fs hfits ih =>
    let field (read : List (String × Json)) (k : String) : Reader (List (String × Json)) :=
      colon >>= fun _ => value (inner + 1) >>= fun v => pure ((k, v) :: read)
    have hfield : ∀ f ∈ fs, ∀ read s, Stops s →
        Answers (field read f.1) (':' :: (sp.space ++ (chars (depth + 1) f.2 ++ s))) (f :: read)
          s :=
      fun f hf read s hs => .bind answers_colon
        (.bind (ih f hf (depth + 1) sp.blank_space hs) (.pure (f :: read)))
    have hobject : Answers (fieldsFrom field [])
        ((sp.group depth .object (sp.field (chars (depth + 1))) fs).tail ++ s) fs.reverse s :=
      answers_fieldsFrom hfield
    have hanswer : Answers (pure (Json.object fs.reverse.reverse)) s (.object fs) s := by
      rw [List.reverse_reverse]
      exact .pure (Json.object fs)
    rw [hp.object]
    exact .bind (answers_skipBlanks hblanks rfl)
      (.bind (answers_next '\x7b') (.bind hobject hanswer))

/-- No newline is printed where no white space is one. -/
theorem newline_not_mem (hp : sp.Prints chars) (hgap : ∀ depth, '\n' ∉ sp.gap depth)
    (hspace : '\n' ∉ sp.space) (h : Fits bound v) (depth : Nat) : '\n' ∉ chars depth v := by
  induction h generalizing depth with
  | null => simp [hp.null]
  | bool b => cases b <;> simp [hp.yes, hp.no]
  | @nat _ n hn =>
    have hprint : chars depth (.nat n) = Nat.toDigits 10 n := hp.number depth _
    rw [hprint]
    intro hmem
    exact absurd (isDigit_of_mem_toDigits hmem) (by decide)
  | text str =>
    rw [hp.text]
    exact newline_not_mem_printText str
  | list _ ih =>
    rw [hp.list]
    exact newline_not_mem_group hgap fun v hv => ih v hv (depth + 1)
  | object _ ih =>
    rw [hp.object]
    refine newline_not_mem_group hgap fun f hf => ?_
    have hkey := newline_not_mem_printText f.1
    have hvalue := ih f hf (depth + 1)
    simp [Spacing.field, hkey, hspace, hvalue]

end Spacing.Prints

/-! ## whole texts -/

namespace Reader

theorem readText_of_answers {r : Reader α} {a : α} (h : Answers r s a []) :
    readText r s = .ok a := by
  have hend : Answers skipBlanks [] none [] := fun line => ⟨line, rfl⟩
  have hwhole : Answers (whole r) s a [] := .bind h (.bind hend (.pure a))
  obtain ⟨line, hrun⟩ := hwhole 1
  simp only [readText, Cursor.ofText, hrun]

end Reader

variable {sp : Spacing} {chars : Nat → Json → List Char} {v : Json}

/-- A printed value is read back. -/
theorem Spacing.Prints.readText_eq (hp : sp.Prints chars) (h : Fits depthLimit v) :
    readText (value depthLimit) (chars 0 v) = .ok v := by
  have hread : Answers (value depthLimit) ([] ++ (chars 0 v ++ [])) v [] :=
    hp.answers_value h 0 (List.forall_mem_nil _) stops_nil
  rw [List.append_nil, List.nil_append] at hread
  exact readText_of_answers hread

end TypeQuery.Json
