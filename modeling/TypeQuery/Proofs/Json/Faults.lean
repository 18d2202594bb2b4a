import Mathlib.Data.List.TakeWhile
import TypeQuery.Config.Reader

/-!
# TypeQuery.Proofs.Json.Faults

The line of a fault.  A reader counts the newlines that it passes, so its line is
always one more than the newlines of some first part of the text, and a fault
takes its line from there:

```
text  =  read  ++  rest          line = newlines of read + 1
```

Every reader is given one fact of the form `Tracks text r`: started at a place of
the text, `r` comes to another place of the text, or stops with the line of one.

* `Cursor.At`, `Fault.At`, `Tracks` — places of a text;
* `tracks_value`, `tracks_skipValue` — values, kept and not kept;
* `at_of_readText`, `at_of_parseJson` — the line of a fault.
-/

namespace TypeQuery.Json

/-! ## places -/

/-- The line is that of a place in the text. -/
def IsLine (text : List Char) (line : Nat) : Prop :=
  ∃ read, read <+: text ∧ line = read.count '\n' + 1

/-- The cursor stands at a place of the text and knows its line. -/
def Cursor.At (text : List Char) (here : Cursor) : Prop :=
  ∃ read, read ++ here.rest = text ∧ here.line = read.count '\n' + 1

/-- The fault is on a line of the text, if it knows its line. -/
def Fault.At (text : List Char) : Fault → Prop
  | .malformed line | .truncated line => IsLine text line
  | .mismatch _ => True

theorem Cursor.at_ofText (text : List Char) : (Cursor.ofText text).At text :=
  ⟨[], rfl, rfl⟩

variable {text : List Char} {here : Cursor} {line : Nat}

theorem Cursor.At.isLine (h : here.At text) : IsLine text here.line := by
  obtain ⟨read, rfl, hline⟩ := h
  exact ⟨read, List.prefix_append read here.rest, hline⟩

theorem lineAfter_eq (line : Nat) (c : Char) :
    Cursor.lineAfter line c = line + [c].count '\n' := by
  by_cases hc : c = '\n' <;> simp [Cursor.lineAfter, hc]

/-- The place behind the next character. -/
theorem Cursor.At.next {c : Char} {cs : List Char} (h : Cursor.At text ⟨c :: cs, line⟩) :
    Cursor.At text ⟨cs, Cursor.lineAfter line c⟩ := by
  obtain ⟨read, rfl, hline⟩ := h
  have hline : line = read.count '\n' + 1 := hline
  refine ⟨read ++ [c], by simp, ?_⟩
  rw [lineAfter_eq, List.count_append, hline, Nat.add_right_comm]

/-- The place behind characters that are no newlines. -/
theorem Cursor.At.skip {front rest : List Char} (h : Cursor.At text ⟨front ++ rest, line⟩)
    (hfront : '\n' ∉ front) : Cursor.At text ⟨rest, line⟩ := by
  obtain ⟨read, rfl, hline⟩ := h
  refine ⟨read ++ front, by simp, ?_⟩
  simpa [List.count_append, List.count_eq_zero_of_not_mem hfront] using hline

namespace Reader

/-! ## the calculus -/

/-- The answer was read up to a place of the text, or the fault is on a line of it. -/
def Lands {α : Type} (text : List Char) : Except Fault (α × Cursor) → Prop
  | .ok (_, there) => there.At text
  | .error fault => fault.At text

/-- From a place of the text the reader comes to another one, or stops on a line of the text. -/
def Tracks {α : Type} (text : List Char) (r : Reader α) : Prop :=
  ∀ ⦃here : Cursor⦄, here.At text → Lands text (r.run here)

variable {α β σ : Type} {r x : Reader α} {f : α → Reader β}

namespace Tracks

theorem pure (a : α) : Tracks text (Pure.pure a : Reader α) :=
  fun _ h => h

theorem throw {fault : Fault} (h : fault.At text) : Tracks text (throw fault : Reader α) :=
  fun _ _ => h

theorem bind (hx : Tracks text x) (hf : ∀ a, Tracks text (f a)) : Tracks text (x >>= f) := by
  intro here h
  have hfirst := hx h
  rw [StateT.run_bind]
  cases hrun : x.run here with
  | error fault =>
      rw [hrun] at hfirst
      exact hfirst
  | ok answer =>
      rw [hrun] at hfirst
      exact hf answer.1 hfirst

/-- A reader that looks at the place first. -/
theorem get_bind {f : Cursor → Reader β} (hf : ∀ here, here.At text → Tracks text (f here)) :
    Tracks text (get >>= f) :=
  fun here h => hf here h h

/-- A reader that moves on, if its new place is one of the text. -/
theorem moved {g : Cursor → Cursor} {f : Cursor → Reader β}
    (hg : ∀ here, here.At text → (g here).At text) (hf : ∀ here, Tracks text (f here)) :
    Tracks text (get >>= fun here => set (g here) >>= fun _ => f here) :=
  fun here h => hf here (hg here h)

end Tracks

/-! ## primitives -/

theorem tracks_peek : Tracks text peek :=
  .get_bind fun _ _ => .pure _

theorem tracks_next : Tracks text next := by
  intro here h
  obtain ⟨rest, line⟩ := here
  cases rest with
  | nil => exact Tracks.pure none h
  | cons c cs => exact Tracks.pure (some c) h.next

theorem tracks_failHere {fault : Nat → Fault} (hfault : ∀ n, IsLine text n → (fault n).At text) :
    Tracks text (failHere fault : Reader α) :=
  .get_bind fun _ h => .throw (hfault _ h.isLine)

theorem tracks_failNext {fault : Nat → Fault} (hfault : ∀ n, IsLine text n → (fault n).At text) :
    Tracks text (failNext fault : Reader α) := by
  refine .get_bind fun here h => ?_
  obtain ⟨rest, line⟩ := here
  cases rest with
  | nil => exact .throw (hfault _ h.isLine)
  | cons c cs => exact .throw (hfault _ h.next.isLine)

theorem tracks_malformedHere : Tracks text (failHere .malformed : Reader α) :=
  tracks_failHere fun _ h => h

theorem tracks_truncatedHere : Tracks text (failHere .truncated : Reader α) :=
  tracks_failHere fun _ h => h

theorem tracks_malformedNext : Tracks text (failNext .malformed : Reader α) :=
  tracks_failNext fun _ h => h

theorem tracks_truncatedNext : Tracks text (failNext .truncated : Reader α) :=
  tracks_failNext fun _ h => h

theorem tracks_failShape : Tracks text (failShape : Reader α) :=
  .throw trivial

theorem at_dropBlanks {rest : List Char} (h : Cursor.At text ⟨rest, line⟩) :
    (dropBlanks rest line).At text := by
  induction rest generalizing line with
  | nil => exact h
  | cons c cs ih =>
      rw [dropBlanks]
      split
      · exact ih h.next
      · exact h

theorem tracks_skipBlanks : Tracks text skipBlanks :=
  .moved (fun _ h => at_dropBlanks h) fun _ => tracks_peek

theorem tracks_literal (es : List Char) : Tracks text (literal es) := by
  induction es with
  | nil => exact .pure ()
  | cons e es ih =>
      refine .bind tracks_next fun c => ?_
      split
      · exact tracks_truncatedHere
      · split
        · exact ih
        · exact tracks_malformedHere

/-! ## strings -/

theorem isLine_lineWithin {rest : List Char} {bytes : Nat} (h : Cursor.At text ⟨rest, line⟩) :
    IsLine text (lineWithin line bytes rest) := by
  induction rest generalizing line bytes with
  | nil => exact h.isLine
  | cons c cs ih =>
      rw [lineWithin]
      split
      · exact h.isLine
      · exact ih h.next

theorem ne_newline_of_hexDigit? {c : Char} {n : Nat} (h : hexDigit? c = some n) : c ≠ '\n' := by
  rintro rfl
  cases h

/-- Four hexadecimal digits are read off the front of a text, and none of them is a newline. -/
theorem exists_front_of_hexQuad? {cs rest : List Char} {n : Nat}
    (h : hexQuad? cs = some (n, rest)) : ∃ front, cs = front ++ rest ∧ '\n' ∉ front := by
  unfold hexQuad? at h
  split at h
  · next a b c d rest =>
      obtain ⟨_, ha, h⟩ := Option.bind_eq_some_iff.mp h
      obtain ⟨_, hb, h⟩ := Option.bind_eq_some_iff.mp h
      obtain ⟨_, hc, h⟩ := Option.bind_eq_some_iff.mp h
      obtain ⟨_, hd, h⟩ := Option.bind_eq_some_iff.mp h
      obtain ⟨-, rfl⟩ := Prod.mk.inj (Option.some.inj h)
      refine ⟨[a, b, c, d], rfl, ?_⟩
      simp [(ne_newline_of_hexDigit? ha).symm, (ne_newline_of_hexDigit? hb).symm,
        (ne_newline_of_hexDigit? hc).symm, (ne_newline_of_hexDigit? hd).symm]
  · contradiction

theorem tracks_hexQuad : Tracks text hexQuad := by
  intro here h
  obtain ⟨rest, line⟩ := here
  unfold hexQuad
  simp only [StateT.run_bind, StateT.run_get, pure_bind]
  cases hquad : hexQuad? rest with
  | some answer =>
      obtain ⟨n, rest'⟩ := answer
      obtain ⟨front, rfl, hfront⟩ := exists_front_of_hexQuad? hquad
      exact Tracks.pure n (h.skip hfront)
  | none =>
      have hline : IsLine text (lineWithin line 4 rest) := isLine_lineWithin h
      refine Tracks.throw ?_ h
      split <;> exact hline

theorem tracks_follow (c : Char) : Tracks text (follow c) := by
  refine .bind tracks_next fun d => ?_
  split
  · exact tracks_truncatedHere
  · split
    · exact .pure ()
    · exact tracks_malformedHere

theorem tracks_escapedChar : Tracks text escapedChar := by
  refine .bind tracks_hexQuad fun high => ?_
  split
  · exact tracks_malformedHere
  · split
    · exact .pure _
    · refine .bind (tracks_follow _) fun _ => .bind (tracks_follow _) fun _ => ?_
      refine .bind tracks_hexQuad fun low => ?_
      split
      · exact tracks_malformedHere
      · exact .pure _

theorem tracks_escape (keep : Bool) : Tracks text (escape keep) := by
  refine .bind tracks_next fun c => ?_
  split
  case h_1 => exact tracks_truncatedHere
  case h_10 =>
    split
    · exact .bind tracks_escapedChar fun _ => .pure _
    · exact .bind tracks_hexQuad fun _ => .pure _
  case h_11 => exact tracks_malformedHere
  all_goals exact .pure _

theorem tracks_failControl (keep : Bool) (h : IsLine text line) :
    Tracks text (failControl keep line : Reader α) := by
  unfold failControl
  split
  · exact tracks_malformedHere
  · exact .throw h

theorem tracks_stringBody (keep : Bool) (fuel : Nat) (read : List Char) :
    Tracks text (stringBody keep fuel read) := by
  induction fuel generalizing read with
  | zero => exact tracks_truncatedHere
  | succ fuel ih =>
      refine .get_bind fun here h => .bind tracks_next fun c => ?_
      split
      · exact tracks_truncatedHere
      · exact .pure _
      · exact .bind (tracks_escape keep) fun _ => ih _
      · split
        · exact tracks_failControl keep h.isLine
        · exact ih _

theorem tracks_string : Tracks text string :=
  .get_bind fun _ _ => .bind (tracks_stringBody true _ _) fun _ => .pure _

theorem tracks_skipString : Tracks text skipString :=
  .get_bind fun _ _ => .bind (tracks_stringBody false _ _) fun _ => .pure _

/-! ## numbers -/

theorem tracks_digits : Tracks text digits := by
  refine .moved (fun here h => ?_) fun here => .pure (here.rest.takeWhile isDigit)
  have hsplit : Cursor.At text
      ⟨here.rest.takeWhile isDigit ++ here.rest.dropWhile isDigit, here.line⟩ := by
    rwa [List.takeWhile_append_dropWhile]
  exact hsplit.skip fun hmem => absurd (List.mem_takeWhile_imp hmem) (by decide)

theorem tracks_optionally (p : Char → Bool) : Tracks text (optionally p) := by
  refine .bind tracks_peek fun c => ?_
  split
  · split
    · exact .bind tracks_next fun _ => .pure _
    · exact .pure _
  · exact .pure _

/-- A missing digit at the end of the text is a fault on the line where it is noticed. -/
def NumberRules.Tracked (text : List Char) (rules : NumberRules) : Prop :=
  ∀ n, IsLine text n → (rules.atEnd n).At text

theorem tracked_keptNumber : keptNumber.Tracked text :=
  fun _ h => h

theorem tracked_skippedNumber : skippedNumber.Tracked text :=
  fun _ h => h

variable {rules : NumberRules}

theorem tracks_wholePart (hrules : rules.Tracked text) : Tracks text (wholePart rules) := by
  refine .bind tracks_next fun c => ?_
  split
  · exact tracks_failHere hrules
  · refine .bind tracks_peek fun d => ?_
    split
    · split
      · exact tracks_malformedNext
      · exact .pure _
    · exact .pure _
  · split
    · exact .bind tracks_digits fun _ => .pure _
    · exact tracks_malformedHere

theorem tracks_fractionPart (hrules : rules.Tracked text) : Tracks text (fractionPart rules) := by
  refine .bind (tracks_optionally _) fun point => ?_
  split
  · exact .pure _
  · refine .bind tracks_digits fun ds => ?_
    split
    · refine .bind tracks_peek fun c => ?_
      split
      · exact tracks_malformedNext
      · exact tracks_failNext hrules
    · exact .pure _

theorem tracks_exponentPart (hrules : rules.Tracked text) : Tracks text (exponentPart rules) := by
  refine .bind (tracks_optionally _) fun mark => ?_
  split
  · exact .pure _
  · refine .bind (tracks_optionally _) fun sign => .bind tracks_next fun c => ?_
    split
    · exact tracks_failHere hrules
    · split
      · exact .bind tracks_digits fun _ => .pure _
      · exact tracks_malformedHere

theorem tracks_numberParts (hrules : rules.Tracked text) : Tracks text (numberParts rules) :=
  .bind (tracks_wholePart hrules) fun _ => .bind (tracks_fractionPart hrules) fun _ =>
    .bind (tracks_exponentPart hrules) fun _ => .pure _

theorem tracks_number (negative : Bool) : Tracks text (number negative) := by
  refine .bind (tracks_numberParts tracked_keptNumber) fun parts => ?_
  extract_lets n inRange rest
  have hrest : ∀ u, Tracks text (rest u) := fun _ => by
    dsimp only [rest]
    split <;> exact .pure _
  split
  · exact .bind tracks_malformedHere hrest
  · exact hrest ()

/-! ## lists and objects -/

/-- Reading on behind the comma that every item but the first one needs. -/
theorem tracks_separated (hr : Tracks text r) (first : Bool) (c : Char) : Tracks text (do
    if !first then
      if c != ',' then failNext .malformed
      let _ ← next
      match ← skipBlanks with
      | none => failNext .truncated
      | some ']' => failNext .malformed
      | some _ => pure ()
    r) := by
  extract_lets rest comma
  have hcomma : ∀ u, Tracks text (comma u) := fun _ => by
    refine .bind tracks_next fun _ => .bind tracks_skipBlanks fun d => ?_
    split
    · exact .bind tracks_truncatedNext fun _ => hr
    · exact .bind tracks_malformedNext fun _ => hr
    · exact hr
  split
  · split
    · exact .bind tracks_malformedNext hcomma
    · exact hcomma ()
  · exact hr

theorem tracks_items {item : Reader α} (hitem : Tracks text item) (fuel : Nat) (first : Bool) :
    Tracks text (items item fuel first) := by
  induction fuel generalizing first with
  | zero => exact tracks_truncatedNext
  | succ fuel ih =>
      refine .bind tracks_skipBlanks fun c => ?_
      split
      · exact tracks_truncatedNext
      · exact .bind tracks_next fun _ => .pure _
      · exact tracks_separated (.bind hitem fun _ => .bind (ih false) fun _ => .pure _) first _

theorem tracks_listOf {item : Reader α} (hitem : Tracks text item) : Tracks text (listOf item) :=
  .get_bind fun _ _ => tracks_items hitem _ true

theorem tracks_key : Tracks text key :=
  .bind tracks_next fun _ => tracks_string

theorem tracks_colon : Tracks text colon := by
  refine .bind tracks_skipBlanks fun c => ?_
  split
  · exact tracks_truncatedNext
  · exact .bind tracks_next fun _ => .pure _
  · exact tracks_malformedNext

theorem tracks_nextKey (first : Bool) : Tracks text (nextKey first) := by
  refine .bind tracks_skipBlanks fun c => ?_
  split
  · exact tracks_truncatedNext
  · exact .pure _
  · split
    · split
      · exact .pure _
      · exact tracks_malformedNext
    · split
      · refine .bind tracks_next fun _ => .bind tracks_skipBlanks fun d => ?_
        split
        · exact tracks_truncatedNext
        · exact .pure _
        · exact tracks_malformedNext
      · exact tracks_malformedNext

theorem tracks_fields {field : σ → String → Reader σ} (hfield : ∀ s k, Tracks text (field s k))
    (fuel : Nat) (first : Bool) (s : σ) : Tracks text (fields field fuel first s) := by
  induction fuel generalizing first s with
  | zero => exact tracks_truncatedNext
  | succ fuel ih =>
      refine .bind (tracks_nextKey first) fun more => ?_
      split
      · exact .bind tracks_key fun k => .bind (hfield s k) fun s => ih false s
      · exact .bind tracks_next fun _ => .pure _

theorem tracks_fieldsFrom {field : σ → String → Reader σ}
    (hfield : ∀ s k, Tracks text (field s k)) (s : σ) : Tracks text (fieldsFrom field s) :=
  .get_bind fun _ _ => tracks_fields hfield _ true s

/-! ## values -/

theorem tracks_value (depth : Nat) : Tracks text (value depth) := by
  induction depth with
  | zero => exact tracks_malformedNext
  | succ depth ih =>
      have hword (es : List Char) (v : Json) :
          Tracks text (next >>= fun _ => literal es >>= fun _ => pure v) :=
        .bind tracks_next fun _ => .bind (tracks_literal es) fun _ => .pure v
      have hdeep {r : Reader Json} (hr : Tracks text r) : Tracks text (do
          if depth = 0 then failNext .malformed
          let _ ← next
          r) := by
        have hopen : Tracks text (next >>= fun _ => r) := .bind tracks_next fun _ => hr
        split
        · exact .bind tracks_malformedNext fun _ => hopen
        · exact hopen
      refine .bind tracks_skipBlanks fun c => ?_
      split
      · exact tracks_truncatedNext
      · exact hword _ _
      · exact hword _ _
      · exact hword _ _
      · exact .bind tracks_next fun _ => .bind tracks_string fun _ => .pure _
      · exact .bind tracks_next fun _ => .bind (tracks_number true) fun _ => .pure _
      · exact hdeep (.bind (tracks_listOf ih) fun _ => .pure _)
      · refine hdeep (.bind (tracks_fieldsFrom (fun fs k => ?_) []) fun _ => .pure _)
        exact .bind tracks_colon fun _ => .bind ih fun _ => .pure _
      · split
        · exact .bind (tracks_number false) fun _ => .pure _
        · exact tracks_malformedNext

/-! ## values that nobody keeps -/

theorem tracks_closeFrames (comma : Bool) (frames : List Frame) :
    Tracks text (closeFrames comma frames) := by
  induction frames generalizing comma with
  | nil => exact .pure _
  | cons frame outer ih =>
      refine .bind tracks_skipBlanks fun c => ?_
      split
      · exact tracks_truncatedNext
      · split
        · exact .bind tracks_next fun _ => .pure _
        · split
          · exact .bind tracks_next fun _ => ih true
          · split
            · exact tracks_malformedNext
            · exact .pure _

theorem tracks_skipKey : Tracks text skipKey := by
  refine .bind tracks_skipBlanks fun c => ?_
  split
  · exact tracks_truncatedNext
  · exact .bind tracks_next fun _ => .bind tracks_skipString fun _ => tracks_colon
  · exact tracks_malformedNext

theorem tracks_skipHead (frames : List Frame) : Tracks text (skipHead frames) := by
  have hword (es : List Char) :
      Tracks text (next >>= fun _ => literal es >>= fun _ => pure (frames, true)) :=
    .bind tracks_next fun _ => .bind (tracks_literal es) fun _ => .pure _
  refine .bind tracks_skipBlanks fun c => ?_
  split
  · exact tracks_truncatedNext
  · exact hword _
  · exact hword _
  · exact hword _
  · exact .bind tracks_next fun _ => .bind tracks_skipString fun _ => .pure _
  · exact .bind tracks_next fun _ =>
      .bind (tracks_numberParts tracked_skippedNumber) fun _ => .pure _
  · exact .bind tracks_next fun _ => .pure _
  · exact .bind tracks_next fun _ => .pure _
  · split
    · exact .bind (tracks_numberParts tracked_skippedNumber) fun _ => .pure _
    · exact tracks_malformedNext

theorem tracks_skipWithin (fuel : Nat) (frames : List Frame) :
    Tracks text (skipWithin fuel frames) := by
  induction fuel generalizing frames with
  | zero => exact tracks_truncatedNext
  | succ fuel ih =>
      refine .bind (tracks_skipHead frames) fun head => ?_
      refine .bind (tracks_closeFrames head.2 head.1) fun frames => ?_
      split
      · exact .pure _
      · exact ih _
      · exact .bind tracks_skipKey fun _ => ih _

theorem tracks_skipValue : Tracks text skipValue :=
  .get_bind fun _ _ => tracks_skipWithin _ []

/-! ## whole texts -/

theorem tracks_whole (hr : Tracks text r) : Tracks text (whole r) := by
  refine .bind hr fun a => .bind tracks_skipBlanks fun c => ?_
  split
  · exact .pure _
  · exact tracks_malformedNext

/-- **The line of a fault**: a reader that tracks its place stops on a line of the text. -/
theorem at_of_readText (hr : Tracks text r) {fault : Fault} (h : readText r text = .error fault) :
    fault.At text := by
  have hlands := tracks_whole hr (Cursor.at_ofText text)
  unfold readText at h
  cases hrun : (whole r).run (Cursor.ofText text) with
  | ok answer =>
      rw [hrun] at h
      contradiction
  | error fault' =>
      rw [hrun] at h hlands
      obtain rfl := Except.error.inj h
      exact hlands

end Reader

end TypeQuery.Json

namespace TypeQuery.Config

open Json Json.Reader

variable {text : List Char} {α σ : Type} {r : Reader α}

/-! ## settings -/

theorem tracks_unexpected : Tracks text (unexpected : Reader α) := by
  have hword (es : List Char) :
      Tracks text (next >>= fun _ => literal es >>= fun _ => failShape : Reader α) :=
    .bind tracks_next fun _ => .bind (tracks_literal es) fun _ => tracks_failShape
  refine .bind tracks_peek fun c => ?_
  split
  · exact hword _
  · exact hword _
  · exact hword _
  · exact .bind tracks_next fun _ => .bind tracks_string fun _ => tracks_failShape
  · exact .bind tracks_next fun _ => .bind (tracks_number true) fun _ => tracks_failShape
  · exact tracks_failShape
  · exact tracks_failShape
  · split
    · exact .bind (tracks_number false) fun _ => tracks_failShape
    · exact tracks_malformedNext
  · exact tracks_truncatedNext

theorem tracks_nullable (hr : Tracks text r) : Tracks text (nullable r) := by
  refine .bind tracks_skipBlanks fun c => ?_
  split
  · exact .bind tracks_next fun _ => .bind (tracks_literal _) fun _ => .pure _
  · exact .bind hr fun _ => .pure _

theorem tracks_textSetting : Tracks text textSetting := by
  refine .bind tracks_skipBlanks fun c => ?_
  split
  · exact .bind tracks_next fun _ => tracks_string
  · exact tracks_unexpected

theorem tracks_textsSetting : Tracks text textsSetting := by
  refine .bind tracks_skipBlanks fun c => ?_
  split
  · exact .bind tracks_next fun _ => tracks_listOf tracks_textSetting
  · exact tracks_unexpected

theorem tracks_textMapSetting : Tracks text textMapSetting := by
  refine .bind tracks_skipBlanks fun c => ?_
  split
  · refine .bind tracks_next fun _ => tracks_fieldsFrom (fun entries k => ?_) []
    exact .bind tracks_colon fun _ => .bind tracks_textsSetting fun _ => .pure _
  · exact tracks_unexpected

theorem tracks_switchSetting : Tracks text switchSetting := by
  refine .bind (tracks_value _) fun v => ?_
  split
  · exact .pure _
  · split
    · exact .pure _
    · exact .throw trivial
  · exact tracks_failShape

/-- Every setting of the group is read along the text. -/
def Settings.Tracked (text : List Char) (g : Settings σ) : Prop :=
  ∀ s name, Tracks text (g.read s name)

variable {g : Settings σ}

theorem tracks_inOrder (hg : g.Tracked text) (names : List String) (first : Bool) (s : σ) :
    Tracks text (g.inOrder names first s) := by
  induction names generalizing first s with
  | nil =>
      refine .bind tracks_skipBlanks fun c => ?_
      split
      · exact tracks_truncatedNext
      · exact .bind tracks_next fun _ => .pure _
      · exact .bind tracks_next fun _ => .bind tracks_skipBlanks fun _ => tracks_malformedNext
      · exact tracks_malformedNext
  | cons name names ih =>
      refine .bind tracks_skipBlanks fun c => ?_
      split
      · exact tracks_truncatedNext
      · exact .bind tracks_next fun _ => .pure _
      · exact tracks_separated (.bind (hg s name) fun s => ih false s) first _

theorem tracks_named (hg : g.Tracked text) (seen : List String × σ) (k : String) :
    Tracks text (g.named seen k) := by
  unfold Settings.named
  split
  · extract_lets rest
    have hrest : ∀ u, Tracks text (rest u) := fun _ =>
      .bind tracks_colon fun _ => .bind (hg seen.2 k) fun _ => .pure _
    split
    · exact .bind tracks_failShape hrest
    · exact hrest ()
  · exact .bind tracks_colon fun _ => .bind tracks_skipValue fun _ => .pure _

theorem tracks_group (hg : g.Tracked text) (init : σ) : Tracks text (g.group init) := by
  refine .bind tracks_skipBlanks fun c => ?_
  split
  · exact .bind tracks_next fun _ => tracks_inOrder hg g.names true init
  · refine .bind tracks_next fun _ => .bind (tracks_fieldsFrom ?_ ([], init)) fun _ => .pure _
    exact tracks_named hg
  · exact tracks_unexpected

theorem tracked_optionSettings : optionSettings.Tracked text := by
  intro o name
  have hsetting {α : Type} {r : Reader α} (hr : Tracks text r)
      (put : Option α → CompilerOptions) :
      Tracks text (nullable r >>= fun v => pure (put v)) :=
    .bind (tracks_nullable hr) fun _ => .pure _
  dsimp only [optionSettings]
  split
  case h_1 | h_2 | h_3 | h_4 | h_7 => exact hsetting tracks_textSetting _
  case h_5 | h_6 => exact hsetting tracks_textsSetting _
  case h_8 => exact hsetting tracks_textMapSetting _
  case h_13 => exact .pure _
  all_goals exact hsetting tracks_switchSetting _

theorem tracked_configSettings : configSettings.Tracked text := by
  intro c name
  have hsetting {α : Type} {r : Reader α} (hr : Tracks text r) (put : Option α → Config) :
      Tracks text (nullable r >>= fun v => pure (put v)) :=
    .bind (tracks_nullable hr) fun _ => .pure _
  dsimp only [configSettings]
  split
  · exact hsetting tracks_textSetting _
  · exact hsetting (tracks_group tracked_optionSettings {}) _
  · exact hsetting tracks_textsSetting _
  · exact hsetting tracks_textsSetting _
  · exact hsetting tracks_textsSetting _
  · exact .pure _

/-- A configuration that is not accepted has its fault on a line of its text. -/
theorem at_of_parseJson {cs : List Char} {fault : Fault} (h : parseJson cs = .error fault) :
    fault.At cs :=
  at_of_readText (tracks_group tracked_configSettings {}) h

end TypeQuery.Config
