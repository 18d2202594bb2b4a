import Mathlib.Data.List.TakeWhile
import TypeQuery.Diagnostic

/-!
# TypeQuery.Proofs.Diagnostic

A flattened chain of messages says all that the chain says.  The lines are listed
parent first, and the listing is taken apart in two steps:

```
MessageChain  --lines-->  depth and text of each line  --indented-->  text
              nesting                                  '\n', spaces
```

The text of a line ends where the next new line begins, and its depth is the
number of spaces in front of it, as long as no message has a new line in it or
begins with a space.  The depths tell the nesting: what explains a message is all
that follows up to the first line that is no deeper.

* `lines_append_inj` — the lines of a chain tell the chain, whatever follows them;
* `flatMap_indented_inj` — the text of the lines below the first tells the lines;
* `flatten_inj` — no two chains of plain messages have the same text.
-/

namespace TypeQuery.MessageChain

/-! ## from lines to chains -/

/-- Behind the lines of some chains, the first line is no deeper than they are. -/
theorem le_of_mem_head?_linesOfAll {depth : Nat} {chains : List MessageChain}
    {r : List (Nat × String)} (hr : ∀ l ∈ r.head?, l.1 < depth) :
    ∀ l ∈ (linesOfAll depth chains ++ r).head?, l.1 ≤ depth := by
  intro l hl
  cases chains with
  | nil => exact Nat.le_of_lt (hr l hl)
  | cons chain chains =>
      obtain ⟨text, next⟩ := chain
      obtain rfl : (depth, text) = l := Option.some.inj hl
      exact Nat.le_refl depth

-- One theorem for each of the two functions, by their recursion. Whatever follows the lines is a
-- parameter, so that the lines of the next sibling can stand there.
mutual

/-- The lines of a chain end before the first line that is no deeper than the chain itself. -/
theorem lines_append_inj {depth : Nat} {r s : List (Nat × String)}
    (hr : ∀ l ∈ r.head?, l.1 ≤ depth) (hs : ∀ l ∈ s.head?, l.1 ≤ depth) :
    ∀ a b : MessageChain, lines depth a ++ r = lines depth b ++ s → a = b ∧ r = s
  | .node text next, .node text' next', h => by
      obtain ⟨hline, hrest⟩ := List.cons.inj h
      obtain rfl := (Prod.mk.inj hline).2
      obtain ⟨rfl, rfl⟩ := linesOfAll_append_inj (fun l hl => Nat.lt_succ_of_le (hr l hl))
        (fun l hl => Nat.lt_succ_of_le (hs l hl)) next next' hrest
      exact ⟨rfl, rfl⟩

/-- The lines of chains side by side end before the first line that is less deep. -/
theorem linesOfAll_append_inj {depth : Nat} {r s : List (Nat × String)}
    (hr : ∀ l ∈ r.head?, l.1 < depth) (hs : ∀ l ∈ s.head?, l.1 < depth) :
    ∀ as bs : List MessageChain, linesOfAll depth as ++ r = linesOfAll depth bs ++ s →
      as = bs ∧ r = s
  | [], [], h => ⟨rfl, h⟩
  | [], .node text _ :: _, h => by
      have hdeep := hr (depth, text) (congrArg List.head? h)
      exact absurd hdeep (Nat.lt_irrefl depth)
  | .node text _ :: _, [], h => by
      have hdeep := hs (depth, text) (congrArg List.head? h.symm)
      exact absurd hdeep (Nat.lt_irrefl depth)
  | a :: as, b :: bs, h => by
      simp only [linesOfAll, List.append_assoc] at h
      obtain ⟨rfl, hrest⟩ := lines_append_inj (le_of_mem_head?_linesOfAll hr)
        (le_of_mem_head?_linesOfAll hs) a b h
      obtain ⟨rfl, rfl⟩ := linesOfAll_append_inj hr hs as bs hrest
      exact ⟨rfl, rfl⟩

end

/-! ## from the text to lines -/

/-- A text of two parts has one place where its first part can end, if the first part has characters
of one kind only and the second part begins with another one. -/
theorem append_inj_of_forall {p : Char → Bool} {xs ys r s : List Char} (hxs : ∀ c ∈ xs, p c = true)
    (hys : ∀ c ∈ ys, p c = true) (hr : ∀ c ∈ r.head?, p c = false)
    (hs : ∀ c ∈ s.head?, p c = false) (h : xs ++ r = ys ++ s) : xs = ys ∧ r = s := by
  have htake {xs r : List Char} (hxs : ∀ c ∈ xs, p c = true) (hr : ∀ c ∈ r.head?, p c = false) :
      (xs ++ r).takeWhile p = xs := by
    have hnone : r.takeWhile p = [] := by
      cases r with
      | nil => rfl
      | cons c r => simp [hr c rfl]
    rw [List.takeWhile_append_of_pos hxs, hnone, List.append_nil]
  have hfirst : xs = ys := by rw [← htake hxs hr, h, htake hys hs]
  exact ⟨hfirst, List.append_cancel_left (hfirst ▸ h)⟩

/-- A message without a new line in it that does not begin with a space. -/
def IsPlain (text : String) : Prop :=
  '\n' ∉ text.toList ∧ text.toList.head? ≠ some ' '

instance : DecidablePred IsPlain := fun _ =>
  inferInstanceAs (Decidable (_ ∧ _))

/-- A line below the first one, with a plain text. -/
def IsPlainLine (l : Nat × String) : Prop :=
  0 < l.1 ∧ IsPlain l.2

/-- What stands behind a line is nothing or a new line. -/
theorem newline_of_mem_head?_indented {ls : List (Nat × String)} (h : ∀ l ∈ ls, IsPlainLine l) :
    ∀ c ∈ (ls.flatMap indented).head?, c = '\n' := by
  intro c hc
  match ls, h with
  | [], _ => simp at hc
  | (0, text) :: ls, h => exact absurd (h (0, text) (by simp)).1 (Nat.lt_irrefl 0)
  | (depth + 1, text) :: ls, _ => simpa [indented] using hc.symm

/-- The text of a line ends before the first new line. -/
theorem text_append_inj {text text' : String} {ls ms : List (Nat × String)} (ht : IsPlain text)
    (ht' : IsPlain text') (hls : ∀ l ∈ ls, IsPlainLine l) (hms : ∀ m ∈ ms, IsPlainLine m)
    (h : text.toList ++ ls.flatMap indented = text'.toList ++ ms.flatMap indented) :
    text = text' ∧ ls.flatMap indented = ms.flatMap indented := by
  have hinside {text : String} (ht : IsPlain text) : ∀ c ∈ text.toList, (c != '\n') = true :=
    fun c hc => by grind [IsPlain]
  have hafter {ls : List (Nat × String)} (hls : ∀ l ∈ ls, IsPlainLine l) :
      ∀ c ∈ (ls.flatMap indented).head?, (c != '\n') = false :=
    fun c hc => by simp [newline_of_mem_head?_indented hls c hc]
  obtain ⟨htext, hrest⟩ :=
    append_inj_of_forall (hinside ht) (hinside ht') (hafter hls) (hafter hms) h
  exact ⟨String.toList_inj.mp htext, hrest⟩

/-- The indentation of a line ends before its text. -/
theorem ne_space_of_mem_head?_text {text : String} {ls : List (Nat × String)} (ht : IsPlain text)
    (hls : ∀ l ∈ ls, IsPlainLine l) :
    ∀ c ∈ (text.toList ++ ls.flatMap indented).head?, (c == ' ') = false := by
  intro c hc
  cases htext : text.toList with
  | nil =>
      rw [htext, List.nil_append] at hc
      rw [newline_of_mem_head?_indented hls c hc]
      rfl
  | cons d cs =>
      have hhead := ht.2
      rw [htext] at hc hhead
      grind

theorem indented_append_inj {l m : Nat × String} {ls ms : List (Nat × String)}
    (hl : IsPlainLine l) (hm : IsPlainLine m) (hls : ∀ l ∈ ls, IsPlainLine l)
    (hms : ∀ m ∈ ms, IsPlainLine m)
    (h : indented l ++ ls.flatMap indented = indented m ++ ms.flatMap indented) :
    l = m ∧ ls.flatMap indented = ms.flatMap indented := by
  match l, m, hl, hm with
  | (depth + 1, text), (depth' + 1, text'), ⟨_, ht⟩, ⟨_, ht'⟩ =>
      have hspace {n : Nat} : ∀ c ∈ List.replicate n ' ', (c == ' ') = true :=
        fun c hc => by simp [List.eq_of_mem_replicate hc]
      simp only [indented, List.cons_append, List.append_assoc, List.cons.injEq, true_and] at h
      obtain ⟨hindent, hline⟩ := append_inj_of_forall hspace hspace
        (ne_space_of_mem_head?_text ht hls) (ne_space_of_mem_head?_text ht' hms) h
      obtain ⟨rfl, hrest⟩ := text_append_inj ht ht' hls hms hline
      have hdepth : depth = depth' := by
        have hlength := congrArg List.length hindent
        simp only [List.length_replicate] at hlength
        omega
      exact ⟨by rw [hdepth], hrest⟩

theorem indented_ne_nil {l : Nat × String} (hl : IsPlainLine l) : indented l ≠ [] := by
  match l, hl with
  | (depth + 1, text), _ => exact List.cons_ne_nil _ _

theorem flatMap_indented_inj {ls ms : List (Nat × String)} (hls : ∀ l ∈ ls, IsPlainLine l)
    (hms : ∀ m ∈ ms, IsPlainLine m) (h : ls.flatMap indented = ms.flatMap indented) : ls = ms := by
  induction ls generalizing ms with
  | nil =>
      cases ms with
      | nil => rfl
      | cons m ms => simp [indented_ne_nil (hms m List.mem_cons_self)] at h
  | cons l ls ih =>
      obtain ⟨hl, hls'⟩ := List.forall_mem_cons.mp hls
      cases ms with
      | nil => simp [indented_ne_nil hl] at h
      | cons m ms =>
          obtain ⟨hm, hms'⟩ := List.forall_mem_cons.mp hms
          obtain ⟨rfl, hrest⟩ := indented_append_inj hl hm hls' hms' h
          rw [ih hls' hms' hrest]

/-! ## chains of plain messages -/

/-- A chain of plain messages. -/
inductive Plain : MessageChain → Prop where
  | node {text : String} {next : List MessageChain} (htext : IsPlain text)
      (hnext : ∀ chain ∈ next, Plain chain) : Plain (.node text next)

theorem linesOfAll_eq_flatMap (depth : Nat) (chains : List MessageChain) :
    linesOfAll depth chains = chains.flatMap (lines depth) := by
  induction chains with
  | nil => rfl
  | cons chain chains ih => rw [linesOfAll, ih, List.flatMap_cons]

theorem Plain.isPlain_of_mem_lines {chain : MessageChain} (h : Plain chain) {depth : Nat} :
    ∀ l ∈ lines depth chain, depth ≤ l.1 ∧ IsPlain l.2 := by
  induction h generalizing depth with
  | node htext _ ih =>
      rw [lines, linesOfAll_eq_flatMap]
      refine List.forall_mem_cons.mpr ⟨⟨Nat.le_refl depth, htext⟩, fun l hl => ?_⟩
      obtain ⟨chain, hchain, hline⟩ := List.mem_flatMap.mp hl
      obtain ⟨hdepth, hplain⟩ := ih chain hchain l hline
      exact ⟨Nat.le_of_succ_le hdepth, hplain⟩

/-- Below a message stand plain lines. -/
theorem isPlainLine_of_mem_linesOfAll {chains : List MessageChain}
    (h : ∀ chain ∈ chains, Plain chain) : ∀ l ∈ linesOfAll 1 chains, IsPlainLine l := by
  intro l hl
  rw [linesOfAll_eq_flatMap] at hl
  obtain ⟨chain, hchain, hline⟩ := List.mem_flatMap.mp hl
  exact (h chain hchain).isPlain_of_mem_lines l hline

theorem toList_flatten (text : String) (next : List MessageChain) :
    (node text next).flatten.toList = text.toList ++ (linesOfAll 1 next).flatMap indented := by
  rw [flatten, String.toList_ofList, lines, List.flatMap_cons, indented]

/-- **Flattening loses nothing**: chains of plain messages have the same text only if they are the
same chain. -/
theorem flatten_inj {a b : MessageChain} (ha : Plain a) (hb : Plain b) :
    a.flatten = b.flatten ↔ a = b := by
  constructor
  · intro h
    cases ha with
    | @node text next htext hnext =>
        cases hb with
        | @node text' next' htext' hnext' =>
            have hplain := isPlainLine_of_mem_linesOfAll hnext
            have hplain' := isPlainLine_of_mem_linesOfAll hnext'
            have hchars := congrArg String.toList h
            rw [toList_flatten, toList_flatten] at hchars
            obtain ⟨rfl, hrest⟩ := text_append_inj htext htext' hplain hplain' hchars
            have hlines := flatMap_indented_inj hplain hplain' hrest
            have hnone : ∀ l ∈ ([] : List (Nat × String)).head?, l.1 < 1 := by simp
            have hchains := linesOfAll_append_inj hnone hnone next next' (by rw [hlines])
            rw [hchains.1]
  · rintro rfl
    rfl

/-- The same three messages, one below the other and side by side. -/
theorem flatten_inj_nested :
    Plain (.node "A" [.node "" [.node "B" []]]) ∧ Plain (.node "A" [.node "" [], .node "B" []]) ∧
      ((node "A" [.node "" [.node "B" []]]).flatten =
          (node "A" [.node "" [], .node "B" []]).flatten ↔
        node "A" [.node "" [.node "B" []]] = .node "A" [.node "" [], .node "B" []]) := by
  have hleaf {text : String} (htext : IsPlain text) : Plain (.node text []) :=
    .node htext (by simp)
  have ha : Plain (.node "A" [.node "" [.node "B" []]]) :=
    .node (by decide) (by simpa using .node (by decide) (by simpa using hleaf (by decide)))
  have hb : Plain (.node "A" [.node "" [], .node "B" []]) :=
    .node (by decide) (by simpa using ⟨hleaf (by decide), hleaf (by decide)⟩)
  exact ⟨ha, hb, flatten_inj ha hb⟩

/-- A new line in a message reads like a message of its own. -/
example : (node "A" [single "B\n  C"]).flatten = (node "A" [single "B", single "C"]).flatten := by
  decide

end TypeQuery.MessageChain
