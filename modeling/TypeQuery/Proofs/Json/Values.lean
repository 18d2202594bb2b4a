import TypeQuery.Proofs.Json.Reading

/-!
# TypeQuery.Proofs.Json.Values

What the readers of values have read.  A reader is followed token by token: what
it leaves behind is written in strict pieces whose tokens are those of a language
`K`, and what it began with is written in pieces whose tokens are a value, or
another phrase, in front of `K`.

* `written`, `phrase` — texts by their tokens;
* `ReadsValue` — a reader of values;
* `readsValue_value`, `readsValue_skipValue` — values, kept or passed over;
* `isStrictJson_of_readText` — whatever is read as a whole is strict JSON.
-/

namespace TypeQuery.Json.Reader

open Lexical

variable {α β σ : Type} {K K' : Language Token}

/-! ## texts by their tokens -/

/-- The texts in strict pieces whose tokens are in `K`. -/
def written (K : Language Token) : Language Char :=
  {cs | ∃ ls : List Lexeme, (∀ l ∈ ls, l.IsStrict) ∧ tokensOf ls ∈ K ∧ textOf ls = cs}

/-- The tokens of a phrase of strict JSON. -/
def phrase (ph : Phrase) : Language Token :=
  {ts | Grammar false ph ts}

theorem written_mono (h : K ≤ K') : written K ≤ written K' :=
  fun _ ⟨ls, hstrict, htokens, htext⟩ => ⟨ls, hstrict, h htokens, htext⟩

theorem token_mem_written {t : Token} (ht : t.isExtra = false) {cs : List Char}
    (h : cs ∈ written (K.leftQuotient [t])) : t.text ++ cs ∈ written K := by
  obtain ⟨ls, hstrict, htokens, rfl⟩ := h
  exact ⟨.token t :: ls, List.forall_mem_cons.mpr ⟨ht, hstrict⟩, htokens, rfl⟩

theorem blank_mem_written {c : Char} (hc : isBlank c = true) {cs : List Char}
    (h : cs ∈ written K) : c :: cs ∈ written K := by
  obtain ⟨ls, hstrict, htokens, rfl⟩ := h
  exact ⟨.blank c hc :: ls, List.forall_mem_cons.mpr ⟨trivial, hstrict⟩, htokens, rfl⟩

/-- A phrase that is one token. -/
theorem single_mem_phrase_mul {ph : Phrase} {t : Token} (h : Grammar false ph [t])
    {us : List Token} (hus : us ∈ K) : t :: us ∈ phrase ph * K :=
  ⟨[t], h, us, hus, rfl⟩

/-- A phrase that is a token before another one. -/
theorem cons_mem_phrase_mul {ph ph' : Phrase} {t : Token}
    (h : ∀ {ts}, Grammar false ph' ts → Grammar false ph (t :: ts))
    {us : List Token} (hus : us ∈ phrase ph' * K) : t :: us ∈ phrase ph * K := by
  obtain ⟨ts, hts, rest, hrest, rfl⟩ := hus
  exact ⟨t :: ts, h hts, rest, hrest, rfl⟩

theorem phrase_mul_le {ph ph' : Phrase} (h : ∀ {ts}, Grammar false ph' ts → Grammar false ph ts) :
    phrase ph' * K ≤ phrase ph * K := by
  rintro _ ⟨ts, hts, rest, hrest, rfl⟩
  exact ⟨ts, h hts, rest, hrest, rfl⟩

theorem phrase_item_mul_le (f : Frame) :
    phrase (.item f) * (phrase (.rest f) * K) ≤ phrase (.items f) * K := by
  rintro _ ⟨ts, hts, _, ⟨us, hus, rest, hrest, rfl⟩, rfl⟩
  exact ⟨ts ++ us, .items hts hus, rest, hrest, by simp⟩

theorem atom_mul_written_le : atom * written K ≤ written (phrase .value * K) := by
  rintro _ ⟨chars, hchars, cs, hcs, rfl⟩
  exact token_mem_written (t := .atom chars hchars) rfl
    (written_mono (fun us hus => single_mem_phrase_mul .atom hus) hcs)

theorem bodies_mul_written_le
    (h : ∀ body hbody us, us ∈ K' → Token.string body hbody :: us ∈ K) :
    bodies * ({['"']} * written K') ≤ (written K).leftQuotient ['"'] := by
  rintro _ ⟨body, hbody, _, ⟨_, rfl, cs, hcs, rfl⟩, rfl⟩
  have := token_mem_written (t := .string body hbody) rfl
    (written_mono (fun us hus => h body hbody us hus) hcs)
  simp only [Token.text, List.cons_append, List.append_assoc] at this
  exact this

/-! ## readers of tokens -/

theorem dropBlanks_rest (cs : List Char) (line : Nat) :
    ∃ blanks, (∀ c ∈ blanks, isBlank c = true) ∧ cs = blanks ++ (dropBlanks cs line).rest := by
  induction cs generalizing line with
  | nil => exact ⟨[], List.forall_mem_nil _, rfl⟩
  | cons c cs ih =>
    rw [dropBlanks]
    split
    · next hc =>
      obtain ⟨blanks, hblanks, heq⟩ := ih (Cursor.lineAfter line c)
      exact ⟨c :: blanks, List.forall_mem_cons.mpr ⟨hc, hblanks⟩, congrArg (c :: ·) heq⟩
    · exact ⟨[], List.forall_mem_nil _, rfl⟩

theorem reads_skipBlanks : Reads skipBlanks (written K) (fun o => given o (written K)) := by
  intro here o there h hafter
  cases h
  have hafter := hafter rfl
  obtain ⟨blanks, hblanks, heq⟩ := dropBlanks_rest here.rest here.line
  rw [heq]
  clear heq
  induction blanks with
  | nil => exact hafter
  | cons c blanks ih =>
    obtain ⟨hc, hblanks⟩ := List.forall_mem_cons.mp hblanks
    exact blank_mem_written hc (ih hblanks)

/-- Taking a token of one character that is known to come next. -/
theorem reads_token {t : Token} {c : Char} {r : Reader α} {Q : α → Language Char}
    (ht : t.isExtra = false) (htext : t.text = [c]) (hK : ∀ us ∈ K', t :: us ∈ K)
    (h : Reads r (written K') Q) : Reads (next >>= fun _ => r) (given (some c) (written K)) Q := by
  refine .bind (reads_next_given c) fun _ => h.mono fun cs hcs => ?_
  have hle : K' ≤ K.leftQuotient [t] := hK
  have hmem := token_mem_written ht (written_mono hle hcs)
  rwa [htext] at hmem

/-- Taking a word whose first character is known to come next. -/
theorem reads_word {c : Char} {es : List Char} (hword : c :: es ∈ Lexical.word) {r : Reader α}
    {Q : α → Language Char} (h : Reads r (written K) Q) :
    Reads (next >>= fun _ => literal es >>= fun _ => r)
      (given (some c) (written (phrase .value * K))) Q := by
  refine .bind (reads_next_given c) fun _ => .mono (.bind (reads_literal es) fun _ => h) ?_
  rintro _ ⟨_, rfl, cs, hcs, rfl⟩
  exact atom_mul_written_le ⟨_, .inl hword, cs, hcs, rfl⟩

/-- A number whose minus sign is known to come next. -/
theorem reads_negative {x : Reader β} {f : β → Reader α}
    (hx : Reads x (unsigned * written K) (fun _ => written K)) {Q : α → Language Char}
    (h : ∀ a, Reads (f a) (written K) Q) :
    Reads (next >>= fun _ => x >>= f) (given (some '-') (written (phrase .value * K))) Q := by
  refine .bind (reads_next_given '-') fun _ => .mono (.bind hx h) ?_
  rintro _ ⟨ds, hds, cs, hcs, rfl⟩
  exact atom_mul_written_le ⟨_, .inr ⟨['-'], .inr rfl, ds, hds, rfl⟩, cs, hcs, rfl⟩

/-- A number without a sign. -/
theorem reads_positive {x : Reader β} {f : β → Reader α}
    (hx : Reads x (unsigned * written K) (fun _ => written K)) {Q : α → Language Char}
    (h : ∀ a, Reads (f a) (written K) Q) :
    Reads (x >>= f) (written (phrase .value * K)) Q := by
  refine .mono (.bind hx h) ?_
  rintro _ ⟨ds, hds, cs, hcs, rfl⟩
  exact atom_mul_written_le ⟨_, .inr ⟨[], .inl rfl, ds, hds, rfl⟩, cs, hcs, rfl⟩

/-- A string whose opening quote is known to come next. -/
theorem reads_text {x : Reader β} {f : β → Reader α}
    (hx : Reads x (bodies * ({['"']} * written K')) (fun _ => written K')) {Q : α → Language Char}
    (hK : ∀ body hbody us, us ∈ K' → Token.string body hbody :: us ∈ K)
    (h : ∀ a, Reads (f a) (written K') Q) :
    Reads (next >>= fun _ => x >>= f) (given (some '"') (written K)) Q :=
  .bind (reads_next_given '"') fun _ => .mono (.bind hx h) (bodies_mul_written_le hK)

/-! ## lists and objects -/

/-- `r` reads a value. -/
def ReadsValue (r : Reader α) : Prop :=
  ∀ K, Reads r (written (phrase .value * K)) fun _ => written K

/-- What an item stands in front of: the first one right after the opening mark, the others after
an item. -/
def position (first : Bool) (f : Frame) : Phrase :=
  if first then .body f else .rest f

theorem closing_position (first : Bool) (f : Frame) :
    Grammar false (position first f) [.closing f] := by
  cases first
  · exact .last
  · exact .empty

/-- A comma that is known to come next, and the blanks after it. -/
theorem reads_comma {f : Frame} {r : Option Char → Reader α} {Q : α → Language Char}
    (h : ∀ o, Reads (r o) (given o (written (phrase (.items f) * K))) Q) :
    Reads (next >>= fun _ => skipBlanks >>= r) (given (some ',') (written (phrase (.rest f) * K)))
      Q :=
  reads_token (t := .comma) rfl rfl (fun _ => cons_mem_phrase_mul .more)
    (.bind reads_skipBlanks h)

theorem reads_items {item : Reader α} (hitem : ReadsValue item) (fuel : Nat) (first : Bool) :
    Reads (items item fuel first) (written (phrase (position first .list) * K))
      (fun _ => written K) := by
  induction fuel generalizing first with
  | zero => exact (fails_failNext _).reads
  | succ fuel ih =>
    have more : Reads (item >>= fun a => items item fuel false >>= fun as => pure (a :: as))
        (written (phrase (.items .list) * K)) (fun _ => written K) :=
      .mono (.bind (hitem _) fun a => .bind (ih false) fun as => .pure _)
        (written_mono ((phrase_mul_le .element).trans (phrase_item_mul_le .list)))
    refine .bind reads_skipBlanks fun o => ?_
    split
    · exact (fails_failNext _).reads
    · exact reads_token (t := .closing .list) rfl rfl
        (fun us hus => single_mem_phrase_mul (closing_position first .list) hus) (.pure _)
    · cases first with
      | true => exact .given (more.mono (written_mono (phrase_mul_le .filled)))
      | false =>
        refine .ite (fun _ => .ite (fun _ => (fails_failNext _).bind.reads) fun hc => ?_) nofun
        obtain rfl : _ = ',' := by simpa using hc
        refine reads_comma fun o => ?_
        split
        · exact (fails_failNext _).bind.reads
        · exact (fails_failNext _).bind.reads
        · exact .given more

/-- The items of a list are read, and its closing bracket. -/
theorem reads_listOf {item : Reader α} (hitem : ReadsValue item) :
    Reads (listOf item) (written (phrase (.body .list) * K)) (fun _ => written K) :=
  .bind reads_get fun _ => reads_items hitem _ true

/-- A list whose opening bracket is known to come next. -/
theorem reads_list {item : Reader α} (hitem : ReadsValue item) {f : List α → Reader β}
    {Q : β → Language Char} (h : ∀ as, Reads (f as) (written K) Q) :
    Reads (next >>= fun _ => listOf item >>= f) (given (some '[') (written (phrase .value * K)))
      Q :=
  reads_token (t := .opening .list) rfl rfl (fun _ => cons_mem_phrase_mul .group)
    (.bind (reads_listOf hitem) h)

theorem reads_nextKey (first : Bool) :
    Reads (nextKey first) (written (phrase (position first .object) * K)) (fun more =>
      if more then given (some '"') (written (phrase (.items .object) * K))
      else given (some '}') (written (phrase (position first .object) * K))) := by
  refine .bind reads_skipBlanks fun o => ?_
  split
  · exact (fails_failNext _).reads
  · exact .pure _
  · next c _ =>
    cases first with
    | true =>
      refine .ite (fun _ => .ite (fun hc => ?_) fun _ => (fails_failNext _).reads) nofun
      obtain rfl : c = '"' := by simpa using hc
      exact (Reads.pure _).mono fun cs h hcs => written_mono (phrase_mul_le .filled) (h hcs)
    | false =>
      refine .ite nofun fun _ => .ite (fun hc => ?_) fun _ => (fails_failNext _).reads
      obtain rfl : c = ',' := by simpa using hc
      refine reads_comma fun o => ?_
      split
      · exact (fails_failNext _).reads
      · exact .pure _
      · exact (fails_failNext _).reads

theorem reads_colon : Reads colon (written ({[.colon]} * K)) (fun _ => written K) := by
  refine .bind reads_skipBlanks fun o => ?_
  split
  · exact (fails_failNext _).reads
  · exact reads_token (t := .colon) rfl rfl (fun us hus => ⟨[.colon], rfl, us, hus, rfl⟩)
      (.pure ())
  · exact (fails_failNext _).reads

/-- `field` reads the colon and the value of a key. -/
def ReadsField (field : σ → String → Reader σ) : Prop :=
  ∀ s k K, Reads (field s k) (written ({[.colon]} * (phrase .value * K))) fun _ => written K

theorem string_colon_mem {body : List Char} {hbody : StringBody body} {us : List Token}
    (hus : us ∈ {[.colon]} * (phrase .value * K)) :
    .string body hbody :: us ∈ phrase (.item .object) * K := by
  obtain ⟨_, rfl, _, ⟨ts, hts, rest, hrest, rfl⟩, rfl⟩ := hus
  exact ⟨_, .member hts, rest, hrest, rfl⟩

/-- A key whose opening quote is known to come next. -/
theorem reads_key (hK : ∀ body hbody us, us ∈ K' → Token.string body hbody :: us ∈ K) :
    Reads key (given (some '"') (written K)) (fun _ => written K') :=
  .bind (reads_next_given '"') fun _ => reads_string.mono (bodies_mul_written_le hK)

theorem reads_fields {field : σ → String → Reader σ} (hfield : ReadsField field) (fuel : Nat)
    (first : Bool) (s : σ) :
    Reads (fields field fuel first s) (written (phrase (position first .object) * K))
      (fun _ => written K) := by
  induction fuel generalizing first s with
  | zero => exact (fails_failNext _).reads
  | succ fuel ih =>
    refine .bind (reads_nextKey first) fun more => ?_
    cases more with
    | true =>
      refine .ite (fun _ => .bind (reads_key fun body hbody us hus => ?_) fun k =>
        .bind (hfield s k _) fun s => ih false s) nofun
      exact phrase_item_mul_le .object (string_colon_mem hus)
    | false =>
      exact .ite nofun fun _ => reads_token (t := .closing .object) rfl rfl
        (fun us hus => single_mem_phrase_mul (closing_position first .object) hus) (.pure _)

/-- The fields of an object are read, and its closing brace. -/
theorem reads_fieldsFrom {field : σ → String → Reader σ} (hfield : ReadsField field) (s : σ) :
    Reads (fieldsFrom field s) (written (phrase (.body .object) * K)) (fun _ => written K) :=
  .bind reads_get fun _ => reads_fields hfield _ true s

/-- An object whose opening brace is known to come next. -/
theorem reads_object {field : σ → String → Reader σ} (hfield : ReadsField field) {s : σ}
    {f : σ → Reader β} {Q : β → Language Char} (h : ∀ s, Reads (f s) (written K) Q) :
    Reads (next >>= fun _ => fieldsFrom field s >>= f)
      (given (some '\x7b') (written (phrase .value * K))) Q :=
  reads_token (t := .opening .object) rfl rfl (fun _ => cons_mem_phrase_mul .group)
    (.bind (reads_fieldsFrom hfield s) h)

/-! ## values -/

theorem readsValue_value (depth : Nat) : ReadsValue (value depth) := by
  induction depth with
  | zero => exact fun K => (fails_failNext _).reads
  | succ depth ih =>
    intro K
    refine .bind reads_skipBlanks fun o => ?_
    split
    · exact (fails_failNext _).reads
    · exact reads_word (.inl rfl) (.pure _)
    · exact reads_word (.inr (.inl rfl)) (.pure _)
    · exact reads_word (.inr (.inr rfl)) (.pure _)
    · exact reads_text reads_string (fun _ _ us hus => single_mem_phrase_mul .string hus)
        fun _ => .pure _
    · exact reads_negative (reads_number true) fun _ => .pure _
    · exact .ite (fun _ => (fails_failNext _).bind.reads) fun _ =>
        reads_list ih fun _ => .pure _
    · refine .ite (fun _ => (fails_failNext _).bind.reads) fun _ =>
        reads_object (fun fs k K => ?_) fun _ => .pure _
      exact .bind reads_colon fun _ => .bind (ih K) fun _ => .pure _
    · exact .ite (fun _ => .given (reads_positive (reads_number false) fun _ => .pure _)) fun _ =>
        (fails_failNext _).reads

/-! ## values that nobody keeps -/

/-- What is still to come after a value that stands in these frames. -/
def demand (K : Language Token) : List Frame → Language Token
  | [] => K
  | f :: fs => phrase (.rest f) * demand K fs

/-- The same where no comma may come next, right after an opening mark. -/
def demandAt (K : Language Token) : Bool → List Frame → Language Token
  | false, f :: fs => phrase (.body f) * demand K fs
  | _, fs => demand K fs

/-- What is still to come when the innermost frame has one more item. -/
def demandItem (K : Language Token) : List Frame → Language Token
  | [] => K
  | f :: fs => phrase (.item f) * demand K (f :: fs)

theorem reads_closeFrames (comma : Bool) (frames : List Frame) :
    Reads (closeFrames comma frames) (written (demandAt K comma frames))
      (fun fs => written (demandItem K fs)) := by
  induction frames generalizing comma with
  | nil =>
    cases comma <;> exact .pure _
  | cons frame outer ih =>
    refine .bind reads_skipBlanks fun o => ?_
    split
    · exact (fails_failNext _).reads
    · next c =>
      -- a comma, which another item follows; a closing mark; the first item after an opening mark
      refine .ite (fun hc => ?_) fun hc => .ite (fun hclose => ?_) fun hclose =>
        .ite (fun _ => (fails_failNext _).reads) fun hcomma => .given ?_
      · obtain ⟨rfl, rfl⟩ : comma = true ∧ c = ',' := by simpa using hc
        have item : Reads (pure (frame :: outer)) (written (demandItem K (frame :: outer)))
            (fun fs => written (demandItem K fs)) := .pure _
        exact reads_token (t := .comma) rfl rfl
          (fun us hus => cons_mem_phrase_mul .more (phrase_item_mul_le frame hus)) item
      · obtain rfl : c = frame.close := by simpa using hclose
        refine reads_token (t := .closing frame) rfl rfl (fun us hus => ?_) (ih true)
        cases comma
        · exact single_mem_phrase_mul .empty hus
        · exact single_mem_phrase_mul .last hus
      · obtain rfl : comma = false := by simpa using hcomma
        refine (Reads.pure _).mono (written_mono ?_)
        exact (phrase_item_mul_le frame).trans (phrase_mul_le .filled)

theorem reads_skipKey :
    Reads skipKey (written (phrase (.item .object) * K))
      (fun _ => written (phrase .value * K)) := by
  refine .bind reads_skipBlanks fun o => ?_
  split
  · exact (fails_failNext _).reads
  · exact reads_text reads_skipString (fun _ _ us hus => string_colon_mem hus)
      fun _ => reads_colon
  · exact (fails_failNext _).reads

theorem reads_skipHead (frames : List Frame) :
    Reads (skipHead frames) (written (phrase .value * demand K frames))
      (fun p => written (demandAt K p.2 p.1)) := by
  have scalar : Reads (pure (frames, true)) (written (demand K frames))
      (fun p => written (demandAt K p.2 p.1)) := by
    refine (Reads.pure _).mono ?_
    cases frames <;> rfl
  have group (f : Frame) : Reads (pure (f :: frames, false))
      (written (phrase (.body f) * demand K frames)) (fun p => written (demandAt K p.2 p.1)) :=
    .pure _
  refine .bind reads_skipBlanks fun o => ?_
  split
  · exact (fails_failNext _).reads
  · exact reads_word (.inl rfl) scalar
  · exact reads_word (.inr (.inl rfl)) scalar
  · exact reads_word (.inr (.inr rfl)) scalar
  · exact reads_text reads_skipString (fun _ _ us hus => single_mem_phrase_mul .string hus)
      fun _ => scalar
  · exact reads_negative (reads_numberParts _) fun _ => scalar
  · exact reads_token (t := .opening .list) rfl rfl (fun _ => cons_mem_phrase_mul .group)
      (group .list)
  · exact reads_token (t := .opening .object) rfl rfl (fun _ => cons_mem_phrase_mul .group)
      (group .object)
  · exact .ite (fun _ => .given (reads_positive (reads_numberParts _) fun _ => scalar)) fun _ =>
      (fails_failNext _).reads

theorem reads_skipWithin (fuel : Nat) (frames : List Frame) :
    Reads (skipWithin fuel frames) (written (phrase .value * demand K frames))
      (fun _ => written K) := by
  induction fuel generalizing frames with
  | zero => exact (fails_failNext _).reads
  | succ fuel ih =>
    refine .bind (reads_skipHead frames) fun p => .bind (reads_closeFrames p.2 p.1) fun fs => ?_
    split
    · exact .pure _
    · exact (ih _).mono (written_mono (phrase_mul_le .element))
    · exact .bind reads_skipKey fun _ => ih _

theorem readsValue_skipValue : ReadsValue skipValue :=
  fun _ => .bind reads_get fun _ => reads_skipWithin _ []

/-! ## whole texts -/

/-- Whatever is read as a whole is strict JSON. -/
theorem isStrictJson_of_readText {r : Reader α} (hr : ReadsValue r) {cs : List Char} {a : α}
    (h : readText r cs = .ok a) : IsStrictJson cs := by
  unfold readText at h
  split at h
  · next a' there hrun =>
    have hr : Reads (whole r) (written (phrase .value * 1)) (fun _ => given none (written 1)) := by
      refine .bind (hr 1) fun a => .bind reads_skipBlanks fun o => ?_
      split
      · exact .pure a
      · exact (fails_failNext _).reads
    have hend : there.rest ∈ given none (written 1) := fun hnil =>
      ⟨[], List.forall_mem_nil _, rfl, (List.head?_eq_none_iff.mp hnil).symm⟩
    obtain ⟨ls, hstrict, hvalue, htext⟩ := hr hrun hend
    rw [mul_one] at hvalue
    exact ⟨ls, hstrict, hvalue, htext⟩
  · cases h

end TypeQuery.Json.Reader
