import TypeQuery.Config.Reader
import TypeQuery.Proofs.Json.Grammar

/-!
# TypeQuery.Proofs.Config.Comments

What becomes of JSON with comments when the comments and the trailing commas are
taken out.  Both passes are followed piece by piece: the first one turns every
comment into the newlines it covers, the second one turns every extra comma into
a space, and neither touches anything else.

* `stripFrom_text`, `stripComments_text` — the first pass;
* `closesNext_textOf`, `blankFrom_textOf` — the second pass;
* `plainJson_of_isJsonc` — a text with comments and trailing commas becomes the
  strict JSON text with the same tokens.
-/

/-! ## pieces without comments, without extra commas -/

namespace TypeQuery.Json.Lexeme

/-- What is left of a piece without comments. -/
def stripped : Lexeme → List Lexeme
  | lineComment _ _ => [newline]
  | blockComment body _ => newlinesOf body
  | l => [l]

/-- What is left of a piece without extra commas. -/
def blanked : Lexeme → Lexeme
  | token .extraComma => space
  | l => l

theorem map_blanked_stripped (l : Lexeme) : l.stripped.map blanked = l.plain := by
  cases l with
  | token t => cases t <;> rfl
  | blockComment body => simp [stripped, plain, newlinesOf, blanked, newline]
  | _ => rfl

theorem isUncommented_of_mem_stripped {l m : Lexeme} (h : m ∈ l.stripped) : m.IsUncommented := by
  cases l with
  | blockComment body =>
    rw [List.eq_of_mem_replicate h]
    trivial
  | _ =>
    rw [List.mem_singleton.mp h]
    trivial

theorem tokensOf_stripped (l : Lexeme) : tokensOf l.stripped = tokensOf [l] := by
  cases l with
  | blockComment body => exact tokensOf_newlinesOf body
  | _ => rfl

theorem isStrict_blanked {l : Lexeme} (h : l.IsUncommented) : l.blanked.IsStrict := by
  cases l with
  | token t => cases t <;> trivial
  | _ => exact h

theorem tokensOf_blanked (l : Lexeme) :
    tokensOf [l.blanked] = (tokensOf [l]).filter (!·.isExtra) := by
  cases l with
  | token t => cases t <;> rfl
  | _ => rfl

theorem plain_of_isStrict {l : Lexeme} (h : l.IsStrict) : l.plain = [l] := by
  cases l with
  | token t => cases t <;> first | rfl | cases h
  | blank => rfl
  | _ => cases h

end TypeQuery.Json.Lexeme

namespace TypeQuery.Json.Script

/-- What is left of a text without comments. -/
def stripped (d : Script) : List Lexeme :=
  d.lexemes.flatMap Lexeme.stripped ++ d.tail.plain

theorem tokensOf_tail_plain (t : Tail) : tokensOf t.plain = [] := by
  cases t with
  | openComment body => exact tokensOf_newlinesOf body
  | _ => rfl

theorem tokensOf_stripped (d : Script) : tokensOf d.stripped = d.tokens := by
  have hlexemes : tokensOf (d.lexemes.flatMap Lexeme.stripped) = tokensOf d.lexemes := by
    induction d.lexemes with
    | nil => rfl
    | cons l ls ih =>
      rw [List.flatMap_cons, tokensOf_append, Lexeme.tokensOf_stripped, ih, ← tokensOf_append,
        List.singleton_append]
  rw [stripped, tokensOf_append, hlexemes, tokensOf_tail_plain, List.append_nil, tokens]

theorem isUncommented_of_mem_stripped {d : Script} {l : Lexeme} (h : l ∈ d.stripped) :
    l.IsUncommented := by
  rcases List.mem_append.mp h with h | h
  · obtain ⟨m, -, hl⟩ := List.mem_flatMap.mp h
    exact Lexeme.isUncommented_of_mem_stripped hl
  · cases hd : d.tail with
    | openComment body =>
      rw [hd] at h
      rw [List.eq_of_mem_replicate h]
      trivial
    | _ => rw [hd] at h; cases h

theorem map_blanked_stripped (d : Script) : d.stripped.map Lexeme.blanked = d.plain := by
  have htail : d.tail.plain.map Lexeme.blanked = d.tail.plain := by
    cases d.tail with
    | openComment body => simp [Tail.plain, Lexeme.newlinesOf, Lexeme.blanked, Lexeme.newline]
    | _ => rfl
  rw [stripped, List.map_append, htail, List.map_flatMap, plain]
  simp only [Lexeme.map_blanked_stripped]

theorem isStrict_of_mem_plain {d : Script} {l : Lexeme} (h : l ∈ d.plain) : l.IsStrict := by
  rw [← map_blanked_stripped] at h
  obtain ⟨m, hm, rfl⟩ := List.mem_map.mp h
  exact Lexeme.isStrict_blanked (isUncommented_of_mem_stripped hm)

theorem tokensOf_plain (d : Script) : tokensOf d.plain = d.tokens.filter (!·.isExtra) := by
  rw [← map_blanked_stripped, ← tokensOf_stripped]
  induction d.stripped with
  | nil => rfl
  | cons l ls ih =>
    rw [List.map_cons, ← List.singleton_append, tokensOf_append, Lexeme.tokensOf_blanked, ih,
      ← List.filter_append, ← tokensOf_append, List.singleton_append]

end TypeQuery.Json.Script

namespace TypeQuery.Config

open Json (Grammar Token Lexeme Script Tail StringBody textOf tokensOf)
open Json.Reader (Frame)

/-! ## strings -/

/-- A pass over a text that copies strings. -/
structure CopiesStrings (f : Zone → List Char → List Char) : Prop where
  nil : ∀ zone, f zone [] = []
  cons : ∀ escaped c cs, f (.string escaped) (c :: cs) = c :: f (.afterStringChar escaped c) cs

theorem copiesStrings_stripFrom : CopiesStrings stripFrom where
  nil _ := by rw [stripFrom]
  cons _ _ _ := by rw [stripFrom]

theorem copiesStrings_blankFrom : CopiesStrings blankFrom where
  nil zone := by cases zone <;> rfl
  cons _ _ _ := rfl

theorem ne_of_isSome_hexDigit? {c : Char} (h : (Json.Reader.hexDigit? c).isSome) :
    c ≠ '"' ∧ c ≠ '\\' := by
  constructor <;> rintro rfl <;> cases h

@[simp] theorem afterStringChar_backslash : Zone.afterStringChar false '\\' = .string true :=
  rfl

@[simp] theorem afterStringChar_escaped (c : Char) :
    Zone.afterStringChar true c = .string false :=
  rfl

theorem afterStringChar_plain {c : Char} (hquote : c ≠ '"') (hslash : c ≠ '\\') :
    Zone.afterStringChar false c = .string false := by
  simp [Zone.afterStringChar, hquote, hslash]

/-- A string is copied up to its closing quote, where code begins. -/
theorem CopiesStrings.body {f : Zone → List Char → List Char} (hf : CopiesStrings f)
    {body : List Char} (h : StringBody body) (rest : List Char) :
    f (.string false) (body ++ '"' :: rest) = body ++ '"' :: f .code rest := by
  induction h with
  | nil => exact hf.cons ..
  | char _ hquote hslash _ ih =>
    rw [List.cons_append, hf.cons, afterStringChar_plain hquote hslash, ih, List.cons_append]
  | escape _ _ ih =>
    simp only [List.cons_append, hf.cons, afterStringChar_backslash, afterStringChar_escaped, ih]
  | codePoint hhex _ ih =>
    simp only [List.forall_mem_cons] at hhex
    obtain ⟨ha, hb, hc, hd, -⟩ := hhex
    have plain {c : Char} (h : (Json.Reader.hexDigit? c).isSome) :
        Zone.afterStringChar false c = .string false :=
      afterStringChar_plain (ne_of_isSome_hexDigit? h).1 (ne_of_isSome_hexDigit? h).2
    simp only [List.cons_append, hf.cons, afterStringChar_backslash, afterStringChar_escaped,
      plain ha, plain hb, plain hc, plain hd, ih]

/-! ## comments -/

/-- No closing mark in the rest of a block comment, which follows a star if `star` says so. -/
def NeverCloses (star : Bool) (cs : List Char) : Prop :=
  ¬ ['*', '/'] <:+: (if star then '*' :: cs else cs)

theorem NeverCloses.cons {star : Bool} {c : Char} {cs : List Char}
    (h : NeverCloses star (c :: cs)) :
    (star && c == '/') = false ∧ NeverCloses (c == '*') cs := by
  constructor
  · cases star with
    | false => rfl
    | true =>
      refine Bool.eq_false_iff.mpr fun hc => h ?_
      obtain rfl : c = '/' := by simpa using hc
      exact ⟨[], cs, rfl⟩
  · intro hin
    have hsuffix : (if c == '*' then '*' :: cs else cs) <:+: c :: cs := by
      by_cases hc : c = '*'
      · rw [hc]
        exact List.infix_rfl
      · rw [if_neg (by simpa using hc)]
        exact List.infix_cons List.infix_rfl
    refine h (hin.trans (hsuffix.trans ?_))
    cases star
    · exact List.infix_rfl
    · exact List.infix_cons List.infix_rfl

theorem stripFrom_lineComment {body : List Char} (h : '\n' ∉ body) (rest : List Char) :
    stripFrom .lineComment (body ++ '\n' :: rest) = '\n' :: stripFrom .code rest := by
  induction body with
  | nil => simp [stripFrom]
  | cons c body ih =>
    obtain ⟨hc, hbody⟩ := not_or.mp (mt List.mem_cons.mpr h)
    simp [stripFrom, Ne.symm hc, ih hbody]

theorem stripFrom_lineComment_end {body : List Char} (h : '\n' ∉ body) :
    stripFrom .lineComment body = [] := by
  induction body with
  | nil => simp [stripFrom]
  | cons c body ih =>
    obtain ⟨hc, hbody⟩ := not_or.mp (mt List.mem_cons.mpr h)
    simp [stripFrom, Ne.symm hc, ih hbody]

/-- Inside a block comment only newlines are kept. -/
theorem stripFrom_blockComment_cons {star : Bool} {c : Char} {cs : List Char} (rest : List Char)
    (h : NeverCloses star (c :: cs)) :
    stripFrom (.blockComment star) (c :: cs ++ rest) =
      List.replicate ([c].count '\n') '\n' ++
        stripFrom (.blockComment (c == '*')) (cs ++ rest) := by
  rw [List.cons_append, stripFrom, h.cons.1]
  by_cases hc : c = '\n' <;> simp [hc]

theorem stripFrom_blockComment {star : Bool} {body : List Char} (h : NeverCloses star body)
    (rest : List Char) :
    stripFrom (.blockComment star) (body ++ '*' :: '/' :: rest) =
      List.replicate (body.count '\n') '\n' ++ stripFrom .code rest := by
  induction body generalizing star with
  | nil => simp [stripFrom]
  | cons c body ih =>
    rw [stripFrom_blockComment_cons _ h, ih h.cons.2, ← List.append_assoc,
      List.replicate_append_replicate, ← List.count_append, List.singleton_append]

theorem stripFrom_blockComment_end {star : Bool} {body : List Char} (h : NeverCloses star body) :
    stripFrom (.blockComment star) body = List.replicate (body.count '\n') '\n' := by
  induction body generalizing star with
  | nil => simp [stripFrom]
  | cons c body ih =>
    have step := stripFrom_blockComment_cons [] h
    rw [List.append_nil, List.append_nil] at step
    rw [step, ih h.cons.2, List.replicate_append_replicate, ← List.count_append,
      List.singleton_append]

theorem stripFrom_plain {cs : List Char} (h : ∀ c ∈ cs, c ≠ '"' ∧ c ≠ '/') (rest : List Char) :
    stripFrom .code (cs ++ rest) = cs ++ stripFrom .code rest := by
  induction cs with
  | nil => rfl
  | cons c cs ih =>
    obtain ⟨⟨hquote, hslash⟩, hcs⟩ := List.forall_mem_cons.mp h
    simp [stripFrom, hquote, hslash, ih hcs]

theorem ne_of_isAtomChar {c : Char} (h : Json.Lexical.isAtomChar c = true) :
    (c ≠ '"' ∧ c ≠ '/') ∧ c ≠ ',' ∧ c ≠ '}' ∧ c ≠ ']' := by
  refine ⟨⟨?_, ?_⟩, ?_, ?_, ?_⟩ <;> rintro rfl <;> cases h

theorem ne_of_isBlank {c : Char} (h : Json.Reader.isBlank c = true) :
    (c ≠ '"' ∧ c ≠ '/') ∧ c ≠ ',' := by
  refine ⟨⟨?_, ?_⟩, ?_⟩ <;> rintro rfl <;> cases h

/-- The first pass over one piece of a text. -/
theorem stripFrom_text (l : Lexeme) (rest : List Char) :
    stripFrom .code (l.text ++ rest) = textOf l.stripped ++ stripFrom .code rest := by
  have single {c : Char} (h : c ≠ '"' ∧ c ≠ '/') :
      stripFrom .code ([c] ++ rest) = [c] ++ stripFrom .code rest :=
    stripFrom_plain (by simpa using h) rest
  cases l with
  | token t =>
    cases t with
    | string body h =>
      have := copiesStrings_stripFrom.body h rest
      simpa [Lexeme.text, Token.text, Lexeme.stripped, stripFrom] using this
    | atom chars h =>
      exact (stripFrom_plain (fun c hc =>
        (ne_of_isAtomChar (Json.Lexical.atom_le_plain h c hc)).1) rest).trans (by
          simp [Lexeme.stripped, Lexeme.text, Token.text])
    | opening f => cases f <;> exact single (by decide)
    | closing f => cases f <;> exact single (by decide)
    | _ => exact single (by decide)
  | blank c h => exact single (ne_of_isBlank h).1
  | lineComment body h =>
    simpa [Lexeme.text, Lexeme.stripped, Lexeme.newline, stripFrom] using
      stripFrom_lineComment h rest
  | blockComment body h =>
    simpa [Lexeme.text, Lexeme.stripped, stripFrom] using
      stripFrom_blockComment (show NeverCloses false body from h) rest

theorem stripFrom_textOf (ls : List Lexeme) (rest : List Char) :
    stripFrom .code (textOf ls ++ rest) =
      textOf (ls.flatMap Lexeme.stripped) ++ stripFrom .code rest := by
  induction ls with
  | nil => rfl
  | cons l ls ih =>
    rw [Json.textOf_cons, List.append_assoc, stripFrom_text, ih, List.flatMap_cons,
      Json.textOf_append, List.append_assoc]

theorem stripFrom_tail (t : Tail) : stripFrom .code t.text = textOf t.plain := by
  cases t with
  | nothing => rfl
  | lineComment body h =>
    simpa [Tail.text, Tail.plain, stripFrom] using stripFrom_lineComment_end h
  | openComment body h =>
    simpa [Tail.text, Tail.plain, stripFrom] using
      stripFrom_blockComment_end (show NeverCloses false body from h)

/-- The first pass replaces every comment by the newlines it covers. -/
theorem stripComments_text (d : Script) :
    stripComments d.text = textOf d.stripped := by
  rw [stripComments, Script.text, stripFrom_textOf, stripFrom_tail, Script.stripped,
    Json.textOf_append]

/-! ## trailing commas -/

theorem isBlank_of_isBlank {c : Char} (h : Json.Reader.isBlank c = true) :
    Text.isBlank c = true := by
  simp only [Json.Reader.isBlank, Bool.or_eq_true, beq_iff_eq] at h
  rcases h with ((rfl | rfl) | rfl) | rfl <;> rfl

theorem isBlank_eq_false_of_isAtomChar {c : Char} (h : Json.Lexical.isAtomChar c = true) :
    Text.isBlank c = false := by
  have hrange : 0x20 < c.toNat ∧ c.toNat < 0x7F := by
    simp only [Json.Lexical.isAtomChar, Bool.or_eq_true, List.contains_iff_mem, List.mem_cons,
      List.not_mem_nil, or_false, Json.Reader.isDigit, Bool.and_eq_true, decide_eq_true_eq,
      Char.le_def, UInt32.le_iff_toNat_le] at h
    rcases h with ⟨hlow, hhigh⟩ | h
    · have hlow : 48 ≤ c.toNat := hlow
      have hhigh : c.toNat ≤ 57 := hhigh
      omega
    · rcases h with rfl | rfl | rfl | rfl | rfl | rfl | rfl | rfl | rfl | rfl | rfl | rfl | rfl <;>
        decide
  simp [Text.isBlank, Text.blankRanges]
  omega

theorem closesNext_cons {c : Char} (h : Text.isBlank c = false) (cs : List Char) :
    closesNext (c :: cs) = (c == '}' || c == ']') := by
  simp [closesNext, h]

/-- A closing bracket comes next if and only if the next token closes. -/
theorem closesNext_textOf {ls : List Lexeme} (h : ∀ l ∈ ls, l.IsUncommented) :
    closesNext (textOf ls) = (tokensOf ls).head?.any Token.isClosing := by
  induction ls with
  | nil => rfl
  | cons l ls ih =>
    obtain ⟨hl, hls⟩ := List.forall_mem_cons.mp h
    cases l with
    | blank c hc =>
      rw [Json.tokensOf_blank, ← ih hls]
      simp [closesNext, Lexeme.text, isBlank_of_isBlank hc]
    | token t =>
      cases t with
      | atom chars hchars =>
        obtain ⟨c, cs, rfl, hc, -⟩ := Json.Lexical.exists_cons_of_atom hchars
        obtain ⟨-, -, hbrace, hbracket⟩ := ne_of_isAtomChar hc
        simp [Lexeme.text, Token.text, closesNext_cons (isBlank_eq_false_of_isAtomChar hc),
          Token.isClosing, hbrace, hbracket]
      | opening f => cases f <;> exact closesNext_cons rfl _
      | closing f => cases f <;> exact closesNext_cons rfl _
      | _ => exact closesNext_cons rfl _
    | _ => cases hl

theorem blankFrom_cons {c : Char} (hquote : c ≠ '"') (hcomma : c ≠ ',') (rest : List Char) :
    blankFrom .code (c :: rest) = c :: blankFrom .code rest := by
  simp [blankFrom, hquote, hcomma]

theorem blankFrom_plain {cs : List Char} (h : ∀ c ∈ cs, c ≠ '"' ∧ c ≠ ',') (rest : List Char) :
    blankFrom .code (cs ++ rest) = cs ++ blankFrom .code rest := by
  induction cs with
  | nil => rfl
  | cons c cs ih =>
    obtain ⟨⟨hquote, hcomma⟩, hcs⟩ := List.forall_mem_cons.mp h
    rw [List.cons_append, blankFrom_cons hquote hcomma, ih hcs, List.cons_append]

/-- The second pass turns every extra comma into a space and keeps the other commas. -/
theorem blankFrom_textOf {ls : List Lexeme} (h : ∀ l ∈ ls, l.IsUncommented)
    (hfits : Json.CommasFit (tokensOf ls)) :
    blankFrom .code (textOf ls) = textOf (ls.map Lexeme.blanked) := by
  induction ls with
  | nil => rfl
  | cons l ls ih =>
    obtain ⟨hl, hls⟩ := List.forall_mem_cons.mp h
    have single {c : Char} (hc : c ≠ '"' ∧ c ≠ ',') (hfits : Json.CommasFit (tokensOf ls)) :
        blankFrom .code (c :: textOf ls) = c :: textOf (ls.map Lexeme.blanked) := by
      rw [blankFrom_cons hc.1 hc.2, ih hls hfits]
    cases l with
    | blank c hc =>
      have hne := ne_of_isBlank hc
      exact single ⟨hne.1.1, hne.2⟩ hfits
    | token t =>
      cases t with
      | string body hbody =>
        have := copiesStrings_blankFrom.body hbody (textOf ls)
        rw [ih hls hfits] at this
        simpa [Lexeme.text, Token.text, Lexeme.blanked, blankFrom] using this
      | atom chars hchars =>
        have hplain c (hc : c ∈ chars) : c ≠ '"' ∧ c ≠ ',' :=
          have hne := ne_of_isAtomChar (Json.Lexical.atom_le_plain hchars c hc)
          ⟨hne.1.1, hne.2.1⟩
        rw [Json.textOf_cons, Lexeme.text, Token.text, blankFrom_plain hplain, ih hls hfits]
        rfl
      | comma =>
        have hopen : closesNext (textOf ls) = false := by
          obtain ⟨u, hu, hbegins⟩ := Option.any_eq_true _ _ |>.mp hfits.1
          rw [closesNext_textOf hls, show (tokensOf ls).head? = some u from hu]
          exact Token.isClosing_eq_false_of_begins hbegins
        have hstep : blankFrom .code (',' :: textOf ls) = ',' :: blankFrom .code (textOf ls) := by
          simp [blankFrom, hopen]
        exact hstep.trans (by rw [ih hls hfits.2]; rfl)
      | extraComma =>
        have hclosing : closesNext (textOf ls) = true :=
          (closesNext_textOf hls).trans hfits.1
        have hstep : blankFrom .code (',' :: textOf ls) = ' ' :: blankFrom .code (textOf ls) := by
          simp [blankFrom, hclosing]
        exact hstep.trans (by rw [ih hls hfits.2]; rfl)
      | opening f => cases f <;> exact single (by decide) hfits
      | closing f => cases f <;> exact single (by decide) hfits
      | colon => exact single (by decide) hfits
    | _ => cases hl

/-! ## both passes -/

theorem plainJson_text {d : Script} (h : Json.CommasFit d.tokens) :
    plainJson d.text = textOf d.plain := by
  rw [plainJson, stripComments_text, blankTrailingCommas,
    blankFrom_textOf (fun _ => Script.isUncommented_of_mem_stripped)
      (Script.tokensOf_stripped d ▸ h),
    Script.map_blanked_stripped]

/-- Strict JSON stays as it is. -/
theorem plainJson_of_isStrictJson {cs : List Char} (h : Json.IsStrictJson cs) :
    plainJson cs = cs := by
  obtain ⟨ls, hstrict, hvalue, rfl⟩ := h
  have hplain : ls.flatMap Lexeme.plain = ls := by
    rw [List.flatMap_congr fun l hl => Lexeme.plain_of_isStrict (hstrict l hl)]
    exact List.flatMap_singleton' ls
  have h := plainJson_text (d := ⟨ls, .nothing⟩) hvalue.commasFit
  simpa [Script.text, Tail.text, Script.plain, Tail.plain, hplain] using h

/-- **A text with comments becomes the strict JSON it stands for.**  Whatever comments and extra
commas stand in a text of JSON with comments, the two passes leave a text of strict JSON pieces: the
newlines of every comment, a space for every extra comma, and all other pieces as they were.  Its
tokens are those of the text in their order, less the extra commas, and make a value; strict JSON
itself stays as it is.  So a configuration is read from the text as from the strict one. -/
theorem plainJson_of_isJsonc {d : Script} {source : String} (hd : d.IsJsonc)
    (hsource : source.toList = d.text) :
    plainJson source.toList = textOf d.plain ∧
    (∀ l ∈ d.plain, l.IsStrict) ∧
    tokensOf d.plain = d.tokens.filter (!·.isExtra) ∧
    Grammar false .value (tokensOf d.plain) ∧
    (Json.IsStrictJson source.toList → plainJson source.toList = source.toList) ∧
    parse source = parseJson (textOf d.plain) := by
  have hplain : plainJson source.toList = textOf d.plain := by
    rw [hsource, plainJson_text hd.1.commasFit]
  have hvalue : Grammar false .value (tokensOf d.plain) := by
    rw [Script.tokensOf_plain]
    exact hd.1.withoutExtra
  refine ⟨hplain, fun _ => Script.isStrict_of_mem_plain, Script.tokensOf_plain d, hvalue,
    plainJson_of_isStrictJson, ?_⟩
  rw [parse, hplain]

/-- A list in an object, with comments and extra commas, and a string that looks like them. -/
def nestedScript : Script where
  lexemes := [
    .token (.opening .object),
    .token (.string ['s'] (.char (by decide) (by decide) (by decide) .nil)),
    .token .colon,
    .space,
    .token (.string ['/', '*', ',', '\\', '"'] (.char (by decide) (by decide) (by decide)
      (.char (by decide) (by decide) (by decide) (.char (by decide) (by decide) (by decide)
        (.escape (by decide) .nil))))),
    .token .comma,
    .space,
    .blockComment [' ', 'x', '\n', '"'] (by decide),
    .space,
    .token (.string ['l'] (.char (by decide) (by decide) (by decide) .nil)),
    .token .colon,
    .token (.opening .list),
    .token (.atom ['n', 'u', 'l', 'l'] (.inl (.inl rfl))),
    .token .comma,
    .token (.opening .object),
    .token (.closing .object),
    .token .extraComma,
    .space,
    .token (.closing .list),
    .token .extraComma,
    .lineComment ['/', '*'] (by decide),
    .token (.closing .object)]
  tail := .lineComment [' ', ']'] (by decide)

theorem isJsonc_nestedScript : nestedScript.IsJsonc :=
  have group {f : Frame} {ts : List Token} (h : Grammar false (.items f) ts) :
    Grammar false .value (.opening f :: ts) := .group (.filled h)
  ⟨(group (.items (.member .string) (.more (.items (.member (group (.items (.element .atom)
    (.more (.items (.element (.group .empty)) .extra))))) .extra))) :), trivial⟩

/-- In a nested text comments and extra commas go, and strings that look like them stay. -/
theorem plainJson_of_isJsonc_nested :
    plainJson ("\x7b\"s\": \"/*,\\\"\", /* x\n\"*/ \"l\":[null,\x7b\x7d, ],///*\n\x7d// ]").toList =
      ("\x7b\"s\": \"/*,\\\"\", \n \"l\":[null,\x7b\x7d  ] \n\x7d").toList :=
  (plainJson_of_isJsonc isJsonc_nestedScript (by decide)).1.trans (by decide)

end TypeQuery.Config
