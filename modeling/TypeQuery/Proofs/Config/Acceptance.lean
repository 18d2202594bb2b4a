import TypeQuery.Proofs.Config.Comments
import TypeQuery.Proofs.Config.Reader

/-!
# TypeQuery.Proofs.Config.Acceptance

What is accepted as a configuration.  The passes that take out comments and
trailing commas know nothing of tokens, so they let through a little more than
JSON with comments:

* a comment on one line may stand inside a number or a word, whose two halves it
  leaves side by side;
* a block comment may be open at the end of the text;
* an extra comma may be all that a list or an object holds.

Nothing else is let through.  The proof takes the two passes back: from strict
JSON to a text with extra commas, and from there to one with comments.

* `Script.spellings` — texts whose atoms may be interrupted;
* `exists_of_blankFrom`, `exists_of_stripFrom` — the passes taken back;
* `exists_script_of_parse` — what every accepted text is;
* `accepted_not_isJsonc` — an accepted text of each kind that is not JSON with
  comments.
-/

namespace TypeQuery.Json

open Computability

/-! ## interrupted atoms -/

/-- A closed block comment on one line. -/
def inlineComment : Language Char :=
  {cs | ∃ body, ¬ ['*', '/'] <:+: body ∧ '\n' ∉ body ∧ cs = '/' :: '*' :: (body ++ ['*', '/'])}

/-- The characters with such comments between them. -/
def interrupted : List Char → Language Char
  | [] => 1
  | [c] => {[c]}
  | c :: cs => {[c]} * (inlineComment∗ * interrupted cs)

/-- The ways to write a piece if comments may interrupt atoms. -/
def Lexeme.spellings : Lexeme → Language Char
  | .token (.atom chars _) => interrupted chars
  | l => {l.text}

/-- The ways to write a text if comments may interrupt atoms. -/
def Script.spellings (d : Script) : Language Char :=
  (d.lexemes.map Lexeme.spellings).prod * {d.tail.text}

theorem Script.cons_mem_spellings {l : Lexeme} {d : Script} {s rest : List Char}
    (hs : s ∈ l.spellings) (hrest : rest ∈ d.spellings) :
    s ++ rest ∈ Script.spellings ⟨l :: d.lexemes, d.tail⟩ := by
  rw [Script.spellings, List.map_cons, List.prod_cons, mul_assoc]
  exact ⟨s, hs, rest, hrest, rfl⟩

end TypeQuery.Json

namespace TypeQuery.Config

open Computability
open Json (Grammar Token Lexeme Script Tail StringBody Inserted textOf tokensOf)
open Json.Reader (Frame)

/-! ## strings taken back -/

namespace CopiesStrings

variable {f : Zone → List Char → List Char}

theorem cons_inv (hf : CopiesStrings f) {escaped : Bool} {c : Char} {s out : List Char}
    (h : f (.string escaped) s = c :: out) :
    ∃ s', s = c :: s' ∧ f (.afterStringChar escaped c) s' = out := by
  cases s with
  | nil => rw [hf.nil] at h; cases h
  | cons d s' =>
    rw [hf.cons] at h
    obtain ⟨rfl, hout⟩ := List.cons.inj h
    exact ⟨s', rfl, hout⟩

theorem body_inv (hf : CopiesStrings f) {body : List Char} (hbody : StringBody body)
    {s out : List Char} (h : f (.string false) s = body ++ '"' :: out) :
    ∃ s', s = body ++ '"' :: s' ∧ f .code s' = out := by
  have plain {c : Char} {s out : List Char} (hquote : c ≠ '"') (hslash : c ≠ '\\')
      (h : f (.string false) s = c :: out) : ∃ s', s = c :: s' ∧ f (.string false) s' = out := by
    rw [← afterStringChar_plain hquote hslash]
    exact hf.cons_inv h
  have hex {c : Char} {s out : List Char} (hc : (Json.Reader.hexDigit? c).isSome)
      (h : f (.string false) s = c :: out) : ∃ s', s = c :: s' ∧ f (.string false) s' = out :=
    plain (ne_of_isSome_hexDigit? hc).1 (ne_of_isSome_hexDigit? hc).2 h
  induction hbody generalizing s with
  | nil => exact hf.cons_inv h
  | char _ hquote hslash _ ih =>
    obtain ⟨s₁, rfl, h₁⟩ := plain hquote hslash h
    obtain ⟨s', rfl, h'⟩ := ih h₁
    exact ⟨s', rfl, h'⟩
  | escape _ _ ih =>
    obtain ⟨s₁, rfl, h₁⟩ := hf.cons_inv h
    obtain ⟨s₂, rfl, h₂⟩ := hf.cons_inv h₁
    obtain ⟨s', rfl, h'⟩ := ih h₂
    exact ⟨s', rfl, h'⟩
  | codePoint hhex _ ih =>
    simp only [List.forall_mem_cons] at hhex
    obtain ⟨ha, hb, hc, hd, -⟩ := hhex
    obtain ⟨s₁, rfl, h₁⟩ := hf.cons_inv h
    obtain ⟨s₂, rfl, h₂⟩ := hf.cons_inv h₁
    obtain ⟨s₃, rfl, h₃⟩ := hex ha h₂
    obtain ⟨s₄, rfl, h₄⟩ := hex hb h₃
    obtain ⟨s₅, rfl, h₅⟩ := hex hc h₄
    obtain ⟨s₆, rfl, h₆⟩ := hex hd h₅
    obtain ⟨s', rfl, h'⟩ := ih h₆
    exact ⟨s', rfl, h'⟩

end CopiesStrings

/-! ## trailing commas taken back -/

theorem blankFrom_code_inv {c : Char} {s out : List Char} (h : blankFrom .code s = c :: out) :
    (c = ' ' ∧ ∃ s', s = ',' :: s' ∧ closesNext s' = true ∧ blankFrom .code s' = out) ∨
    ∃ s', s = c :: s' ∧ blankFrom (if c == '"' then .string false else .code) s' = out := by
  cases s with
  | nil => cases h
  | cons d s' =>
    rw [blankFrom] at h
    · split at h
      · next hd =>
        obtain rfl : d = '"' := by simpa using hd
        obtain ⟨rfl, hout⟩ := List.cons.inj h
        exact .inr ⟨s', rfl, hout⟩
      · next hd =>
        split at h
        · next hcomma =>
          obtain ⟨rfl, hcloses⟩ : d = ',' ∧ closesNext s' = true := by simpa using hcomma
          obtain ⟨rfl, hout⟩ := List.cons.inj h
          exact .inl ⟨rfl, s', rfl, hcloses, hout⟩
        · obtain ⟨rfl, hout⟩ := List.cons.inj h
          exact .inr ⟨s', rfl, by rwa [if_neg hd]⟩
    · simp

theorem blankFrom_eq_nil {s : List Char} (h : blankFrom .code s = []) : s = [] := by
  cases s with
  | nil => rfl
  | cons c s =>
    rw [blankFrom] at h
    · split at h
      · cases h
      · split at h <;> cases h
    · simp

theorem blankFrom_plain_inv {cs : List Char} (hcs : ∀ c ∈ cs, c ≠ '"' ∧ c ≠ ' ')
    {s out : List Char} (h : blankFrom .code s = cs ++ out) :
    ∃ s', s = cs ++ s' ∧ blankFrom .code s' = out := by
  induction cs generalizing s with
  | nil => exact ⟨s, rfl, h⟩
  | cons c cs ih =>
    obtain ⟨⟨hquote, hspace⟩, hcs⟩ := List.forall_mem_cons.mp hcs
    obtain ⟨rfl, -⟩ | ⟨s₁, rfl, h₁⟩ := blankFrom_code_inv h
    · exact absurd rfl hspace
    · rw [if_neg (by simpa using hquote)] at h₁
      obtain ⟨s', rfl, h'⟩ := ih hcs h₁
      exact ⟨s', rfl, h'⟩

theorem blankFrom_text_inv {t : Token} (ht : t.isExtra = false) {s out : List Char}
    (h : blankFrom .code s = t.text ++ out) :
    ∃ s', s = t.text ++ s' ∧ blankFrom .code s' = out := by
  have single {c : Char} (hc : c ≠ '"' ∧ c ≠ ' ') (h : blankFrom .code s = [c] ++ out) :
      ∃ s', s = [c] ++ s' ∧ blankFrom .code s' = out :=
    blankFrom_plain_inv (by simpa using hc) h
  cases t with
  | string body hbody =>
    obtain ⟨hspace, -⟩ | ⟨s₁, rfl, h₁⟩ := blankFrom_code_inv h
    · cases hspace
    · rw [List.append_eq, List.append_assoc] at h₁
      obtain ⟨s', rfl, h'⟩ := copiesStrings_blankFrom.body_inv hbody h₁
      exact ⟨s', by simp [Token.text], h'⟩
  | atom chars hchars =>
    refine blankFrom_plain_inv (fun c hc => ?_) h
    have hatom := Json.Lexical.atom_le_plain hchars c hc
    refine ⟨(ne_of_isAtomChar hatom).1.1, ?_⟩
    rintro rfl
    cases hatom
  | extraComma => cases ht
  | opening f => cases f <;> exact single (by decide) h
  | closing f => cases f <;> exact single (by decide) h
  | _ => exact single (by decide) h

/-- What becomes strict JSON in the second pass has extra commas before some closing marks. -/
theorem exists_of_blankFrom {ls : List Lexeme} (hls : ∀ l ∈ ls, l.IsStrict) {s : List Char}
    (h : blankFrom .code s = textOf ls) :
    ∃ ms : List Lexeme, (∀ m ∈ ms, m.IsUncommented) ∧ Inserted (tokensOf ls) (tokensOf ms) ∧
      textOf ms = s := by
  induction ls generalizing s with
  | nil =>
    obtain rfl := blankFrom_eq_nil h
    exact ⟨[], List.forall_mem_nil _, .nil, rfl⟩
  | cons l ls ih =>
    obtain ⟨hl, hrest⟩ := List.forall_mem_cons.mp hls
    cases l with
    | token t =>
      obtain ⟨s', rfl, h'⟩ := blankFrom_text_inv hl h
      obtain ⟨ms, hms, hins, rfl⟩ := ih hrest h'
      exact ⟨.token t :: ms, List.forall_mem_cons.mpr ⟨trivial, hms⟩, .keep hl hins, rfl⟩
    | blank c hc =>
      obtain ⟨rfl, s', rfl, hcloses, h'⟩ | ⟨s', rfl, h'⟩ := blankFrom_code_inv h
      · -- a space of the result may be a comma of the source, if a closing mark comes next there
        obtain ⟨ms, hms, hins, rfl⟩ := ih hrest h'
        rw [closesNext_textOf hms] at hcloses
        exact ⟨.token .extraComma :: ms, List.forall_mem_cons.mpr ⟨trivial, hms⟩,
          hins.extraComma hcloses, rfl⟩
      · rw [if_neg (by simpa using (ne_of_isBlank hc).1.1)] at h'
        obtain ⟨ms, hms, hins, rfl⟩ := ih hrest h'
        exact ⟨.blank c hc :: ms, List.forall_mem_cons.mpr ⟨trivial, hms⟩, hins, rfl⟩
    | _ => cases hl

/-! ## comments taken back -/

theorem exists_first_closing {cs : List Char} (h : ['*', '/'] <:+: cs) :
    ∃ body rest, ¬ ['*', '/'] <:+: body ∧ cs = body ++ '*' :: '/' :: rest := by
  induction cs with
  | nil => cases List.infix_nil.mp h
  | cons c cs ih =>
    by_cases hprefix : ['*', '/'] <+: c :: cs
    · obtain ⟨rest, heq⟩ := hprefix
      exact ⟨[], rest, by simp, heq.symm⟩
    · obtain hin | hin := List.infix_cons_iff.mp h
      · exact absurd hin hprefix
      obtain ⟨body, rest, hbody, rfl⟩ := ih hin
      refine ⟨c :: body, rest, fun hin => ?_, rfl⟩
      obtain hin | hin := List.infix_cons_iff.mp hin
      · exact hprefix (hin.trans ⟨'*' :: '/' :: rest, rfl⟩)
      · exact hbody hin

/-- A text is an end of a text, or begins with a comment, or with a character that stays. -/
theorem exists_front (s : List Char) :
    (∃ t : Tail, s = t.text) ∨
    (∃ l rest, ¬ Lexeme.IsUncommented l ∧ s = l.text ++ rest) ∨
    ∃ c rest, s = c :: rest ∧
      stripFrom .code s = c :: stripFrom (if c == '"' then .string false else .code) rest := by
  by_cases hline : ∃ cs, s = '/' :: '/' :: cs
  · obtain ⟨cs, rfl⟩ := hline
    by_cases hend : '\n' ∈ cs
    · obtain ⟨body, rest, rfl, hbody⟩ := List.eq_append_cons_of_mem hend
      exact .inr (.inl ⟨.lineComment body hbody, rest, id, by simp [Lexeme.text]⟩)
    · exact .inl ⟨.lineComment cs hend, rfl⟩
  by_cases hblock : ∃ cs, s = '/' :: '*' :: cs
  · obtain ⟨cs, rfl⟩ := hblock
    by_cases hend : ['*', '/'] <:+: cs
    · obtain ⟨body, rest, hbody, rfl⟩ := exists_first_closing hend
      exact .inr (.inl ⟨.blockComment body hbody, rest, id, by simp [Lexeme.text]⟩)
    · exact .inl ⟨.openComment cs hend, rfl⟩
  cases s with
  | nil => exact .inl ⟨.nothing, rfl⟩
  | cons c rest =>
    refine .inr (.inr ⟨c, rest, rfl, ?_⟩)
    rw [stripFrom]
    · rintro cs rfl rfl
      exact hline ⟨cs, rfl⟩
    · rintro cs rfl rfl
      exact hblock ⟨cs, rfl⟩

theorem exists_textOf_plain (t : Tail) : ∃ n, textOf t.plain = List.replicate n '\n' := by
  cases t with
  | openComment body => exact ⟨_, Json.textOf_newlinesOf body⟩
  | _ => exact ⟨0, rfl⟩

theorem exists_textOf_stripped {l : Lexeme} (hl : ¬ l.IsUncommented) :
    ∃ n, textOf l.stripped = List.replicate n '\n' := by
  cases l with
  | lineComment body => exact ⟨1, rfl⟩
  | blockComment body => exact ⟨_, Json.textOf_newlinesOf body⟩
  | _ => exact absurd trivial hl

/-- Before a character that is no newline only comments on one line were taken out. -/
theorem exists_gap {c : Char} (hc : c ≠ '\n') {s out : List Char}
    (h : stripFrom .code s = c :: out) :
    ∃ g ∈ Json.inlineComment∗, ∃ s', s = g ++ c :: s' ∧ stripFrom .code (c :: s') = c :: out := by
  induction hlen : s.length using Nat.strong_induction_on generalizing s with
  | _ _ ih =>
  subst hlen
  obtain ⟨t, rfl⟩ | ⟨l, rest, hl, rfl⟩ | ⟨d, rest, rfl, hstep⟩ := exists_front s
  · obtain ⟨n, hn⟩ := exists_textOf_plain t
    rw [stripFrom_tail, hn] at h
    cases n with
    | zero => cases h
    | succ n => exact absurd (List.cons.inj h).1.symm hc
  · rw [stripFrom_text] at h
    cases l with
    | lineComment body => exact absurd (List.cons.inj h).1.symm hc
    | blockComment body hbody =>
      rw [Lexeme.stripped, Json.textOf_newlinesOf] at h
      cases hn : body.count '\n' with
      | zero =>
        rw [hn] at h
        obtain ⟨g, ⟨comments, rfl, hcomments⟩, s', rfl, h'⟩ :=
          ih rest.length (by simp [Lexeme.text]; omega) h rfl
        have hline : '\n' ∉ body := List.count_eq_zero.mp hn
        exact ⟨_, ⟨(Lexeme.blockComment body hbody).text :: comments, rfl,
          List.forall_mem_cons.mpr ⟨⟨body, hbody, hline, rfl⟩, hcomments⟩⟩, s', by simp, h'⟩
      | succ n =>
        rw [hn] at h
        exact absurd (List.cons.inj h).1.symm hc
    | _ => exact absurd trivial hl
  · obtain rfl : d = c := (List.cons.inj (hstep.symm.trans h)).1
    exact ⟨[], Language.nil_mem_kstar _, rest, rfl, h⟩

/-- The characters of an atom are found again in the source, perhaps with comments between them. -/
theorem stripFrom_atom_inv {c : Char} {cs s out : List Char}
    (hcs : ∀ d ∈ cs, Json.Lexical.isAtomChar d = true) (h : stripFrom .code s = cs ++ out) :
    ∃ w s', s = w ++ s' ∧ c :: w ∈ Json.interrupted (c :: cs) ∧ stripFrom .code s' = out := by
  induction cs generalizing c s with
  | nil => exact ⟨[], s, rfl, rfl, h⟩
  | cons a cs ih =>
    obtain ⟨ha, hcs⟩ := List.forall_mem_cons.mp hcs
    have hline : a ≠ '\n' := by rintro rfl; cases ha
    obtain ⟨g, hg, s₁, rfl, h₁⟩ := exists_gap hline h
    have hstep : stripFrom .code ([a] ++ s₁) = [a] ++ stripFrom .code s₁ :=
      stripFrom_plain (by simpa using (ne_of_isAtomChar ha).1) s₁
    obtain ⟨w, s', rfl, hw, h'⟩ := ih (c := a) hcs (List.cons.inj (hstep.symm.trans h₁)).2
    exact ⟨g ++ a :: w, s', by simp, ⟨[c], rfl, _, ⟨g, hg, a :: w, hw, rfl⟩, rfl⟩, h'⟩

/-- A token is found again in the source where a character stays. -/
theorem stripFrom_text_inv {t : Token} {c : Char} {s out : List Char}
    (hstep : stripFrom .code (c :: s) =
      c :: stripFrom (if c == '"' then .string false else .code) s)
    (h : stripFrom .code (c :: s) = t.text ++ out) :
    ∃ w ∈ (Lexeme.token t).spellings, ∃ s', c :: s = w ++ s' ∧ stripFrom .code s' = out ∧
      s'.length < (c :: s).length := by
  rw [hstep] at h
  have single {d : Char} (hd : d ≠ '"')
      (h : c :: stripFrom (if c == '"' then .string false else .code) s = d :: out) :
      ∃ w ∈ ({[d]} : Language Char), ∃ s', c :: s = w ++ s' ∧ stripFrom .code s' = out ∧
        s'.length < (c :: s).length := by
    obtain ⟨rfl, hout⟩ := List.cons.inj h
    rw [if_neg (by simpa using hd)] at hout
    exact ⟨[c], rfl, s, rfl, hout, Nat.lt_succ_self _⟩
  cases t with
  | string body hbody =>
    obtain ⟨rfl, hout⟩ := List.cons.inj h
    rw [List.append_eq, List.append_assoc] at hout
    obtain ⟨s', rfl, h'⟩ := copiesStrings_stripFrom.body_inv hbody hout
    exact ⟨_, rfl, s', by simp [Lexeme.text, Token.text], h', by simp only [List.length_cons, List.length_append]; omega⟩
  | atom chars hchars =>
    obtain ⟨d, cs, rfl, hd, hcs⟩ := Json.Lexical.exists_cons_of_atom hchars
    obtain ⟨rfl, hout⟩ := List.cons.inj h
    rw [if_neg (by simpa using (ne_of_isAtomChar hd).1.1)] at hout
    obtain ⟨w, s', rfl, hw, h'⟩ := stripFrom_atom_inv (c := c) hcs hout
    exact ⟨c :: w, hw, s', rfl, h', by simp only [List.length_cons, List.length_append]; omega⟩
  | opening f => cases f <;> exact single (by decide) h
  | closing f => cases f <;> exact single (by decide) h
  | _ => exact single (by decide) h

/-- A newline at the front of a text of pieces is a blank. -/
theorem exists_of_cons_newline {out : List Char} {ls : List Lexeme}
    (h : '\n' :: out = textOf ls) : ∃ ms, ls = .newline :: ms ∧ textOf ms = out := by
  rw [← List.append_nil (textOf ls)] at h
  obtain ⟨-, h⟩ | ⟨l, ms, rfl, hfront, htext⟩ := Json.exists_of_textOf_append h.symm
  · cases h
  · cases hfront with
    | blank => exact ⟨ms, rfl, by simpa [Lexeme.text] using htext⟩
    | mark hc => exact absurd hc (by decide)
    | atom hc => cases hc

theorem exists_of_newlines {n : Nat} {out : List Char} {ls : List Lexeme}
    (h : List.replicate n '\n' ++ out = textOf ls) :
    ∃ ms, ms <:+ ls ∧ tokensOf ms = tokensOf ls ∧ textOf ms = out := by
  induction n generalizing ls with
  | zero => exact ⟨ls, List.suffix_rfl, rfl, h.symm⟩
  | succ n ih =>
    obtain ⟨ms, rfl, hms⟩ := exists_of_cons_newline h
    obtain ⟨ms', hsuffix, htokens, htext⟩ := ih hms.symm
    exact ⟨ms', hsuffix.trans (List.suffix_cons _ _), htokens, htext⟩

/-- What becomes a text of tokens and blanks in the first pass is a text with comments. -/
theorem exists_of_stripFrom {s : List Char} {ls : List Lexeme} (hls : ∀ l ∈ ls, l.IsUncommented)
    (h : stripFrom .code s = textOf ls) :
    ∃ d : Script, s ∈ d.spellings ∧ d.tokens = tokensOf ls := by
  -- on the source and not on the pieces: a comment is a step of the source that may leave no piece
  induction hlen : s.length using Nat.strong_induction_on generalizing s ls with
  | _ _ ih =>
  subst hlen
  obtain ⟨t, rfl⟩ | ⟨l, rest, hl, rfl⟩ | ⟨c, rest, rfl, hstep⟩ := exists_front s
  · obtain ⟨n, hn⟩ := exists_textOf_plain t
    rw [stripFrom_tail, hn, ← List.append_nil (List.replicate _ _)] at h
    obtain ⟨ms, -, htokens, hms⟩ := exists_of_newlines h
    obtain rfl := Json.eq_nil_of_textOf_eq_nil hms
    exact ⟨⟨[], t⟩, ⟨[], rfl, t.text, rfl, rfl⟩, htokens⟩
  · obtain ⟨n, hn⟩ := exists_textOf_stripped hl
    rw [stripFrom_text, hn] at h
    obtain ⟨ms, hsuffix, htokens, hms⟩ := exists_of_newlines h
    have hlt : rest.length < (l.text ++ rest).length := by
      simpa using List.length_pos_of_ne_nil l.text_ne_nil
    obtain ⟨d, hd, hd'⟩ := ih _ hlt (fun m hm => hls m (hsuffix.mem hm)) hms.symm rfl
    have hspelling : l.text ∈ l.spellings := by
      cases l with
      | token | blank => exact absurd trivial hl
      | _ => rfl
    refine ⟨_, Script.cons_mem_spellings hspelling hd, ?_⟩
    rw [← htokens, ← hd']
    cases l with
    | token | blank => exact absurd trivial hl
    | _ => rfl
  · cases ls with
    | nil => rw [hstep] at h; cases h
    | cons l ls =>
      obtain ⟨hl, hrest⟩ := List.forall_mem_cons.mp hls
      cases l with
      | token t =>
        obtain ⟨w, hw, s', heq, h', hlt⟩ := stripFrom_text_inv hstep h
        obtain ⟨d, hd, hd'⟩ := ih _ hlt hrest h' rfl
        rw [heq]
        exact ⟨_, Script.cons_mem_spellings hw hd, congrArg (t :: ·) hd'⟩
      | blank b hb =>
        rw [hstep] at h
        obtain ⟨rfl, hout⟩ := List.cons.inj h
        rw [if_neg (by simpa using (ne_of_isBlank hb).1.1)] at hout
        obtain ⟨d, hd, hd'⟩ := ih _ (Nat.lt_succ_self _) hrest hout rfl
        exact ⟨_, Script.cons_mem_spellings (l := .blank c hb) rfl hd, hd'⟩
      | _ => cases hl

/-! ## what is accepted -/

/-- **Whatever is accepted as a configuration is JSON with comments**, written loosely: a comment on
one line may also stand inside a number or a word, a block comment may also be left open at the end
of the text, and an extra comma may also be all that a list or an object holds. -/
theorem exists_script_of_parse {source : String} {c : Config} (h : parse source = .ok c) :
    ∃ d : Script, source.toList ∈ d.spellings ∧ Grammar true .value d.tokens := by
  obtain ⟨ls, hls, hvalue, htext⟩ := isStrictJson_of_parseJson h
  obtain ⟨ms, hms, hins, htext⟩ := exists_of_blankFrom hls htext.symm
  obtain ⟨d, hd, htokens⟩ := exists_of_stripFrom hms htext.symm
  refine ⟨d, hd, ?_⟩
  rw [htokens]
  exact hvalue.insert hins

/-- A word with a comment inside, a list with nothing but a comma, and a comment that is left open,
in one text. -/
theorem exists_script_of_parse_loose :
    parse "[n/**/ull,null,[,]]/*" = .ok { included := some [] } ∧
      ∃ d : Script, "[n/**/ull,null,[,]]/*".toList ∈ d.spellings ∧ Grammar true .value d.tokens :=
  have h : parse "[n/**/ull,null,[,]]/*" = .ok { included := some [] } := by decide +kernel
  ⟨h, exists_script_of_parse h⟩

/-! ## accepted texts that are not JSON with comments -/

theorem not_begins_of_text {t : Token} (h : t.text = [',']) : t.begins = false := by
  cases t with
  | opening f => cases f <;> cases h
  | string body hbody => cases (List.cons.inj h).1
  | atom chars hchars =>
    obtain rfl : chars = [','] := h
    cases Json.Lexical.atom_le_plain hchars ',' List.mem_cons_self
  | _ => rfl

theorem not_mem_atom : ['n'] ∉ Json.Lexical.atom := by
  rintro (h | ⟨sign, hsign, ds, ⟨whole, ⟨⟨hne, hdigits⟩, -⟩, rest, -, rfl⟩, h⟩)
  · rcases h with h | h | h <;> cases h
  · obtain ⟨w, ws, rfl⟩ := List.exists_cons_of_ne_nil hne
    rcases hsign with rfl | rfl
    · obtain ⟨rfl, -⟩ := List.cons.inj h
      cases hdigits 'n' List.mem_cons_self
    · cases (List.cons.inj h).1

theorem eq_slash_of_tail_text {t : Tail} {c : Char} {cs : List Char} (h : t.text = c :: cs) :
    c = '/' := by
  cases t with
  | nothing => cases h
  | _ => exact (List.cons.inj h).1.symm

/-- A mark at the front of a text is a token. -/
theorem exists_of_cons_mark {c : Char} (hc : c ∈ Json.marks) {d : Script} {cs : List Char}
    (h : d.text = c :: cs) :
    ∃ t ls, d.lexemes = .token t :: ls ∧ t.text = [c] ∧ Script.text ⟨ls, d.tail⟩ = cs := by
  have hmarks : (Json.marks.all fun c => c != '/' && !Json.Lexical.isAtomChar c &&
      !Json.Reader.isBlank c) = true := rfl
  obtain ⟨⟨hslash, hatom⟩, hblank⟩ : (c ≠ '/' ∧ Json.Lexical.isAtomChar c = false) ∧
      Json.Reader.isBlank c = false := by
    simpa using List.all_eq_true.mp hmarks c hc
  obtain ⟨-, htail⟩ | ⟨l, ls, hls, hfront, htext⟩ := Json.exists_of_textOf_append h
  · exact absurd (eq_slash_of_tail_text htail) hslash
  · cases hfront with
    | @mark _ t _ ht =>
      rw [Lexeme.text, ht] at htext
      exact ⟨t, ls, hls, ht, (List.cons.inj htext).2⟩
    | atom h => rw [h] at hatom; cases hatom
    | @blank _ h => rw [h] at hblank; cases hblank
    | string => exact absurd hc (by decide)
    | comment => exact absurd rfl hslash

/-- A list with nothing but a comma. -/
theorem not_isJsonc_of_loneComma {d : Script} (h : d.text = ['[', ',', ']']) : ¬ d.IsJsonc := by
  rintro ⟨hvalue, -⟩
  obtain ⟨t₁, ls₁, hls₁, ht₁, h₁⟩ := exists_of_cons_mark (c := '[') (by decide) h
  obtain ⟨t₂, ls₂, rfl, ht₂, h₂⟩ := exists_of_cons_mark (c := ',') (by decide) h₁
  obtain ⟨t₃, ls₃, rfl, -, h₃⟩ := exists_of_cons_mark (c := ']') (by decide) h₂
  obtain rfl := Json.eq_nil_of_textOf_eq_nil (List.append_eq_nil_iff.mp h₃).1
  have hvalue : Grammar false .value [t₁, t₂, t₃] := by
    rwa [Script.tokens, hls₁] at hvalue
  cases hvalue with
  | group inner =>
    cases inner with
    | spare h => cases h
    | filled hitems =>
      obtain ⟨t, us, heq, hbegins⟩ := hitems.begins (.inr ⟨_, .inr rfl⟩)
      obtain ⟨rfl, -⟩ := List.cons.inj heq
      rw [not_begins_of_text ht₂] at hbegins
      cases hbegins

/-- A list before a block comment that nothing closes. -/
theorem not_isJsonc_of_openComment {d : Script} (h : d.text = ['[', ']', '/', '*']) :
    ¬ d.IsJsonc := by
  rintro ⟨-, hclosed⟩
  obtain ⟨t₁, ls₁, hls₁, -, h₁⟩ := exists_of_cons_mark (c := '[') (by decide) h
  obtain ⟨t₂, ls₂, rfl, -, h₂⟩ := exists_of_cons_mark (c := ']') (by decide) h₁
  obtain ⟨-, htail⟩ | ⟨l, ls, -, hfront, htext⟩ := Json.exists_of_textOf_append h₂
  · change d.tail.text = ['/', '*'] at htail
    cases hend : d.tail with
    | openComment body => rw [hend] at hclosed; exact hclosed
    | _ => rw [hend] at htail; cases htail
  · cases hfront with
    | comment hl =>
      have hlength := congrArg List.length htext
      cases l with
      | token | blank => exact hl trivial
      | _ => simp [Lexeme.text] at hlength
    | mark hc => exact absurd hc (by decide)
    | atom hc => cases hc
    | @blank _ hc => cases hc

/-- A list with a word that has a comment inside. -/
theorem not_isJsonc_of_interrupted {d : Script}
    (h : d.text = ['[', 'n', '/', '*', '*', '/', 'u', 'l', 'l', ']']) : ¬ d.IsJsonc := by
  rintro -
  obtain ⟨t₁, ls₁, -, -, h₁⟩ := exists_of_cons_mark (c := '[') (by decide) h
  obtain ⟨-, htail⟩ | ⟨l, ls, -, hfront, htext⟩ := Json.exists_of_textOf_append h₁
  · exact absurd (eq_slash_of_tail_text htail) (by decide)
  · cases hfront with
    | @atom _ cs hchars hn =>
      cases cs with
      | nil => exact not_mem_atom hchars
      | cons b bs =>
        obtain ⟨rfl, -⟩ := List.cons.inj (List.cons.inj htext).2
        cases Json.Lexical.atom_le_plain hchars '/' (by simp)
    | mark hc => exact absurd hc (by decide)
    | @blank _ hn => cases hn

/-- **Not everything that is accepted is JSON with comments.**  The empty configuration is read from
a list with nothing but a comma, from a list before an open comment, and from a list with a comment
inside a word. -/
theorem accepted_not_isJsonc :
    (parse "[,]" = .ok {} ∧ ¬ ∃ d : Script, d.IsJsonc ∧ d.text = "[,]".toList) ∧
    (parse "[]/*" = .ok {} ∧ ¬ ∃ d : Script, d.IsJsonc ∧ d.text = "[]/*".toList) ∧
    (parse "[n/**/ull]" = .ok {} ∧ ¬ ∃ d : Script, d.IsJsonc ∧ d.text = "[n/**/ull]".toList) :=
  ⟨⟨by decide +kernel, fun ⟨_, hd, h⟩ => not_isJsonc_of_loneComma (h.trans (by decide)) hd⟩,
    ⟨by decide +kernel, fun ⟨_, hd, h⟩ => not_isJsonc_of_openComment (h.trans (by decide)) hd⟩,
    ⟨by decide +kernel, fun ⟨_, hd, h⟩ => not_isJsonc_of_interrupted (h.trans (by decide)) hd⟩⟩

end TypeQuery.Config
