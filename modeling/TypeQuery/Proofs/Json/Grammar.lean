import Mathlib.Computability.Language
import Mathlib.Order.CompletePartialOrder
import TypeQuery.Json.Reader

/-!
# TypeQuery.Proofs.Json.Grammar

JSON as a language, and JSON with comments beside it.  A text is a list of
*lexemes*: tokens, white space and comments.  The grammar speaks of the tokens
alone, so white space and comments may stand anywhere between them:

```
value  ::=  string  |  atom  |  [ body  |  { body
body   ::=  ]  |  items
items  ::=  item rest
rest   ::=  ]  |  , ]  |  , items
item   ::=  value  |  string : value
```

An *extra* comma, the one right before a closing mark, is a token of its own
kind: strict JSON is what has neither comments nor extra commas.

* `Lexical.atom`, `StringBody` — the scalars, character by character;
* `Token`, `Lexeme`, `Script` — texts in pieces;
* `Grammar` — which tokens make a value;
* `Grammar.commasFit` — what stands behind the commas;
* `Grammar.withoutExtra`, `Grammar.insert` — taking the extra commas out, and
  putting some in.
-/

namespace TypeQuery.Json

open Reader (Frame isBlank isDigit hexDigit?)

/-! ## scalars -/

namespace Lexical

/-- One digit or more. -/
def digits : Language Char :=
  {ds | ds ≠ [] ∧ ∀ d ∈ ds, isDigit d = true}

/-- The digits before the point.  A leading zero stands alone. -/
def whole : Language Char :=
  {ds | ds ∈ digits ∧ (ds.head? = some '0' → ds = ['0'])}

/-- Nothing, or a point with digits after it. -/
def fraction : Language Char :=
  1 + {['.']} * digits

/-- Nothing, or a letter, perhaps a sign, and digits. -/
def exponent : Language Char :=
  1 + {['e'], ['E']} * ({[], ['+'], ['-']} * digits)

/-- A number after its sign. -/
def unsigned : Language Char :=
  whole * (fraction * exponent)

/-- A number. -/
def number : Language Char :=
  {[], ['-']} * unsigned

/-- The words of JSON. -/
def word : Language Char :=
  {['n', 'u', 'l', 'l'], ['t', 'r', 'u', 'e'], ['f', 'a', 'l', 's', 'e']}

/-- A number or a word. -/
def atom : Language Char :=
  word + number

/-- The characters of atoms. -/
def isAtomChar (c : Char) : Bool :=
  isDigit c || ['+', '-', '.', 'e', 'E', 'n', 'u', 'l', 't', 'r', 'f', 'a', 's'].contains c

/-- The texts of such characters. -/
def plain : Language Char :=
  {cs | ∀ c ∈ cs, isAtomChar c = true}

theorem mem_plain {cs : List Char} : cs ∈ plain ↔ ∀ c ∈ cs, isAtomChar c = true :=
  Iff.rfl

theorem mem_plain_of_all {cs : List Char} (h : cs.all isAtomChar = true) : cs ∈ plain :=
  mem_plain.mpr (List.all_eq_true.mp h)

theorem mul_le_plain {l m : Language Char} (hl : l ≤ plain) (hm : m ≤ plain) :
    l * m ≤ plain := by
  rintro _ ⟨a, ha, b, hb, rfl⟩ c hc
  exact (List.mem_append.mp hc).elim (hl ha c) (hm hb c)

theorem add_le_plain {l m : Language Char} (hl : l ≤ plain) (hm : m ≤ plain) :
    l + m ≤ plain :=
  fun _ hx => hx.elim (@hl _) (@hm _)

theorem one_le_plain : (1 : Language Char) ≤ plain := by
  rintro _ rfl c hc
  cases hc

theorem digits_le_plain : digits ≤ plain :=
  fun _ hx c hc => by simp [isAtomChar, hx.2 c hc]

theorem unsigned_le_plain : unsigned ≤ plain := by
  have hwhole : whole ≤ plain := fun _ hx => digits_le_plain hx.1
  have hpoint : ({['.']} : Language Char) ≤ plain := by
    rintro _ rfl; exact mem_plain_of_all rfl
  have hletter : ({['e'], ['E']} : Language Char) ≤ plain := by
    rintro _ (rfl | rfl) <;> exact mem_plain_of_all rfl
  have hsign : ({[], ['+'], ['-']} : Language Char) ≤ plain := by
    rintro _ (rfl | rfl | rfl) <;> exact mem_plain_of_all rfl
  exact mul_le_plain hwhole (mul_le_plain
    (add_le_plain one_le_plain (mul_le_plain hpoint digits_le_plain))
    (add_le_plain one_le_plain (mul_le_plain hletter (mul_le_plain hsign digits_le_plain))))

theorem atom_le_plain : atom ≤ plain := by
  refine add_le_plain ?_ (mul_le_plain ?_ unsigned_le_plain)
  · rintro _ (rfl | rfl | rfl) <;> exact mem_plain_of_all rfl
  · rintro _ (rfl | rfl) <;> exact mem_plain_of_all rfl

theorem ne_nil_of_atom {cs : List Char} (h : cs ∈ atom) : cs ≠ [] := by
  rintro rfl
  obtain h | ⟨sign, -, ds, ⟨whole, ⟨⟨hne, -⟩, -⟩, rest, -, rfl⟩, h⟩ := h
  · rcases h with h | h | h <;> cases h
  · exact hne (List.append_eq_nil_iff.mp (List.append_eq_nil_iff.mp h).2).1

theorem exists_cons_of_atom {cs : List Char} (h : cs ∈ atom) :
    ∃ c ds, cs = c :: ds ∧ isAtomChar c = true ∧ ∀ d ∈ ds, isAtomChar d = true := by
  obtain ⟨c, ds, rfl⟩ := List.exists_cons_of_ne_nil (ne_nil_of_atom h)
  exact ⟨c, ds, rfl, List.forall_mem_cons.mp (atom_le_plain h)⟩

end Lexical

/-- What stands between the quotes of a string. -/
inductive StringBody : List Char → Prop
  | nil : StringBody []
  | char {c : Char} {cs : List Char} (hprint : 0x20 ≤ c.toNat) (hquote : c ≠ '"')
    (hslash : c ≠ '\\') (rest : StringBody cs) : StringBody (c :: cs)
  | escape {c : Char} {cs : List Char} (hc : c ∈ ['"', '\\', '/', 'b', 'f', 'n', 'r', 't'])
    (rest : StringBody cs) : StringBody ('\\' :: c :: cs)
  | codePoint {a b c d : Char} {cs : List Char}
    (hhex : ∀ e ∈ [a, b, c, d], (hexDigit? e).isSome) (rest : StringBody cs) :
    StringBody ('\\' :: 'u' :: a :: b :: c :: d :: cs)

/-! ## tokens -/

/-- The character that opens a frame. -/
def Frame.opener : Frame → Char
  | .list => '['
  | .object => '\x7b'

/-- The characters that are tokens by themselves. -/
def marks : List Char :=
  ['[', ']', '\x7b', '\x7d', ':', ',']

/-- A token of a text. -/
inductive Token where
  | opening (frame : Frame)
  | closing (frame : Frame)
  | colon
  | comma
  /-- A comma right before a closing mark. -/
  | extraComma
  | string (body : List Char) (h : StringBody body)
  | atom (chars : List Char) (h : chars ∈ Lexical.atom)

namespace Token

/-- A token as it is written. -/
def text : Token → List Char
  | opening frame => [Frame.opener frame]
  | closing frame => [frame.close]
  | colon => [':']
  | comma => [',']
  | extraComma => [',']
  | string body _ => '"' :: (body ++ ['"'])
  | atom chars _ => chars

/-- Whether a token is an extra comma. -/
def isExtra : Token → Bool
  | extraComma => true
  | _ => false

/-- Whether a token closes a list or an object. -/
def isClosing : Token → Bool
  | closing _ => true
  | _ => false

/-- Whether a token begins a value. -/
def begins : Token → Bool
  | opening _ | string _ _ | atom _ _ => true
  | _ => false

theorem isClosing_eq_false_of_begins {t : Token} (h : t.begins = true) : t.isClosing = false := by
  cases t <;> simp_all [begins, isClosing]

end Token

/-! ## texts in pieces -/

/-- A piece of a text. -/
inductive Lexeme where
  | token (token : Token)
  | blank (char : Char) (h : isBlank char = true)
  /-- A comment up to the end of its line, with the newline there. -/
  | lineComment (body : List Char) (h : '\n' ∉ body)
  /-- A comment up to the first closing mark. -/
  | blockComment (body : List Char) (h : ¬ ['*', '/'] <:+: body)

namespace Lexeme

/-- A newline. -/
def newline : Lexeme :=
  blank '\n' rfl

/-- A space. -/
def space : Lexeme :=
  blank ' ' rfl

/-- A piece as it is written. -/
def text : Lexeme → List Char
  | token t => t.text
  | blank c _ => [c]
  | lineComment body _ => '/' :: '/' :: (body ++ ['\n'])
  | blockComment body _ => '/' :: '*' :: (body ++ ['*', '/'])

theorem text_ne_nil (l : Lexeme) : l.text ≠ [] := by
  cases l with
  | token t =>
    cases t with
    | atom chars h => exact Lexical.ne_nil_of_atom h
    | _ => nofun
  | _ => nofun

/-- The token that a piece is, if it is one. -/
def token? : Lexeme → Option Token
  | token t => some t
  | _ => none

/-- Tokens and white space, no comments. -/
def IsUncommented : Lexeme → Prop
  | token _ | blank _ _ => True
  | lineComment _ _ | blockComment _ _ => False

/-- The pieces of strict JSON: tokens other than extra commas, and white space. -/
def IsStrict : Lexeme → Prop
  | token t => t.isExtra = false
  | blank _ _ => True
  | lineComment _ _ | blockComment _ _ => False

/-- The newlines that a text covers. -/
def newlinesOf (cs : List Char) : List Lexeme :=
  List.replicate (cs.count '\n') newline

/-- What strict JSON has in the place of a piece: the newlines that a comment covers, a space for an
extra comma. -/
def plain : Lexeme → List Lexeme
  | lineComment _ _ => [newline]
  | blockComment body _ => newlinesOf body
  | token .extraComma => [space]
  | l => [l]

/-- What a piece is, by the character that it begins with. -/
inductive Front : Char → Lexeme → Prop
  | mark {c : Char} {t : Token} (hc : c ∈ marks) (h : t.text = [c]) : Front c (token t)
  | string {body : List Char} {h : StringBody body} : Front '"' (token (.string body h))
  | atom {c : Char} {cs : List Char} {h : c :: cs ∈ Lexical.atom}
    (hc : Lexical.isAtomChar c = true) : Front c (token (.atom (c :: cs) h))
  | blank {c : Char} {h : isBlank c = true} : Front c (blank c h)
  | comment {l : Lexeme} (h : ¬ l.IsUncommented) : Front '/' l

theorem front {l : Lexeme} {c : Char} {cs : List Char} (h : l.text = c :: cs) : Front c l := by
  have mark {t : Token} {d : Char} (hd : d ∈ marks) (ht : t.text = [d])
      (h : t.text = c :: cs) : Front c (token t) := by
    obtain ⟨rfl, -⟩ := List.cons.inj (ht.symm.trans h)
    exact .mark hd ht
  cases l with
  | token t =>
    cases t with
    | opening f => cases f <;> exact mark (by decide) rfl h
    | closing f => cases f <;> exact mark (by decide) rfl h
    | string body hbody =>
      obtain ⟨rfl, -⟩ := List.cons.inj h
      exact .string
    | atom chars hchars =>
      obtain ⟨a, as, rfl, ha, -⟩ := Lexical.exists_cons_of_atom hchars
      obtain ⟨rfl, -⟩ := List.cons.inj h
      exact .atom ha
    | _ => exact mark (by decide) rfl h
  | blank b hb =>
    obtain ⟨rfl, -⟩ := List.cons.inj h
    exact .blank
  | _ =>
    obtain ⟨rfl, -⟩ := List.cons.inj h
    exact .comment id

end Lexeme

/-- Pieces as they are written one after the other. -/
def textOf (ls : List Lexeme) : List Char :=
  ls.flatMap Lexeme.text

/-- The tokens among pieces. -/
def tokensOf (ls : List Lexeme) : List Token :=
  ls.filterMap Lexeme.token?

@[simp] theorem textOf_nil : textOf [] = [] :=
  rfl

@[simp] theorem textOf_cons (l : Lexeme) (ls : List Lexeme) :
    textOf (l :: ls) = l.text ++ textOf ls :=
  rfl

@[simp] theorem textOf_append (ls ms : List Lexeme) : textOf (ls ++ ms) = textOf ls ++ textOf ms :=
  List.flatMap_append

theorem eq_nil_of_textOf_eq_nil {ls : List Lexeme} (h : textOf ls = []) : ls = [] := by
  cases ls with
  | nil => rfl
  | cons l ls => exact absurd (List.append_eq_nil_iff.mp h).1 l.text_ne_nil

/-- The first piece of a text, by the first character of the text. -/
theorem exists_of_textOf_append {ls : List Lexeme} {rest : List Char} {c : Char} {cs : List Char}
    (h : textOf ls ++ rest = c :: cs) :
    ls = [] ∧ rest = c :: cs ∨
    ∃ l ms, ls = l :: ms ∧ l.Front c ∧ l.text ++ (textOf ms ++ rest) = c :: cs := by
  cases ls with
  | nil => exact .inl ⟨rfl, h⟩
  | cons l ms =>
    rw [textOf_cons, List.append_assoc] at h
    obtain ⟨d, ds, hl⟩ := List.exists_cons_of_ne_nil l.text_ne_nil
    have hd : d = c := by
      rw [hl] at h
      exact (List.cons.inj h).1
    exact .inr ⟨l, ms, rfl, Lexeme.front (hd ▸ hl), h⟩

@[simp] theorem tokensOf_nil : tokensOf [] = [] :=
  rfl

@[simp] theorem tokensOf_token (t : Token) (ls : List Lexeme) :
    tokensOf (.token t :: ls) = t :: tokensOf ls :=
  rfl

@[simp] theorem tokensOf_blank (c : Char) (h : isBlank c = true) (ls : List Lexeme) :
    tokensOf (.blank c h :: ls) = tokensOf ls :=
  rfl

@[simp] theorem tokensOf_append (ls ms : List Lexeme) :
    tokensOf (ls ++ ms) = tokensOf ls ++ tokensOf ms :=
  List.filterMap_append

@[simp] theorem tokensOf_newlinesOf (cs : List Char) : tokensOf (Lexeme.newlinesOf cs) = [] := by
  unfold Lexeme.newlinesOf
  induction cs.count '\n' with
  | zero => rfl
  | succ n ih => exact ih

@[simp] theorem textOf_newlinesOf (cs : List Char) :
    textOf (Lexeme.newlinesOf cs) = List.replicate (cs.count '\n') '\n' := by
  unfold Lexeme.newlinesOf
  induction cs.count '\n' with
  | zero => rfl
  | succ n ih => rw [List.replicate_succ, textOf_cons, ih]; rfl

/-- What may stand at the very end of a text: a comment that nothing ends. -/
inductive Tail where
  | nothing
  | lineComment (body : List Char) (h : '\n' ∉ body)
  /-- A block comment without a closing mark. -/
  | openComment (body : List Char) (h : ¬ ['*', '/'] <:+: body)

namespace Tail

/-- The end of a text as it is written. -/
def text : Tail → List Char
  | nothing => []
  | lineComment body _ => '/' :: '/' :: body
  | openComment body _ => '/' :: '*' :: body

/-- No block comment is open. -/
def IsClosed : Tail → Prop
  | nothing | lineComment _ _ => True
  | openComment _ _ => False

/-- The newlines that the end of a text covers. -/
def plain : Tail → List Lexeme
  | nothing | lineComment _ _ => []
  | openComment body _ => Lexeme.newlinesOf body

end Tail

/-- A text in pieces. -/
structure Script where
  lexemes : List Lexeme
  tail : Tail

namespace Script

/-- A text as it is written. -/
def text (d : Script) : List Char :=
  textOf d.lexemes ++ d.tail.text

/-- The tokens of a text. -/
def tokens (d : Script) : List Token :=
  tokensOf d.lexemes

/-- The pieces of strict JSON that take the place of a text. -/
def plain (d : Script) : List Lexeme :=
  d.lexemes.flatMap Lexeme.plain ++ d.tail.plain

end Script

/-! ## the grammar -/

/-- The kinds of phrases. -/
inductive Phrase where
  | value
  /-- What follows an opening mark. -/
  | body (frame : Frame)
  /-- One or more items and the closing mark. -/
  | items (frame : Frame)
  /-- What follows an item. -/
  | rest (frame : Frame)
  /-- An element of a list, or a key of an object with its value. -/
  | item (frame : Frame)
  deriving DecidableEq

/-- The tokens that make a phrase.  With `spare` an extra comma may also be all that a list or an
object holds. -/
inductive Grammar (spare : Bool) : Phrase → List Token → Prop
  | string {body : List Char} {h : StringBody body} : Grammar spare .value [.string body h]
  | atom {chars : List Char} {h : chars ∈ Lexical.atom} : Grammar spare .value [.atom chars h]
  | group {f : Frame} {ts : List Token} (inner : Grammar spare (.body f) ts) :
    Grammar spare .value (.opening f :: ts)
  | empty {f : Frame} : Grammar spare (.body f) [.closing f]
  | spare {f : Frame} (h : spare = true) : Grammar spare (.body f) [.extraComma, .closing f]
  | filled {f : Frame} {ts : List Token} (h : Grammar spare (.items f) ts) :
    Grammar spare (.body f) ts
  | items {f : Frame} {ts us : List Token} (first : Grammar spare (.item f) ts)
    (others : Grammar spare (.rest f) us) : Grammar spare (.items f) (ts ++ us)
  | last {f : Frame} : Grammar spare (.rest f) [.closing f]
  | extra {f : Frame} : Grammar spare (.rest f) [.extraComma, .closing f]
  | more {f : Frame} {ts : List Token} (h : Grammar spare (.items f) ts) :
    Grammar spare (.rest f) (.comma :: ts)
  | element {ts : List Token} (h : Grammar spare .value ts) : Grammar spare (.item .list) ts
  | member {key : List Char} {hkey : StringBody key} {ts : List Token}
    (h : Grammar spare .value ts) :
    Grammar spare (.item .object) (.string key hkey :: .colon :: ts)

/-- Every comma stands before something that begins a value, every extra comma before a closing
mark. -/
def CommasFit : List Token → Prop
  | [] => True
  | .comma :: ts => ts.head?.any Token.begins = true ∧ CommasFit ts
  | .extraComma :: ts => ts.head?.any Token.isClosing = true ∧ CommasFit ts
  | _ :: ts => CommasFit ts

/-- A strict JSON text: a value, with white space around its tokens. -/
def IsStrictJson (cs : List Char) : Prop :=
  ∃ ls : List Lexeme, (∀ l ∈ ls, l.IsStrict) ∧ Grammar false .value (tokensOf ls) ∧ textOf ls = cs

/-- A text in pieces is JSON with comments: a value, perhaps with extra commas, with white space and
closed comments around its tokens. -/
def Script.IsJsonc (d : Script) : Prop :=
  Grammar false .value d.tokens ∧ d.tail.IsClosed

namespace Grammar

variable {spare : Bool} {ph : Phrase} {ts us : List Token}

/-- A value, an item and a list of items begin as values do. -/
theorem begins (h : Grammar spare ph ts)
    (hph : ph = .value ∨ ∃ f, ph = .item f ∨ ph = .items f) :
    ∃ t us, ts = t :: us ∧ t.begins = true := by
  induction h with
  | string => exact ⟨_, _, rfl, rfl⟩
  | atom => exact ⟨_, _, rfl, rfl⟩
  | group inner _ => exact ⟨_, _, rfl, rfl⟩
  | items _ _ ih _ =>
    obtain ⟨t, us, rfl, ht⟩ := ih (.inr ⟨_, .inl rfl⟩)
    exact ⟨t, _, rfl, ht⟩
  | element _ ih => exact ih (.inl rfl)
  | member _ _ => exact ⟨_, _, rfl, rfl⟩
  | _ => simp at hph

theorem commasFit_append (h : Grammar spare ph ts) (hus : CommasFit us) : CommasFit (ts ++ us) := by
  induction h generalizing us with
  | string | atom | empty | last => exact hus
  | spare _ | extra => exact ⟨rfl, hus⟩
  | group _ ih | filled _ ih | element _ ih | member _ ih => exact ih hus
  | items _ _ ihfirst ihothers =>
    rw [List.append_assoc]
    exact ihfirst (ihothers hus)
  | more h ih =>
    obtain ⟨t, _, rfl, ht⟩ := h.begins (.inr ⟨_, .inr rfl⟩)
    exact ⟨ht, ih hus⟩

/-- The commas of a phrase stand where commas fit. -/
theorem commasFit (h : Grammar spare ph ts) : CommasFit ts := by
  rw [← List.append_nil ts]
  exact h.commasFit_append trivial

/-- Without its extra commas a phrase stays one. -/
theorem withoutExtra (h : Grammar spare ph ts) : Grammar false ph (ts.filter (!·.isExtra)) := by
  induction h with
  | string => exact .string
  | atom => exact .atom
  | group _ ih => exact .group ih
  | empty | spare _ => exact .empty
  | filled _ ih => exact .filled ih
  | items _ _ ihfirst ihothers =>
    rw [List.filter_append]
    exact .items ihfirst ihothers
  | last | extra => exact .last
  | more _ ih => exact .more ih
  | element _ ih => exact .element ih
  | member _ ih => exact .member ih

end Grammar

/-! ## putting extra commas in -/

/-- The second list is the first one with extra commas before some of the closing marks. -/
inductive Inserted : List Token → List Token → Prop
  | nil : Inserted [] []
  | keep {t : Token} {ts us : List Token} (ht : t.isExtra = false) (h : Inserted ts us) :
    Inserted (t :: ts) (t :: us)
  | extra {f : Frame} {ts us : List Token} (h : Inserted ts us) :
    Inserted (.closing f :: ts) (.extraComma :: .closing f :: us)

namespace Inserted

theorem nil_inv {us : List Token} (h : Inserted [] us) : us = [] := by
  cases h; rfl

theorem cons_inv {t : Token} {ts us : List Token} (h : Inserted (t :: ts) us) :
    t.isExtra = false ∧ ∃ us', Inserted ts us' ∧
      (us = t :: us' ∨ t.isClosing = true ∧ us = .extraComma :: t :: us') := by
  cases h with
  | keep ht h => exact ⟨ht, _, h, .inl rfl⟩
  | extra h => exact ⟨rfl, _, h, .inr ⟨rfl, rfl⟩⟩

/-- Where a closing mark comes next, an extra comma can be put in front of it. -/
theorem extraComma {ts us : List Token} (h : Inserted ts us)
    (hclosing : us.head?.any Token.isClosing = true) : Inserted ts (.extraComma :: us) := by
  cases h with
  | nil => cases hclosing
  | @keep t _ _ _ h =>
    cases t with
    | closing f => exact .extra h
    | _ => cases hclosing
  | extra h => cases hclosing

theorem append_inv {ts₁ ts₂ us : List Token} (h : Inserted (ts₁ ++ ts₂) us) :
    ∃ us₁ us₂, us = us₁ ++ us₂ ∧ Inserted ts₁ us₁ ∧ Inserted ts₂ us₂ := by
  induction ts₁ generalizing us with
  | nil => exact ⟨[], us, rfl, .nil, h⟩
  | cons t ts₁ ih =>
    cases h with
    | keep ht h =>
      obtain ⟨us₁, us₂, rfl, h₁, h₂⟩ := ih h
      exact ⟨_, us₂, rfl, .keep ht h₁, h₂⟩
    | extra h =>
      obtain ⟨us₁, us₂, rfl, h₁, h₂⟩ := ih h
      exact ⟨_, us₂, rfl, .extra h₁, h₂⟩

end Inserted

/-- A phrase without extra commas, with some put in before its closing marks, is one of the grammar
that allows them to stand alone. -/
theorem Grammar.insert {ph : Phrase} {ts us : List Token} (h : Grammar false ph ts)
    (hins : Inserted ts us) : Grammar true ph us := by
  induction h generalizing us with
  | string | atom =>
    obtain ⟨-, us', h, rfl | ⟨h', -⟩⟩ := hins.cons_inv
    · obtain rfl := h.nil_inv
      constructor
    · cases h'
  | group _ ih =>
    obtain ⟨-, us', h, rfl | ⟨h', -⟩⟩ := hins.cons_inv
    · exact .group (ih h)
    · cases h'
  | empty =>
    obtain ⟨-, us', h, rfl | ⟨-, rfl⟩⟩ := hins.cons_inv <;> obtain rfl := h.nil_inv
    · exact .empty
    · exact .spare rfl
  | spare h => cases h
  | filled _ ih => exact .filled (ih hins)
  | items _ _ ihfirst ihothers =>
    obtain ⟨us₁, us₂, rfl, h₁, h₂⟩ := hins.append_inv
    exact .items (ihfirst h₁) (ihothers h₂)
  | last =>
    obtain ⟨-, us', h, rfl | ⟨-, rfl⟩⟩ := hins.cons_inv <;> obtain rfl := h.nil_inv
    · exact .last
    · exact .extra
  | extra => cases hins.cons_inv.1
  | more _ ih =>
    obtain ⟨-, us', h, rfl | ⟨h', -⟩⟩ := hins.cons_inv
    · exact .more (ih h)
    · cases h'
  | element _ ih => exact .element (ih hins)
  | member _ ih =>
    obtain ⟨-, us', h, rfl | ⟨h', -⟩⟩ := hins.cons_inv
    · obtain ⟨-, us'', hvalue, rfl | ⟨h', -⟩⟩ := h.cons_inv
      · exact .member (ih hvalue)
      · cases h'
    · cases h'

end TypeQuery.Json
