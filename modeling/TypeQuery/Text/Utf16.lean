/-!
# TypeQuery.Text.Utf16

The two ways to count through a text. A checker addresses source text by UTF-16 code units, while
a text stored in UTF-8 is addressed by bytes; every offset, column and length in this library is
in units, and bytes appear only here.

* `units`, `unitLength` — units of a character and of a text
* `unitsBefore` — the unit offset of a byte offset
* `byteOfUnit?` — the byte offset of a unit offset, which exists between characters only
-/

namespace TypeQuery.Text

/-! ## units -/

/-- UTF-16 code units of one character: two outside the basic plane. -/
def units (c : Char) : Nat :=
  if c.toNat < 0x10000 then 1 else 2

/-- Length of a text in UTF-16 code units. -/
def unitLength : List Char → Nat
  | [] => 0
  | c :: cs => units c + unitLength cs

theorem units_pos (c : Char) : 0 < units c := by
  unfold units; split <;> decide

theorem units_le_two (c : Char) : units c ≤ 2 := by
  unfold units; split <;> decide

@[simp] theorem unitLength_nil : unitLength [] = 0 := rfl

@[simp] theorem unitLength_cons (c : Char) (cs : List Char) :
    unitLength (c :: cs) = units c + unitLength cs := rfl

@[simp] theorem unitLength_append (xs ys : List Char) :
    unitLength (xs ++ ys) = unitLength xs + unitLength ys := by
  induction xs with
  | nil => simp
  | cons c cs ih => simp [ih, Nat.add_assoc]

/-! ## bytes -/

/-- Length of a text in UTF-8 bytes. -/
def byteLength : List Char → Nat
  | [] => 0
  | c :: cs => c.utf8Size + byteLength cs

@[simp] theorem byteLength_nil : byteLength [] = 0 := rfl

@[simp] theorem byteLength_cons (c : Char) (cs : List Char) :
    byteLength (c :: cs) = c.utf8Size + byteLength cs := rfl

/-! ## from bytes to units and back -/

/-- Units of the characters that begin before byte offset `b`. An offset inside a character counts
all of that character. -/
def unitsBefore : List Char → Nat → Nat
  | [], _ => 0
  | c :: cs, b => if b = 0 then 0 else units c + unitsBefore cs (b - c.utf8Size)

/-- The byte offset at which unit offset `u` stands; none beyond the end of the text and none
between the two units of one character. -/
def byteOfUnit? : List Char → Nat → Option Nat
  | _, 0 => some 0
  | [], _ + 1 => none
  | c :: cs, u + 1 =>
    if units c ≤ u + 1 then (byteOfUnit? cs (u + 1 - units c)).map (c.utf8Size + ·) else none

/-- The text from unit offset `u` on, under the same condition as `byteOfUnit?`. -/
def dropUnits? : List Char → Nat → Option (List Char)
  | cs, 0 => some cs
  | [], _ + 1 => none
  | c :: cs, u + 1 => if units c ≤ u + 1 then dropUnits? cs (u + 1 - units c) else none

/-- The first `u` units of the text, under the same condition as `byteOfUnit?`. -/
def takeUnits? : List Char → Nat → Option (List Char)
  | _, 0 => some []
  | [], _ + 1 => none
  | c :: cs, u + 1 =>
    if units c ≤ u + 1 then (takeUnits? cs (u + 1 - units c)).map (c :: ·) else none

end TypeQuery.Text
