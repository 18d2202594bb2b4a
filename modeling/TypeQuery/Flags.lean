import TypeQuery.Text.Sorted

/-!
# TypeQuery.Flags

Names for the bits of a mask. A checker describes types and symbols by 32-bit masks and supplies a
table of named constants. Some constants are one bit and name a fact of their own; others are
composites of several bits. Only the former are reported: a composite says nothing that its bits
do not say already.

* `Flags.names` — the names of the bits of a mask, in order
* `Flags.summarize` — a mask with its names
-/

namespace TypeQuery

/-- A named constant of a checker's enumeration. -/
structure FlagConstant where
  name : String
  value : UInt32
  deriving DecidableEq, Repr

/-- A mask together with the names of its bits. -/
structure FlagSummary where
  mask : UInt32
  names : List String
  deriving DecidableEq, Repr

namespace Flags

/-- The mask with bit `i` alone, for `i` below 32. -/
def bit (i : UInt32) : UInt32 :=
  1 <<< i

/-- Whether exactly one bit of `v` is set. -/
def isSingleBit (v : UInt32) : Bool :=
  v != 0 && v &&& (v - 1) == 0

/-- The constants whose value no earlier constant has. -/
def firstPerValue : List FlagConstant → List FlagConstant
  | [] => []
  | c :: cs => c :: (firstPerValue cs).filter (·.value != c.value)

/-- The single-bit constants that are set in `mask`, the first one listed for each bit. -/
def setBits (mask : UInt32) (table : List FlagConstant) : List FlagConstant :=
  firstPerValue (table.filter fun c => isSingleBit c.value && mask &&& c.value != 0)

/-- The names of the single-bit constants set in `mask`, ascending and without repetition. -/
def names (mask : UInt32) (table : List FlagConstant) : List String :=
  Text.sorted ((setBits mask table).map (·.name))

/-- A mask with the names of its bits. -/
def summarize (mask : UInt32) (table : List FlagConstant) : FlagSummary :=
  ⟨mask, names mask table⟩

end Flags

end TypeQuery
