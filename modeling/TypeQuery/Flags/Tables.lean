import TypeQuery.Flags

/-!
# TypeQuery.Flags.Tables

The enumerations of the checker: what each bit of a type's and of a symbol's mask stands for, with
the composites that the checker names as well.
-/

namespace TypeQuery.Flags

/-! ## types -/

/-- The constants for types. -/
def typeTable : List FlagConstant := [
  ⟨"Any", bit 0⟩,
  ⟨"Unknown", bit 1⟩,
  ⟨"String", bit 2⟩,
  ⟨"Number", bit 3⟩,
  ⟨"Boolean", bit 4⟩,
  ⟨"Enum", bit 5⟩,
  ⟨"BigInt", bit 6⟩,
  ⟨"StringLiteral", bit 7⟩,
  ⟨"NumberLiteral", bit 8⟩,
  ⟨"BooleanLiteral", bit 9⟩,
  ⟨"EnumLiteral", bit 10⟩,
  ⟨"BigIntLiteral", bit 11⟩,
  ⟨"ESSymbol", bit 12⟩,
  ⟨"UniqueESSymbol", bit 13⟩,
  ⟨"Void", bit 14⟩,
  ⟨"Undefined", bit 15⟩,
  ⟨"Null", bit 16⟩,
  ⟨"Never", bit 17⟩,
  ⟨"TypeParameter", bit 18⟩,
  ⟨"Object", bit 19⟩,
  ⟨"Union", bit 20⟩,
  ⟨"Intersection", bit 21⟩,
  ⟨"Index", bit 22⟩,
  ⟨"IndexedAccess", bit 23⟩,
  ⟨"Conditional", bit 24⟩,
  ⟨"Substitution", bit 25⟩,
  ⟨"NonPrimitive", bit 26⟩,
  ⟨"TemplateLiteral", bit 27⟩,
  ⟨"StringMapping", bit 28⟩,
  ⟨"AnyOrUnknown", bit 0 ||| bit 1⟩,
  ⟨"Nullable", bit 15 ||| bit 16⟩,
  ⟨"Literal", bit 7 ||| bit 8 ||| bit 9 ||| bit 11⟩,
  ⟨"StringLike", bit 2 ||| bit 7 ||| bit 27 ||| bit 28⟩,
  ⟨"NumberLike", bit 3 ||| bit 5 ||| bit 8⟩,
  ⟨"BooleanLike", bit 4 ||| bit 9⟩,
  ⟨"UnionOrIntersection", bit 20 ||| bit 21⟩]

/-- The bit of the type that stands for anything. -/
def anyType : UInt32 := bit 0

/-- The bit of unions. -/
def unionType : UInt32 := bit 20

/-! ## symbols -/

/-- The constants for symbols. -/
def symbolTable : List FlagConstant := [
  ⟨"None", 0⟩,
  ⟨"FunctionScopedVariable", bit 0⟩,
  ⟨"BlockScopedVariable", bit 1⟩,
  ⟨"Property", bit 2⟩,
  ⟨"EnumMember", bit 3⟩,
  ⟨"Function", bit 4⟩,
  ⟨"Class", bit 5⟩,
  ⟨"Interface", bit 6⟩,
  ⟨"ConstEnum", bit 7⟩,
  ⟨"RegularEnum", bit 8⟩,
  ⟨"ValueModule", bit 9⟩,
  ⟨"NamespaceModule", bit 10⟩,
  ⟨"TypeLiteral", bit 11⟩,
  ⟨"ObjectLiteral", bit 12⟩,
  ⟨"Method", bit 13⟩,
  ⟨"Constructor", bit 14⟩,
  ⟨"GetAccessor", bit 15⟩,
  ⟨"SetAccessor", bit 16⟩,
  ⟨"Signature", bit 17⟩,
  ⟨"TypeParameter", bit 18⟩,
  ⟨"TypeAlias", bit 19⟩,
  ⟨"ExportValue", bit 20⟩,
  ⟨"Alias", bit 21⟩,
  ⟨"Prototype", bit 22⟩,
  ⟨"ExportStar", bit 23⟩,
  ⟨"Optional", bit 24⟩,
  ⟨"Transient", bit 25⟩,
  ⟨"Variable", bit 0 ||| bit 1⟩,
  ⟨"Enum", bit 7 ||| bit 8⟩,
  ⟨"Accessor", bit 15 ||| bit 16⟩]

/-- The bit of properties. -/
def propertySymbol : UInt32 := bit 2

/-- The bit of symbols that are declared optional. -/
def optionalSymbol : UInt32 := bit 24

end TypeQuery.Flags
