import SyntaxArena.Text.Record

/-!
# Types

A type is an index into the type table of an arena, together with qualifiers.

- `BuiltinType`: the eight scalar types, which have the same indices in every arena.
- `TypeId`: an index into the type table.
- `Qualifiers`, `QualType`: a type as an expression or a declaration has it.
- `TypeKind`: what stands in the table at an index.
-/

namespace SyntaxArena

/-! ## Builtin types -/

/-- Builtin scalar types. -/
inductive BuiltinType where
  | void | bool | char | int | uint | long | float | double
deriving DecidableEq

/-- Index of a type in the type table of an arena. -/
structure TypeId where
  index : Nat
deriving DecidableEq

namespace BuiltinType

/-- Every builtin type, in the order of the type indices. -/
def all : List BuiltinType := [.void, .bool, .char, .int, .uint, .long, .float, .double]

/-- The spelling in C. -/
def name : BuiltinType → String
  | .void => "void"
  | .bool => "_Bool"
  | .char => "char"
  | .int => "int"
  | .uint => "unsigned int"
  | .long => "long"
  | .float => "float"
  | .double => "double"

/-- The type as inspection shows it. -/
def inspect : BuiltinType → String
  | .void => "Void"
  | .bool => "Bool"
  | .char => "Char"
  | .int => "Int"
  | .uint => "UInt"
  | .long => "Long"
  | .float => "Float"
  | .double => "Double"

/-- The index of a builtin type, the same in every arena. -/
def typeId : BuiltinType → TypeId
  | .void => ⟨0⟩
  | .bool => ⟨1⟩
  | .char => ⟨2⟩
  | .int => ⟨3⟩
  | .uint => ⟨4⟩
  | .long => ⟨5⟩
  | .float => ⟨6⟩
  | .double => ⟨7⟩

/-- The builtin type at an index, if it is one of theirs. -/
def ofTypeId? (id : TypeId) : Option BuiltinType := all[id.index]?

theorem ofTypeId?_typeId (b : BuiltinType) : ofTypeId? b.typeId = some b := by
  cases b <;> rfl

end BuiltinType

namespace TypeId

/-- The first index of a compound type: the builtin types have the indices below. -/
def firstCompound : Nat := 8

/-- Whether the index is one of a builtin type. -/
def isBuiltin (id : TypeId) : Bool := id.index < firstCompound

theorem isBuiltin_iff {id : TypeId} : id.isBuiltin ↔ ∃ b, BuiltinType.ofTypeId? id = some b := by
  have h : BuiltinType.all.length = firstCompound := rfl
  rw [isBuiltin, decide_eq_true_eq, ← h, BuiltinType.ofTypeId?]
  exact ⟨fun hi => ⟨_, List.getElem?_eq_getElem hi⟩,
    fun ⟨_, hb⟩ => (List.getElem?_eq_some_iff.1 hb).1⟩

/-- The index as inspection shows it: builtin types by name. -/
def inspect (id : TypeId) : String :=
  match BuiltinType.ofTypeId? id with
  | some b => Record.variant "TypeId" b.name
  | none => Record.variant "TypeId" id.index.repr

end TypeId

/-! ## Qualifiers -/

/-- A set of the qualifiers `const`, `volatile` and `restrict`. A set that is kept as eight bits has
five more, which no qualifier is declared for; they are left out here. -/
structure Qualifiers where
  isConst : Bool := false
  isVolatile : Bool := false
  isRestrict : Bool := false
deriving DecidableEq

namespace Qualifiers

/-- No qualifier. -/
def none : Qualifiers := {}

/-- The qualifiers as words, in the order in which they are declared. -/
def words (q : Qualifiers) : List String :=
  (if q.isConst then ["const"] else []) ++ (if q.isVolatile then ["volatile"] else []) ++
    (if q.isRestrict then ["restrict"] else [])

/-- The spelling in C, empty when there is no qualifier. -/
def spelling (q : Qualifiers) : String := " ".intercalate q.words

/-- Distinct sets of qualifiers are spelt differently. -/
theorem spelling_injective {q r : Qualifiers} (h : q.spelling = r.spelling) : q = r := by
  obtain ⟨a, b, c⟩ := q
  obtain ⟨d, e, f⟩ := r
  revert h
  cases a <;> cases b <;> cases c <;> cases d <;> cases e <;> cases f <;> decide

end Qualifiers

/-! ## Qualified types -/

/-- A type and its qualifiers. -/
structure QualType where
  id : TypeId
  quals : Qualifiers := .none
deriving DecidableEq

namespace QualType

/-- A builtin type without qualifiers. -/
def builtin (b : BuiltinType) : QualType := { id := b.typeId }

/-- The type with `const` added. -/
def withConst (t : QualType) : QualType := { t with quals := { t.quals with isConst := true } }

/-- The type without its qualifiers. -/
def unqualified (t : QualType) : QualType := { id := t.id }

/-- Whether the type is `const`. -/
def isConst (t : QualType) : Bool := t.quals.isConst

/-- The type as inspection shows it. -/
def inspect (t : QualType) : String :=
  if t.quals = .none then t.id.inspect else t.quals.spelling ++ " " ++ t.id.inspect

end QualType

/-! ## Kinds of types -/

/-- What a type is made of. -/
inductive TypeKind where
  | builtin (type : BuiltinType)
  | pointer (pointee : QualType)
  | function (ret : QualType) (params : List QualType)
deriving DecidableEq

/-- The kind as inspection shows it. -/
def TypeKind.inspect : TypeKind → String
  | .builtin b => Record.variant "Builtin" b.inspect
  | .pointer pointee => Record.variant "Pointer" pointee.inspect
  | .function ret params =>
    Record.fields "Function"
      [("ret", ret.inspect), ("params", Record.list (params.map QualType.inspect))]

end SyntaxArena
