import SyntaxArena.Interner
import SyntaxArena.Types.Basic

/-!
# The type table

Types are interned: equal kinds have equal indices, so within one arena types are compared by index.

- `TypeTable.initial`: the builtin types.
- `TypeTable.pointer`, `TypeTable.function`: compound types, new or found again.
- `TypeTable.kind`: the kind at an index.
-/

namespace SyntaxArena

/-- The kinds of types. -/
abbrev TypeTable := Interner TypeKind

namespace TypeTable

/-- The type of a kind, without qualifiers. -/
def add (t : TypeTable) (kind : TypeKind) : TypeTable × QualType :=
  let (t, index) := t.intern kind
  (t, { id := ⟨index⟩ })

/-- Makes the builtin types in the order of their indices. -/
def seed (t : TypeTable) : TypeTable := BuiltinType.all.foldl (fun t b => (t.add (.builtin b)).1) t

/-- The table of a fresh arena: the builtin types. -/
def initial : TypeTable := seed .empty

theorem keys_initial : initial.keys = (BuiltinType.all.map TypeKind.builtin).toArray := rfl

/-- Forgets all types. The builtin types are the first to be made again. -/
def reset (t : TypeTable) : TypeTable := seed t.clear

/-- A table that has been reset is that of a fresh arena. -/
theorem reset_eq_initial (t : TypeTable) : t.reset = initial := congrArg seed t.clear_eq

/-- The type of pointers to a type. -/
def pointer (t : TypeTable) (pointee : QualType) : TypeTable × QualType := t.add (.pointer pointee)

/-- The type of functions with the given return type and parameter types. -/
def function (t : TypeTable) (ret : QualType) (params : List QualType) : TypeTable × QualType :=
  t.add (.function ret params)

/-- The kind at an index. -/
def kind (t : TypeTable) (id : TypeId) : Except Fault TypeKind := t.get id.index

/-- A builtin type has its own kind from the start. -/
theorem kind_initial_typeId (b : BuiltinType) : initial.kind b.typeId = .ok (.builtin b) := by
  cases b <;> rfl

end TypeTable

end SyntaxArena
