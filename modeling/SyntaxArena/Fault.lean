import SyntaxArena.Node.Id
import SyntaxArena.Node.Kind

/-!
# Faults

A handle, a name or a type index may refer to nothing, and a list range may lie outside its storage.
Nothing is checked when a node is stored; a lookup that cannot be answered ends in a `Fault`.

- `Fault`: one constructor per cause, with what was asked for and what there was, and
  `Fault.message` for its wording.
- `lookup`: an entry of a table, or the fault that it is out of bounds.
-/

namespace SyntaxArena

/-- The two storages of lists: those of calls and those of blocks. -/
inductive ListKind where
  | exprs | stmts
deriving DecidableEq

/-- Why an operation has no answer. -/
inductive Fault where
  /-- A table with `len` entries has none at `index`. -/
  | indexOutOfBounds (len index : Nat)
  /-- A list range reaches up to `stop`, beyond the `len` entries of its storage. -/
  | sliceOutOfRange (storage : ListKind) (len stop : Nat)
  /-- The end of a list range does not fit into 32 bits. -/
  | rangeOverflow
  /-- A statement node was to be allocated as an expression. -/
  | notExpressionNode (kind : NodeKind)
  /-- An expression handle refers to a statement. -/
  | refersToStatement (id : ExprId) (kind : NodeKind)
  /-- The handles below a node, or the types below a type, form a cycle. -/
  | cyclic
deriving DecidableEq

/-- The wording of a fault. It does not tell the one storage of lists from the other. -/
def Fault.message : Fault → String
  | .indexOutOfBounds len index =>
    s!"index out of bounds: the len is {len.repr} but the index is {index.repr}"
  | .sliceOutOfRange _ len stop =>
    s!"range end index {stop.repr} out of range for slice of length {len.repr}"
  | .rangeOverflow => "end of list range exceeds 32 bits"
  | .notExpressionNode kind => s!"{kind.name} is not an expression node"
  | .refersToStatement id kind => s!"{id.inspect} refers to {kind.name}, not an expression"
  | .cyclic => "cyclic graph"

/-! ## Checked lookup -/

/-- The entry of a table at an index, or the fault that there is none. -/
def lookup {α : Type} (table : Array α) (index : Nat) : Except Fault α :=
  match table[index]? with
  | some a => .ok a
  | none => .error (.indexOutOfBounds table.size index)

theorem lookup_eq_ok_iff {α : Type} {table : Array α} {index : Nat} {a : α} :
    lookup table index = .ok a ↔ table[index]? = some a := by
  unfold lookup
  split <;> simp_all

theorem lookup_eq_error_iff {α : Type} {table : Array α} {index : Nat} {e : Fault} :
    lookup table index = .error e ↔
      table.size ≤ index ∧ e = .indexOutOfBounds table.size index := by
  unfold lookup
  split
  · rename_i h
    obtain ⟨h, -⟩ := Array.getElem?_eq_some_iff.1 h
    simp [Nat.not_le.2 h]
  · rename_i h
    simp [Array.getElem?_eq_none_iff.1 h, eq_comm]

/-- A table that has grown answers as before wherever it answered. -/
theorem lookup_append {α : Type} {table : Array α} {index : Nat} {a : α} (more : Array α)
    (h : lookup table index = .ok a) : lookup (table ++ more) index = .ok a := by
  rw [lookup_eq_ok_iff] at *
  obtain ⟨hi, rfl⟩ := Array.getElem?_eq_some_iff.1 h
  simp [Array.getElem?_append, hi]

end SyntaxArena
