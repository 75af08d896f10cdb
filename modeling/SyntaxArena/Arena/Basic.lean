import SyntaxArena.Identifier
import SyntaxArena.Node.Store
import SyntaxArena.Types.Table

/-!
# Arenas

An arena owns the nodes of one translation unit with their lists, the names and the types. Nothing
is ever released on its own: a reset releases everything at once.
-/

namespace SyntaxArena

/-- Owner of nodes, names and types. -/
structure Arena where
  store : NodeStore := {}
  names : IdentifierTable := .initial
  types : TypeTable := .initial
deriving DecidableEq

namespace Arena

/-- A fresh arena: no nodes, the empty name, the builtin types. -/
def initial : Arena := {}

/-- Releases everything, table by table. -/
def reset : Arena → Arena
  | ⟨store, names, types⟩ => ⟨store.clear, names.reset, types.reset⟩

/-- An arena that has been reset is a fresh one. -/
theorem reset_eq_initial (c : Arena) : c.reset = .initial := by
  rw [reset, NodeStore.clear_eq, IdentifierTable.reset_eq_initial, TypeTable.reset_eq_initial]
  rfl

/-- The arena as inspection shows it. -/
def inspect (c : Arena) : String :=
  s!"AstContext \x7b {c.store.size.repr} nodes, " ++
    s!"{c.store.exprLists.size.repr} expr list entries, " ++
    s!"{c.store.stmtLists.size.repr} stmt list entries, {c.names.size.repr} names, " ++
    s!"{c.types.size.repr} types \x7d"

end Arena

end SyntaxArena
