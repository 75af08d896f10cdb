/-!
# Handles

Nodes live in one table, and a handle is an index into it.

- `StmtId`: the handle of any node; every expression is also a statement.
- `ExprId`: the handle of an expression node; `ExprId.toStmt` forgets that it is one.
- `NodeRef`: a handle together with which of the two it is, as an allocation returns it.

A handle is a number and nothing else: whether a table has a node there is found out by a lookup.
-/

namespace SyntaxArena

/-- The index that no node ever has: it marks a handle as invalid. -/
def invalidIndex : Nat := 4294967295

/-! ## Expression handles -/

/-- Handle of an expression node. -/
structure ExprId where
  /-- Position in the node table. -/
  index : Nat
deriving DecidableEq

namespace ExprId

/-- The handle that refers to no node. -/
def invalid : ExprId := ⟨invalidIndex⟩

/-- Whether the handle is not the invalid one. -/
def isValid (id : ExprId) : Bool := id.index != invalidIndex

/-- The handle as inspection shows it. -/
def inspect (id : ExprId) : String :=
  if id.isValid then s!"ExprId({id.index.repr})" else "ExprId::INVALID"

end ExprId

/-! ## Node handles -/

/-- Handle of any node, expression or statement. -/
structure StmtId where
  /-- Position in the node table. -/
  index : Nat
deriving DecidableEq

namespace StmtId

/-- The handle that refers to no node. -/
def invalid : StmtId := ⟨invalidIndex⟩

/-- Whether the handle is not the invalid one. -/
def isValid (id : StmtId) : Bool := id.index != invalidIndex

/-- The handle as inspection shows it. -/
def inspect (id : StmtId) : String :=
  if id.isValid then s!"StmtId({id.index.repr})" else "StmtId::INVALID"

/-- The same index read as an expression handle. Nothing is looked up. -/
def toExpr (id : StmtId) : ExprId := ⟨id.index⟩

@[simp] theorem index_toExpr (id : StmtId) : id.toExpr.index = id.index := rfl

end StmtId

/-- An expression handle as the handle of a node. -/
def ExprId.toStmt (id : ExprId) : StmtId := ⟨id.index⟩

@[simp] theorem ExprId.index_toStmt (id : ExprId) : id.toStmt.index = id.index := rfl

@[simp] theorem ExprId.toExpr_toStmt (id : ExprId) : id.toStmt.toExpr = id := rfl

@[simp] theorem StmtId.toStmt_toExpr (id : StmtId) : id.toExpr.toStmt = id := rfl

/-! ## Results of an allocation -/

/-- Handle of a new node: an expression handle when the node is an expression. -/
inductive NodeRef where
  | expr (id : ExprId)
  | stmt (id : StmtId)
deriving DecidableEq

namespace NodeRef

/-- The handle as the handle of a node. -/
def toStmt : NodeRef → StmtId
  | .expr id => id.toStmt
  | .stmt id => id

@[simp] theorem toStmt_expr (id : ExprId) : (expr id).toStmt = id.toStmt := rfl

@[simp] theorem toStmt_stmt (id : StmtId) : (stmt id).toStmt = id := rfl

end NodeRef

end SyntaxArena
