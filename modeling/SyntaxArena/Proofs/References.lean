import SyntaxArena.Proofs.Generations
import SyntaxArena.Proofs.Unfolding

/-!
# References

What an operation refers to in an arena: nodes, lists, names and types, as the arguments and the
answers of operations mention them.

- `Reference`: something that an arena is expected to have.
- `NodeForm.references`: what a node refers to, `Construction.references` and so on the same for the
  arguments of operations.
- `NodeForm.mem_references_of_info`, `NodeForm.mem_references_of_decl`: what the attributes and the
  declaration of a node refer to is among what the node refers to.
- `Blueprint.children_eq_filterMap_references`: its children are the nodes among it.
-/

namespace SyntaxArena

/-- Something that an arena is expected to have. -/
inductive Reference where
  /-- A node that is an expression. -/
  | expr (id : ExprId)
  /-- A node of any kind. -/
  | stmt (id : StmtId)
  | exprSegment (s : Segment ExprId)
  | stmtSegment (s : Segment StmtId)
  | name (n : Identifier)
  | type (id : TypeId)
deriving DecidableEq

/-- The handle of the node, if the reference is one to a node. -/
def Reference.node? : Reference → Option StmtId
  | .expr id => some id.toStmt
  | .stmt id => some id
  | .exprSegment _ | .stmtSegment _ | .name _ | .type _ => none

/-! ## References of nodes -/

def ExprInfo.references (i : ExprInfo) : List Reference := [.type i.type.id]

def VarDecl.references (d : VarDecl) : List Reference := [.name d.name, .type d.type.id]

/-- What a node refers to, where its two lists refer to what is given. -/
def NodeForm.references {Args Body : Type} (args : Args → List Reference)
    (body : Body → List Reference) : NodeForm Args Body → List Reference
  | .integerLiteral n => n.info.references
  | .declRef n => n.decl.references ++ n.info.references
  | .unary n => .expr n.operand :: n.info.references
  | .binary n => .expr n.lhs :: .expr n.rhs :: n.info.references
  | .call n => .expr n.callee :: (args n.args ++ n.info.references)
  | .ifStmt n =>
    n.init.toList.map .stmt ++ n.condVar.toList.flatMap VarDecl.references ++
      [.expr n.cond, .stmt n.thenBranch] ++ n.elseBranch.toList.map .stmt
  | .whileStmt n => n.condVar.toList.flatMap VarDecl.references ++ [.expr n.cond, .stmt n.body]
  | .returnStmt n => n.value.toList.map .expr ++ n.nrvoCandidate.toList.flatMap VarDecl.references
  | .compound n => body n.body
  | .nullStmt _ => []

/-- A stored node refers to its list as a whole. -/
def Node.references (n : Node) : List Reference :=
  NodeForm.references (fun s => [.exprSegment s]) (fun s => [.stmtSegment s]) n

/-- A node with its lists written out refers to every entry. -/
def Blueprint.references (b : Blueprint) : List Reference :=
  NodeForm.references (fun l => l.map .expr) (fun l => l.map .stmt) b

/-! ## References of arguments -/

def Construction.references (k : Construction) : List Reference := k.blueprint.references

def Request.references (r : Request) : List Reference := r.blueprint.references

def TypeKind.references (kind : TypeKind) : List Reference :=
  kind.components.map fun q => .type q.id

/-- The kind that a type is made of. -/
def TypeEdit.kind : TypeEdit → TypeKind
  | .pointer pointee => .pointer pointee
  | .function ret params => .function ret params

def TypeEdit.references (e : TypeEdit) : List Reference := e.kind.references

def NodeEdit.references : NodeEdit → List Reference
  | .add node => Node.references node
  | .addExpr node => Node.references node
  | .addExprList ids => ids.map .expr
  | .addStmtList ids => ids.map .stmt
  | .construct k => k.references
  | .request _ r => r.references

def Edit.references : Edit → List Reference
  | .node e => e.references
  | .intern _ => []
  | .type e => e.references
  | .reset => []

/-- What a comparison refers to in the other arena is left out. -/
def Query.references : Query → List Reference
  | .node id | .get? id | .inspectNode id | .asExpr? id | .children id | .firstLoc id | .outline id
  | .same id _ _ | .walk _ id | .visitAll id => [.stmt id]
  | .sameStored a b | .sameHere a b => [.stmt a, .stmt b]
  | .exprInfo id => [.expr id]
  | .exprList s => [.exprSegment s]
  | .stmtList s => [.stmtSegment s]
  | .name n => [.name n]
  | .typeKind id => [.type id]
  | .spelling t => [.type t.id]
  | .entries | .size | .inspect => []

def Operation.references : Operation → List Reference
  | .edit e => e.references
  | .query q => q.references

/-! ## References of answers -/

def NodeRef.references : NodeRef → List Reference
  | .expr id => [.expr id]
  | .stmt id => [.stmt id]

def Answer.references : Answer → List Reference
  | .built ref => ref.references
  | .exprSegment s => [.exprSegment s]
  | .stmtSegment s => [.stmtSegment s]
  | .name n => [.name n]
  | .type t => [.type t.id]
  | .node n => Node.references n
  | .maybeNode n => n.toList.flatMap Node.references
  | .maybeExpr id => id.toList.map .expr
  | .info i => i.references
  | .exprs ids => ids.map .expr
  | .stmts ids => ids.map .stmt
  | .kinds entries => entries.map fun e => .stmt e.1
  | .typeKind kind => kind.references
  | .done | .loc _ | .size _ | .truth _ | .text _ => []

/-! ## What is among the references of a node -/

section

variable {Args Body : Type} {args : Args → List Reference} {body : Body → List Reference}
  {n : NodeForm Args Body}

theorem NodeForm.mem_references_of_info {i : ExprInfo} (hi : i ∈ n.info?) :
    Reference.type i.type.id ∈ n.references args body := by
  cases n <;> simp_all [NodeForm.info?, NodeForm.references, ExprInfo.references]

theorem NodeForm.mem_references_of_decl {d : VarDecl} (hd : d ∈ n.decl?) {r : Reference}
    (hr : r ∈ d.references) : r ∈ n.references args body := by
  cases n <;> simp_all [NodeForm.decl?, NodeForm.references]

end

/-- A declaration refers to no node. -/
theorem filterMap_node?_decls (o : Option VarDecl) :
    (o.toList.flatMap VarDecl.references).filterMap Reference.node? = [] := by
  cases o <;> rfl

theorem node?_comp_expr : Reference.node? ∘ Reference.expr = some ∘ ExprId.toStmt := rfl

theorem node?_comp_stmt : Reference.node? ∘ Reference.stmt = some := rfl

/-- The children of a node are the nodes that it refers to, in the same order. -/
theorem Blueprint.children_eq_filterMap_references (b : Blueprint) :
    b.children = b.references.filterMap Reference.node? := by
  cases b with
  | call n =>
    have htype : n.info.references.filterMap Reference.node? = [] := rfl
    simp [children, references, NodeForm.references, Reference.node?, node?_comp_expr, htype]
  | _ =>
    simp [children, references, NodeForm.references, Reference.node?, ExprInfo.references,
      VarDecl.references, filterMap_node?_decls, node?_comp_expr, node?_comp_stmt]

end SyntaxArena
