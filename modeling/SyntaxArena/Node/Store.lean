import SyntaxArena.Node.Basic

/-!
# The node store

All nodes of an arena in one table, with the pools for their lists.

- `NodeStore.add`, `NodeStore.addExpr`: a node as it is.
- `NodeStore.build`: a blueprint, whose lists are stored first.
- `NodeStore.HasRoomFor`: whether 32 bits are enough for what is handed out.
- `NodeStore.node`, `NodeStore.exprInfo`, `NodeStore.children`: lookups.
- `NodeStore.firstLoc`: the first source location that a node covers.
- `NodeStore.resolve_place`: the lists of a stored blueprint read back.
-/

namespace SyntaxArena

/-- Nodes, and the lists of calls and blocks. The tables are as long as they get; where handles and
segments consist of numbers of 32 bits, `NodeStore.HasRoomFor` tells for how long that is enough. -/
structure NodeStore where
  nodes : Array Node := #[]
  exprLists : ListPool ExprId := {}
  stmtLists : ListPool StmtId := {}
deriving DecidableEq

namespace NodeStore

/-- Number of nodes. -/
def size (s : NodeStore) : Nat := s.nodes.size

/-- A path of handles along which no handle repeats has at most this many of them: every node once,
and at the end perhaps a handle without a node. -/
def depthBound (s : NodeStore) : Nat := s.size + 1

/-! ## Allocation -/

/-- There is room for one node more, with the lists given: its handle stays below the invalid one,
and the pools have room for the lists. -/
structure HasRoomFor (s : NodeStore) (args : List ExprId) (body : List StmtId) : Prop where
  node : s.size < invalidIndex
  args : s.exprLists.HasRoom args
  body : s.stmtLists.HasRoom body

/-- Adds a node. Its handle is its position. Nothing here keeps the table from growing beyond the
invalid handle: see `HasRoomFor`. -/
def add : NodeStore → Node → NodeStore × StmtId
  | ⟨nodes, exprLists, stmtLists⟩, node =>
    let id : StmtId := ⟨nodes.size⟩
    (⟨nodes.push node, exprLists, stmtLists⟩, id)

/-- Adds an expression node. A statement is refused, and then nothing is added. -/
def addExpr (s : NodeStore) (node : Node) : NodeStore × Except Fault ExprId :=
  if node.isExpr then
    let (s, id) := s.add node
    (s, .ok id.toExpr)
  else (s, .error (.notExpressionNode node.kind))

/-- Stores a list of expressions. -/
def addExprList : NodeStore → List ExprId → NodeStore × Segment ExprId
  | ⟨nodes, exprLists, stmtLists⟩, l =>
    let (exprLists, segment) := exprLists.add l
    (⟨nodes, exprLists, stmtLists⟩, segment)

/-- Stores a list of statements. -/
def addStmtList : NodeStore → List StmtId → NodeStore × Segment StmtId
  | ⟨nodes, exprLists, stmtLists⟩, l =>
    let (stmtLists, segment) := stmtLists.add l
    (⟨nodes, exprLists, stmtLists⟩, segment)

/-- Stores the lists of a blueprint. -/
def place (s : NodeStore) (b : Blueprint) : NodeStore × Node :=
  let step : StateM NodeStore Node :=
    b.traverse (fun l s => (s.addExprList l).swap) (fun l s => (s.addStmtList l).swap)
  (step s).swap

/-- Adds the node of a blueprint, after its lists. -/
def build (s : NodeStore) (b : Blueprint) : NodeStore × StmtId :=
  let (s, node) := s.place b
  s.add node

/-- Drops all nodes and lists and keeps the room they had. -/
def clear : NodeStore → NodeStore
  | ⟨nodes, exprLists, stmtLists⟩ => ⟨nodes.shrink 0, exprLists.clear, stmtLists.clear⟩

@[simp] theorem clear_eq (s : NodeStore) : s.clear = {} := by
  simp [clear, Array.shrink_eq_take]

/-! ## Lookup -/

/-- The node with a handle. -/
def node (s : NodeStore) (id : StmtId) : Except Fault Node := lookup s.nodes id.index

/-- The node with a handle, if there is one. -/
def get? (s : NodeStore) (id : StmtId) : Option Node := s.nodes[id.index]?

/-- The handle as an expression handle, if it refers to an expression. -/
def asExpr? (s : NodeStore) (id : StmtId) : Option ExprId :=
  match s.get? id with
  | some node => if node.isExpr then some id.toExpr else none
  | none => none

/-- Type and categories of an expression. -/
def exprInfo (s : NodeStore) (id : ExprId) : Except Fault ExprInfo := do
  let node ← s.node id.toStmt
  match node.info? with
  | some info => return info
  | none => throw (.refersToStatement id node.kind)

/-- The node with its lists read from the pools. -/
def resolve (s : NodeStore) (node : Node) : Except Fault Blueprint :=
  node.traverse (s.exprLists.read .exprs) (s.stmtLists.read .stmts)

/-- The children of a node in source order. -/
def children (s : NodeStore) (id : StmtId) : Except Fault (List StmtId) := do
  let node ← s.node id
  return (← s.resolve node).children

/-- All nodes with their handles, in the order of allocation. -/
def toList (s : NodeStore) : List (StmtId × Node) :=
  s.nodes.toList.zipIdx.map fun (node, index) => (⟨index⟩, node)

/-- The location where a node begins, looked for along at most `fuel` operands. -/
def firstLocWithin (s : NodeStore) : Nat → StmtId → Except Fault Location
  | 0, _ => .error .cyclic
  | fuel + 1, id => do
    match (← s.node id).start with
    | .here loc => return loc
    | .operand e => s.firstLocWithin fuel e.toStmt

/-- The first source location that a node covers. -/
def firstLoc (s : NodeStore) (id : StmtId) : Except Fault Location :=
  s.firstLocWithin s.depthBound id

/-! ## What allocation does to lookups -/

theorem nodes_add (s : NodeStore) (node : Node) : (s.add node).1.nodes = s.nodes.push node := rfl

@[simp] theorem exprLists_add (s : NodeStore) (node : Node) :
    (s.add node).1.exprLists = s.exprLists := rfl

@[simp] theorem stmtLists_add (s : NodeStore) (node : Node) :
    (s.add node).1.stmtLists = s.stmtLists := rfl

@[simp] theorem size_add (s : NodeStore) (node : Node) : (s.add node).1.size = s.size + 1 := by
  simp [size, nodes_add]

/-- A new node has the next position as its handle. -/
@[simp] theorem add_snd (s : NodeStore) (node : Node) : (s.add node).2 = ⟨s.size⟩ := rfl

/-- The node that was added stands at its handle. -/
theorem node_add (s : NodeStore) (node : Node) :
    (s.add node).1.node (s.add node).2 = .ok node := by
  simp [NodeStore.node, lookup_eq_ok_iff, nodes_add, size]

/-- Adding a node changes no node that was there. -/
theorem node_add_of_node {s : NodeStore} {id : StmtId} {n : Node} (node : Node)
    (h : s.node id = .ok n) : (s.add node).1.node id = .ok n := by
  have := lookup_append #[node] h
  simpa [NodeStore.node, nodes_add] using this

@[simp] theorem nodes_addExprList (s : NodeStore) (l : List ExprId) :
    (s.addExprList l).1.nodes = s.nodes := rfl

@[simp] theorem nodes_addStmtList (s : NodeStore) (l : List StmtId) :
    (s.addStmtList l).1.nodes = s.nodes := rfl

@[simp] theorem nodes_place (s : NodeStore) (b : Blueprint) : (s.place b).1.nodes = s.nodes := by
  cases b <;> rfl

theorem kind_place (s : NodeStore) (b : Blueprint) : (s.place b).2.kind = b.kind := by
  cases b <;> rfl

@[simp] theorem size_place (s : NodeStore) (b : Blueprint) : (s.place b).1.size = s.size := by
  simp [size]

/-- Building adds one node. -/
@[simp] theorem size_build (s : NodeStore) (b : Blueprint) : (s.build b).1.size = s.size + 1 := by
  simp [build]

@[simp] theorem build_snd (s : NodeStore) (b : Blueprint) : (s.build b).2 = ⟨s.size⟩ := by
  simp [build]

/-- The lists of a stored blueprint read back as they were. -/
theorem resolve_place (s : NodeStore) (b : Blueprint) :
    (s.place b).1.resolve (s.place b).2 = .ok b := by
  cases b with
  | call n =>
    have hread :
        (s.addExprList n.args).1.exprLists.read .exprs (s.addExprList n.args).2 = .ok n.args :=
      s.exprLists.read_add .exprs n.args
    have hplace : s.place (.call n) =
        ((s.addExprList n.args).1,
          .call ⟨n.callee, (s.addExprList n.args).2, n.info, n.rparenLoc⟩) := rfl
    rw [hplace, resolve, NodeForm.traverse, hread]
    rfl
  | compound n =>
    have hread :
        (s.addStmtList n.body).1.stmtLists.read .stmts (s.addStmtList n.body).2 = .ok n.body :=
      s.stmtLists.read_add .stmts n.body
    have hplace : s.place (.compound n) =
        ((s.addStmtList n.body).1,
          .compound ⟨(s.addStmtList n.body).2, n.lbraceLoc, n.rbraceLoc⟩) := rfl
    rw [hplace, resolve, NodeForm.traverse, hread]
    rfl
  | _ => rfl

end NodeStore

end SyntaxArena
