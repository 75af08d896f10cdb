import SyntaxArena.Arena.Outline
import SyntaxArena.Arena.Shape
import SyntaxArena.Event
import SyntaxArena.Node.Inspect
import SyntaxArena.Node.Visit

/-!
# Operations

What can be done with an arena, as data.

- `NodeEdit`, `TypeEdit`, `Edit`: the operations that change an arena. Each acts on one of its
  tables alone, except the reset, which replaces them all.
- `Query`: the operations that only look.
- `Operation`: either, with `Arena.step` for one operation and `Arena.run` for a sequence.
- `Outcome`: the state after an operation, its answer or fault, and the events it reported.

An operation that ends in a fault changes nothing and reports nothing.

The tables have no upper bound. Where handles, positions and lengths are numbers of 32 bits, an
operation that would need a larger one cannot be answered and reports nothing, and it changes
nothing either but for one case: a list may have been stored when its length or the handle of its
node turns out to be too large. The arena then is the one that storing the list alone leads to.
`NodeStore.HasRoomFor` tells when this does not happen to the building of a node.
-/

namespace SyntaxArena

/-! ## Answers -/

/-- The answer to an operation. -/
inductive Answer where
  | done
  | built (ref : NodeRef)
  | exprSegment (segment : Segment ExprId)
  | stmtSegment (segment : Segment StmtId)
  | name (name : Identifier)
  | type (type : QualType)
  | node (node : Node)
  | maybeNode (node : Option Node)
  | maybeExpr (id : Option ExprId)
  | info (info : ExprInfo)
  | exprs (ids : List ExprId)
  | stmts (ids : List StmtId)
  | loc (loc : Location)
  | kinds (entries : List (StmtId × NodeKind))
  | typeKind (kind : TypeKind)
  | size (size : Nat)
  | truth (truth : Bool)
  | text (text : String)
deriving DecidableEq

/-- What an operation leads to. -/
structure Outcome (σ : Type) where
  /-- The state after the operation. -/
  state : σ
  answer : Except Fault Answer
  events : List Event := []

/-- The outcome for a whole of which the state is a part. -/
def Outcome.map {σ τ : Type} (f : σ → τ) (o : Outcome σ) : Outcome τ :=
  ⟨f o.state, o.answer, o.events⟩

/-! ## Operations on nodes -/

/-- An operation that adds nodes or lists. -/
inductive NodeEdit where
  /-- Adds a node as it is. -/
  | add (node : Node)
  /-- Adds a node as it is, if it is an expression. -/
  | addExpr (node : Node)
  | addExprList (ids : List ExprId)
  | addStmtList (ids : List StmtId)
  | construct (c : Construction)
  /-- Builds a node through the surface of a generation, the selected one if none is named. -/
  | request (generation : Option Generation) (r : Request)

namespace NodeStore

/-- Builds the node that a construction stands for. -/
def construct (s : NodeStore) (c : Construction) : NodeStore × NodeRef :=
  let (s, id) := s.build c.blueprint
  (s, c.blueprint.ref id)

/-- Performs an operation on nodes. -/
def apply [Build] (s : NodeStore) : NodeEdit → Outcome NodeStore
  | .add node =>
    let (s, id) := s.add node
    ⟨s, .ok (.built (.stmt id)), []⟩
  | .addExpr node =>
    let (s, id) := s.addExpr node
    ⟨s, return .built (.expr (← id)), []⟩
  | .addExprList ids =>
    let (s, segment) := s.addExprList ids
    ⟨s, .ok (.exprSegment segment), []⟩
  | .addStmtList ids =>
    let (s, segment) := s.addStmtList ids
    ⟨s, .ok (.stmtSegment segment), []⟩
  | .construct c =>
    let (s, ref) := s.construct c
    ⟨s, .ok (.built ref), []⟩
  | .request generation r =>
    let generation := generation.getD .selected
    let (s, ref) := s.construct (generation.surface.construction r)
    ⟨s, .ok (.built ref),
      [.built generation r.kind (generation.surface.primitive r.kind) ref.toStmt]⟩

end NodeStore

/-! ## Operations on types -/

/-- An operation that makes a type. -/
inductive TypeEdit where
  | pointer (pointee : QualType)
  | function (ret : QualType) (params : List QualType)

/-- Makes a type. -/
def TypeTable.apply (t : TypeTable) : TypeEdit → Outcome TypeTable
  | .pointer pointee =>
    let (t, type) := t.pointer pointee
    ⟨t, .ok (.type type), []⟩
  | .function ret params =>
    let (t, type) := t.function ret params
    ⟨t, .ok (.type type), []⟩

/-- Interns a text. -/
def IdentifierTable.apply (t : IdentifierTable) (text : String) : Outcome IdentifierTable :=
  let (t, name) := t.add text
  ⟨t, .ok (.name name), []⟩

/-! ## Operations that change an arena -/

/-- An operation that changes an arena. -/
inductive Edit where
  | node (e : NodeEdit)
  | intern (text : String)
  | type (e : TypeEdit)
  /-- Releases everything. -/
  | reset

namespace Arena

/-- Changes an arena. -/
def apply [Build] : Arena → Edit → Outcome Arena
  | ⟨store, names, types⟩, .node e => (store.apply e).map (⟨·, names, types⟩)
  | ⟨store, names, types⟩, .intern text => (names.apply text).map (⟨store, ·, types⟩)
  | ⟨store, names, types⟩, .type e => (types.apply e).map (⟨store, names, ·⟩)
  | c, .reset =>
    let released := c.store.size
    ⟨c.reset, .ok .done, [.reset released]⟩

/-- Changes an arena several times. -/
def applyAll [Build] (c : Arena) (edits : List Edit) : Arena :=
  edits.foldl (fun c e => (c.apply e).state) c

end Arena

/-! ## Operations that look -/

/-- An operation that leaves an arena as it is. -/
inductive Query where
  | node (id : StmtId)
  | get? (id : StmtId)
  | inspectNode (id : StmtId)
  /-- Whether two nodes are equal as stored, handles included. -/
  | sameStored (a b : StmtId)
  | asExpr? (id : StmtId)
  | exprInfo (id : ExprId)
  | exprList (segment : Segment ExprId)
  | stmtList (segment : Segment StmtId)
  | children (id : StmtId)
  | firstLoc (id : StmtId)
  /-- All nodes with their kinds. -/
  | entries
  | size
  | inspect
  | name (name : Identifier)
  | typeKind (id : TypeId)
  | spelling (type : QualType)
  | outline (id : StmtId)
  /-- Whether two nodes of the arena have the same shape. -/
  | sameHere (a b : StmtId)
  /-- Whether a node has the same shape as a node of another arena. -/
  | same (a : StmtId) (other : Arena) (b : StmtId)
  | walk (stops : List NodeKind) (id : StmtId)
  | visitAll (id : StmtId)

/-- Answers a query. -/
def Arena.ask (c : Arena) : Query → Except Fault Answer
  | .node id => return .node (← c.store.node id)
  | .get? id => return .maybeNode (c.store.get? id)
  | .inspectNode id => return .text (← Node.inspect (← c.store.node id))
  | .sameStored a b => do
    let x ← c.store.node a
    let y ← c.store.node b
    return .truth (x = y)
  | .asExpr? id => return .maybeExpr (c.store.asExpr? id)
  | .exprInfo id => return .info (← c.store.exprInfo id)
  | .exprList segment => return .exprs (← c.store.exprLists.read .exprs segment)
  | .stmtList segment => return .stmts (← c.store.stmtLists.read .stmts segment)
  | .children id => return .stmts (← c.store.children id)
  | .firstLoc id => return .loc (← c.store.firstLoc id)
  | .entries => return .kinds (c.store.toList.map fun (id, node) => (id, node.kind))
  | .size => return .size c.store.size
  | .inspect => return .text c.inspect
  | .name name => return .text (← c.names.text name)
  | .typeKind id => return .typeKind (← c.types.kind id)
  | .spelling type => return .text (← c.types.spelling type)
  | .outline id => return .text (← c.outline id)
  | .sameHere a b => return .truth (← Comparison.same ⟨c, c⟩ a b)
  | .same a other b => return .truth (← Comparison.same ⟨c, other⟩ a b)
  | .walk stops id => return .kinds (← c.store.walk stops id)
  | .visitAll id => do
    c.store.visitAll id
    return .done

/-! ## All operations -/

/-- An operation on an arena. -/
inductive Operation where
  | edit (e : Edit)
  | query (q : Query)

namespace Arena

/-- Performs an operation. -/
def step [Build] (c : Arena) : Operation → Outcome Arena
  | .edit e => c.apply e
  | .query q => ⟨c, c.ask q, []⟩

/-- Performs operations one after the other. The outcomes are listed in the same order. -/
def run [Build] (c : Arena) : List Operation → List (Outcome Arena)
  | [] => []
  | op :: ops =>
    let o := c.step op
    o :: run o.state ops

/-- The arena after a sequence of operations. -/
def after [Build] (c : Arena) (ops : List Operation) : Arena :=
  ops.foldl (fun c op => (c.step op).state) c

@[simp] theorem after_nil [Build] (c : Arena) : c.after [] = c := rfl

@[simp] theorem after_cons [Build] (c : Arena) (op : Operation) (ops : List Operation) :
    c.after (op :: ops) = (c.step op).state.after ops := rfl

theorem after_append [Build] (c : Arena) (ops more : List Operation) :
    c.after (ops ++ more) = (c.after ops).after more := List.foldl_append

/-- A query leaves the arena as it is. -/
@[simp] theorem state_step_query [Build] (c : Arena) (q : Query) :
    (c.step (.query q)).state = c := rfl

/-- A reset leads to a fresh arena. -/
@[simp] theorem state_apply_reset [Build] (c : Arena) : (c.apply .reset).state = .initial :=
  c.reset_eq_initial

@[simp] theorem state_step_reset [Build] (c : Arena) : (c.step (.edit .reset)).state = .initial :=
  c.reset_eq_initial

end Arena

end SyntaxArena
