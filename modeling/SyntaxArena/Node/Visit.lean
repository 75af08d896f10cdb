import SyntaxArena.Node.Store

/-!
# Visiting nodes

- `Visitor`: what to do at a node, and whether to go on to its children.
- `NodeStore.visit`: runs a visitor over the nodes below a root, each node before its children and
  the children in source order. A node that can be reached in several ways is visited once for each.
- `NodeStore.walk`: the nodes met, where the kinds at which to stop are given.
- `NodeStore.visitAll`: goes through all nodes below a root and keeps nothing.
-/

namespace SyntaxArena

/-- What to do at a node. -/
structure Visitor (σ : Type) where
  /-- The new state, and whether the children of the node are visited next. -/
  enter : NodeStore → StmtId → σ → Except Fault (σ × Bool)

namespace Visitor

/-- Does nothing at a node and goes on to its children. -/
def passing : Visitor Unit where
  enter _ _ u := .ok (u, true)

/-- Notes every node it enters with its kind, and goes no further at nodes of the kinds given. -/
def recording (stops : List NodeKind) : Visitor (Array (StmtId × NodeKind)) where
  enter s id met := do
    let kind := (← s.node id).kind
    return (met.push (id, kind), kind ∉ stops)

end Visitor

namespace NodeStore

variable {σ : Type}

/-- Visits the nodes below a root to a depth of less than `fuel`. -/
def visitWithin (s : NodeStore) (v : Visitor σ) : Nat → StmtId → σ → Except Fault σ
  | 0, _, _ => .error .cyclic
  | fuel + 1, id, state => do
    let (state, goOn) ← v.enter s id state
    if goOn then
      (← s.children id).foldlM (fun state child => s.visitWithin v fuel child state) state
    else return state

/-- Runs a visitor over the nodes below a root. -/
def visit (s : NodeStore) (v : Visitor σ) (root : StmtId) (state : σ) : Except Fault σ :=
  s.visitWithin v s.depthBound root state

/-- The nodes below a root with their kinds, in the order in which they are visited. -/
def walk (s : NodeStore) (stops : List NodeKind) (root : StmtId) :
    Except Fault (List (StmtId × NodeKind)) :=
  return (← s.visit (.recording stops) root #[]).toList

/-- Goes through all nodes below a root. -/
def visitAll (s : NodeStore) (root : StmtId) : Except Fault Unit := s.visit .passing root ()

end NodeStore

end SyntaxArena
