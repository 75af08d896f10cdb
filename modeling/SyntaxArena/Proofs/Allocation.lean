import SyntaxArena.Proofs.Checked
import SyntaxArena.Proofs.Generations

/-!
# Handles are given out in order

Until the next reset the nodes that are added have consecutive handles, whichever operations add
them and whatever is done in between. So no handle is given out twice, and later handles are
greater.

- `Arena.step_build`: what a request does.
- `Outcome.handle?`: the handle that an operation gives out, if it adds a node.
- `Arena.handle?_step`: what one step does to the number of nodes.
- `Arena.allocated`: the handles that a run gives out.
- `Arena.allocated_consecutive`: they are the next numbers, one after the other.
-/

namespace SyntaxArena

/-- Builds a node on request. -/
abbrev Operation.build (g : Option Generation) (r : Request) : Operation :=
  .edit (.node (.request g r))

/-- A request adds the node asked for at the next position, and reports it. -/
theorem Arena.step_build [Build] (c : Arena) (g : Option Generation) (r : Request) :
    c.step (.build g r)
      = { state := { c with store := (c.store.build r.blueprint).1 },
          answer := .ok (.built (r.blueprint.ref ⟨c.store.size⟩)),
          events :=
            [.built (g.getD .selected) r.kind ((g.getD .selected).surface.primitive r.kind)
              ⟨c.store.size⟩] } := by
  simp [Arena.step, Arena.apply, Outcome.map, NodeStore.apply, NodeStore.construct_construction]

/-- The handle of the node that an operation has added, if it has added one. -/
def Outcome.handle? {σ : Type} (o : Outcome σ) : Option StmtId :=
  match o.answer with
  | .ok (.built ref) => some ref.toStmt
  | _ => none

theorem Arena.handle?_build [Build] (c : Arena) (g : Option Generation) (r : Request) :
    (c.step (.build g r)).handle? = some ⟨c.store.size⟩ := by
  rw [step_build]
  exact congrArg some (NodeForm.toStmt_ref _ _)

/-! ## One step -/

/-- An edit of nodes adds one node at the next position, or none. -/
theorem NodeStore.handle?_apply [Build] (s : NodeStore) (e : NodeEdit) :
    ((s.apply e).handle? = some ⟨s.size⟩ ∧ (s.apply e).state.size = s.size + 1) ∨
      ((s.apply e).handle? = none ∧ (s.apply e).state.size = s.size) := by
  cases e with
  | add n => exact .inl ⟨rfl, s.size_add n⟩
  | addExpr n =>
    by_cases hn : n.isExpr
    · refine .inl ?_
      simp only [apply, addExpr, if_pos hn]
      exact ⟨rfl, s.size_add n⟩
    · refine .inr ?_
      simp only [apply, addExpr, if_neg hn]
      exact ⟨rfl, trivial⟩
  | addExprList ids => exact .inr ⟨rfl, congrArg Array.size (s.nodes_addExprList ids)⟩
  | addStmtList ids => exact .inr ⟨rfl, congrArg Array.size (s.nodes_addStmtList ids)⟩
  | construct k =>
    exact .inl ⟨by simp [Outcome.handle?, apply, construct_eq], s.size_build k.blueprint⟩
  | request g r => exact .inl ⟨by simp [Outcome.handle?, apply, construct_eq], s.size_build _⟩

namespace Arena

/-- A query gives out no handle of a new node. -/
theorem ask_ne_built (c : Arena) (q : Query) (ref : NodeRef) : c.ask q ≠ .ok (.built ref) := by
  cases q <;> simp [ask]

/-- A step other than a reset adds one node at the next position, or none. -/
theorem handle?_step [Build] (c : Arena) {op : Operation} (hop : op ≠ .edit .reset) :
    ((c.step op).handle? = some ⟨c.store.size⟩ ∧ (c.step op).state.store.size = c.store.size + 1) ∨
      ((c.step op).handle? = none ∧ (c.step op).state.store.size = c.store.size) := by
  cases op with
  | query q =>
    refine .inr ⟨?_, rfl⟩
    unfold Outcome.handle?
    split
    · rename_i ref h
      exact absurd h (c.ask_ne_built q ref)
    · rfl
  | edit e =>
    obtain ⟨store, names, types⟩ := c
    cases e with
    | node e => exact store.handle?_apply e
    | intern text => exact .inr ⟨rfl, rfl⟩
    | type e =>
      cases e with
      | pointer pointee => exact .inr ⟨rfl, rfl⟩
      | function ret params => exact .inr ⟨rfl, rfl⟩
    | reset => exact absurd rfl hop

theorem handle?_step_reset [Build] (c : Arena) : (c.step (.edit .reset)).handle? = none := rfl

/-! ## Runs -/

/-- The handles of the nodes that a run adds, in the order of its steps. -/
def allocated [Build] (c : Arena) (ops : List Operation) : List StmtId :=
  (c.run ops).filterMap Outcome.handle?

theorem allocated_cons [Build] (c : Arena) (op : Operation) (ops : List Operation) :
    c.allocated (op :: ops) = (c.step op).handle?.toList ++ (c.step op).state.allocated ops := by
  rw [allocated, run, List.filterMap_cons]
  cases (c.step op).handle? <;> rfl

/-- Between resets handles are consecutive, and there are as many of them as the store has grown
by. -/
theorem allocated_consecutive [Build] (c : Arena) {ops : List Operation}
    (hops : .edit .reset ∉ ops) :
    (c.allocated ops).map StmtId.index = List.range' c.store.size (c.allocated ops).length ∧
      (c.after ops).store.size = c.store.size + (c.allocated ops).length := by
  induction ops generalizing c with
  | nil => exact ⟨rfl, rfl⟩
  | cons op ops ih =>
    obtain ⟨hop, hrest⟩ := not_or.1 (mt List.mem_cons.2 hops)
    obtain ⟨hindices, hsize⟩ := ih (c.step op).state hrest
    rw [after_cons, hsize, allocated_cons]
    rcases c.handle?_step (Ne.symm hop) with ⟨hhandle, hstep⟩ | ⟨hhandle, hstep⟩
    · rw [hstep] at hindices
      rw [hhandle, hstep]
      refine ⟨?_, by simp; omega⟩
      simp [hindices, List.range'_succ]
    · rw [hstep] at hindices
      rw [hhandle, hstep]
      exact ⟨hindices, rfl⟩

/-- Later handles are greater. -/
theorem pairwise_allocated [Build] (c : Arena) {ops : List Operation} (hops : .edit .reset ∉ ops) :
    (c.allocated ops).Pairwise fun a b => a.index < b.index := by
  rw [← List.pairwise_map, (c.allocated_consecutive hops).1]
  exact List.pairwise_lt_range'

/-- The handles that have been given out lead to nodes. -/
theorem index_lt_of_mem_allocated [Build] {c : Arena} {ops : List Operation}
    (hops : .edit .reset ∉ ops) {id : StmtId} (h : id ∈ c.allocated ops) :
    id.index < (c.after ops).store.size := by
  obtain ⟨hindices, hsize⟩ := c.allocated_consecutive hops
  have hmem : id.index ∈ (c.allocated ops).map StmtId.index := List.mem_map_of_mem h
  rw [hindices, List.mem_range'_1] at hmem
  rw [hsize]
  exact hmem.2

end Arena

end SyntaxArena
