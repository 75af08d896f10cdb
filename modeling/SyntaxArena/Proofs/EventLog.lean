import SyntaxArena.Proofs.Allocation

/-!
# Events account for a run

The events of a run tell which nodes were built on request, through what, and what was released.
None is missing and none tells anything else, so the books balance: what was released and what is
still there is what was there and what has been added.

- `Operation.report`, `Arena.events_step`: what an operation reports, told by the number of nodes
  before it.
- `Surface.primitive?_construction`: the primitive that is reported is the one that was used.
- `Arena.released_add_size`: the balance.
- `Arena.ids_sublist_allocated`: the nodes that are reported are among those that were added, in the
  same order.
- `Arena.trace_faithful`: all of this for a whole run.
-/

namespace SyntaxArena

/-! ## The primitive that was used -/

/-- The primitive by which a construction builds its node, if it is one of those that requests are
answered by. -/
def Construction.primitive? : Construction → Option Primitive
  | .integerLiteral .. | .declRef .. | .nullStmt .. => none
  | .unary .. => some (.unary .plain)
  | .unaryWithOverflow .. => some (.unary .withOverflow)
  | .binaryContractable .. => some (.binary .contractable)
  | .binaryOptions .. => some (.binary .fpOptions)
  | .ifPlacement .. => some (.ifStmt .placement)
  | .ifFactory .. => some (.ifStmt .factory)
  | .whilePlacement .. => some (.whileStmt .placement)
  | .whileFactory .. => some (.whileStmt .factory)
  | .returnPlacement .. => some (.returnStmt .placement)
  | .returnFactory .. => some (.returnStmt .factory)
  | .compoundPlacement .. => some (.compound .placement)
  | .compoundFactory .. => some (.compound .factory)
  | .callPlacement .. => some (.call .placement)
  | .callFactory .. => some (.call .factory)

/-- A surface answers a request by the primitive that it names for the kind. -/
theorem Surface.primitive?_construction (s : Surface) (r : Request) :
    (s.construction r).primitive? = some (s.primitive r.kind) := by
  obtain ⟨unary, binary, ifStmt, whileStmt, returnStmt, compound, call⟩ := s
  cases r with
  | unary op operand type => cases unary <;> rfl
  | binary op lhs rhs type => cases binary <;> rfl
  | ifStmt cond thenBranch => cases ifStmt <;> rfl
  | whileStmt cond body => cases whileStmt <;> rfl
  | returnStmt value => cases returnStmt <;> rfl
  | compound stmts => cases compound <;> rfl
  | call callee args type => cases call <;> rfl

theorem Request.kind_blueprint (r : Request) : r.blueprint.kind = r.kind.nodeKind := by
  cases r <;> rfl

/-! ## What an operation reports -/

namespace Event

/-- The node that an event tells of. -/
def id? : Event → Option StmtId
  | .built _ _ _ id => some id
  | .reset _ => none

/-- The number of nodes that were released with an event. -/
def released : Event → Nat
  | .built .. => 0
  | .reset n => n

/-- The number of nodes that were released with all of the events. -/
def totalReleased : List Event → Nat
  | [] => 0
  | e :: events => e.released + totalReleased events

theorem totalReleased_append (events more : List Event) :
    totalReleased (events ++ more) = totalReleased events + totalReleased more := by
  induction events with
  | nil => exact (Nat.zero_add _).symm
  | cons e events ih => rw [List.cons_append, totalReleased, totalReleased, ih, Nat.add_assoc]

end Event

/-- What an operation on an arena reports. -/
def Operation.report [Build] (c : Arena) : Operation → List Event
  | .edit (.node (.request g r)) =>
    [.built (g.getD .selected) r.kind ((g.getD .selected).surface.primitive r.kind) ⟨c.store.size⟩]
  | .edit .reset => [.reset c.store.size]
  | _ => []

namespace Arena

theorem events_step [Build] (c : Arena) (op : Operation) : (c.step op).events = op.report c := by
  cases op with
  | query q => rfl
  | edit e =>
    cases e with
    | node e =>
      cases e with
      | request g r => rw [step_build, Operation.report]
      | _ => rfl
    | intern text => rfl
    | type e => cases e <;> rfl
    | reset => rfl

/-- The node that a request has built stands at the handle that is reported, and is of the kind
asked for. -/
theorem node_step_build [Build] (c : Arena) (g : Option Generation) (r : Request) :
    ∃ node, (c.step (.build g r)).state.store.node ⟨c.store.size⟩ = .ok node ∧
      node.kind = r.kind.nodeKind := by
  have hnode : (c.store.build r.blueprint).1.node (c.store.build r.blueprint).2
      = .ok (c.store.place r.blueprint).2 := NodeStore.node_add _ _
  rw [NodeStore.build_snd] at hnode
  refine ⟨_, ?_, (c.store.kind_place r.blueprint).trans r.kind_blueprint⟩
  rw [step_build]
  exact hnode

/-- What a step releases and what is there after it is what was there before and what it has
added. -/
theorem released_step [Build] (c : Arena) (op : Operation) :
    Event.totalReleased (c.step op).events + (c.step op).state.store.size
      = c.store.size + (c.step op).handle?.toList.length := by
  rw [events_step]
  by_cases hop : op = .edit .reset
  · rw [hop, handle?_step_reset, state_step_reset]
    rfl
  · have hreport : Event.totalReleased (op.report c) = 0 := by
      unfold Operation.report
      split
      · rfl
      · exact absurd rfl hop
      · rfl
    rcases c.handle?_step hop with ⟨hhandle, hsize⟩ | ⟨hhandle, hsize⟩
    · rw [hreport, hhandle, hsize, Nat.zero_add]
      rfl
    · rw [hreport, hhandle, hsize, Nat.zero_add]
      rfl

/-- A node that a step reports is one that it has added. -/
theorem ids_step_sublist [Build] (c : Arena) (op : Operation) :
    ((c.step op).events.filterMap Event.id?).Sublist (c.step op).handle?.toList := by
  rw [events_step]
  unfold Operation.report
  split
  · rename_i g r
    rw [handle?_build]
    exact .refl _
  · exact List.nil_sublist _
  · exact List.nil_sublist _

/-! ## Runs -/

theorem trace_cons [Build] (c : Arena) (op : Operation) (ops : List Operation) :
    c.trace (op :: ops) = (c.step op).events ++ (c.step op).state.trace ops := rfl

/-- The events come in the order of the steps. -/
theorem trace_append [Build] (c : Arena) (ops more : List Operation) :
    c.trace (ops ++ more) = c.trace ops ++ (c.after ops).trace more := by
  induction ops generalizing c with
  | nil => rfl
  | cons op ops ih =>
    rw [List.cons_append, trace_cons, trace_cons, ih, after_cons, List.append_assoc]

/-- What a run has released and what is there after it is what was there before and what it has
added. -/
theorem released_add_size [Build] (c : Arena) (ops : List Operation) :
    Event.totalReleased (c.trace ops) + (c.after ops).store.size
      = c.store.size + (c.allocated ops).length := by
  induction ops generalizing c with
  | nil => exact Nat.zero_add _
  | cons op ops ih =>
    have hstep := c.released_step op
    have hrest := ih (c.step op).state
    rw [trace_cons, after_cons, allocated_cons, Event.totalReleased_append, List.length_append]
    omega

/-- The nodes that are reported are among those that were added, in the same order. -/
theorem ids_sublist_allocated [Build] (c : Arena) (ops : List Operation) :
    ((c.trace ops).filterMap Event.id?).Sublist (c.allocated ops) := by
  induction ops generalizing c with
  | nil => exact .refl []
  | cons op ops ih =>
    rw [trace_cons, allocated_cons, List.filterMap_append]
    exact (c.ids_step_sublist op).append (ih _)

/-- What is reported of an operation is true of it, field by field, and there is nothing else. -/
def Accounted [Build] (c : Arena) : Operation → Prop
  | .edit (.node (.request g r)) =>
    ∃ id node p,
      (c.step (.build g r)).handle? = some id ∧
      (c.step (.build g r)).state.store.node id = .ok node ∧
        p = (g.getD .selected).surface.primitive r.kind ∧
        ((g.getD .selected).surface.construction r).primitive? = some p ∧
        (c.step (.build g r)).events.map Event.fields
          = [[("level", "TRACE"), ("message", "built node"),
              ("generation", (g.getD .selected).name), ("kind", node.kind.name),
              ("primitive", p.name), ("id", id.inspect)]]
  | .edit .reset =>
    (c.step (.edit .reset)).events.map Event.fields
      = [[("level", "DEBUG"), ("message", "node context reset"), ("released", c.store.size.repr)]]
  | op => (c.step op).events = []

theorem accounted [Build] (c : Arena) (op : Operation) : c.Accounted op := by
  have hevents := c.events_step op
  unfold Operation.report at hevents
  unfold Accounted
  split at hevents
  · rename_i g r
    obtain ⟨node, hnode, hkind⟩ := c.node_step_build g r
    refine ⟨_, node, _, c.handle?_build g r, hnode, rfl, Surface.primitive?_construction _ r, ?_⟩
    rw [hevents, hkind]
    rfl
  · rw [hevents]
    rfl
  · exact hevents

/-- **Events are a faithful account of a run.**

* They come in the order of the steps, and what each step reports is true of it: a request tells the
  handle that it has answered, the kind of the node that stands there, the generation and the
  primitive that was used; a reset tells how many nodes it has released; nothing else tells
  anything.
* What was released and what is still there is what was there and what has been added.
* Between resets the handles that are told are strictly increasing. -/
theorem trace_faithful [Build] (c : Arena) (ops : List Operation) :
    (∀ before op after, ops = before ++ op :: after →
      c.trace ops
          = c.trace before ++ ((c.after before).step op).events
            ++ (c.after (before ++ [op])).trace after ∧
        (c.after before).Accounted op) ∧
    Event.totalReleased (c.trace ops) + (c.after ops).store.size
        = c.store.size + (c.allocated ops).length ∧
    ∀ before mid after, ops = before ++ mid ++ after → .edit .reset ∉ mid →
      (((c.after before).trace mid).filterMap Event.id?).Pairwise fun a b => a.index < b.index := by
  refine ⟨?_, c.released_add_size ops, ?_⟩
  · rintro before op after rfl
    refine ⟨?_, accounted _ op⟩
    rw [trace_append, trace_cons, after_append, List.append_assoc]
    rfl
  · rintro before mid after - hmid
    exact (pairwise_allocated _ hmid).sublist (ids_sublist_allocated _ mid)

/-- A node of its own accord, one on request, a refusal, a reset, and one more request. -/
def reported : List Operation :=
  [.edit (.node (.construct (.integerLiteral 5 (.builtin .int) .invalid))),
    .build none (.returnStmt (some ⟨0⟩)), .edit (.node (.addExpr (.nullStmt ⟨.invalid⟩))),
    .edit .reset, .build (some .gen5) (.unary .not ⟨7⟩ (.builtin .int))]

theorem reported_faithful :
    (initial.after (reported.take 4)).Accounted
        (.build (some .gen5) (.unary .not ⟨7⟩ (.builtin .int))) ∧
      Event.totalReleased (initial.trace reported) + (initial.after reported).store.size = 3 ∧
      ((initial.trace (reported.take 3)).filterMap Event.id?).Pairwise
        fun a b => a.index < b.index := by
  obtain ⟨hstep, hbalance, hincreasing⟩ := initial.trace_faithful reported
  refine ⟨(hstep _ _ [] rfl).2, hbalance.trans (by decide +kernel), ?_⟩
  exact hincreasing [] (reported.take 3) (reported.drop 3) rfl (by simp [reported])

end Arena

end SyntaxArena
