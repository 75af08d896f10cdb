import Mathlib.Data.List.Forall2
import SyntaxArena.Operation

/-!
# Generations are interchangeable

A request leaves open which generation answers it, and the generations differ in the primitives that
they choose. Nothing but the reported choice depends on it.

- `Request.blueprint`: the node that a request asks for, with the canonical defaults.
- `Surface.blueprint_construction`: every surface answers a request with that node. All else in this
  module rests on it.
- `assign`: operations with their requests made through given generations, each request through its
  own.
- `Outcome.Agree`: outcomes that differ in nothing but the generation and the primitive of their
  events.
- `run_independent_of_generation`: whatever the generations, a run has the same answers, states and
  events, up to `Event.Agree`.
-/

namespace SyntaxArena

/-! ## What a request asks for -/

/-- The node that a request asks for. What the request does not name has its canonical default. -/
def Request.blueprint : Request → Blueprint
  | .unary op operand type =>
    .unary { op, operand, info := .prvalue type, opLoc := .invalid, canOverflow := false }
  | .binary op lhs rhs type =>
    .binary { op, lhs, rhs, info := .prvalue type, opLoc := .invalid, fpOptions := .initial }
  | .ifStmt cond thenBranch =>
    .ifStmt
      { ifLoc := .invalid, isConstexpr := false, init := none, condVar := none, cond, thenBranch,
        elseLoc := .invalid, elseBranch := none }
  | .whileStmt cond body => .whileStmt { condVar := none, cond, body, whileLoc := .invalid }
  | .returnStmt value => .returnStmt { returnLoc := .invalid, value, nrvoCandidate := none }
  | .compound stmts => .compound { body := stmts, lbraceLoc := .invalid, rbraceLoc := .invalid }
  | .call callee args type =>
    .call { callee, args, info := .prvalue type, rparenLoc := .invalid }

@[simp] theorem Request.args_blueprint (r : Request) : r.blueprint.args = r.args := by
  cases r <;> rfl

@[simp] theorem Request.body_blueprint (r : Request) : r.blueprint.body = r.body := by
  cases r <;> rfl

/-- Every surface answers a request with the node asked for, through whichever primitive: the
defaults that a surface fills in are those that a primitive without the argument would have filled
in. -/
theorem Surface.blueprint_construction (s : Surface) (r : Request) :
    (s.construction r).blueprint = r.blueprint := by
  obtain ⟨unary, binary, ifStmt, whileStmt, returnStmt, compound, call⟩ := s
  cases r with
  | unary op operand type => cases unary <;> rfl
  | binary op lhs rhs type =>
    -- here the flag and the options meet: no contraction is the same in both
    cases binary <;> rfl
  | ifStmt cond thenBranch => cases ifStmt <;> rfl
  | whileStmt cond body => cases whileStmt <;> rfl
  | returnStmt value => cases returnStmt <;> rfl
  | compound stmts => cases compound <;> rfl
  | call callee args type => cases call <;> rfl

/-- What a construction adds to a store depends on its blueprint alone. -/
theorem NodeStore.construct_eq (s : NodeStore) (c : Construction) :
    s.construct c = ((s.build c.blueprint).1, c.blueprint.ref (s.build c.blueprint).2) := rfl

/-- A request adds the node asked for, through whichever generation. -/
theorem NodeStore.construct_construction (s : NodeStore) (g : Generation) (r : Request) :
    s.construct (g.surface.construction r)
      = ((s.build r.blueprint).1, r.blueprint.ref (s.build r.blueprint).2) := by
  rw [construct_eq, Surface.blueprint_construction]

/-! ## Agreement up to the choice of primitives -/

namespace Event

/-- The fields of an event that do not tell how its node was built. -/
def commonFields (e : Event) : List (String × String) :=
  e.fields.filter fun f => f.1 ≠ "generation" ∧ f.1 ≠ "primitive"

/-- Two events have the same fields in the same order, and the same values in all of them but
perhaps the generation and the primitive. -/
structure Agree (e f : Event) : Prop where
  names : e.fields.map Prod.fst = f.fields.map Prod.fst
  common : e.commonFields = f.commonFields

theorem Agree.refl (e : Event) : e.Agree e := ⟨rfl, rfl⟩

/-- The events of one node agree, whatever it was built through. -/
theorem agree_built (g h : Generation) (k : RequestKind) (p q : Primitive) (id : StmtId) :
    (built g k p id).Agree (built h k q id) where
  names := rfl
  common := by simp [commonFields, fields, level, message]

end Event

namespace Outcome

variable {σ τ : Type}

/-- Two outcomes have the same state and the same answer, and their events agree one by one. -/
structure Agree (o p : Outcome σ) : Prop where
  state : o.state = p.state
  answer : o.answer = p.answer
  events : List.Forall₂ Event.Agree o.events p.events

theorem Agree.refl (o : Outcome σ) : o.Agree o where
  state := rfl
  answer := rfl
  events := List.forall₂_same.2 fun e _ => Event.Agree.refl e

theorem Agree.map {o p : Outcome σ} (f : σ → τ) (h : o.Agree p) : (o.map f).Agree (p.map f) where
  state := congrArg f h.state
  answer := h.answer
  events := h.events

end Outcome

/-! ## One operation -/

/-- The operation with its request, if it is one, made through the given generation. -/
def Operation.through (g : Option Generation) : Operation → Operation
  | .edit (.node (.request _ r)) => .edit (.node (.request g r))
  | op => op

/-- A store answers a request alike through any two generations. -/
theorem NodeStore.apply_request_agree [Build] (s : NodeStore) (r : Request)
    (g h : Option Generation) : (s.apply (.request g r)).Agree (s.apply (.request h r)) := by
  have hg := s.construct_construction (g.getD .selected) r
  have hh := s.construct_construction (h.getD .selected) r
  have heq := hg.trans hh.symm
  refine ⟨congrArg Prod.fst heq, ?_, ?_⟩
  · exact congrArg (fun x => Except.ok (Answer.built x.2)) heq
  · simp only [apply, heq]
    exact .cons (Event.agree_built _ _ _ _ _ _) .nil

/-- An operation has the same outcome through any two generations, up to the choice of
primitives. -/
theorem Arena.step_through_agree [Build] (c : Arena) (op : Operation) (g h : Option Generation) :
    (c.step (op.through g)).Agree (c.step (op.through h)) := by
  obtain ⟨store, names, types⟩ := c
  unfold Operation.through
  split
  · rename_i r
    exact (store.apply_request_agree r g h).map (fun s => (⟨s, names, types⟩ : Arena))
  · exact Outcome.Agree.refl _

/-! ## Runs -/

/-- Operations with every request made through the generation that is given for its position. -/
def assign (g : Nat → Option Generation) (ops : List Operation) : List Operation :=
  ops.mapIdx fun i op => op.through (g i)

theorem assign_cons (g : Nat → Option Generation) (op : Operation) (ops : List Operation) :
    assign g (op :: ops) = op.through (g 0) :: assign (fun i => g (i + 1)) ops :=
  List.mapIdx_cons

namespace Arena

/-- What is reported in the course of a sequence of operations. -/
def trace [Build] (c : Arena) (ops : List Operation) : List Event := (c.run ops).flatMap (·.events)

/-- The outcomes of a run agree one by one through any generations. The arena does not depend on
them either, so the rest of the run starts from the same one. -/
theorem run_assign_agree [Build] (c : Arena) (ops : List Operation)
    (g h : Nat → Option Generation) :
    List.Forall₂ Outcome.Agree (c.run (assign g ops)) (c.run (assign h ops)) := by
  induction ops generalizing c g h with
  | nil => exact .nil
  | cons op ops ih =>
    rw [assign_cons, assign_cons]
    have hstep := c.step_through_agree op (g 0) (h 0)
    refine .cons hstep ?_
    rw [hstep.state]
    exact ih _ _ _

theorem after_assign_eq [Build] (c : Arena) (ops : List Operation) (g h : Nat → Option Generation) :
    c.after (assign g ops) = c.after (assign h ops) := by
  induction ops generalizing c g h with
  | nil => rfl
  | cons op ops ih =>
    rw [assign_cons, assign_cons, after_cons, after_cons,
      (c.step_through_agree op (g 0) (h 0)).state]
    exact ih _ _ _

/-- **Generations are interchangeable.** Whatever generations the requests of a run are made
through, and whatever arena it starts from: every operation gets the same answer and leaves the same
arena, so does the run as a whole, and the same is reported, up to the generations and the
primitives that are named. -/
theorem run_independent_of_generation [Build] (c : Arena) (ops : List Operation)
    (g h : Nat → Option Generation) :
    List.Forall₂ Outcome.Agree (c.run (assign g ops)) (c.run (assign h ops)) ∧
      c.after (assign g ops) = c.after (assign h ops) ∧
      List.Forall₂ Event.Agree (c.trace (assign g ops)) (c.trace (assign h ops)) := by
  have hrun := c.run_assign_agree ops g h
  refine ⟨hrun, c.after_assign_eq ops g h, ?_⟩
  exact List.rel_flatMap hrun fun _ _ hagree => hagree.events

end Arena

end SyntaxArena
