import SyntaxArena.Proofs.Queries

/-!
# Disciplined runs

A caller is disciplined when it passes to an arena nothing but what the arena has handed out since
it was last reset. Empty lists, the empty name and the builtin types are free, since they are always
there.

- `Ledger`: an arena with a record of what it has handed out.
- `Reference.Allowed`: what may be passed on.
- `Ledger.Disciplined`: in every operation of a sequence nothing else is passed on.
- `Ledger.Sound.step`, `Ledger.Sound.run`: then the arena stays well formed and has all that is on
  record.
- `DisciplinedRun.wellFormed_and_answers`: so nothing that may be asked goes without an answer.
-/

namespace SyntaxArena

/-! ## Records -/

/-- What an operation hands out. -/
def Outcome.handedOut (o : Outcome Arena) : List Reference :=
  match o.answer with
  | .ok a => a.references
  | .error _ => []

/-- An arena and what it has handed out since its last reset. -/
structure Ledger where
  arena : Arena
  issued : List Reference

namespace Ledger

/-- A fresh arena has handed out nothing. -/
def initial : Ledger := ⟨.initial, []⟩

/-- The part of the record that outlasts an operation. -/
def kept (l : Ledger) : Operation → List Reference
  | .edit .reset => []
  | _ => l.issued

/-- Performs an operation and puts on record what it hands out. -/
def step [Build] (l : Ledger) (op : Operation) : Ledger where
  arena := (l.arena.step op).state
  issued := l.kept op ++ (l.arena.step op).handedOut

/-- Performs operations one after the other. -/
def run [Build] (l : Ledger) (ops : List Operation) : Ledger := ops.foldl step l

theorem run_cons [Build] (l : Ledger) (op : Operation) (ops : List Operation) :
    l.run (op :: ops) = (l.step op).run ops := rfl

/-- Keeping a record does not interfere with the arena. -/
theorem arena_run [Build] (l : Ledger) (ops : List Operation) :
    (l.run ops).arena = l.arena.after ops := by
  induction ops generalizing l with
  | nil => rfl
  | cons op ops ih =>
    rw [run_cons, Arena.after_cons]
    exact ih (l.step op)

end Ledger

/-! ## Discipline -/

/-- What may be passed on: what is on record, an expression also where any node is meant, and what
is there in every arena. -/
def Reference.Allowed (issued : List Reference) : Reference → Prop
  | .expr id => .expr id ∈ issued
  | .stmt id => .stmt id ∈ issued ∨ .expr id.toExpr ∈ issued
  | .exprSegment s => s = .empty ∨ .exprSegment s ∈ issued
  | .stmtSegment s => s = .empty ∨ .stmtSegment s ∈ issued
  | .name n => n = .empty ∨ .name n ∈ issued
  | .type id => id.index < TypeId.firstCompound ∨ .type id ∈ issued

instance (issued : List Reference) : DecidablePred (Reference.Allowed issued)
  | .expr _ => inferInstanceAs (Decidable (_ ∈ _))
  | .stmt _ | .exprSegment _ | .stmtSegment _ | .name _ | .type _ =>
    inferInstanceAs (Decidable (_ ∨ _))

namespace Ledger

/-- Every operation is passed only what may be passed on by then. -/
def Disciplined [Build] : Ledger → List Operation → Prop
  | _, [] => True
  | l, op :: ops => (∀ r ∈ op.references, r.Allowed l.issued) ∧ Disciplined (l.step op) ops

instance decidableDisciplined [Build] :
    (l : Ledger) → (ops : List Operation) → Decidable (l.Disciplined ops)
  | _, [] => inferInstanceAs (Decidable True)
  | l, op :: ops =>
    have := decidableDisciplined (l.step op) ops
    inferInstanceAs
      (Decidable ((∀ r ∈ op.references, r.Allowed l.issued) ∧ (l.step op).Disciplined ops))

/-! ## What discipline keeps -/

/-- The arena is well formed and has all that is on record. -/
structure Sound (l : Ledger) : Prop where
  wellFormed : l.arena.WellFormed
  has : ∀ r ∈ l.issued, l.arena.Has r

theorem sound_initial : initial.Sound where
  wellFormed := Arena.wellFormed_initial
  has _ hr := absurd hr List.not_mem_nil

namespace Sound

variable {l : Ledger}

/-- The arena has what may be passed on. -/
theorem has_of_allowed (h : l.Sound) {r : Reference} (hr : r.Allowed l.issued) : l.arena.Has r := by
  cases r with
  | expr id => exact h.has _ hr
  | stmt id =>
    rcases hr with hr | hr
    · exact h.has _ hr
    · exact (h.has _ hr).stmt
  | exprSegment s =>
    rcases hr with rfl | hr
    · show 0 ≤ l.arena.store.exprLists.size
      exact Nat.zero_le _
    · exact h.has _ hr
  | stmtSegment s =>
    rcases hr with rfl | hr
    · show 0 ≤ l.arena.store.stmtLists.size
      exact Nat.zero_le _
    · exact h.has _ hr
  | name n =>
    rcases hr with rfl | hr
    · exact h.wellFormed.emptyName
    · exact h.has _ hr
  | type id =>
    rcases hr with hr | hr
    · obtain ⟨b, rfl⟩ := BuiltinType.exists_typeId hr
      exact ⟨_, h.wellFormed.builtins b⟩
    · exact h.has _ hr

/-- What stays on record stays in the arena. A reset leaves nothing on record. -/
theorem has_of_kept [Build] (h : l.Sound) {op : Operation} {r : Reference} (hr : r ∈ l.kept op) :
    (l.arena.step op).state.Has r := by
  cases op with
  | query q => exact h.has r hr
  | edit e =>
    cases e with
    | reset => cases hr
    | node e => exact (h.has r hr).of_extends (l.arena.extends_apply nofun)
    | intern text => exact (h.has r hr).of_extends (l.arena.extends_apply nofun)
    | type e => exact (h.has r hr).of_extends (l.arena.extends_apply nofun)

/-- **One operation.** Where it is passed only what is allowed, the arena stays well formed and has
what is on record afterwards. -/
theorem step [Build] (h : l.Sound) {op : Operation}
    (hop : ∀ r ∈ op.references, r.Allowed l.issued) : (l.step op).Sound := by
  have hargs : ∀ r ∈ op.references, l.arena.Has r := fun r hr => h.has_of_allowed (hop r hr)
  have hout : Arena.Sound (l.arena.step op) := h.wellFormed.sound_step hargs
  refine ⟨hout.state, ?_⟩
  intro r hr
  rcases List.mem_append.1 hr with hold | hnew
  · exact h.has_of_kept hold
  · unfold Outcome.handedOut at hnew
    split at hnew
    · rename_i a ha
      exact hout.answer a ha r hnew
    · cases hnew

/-- Any number of operations. -/
theorem run [Build] (h : l.Sound) {ops : List Operation} (hops : l.Disciplined ops) :
    (l.run ops).Sound := by
  induction ops generalizing l with
  | nil => exact h
  | cons op ops ih =>
    obtain ⟨hop, hrest⟩ := hops
    rw [run_cons]
    exact ih (h.step hop) hrest

end Sound

end Ledger

/-! ## Disciplined runs -/

/-- A run from a fresh arena in which nothing is passed on but what is allowed. -/
structure DisciplinedRun [Build] where
  ops : List Operation
  disciplined : Ledger.initial.Disciplined ops

namespace DisciplinedRun

/-- The arena after the run. -/
def arena [Build] (x : DisciplinedRun) : Arena := Arena.initial.after x.ops

/-- What the arena has handed out since its last reset. -/
def issued [Build] (x : DisciplinedRun) : List Reference := (Ledger.initial.run x.ops).issued

/-- What may be passed on after the run. -/
def Allows [Build] (x : DisciplinedRun) (r : Reference) : Prop := r.Allowed x.issued

/-- A query about what is allowed, which for a comparison with another arena has to be one that a
disciplined run has led to as well. -/
def MayAsk [Build] (x : DisciplinedRun) (q : Query) : Prop :=
  (∀ r ∈ q.references, x.Allows r) ∧
    ∀ a other b, q = .same a other b → ∃ y : DisciplinedRun, y.arena = other ∧ y.Allows (.stmt b)

theorem sound [Build] (x : DisciplinedRun) : Ledger.Sound ⟨x.arena, x.issued⟩ := by
  have h := Ledger.sound_initial.run x.disciplined
  have harena : (Ledger.initial.run x.ops).arena = x.arena := Ledger.arena_run _ _
  exact ⟨harena ▸ h.wellFormed, fun r hr => harena ▸ h.has r hr⟩

/-- **Discipline suffices.** After a disciplined run the arena is well formed and has everything
that it has handed out. While the tables stay within their limits, no handle that was handed out is
the invalid one, and whatever may be asked has an answer. -/
theorem wellFormed_and_answers [Build] (x : DisciplinedRun) :
    x.arena.WellFormed ∧
      (∀ r, x.Allows r → x.arena.Has r) ∧
      (x.arena.WithinLimits →
        (∀ r ∈ x.issued, ∀ id ∈ r.node?, id.isValid = true) ∧
          ∀ q, x.MayAsk q → ∃ a, x.arena.ask q = .ok a) := by
  have hsound := x.sound
  refine ⟨hsound.wellFormed, fun r hr => hsound.has_of_allowed hr, fun hlimits => ⟨?_, ?_⟩⟩
  · intro r hr id hid
    exact hlimits.isValid (hsound.has r hr) hid
  · rintro q ⟨hq, hother⟩
    refine hsound.wellFormed.exists_ask hlimits (fun r hr => hsound.has_of_allowed (hq r hr)) ?_
    intro a other b hsame
    obtain ⟨y, rfl, hb⟩ := hother a other b hsame
    exact ⟨y.sound.wellFormed, y.sound.has_of_allowed hb⟩

/-- A name, a pointer to it read through, and a block made in two steps of a list and a node. A
reset stands at the beginning. -/
def sample : DisciplinedRun where
  ops :=
    [.edit (.intern "old"), .edit .reset, .edit (.intern "p"),
      .edit (.type (.pointer (.builtin .int))),
      .edit (.node (.construct
        (.declRef { name := ⟨1⟩, type := { id := ⟨8⟩ }, loc := .invalid } .lvalue .invalid))),
      .edit (.node (.request (some .gen4) (.unary .deref ⟨0⟩ (.builtin .int)))),
      .query (.children ⟨1⟩), .edit (.node (.addStmtList [⟨1⟩, ⟨0⟩])),
      .edit (.node (.add
        (.compound { body := ⟨0, 2⟩, lbraceLoc := .invalid, rbraceLoc := .invalid })))]
  disciplined := by decide +kernel

theorem sample_answers :
    sample.arena.WithinLimits ∧ sample.MayAsk (.same ⟨2⟩ sample.arena ⟨1⟩) ∧
      sample.arena.Has (.stmt ⟨2⟩) ∧
      ∃ a, sample.arena.ask (.same ⟨2⟩ sample.arena ⟨1⟩) = .ok a := by
  have hlimits : sample.arena.WithinLimits :=
    ⟨by decide +kernel, by decide +kernel, by decide +kernel, by decide +kernel, by decide +kernel⟩
  have hallowed : sample.Allows (.stmt ⟨2⟩) ∧ sample.Allows (.stmt ⟨1⟩) := by
    unfold Allows
    decide +kernel
  have hask : sample.MayAsk (.same ⟨2⟩ sample.arena ⟨1⟩) := by
    refine ⟨?_, ?_⟩
    · intro r hr
      obtain rfl := List.mem_singleton.1 hr
      exact hallowed.1
    · rintro a other b ⟨⟩
      exact ⟨sample, rfl, hallowed.2⟩
  obtain ⟨-, hhas, hanswers⟩ := sample.wellFormed_and_answers
  exact ⟨hlimits, hask, hhas _ hallowed.1, (hanswers hlimits).2 _ hask⟩

end DisciplinedRun

end SyntaxArena
