import Mathlib.Data.List.DropRight
import SyntaxArena.Shared

/-!
# Shared arenas are recovered once

The owners of a shared arena cannot be told apart by what they do with it: the arena goes through
the same states, and gives the same answers, as if one owner did everything alone. The number of
owners is the number of handles that are alive, so the arena is handed back exactly if the handle
that asks for it is the only one left, and after that there is none.

- `Shared.Transition`: what a step through a handle can lead to. All that follows goes by these
  cases.
- `Shared.performed`: the operations that reach the arena, one at most for each step.
- `Shared.arena_after`, `Shared.answers_of_arena`: they are performed one after the other.
- `Shared.Counted`: there are as many owners as live handles. Every step keeps this.
- `Shared.Held`: a handle was given out and has not been given up, as the answers tell.
- `Shared.Recovers`: what asking for the arena leads to.
- `Shared.behaves_as_single_owner`: all of this after any operations through any handles.
-/

namespace SyntaxArena

/-- The operation on the arena, if there is one. -/
def SharedOperation.onArena? : SharedOperation → Option Operation
  | .locked op => some op
  | _ => none

namespace SharedAnswer

/-- The answer of the arena, if it is one. -/
def ofArena? : SharedAnswer → Option (Except Fault Answer)
  | .answer a => some a
  | _ => none

/-- Whether the handle is given up with this answer. -/
def endsHandle : SharedAnswer → Bool
  | .dropped | .recovered _ => true
  | _ => false

end SharedAnswer

namespace Shared

variable {s : Shared} {h k : Nat}

/-! ## Runs -/

/-- The state after a sequence of operations. -/
def after [Build] (s : Shared) (ops : List (Nat × SharedOperation)) : Shared := (s.run ops).1

/-- The answers to a sequence of operations. -/
def answers [Build] (s : Shared) (ops : List (Nat × SharedOperation)) : List SharedAnswer :=
  (s.run ops).2

theorem after_cons [Build] (s : Shared) (h : Nat) (op : SharedOperation)
    (ops : List (Nat × SharedOperation)) :
    s.after ((h, op) :: ops) = (s.step h op).1.after ops := rfl

theorem answers_cons [Build] (s : Shared) (h : Nat) (op : SharedOperation)
    (ops : List (Nat × SharedOperation)) :
    s.answers ((h, op) :: ops) = (s.step h op).2 :: (s.step h op).1.answers ops := rfl

theorem after_concat [Build] (s : Shared) (ops : List (Nat × SharedOperation)) (h : Nat)
    (op : SharedOperation) : s.after (ops ++ [(h, op)]) = ((s.after ops).step h op).1 := by
  induction ops generalizing s with
  | nil => rfl
  | cons x ops ih => exact ih _

theorem answers_concat [Build] (s : Shared) (ops : List (Nat × SharedOperation)) (h : Nat)
    (op : SharedOperation) :
    s.answers (ops ++ [(h, op)]) = s.answers ops ++ [((s.after ops).step h op).2] := by
  induction ops generalizing s with
  | nil => rfl
  | cons x ops ih => exact congrArg (_ :: ·) (ih _)

theorem length_answers [Build] (s : Shared) (ops : List (Nat × SharedOperation)) :
    (s.answers ops).length = ops.length := by
  induction ops generalizing s with
  | nil => rfl
  | cons x ops ih => exact congrArg Nat.succ (ih _)

/-! ## Steps -/

/-- What a step through a handle can lead to. -/
inductive Transition [Build] (s : Shared) (h : Nat) :
    SharedOperation → Shared × SharedAnswer → Prop where
  | gone (op : SharedOperation) (hh : ¬s.isLive h) : Transition s h op (s, .gone)
  | added (hh : s.isLive h) : Transition s h .addOwner s.addOwner
  | removed (hh : s.isLive h) : Transition s h .removeOwner (s.removeOwner h, .dropped)
  | answered (op : Operation) (hh : s.isLive h) :
      Transition s h (.locked op)
        ({ s with arena := (s.arena.step op).state }, .answer (s.arena.step op).answer)
  | shown (op : SharedOperation) (text : String) (hh : s.isLive h) (hop : op.onArena? = none) :
      Transition s h op (s, .text text)
  | recovered (hh : s.isLive h) (hone : s.owners = 1) :
      Transition s h .recover (s.removeOwner h, .recovered s.arena)
  | refused (hh : s.isLive h) (hone : s.owners ≠ 1) :
      Transition s h .recover (s, .refused s.inspect)

theorem step_of_not_live [Build] (op : SharedOperation) (hh : ¬s.isLive h) :
    s.step h op = (s, .gone) := if_neg hh

/-- A step leads to one of these, and to nothing else. -/
theorem transition_step [Build] (s : Shared) (h : Nat) (op : SharedOperation) :
    s.Transition h op (s.step h op) := by
  by_cases hh : s.isLive h
  · unfold step
    rw [if_pos hh]
    cases op with
    | addOwner => exact .added hh
    | removeOwner => exact .removed hh
    | locked op => exact .answered op hh
    | inspect => exact .shown .inspect _ hh rfl
    | inspectLocked => exact .shown .inspectLocked _ hh rfl
    | recover =>
      unfold recover
      by_cases hone : s.owners = 1
      · rw [if_pos hone]
        exact .recovered hh hone
      · rw [if_neg hone]
        exact .refused hh hone
  · rw [step_of_not_live op hh]
    exact .gone op hh

/-! ## The arena -/

/-- The operation that a step performs on the arena, if there is one: only live handles reach it. -/
def performed? (s : Shared) (h : Nat) (op : SharedOperation) : Option Operation :=
  if s.isLive h then op.onArena? else none

/-- The operations that reach the arena. -/
def performed [Build] (s : Shared) : List (Nat × SharedOperation) → List Operation
  | [] => []
  | (h, op) :: ops => (s.performed? h op).toList ++ (s.step h op).1.performed ops

/-- A step does to the arena what its operation does, and nothing if there is none. The answer of
the arena, if it is asked, is handed on. -/
theorem arena_step [Build] (s : Shared) (h : Nat) (op : SharedOperation) :
    (s.step h op).1.arena = s.arena.after (s.performed? h op).toList ∧
      (s.step h op).2.ofArena?.toList
        = (s.arena.run (s.performed? h op).toList).map (·.answer) := by
  have hstep := s.transition_step h op
  generalize s.step h op = r at hstep ⊢
  rw [performed?]
  cases hstep with
  | gone op hh =>
    rw [if_neg hh]
    exact ⟨rfl, rfl⟩
  | shown op text hh hop =>
    rw [if_pos hh, hop]
    exact ⟨rfl, rfl⟩
  | added hh | removed hh | answered op hh | recovered hh hone | refused hh hone =>
    rw [if_pos hh]
    exact ⟨rfl, rfl⟩

/-- The arena is the one that a single owner would have. -/
theorem arena_after [Build] (s : Shared) (ops : List (Nat × SharedOperation)) :
    (s.after ops).arena = s.arena.after (s.performed ops) := by
  induction ops generalizing s with
  | nil => rfl
  | cons x ops ih =>
    obtain ⟨h, op⟩ := x
    rw [after_cons, ih, (s.arena_step h op).1, performed, Arena.after_append]

/-- The arena answers what it would answer a single owner. -/
theorem answers_of_arena [Build] (s : Shared) (ops : List (Nat × SharedOperation)) :
    (s.answers ops).filterMap SharedAnswer.ofArena?
      = (s.arena.run (s.performed ops)).map (·.answer) := by
  induction ops generalizing s with
  | nil => rfl
  | cons x ops ih =>
    obtain ⟨h, op⟩ := x
    obtain ⟨harena, hanswer⟩ := s.arena_step h op
    have hhead : ((s.step h op).2 :: (s.step h op).1.answers ops).filterMap SharedAnswer.ofArena?
        = (s.step h op).2.ofArena?.toList
          ++ ((s.step h op).1.answers ops).filterMap SharedAnswer.ofArena? := by
      rw [List.filterMap_cons]
      cases (s.step h op).2.ofArena? <;> rfl
    rw [answers_cons, hhead, ih, hanswer, harena, performed]
    -- at most one operation comes first
    cases s.performed? h op <;> rfl

/-! ## Owners and live handles -/

/-- There are as many owners as live handles. -/
def Counted (s : Shared) : Prop := s.owners = s.live.count true

theorem isLive_iff : s.isLive k = true ↔ s.live[k]? = some true := beq_iff_eq

theorem lt_size_of_isLive (hk : s.isLive k) : k < s.live.size :=
  (Array.getElem?_eq_some_iff.1 (isLive_iff.1 hk)).1

theorem isLive_addOwner_iff : s.addOwner.1.isLive k ↔ k = s.live.size ∨ s.isLive k := by
  rw [isLive_iff, isLive_iff]
  change (s.live.push true)[k]? = some true ↔ _
  rw [Array.getElem?_push]
  split <;> simp [*]

theorem isLive_removeOwner_iff : (s.removeOwner h).isLive k ↔ s.isLive k ∧ k ≠ h := by
  rw [isLive_iff, isLive_iff]
  change (s.live.setIfInBounds h false)[k]? = some true ↔ _
  rw [Array.getElem?_setIfInBounds]
  by_cases hk : h = k
  · rw [if_pos hk]
    split <;> simp [hk]
  · rw [if_neg hk]
    simp [Ne.symm hk]

theorem Counted.addOwner (hs : s.Counted) : s.addOwner.1.Counted := by
  change s.owners + 1 = (s.live.push true).count true
  rw [Array.count_push, hs]
  rfl

theorem Counted.removeOwner (hs : s.Counted) (hh : s.isLive h) : (s.removeOwner h).Counted := by
  obtain ⟨hlt, hlive⟩ := Array.getElem?_eq_some_iff.1 (isLive_iff.1 hh)
  change s.owners - 1 = (s.live.setIfInBounds h false).count true
  rw [Array.setIfInBounds_def, dif_pos hlt, Array.count_set, hlive, hs]
  rfl

/-- Every step keeps the number of owners right. -/
theorem Counted.step [Build] (hs : s.Counted) (h : Nat) (op : SharedOperation) :
    (s.step h op).1.Counted := by
  have hstep := s.transition_step h op
  generalize s.step h op = r at hstep ⊢
  cases hstep with
  | added hh => exact hs.addOwner
  | removed hh | recovered hh hone => exact hs.removeOwner hh
  | gone op hh | answered op hh | shown op text hh hop | refused hh hone => exact hs

theorem counted_after [Build] (c : Arena) (ops : List (Nat × SharedOperation)) :
    ((ofArena c).after ops).Counted := by
  -- the run is longer than what is left of it, so the state it goes on from is any that is counted
  have hrun (s : Shared) (hs : s.Counted) : (s.after ops).Counted := by
    induction ops generalizing s with
    | nil => exact hs
    | cons x ops ih => exact ih _ (hs.step x.1 x.2)
  exact hrun (ofArena c) rfl

theorem Counted.owners_eq_zero_iff (hs : s.Counted) : s.owners = 0 ↔ ∀ k, ¬s.isLive k := by
  rw [hs, Array.count_eq_zero, Array.mem_iff_getElem?, not_exists]
  exact forall_congr' fun k => not_congr isLive_iff.symm

/-- A handle has no others beside it exactly if its owner is the only one. -/
theorem Counted.owners_eq_one_iff (hs : s.Counted) (hh : s.isLive h) :
    s.owners = 1 ↔ ∀ k, s.isLive k → k = h := by
  -- the handle is alive, so there is an owner, and the others are those that are left when it has
  -- gone
  have hpos : s.owners ≠ 0 := fun h0 => hs.owners_eq_zero_iff.1 h0 h hh
  have hrest : s.owners - 1 = 0 ↔ ∀ k, ¬(s.removeOwner h).isLive k :=
    (hs.removeOwner hh).owners_eq_zero_iff
  calc s.owners = 1 ↔ s.owners - 1 = 0 := by omega
    _ ↔ ∀ k, ¬(s.removeOwner h).isLive k := hrest
    _ ↔ ∀ k, s.isLive k → k = h := forall_congr' fun k => by rw [isLive_removeOwner_iff]; tauto

/-! ## Handles given out and given up -/

/-- A handle has been given out, by the answers to the operations, and has not been given up. The
first handle is there from the start. -/
def Held (ops : List (Nat × SharedOperation)) (answers : List SharedAnswer) (k : Nat) : Prop :=
  (k = 0 ∨ .handle k ∈ answers) ∧ ∀ x ∈ ops.zip answers, x.1.1 = k → x.2.endsHandle = false

/-- The handles that are live after a step: a new one has come, perhaps, and the one that was used
has gone. -/
theorem isLive_step_iff [Build] (s : Shared) (h : Nat) (op : SharedOperation) (k : Nat) :
    (s.step h op).1.isLive k ↔
      (s.isLive k ∨ (s.step h op).2 = .handle k) ∧
        (h = k → (s.step h op).2.endsHandle = false) := by
  have hstep := s.transition_step h op
  generalize s.step h op = r at hstep ⊢
  cases hstep with
  | added hh =>
    have hnew : s.addOwner.2 = .handle s.live.size := rfl
    rw [isLive_addOwner_iff, hnew, SharedAnswer.handle.injEq, eq_comm, or_comm]
    exact (and_iff_left fun _ => rfl).symm
  | removed hh | recovered hh hone =>
    rw [isLive_removeOwner_iff]
    simp [SharedAnswer.endsHandle, eq_comm (a := k)]
  | answered op hh =>
    change s.isLive k ↔ _
    simp [SharedAnswer.endsHandle]
  | gone op hh | shown op text hh hop | refused hh hone => simp [SharedAnswer.endsHandle]

/-- Handles are given out in the order of their positions. -/
theorem handle_eq_size [Build] {op : SharedOperation} (hk : (s.step h op).2 = .handle k) :
    k = s.live.size := by
  have hstep := s.transition_step h op
  generalize s.step h op = r at hstep hk
  cases hstep with
  | added hh => exact (SharedAnswer.handle.inj hk).symm
  | _ => cases hk

theorem size_le_step [Build] (s : Shared) (h : Nat) (op : SharedOperation) :
    s.live.size ≤ (s.step h op).1.live.size := by
  have hstep := s.transition_step h op
  generalize s.step h op = r at hstep ⊢
  cases hstep with
  | added hh => simp [addOwner]
  | removed hh | recovered hh hone => simp [removeOwner]
  | gone op hh | answered op hh | shown op text hh hop | refused hh hone => exact Nat.le_refl _

/-- Only handles that have been given out are given up. -/
theorem lt_size_of_endsHandle [Build] {ops : List (Nat × SharedOperation)}
    {x : (Nat × SharedOperation) × SharedAnswer} (hx : x ∈ ops.zip (s.answers ops))
    (hends : x.2.endsHandle = true) : x.1.1 < (s.after ops).live.size := by
  induction ops using List.reverseRecOn with
  | nil => cases hx
  | append_singleton ops y ih =>
    obtain ⟨h, op⟩ := y
    rw [answers_concat, List.zip_append (s.length_answers ops).symm, List.mem_append] at hx
    rw [after_concat]
    have hle := (s.after ops).size_le_step h op
    rcases hx with hx | hx
    · exact Nat.lt_of_lt_of_le (ih hx) hle
    · obtain rfl := List.mem_singleton.1 hx
      by_cases hh : (s.after ops).isLive h
      · exact Nat.lt_of_lt_of_le (lt_size_of_isLive hh) hle
      · rw [step_of_not_live op hh] at hends
        cases hends

/-- Exactly the handles are live that have been given out and not given up. -/
theorem isLive_after_iff [Build] (c : Arena) (ops : List (Nat × SharedOperation)) (k : Nat) :
    ((ofArena c).after ops).isLive k ↔ Held ops ((ofArena c).answers ops) k := by
  induction ops using List.reverseRecOn with
  | nil =>
    have hfirst : ((ofArena c).after []).isLive k ↔ k = 0 := by
      rw [isLive_iff]
      cases k <;> simp [after, run, ofArena]
    rw [hfirst]
    simp [Held, answers, run]
  | append_singleton ops y ih =>
    obtain ⟨h, op⟩ := y
    rw [after_concat, isLive_step_iff, ih, answers_concat, Held, Held,
      List.zip_append ((ofArena c).length_answers ops).symm]
    simp only [List.mem_append, List.zip_cons_cons, List.zip_nil_left, List.mem_singleton, or_imp,
      forall_and, forall_eq]
    constructor
    · rintro ⟨⟨hgiven, hkept⟩ | hnew, hends⟩
      · exact ⟨hgiven.imp_right .inl, hkept, hends⟩
      · -- a handle that has just been given out was none before
        refine ⟨.inr (.inr hnew.symm), fun x hx hxk => ?_, hends⟩
        by_contra hx'
        have hlt := lt_size_of_endsHandle hx (Bool.of_not_eq_false hx')
        rw [hxk, handle_eq_size hnew] at hlt
        exact Nat.lt_irrefl _ hlt
    · rintro ⟨hgiven, hkept, hends⟩
      rcases hgiven with hzero | hbefore | hnew
      · exact ⟨.inl ⟨.inl hzero, hkept⟩, hends⟩
      · exact ⟨.inl ⟨.inr hbefore, hkept⟩, hends⟩
      · exact ⟨.inr hnew.symm, hends⟩

/-! ## Recovery -/

/-- Asking for the arena `d` back through a handle hands it out exactly if no other handle is live,
and then none is left. Otherwise the handle comes back and everything is as before. -/
structure Recovers [Build] (s : Shared) (d : Arena) (h : Nat) : Prop where
  succeeds_iff : (s.step h .recover).2 = .recovered d ↔ ∀ k, s.isLive k → k = h
  succeeded : ∀ c, (s.step h .recover).2 = .recovered c →
    c = d ∧ ∀ k, ¬(s.step h .recover).1.isLive k
  refused : (s.step h .recover).2 ≠ .recovered d → s.step h .recover = (s, .refused s.inspect)

theorem Counted.recovers [Build] (hs : s.Counted) (hh : s.isLive h) : s.Recovers s.arena h := by
  have hstep : s.step h .recover
      = if s.owners = 1 then (s.removeOwner h, .recovered s.arena)
        else (s, .refused s.inspect) := by
    rw [Shared.step, if_pos hh]
    rfl
  by_cases hone : s.owners = 1
  · -- the last handle: nobody is left to be alive behind it
    have hlast := (hs.owners_eq_one_iff hh).1 hone
    rw [if_pos hone] at hstep
    constructor
    · rw [hstep]
      exact iff_of_true rfl hlast
    · intro c hc
      rw [hstep] at hc ⊢
      refine ⟨(SharedAnswer.recovered.inj hc).symm, fun k hk => ?_⟩
      obtain ⟨hlive, hne⟩ := isLive_removeOwner_iff.1 hk
      exact hne (hlast k hlive)
    · intro hne
      rw [hstep] at hne
      exact absurd rfl hne
  · -- somebody else is there: nothing is handed out and nothing changes
    have hothers : ¬∀ k, s.isLive k → k = h := mt (hs.owners_eq_one_iff hh).2 hone
    rw [if_neg hone] at hstep
    constructor
    · rw [hstep]
      exact iff_of_false nofun hothers
    · intro c hc
      rw [hstep] at hc
      cases hc
    · exact fun _ => hstep

/-- Where no handle is live, nothing can be done any more. -/
theorem run_of_none_live [Build] (hs : ∀ k, ¬s.isLive k) (ops : List (Nat × SharedOperation)) :
    s.run ops = (s, List.replicate ops.length .gone) := by
  induction ops with
  | nil => rfl
  | cons x ops ih =>
    obtain ⟨h, op⟩ := x
    rw [run, step_of_not_live op (hs h)]
    change ((s.run ops).1, SharedAnswer.gone :: (s.run ops).2) = _
    rw [ih]
    rfl

/-- **Owners act as one, and the arena is recovered once.** After any operations through any
handles:

* the arena is as if a single owner had performed what reached it, and has answered the same;
* there are as many owners as live handles, and those are live that the answers have given out and
  that have not been given up;
* through a handle that is not live nothing happens; through a live one, whichever it is, the arena
  does what it would do for a single owner;
* it is handed back exactly to the only live handle, with all that was done to it, and nothing can
  be done after that; any other handle comes back and changes nothing. -/
theorem behaves_as_single_owner [Build] (c : Arena) (ops : List (Nat × SharedOperation)) :
    let s := (ofArena c).after ops
    let d := c.after ((ofArena c).performed ops)
    s.arena = d ∧
      ((ofArena c).answers ops).filterMap SharedAnswer.ofArena?
        = (c.run ((ofArena c).performed ops)).map (·.answer) ∧
      s.owners = s.live.count true ∧
      (∀ k, s.isLive k ↔ Held ops ((ofArena c).answers ops) k) ∧
      (∀ h op, ¬s.isLive h → s.step h op = (s, .gone)) ∧
      ∀ h, s.isLive h →
        (∀ op, s.step h (.locked op)
          = ({ s with arena := (d.step op).state }, .answer (d.step op).answer)) ∧
        s.step h .inspect = (s, .text ("SharedContext(" ++ d.inspect ++ ")")) ∧
        s.Recovers d h ∧
        ∀ more, (s.step h .recover).2 = .recovered d →
          (s.step h .recover).1.answers more = List.replicate more.length .gone := by
  intro s d
  have hcounted : s.Counted := counted_after c ops
  have harena : s.arena = d := (ofArena c).arena_after ops
  refine ⟨harena, (ofArena c).answers_of_arena ops, hcounted, isLive_after_iff c ops,
    fun h op hh => step_of_not_live op hh, fun h hh => ?_⟩
  have hrecovers : s.Recovers d h := harena ▸ hcounted.recovers hh
  rw [← harena]
  refine ⟨fun op => ?_, ?_, harena ▸ hrecovers, fun more hmore => ?_⟩
  · rw [step, if_pos hh]
    rfl
  · rw [step, if_pos hh]
    rfl
  · rw [harena] at hmore
    exact congrArg Prod.snd (run_of_none_live (hrecovers.succeeded d hmore).2 more)

/-- A second owner interns a text, the first one has a node refused that is no expression, asks for
the arena in vain and gives up. -/
def handover : List (Nat × SharedOperation) :=
  [(0, .addOwner), (1, .locked (.edit (.intern "x"))),
    (0, .locked (.edit (.node (.addExpr (.nullStmt ⟨.invalid⟩))))), (0, .recover),
    (0, .removeOwner)]

theorem handover_recovers :
    let s := (ofArena .initial).after handover
    s.isLive 1 ∧ ¬s.isLive 0 ∧ s.step 0 (.locked (.edit .reset)) = (s, .gone) ∧
      (s.step 1 .recover).2 = .recovered (Arena.initial.apply (.intern "x")).state ∧
      (s.step 1 .recover).1.answers [(1, .recover), (0, .inspect)] = [.gone, .gone] := by
  intro s
  obtain ⟨-, -, -, -, hgone, hlive⟩ := behaves_as_single_owner .initial handover
  have hsecond : s.isLive 1 := rfl
  have hfirst : ¬s.isLive 0 := Bool.false_ne_true
  obtain ⟨-, -, hrecovers, hnothing⟩ := hlive 1 hsecond
  have hlast : ∀ k, s.isLive k → k = 1 := by
    rintro (_ | _ | k) hk
    · exact absurd hk hfirst
    · rfl
    · cases hk
  have hrecovered := hrecovers.succeeds_iff.2 hlast
  exact ⟨hsecond, hfirst, hgone 0 _ hfirst, hrecovered, hnothing _ hrecovered⟩

end Shared

end SyntaxArena
