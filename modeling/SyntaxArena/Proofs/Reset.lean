import SyntaxArena.Session

/-!
# A reset leaves nothing behind

After a reset an arena cannot be told from a fresh one, neither by what is done with it nor by what
is compared with it. In a session, whatever has been done to the arena before might as well be taken
out of the history.

- `Arena.run_reset`: from a reset on, a run is one of a fresh arena.
- `SessionStep.target`, `Session.getElem?_next`: a step changes no arena but its own.
- `Session.withFresh`, `Session.withFresh_after`: what is done to an arena shows in no other arena.
- `Session.reset_forgets`: the outcomes after a reset are those with a fresh arena.
-/

namespace SyntaxArena

namespace Arena

/-- From a reset on, a run is one of a fresh arena. -/
theorem run_reset [Build] (c : Arena) (ops : List Operation) :
    c.run (.edit .reset :: ops)
      = ⟨.initial, .ok .done, [.reset c.store.size]⟩ :: Arena.initial.run ops := by
  rw [run, step, apply, c.reset_eq_initial]

theorem after_reset [Build] (c : Arena) (ops : List Operation) :
    c.after (.edit .reset :: ops) = Arena.initial.after ops := by
  rw [after_cons, state_step_reset]

/-- A text that was known before a reset is named anew. -/
example :
    (Arena.initial.after
      [.edit (.intern "q"), .edit (.intern "p"), .edit .reset, .edit (.intern "p")]).names.keys
      = #["", "p"] := by decide

end Arena

namespace SessionStep

/-- The arena that a step is about. -/
def target : SessionStep → Option Nat
  | .on arena _ => some arena
  | .batch arena _ => some arena
  | .same arena .. => some arena
  | .enableEvents => none

/-- What a step makes of the arena that it is about. -/
def change [Build] : SessionStep → Arena → Arena
  | .on _ op => fun c => (c.step op).state
  | .batch _ edits => (·.applyAll edits)
  | .same .. => id
  | .enableEvents => id

end SessionStep

namespace Session

variable {s t : Session} {k : Nat}

@[ext] theorem ext (h : ∀ j : Nat, s.arenas[j]? = t.arenas[j]?) : s = t :=
  congrArg Session.mk (Array.ext_getElem? fun _ => h _)

/-- The session with a fresh arena in one place. -/
def withFresh (s : Session) (k : Nat) : Session := ⟨s.arenas.setIfInBounds k .initial⟩

theorem getElem?_withFresh (s : Session) (k j : Nat) :
    (s.withFresh k).arenas[j]?
      = if k = j then s.arenas[j]?.map fun _ => .initial else s.arenas[j]? := by
  by_cases h : k = j
  · subst h
    by_cases hk : k < s.arenas.size <;> simp [withFresh, hk]
  · simp [withFresh, h]

/-! ## Steps act on one arena -/

theorem getElem?_update (s : Session) (k j : Nat) (f : Arena → Outcome Arena) :
    ((s.update k f).elim s (·.state)).arenas[j]?
      = if k = j then s.arenas[j]?.map fun c => (f c).state else s.arenas[j]? := by
  unfold update
  by_cases hk : k < s.arenas.size
  · rw [dif_pos hk]
    by_cases h : k = j
    · subst h
      simp [Outcome.map, hk]
    · simp [Outcome.map, h]
  · rw [dif_neg hk]
    by_cases h : k = j
    · subst h
      simp [hk]
    · simp [h]

/-- A step changes the arena that it is about and no other. -/
theorem getElem?_next [Build] (s : Session) (step : SessionStep) (j : Nat) :
    (s.next step).arenas[j]?
      = if step.target = some j then s.arenas[j]?.map step.change else s.arenas[j]? := by
  cases step with
  | on k op =>
    simp only [SessionStep.target, Option.some.injEq]
    exact s.getElem?_update k j (·.step op)
  | batch k edits =>
    simp only [SessionStep.target, Option.some.injEq]
    exact s.getElem?_update k j fun c => ⟨c.applyAll edits, .ok .done, []⟩
  | same k a other b =>
    -- a comparison changes nothing, even if one of its arenas is missing
    have hsame : (s.next (.same k a other b)).arenas[j]? = s.arenas[j]? := by
      rw [next, Session.step]
      cases s.arenas[other]? with
      | none => rfl
      | some d =>
        rw [Option.bind_eq_bind, Option.bind_some, getElem?_update]
        simp
    rw [hsame]
    simp [SessionStep.change]
  | enableEvents => rfl

/-- A step about the arena does not outlast it. -/
theorem withFresh_next_of_target [Build] {step : SessionStep} (h : step.target = some k) :
    (s.next step).withFresh k = s.withFresh k := by
  ext j
  rw [getElem?_withFresh, getElem?_withFresh, getElem?_next, h]
  by_cases hj : k = j
  · subst hj
    simp [Function.comp_def]
  · simp [hj]

/-- A step about another arena does the same beside a fresh one. -/
theorem withFresh_next [Build] {step : SessionStep} (h : step.target ≠ some k) :
    (s.next step).withFresh k = (s.withFresh k).next step := by
  ext j
  rw [getElem?_withFresh, getElem?_next, getElem?_next, getElem?_withFresh]
  by_cases hj : k = j
  · subst hj
    simp [h]
  · simp [hj]

/-- Whatever is done to an arena shows in no other one: for those it has been fresh all the time. -/
theorem withFresh_after [Build] (s : Session) (k : Nat) (history : List SessionStep) :
    (s.after history).withFresh k = (s.withFresh k).after (history.filter (·.target ≠ some k)) := by
  induction history generalizing s with
  | nil => rfl
  | cons step history ih =>
    rw [after, List.foldl_cons, ← after, ih]
    by_cases h : step.target = some k
    · rw [withFresh_next_of_target h, List.filter_cons_of_neg (by simpa using h)]
    · rw [withFresh_next h, List.filter_cons_of_pos (by simpa using h)]
      rfl

/-! ## Resets -/

/-- A reset puts a fresh arena in the place of the old one. -/
theorem step_reset [Build] (s : Session) (k : Nat) :
    s.step (.on k (.edit .reset))
      = s.arenas[k]?.map fun c => ⟨s.withFresh k, .ok .done, [.reset c.store.size]⟩ := by
  rw [Session.step, update]
  by_cases hk : k < s.arenas.size
  · simp [hk, Outcome.map, withFresh, Array.setIfInBounds, Arena.step, Arena.apply,
      Arena.reset_eq_initial]
  · simp [hk]

theorem next_reset [Build] (s : Session) (k : Nat) :
    s.next (.on k (.edit .reset)) = s.withFresh k := by
  ext j
  rw [getElem?_next, getElem?_withFresh]
  simp [SessionStep.target, SessionStep.change]

/-- **A reset leaves nothing behind.** From a reset on, an arena does at every step what a fresh one
does: the same answers, faults and events, and it comes to the same state. The other arenas of a
session cannot tell either, whichever of them is compared with it: everything goes on as if the
steps before the reset that were about the arena had never been made. -/
theorem reset_forgets [Build] (s : Session) (k : Nat) (history steps : List SessionStep) :
    (∀ (c : Arena) (ops : List Operation),
      c.run (.edit .reset :: ops)
          = ⟨.initial, .ok .done, [.reset c.store.size]⟩ :: Arena.initial.run ops ∧
        c.after (.edit .reset :: ops) = Arena.initial.after ops) ∧
    (s.after history).run (.on k (.edit .reset) :: steps)
      = ((s.after history).arenas[k]?.map fun c =>
          ⟨(s.after history).withFresh k, .ok .done, [.reset c.store.size]⟩) ::
        ((s.withFresh k).after (history.filter (·.target ≠ some k))).run steps ∧
    (s.after history).after (.on k (.edit .reset) :: steps)
      = ((s.withFresh k).after (history.filter (·.target ≠ some k))).after steps := by
  refine ⟨fun c ops => ⟨c.run_reset ops, c.after_reset ops⟩, ?_, ?_⟩
  · rw [run, step_reset, next_reset, withFresh_after]
  · rw [after, List.foldl_cons, next_reset, withFresh_after]
    rfl

end Session

end SyntaxArena
