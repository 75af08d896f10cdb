import SyntaxArena.Operation

/-!
# Sessions

A session works on several arenas side by side. Every step is about one of them; a comparison reads
a second one.

- `SessionStep`: what can be done in a session.
- `Session.step`: one step, with `Session.run` for a sequence.
-/

namespace SyntaxArena

/-- Arenas, told apart by their position. -/
structure Session where
  arenas : Array Arena

/-- A step of a session. -/
inductive SessionStep where
  /-- An operation on an arena. -/
  | on (arena : Nat) (op : Operation)
  /-- Changes to an arena of which only the whole has an answer. -/
  | batch (arena : Nat) (edits : List Edit)
  /-- Whether a node has the same shape as a node of another arena. -/
  | same (arena : Nat) (a : StmtId) (other : Nat) (b : StmtId)
  /-- Asks for events to be reported. They always are, so nothing changes. -/
  | enableEvents

namespace Session

/-- The session with fresh arenas. -/
def fresh (count : Nat) : Session := ⟨Array.replicate count .initial⟩

/-- Replaces an arena by the outcome of an operation on it. -/
def update (s : Session) (arena : Nat) (f : Arena → Outcome Arena) : Option (Outcome Session) :=
  if h : arena < s.arenas.size then
    some ((f s.arenas[arena]).map fun c => ⟨s.arenas.set arena c⟩)
  else none

/-- Performs a step. A step about an arena that the session does not have leads nowhere. -/
def step [Build] (s : Session) : SessionStep → Option (Outcome Session)
  | .on arena op => s.update arena (·.step op)
  | .batch arena edits => s.update arena fun c => ⟨c.applyAll edits, .ok .done, []⟩
  | .same arena a other b => do
    let d ← s.arenas[other]?
    s.update arena (·.step (.query (.same a d b)))
  | .enableEvents => some ⟨s, .ok .done, []⟩

/-- The session after a step. A step that leads nowhere leaves it as it is. -/
def next [Build] (s : Session) (step : SessionStep) : Session := (s.step step).elim s (·.state)

/-- Performs steps one after the other. The outcomes are listed in the same order. -/
def run [Build] (s : Session) : List SessionStep → List (Option (Outcome Session))
  | [] => []
  | step :: steps => s.step step :: run (s.next step) steps

/-- The session after a sequence of steps. -/
def after [Build] (s : Session) (steps : List SessionStep) : Session := steps.foldl next s

end Session

end SyntaxArena
