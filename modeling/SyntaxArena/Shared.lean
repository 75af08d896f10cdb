import SyntaxArena.Operation

/-!
# Shared arenas

An arena can be shared among several owners. Every owner has a handle to the one arena; the arena is
handed back to the last of them.

- `Shared`: the arena, the number of owners, and which of the handles given out are alive.
- `Shared.addOwner`, `Shared.removeOwner`: a further owner, one owner less.
- `Shared.locked`: an operation on the arena while it is locked. A fault does not spoil the lock.
- `Shared.recover`: the arena itself, for an owner that has no others beside it.

A handle that is no longer alive can do nothing.

The counter and the lock are not modelled further than this. What is assumed of them:

- the counter is the number of handles: another handle adds one (`Shared.addOwner`), giving one up
  takes one away (`Shared.removeOwner`), and the arena is handed out exactly if the counter is one
  (`Shared.recover`);
- operations under the lock exclude each other, each finds the arena as the one before left it, and
  a fault under the lock leaves it open for the next (`Shared.locked`).
-/

namespace SyntaxArena

/-- An arena with several owners. -/
structure Shared where
  arena : Arena
  /-- Number of owners. -/
  owners : Nat
  /-- For every handle given out, whether it is alive. -/
  live : Array Bool

/-- What a shared arena answers. -/
inductive SharedAnswer where
  /-- The handle is not alive. -/
  | gone
  /-- A new handle. -/
  | handle (position : Nat)
  /-- The handle was given up. -/
  | dropped
  /-- The answer of the arena. -/
  | answer (answer : Except Fault Answer)
  /-- The arena as inspection shows it. -/
  | text (text : String)
  /-- The arena, handed back to its last owner. -/
  | recovered (arena : Arena)
  /-- Other owners are left. Here is the handle again, as inspection shows it. -/
  | refused (text : String)

/-- An operation on a shared arena. -/
inductive SharedOperation where
  | addOwner
  /-- Gives the handle up. -/
  | removeOwner
  | locked (op : Operation)
  /-- Inspects the shared arena, which locks it for the moment. -/
  | inspect
  /-- Inspects the shared arena while it is locked. -/
  | inspectLocked
  | recover

namespace Shared

/-- An arena with its first owner. -/
def ofArena (c : Arena) : Shared := ⟨c, 1, #[true]⟩

/-- Whether a handle is alive. -/
def isLive (s : Shared) (handle : Nat) : Bool := s.live[handle]? == some true

/-- The shared arena as inspection shows it. -/
def inspect (s : Shared) : String := "SharedContext(" ++ s.arena.inspect ++ ")"

/-- The shared arena as inspection shows it while it is locked. -/
def inspectLocked : String := "SharedContext(<locked>)"

/-- Adds an owner, whose handle is the next one. -/
def addOwner : Shared → Shared × SharedAnswer
  | ⟨arena, owners, live⟩ =>
    let position := live.size
    (⟨arena, owners + 1, live.push true⟩, .handle position)

/-- Removes the owner with the given handle. -/
def removeOwner : Shared → Nat → Shared
  | ⟨arena, owners, live⟩, handle => ⟨arena, owners - 1, live.setIfInBounds handle false⟩

/-- Performs an operation on the locked arena. -/
def locked [Build] : Shared → Operation → Shared × SharedAnswer
  | ⟨arena, owners, live⟩, op =>
    let o := arena.step op
    (⟨o.state, owners, live⟩, .answer o.answer)

/-- Hands the arena back if it has no other owner, and the handle otherwise. -/
def recover (s : Shared) (handle : Nat) : Shared × SharedAnswer :=
  if s.owners = 1 then (s.removeOwner handle, .recovered s.arena) else (s, .refused s.inspect)

/-- Performs an operation through a handle. -/
def step [Build] (s : Shared) (handle : Nat) (op : SharedOperation) : Shared × SharedAnswer :=
  if s.isLive handle then
    match op with
    | .addOwner => s.addOwner
    | .removeOwner => (s.removeOwner handle, .dropped)
    | .locked op => s.locked op
    | .inspect => (s, .text s.inspect)
    | .inspectLocked => (s, .text inspectLocked)
    | .recover => s.recover handle
  else (s, .gone)

/-- Performs operations one after the other, each through a handle of its own. -/
def run [Build] (s : Shared) : List (Nat × SharedOperation) → Shared × List SharedAnswer
  | [] => (s, [])
  | (handle, op) :: ops =>
    let (s, answer) := s.step handle op
    let (s, answers) := run s ops
    (s, answer :: answers)

end Shared

end SyntaxArena
