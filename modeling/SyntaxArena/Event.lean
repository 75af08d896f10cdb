import SyntaxArena.Generation.Surface

/-!
# Events

What an arena reports while it works: each node built on request, and each reset. Other operations
are silent.
-/

namespace SyntaxArena

/-- Something an arena reports. -/
inductive Event where
  /-- A node was built on request, through a primitive of a generation. -/
  | built (generation : Generation) (kind : RequestKind) (primitive : Primitive) (id : StmtId)
  /-- An arena was reset, and released this many nodes. -/
  | reset (released : Nat)
deriving DecidableEq

namespace Event

/-- Level at which the event is reported. -/
def level : Event → String
  | .built .. => "TRACE"
  | .reset _ => "DEBUG"

/-- What the event says. -/
def message : Event → String
  | .built .. => "built node"
  | .reset _ => "node context reset"

/-- Level, message and further fields of the event, as names and texts. -/
def fields (e : Event) : List (String × String) :=
  [("level", e.level), ("message", e.message)] ++
    match e with
    | .built generation kind primitive id =>
      [("generation", generation.name), ("kind", kind.name), ("primitive", primitive.name),
       ("id", id.inspect)]
    | .reset released => [("released", released.repr)]

end Event

end SyntaxArena
