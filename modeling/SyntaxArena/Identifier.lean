import SyntaxArena.Interner

/-!
# Names

Identifiers are interned per arena. A name is the number of its text there and means nothing in
another arena; the empty text has number zero everywhere.
-/

namespace SyntaxArena

/-- An interned identifier. -/
structure Identifier where
  /-- The number of its text. -/
  index : Nat
deriving DecidableEq

namespace Identifier

/-- The name of the empty text. -/
def empty : Identifier := ⟨0⟩

/-- The name as inspection shows it. -/
def inspect (n : Identifier) : String := s!"Name({n.index.repr})"

end Identifier

/-- The texts of names. -/
abbrev IdentifierTable := Interner String

namespace IdentifierTable

/-- The name of a text. -/
def add (t : IdentifierTable) (text : String) : IdentifierTable × Identifier :=
  let (t, index) := t.intern text
  (t, ⟨index⟩)

/-- Names the empty text. -/
def seed (t : IdentifierTable) : IdentifierTable := (t.add "").1

/-- The table of a fresh arena: the empty text alone. -/
def initial : IdentifierTable := seed .empty

/-- Forgets all names. The empty text is the first to be named again. -/
def reset (t : IdentifierTable) : IdentifierTable := seed t.clear

/-- A table that has been reset is that of a fresh arena. -/
theorem reset_eq_initial (t : IdentifierTable) : t.reset = initial := congrArg seed t.clear_eq

/-- The text of a name. -/
def text (t : IdentifierTable) (n : Identifier) : Except Fault String := t.get n.index

/-- The empty name has the empty text from the start. -/
theorem text_initial_empty : initial.text .empty = .ok "" := rfl

end IdentifierTable

end SyntaxArena
