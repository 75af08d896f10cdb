import SyntaxArena.Text.Numeral

/-!
# Source locations

- `Location`: a byte offset in the source text, or no location at all, which is what nodes carry
  that were not written by anyone.
- `Location.ofOffset`: refuses an offset that leaves no room in the 32-bit encoding.
- `Span`: a begin and an end, and `Span.merge`, the least range that covers two.
-/

namespace SyntaxArena

/-! ## Locations -/

/-- Byte offsets that can be encoded. The encoding is the offset plus one in 32 bits, so that zero
is left for the invalid location. -/
abbrev Offset := Fin 4294967295

/-- So that numerals can stand for offsets, by the same instance wherever they are written. -/
instance Offset.neZero : @NeZero Nat Zero.ofOfNat0 4294967295 := Nat.instNeZeroSucc

/-- An offset too large to be encoded. -/
structure OffsetError where
  offset : Nat
deriving DecidableEq

/-- The wording of an offset error. -/
def OffsetError.message (e : OffsetError) : String :=
  s!"source offset {e.offset.repr} (0x{Numeral.hex e.offset}) " ++
    "exceeds the encodable maximum (0xFFFFFFFE)"

/-- A place in the source text, if there is one. -/
structure Location where
  /-- The byte offset, `none` for the invalid location. -/
  offset? : Option Offset
deriving DecidableEq

namespace Location

/-- The location of nodes without source text. -/
def invalid : Location := ⟨none⟩

/-- The location at a byte offset. -/
def ofOffset (offset : Nat) : Except OffsetError Location :=
  if h : offset < 4294967295 then .ok ⟨some ⟨offset, h⟩⟩ else .error ⟨offset⟩

/-- Whether there is a place. -/
def isValid (l : Location) : Bool := l.offset?.isSome

/-- The 32-bit encoding: the offset plus one, or zero. -/
def raw (l : Location) : Nat :=
  match l.offset? with
  | some offset => offset.val + 1
  | none => 0

/-- Distinct locations are encoded differently. -/
theorem raw_injective {l m : Location} (h : l.raw = m.raw) : l = m := by
  obtain ⟨_ | a⟩ := l <;> obtain ⟨_ | b⟩ := m <;> simp only [raw] at h
  · rfl
  · omega
  · omega
  · rw [Fin.ext (Nat.succ.inj h)]

/-- The location as outlines and inspection show it. -/
def text (l : Location) : String :=
  match l.offset? with
  | some offset => "@" ++ offset.val.repr
  | none => "<invalid sloc>"

end Location

/-! ## Ranges -/

/-- A pair of locations. -/
structure Span where
  start : Location
  stop : Location
deriving DecidableEq

namespace Span

/-- The range with no location at either end. -/
def invalid : Span := ⟨.invalid, .invalid⟩

/-- Whether both ends are valid. -/
def isValid (r : Span) : Bool := r.start.isValid && r.stop.isValid

/-- The smaller of two offsets. -/
def least (a b : Offset) : Offset := if a.val ≤ b.val then a else b

/-- The larger of two offsets. -/
def greatest (a b : Offset) : Offset := if a.val ≤ b.val then b else a

/-- The least range that covers both. An end that is invalid on one side is taken from the other. -/
def merge (r s : Span) : Span where
  start := ⟨Option.merge least r.start.offset? s.start.offset?⟩
  stop := ⟨Option.merge greatest r.stop.offset? s.stop.offset?⟩

/-- The first range, then each result of merging it with one more. -/
def mergings : List Span → List Span
  | [] => []
  | r :: rs => go r rs
where
  /-- The range so far, followed by its mergings with the others. -/
  go (r : Span) : List Span → List Span
    | [] => [r]
    | s :: rs => r :: go (r.merge s) rs

/-- The range as outlines and inspection show it. -/
def text (r : Span) : String := "<" ++ r.start.text ++ ", " ++ r.stop.text ++ ">"

end Span

end SyntaxArena
