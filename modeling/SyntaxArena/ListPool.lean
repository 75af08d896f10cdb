import SyntaxArena.Fault

/-!
# List pools

The lists that nodes hold are stored end to end in one array, and a node keeps the segment of its
own list.

- `Segment`: where a list starts in a pool, and its length.
- `ListPool`: the storage, with `ListPool.add`, `ListPool.read` and `ListPool.clear`.
- `ListPool.HasRoom`: whether 32 bits are enough for the segment that a list gets.
- `ListPool.read_add`: a list that was added is read back from its segment.
- `ListPool.read_add_of_read`: adding a list changes no list that was there.
-/

namespace SyntaxArena

/-! ## Segments -/

/-- A run of entries in a pool of `α`. -/
structure Segment (α : Type) where
  /-- Position of the first entry. -/
  start : Nat
  /-- Number of entries. -/
  len : Nat
deriving DecidableEq

namespace Segment

variable {α : Type}

/-- The segment of every empty list. -/
def empty : Segment α := ⟨0, 0⟩

/-- Whether the segment has no entries. -/
def isEmpty (s : Segment α) : Bool := s.len == 0

/-- The position after the last entry. -/
def stop (s : Segment α) : Nat := s.start + s.len

/-- Start and length are numbers of 32 bits. -/
def Fits (s : Segment α) : Prop := s.start < 4294967296 ∧ s.len < 4294967296

/-- The segment as inspection shows it, under the name given. The position after the last entry has
to fit into 32 bits. -/
def inspect (name : String) (s : Segment α) : Except Fault String :=
  if s.stop < 4294967296 then .ok s!"{name}({s.start.repr}..{s.stop.repr})"
  else .error .rangeOverflow

end Segment

/-- A segment of expression handles as inspection shows it. -/
def inspectExprs (s : Segment ExprId) : Except Fault String := s.inspect "ExprRange"

/-- A segment of node handles as inspection shows it. -/
def inspectStmts (s : Segment StmtId) : Except Fault String := s.inspect "StmtRange"

/-! ## Pools -/

/-- Lists stored end to end. -/
structure ListPool (α : Type) where
  /-- The entries of all lists, in the order in which the lists were added. -/
  entries : Array α := #[]
deriving DecidableEq

namespace ListPool

variable {α : Type}

/-- Number of entries of all lists together. -/
def size (p : ListPool α) : Nat := p.entries.size

/-- There is room for a list: its start and its length are numbers of 32 bits. There always is room
for an empty list. -/
def HasRoom (p : ListPool α) (l : List α) : Prop :=
  l = [] ∨ p.size < 4294967296 ∧ l.length < 4294967296

/-- Stores a list and returns its segment. An empty list takes no room and gets the empty segment.
The pool itself has no end; `HasRoom` tells up to where its segments fit into 32 bits. -/
def add (p : ListPool α) : List α → ListPool α × Segment α
  | [] => (p, .empty)
  | l@(_ :: _) =>
    let start := p.entries.size
    (⟨p.entries ++ l⟩, ⟨start, l.length⟩)

/-- The entries of a segment, which has to lie inside the storage, even when it is empty. The fault
says which of the two storages the pool is. -/
def read (p : ListPool α) (storage : ListKind) (s : Segment α) : Except Fault (List α) :=
  if s.stop ≤ p.entries.size then .ok (p.entries.extract s.start s.stop).toList
  else .error (.sliceOutOfRange storage p.entries.size s.stop)

/-- Drops all entries and keeps the room they had. -/
def clear : ListPool α → ListPool α
  | ⟨entries⟩ => ⟨entries.shrink 0⟩

@[simp] theorem clear_eq (p : ListPool α) : p.clear = {} := by
  simp [clear, Array.shrink_eq_take]

@[simp] theorem add_nil (p : ListPool α) : p.add [] = (p, .empty) := rfl

/-- Adding a list puts it behind the entries that were there. -/
@[simp] theorem toList_entries_add (p : ListPool α) (l : List α) :
    (p.add l).1.entries.toList = p.entries.toList ++ l := by
  cases l with
  | nil => simp
  | cons a l => simp [add]

@[simp] theorem size_add (p : ListPool α) (l : List α) : (p.add l).1.size = p.size + l.length := by
  have h := congrArg List.length (toList_entries_add p l)
  rwa [List.length_append, Array.length_toList, Array.length_toList] at h

/-- There is room for a list exactly if its segment fits into 32 bits. -/
theorem fits_add_iff {p : ListPool α} {l : List α} : (p.add l).2.Fits ↔ p.HasRoom l := by
  cases l with
  | nil => simp [HasRoom, Segment.Fits, Segment.empty]
  | cons a l => simp [HasRoom, Segment.Fits, add, size]

theorem read_eq_ok_iff {p : ListPool α} {storage : ListKind} {s : Segment α} {l : List α} :
    p.read storage s = .ok l ↔
      s.stop ≤ p.size ∧ l = (p.entries.toList.drop s.start).take s.len := by
  unfold read size
  split
  · rename_i h
    simp only [Except.ok.injEq, h, true_and, Array.toList_extract, List.extract_eq_take_drop]
    rw [Segment.stop, Nat.add_sub_cancel_left]
    exact eq_comm
  · simp [*]

/-- The empty segment holds the empty list, in every pool. -/
@[simp] theorem read_empty (p : ListPool α) (storage : ListKind) :
    p.read storage .empty = .ok [] := by
  simp [read_eq_ok_iff, Segment.empty, Segment.stop]

/-- A list that was added is read back from its segment. -/
theorem read_add (p : ListPool α) (storage : ListKind) (l : List α) :
    (p.add l).1.read storage (p.add l).2 = .ok l := by
  cases l with
  | nil => simp
  | cons a l =>
    rw [read_eq_ok_iff, size_add, toList_entries_add]
    simp [add, Segment.stop, size]

/-- Adding a list changes no list that could be read before. -/
theorem read_add_of_read {p : ListPool α} {storage : ListKind} {s : Segment α} {l : List α}
    (m : List α) (h : p.read storage s = .ok l) : (p.add m).1.read storage s = .ok l := by
  rw [read_eq_ok_iff] at *
  obtain ⟨hs, rfl⟩ := h
  refine ⟨by rw [size_add]; omega, ?_⟩
  rw [toList_entries_add, List.drop_append_of_le_length, List.take_append_of_le_length]
  all_goals
    simp only [Segment.stop, size, List.length_drop, Array.length_toList] at *
    omega

end ListPool

end SyntaxArena
