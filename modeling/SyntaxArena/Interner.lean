import SyntaxArena.Fault

/-!
# Interners

An interner gives every key a number: its position among the distinct keys, in the order of their
first arrival. Beside the table of the keys it keeps a map from the keys to their numbers, by which
a key that arrives again is recognised.

- `Interner`: the keys, no two of them equal, and the map of their numbers.
- `Interner.intern`: the number of a key, which is added at the end when it is new.
- `Interner.get`: the key with a number, or the fault that there is none.
- `Interner.clear`: the interner without its keys, so that numbers are given out from zero again.
- `Interner.keys_intern` and `Interner.get_intern`: what interning does to the keys, and that it can
  be undone.
-/

namespace SyntaxArena

/-- Distinct keys with their numbers. -/
structure Interner (α : Type) where
  /-- The keys in the order of their first arrival. -/
  keys : Array α
  /-- The number of each key, the last arrival first. -/
  numbers : List (α × Nat)
  distinct : keys.toList.Nodup
  /-- Table and map agree. -/
  numbered : numbers = keys.toList.zipIdx.reverse
deriving DecidableEq

namespace Interner

variable {α : Type}

/-- The map is told by the table. -/
@[ext] theorem ext {s t : Interner α} (h : s.keys = t.keys) : s = t := by
  obtain ⟨_, _, _, rfl⟩ := s
  obtain ⟨_, _, _, rfl⟩ := t
  cases h
  rfl

/-- The interner without keys. -/
def empty : Interner α where
  keys := #[]
  numbers := []
  distinct := List.nodup_nil
  numbered := rfl

/-- Number of keys. -/
def size (t : Interner α) : Nat := t.keys.size

/-- The key with the given number. -/
def get (t : Interner α) (index : Nat) : Except Fault α := lookup t.keys index

/-- Forgets all keys and keeps the room they had. The map has to be emptied with the table: a key
that it still knew would get a number that no longer leads anywhere. -/
def clear : Interner α → Interner α
  | ⟨keys, _, _, _⟩ => ⟨keys.shrink 0, [], by simp, by simp⟩

@[simp] theorem clear_eq (t : Interner α) : t.clear = .empty :=
  ext (by simp [clear, empty, Array.shrink_eq_take])

theorem mem_numbers_iff {t : Interner α} {a : α} {i : Nat} :
    (a, i) ∈ t.numbers ↔ t.keys[i]? = some a := by
  rw [t.numbered, List.mem_reverse, List.mk_mem_zipIdx_iff_getElem?, Array.getElem?_toList]

variable [DecidableEq α]

/-- The number of a key that has arrived. -/
def index? (t : Interner α) (a : α) : Option Nat := t.numbers.lookup a

theorem index?_eq_none_iff {t : Interner α} {a : α} : t.index? a = none ↔ a ∉ t.keys.toList := by
  rw [index?, List.lookup_eq_none_iff]
  constructor
  · intro h ha
    obtain ⟨i, hi⟩ := List.mem_iff_getElem?.1 ha
    rw [Array.getElem?_toList] at hi
    simpa using h _ (mem_numbers_iff.2 hi)
  · rintro h ⟨b, i⟩ hb
    have hmem : b ∈ t.keys.toList :=
      Array.mem_toList_iff.2 (Array.mem_of_getElem? (mem_numbers_iff.1 hb))
    exact bne_iff_ne.2 fun hab => h (hab ▸ hmem)

/-- A number belongs to the key that stands there. -/
theorem index?_eq_some_iff {t : Interner α} {a : α} {i : Nat} :
    t.index? a = some i ↔ t.keys[i]? = some a := by
  have hfound {j : Nat} (h : t.index? a = some j) : t.keys[j]? = some a := by
    obtain ⟨before, after, hsplit, -⟩ := List.lookup_eq_some_iff.1 h
    exact mem_numbers_iff.1 (hsplit ▸ List.mem_append_right before List.mem_cons_self)
  refine ⟨hfound, fun h => ?_⟩
  have hmem : a ∈ t.keys.toList := Array.mem_toList_iff.2 (Array.mem_of_getElem? h)
  obtain ⟨j, hj⟩ := Option.ne_none_iff_exists'.1 fun hnone => index?_eq_none_iff.1 hnone hmem
  rw [hj]
  have hj := hfound hj
  rw [← Array.getElem?_toList] at h hj
  exact congrArg some
    ((List.getElem?_inj (List.getElem?_eq_some_iff.1 hj).1 t.distinct).1 (hj.trans h.symm))

/-- The interner with a new key at the end. There is no last number: where numbers have 32 bits,
they are enough for the first 4294967296 keys. -/
def push (t : Interner α) (a : α) (h : a ∉ t.keys.toList) : Interner α where
  keys := t.keys.push a
  numbers := (a, t.keys.size) :: t.numbers
  distinct := by
    rw [Array.toList_push, List.nodup_append]
    refine ⟨t.distinct, by simp, ?_⟩
    intro b hb c hc hbc
    rw [List.mem_singleton] at hc
    exact h (hc ▸ hbc ▸ hb)
  numbered := by
    rw [t.numbered, Array.toList_push, List.zipIdx_append, List.reverse_append]
    simp

/-- The number of a key. A key that has not arrived before gets the next number. -/
def intern (t : Interner α) (a : α) : Interner α × Nat :=
  match h : t.index? a with
  | some i => (t, i)
  | none =>
    let next := t.keys.size
    (t.push a (index?_eq_none_iff.1 h), next)

theorem intern_of_index? {t : Interner α} {a : α} {i : Nat} (h : t.index? a = some i) :
    t.intern a = (t, i) := by
  unfold intern
  split <;> simp_all

theorem intern_of_not_mem {t : Interner α} {a : α} (h : a ∉ t.keys.toList) :
    t.intern a = (t.push a h, t.size) := by
  unfold intern
  split
  · rename_i i hi
    rw [index?_eq_none_iff.2 h] at hi
    contradiction
  · rfl

/-- Interning appends a new key and changes nothing for an old one. -/
theorem keys_intern (t : Interner α) (a : α) :
    (t.intern a).1.keys.toList
      = if a ∈ t.keys.toList then t.keys.toList else t.keys.toList ++ [a] := by
  split
  · rename_i h
    cases hi : t.index? a with
    | none => exact absurd h (index?_eq_none_iff.1 hi)
    | some i => rw [intern_of_index? hi]
  · rename_i h
    rw [intern_of_not_mem h]
    simp [push]

/-- The number that a key gets leads back to the key. -/
theorem get_intern (t : Interner α) (a : α) : (t.intern a).1.get (t.intern a).2 = .ok a := by
  unfold get
  rw [lookup_eq_ok_iff]
  cases hi : t.index? a with
  | some i =>
    rw [intern_of_index? hi]
    exact index?_eq_some_iff.1 hi
  | none =>
    rw [intern_of_not_mem (index?_eq_none_iff.1 hi)]
    simp [push, size]

/-- Interning changes no key that could be read before. -/
theorem get_intern_of_get {t : Interner α} {a b : α} {i : Nat} (h : t.get i = .ok b) :
    (t.intern a).1.get i = .ok b := by
  unfold get at *
  rw [lookup_eq_ok_iff] at *
  by_cases ha : a ∈ t.keys.toList
  · cases hi : t.index? a with
    | none => exact absurd ha (index?_eq_none_iff.1 hi)
    | some j => rwa [intern_of_index? hi]
  · rw [intern_of_not_mem ha]
    obtain ⟨hi, rfl⟩ := Array.getElem?_eq_some_iff.1 h
    simp [push, Array.getElem?_push, Nat.ne_of_lt hi]

end Interner

end SyntaxArena
