import SyntaxArena.Location
import Mathlib.Data.List.Infix
import Mathlib.Order.Fin.Basic
import Mathlib.Order.MinMax

/-!
# Hulls of ranges

Ranges that are merged one with another come to the hull of them all, whichever are merged first. An
end that is invalid is passed over, so that the begins and the ends are two lists of offsets, and
what is left of each is its least or its greatest member.

- `Span.hull`: from the smallest valid begin of some ranges to their largest valid end.
- `Span.hull_append`: the hulls of two lists are merged to the hull of both.
- `Span.hull_congr`: a hull depends on no more than which ranges there are, the invalid one left
  aside.
- `Span.mergings_eq_hulls`: ranges merged one after the other.
- `Location.Encodes`: which number stands for which location.
- `Span.pick`: how two encoded ends are merged, by their numbers alone.
- `Bracketing`: the ways to merge some ranges, as binary trees.
- `Bracketing.encoded_eq`: the numbers go along with the ranges.
- `Span.merges_to_hull`: all ways lead to the hull, and their numbers to its encoding.
-/

namespace SyntaxArena

namespace Span

/-! ## Least and greatest offsets -/

theorem least_eq_min (a b : Offset) : least a b = min a b := by
  rw [min_def]
  rfl

theorem greatest_eq_max (a b : Offset) : greatest a b = max a b := by
  rw [max_def]
  rfl

section LinearOrder

variable {α : Type} [LinearOrder α]

theorem min?_append (as bs : List α) : (as ++ bs).min? = Option.merge min as.min? bs.min? := by
  cases as with
  | nil => cases bs <;> rfl
  | cons a as =>
    cases bs with
    | nil => rw [List.append_nil]; rfl
    | cons b bs =>
      simp only [List.cons_append, List.min?_cons', List.foldl_append, List.foldl_cons,
        List.foldl_assoc]
      rfl

theorem max?_append (as bs : List α) : (as ++ bs).max? = Option.merge max as.max? bs.max? :=
  min?_append (α := OrderDual α) as bs

end LinearOrder

/-! ## Hulls -/

/-- From the smallest valid begin of some ranges to their largest valid end. An end is invalid if it
is so in all of them. -/
def hull (l : List Span) : Span where
  start := ⟨(l.filterMap (·.start.offset?)).min?⟩
  stop := ⟨(l.filterMap (·.stop.offset?)).max?⟩

variable {l m : List Span}

@[simp] theorem hull_singleton (r : Span) : hull [r] = r := by
  obtain ⟨⟨_ | a⟩, ⟨_ | b⟩⟩ := r <;> rfl

/-- The hulls of two lists are merged to the hull of both. -/
theorem hull_append (l m : List Span) : hull (l ++ m) = (hull l).merge (hull m) := by
  have hleast : least = min := funext₂ least_eq_min
  have hgreatest : greatest = max := funext₂ greatest_eq_max
  simp only [hull, merge, List.filterMap_append, min?_append, max?_append, hleast, hgreatest]

/-- A hull depends on no more than which ranges there are, and not on the invalid one. -/
theorem hull_congr (h : ∀ r, r ≠ .invalid → (r ∈ l ↔ r ∈ m)) : hull l = hull m := by
  have hends {f : Span → Option Offset} (hf : f .invalid = none) (a : Offset) :
      a ∈ l.filterMap f ↔ a ∈ m.filterMap f := by
    simp only [List.mem_filterMap]
    refine exists_congr fun r => and_congr_left fun ha => h r ?_
    -- a range with an offset at this end is not the invalid one
    rintro rfl
    rw [hf] at ha
    cases ha
  have hstart : (l.filterMap (·.start.offset?)).min? = (m.filterMap (·.start.offset?)).min? := by
    refine Option.ext fun a => ?_
    simp only [List.min?_eq_some_iff, hends (f := (·.start.offset?)) rfl]
  have hstop : (l.filterMap (·.stop.offset?)).max? = (m.filterMap (·.stop.offset?)).max? := by
    refine Option.ext fun a => ?_
    simp only [List.max?_eq_some_iff, hends (f := (·.stop.offset?)) rfl]
  rw [hull, hull, hstart, hstop]

theorem hull_perm (h : l.Perm m) : hull l = hull m := hull_congr fun _ _ => h.mem_iff

theorem hull_invalid_cons (l : List Span) : hull (.invalid :: l) = hull l :=
  hull_congr fun _ hr => List.mem_cons.trans (or_iff_right hr)

theorem hull_cons_of_mem {r : Span} (h : r ∈ l) : hull (r :: l) = hull l :=
  hull_congr fun _ _ => List.mem_cons.trans (or_iff_right_of_imp fun hs => hs ▸ h)

/-! ## One after the other -/

theorem mergings_go (l m : List Span) :
    mergings.go (hull l) m = m.inits.map fun p => hull (l ++ p) := by
  induction m generalizing l with
  | nil => simp [mergings.go]
  | cons s m ih =>
    -- the range so far is the hull of `l`, and the next one that of `l` and `s`
    have hstep : (hull l).merge s = hull (l ++ [s]) := by rw [hull_append, hull_singleton]
    rw [mergings.go, hstep, ih, List.inits_cons, List.map_cons, List.append_nil, List.map_map]
    simp only [Function.comp_def, List.append_assoc, List.singleton_append]

/-- Each of the successive results is the hull of the ranges up to there. -/
theorem mergings_eq_hulls (l : List Span) : mergings l = l.inits.tail.map hull := by
  cases l with
  | nil => rfl
  | cons r l =>
    rw [mergings, ← hull_singleton r, mergings_go, hull_singleton, List.inits_cons, List.tail_cons,
      List.map_map]
    rfl

end Span

/-! ## Encodings -/

namespace Location

/-- A number stands for a location: zero for the invalid one, and for the one at an offset the
number after it. -/
inductive Encodes : Nat → Location → Prop where
  | invalid : Encodes 0 .invalid
  | offset {offset : Nat} {l : Location} (h : ofOffset offset = .ok l) : Encodes (offset + 1) l

/-- The encoding of a location stands for this location and for no other. -/
theorem encodes_raw_iff {l m : Location} : m.Encodes l.raw ↔ m = l := by
  have hraw {n : Nat} (h : m.Encodes n) : m.raw = n := by
    cases h with
    | invalid => rfl
    | offset h =>
      unfold ofOffset at h
      split at h <;> cases h
      rfl
  constructor
  · intro h
    exact raw_injective (hraw h)
  · rintro rfl
    obtain ⟨_ | offset⟩ := m
    · exact .invalid
    · exact .offset (dif_pos offset.isLt)

end Location

namespace Span

/-- One end of a merge by the encodings of the two ends. Zero gives way, and where neither number is
zero the function decides. -/
def pick (f : Nat → Nat → Nat) (a b : Nat) : Nat :=
  if a = 0 then b
  else if b = 0 then a
  else f a b

theorem raw_start_merge (r s : Span) :
    (r.merge s).start.raw = pick min r.start.raw s.start.raw := by
  -- both begins invalid, the first, the second, and none
  obtain ⟨⟨_ | a⟩, _⟩ := r <;> obtain ⟨⟨_ | b⟩, _⟩ := s <;>
    simp only [merge, Location.raw, Option.merge]
  · rfl
  · rfl
  · rfl
  · simp [pick, least_eq_min]

theorem raw_stop_merge (r s : Span) : (r.merge s).stop.raw = pick max r.stop.raw s.stop.raw := by
  obtain ⟨_, ⟨_ | a⟩⟩ := r <;> obtain ⟨_, ⟨_ | b⟩⟩ := s <;>
    simp only [merge, Location.raw, Option.merge]
  · rfl
  · rfl
  · rfl
  · simp [pick, greatest_eq_max]

end Span

/-! ## In any order -/

/-- A way to merge ranges: which are merged with each other first, and which of the results then. -/
inductive Bracketing where
  | range (r : Span)
  | merge (left right : Bracketing)

namespace Bracketing

/-- The ranges from left to right. -/
def ranges : Bracketing → List Span
  | .range r => [r]
  | .merge left right => left.ranges ++ right.ranges

/-- What the ranges are merged to. -/
def result : Bracketing → Span
  | .range r => r
  | .merge left right => left.result.merge right.result

/-- The numbers that the encoded begins and the encoded ends are merged to. -/
def encoded : Bracketing → Nat × Nat
  | .range r => (r.start.raw, r.stop.raw)
  | .merge left right =>
    (Span.pick min left.encoded.1 right.encoded.1, Span.pick max left.encoded.2 right.encoded.2)

/-- Encoded or not, merges come to the same. -/
theorem encoded_eq (b : Bracketing) : b.encoded = (b.result.start.raw, b.result.stop.raw) := by
  induction b with
  | range r => rfl
  | merge left right ihl ihr =>
    rw [encoded, result, ihl, ihr, Span.raw_start_merge, Span.raw_stop_merge]

theorem result_eq_hull (b : Bracketing) : b.result = Span.hull b.ranges := by
  induction b with
  | range r => exact (Span.hull_singleton r).symm
  | merge left right ihl ihr => rw [result, ranges, ihl, ihr, Span.hull_append]

end Bracketing

namespace Span

/-- **Ranges are merged to their hull.** However the ranges of a list are ordered and their merges
bracketed, the result begins at the smallest valid begin and ends at the largest valid end, where
there is one, and merges of the encoded ends come to numbers that stand for the two ends of the
result and nothing else. To merge the invalid range or one of the ranges once more, at any place,
changes nothing. -/
theorem merges_to_hull (l : List Span) :
    ∃ h : Span, h.start.offset? = (l.filterMap (·.start.offset?)).min? ∧
      h.stop.offset? = (l.filterMap (·.stop.offset?)).max? ∧
      ∀ b : Bracketing,
        (∀ p : Location, p.Encodes b.encoded.1 ↔ p = b.result.start) ∧
        (∀ p : Location, p.Encodes b.encoded.2 ↔ p = b.result.stop) ∧
        (b.ranges.Perm l → b.result = h) ∧
        (b.ranges.Perm (.invalid :: l) → b.result = h) ∧
        ∀ r ∈ l, b.ranges.Perm (r :: l) → b.result = h := by
  refine ⟨hull l, rfl, rfl,
    fun b => ⟨fun p => ?_, fun p => ?_, fun hb => ?_, fun hb => ?_, fun r hr hb => ?_⟩⟩
  · rw [b.encoded_eq, Location.encodes_raw_iff]
  · rw [b.encoded_eq, Location.encodes_raw_iff]
  · rw [b.result_eq_hull, hull_perm hb]
  · rw [b.result_eq_hull, hull_perm hb, hull_invalid_cons]
  · rw [b.result_eq_hull, hull_perm hb, hull_cons_of_mem hr]

/-- Three ranges and the invalid one between them. One range ends before it begins, one ends at the
last offset there is, and one begins at the first; the other ends of these two are invalid. -/
def halves : Bracketing :=
  .merge (.range ⟨⟨some 7⟩, ⟨some 3⟩⟩)
    (.merge (.merge (.range ⟨.invalid, ⟨some 4294967294⟩⟩) (.range .invalid))
      (.range ⟨⟨some 0⟩, .invalid⟩))

theorem halves_merge_to_hull :
    halves.ranges.Perm
      (.invalid :: [⟨⟨some 0⟩, .invalid⟩, ⟨.invalid, ⟨some 4294967294⟩⟩, ⟨⟨some 7⟩, ⟨some 3⟩⟩]) ∧
      halves.result = ⟨⟨some 0⟩, ⟨some 4294967294⟩⟩ ∧
      Location.Encodes halves.encoded.2 ⟨some 4294967294⟩ := by
  have hranges : halves.ranges.Perm
      (.invalid :: [⟨⟨some 0⟩, .invalid⟩, ⟨.invalid, ⟨some 4294967294⟩⟩, ⟨⟨some 7⟩, ⟨some 3⟩⟩]) :=
    by decide
  obtain ⟨⟨⟨start⟩, ⟨stop⟩⟩, hstart, hstop, hmerged⟩ := merges_to_hull
    [⟨⟨some 0⟩, .invalid⟩, ⟨.invalid, ⟨some 4294967294⟩⟩, ⟨⟨some 7⟩, ⟨some 3⟩⟩]
  obtain rfl : start = some 0 := hstart
  obtain rfl : stop = some 4294967294 := hstop
  obtain ⟨-, hencoded, -, hresult, -⟩ := hmerged halves
  have hhull := hresult hranges
  exact ⟨hranges, hhull, (hencoded _).2 (congrArg Span.stop hhull).symm⟩

end Span

end SyntaxArena
