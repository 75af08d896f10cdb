/-!
# Generations

The interface for building nodes has changed from one major version to the next. A generation is one
such interface; each is named after the major version that brought it.

- `Generation`: the five of them, with `Generation.major` and its inverse `Generation.ofMajor?`.
- `Build`: what is decided once for a whole build, the generation that is used where none is asked
  for. Whatever runs operations is stated for every build.
-/

namespace SyntaxArena

/-- A generation of the construction interface. -/
inductive Generation where
  | gen4 | gen5 | gen6 | gen7 | gen8
deriving DecidableEq

namespace Generation

/-- Every generation, oldest first. -/
def all : List Generation := [.gen4, .gen5, .gen6, .gen7, .gen8]

def oldest : Generation := .gen4

def newest : Generation := .gen8

/-- The major version that brought the generation. -/
def major : Generation → Nat
  | .gen4 => 4
  | .gen5 => 5
  | .gen6 => 6
  | .gen7 => 7
  | .gen8 => 8

/-- The generation of a major version. -/
def ofMajor? : Nat → Option Generation
  | 4 => some .gen4
  | 5 => some .gen5
  | 6 => some .gen6
  | 7 => some .gen7
  | 8 => some .gen8
  | _ => none

theorem ofMajor?_eq_some_iff {major : Nat} {g : Generation} :
    ofMajor? major = some g ↔ g.major = major := by
  constructor
  · intro h
    unfold ofMajor? at h
    split at h <;> cases h <;> rfl
  · rintro rfl
    cases g <;> rfl

theorem ofMajor?_eq_none_iff {major : Nat} : ofMajor? major = none ↔ ¬(4 ≤ major ∧ major ≤ 8) := by
  constructor
  · rintro h ⟨h4, h8⟩
    have hm : major = 4 ∨ major = 5 ∨ major = 6 ∨ major = 7 ∨ major = 8 := by omega
    rcases hm with rfl | rfl | rfl | rfl | rfl <;> cases h
  · intro h
    cases hg : ofMajor? major with
    | none => rfl
    | some g =>
      rw [← ofMajor?_eq_some_iff.1 hg] at h
      exact absurd (by cases g <;> decide) h

/-- Name of the generation. -/
def name (g : Generation) : String := "gen" ++ g.major.repr

/-- The generation as inspection shows it. -/
def inspect (g : Generation) : String := "Gen" ++ g.major.repr

end Generation

/-! ## Builds -/

/-- A build selects one generation, for callers that name none. -/
class Build where
  generation : Generation

/-- The build for which nothing else is asked selects the newest generation. -/
instance Build.standard : Build := ⟨.newest⟩

/-- The generation that is used where none is asked for. -/
def Generation.selected [Build] : Generation := Build.generation

end SyntaxArena
