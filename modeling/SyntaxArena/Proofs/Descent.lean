import Mathlib.Data.List.Nodup
import Mathlib.Data.List.Perm.Subperm
import Mathlib.Logic.Relation

/-!
# Descents

Nodes refer to nodes and types to types, and every recursion over them goes down along such a
relation with a bound on the depth. This is the theory of such bounds, for any relation.

- `Within r n a`: every way down from `a` along `r` ends in less than `n` steps.
- `Acyclic r a`: no cycle lies below `a`.
- `Grounded r P a`: no cycle lies below `a`, and everything below `a` is as `P` says.
- `Grounded.of_descending`: numbers that go down at every step leave no room for a cycle.
- `Grounded.within`: when what is below `a` can be told apart by numbers below `n`, every way down
  from `a` ends in less than `n` steps, since no way down comes to the same place twice.
- `Acyclic.within`: when only the places that have something below them can be told apart like that,
  one step more is needed for the place without anything below it at which a way down ends.
- `Recursion.iff_grounded`: a recursion with that bound succeeds exactly where there is no cycle
  below and nothing fails by itself.
- `Layered.iff`: with depth enough for every result, the bound no longer shows in what a recursion
  results in.
-/

namespace SyntaxArena

open Relation

variable {α : Type}

/-! ## Bounds on the depth -/

/-- Every way down from `a` along `r` ends in less than `n` steps. -/
def Within (r : α → α → Prop) : Nat → α → Prop
  | 0, _ => False
  | n + 1, a => ∀ b, r a b → Within r n b

namespace Within

variable {r : α → α → Prop} {m n : Nat} {a b : α}

theorem mono (hmn : m ≤ n) (h : Within r m a) : Within r n a := by
  induction m generalizing n a with
  | zero => exact h.elim
  | succ m ih =>
    cases n with
    | zero => exact absurd hmn (Nat.not_succ_le_zero m)
    | succ n => exact fun b hb => ih (Nat.le_of_succ_le_succ hmn) (h b hb)

/-- What is below has less depth left. -/
theorem of_transGen (h : Within r n a) (hab : TransGen r a b) : ∃ m < n, Within r m b := by
  induction hab with
  | single hab =>
    cases n with
    | zero => exact h.elim
    | succ n => exact ⟨n, Nat.lt_succ_self n, h _ hab⟩
  | tail _ hbc ih =>
    obtain ⟨m, hm, hb⟩ := ih
    cases m with
    | zero => exact hb.elim
    | succ m => exact ⟨m, by omega, hb _ hbc⟩

theorem of_reflTransGen (h : Within r n a) (hab : ReflTransGen r a b) : Within r n b := by
  rcases reflTransGen_iff_eq_or_transGen.1 hab with rfl | hab
  · exact h
  · obtain ⟨m, hm, hb⟩ := h.of_transGen hab
    exact hb.mono (Nat.le_of_lt hm)

/-- A way down that comes back never ends. -/
theorem not_transGen_self (h : Within r n a) : ¬TransGen r a a := by
  induction n using Nat.strongRecOn with
  | ind n ih =>
    intro ha
    obtain ⟨m, hm, hb⟩ := h.of_transGen ha
    exact ih m hm hb ha

end Within

/-! ## Descents without cycles -/

/-- There is no cycle below `a`, and `P` holds of `a` and of everything below it. -/
structure Grounded (r : α → α → Prop) (P : α → Prop) (a : α) : Prop where
  acyclic : ∀ x, ReflTransGen r a x → ¬TransGen r x x
  holds : ∀ x, ReflTransGen r a x → P x

namespace Grounded

variable {r : α → α → Prop} {P : α → Prop} {n : Nat} {a b : α}

theorem self (h : Grounded r P a) : P a := h.holds a .refl

theorem child (h : Grounded r P a) (hab : r a b) : Grounded r P b where
  acyclic x hx := h.acyclic x (.head hab hx)
  holds x hx := h.holds x (.head hab hx)

/-- A bounded depth excludes cycles. -/
theorem of_within (h : Within r n a) (hP : ∀ x, ReflTransGen r a x → P x) : Grounded r P a where
  acyclic _ hx := (h.of_reflTransGen hx).not_transGen_self
  holds := hP

/-- Where the numbers go down at every step, there is no cycle. -/
theorem of_descending (key : α → Nat) (hstep : ∀ a b, P a → r a b → key b < key a ∧ P b)
    (ha : P a) : Grounded r P a := by
  -- the numbers go down along every way, and `P` is handed on with them
  have hbelow : ∀ {x y}, P x → TransGen r x y → key y < key x ∧ P y := by
    intro x y hx hxy
    induction hxy with
    | single hxy => exact hstep _ _ hx hxy
    | tail _ hyz ih =>
      obtain ⟨hlt, hz⟩ := hstep _ _ ih.2 hyz
      exact ⟨Nat.lt_trans hlt ih.1, hz⟩
  have hholds : ∀ x, ReflTransGen r a x → P x := by
    intro x hx
    rcases reflTransGen_iff_eq_or_transGen.1 hx with rfl | hx
    · exact ha
    · exact (hbelow ha hx).2
  exact ⟨fun x hx hcycle => Nat.lt_irrefl _ (hbelow (hholds x hx) hcycle).1, hholds⟩

/-- Distinct places with distinct numbers below `n` are at most `n` many. -/
theorem length_le_of_nodup {key : α → Nat} (hkey : Function.Injective key) {l : List α}
    (hl : l.Nodup) (hlt : ∀ x ∈ l, key x < n) : l.length ≤ n := by
  have hsub : l.map key ⊆ List.range n := by
    intro k hk
    obtain ⟨x, hx, rfl⟩ := List.mem_map.1 hk
    exact List.mem_range.2 (hlt x hx)
  have := ((hl.map hkey).subperm hsub).length_le
  rwa [List.length_map, List.length_range] at this

/-- The depth below `a` when the places above, all distinct from those below, are counted as used
up. -/
theorem within_of_visited {key : α → Nat} (hkey : Function.Injective key)
    (hlt : ∀ x, P x → key x < n) (visited : List α) (fuel : Nat) (hfuel : visited.length + fuel = n)
    (hnodup : visited.Nodup) (habove : ∀ x ∈ visited, P x ∧ TransGen r x a) (h : Grounded r P a) :
    Within r fuel a := by
  induction fuel generalizing visited a with
  | zero =>
    -- no number is left for `a` itself
    have hnew : a ∉ visited := fun ha => h.acyclic a .refl (habove a ha).2
    have hle : (a :: visited).length ≤ n := by
      refine length_le_of_nodup hkey (List.nodup_cons.2 ⟨hnew, hnodup⟩) ?_
      rintro x (_ | ⟨_, hx⟩)
      · exact hlt a h.self
      · exact hlt x (habove x hx).1
    rw [List.length_cons] at hle
    omega
  | succ fuel ih =>
    intro b hab
    have hnew : a ∉ visited := fun ha => h.acyclic a .refl (habove a ha).2
    refine ih (a :: visited) (by rw [List.length_cons]; omega) (List.nodup_cons.2 ⟨hnew, hnodup⟩) ?_
      (h.child hab)
    rintro x (_ | ⟨_, hx⟩)
    · exact ⟨h.self, .single hab⟩
    · exact ⟨(habove x hx).1, (habove x hx).2.tail hab⟩

/-- **Depth without cycles.** Where no cycle lies below, a way down is no longer than there are
places. -/
theorem within {key : α → Nat} (hkey : Function.Injective key) (hlt : ∀ x, P x → key x < n)
    (h : Grounded r P a) : Within r n a :=
  within_of_visited hkey hlt [] n (by simp) List.nodup_nil (by simp) h

end Grounded

/-! ## Ways that end anywhere -/

/-- No cycle lies below `a`. -/
def Acyclic (r : α → α → Prop) (a : α) : Prop := ∀ x, ReflTransGen r a x → ¬TransGen r x x

theorem grounded_iff {r : α → α → Prop} {P : α → Prop} {a : α} :
    Grounded r P a ↔ Acyclic r a ∧ ∀ x, ReflTransGen r a x → P x :=
  ⟨fun h => ⟨h.acyclic, h.holds⟩, fun h => ⟨h.1, h.2⟩⟩

namespace Acyclic

variable {r : α → α → Prop} {n : Nat} {a b : α}

/-- Places are told apart by numbers, which go down at every step but for those to places numbered
`n` and higher, where ways end. -/
theorem of_older (key : α → Nat) (hstep : ∀ a b, r a b → key a < n ∧ (key b < key a ∨ n ≤ key b))
    (a : α) : Acyclic r a := by
  -- the ends count as lowest
  let height (x : α) : Nat := if key x < n then key x + 1 else 0
  have hheight : ∀ a b, r a b → height b < height a := by
    intro a b hab
    obtain ⟨ha, hb⟩ := hstep a b hab
    grind
  exact (Grounded.of_descending height (P := fun _ => True)
    (fun a b _ hab => ⟨hheight a b hab, trivial⟩) trivial).acyclic

/-- Where the places that have something below them have distinct numbers below `n`, every way down
ends in at most `n` steps: only the last place of a way need not be one of them. -/
theorem within {key : α → Nat} (hkey : Function.Injective key) (hlt : ∀ x y, r x y → key x < n)
    (h : Acyclic r a) : Within r (n + 1) a := by
  -- steps to places from which it goes on
  let inner (x y : α) : Prop := r x y ∧ ∃ z, r y z
  have hinner : ∀ x y, inner x y → r x y := fun _ _ => And.left
  have hend : ∀ {m x}, (Within inner m x) → Within r (m + 1) x := by
    intro m
    induction m with
    | zero => exact fun h => h.elim
    | succ m ih =>
      intro x hx y hxy
      by_cases hy : ∃ z, r y z
      · exact ih (hx y ⟨hxy, hy⟩)
      · exact fun z hyz => absurd ⟨z, hyz⟩ hy
  by_cases ha : ∃ b, r a b
  case neg => exact fun b hab => absurd ⟨b, hab⟩ ha
  have hgrounded : Grounded inner (fun x => ∃ y, r x y) a := by
    refine ⟨fun x hx hcycle => ?_, fun x hx => ?_⟩
    · exact h x (ReflTransGen.mono hinner _ _ hx) (TransGen.mono hinner _ _ hcycle)
    · rcases ReflTransGen.cases_tail hx with rfl | ⟨y, -, hyx⟩
      · exact ha
      · exact hyx.2
  exact hend (hgrounded.within hkey fun x ⟨y, hxy⟩ => hlt x y hxy)

end Acyclic

/-! ## Recursions -/

/-- A recursion along `r` with a bound on its depth, told by where it succeeds: at a place where `P`
holds when it succeeds one step further down. -/
structure Recursion (r : α → α → Prop) (P : α → Prop) (succeeds : Nat → α → Prop) : Prop where
  zero : ∀ a, ¬succeeds 0 a
  succ : ∀ n a, succeeds (n + 1) a ↔ P a ∧ ∀ b, r a b → succeeds n b

namespace Recursion

variable {r : α → α → Prop} {P : α → Prop} {succeeds : Nat → α → Prop} {n : Nat} {a : α}

theorem within (hrec : Recursion r P succeeds) (h : succeeds n a) : Within r n a := by
  induction n generalizing a with
  | zero => exact hrec.zero a h
  | succ n ih => exact fun b hb => ih (((hrec.succ n a).1 h).2 b hb)

theorem holds (hrec : Recursion r P succeeds) (h : succeeds n a) (b : α) (hb : ReflTransGen r a b) :
    P b := by
  induction n generalizing a with
  | zero => exact absurd h (hrec.zero a)
  | succ n ih =>
    have hsucc := (hrec.succ n a).1 h
    rcases ReflTransGen.cases_head hb with rfl | ⟨c, hc, hb⟩
    · exact hsucc.1
    · exact ih (hsucc.2 c hc) hb

theorem grounded (hrec : Recursion r P succeeds) (h : succeeds n a) : Grounded r P a :=
  .of_within (hrec.within h) (hrec.holds h)

theorem of_grounded (hrec : Recursion r P succeeds) (h : Grounded r P a) (hdepth : Within r n a) :
    succeeds n a := by
  induction n generalizing a with
  | zero => exact hdepth.elim
  | succ n ih => exact (hrec.succ n a).2 ⟨h.self, fun b hb => ih (h.child hb) (hdepth b hb)⟩

/-- **Where a recursion succeeds.** With room for every place that `P` allows, a recursion succeeds
exactly where it goes down to no cycle and to no place that fails by itself. -/
theorem iff_grounded (hrec : Recursion r P succeeds) {key : α → Nat} (hkey : Function.Injective key)
    (hlt : ∀ x, P x → key x < n) : succeeds n a ↔ Grounded r P a :=
  ⟨hrec.grounded, fun h => hrec.of_grounded h (h.within hkey hlt)⟩

end Recursion

/-! ## Results -/

/-- A recursion with a bound on its depth, told by what it results in: one layer more than the
results one step further down. -/
structure Layered {β ε : Type} (f : Nat → α → Except ε β) (layer : (α → β → Prop) → α → β → Prop) :
    Prop where
  zero : ∀ a b, f 0 a ≠ .ok b
  succ : ∀ n a b, f (n + 1) a = .ok b ↔ layer (fun a b => f n a = .ok b) a b
  mono : ∀ {R S : α → β → Prop} {a b}, (∀ a b, R a b → S a b) → layer R a b → layer S a b

namespace Layered

variable {β ε : Type} {f : Nat → α → Except ε β} {layer : (α → β → Prop) → α → β → Prop} {m n : Nat}
  {a : α} {b b' : β}

theorem deeper (hf : Layered f layer) (hmn : m ≤ n) (h : f m a = .ok b) : f n a = .ok b := by
  induction m generalizing n a b with
  | zero => exact absurd h (hf.zero a b)
  | succ m ih =>
    cases n with
    | zero => exact absurd hmn (Nat.not_succ_le_zero m)
    | succ n =>
      have hbelow : ∀ a b, f m a = .ok b → f n a = .ok b :=
        fun _ _ => ih (Nat.le_of_succ_le_succ hmn)
      exact (hf.succ n a b).2 (hf.mono hbelow ((hf.succ m a b).1 h))

/-- Whatever the depths, there is one result: what is found within the smaller depth is found within
the greater one too. -/
theorem unique (hf : Layered f layer) (h : f m a = .ok b) (h' : f n a = .ok b') : b = b' := by
  rcases Nat.le_total m n with hle | hle
  · exact Except.ok.inj ((hf.deeper hle h).symm.trans h')
  · exact Except.ok.inj (h.symm.trans (hf.deeper hle h'))

/-- Within a depth at which everything is found that is found at all, the same is found. -/
theorem of_depth (hf : Layered f layer) (henough : ∀ m a, (∃ b, f m a = .ok b) → ∃ b, f n a = .ok b)
    (h : f m a = .ok b) : f n a = .ok b := by
  obtain ⟨b', h'⟩ := henough m a ⟨b, h⟩
  rw [hf.unique h h']
  exact h'

/-- A result has one layer more than the results below, at the same depth. -/
theorem iff (hf : Layered f layer) (henough : ∀ m a, (∃ b, f m a = .ok b) → ∃ b, f n a = .ok b) :
    f n a = .ok b ↔ layer (fun a b => f n a = .ok b) a b := by
  have hsame {m : Nat} (a : α) (b : β) : f m a = .ok b → f n a = .ok b := hf.of_depth henough
  constructor
  · intro h
    cases n with
    | zero => exact absurd h (hf.zero a b)
    | succ n => exact hf.mono hsame ((hf.succ n a b).1 h)
  · intro h
    exact hsame a b ((hf.succ n a b).2 h)

end Layered

end SyntaxArena
