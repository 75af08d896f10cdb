import Mathlib.Data.List.Basic

/-!
# Splitting texts

Where a text that was put together from parts can be taken apart again: at the first or the last
character of some sort, or by counting parentheses.

- `Splitting.eq_of_first`, `Splitting.eq_of_last`: parts that end at the first such character, or
  begin behind the last.
- `Splitting.eq_of_ended`: any number of parts, each ended by the same character.
- `Nesting.after`: how many parentheses are open behind a text.
- `Nesting.Balanced`, `Nesting.Closed`: none is open behind the text, and none closed that was not
  open; in a closed text commas stand in parentheses, too.
- `Nesting.Balanced.split`: a parenthesis with a balanced text behind it has one place.
- `Nesting.intercalate_injective`: closed texts with commas between them.
-/

namespace SyntaxArena

/-! ## At a character -/

namespace Splitting

variable {α : Type} {p : α → Prop} {u v s t : List α}

/-- The part without a sort of element in front of the first such element. -/
theorem eq_of_first (hu : ∀ c ∈ u, ¬p c) (hv : ∀ c ∈ v, ¬p c) (hs : ∀ c ∈ s.head?, p c)
    (ht : ∀ c ∈ t.head?, p c) (h : u ++ s = v ++ t) : u = v ∧ s = t := by
  induction u generalizing v with
  | nil =>
    cases v with
    | nil => exact ⟨rfl, h⟩
    | cons c v =>
      obtain rfl : s = c :: (v ++ t) := h
      exact absurd (hs c rfl) (hv c List.mem_cons_self)
  | cons c u ih =>
    cases v with
    | nil =>
      obtain rfl : c :: (u ++ s) = t := h
      exact absurd (ht c rfl) (hu c List.mem_cons_self)
    | cons d v =>
      simp only [List.cons_append, List.cons.injEq] at h
      obtain ⟨rfl, h⟩ := h
      obtain ⟨rfl, hst⟩ := ih (fun c hc => hu c (List.mem_cons_of_mem _ hc))
        (fun c hc => hv c (List.mem_cons_of_mem _ hc)) h
      exact ⟨rfl, hst⟩

/-- The part without a sort of element behind the last such element. -/
theorem eq_of_last {a b : α} (ha : p a) (hb : p b) (hs : ∀ c ∈ s, ¬p c) (ht : ∀ c ∈ t, ¬p c)
    (h : u ++ a :: s = v ++ b :: t) : u = v ∧ a = b ∧ s = t := by
  have hrev : s.reverse ++ a :: u.reverse = t.reverse ++ b :: v.reverse := by
    simpa using congrArg List.reverse h
  obtain ⟨hst, hrest⟩ := eq_of_first (p := p) (by simpa using hs) (by simpa using ht)
    (by simpa using ha) (by simpa using hb) hrev
  obtain ⟨hab, huv⟩ := List.cons.inj hrest
  exact ⟨List.reverse_inj.1 huv, hab, List.reverse_inj.1 hst⟩

/-- Parts that are each ended by an element that is in none of them. -/
theorem eq_of_ended {l m : List (List α)} {a : α} (hl : ∀ s ∈ l, a ∉ s) (hm : ∀ s ∈ m, a ∉ s)
    (h : l.flatMap (· ++ [a]) = m.flatMap (· ++ [a])) : l = m := by
  induction l generalizing m with
  | nil =>
    cases m with
    | nil => rfl
    | cons t m => simp at h
  | cons s l ih =>
    cases m with
    | nil => simp at h
    | cons t m =>
      simp only [List.flatMap_cons, List.append_assoc] at h
      obtain ⟨rfl, hrest⟩ := eq_of_first (p := (· = a))
        (List.forall_mem_ne'.2 (hl s List.mem_cons_self))
        (List.forall_mem_ne'.2 (hm t List.mem_cons_self)) (by simp) (by simp) h
      have hlm : l = m := ih (fun s hs => hl s (List.mem_cons_of_mem _ hs))
        (fun s hs => hm s (List.mem_cons_of_mem _ hs)) (List.append_cancel_left hrest)
      rw [hlm]

/-- Where equality under `f` makes members equal under `g`, it does so for lists. -/
theorem map_eq_of_map_eq {β γ : Type} {f : α → β} {g : α → γ} {l m : List α}
    (h : ∀ a ∈ l, ∀ b ∈ m, f a = f b → g a = g b) (hf : l.map f = m.map f) : l.map g = m.map g := by
  induction l generalizing m with
  | nil => rw [List.map_eq_nil_iff.1 hf.symm]
  | cons a l ih =>
    obtain ⟨b, m, rfl, hb, hm⟩ := List.map_eq_cons_iff.1 hf.symm
    rw [List.map_cons, List.map_cons, h a List.mem_cons_self b List.mem_cons_self hb.symm,
      ih (fun a ha b hb => h a (List.mem_cons_of_mem _ ha) b (List.mem_cons_of_mem _ hb)) hm.symm]

end Splitting

/-! ## By counting parentheses -/

namespace Nesting

/-- The number of open parentheses behind one more character, if it may stand there: something must
be open to be closed, and for a comma, too, unless `commas` may stand anywhere. -/
def step (commas : Bool) (depth : Nat) (c : Char) : Option Nat :=
  if c = '(' then some (depth + 1)
  else if c = ')' then if depth = 0 then none else some (depth - 1)
  else if c = ',' ∧ depth = 0 ∧ !commas then none
  else some depth

/-- The number of open parentheses behind a text. -/
def after (commas : Bool) (depth : Nat) (s : List Char) : Option Nat := s.foldlM (step commas) depth

/-- Parentheses come in pairs. -/
def Balanced (s : List Char) : Prop := after true 0 s = some 0

/-- Parentheses come in pairs, and commas stand between the two of a pair. -/
def Closed (s : List Char) : Prop := after false 0 s = some 0

instance (s : List Char) : Decidable (Balanced s) := inferInstanceAs (Decidable (_ = _))

instance (s : List Char) : Decidable (Closed s) := inferInstanceAs (Decidable (_ = _))

/-- Neither a parenthesis nor a comma. -/
def IsPlain (c : Char) : Prop := c ≠ '(' ∧ c ≠ ')' ∧ c ≠ ','

variable {commas : Bool} {d e : Nat} {c : Char} {s t u v : List Char}

theorem step_of_plain (h : IsPlain c) : step commas d c = some d := by
  obtain ⟨hopen, hclose, hcomma⟩ := h
  simp [step, hopen, hclose, hcomma]

/-- With one parenthesis more around it, a character changes the number of open ones in the same
way. -/
theorem step_deeper (h : step commas d c = some e) : step commas (d + 1) c = some (e + 1) := by
  grind [step]

theorem step_free (h : step false d c = some e) : step true d c = some e := by
  grind [step]

/-- In parentheses commas may stand anywhere. -/
theorem step_inside (h : step true d c = some e) : step false (d + 1) c = some (e + 1) := by
  grind [step]

theorem after_cons_iff :
    after commas d (c :: s) = some e ↔
      ∃ k, step commas d c = some k ∧ after commas k s = some e := by
  simp [after, Option.bind_eq_some_iff]

theorem after_append_iff :
    after commas d (s ++ t) = some e ↔
      ∃ k, after commas d s = some k ∧ after commas k t = some e := by
  simp [after, List.foldlM_append, Option.bind_eq_some_iff]

theorem after_of_plain (h : ∀ c ∈ s, IsPlain c) : after commas d s = some d := by
  induction s with
  | nil => rfl
  | cons c s ih =>
    have hc : step commas d c = some d := step_of_plain (h c List.mem_cons_self)
    exact after_cons_iff.2 ⟨d, hc, ih fun c hc => h c (List.mem_cons_of_mem _ hc)⟩

/-- What holds of each character holds of a text. -/
theorem after_of_step {b : Bool} {f : Nat → Nat}
    (hstep : ∀ d c e, step commas d c = some e → step b (f d) c = some (f e))
    (h : after commas d s = some e) : after b (f d) s = some (f e) := by
  induction s generalizing d with
  | nil => exact congrArg (some ∘ f) (Option.some.inj h)
  | cons c s ih =>
    obtain ⟨k, hk, h⟩ := after_cons_iff.1 h
    exact after_cons_iff.2 ⟨f k, hstep _ _ _ hk, ih h⟩

/-- A balanced text leaves as many parentheses open as there were. -/
theorem Balanced.after (hs : Balanced s) (d : Nat) : after true d s = some d := by
  induction d with
  | zero => exact hs
  | succ d ih => exact after_of_step (f := Nat.succ) (fun _ _ _ => step_deeper) ih

theorem Balanced.append (hs : Balanced s) (ht : Balanced t) : Balanced (s ++ t) :=
  after_append_iff.2 ⟨0, hs, ht⟩

theorem Closed.balanced (hs : Closed s) : Balanced s :=
  after_of_step (f := id) (fun _ _ _ => step_free) hs

theorem Closed.of_plain (h : ∀ c ∈ s, IsPlain c) : Closed s := after_of_plain h

theorem Closed.append (hs : Closed s) (ht : Closed t) : Closed (s ++ t) :=
  after_append_iff.2 ⟨0, hs, ht⟩

/-- A balanced text is closed by parentheses around it. -/
theorem Balanced.closed (hs : Balanced s) : Closed ('(' :: s ++ [')']) := by
  have hinside : Nesting.after false 1 s = some 1 :=
    after_of_step (f := (· + 1)) (fun _ _ _ => step_inside) hs
  exact after_append_iff.2 ⟨1, hinside, rfl⟩

/-- A parenthesis with balanced texts behind it has one place: a balanced text never opens a
parenthesis for a balanced rest. -/
theorem Balanced.split (hs : Balanced s) (ht : Balanced t) (h : u ++ '(' :: s = v ++ '(' :: t) :
    u = v ∧ s = t := by
  have hne {s w : List Char} (hs : Balanced s) : ¬Balanced (w ++ '(' :: s) := by
    intro h
    -- behind the parenthesis something is open, and the balanced rest leaves it open
    obtain ⟨k, -, hk⟩ := after_append_iff.1 h
    obtain ⟨_, ⟨⟩, hk⟩ := after_cons_iff.1 hk
    simpa using (hs.after _).symm.trans hk
  rcases List.append_eq_append_iff.1 h with ⟨w, rfl, hw⟩ | ⟨w, rfl, hw⟩
  · cases w with
    | nil => simpa [eq_comm] using hw
    | cons c w =>
      obtain rfl := (List.cons.inj hw).2
      exact absurd hs (hne ht)
  · cases w with
    | nil => simpa [eq_comm] using hw
    | cons c w =>
      obtain rfl := (List.cons.inj hw).2
      exact absurd ht (hne hs)

/-- A closed text ends at the first comma that is in no parentheses, or at the end of all. -/
theorem Closed.split (hu : Closed u) (hv : Closed v) (hs : ∀ c ∈ s.head?, c = ',')
    (ht : ∀ c ∈ t.head?, c = ',') (h : u ++ s = v ++ t) : u = v ∧ s = t := by
  have hne {u w : List Char} (hu : Closed u) : ¬Closed (u ++ ',' :: w) := by
    intro h
    obtain ⟨k, hk, h⟩ := after_append_iff.1 h
    obtain rfl := Option.some.inj (hu.symm.trans hk)
    obtain ⟨_, ⟨⟩, -⟩ := after_cons_iff.1 h
  rcases List.append_eq_append_iff.1 h with ⟨w, rfl, rfl⟩ | ⟨w, rfl, rfl⟩
  · cases w with
    | nil => simp
    | cons c w =>
      obtain rfl : c = ',' := hs c rfl
      exact absurd hv (hne hu)
  · cases w with
    | nil => simp
    | cons c w =>
      obtain rfl : c = ',' := ht c rfl
      exact absurd hu (hne hv)

/-! ## Texts with commas between them -/

theorem intercalate_cons (sep s : List Char) (l : List (List Char)) :
    sep.intercalate (s :: l) = s ++ l.flatMap (sep ++ ·) := by
  induction l generalizing s with
  | nil => simp
  | cons t l ih => rw [List.intercalate_cons_cons, ih]; simp

theorem balanced_intercalate {l : List (List Char)} (h : ∀ s ∈ l, Closed s) :
    Balanced (", ".toList.intercalate l) := by
  induction l with
  | nil => rfl
  | cons s l ih =>
    have hs : Balanced s := (h s List.mem_cons_self).balanced
    cases l with
    | nil => simpa using hs
    | cons t l =>
      have hsep : Balanced ", ".toList := by decide
      rw [List.intercalate_cons_cons]
      exact (hs.append hsep).append (ih fun s hs => h s (List.mem_cons_of_mem _ hs))

/-- Closed texts with commas between them are known from the whole, if there is at least one. -/
theorem intercalate_injective {l m : List (List Char)} (hl : ∀ u ∈ l, Closed u)
    (hm : ∀ u ∈ m, Closed u) (hlne : l ≠ []) (hmne : m ≠ [])
    (h : ", ".toList.intercalate l = ", ".toList.intercalate m) : l = m := by
  have hcomma (l : List (List Char)) : ∀ c ∈ (l.flatMap (", ".toList ++ ·)).head?, c = ',' := by
    cases l <;> simp
  obtain ⟨s, l, rfl⟩ := List.exists_cons_of_ne_nil hlne
  obtain ⟨t, m, rfl⟩ := List.exists_cons_of_ne_nil hmne
  rw [intercalate_cons, intercalate_cons] at h
  induction l generalizing s t m with
  | nil =>
    obtain ⟨rfl, h⟩ :=
      (hl s List.mem_cons_self).split (hm t List.mem_cons_self) (hcomma _) (hcomma _) h
    cases m with
    | nil => rfl
    | cons v m => simp at h
  | cons u l ih =>
    obtain ⟨rfl, h⟩ :=
      (hl s List.mem_cons_self).split (hm t List.mem_cons_self) (hcomma _) (hcomma _) h
    cases m with
    | nil => simp at h
    | cons v m =>
      have hrest : u ++ l.flatMap (", ".toList ++ ·) = v ++ m.flatMap (", ".toList ++ ·) := by
        simpa using h
      have hl' : ∀ w ∈ u :: l, Closed w := fun w hw => hl w (List.mem_cons_of_mem _ hw)
      have hm' : ∀ w ∈ v :: m, Closed w := fun w hw => hm w (List.mem_cons_of_mem _ hw)
      rw [ih u hl' (List.cons_ne_nil u l) v m hm' (List.cons_ne_nil v m) hrest]

end Nesting

end SyntaxArena
