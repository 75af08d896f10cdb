import Mathlib.Data.List.Forall2
import SyntaxArena.Fault

/-!
# Computations that can fail

When a computation made of several lookups succeeds, each of them has. The equivalences here take
such a computation apart, one for each way of putting it together.
-/

namespace SyntaxArena

namespace Checked

variable {α β : Type}

@[simp] theorem bind_eq_ok_iff {x : Except Fault α} {f : α → Except Fault β} {b : β} :
    x >>= f = .ok b ↔ ∃ a, x = .ok a ∧ f a = .ok b := by
  cases x with
  | error e => simp [bind, Except.bind]
  | ok a => simp [bind, Except.bind]

@[simp] theorem map_eq_ok_iff {x : Except Fault α} {f : α → β} {b : β} :
    f <$> x = .ok b ↔ ∃ a, x = .ok a ∧ f a = b := by
  cases x with
  | error e => simp [Functor.map, Except.map]
  | ok a => simp [Functor.map, Except.map]

@[simp] theorem pure_eq_ok_iff {a b : α} : (pure a : Except Fault α) = .ok b ↔ a = b := by
  simp [pure, Except.pure]

/-- A computation whose last step cannot fail. -/
theorem return_eq_ok_iff {x : Except Fault α} {f : α → β} {b : β} :
    (do return f (← x)) = .ok b ↔ ∃ a, x = .ok a ∧ f a = b := by
  rw [bind_eq_ok_iff]
  exact exists_congr fun a => and_congr_right fun _ => pure_eq_ok_iff

theorem exists_return {x : Except Fault α} {f : α → β} (h : ∃ a, x = .ok a) :
    ∃ b, (do return f (← x)) = .ok b := by
  obtain ⟨a, ha⟩ := h
  exact ⟨f a, return_eq_ok_iff.2 ⟨a, ha, rfl⟩⟩

/-- A list of computations succeeds when each of them does. -/
@[simp] theorem mapM_eq_ok_iff {f : α → Except Fault β} {l : List α} {r : List β} :
    l.mapM f = .ok r ↔ List.Forall₂ (fun a b => f a = .ok b) l r := by
  induction l generalizing r with
  | nil =>
    rw [List.mapM_nil, pure_eq_ok_iff, List.forall₂_nil_left_iff]
    exact eq_comm
  | cons a l ih =>
    rw [List.mapM_cons, bind_eq_ok_iff, List.forall₂_cons_left_iff]
    constructor
    · rintro ⟨b, hb, h⟩
      obtain ⟨bs, hbs, rfl⟩ := by simpa only [bind_eq_ok_iff, pure_eq_ok_iff] using h
      exact ⟨b, bs, hb, ih.1 hbs, rfl⟩
    · rintro ⟨b, bs, hb, hbs, rfl⟩
      refine ⟨b, hb, ?_⟩
      simpa only [bind_eq_ok_iff, pure_eq_ok_iff] using ⟨bs, ih.2 hbs, rfl⟩

/-- The same for a computation that may be absent. -/
@[simp] theorem option_mapM_eq_ok_iff {f : α → Except Fault β} {o : Option α} {r : Option β} :
    o.mapM f = .ok r ↔ List.Forall₂ (fun a b => f a = .ok b) o.toList r.toList := by
  cases o with
  | none => cases r <;> simp [Option.mapM_none, pure_eq_ok_iff]
  | some a => cases r <;> simp [Option.mapM_some, map_eq_ok_iff]

/-- The same where a failure says nothing about itself. -/
theorem mapM_eq_some_iff {f : α → Option β} {l : List α} {r : List β} :
    l.mapM f = some r ↔ List.Forall₂ (fun a b => f a = some b) l r := by
  induction l generalizing r with
  | nil =>
    rw [List.mapM_nil, List.forall₂_nil_left_iff]
    exact Option.some_inj.trans eq_comm
  | cons a l ih =>
    simp only [List.mapM_cons, Option.bind_eq_bind, Option.bind_eq_some_iff,
      List.forall₂_cons_left_iff]
    constructor
    · rintro ⟨b, hb, bs, hbs, h⟩
      exact ⟨b, bs, hb, ih.1 hbs, (Option.some.inj h).symm⟩
    · rintro ⟨b, bs, hb, hbs, rfl⟩
      exact ⟨b, hb, bs, ih.2 hbs, rfl⟩

/-- A fold succeeds when each of its steps does, whatever the state it starts from. -/
theorem exists_foldlM {f : β → α → Except Fault β} {l : List α}
    (h : ∀ a ∈ l, ∀ b, ∃ b', f b a = .ok b') (b : β) : ∃ r, l.foldlM f b = .ok r := by
  induction l generalizing b with
  | nil => exact ⟨b, rfl⟩
  | cons a l ih =>
    obtain ⟨b', hb'⟩ := h a List.mem_cons_self b
    obtain ⟨r, hr⟩ := ih (fun x hx => h x (List.mem_cons_of_mem a hx)) b'
    exact ⟨r, bind_eq_ok_iff.2 ⟨b', hb', hr⟩⟩

/-- What every step of a fold keeps, a fold that succeeds keeps. -/
theorem invariant_of_foldlM {f : β → α → Except Fault β} {P : β → Prop} {l : List α}
    (h : ∀ a ∈ l, ∀ b b', P b → f b a = .ok b' → P b') {b r : β} (hb : P b)
    (hr : l.foldlM f b = .ok r) : P r := by
  induction l generalizing b with
  | nil =>
    obtain rfl := pure_eq_ok_iff.1 hr
    exact hb
  | cons a l ih =>
    rw [List.foldlM_cons] at hr
    obtain ⟨b', hb', hr⟩ := bind_eq_ok_iff.1 hr
    have hnext : P b' := h a List.mem_cons_self b b' hb hb'
    exact ih (fun x hx => h x (List.mem_cons_of_mem a hx)) hnext hr

/-- In lists related entry by entry, every entry has a partner. -/
theorem exists_of_forall₂ {R : α → β → Prop} {l : List α} {r : List β} (h : List.Forall₂ R l r) :
    ∀ a ∈ l, ∃ b ∈ r, R a b := by
  induction h with
  | nil => exact fun a ha => absurd ha List.not_mem_nil
  | cons hab _ ih =>
    intro x hx
    rcases List.mem_cons.1 hx with rfl | hx
    · exact ⟨_, List.mem_cons_self, hab⟩
    · obtain ⟨y, hy, hxy⟩ := ih x hx
      exact ⟨y, List.mem_cons_of_mem _ hy, hxy⟩

/-- Two lists related to a third one are related to each other. -/
theorem forall₂_of_common {γ : Type} {R : α → β → Prop} {S : α → γ → Prop} {T : β → γ → Prop}
    {l : List α} {r : List β} {r' : List γ} (hr : List.Forall₂ R l r) (hr' : List.Forall₂ S l r')
    (h : ∀ a b c, R a b → S a c → T b c) : List.Forall₂ T r r' := by
  induction hr generalizing r' with
  | nil =>
    cases hr'
    exact .nil
  | cons hab _ ih =>
    cases hr' with
    | cons hac hr' => exact .cons (h _ _ _ hab hac) (ih hr')

/-- Lists whose entries lead to the same lists one by one. -/
theorem flatMap_eq_of_forall₂ {γ : Type} {f : α → List γ} {g : β → List γ} {l : List α} {r : List β}
    (h : List.Forall₂ (fun a b => f a = g b) l r) : l.flatMap f = r.flatMap g := by
  induction h with
  | nil => rfl
  | cons hab _ ih => rw [List.flatMap_cons, List.flatMap_cons, hab, ih]

/-- Where every entry of a list has a partner, the partners form a list. -/
theorem exists_forall₂ {R : α → β → Prop} {l : List α} (h : ∀ a ∈ l, ∃ b, R a b) :
    ∃ r, List.Forall₂ R l r := by
  induction l with
  | nil => exact ⟨[], .nil⟩
  | cons a l ih =>
    obtain ⟨b, hb⟩ := h a List.mem_cons_self
    obtain ⟨r, hr⟩ := ih fun x hx => h x (List.mem_cons_of_mem a hx)
    exact ⟨b :: r, .cons hb hr⟩

/-- The partners can be found one by one. -/
@[simp] theorem exists_forall₂_iff {R : α → β → Prop} {l : List α} :
    (∃ r, List.Forall₂ R l r) ↔ ∀ a ∈ l, ∃ b, R a b := by
  refine ⟨fun ⟨r, h⟩ a ha => ?_, exists_forall₂⟩
  obtain ⟨b, -, hb⟩ := exists_of_forall₂ h a ha
  exact ⟨b, hb⟩

@[simp] theorem exists_forall₂_option_iff {R : α → β → Prop} {o : Option α} :
    (∃ r : Option β, List.Forall₂ R o.toList r.toList) ↔ ∀ a ∈ o, ∃ b, R a b := by
  cases o with
  | none => simp
  | some a =>
    constructor
    · rintro ⟨r, h⟩ b hb
      exact exists_forall₂_iff.1 ⟨r.toList, h⟩ b (Option.mem_toList.2 hb)
    · intro h
      obtain ⟨b, hb⟩ := h a rfl
      exact ⟨some b, by simpa using hb⟩

theorem exists_mapM {f : α → Except Fault β} {l : List α} (h : ∀ a ∈ l, ∃ b, f a = .ok b) :
    ∃ r, l.mapM f = .ok r := by
  obtain ⟨r, hr⟩ := exists_forall₂ h
  exact ⟨r, mapM_eq_ok_iff.2 hr⟩

theorem exists_option_mapM {f : α → Except Fault β} {o : Option α} (h : ∀ a ∈ o, ∃ b, f a = .ok b) :
    ∃ r, o.mapM f = .ok r := by
  obtain ⟨r, hr⟩ := exists_forall₂_option_iff.2 h
  exact ⟨r, option_mapM_eq_ok_iff.2 hr⟩

/-- There is a result exactly if there was something to compute it from. -/
theorem isSome_of_option_mapM {f : α → Except Fault β} {o : Option α} {r : Option β}
    (h : o.mapM f = .ok r) : r.isSome = o.isSome := by
  have hlen := (option_mapM_eq_ok_iff.1 h).length_eq
  cases o <;> cases r <;> first | rfl | cases hlen

end Checked

/-! ## Two computations with one result -/

/-- Two computations both succeed, with the same result. -/
def Common {α : Type} (x y : Except Fault α) : Prop := ∃ a, x = .ok a ∧ y = .ok a

namespace Common

variable {α β γ δ : Type} {x y : Except Fault α}

theorem pure (a : α) : Common (Pure.pure a) (Pure.pure a) := ⟨a, rfl, rfl⟩

/-- What goes on from one result has one result if every way of going on has. -/
theorem bind {f g : α → Except Fault β} (h : Common x y) (hfg : ∀ a, Common (f a) (g a)) :
    Common (x >>= f) (y >>= g) := by
  obtain ⟨a, rfl, rfl⟩ := h
  exact hfg a

/-- Two lists of computations that have the same results one by one have the same list of
results. -/
theorem mapM {l : List γ} {l' : List δ} {f : γ → Except Fault β} {g : δ → Except Fault β}
    (h : List.Forall₂ (fun a b => Common (f a) (g b)) l l') : Common (l.mapM f) (l'.mapM g) := by
  induction h with
  | nil => exact .pure []
  | cons hab _ ih =>
    rw [List.mapM_cons, List.mapM_cons]
    exact hab.bind fun b => ih.bind fun bs => .pure (b :: bs)

/-- The same for lists that are the images of one list. -/
theorem mapM_map {l : List α} {p : α → γ} {q : α → δ} {f : γ → Except Fault β}
    {g : δ → Except Fault β} (h : ∀ a ∈ l, Common (f (p a)) (g (q a))) :
    Common ((l.map p).mapM f) ((l.map q).mapM g) := by
  refine .mapM ?_
  rw [List.forall₂_map_left_iff, List.forall₂_map_right_iff]
  exact List.forall₂_same.2 h

/-- The same for a computation that may be absent. -/
theorem option_mapM_map {o : Option α} {p : α → γ} {q : α → δ} {f : γ → Except Fault β}
    {g : δ → Except Fault β} (h : ∀ a ∈ o, Common (f (p a)) (g (q a))) :
    Common ((o.map p).mapM f) ((o.map q).mapM g) := by
  cases o with
  | none => exact .pure none
  | some a =>
    obtain ⟨b, hb, hb'⟩ := h a rfl
    exact ⟨some b, by simp [Option.mapM_some, hb], by simp [Option.mapM_some, hb']⟩

end Common

end SyntaxArena
