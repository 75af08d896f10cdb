import Mathlib.Data.List.Forall2
import SyntaxArena.Proofs.Growth

/-!
# Equal types have equal indices

Types are interned by their kinds, and a kind mentions its components by index only. Nevertheless
indices are as good as trees: two types of one table are equal exactly if they are equal all the way
down. Where types are made of types that are there, every index has a tree.

- `Interner.intern_of_get`, `Interner.intern_of_forall_get_ne`: interning an old key and a new one.
- `TypeTable.type_eq_of_tree_eq`: in one table, types with equal trees are equal.
- `TypeTable.Descending`: the builtin types stand first, and types are made of types with smaller
  indices.
- `TypeTable.Descending.exists_tree`: then every type that is there has a tree.
-/

namespace SyntaxArena

/-! ## Interners -/

namespace Interner

variable {α : Type} [DecidableEq α] {t : Interner α} {a : α} {i j : Nat}

/-- No key has two numbers. -/
theorem number_unique (hi : t.get i = .ok a) (hj : t.get j = .ok a) : i = j := by
  have hi : t.index? a = some i := index?_eq_some_iff.2 (lookup_eq_ok_iff.1 hi)
  have hj : t.index? a = some j := index?_eq_some_iff.2 (lookup_eq_ok_iff.1 hj)
  exact Option.some.inj (hi.symm.trans hj)

/-- A key that is there gets its number and nothing else happens. -/
theorem intern_of_get (h : t.get i = .ok a) : t.intern a = (t, i) :=
  intern_of_index? (index?_eq_some_iff.2 (lookup_eq_ok_iff.1 h))

/-- A key that is not there gets the next number and is added at the end. -/
theorem intern_of_forall_get_ne (h : ∀ i, t.get i ≠ .ok a) :
    (t.intern a).1.keys = t.keys.push a ∧ (t.intern a).2 = t.size := by
  have hnone : t.index? a = none := Option.eq_none_iff_forall_ne_some.2 fun i hi =>
    h i (lookup_eq_ok_iff.2 (index?_eq_some_iff.1 hi))
  rw [intern_of_not_mem (index?_eq_none_iff.1 hnone)]
  exact ⟨rfl, rfl⟩

/-- Interning adds at most one key, behind the others. -/
theorem get_intern_cases {b : α} (h : (t.intern a).1.get i = .ok b) :
    t.get i = .ok b ∨ i = t.size ∧ b = a := by
  by_cases ha : a ∈ t.keys.toList
  · obtain ⟨j, hj⟩ := Option.ne_none_iff_exists'.1 fun hnone => (index?_eq_none_iff.1 hnone) ha
    rw [intern_of_index? hj] at h
    exact .inl h
  · rw [intern_of_not_mem ha] at h
    have hget : (t.keys.push a)[i]? = some b := lookup_eq_ok_iff.1 h
    rw [Array.getElem?_push] at hget
    by_cases hi : i = t.keys.size
    · rw [if_pos hi] at hget
      exact .inr ⟨hi, (Option.some.inj hget).symm⟩
    · rw [if_neg hi] at hget
      exact .inl (lookup_eq_ok_iff.2 hget)

end Interner

/-! ## Trees tell types -/

/-- Only one kind with only one set of qualifiers is like a given tree. -/
theorem TypeKind.Layer.leftUnique {R : QualType → TypeTree → Prop} (hR : Relator.LeftUnique R)
    {p q : Qualifiers} {j k : TypeKind} {tree : TypeTree} (hj : j.Layer R p tree)
    (hk : k.Layer R q tree) : p = q ∧ j = k := by
  cases hj with
  | builtin b =>
    cases hk
    exact ⟨rfl, rfl⟩
  | pointer hp =>
    cases hk with
    | pointer hp' => exact ⟨rfl, congrArg TypeKind.pointer (hR hp hp')⟩
  | function hr hps =>
    cases hk with
    | function hr' hps' =>
      have hret := hR hr hr'
      have hparams := List.left_unique_forall₂' hR hps hps'
      rw [hret, hparams]
      exact ⟨rfl, rfl⟩

namespace TypeTable

variable {t : TypeTable} {p q : QualType} {tree : TypeTree}

/-- Types with equal trees are equal, since in a table equal kinds have equal indices. -/
theorem leftUnique_treeWithin (t : TypeTable) (fuel : Nat) :
    Relator.LeftUnique fun q u => t.treeWithin fuel q = .ok u := by
  induction fuel with
  | zero => exact fun _ _ _ h => absurd h treeWithin_zero_ne
  | succ fuel ih =>
    intro p q tree hp hq
    obtain ⟨j, hj, hp⟩ := treeWithin_succ_iff.1 hp
    obtain ⟨k, hk, hq⟩ := treeWithin_succ_iff.1 hq
    obtain ⟨hquals, rfl⟩ := TypeKind.Layer.leftUnique ih hp hq
    have hid : p.id = q.id := TypeId.index_injective (Interner.number_unique hj hk)
    cases p
    cases q
    cases hid
    cases hquals
    rfl

theorem leftUnique_tree (t : TypeTable) : Relator.LeftUnique fun q u => t.tree q = .ok u :=
  t.leftUnique_treeWithin (t.size + 1)

theorem type_eq_of_tree_eq (hp : t.tree p = .ok tree) (hq : t.tree q = .ok tree) : p = q :=
  t.leftUnique_tree hp hq

/-! ## Descending tables -/

/-- The builtin types stand at their indices, and every type is made of types with smaller
indices. -/
structure Descending (t : TypeTable) : Prop where
  builtins : ∀ b : BuiltinType, t.kind b.typeId = .ok (.builtin b)
  components : ∀ id kind, t.kind id = .ok kind → ∀ q ∈ kind.components, q.id.index < id.index

theorem descending_initial : initial.Descending where
  builtins := kind_initial_typeId
  components id kind hkind q hq := by
    have hmem : kind ∈ initial.keys := Array.mem_of_getElem? (lookup_eq_ok_iff.1 hkind)
    rw [keys_initial] at hmem
    obtain ⟨b, -, rfl⟩ := List.mem_map.1 (List.mem_toArray.1 hmem)
    exact absurd hq List.not_mem_nil

namespace Descending

variable {id : TypeId} {kind : TypeKind}

/-- Below a type that exists there are smaller types that exist, so this comes to an end. -/
theorem resolvable (h : t.Descending) (hid : id.index < t.size) : t.Resolvable id := by
  refine Grounded.of_descending TypeId.index ?_ (exists_kind hid)
  rintro a b ⟨kind, hkind⟩ ⟨kind', hkind', q, hq, rfl⟩
  have hlt : q.id.index < a.index := h.components a kind' hkind' q hq
  exact ⟨hlt, exists_kind (Nat.lt_trans hlt (index_lt_of_kind hkind))⟩

/-- Every type that is there has a tree. -/
theorem exists_tree (h : t.Descending) (hq : q.id.index < t.size) : ∃ tree, t.tree q = .ok tree :=
  exists_tree_iff.2 (h.resolvable hq)

/-- A kind whose components are there has a tree. -/
theorem exists_layer (h : t.Descending) (hkind : ∀ q ∈ kind.components, q.id.index < t.size) :
    ∃ tree, kind.Layer (fun q u => t.tree q = .ok u) .none tree :=
  TypeKind.Layer.exists_of_components .none fun q hq => h.exists_tree (hkind q hq)

theorem id_of_builtin (h : t.Descending) {b : BuiltinType} (hkind : t.kind id = .ok (.builtin b)) :
    id = b.typeId :=
  TypeId.index_injective (Interner.number_unique hkind (h.builtins b))

/-- Exactly the builtin types have an index below the compound ones. -/
theorem isBuiltin_iff (h : t.Descending) (hkind : t.kind id = .ok kind) :
    id.isBuiltin ↔ ∃ b, kind = .builtin b := by
  rw [TypeId.isBuiltin, decide_eq_true_eq]
  constructor
  · intro hlt
    obtain ⟨b, rfl⟩ := BuiltinType.exists_typeId hlt
    exact ⟨b, Except.ok.inj (hkind.symm.trans (h.builtins b))⟩
  · rintro ⟨b, rfl⟩
    rw [h.id_of_builtin hkind]
    cases b <;> decide

/-- The builtin types are the first entries, in their order. -/
theorem kind_of_ofTypeId? (h : t.Descending) {b : BuiltinType}
    (hb : BuiltinType.ofTypeId? id = some b) : t.kind id = .ok (.builtin b) := by
  have hbuiltin : id.isBuiltin := TypeId.isBuiltin_iff.2 ⟨b, hb⟩
  obtain ⟨b', rfl⟩ := BuiltinType.exists_typeId (of_decide_eq_true hbuiltin)
  rw [BuiltinType.ofTypeId?_typeId] at hb
  cases hb
  exact h.builtins b

theorem ofTypeId?_eq_some_iff (h : t.Descending) (hkind : t.kind id = .ok kind) (b : BuiltinType) :
    BuiltinType.ofTypeId? id = some b ↔ kind = .builtin b := by
  constructor
  · intro hb
    exact Except.ok.inj (hkind.symm.trans (h.kind_of_ofTypeId? hb))
  · rintro rfl
    rw [h.id_of_builtin hkind, BuiltinType.ofTypeId?_typeId]

/-- A table stays descending when a type is made of types that are there. -/
theorem add (h : t.Descending) (hkind : ∀ q ∈ kind.components, q.id.index < t.size) :
    (t.add kind).1.Descending where
  builtins b := Interner.get_intern_of_get (h.builtins b)
  components id kind' hkind' q hq := by
    rcases Interner.get_intern_cases hkind' with hold | ⟨hid, rfl⟩
    · exact h.components id kind' hold q hq
    · rw [hid]
      exact hkind q hq

end Descending

end TypeTable

end SyntaxArena
