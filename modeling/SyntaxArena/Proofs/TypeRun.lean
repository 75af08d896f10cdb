import SyntaxArena.Proofs.References
import SyntaxArena.Proofs.TypeInterning

/-!
# Runs that make types

A caller makes types of builtin types and of types that were made before. It may do whatever it
likes with nodes, lists and names, and it may reset the arena in between.

- `TypeLedger`: an arena with the types that have been made in it since its last reset.
- `TypeLedger.Disciplined`: types are made of builtin types and of types on record.
- `TypeLedger.Sound`: the table is descending, and its compound types are those on record.
- `TypeRun.interning_canonical`: in every arena that such a run leads to, indices are as good as
  trees, and making a type finds it exactly if it has been made before.
-/

namespace SyntaxArena

/-! ## Making a type -/

namespace TypeTable

/-- A kind that is there is found, and nothing else happens. -/
theorem add_of_kind {t : TypeTable} {id : TypeId} {kind : TypeKind} (h : t.kind id = .ok kind) :
    t.add kind = (t, { id }) := by
  rw [add, Interner.intern_of_get h]

/-- A kind that is not there gets the next index. -/
theorem add_of_forall_kind_ne {t : TypeTable} {kind : TypeKind} (h : ∀ id, t.kind id ≠ .ok kind) :
    (t.add kind).1.keys = t.keys.push kind ∧ (t.add kind).2 = { id := ⟨t.size⟩ } := by
  obtain ⟨hkeys, hindex⟩ := Interner.intern_of_forall_get_ne fun i => h ⟨i⟩
  exact ⟨hkeys, congrArg (fun i => ({ id := ⟨i⟩ } : QualType)) hindex⟩

end TypeTable

/-- Making a type adds its kind to the table of types, if need be, and changes nothing else. -/
theorem Arena.apply_type [Build] (c : Arena) (e : TypeEdit) :
    c.apply (.type e)
      = ⟨{ c with types := (c.types.add e.kind).1 }, .ok (.type (c.types.add e.kind).2), []⟩ := by
  cases e <;> rfl

/-- The type that an edit makes has this tree. -/
def TypeEdit.HasTree (e : TypeEdit) (t : TypeTable) (tree : TypeTree) : Prop :=
  e.kind.Layer (fun q u => t.tree q = .ok u) .none tree

/-- The type is there after it has been made, whether it was there before or not. -/
theorem TypeTable.tree_add {t : TypeTable} {e : TypeEdit} {tree : TypeTree} (h : e.HasTree t tree) :
    (t.add e.kind).1.tree (t.add e.kind).2 = .ok tree := by
  have hold : ∀ id kind, t.kind id = .ok kind → (t.add e.kind).1.kind id = .ok kind :=
    fun _ _ hkind => Interner.get_intern_of_get hkind
  have hnew : (t.add e.kind).1.kind (t.add e.kind).2.id = .ok e.kind := t.get_intern e.kind
  exact tree_iff.2 ⟨e.kind, hnew, TypeKind.Layer.mono h fun _ _ _ hq => tree_of_kinds hold hq⟩

/-- What is made is no builtin type. -/
theorem TypeEdit.kind_ne_builtin (e : TypeEdit) (b : BuiltinType) : e.kind ≠ .builtin b := by
  cases e <;> exact nofun

/-! ## Records -/

/-- The types of which an operation makes another one. -/
def Operation.components : Operation → List QualType
  | .edit (.type e) => e.kind.components
  | _ => []

/-- An arena and the types that have been made in it since its last reset. -/
structure TypeLedger where
  arena : Arena
  made : List TypeId

namespace TypeLedger

/-- In a fresh arena no type has been made. -/
def initial : TypeLedger := ⟨.initial, []⟩

/-- Performs an operation and puts on record the type that it makes. -/
def step [Build] (l : TypeLedger) (op : Operation) : TypeLedger where
  arena := (l.arena.step op).state
  made :=
    match op, (l.arena.step op).answer with
    | .edit .reset, _ => []
    | .edit (.type _), .ok (.type q) => l.made ++ [q.id]
    | _, _ => l.made

/-- Performs operations one after the other. -/
def run [Build] (l : TypeLedger) (ops : List Operation) : TypeLedger := ops.foldl step l

theorem run_cons [Build] (l : TypeLedger) (op : Operation) (ops : List Operation) :
    l.run (op :: ops) = (l.step op).run ops := rfl

/-- Keeping a record does not interfere with the arena. -/
theorem arena_run [Build] (l : TypeLedger) (ops : List Operation) :
    (l.run ops).arena = l.arena.after ops := by
  induction ops generalizing l with
  | nil => rfl
  | cons op ops ih =>
    rw [run_cons, Arena.after_cons]
    exact ih (l.step op)

/-- What types may be made of: builtin types, and types on record with any qualifiers. -/
def MayUse (l : TypeLedger) (q : QualType) : Prop := q.id.isBuiltin ∨ q.id ∈ l.made

instance (l : TypeLedger) : DecidablePred l.MayUse :=
  fun q => inferInstanceAs (Decidable (q.id.isBuiltin ∨ q.id ∈ l.made))

/-- Types are only made of what they may be made of by then. -/
def Disciplined [Build] : TypeLedger → List Operation → Prop
  | _, [] => True
  | l, op :: ops => (∀ q ∈ op.components, l.MayUse q) ∧ Disciplined (l.step op) ops

instance decidableDisciplined [Build] :
    (l : TypeLedger) → (ops : List Operation) → Decidable (l.Disciplined ops)
  | _, [] => inferInstanceAs (Decidable True)
  | l, op :: ops =>
    have := decidableDisciplined (l.step op) ops
    inferInstanceAs (Decidable ((∀ q ∈ op.components, l.MayUse q) ∧ (l.step op).Disciplined ops))

/-- A type with this tree has been made since the last reset. -/
def Built (l : TypeLedger) (tree : TypeTree) : Prop :=
  ∃ id ∈ l.made, l.arena.types.tree { id } = .ok tree

theorem step_type_eq [Build] (l : TypeLedger) (e : TypeEdit) :
    l.step (.edit (.type e))
      = ⟨{ l.arena with types := (l.arena.types.add e.kind).1 },
          l.made ++ [(l.arena.types.add e.kind).2.id]⟩ := by
  simp only [step, Arena.step, Arena.apply_type]

/-! ## What discipline keeps -/

/-- The table is descending, and its compound types are those on record. -/
structure Sound (l : TypeLedger) : Prop where
  descending : l.arena.types.Descending
  mem_made_iff : ∀ id, id ∈ l.made ↔ TypeId.firstCompound ≤ id.index ∧ id.index < l.arena.types.size

theorem step_reset [Build] (l : TypeLedger) : l.step (.edit .reset) = initial :=
  congrArg (TypeLedger.mk · []) l.arena.state_step_reset

theorem sound_initial : initial.Sound where
  descending := TypeTable.descending_initial
  mem_made_iff id := by
    have hsize : initial.arena.types.size = TypeId.firstCompound := rfl
    rw [hsize]
    exact ⟨fun h => absurd h List.not_mem_nil, fun h => absurd h.1 (Nat.not_le.2 h.2)⟩

namespace Sound

variable {l : TypeLedger} {e : TypeEdit}

/-- What may be used is there. -/
theorem index_lt (h : l.Sound) {q : QualType} (hq : l.MayUse q) :
    q.id.index < l.arena.types.size := by
  rcases hq with hbuiltin | hmade
  · obtain ⟨b, hb⟩ := BuiltinType.exists_typeId (of_decide_eq_true hbuiltin)
    exact hb ▸ TypeTable.index_lt_of_kind (h.descending.builtins b)
  · exact ((h.mem_made_iff q.id).1 hmade).2

/-- A kind that an edit makes stands among the compound types if it stands anywhere. -/
theorem mem_made_of_kind (h : l.Sound) {id : TypeId} (hkind : l.arena.types.kind id = .ok e.kind) :
    id ∈ l.made := by
  refine (h.mem_made_iff id).2 ⟨Nat.le_of_not_lt fun hlt => ?_, TypeTable.index_lt_of_kind hkind⟩
  obtain ⟨b, hb⟩ := (h.descending.isBuiltin_iff hkind).1 (decide_eq_true hlt)
  exact e.kind_ne_builtin b hb

/-- A type has been made exactly if its kind is there. -/
theorem built_iff (h : l.Sound) {tree : TypeTree}
    (htree : e.HasTree l.arena.types tree) :
    l.Built tree ↔ ∃ id, l.arena.types.kind id = .ok e.kind := by
  constructor
  · rintro ⟨id, -, hid⟩
    obtain ⟨kind, hkind, hlayer⟩ := TypeTable.tree_iff.1 hid
    obtain ⟨-, hsame⟩ := TypeKind.Layer.leftUnique l.arena.types.leftUnique_tree hlayer htree
    exact ⟨id, hsame ▸ hkind⟩
  · rintro ⟨id, hkind⟩
    exact ⟨id, h.mem_made_of_kind hkind, TypeTable.tree_iff.2 ⟨_, hkind, htree⟩⟩

/-- A type that is made goes on record, where it may stand already. -/
theorem step_type [Build] (h : l.Sound) (he : ∀ q ∈ e.kind.components, l.MayUse q) :
    (l.step (.edit (.type e))).Sound := by
  rw [step_type_eq]
  refine ⟨?_, fun id => ?_⟩
  · exact h.descending.add fun q hq => h.index_lt (he q hq)
  rw [List.mem_append, List.mem_singleton, h.mem_made_iff]
  by_cases hkind : ∃ id, l.arena.types.kind id = .ok e.kind
  · obtain ⟨old, hold⟩ := hkind
    have hmem := (h.mem_made_iff old).1 (h.mem_made_of_kind hold)
    rw [TypeTable.add_of_kind hold]
    constructor
    · rintro (hid | rfl)
      · exact hid
      · exact hmem
    · exact .inl
  · obtain ⟨hkeys, hindex⟩ := TypeTable.add_of_forall_kind_ne (not_exists.1 hkind)
    have hsize : (l.arena.types.add e.kind).1.size = l.arena.types.size + 1 := by
      rw [Interner.size, hkeys, Array.size_push, Interner.size]
    have hfirst : TypeId.firstCompound ≤ l.arena.types.size :=
      TypeTable.index_lt_of_kind (h.descending.builtins .double)
    rw [hsize, hindex]
    constructor
    · rintro (hid | rfl)
      · omega
      · exact ⟨hfirst, Nat.lt_succ_self _⟩
    · rintro ⟨hge, hlt⟩
      rcases Nat.lt_succ_iff_lt_or_eq.1 hlt with hlt | heq
      · exact .inl ⟨hge, hlt⟩
      · exact .inr (TypeId.index_injective heq)

/-- **One operation.** Nodes, lists and names have no part in it, and a reset leads to a fresh
table. -/
theorem step [Build] (h : l.Sound) {op : Operation} (hop : ∀ q ∈ op.components, l.MayUse q) :
    (l.step op).Sound := by
  cases op with
  | query q => exact h
  | edit e =>
    obtain ⟨⟨store, names, types⟩, made⟩ := l
    cases e with
    | node e => exact ⟨h.descending, h.mem_made_iff⟩
    | intern text => exact ⟨h.descending, h.mem_made_iff⟩
    | type e => exact h.step_type hop
    | reset =>
      rw [step_reset]
      exact sound_initial

/-- Any number of operations. -/
theorem run [Build] (h : l.Sound) {ops : List Operation} (hops : l.Disciplined ops) :
    (l.run ops).Sound := by
  induction ops generalizing l with
  | nil => exact h
  | cons op ops ih =>
    obtain ⟨hop, hrest⟩ := hops
    rw [run_cons]
    exact ih (h.step hop) hrest

/-- The components of what is made have trees. -/
theorem exists_hasTree (h : l.Sound) (he : ∀ q ∈ e.kind.components, l.MayUse q) :
    ∃ tree, e.HasTree l.arena.types tree :=
  h.descending.exists_layer fun q hq => h.index_lt (he q hq)

/-- A type that has been made is found, and nothing else happens. -/
theorem apply_of_built [Build] (h : l.Sound) {tree : TypeTree}
    (htree : e.HasTree l.arena.types tree) (hbuilt : l.Built tree) :
    ∃ id ∈ l.made, l.arena.types.tree { id } = .ok tree ∧
      l.arena.apply (.type e) = ⟨l.arena, .ok (.type { id }), []⟩ := by
  obtain ⟨id, hkind⟩ := (h.built_iff htree).1 hbuilt
  refine ⟨id, h.mem_made_of_kind hkind, TypeTable.tree_iff.2 ⟨_, hkind, htree⟩, ?_⟩
  rw [Arena.apply_type, TypeTable.add_of_kind hkind]

/-- A type that has not been made is the next entry of the table. -/
theorem apply_of_not_built [Build] (h : l.Sound) {tree : TypeTree}
    (htree : e.HasTree l.arena.types tree) (hbuilt : ¬l.Built tree) :
    ∃ types : TypeTable, types.keys = l.arena.types.keys.push e.kind ∧
      types.tree { id := ⟨l.arena.types.size⟩ } = .ok tree ∧
      l.arena.apply (.type e)
        = ⟨{ l.arena with types := types }, .ok (.type { id := ⟨l.arena.types.size⟩ }), []⟩ := by
  obtain ⟨hkeys, hindex⟩ :=
    TypeTable.add_of_forall_kind_ne (not_exists.1 (mt (h.built_iff htree).2 hbuilt))
  refine ⟨(l.arena.types.add e.kind).1, hkeys, ?_, ?_⟩
  · rw [← hindex]
    exact TypeTable.tree_add htree
  · rw [Arena.apply_type, hindex]

/-- Types that are there are equal exactly if their trees are. -/
theorem type_eq_iff (h : l.Sound) {p q : QualType} (hp : p.id.index < l.arena.types.size)
    (hq : q.id.index < l.arena.types.size) :
    ∃ a b, l.arena.types.tree p = .ok a ∧ l.arena.types.tree q = .ok b ∧ (p = q ↔ a = b) := by
  obtain ⟨a, ha⟩ := h.descending.exists_tree hp
  obtain ⟨b, hb⟩ := h.descending.exists_tree hq
  refine ⟨a, b, ha, hb, ?_, ?_⟩
  · rintro rfl
    exact Except.ok.inj (ha.symm.trans hb)
  · rintro rfl
    exact TypeTable.type_eq_of_tree_eq ha hb

end Sound

end TypeLedger

/-! ## Disciplined runs -/

/-- A run from a fresh arena in which types are made of builtin types and of types made since the
last reset. All other operations are free. -/
structure TypeRun [Build] where
  ops : List Operation
  disciplined : TypeLedger.initial.Disciplined ops

namespace TypeRun

/-- The arena after the run, with the types made since its last reset. -/
def ledger [Build] (x : TypeRun) : TypeLedger := TypeLedger.initial.run x.ops

/-- The table of types after the run. -/
def types [Build] (x : TypeRun) : TypeTable := x.ledger.arena.types

/-- **Interning types is canonical.** After a run with any number of resets:

* two types that are there are equal exactly if they are equal all the way down, qualifiers
  included;
* making a type that has been made since the last reset finds its index and changes nothing; making
  another one adds a single entry to the table of types, whose index is the answer;
* the first indices are those of the builtin types in their order, no type that was made has one of
  them, and whether an index is one of a builtin type can be told from the index as well as from the
  table. -/
theorem interning_canonical [Build] (x : TypeRun) :
    x.ledger.arena = .after .initial x.ops ∧
    (∀ p q : QualType, p.id.index < x.types.size → q.id.index < x.types.size →
      ∃ a b, x.types.tree p = .ok a ∧ x.types.tree q = .ok b ∧ (p = q ↔ a = b)) ∧
    (∀ e : TypeEdit, (∀ q ∈ e.kind.components, x.ledger.MayUse q) →
      ∃ tree, e.HasTree x.types tree ∧
        (x.ledger.Built tree → ∃ id ∈ x.ledger.made, x.types.tree { id } = .ok tree ∧
          x.ledger.arena.apply (.type e) = ⟨x.ledger.arena, .ok (.type { id }), []⟩) ∧
        (¬x.ledger.Built tree → ∃ types : TypeTable, types.keys = x.types.keys.push e.kind ∧
          types.tree { id := ⟨x.types.size⟩ } = .ok tree ∧
          x.ledger.arena.apply (.type e)
            = ⟨{ x.ledger.arena with types := types }, .ok (.type { id := ⟨x.types.size⟩ }), []⟩)) ∧
    (∀ i b, BuiltinType.all[i]? = some b → x.types.kind ⟨i⟩ = .ok (.builtin b)) ∧
    (∀ id ∈ x.ledger.made, TypeId.firstCompound ≤ id.index) ∧
    ∀ id kind, x.types.kind id = .ok kind →
      (id.isBuiltin ↔ ∃ b, kind = .builtin b) ∧
        ∀ b, BuiltinType.ofTypeId? id = some b ↔ kind = .builtin b := by
  have h : x.ledger.Sound := TypeLedger.sound_initial.run x.disciplined
  refine ⟨TypeLedger.arena_run _ _, fun p q hp hq => h.type_eq_iff hp hq, ?_, ?_, ?_, ?_⟩
  · intro e he
    obtain ⟨tree, htree⟩ := h.exists_hasTree he
    exact ⟨tree, htree, h.apply_of_built htree, h.apply_of_not_built htree⟩
  · exact fun i b hb => h.descending.kind_of_ofTypeId? hb
  · exact fun id hid => ((h.mem_made_iff id).1 hid).1
  · intro id kind hkind
    exact ⟨h.descending.isBuiltin_iff hkind, h.descending.ofTypeId?_eq_some_iff hkind⟩

/-- Before a reset a pointer to `int` is made; after it one to `char`, twice, and a function that
takes it as `const`. A node with a type that is not there changes nothing about that. -/
def sample : TypeRun where
  ops :=
    [.edit (.type (.pointer (.builtin .int))), .edit .reset,
      .edit (.type (.pointer (.builtin .char))),
      .edit (.node (.construct (.integerLiteral 0 { id := ⟨99⟩ } .invalid))),
      .edit (.type (.function (.builtin .void) [{ id := ⟨8⟩, quals := { isConst := true } }])),
      .edit (.type (.pointer (.builtin .char)))]
  disciplined := by decide +kernel

theorem sample_canonical :
    (∃ a b, sample.types.tree { id := ⟨8⟩ } = .ok a ∧ sample.types.tree { id := ⟨9⟩ } = .ok b ∧
        a ≠ b) ∧
      (∃ id ∈ sample.ledger.made,
        sample.ledger.arena.apply (.type (.pointer (.builtin .char)))
          = ⟨sample.ledger.arena, .ok (.type { id }), []⟩) ∧
      sample.types.kind ⟨7⟩ = .ok (.builtin .double) := by
  obtain ⟨-, heq, hmake, hbuiltin, -, -⟩ := sample.interning_canonical
  have hsound : sample.ledger.Sound := TypeLedger.sound_initial.run sample.disciplined
  refine ⟨?_, ?_, hbuiltin 7 .double rfl⟩
  · obtain ⟨a, b, ha, hb, hab⟩ :=
      heq { id := ⟨8⟩ } { id := ⟨9⟩ } (by decide +kernel) (by decide +kernel)
    exact ⟨a, b, ha, hb, mt hab.2 (by decide)⟩
  · obtain ⟨tree, htree, hfound, -⟩ := hmake (.pointer (.builtin .char)) (by decide +kernel)
    have hkind : sample.types.kind ⟨8⟩ = .ok (.pointer (.builtin .char)) := by decide +kernel
    obtain ⟨id, hid, -, hanswer⟩ := hfound ((hsound.built_iff htree).2 ⟨⟨8⟩, hkind⟩)
    exact ⟨id, hid, hanswer⟩

end TypeRun

end SyntaxArena
