import SyntaxArena.Proofs.Checked
import SyntaxArena.Proofs.Descent
import SyntaxArena.Types.Spelling

/-!
# Types as trees

An index of a type table stands for a tree of types. The spelling of a type is a function of that
tree, so what holds of the tree holds of the spelling, whatever the indices are.

- `TypeTree`: a type with its components written out, and `TypeTree.spelling`.
- `TypeTable.tree`: the tree of a type, or the first fault on the way.
- `TypeTable.Resolvable`: no cycle and no missing entry below an index.
- `TypeTable.exists_tree_iff`: exactly the resolvable types have a tree.
- `TypeTable.spelling_of_tree`: a type with a tree has the spelling of the tree.
- `TypeTable.tree_of_kinds`: a table with further entries has the same trees.
-/

namespace SyntaxArena

/-- A type with its components written out. -/
inductive TypeTree where
  | builtin (quals : Qualifiers) (type : BuiltinType)
  | pointer (quals : Qualifiers) (pointee : TypeTree)
  | function (quals : Qualifiers) (ret : TypeTree) (params : List TypeTree)

/-! ## The spelling of a tree -/

mutual

/-- The spelling in C. -/
def TypeTree.spelling : TypeTree → String
  | .builtin quals b => if quals.spelling = "" then b.name else quals.spelling ++ " " ++ b.name
  | .pointer quals (.function _ ret params) =>
    ret.spelling ++ " (*)(" ++ TypeTable.spellParams (TypeTree.spellings params) ++ ")"
      ++ quals.spelling
  | .pointer quals pointee => pointee.spelling ++ " *" ++ quals.spelling
  | .function _ ret params =>
    ret.spelling ++ " (" ++ TypeTable.spellParams (TypeTree.spellings params) ++ ")"

/-- The spellings of several types. -/
def TypeTree.spellings : List TypeTree → List String
  | [] => []
  | type :: types => type.spelling :: TypeTree.spellings types

end

theorem TypeTree.spellings_eq_map (types : List TypeTree) :
    spellings types = types.map spelling := by
  induction types with
  | nil => rfl
  | cons type types ih => rw [spellings, ih, List.map_cons]

/-! ## One layer of a tree -/

/-- The types that a type is made of. -/
def TypeKind.components : TypeKind → List QualType
  | .builtin _ => []
  | .pointer pointee => [pointee]
  | .function ret params => ret :: params

/-- A kind with qualifiers and a tree are alike at the top, and `R` holds between their
components. -/
inductive TypeKind.Layer (R : QualType → TypeTree → Prop) (quals : Qualifiers) :
    TypeKind → TypeTree → Prop where
  | builtin (b : BuiltinType) : Layer R quals (.builtin b) (.builtin quals b)
  | pointer {pointee : QualType} {p : TypeTree} (hp : R pointee p) :
      Layer R quals (.pointer pointee) (.pointer quals p)
  | function {ret : QualType} {params : List QualType} {r : TypeTree} {ps : List TypeTree}
      (hr : R ret r) (hps : List.Forall₂ R params ps) :
      Layer R quals (.function ret params) (.function quals r ps)

namespace TypeKind.Layer

variable {R S : QualType → TypeTree → Prop} {quals : Qualifiers} {kind : TypeKind} {tree : TypeTree}

theorem mono (h : Layer R quals kind tree) (hRS : ∀ q ∈ kind.components, ∀ u, R q u → S q u) :
    Layer S quals kind tree := by
  cases h with
  | builtin b => exact .builtin b
  | pointer hp => exact .pointer (hRS _ List.mem_cons_self _ hp)
  | @function ret params r ps hr hps =>
    have hmem := (List.forall₂_and_left _ _).2 ⟨fun q hq => List.mem_cons_of_mem ret hq, hps⟩
    exact .function (hRS _ List.mem_cons_self _ hr) (hmem.imp fun q u h => hRS q h.1 u h.2)

/-- Every component is related to some tree. -/
theorem exists_of_mem (h : Layer R quals kind tree) {q : QualType} (hq : q ∈ kind.components) :
    ∃ u, R q u := by
  cases h with
  | builtin b => simp [components] at hq
  | pointer hp =>
    obtain rfl := List.mem_singleton.1 hq
    exact ⟨_, hp⟩
  | function hr hps =>
    obtain ⟨u, -, hu⟩ := Checked.exists_of_forall₂ (List.Forall₂.cons hr hps) q hq
    exact ⟨u, hu⟩

/-- Where every component is related to a tree, so is the whole. -/
theorem exists_of_components (quals : Qualifiers) (h : ∀ q ∈ kind.components, ∃ u, R q u) :
    ∃ tree, Layer R quals kind tree := by
  cases kind with
  | builtin b => exact ⟨_, .builtin b⟩
  | pointer pointee =>
    obtain ⟨p, hp⟩ := h pointee List.mem_cons_self
    exact ⟨_, .pointer hp⟩
  | function ret params =>
    obtain ⟨r, hr⟩ := h ret List.mem_cons_self
    obtain ⟨ps, hps⟩ := Checked.exists_forall₂ fun q hq => h q (List.mem_cons_of_mem ret hq)
    exact ⟨_, .function hr hps⟩

end TypeKind.Layer

theorem TypeId.index_injective : Function.Injective TypeId.index :=
  fun ⟨_⟩ ⟨_⟩ h => congrArg TypeId.mk h

namespace TypeTable

/-! ## The tree of a type -/

/-- The tree of a type whose components are nested less than `fuel` deep. -/
def treeWithin (t : TypeTable) : Nat → QualType → Except Fault TypeTree
  | 0, _ => .error .cyclic
  | fuel + 1, type => do
    match ← t.kind type.id with
    | .builtin b => return .builtin type.quals b
    | .pointer pointee => return .pointer type.quals (← t.treeWithin fuel pointee)
    | .function ret params =>
      let ret ← t.treeWithin fuel ret
      let params ← params.mapM (t.treeWithin fuel)
      return .function type.quals ret params

/-- The tree of a type. -/
def tree (t : TypeTable) (type : QualType) : Except Fault TypeTree := t.treeWithin (t.size + 1) type

variable {t : TypeTable} {fuel : Nat} {type : QualType} {tree : TypeTree}

theorem treeWithin_zero_ne : t.treeWithin 0 type ≠ .ok tree := nofun

/-- A type has a tree when it has a kind and the components of the kind have trees. -/
theorem treeWithin_succ_iff :
    t.treeWithin (fuel + 1) type = .ok tree ↔
      ∃ kind, t.kind type.id = .ok kind ∧
        kind.Layer (fun q u => t.treeWithin fuel q = .ok u) type.quals tree := by
  rw [treeWithin, Checked.bind_eq_ok_iff]
  refine exists_congr fun kind => and_congr_right fun _ => ?_
  constructor
  · intro h
    cases kind with
    | builtin b =>
      obtain rfl := Checked.pure_eq_ok_iff.1 h
      exact .builtin b
    | pointer pointee =>
      obtain ⟨p, hp, h⟩ := Checked.bind_eq_ok_iff.1 h
      obtain rfl := Checked.pure_eq_ok_iff.1 h
      exact .pointer hp
    | function ret params =>
      obtain ⟨r, hr, h⟩ := Checked.bind_eq_ok_iff.1 h
      obtain ⟨ps, hps, h⟩ := Checked.bind_eq_ok_iff.1 h
      obtain rfl := Checked.pure_eq_ok_iff.1 h
      exact .function hr (Checked.mapM_eq_ok_iff.1 hps)
  · intro h
    cases h with
    | builtin b => rfl
    | pointer hp => exact Checked.bind_eq_ok_iff.2 ⟨_, hp, rfl⟩
    | function hr hps =>
      exact Checked.bind_eq_ok_iff.2
        ⟨_, hr, Checked.bind_eq_ok_iff.2 ⟨_, Checked.mapM_eq_ok_iff.2 hps, rfl⟩⟩

/-- Another table with the same kinds has the same trees. -/
theorem treeWithin_of_kinds {u : TypeTable}
    (h : ∀ id kind, t.kind id = .ok kind → u.kind id = .ok kind)
    (htree : t.treeWithin fuel type = .ok tree) : u.treeWithin fuel type = .ok tree := by
  induction fuel generalizing type tree with
  | zero => exact absurd htree treeWithin_zero_ne
  | succ fuel ih =>
    obtain ⟨kind, hkind, hlayer⟩ := treeWithin_succ_iff.1 htree
    exact treeWithin_succ_iff.2 ⟨kind, h _ _ hkind, hlayer.mono fun q _ u hq => ih hq⟩

/-- The tree of a type has one layer more than the trees of its components. -/
theorem layered_tree (t : TypeTable) :
    Layered t.treeWithin fun R type tree =>
      ∃ kind, t.kind type.id = .ok kind ∧ kind.Layer R type.quals tree where
  zero _ _ := treeWithin_zero_ne
  succ _ _ _ := treeWithin_succ_iff
  mono hRS := fun ⟨kind, hkind, hlayer⟩ => ⟨kind, hkind, hlayer.mono fun q _ u => hRS q u⟩

theorem treeWithin_mono {m n : Nat} (hmn : m ≤ n) (h : t.treeWithin m type = .ok tree) :
    t.treeWithin n type = .ok tree :=
  t.layered_tree.deeper hmn h

/-! ## Which types have a tree -/

/-- `b` is the index of a component of the type at `a`. -/
def Component (t : TypeTable) (a b : TypeId) : Prop :=
  ∃ kind, t.kind a = .ok kind ∧ ∃ q ∈ kind.components, q.id = b

/-- No cycle and no missing entry lies below an index. -/
def Resolvable (t : TypeTable) (id : TypeId) : Prop :=
  Grounded t.Component (fun id => ∃ kind, t.kind id = .ok kind) id

theorem exists_treeWithin_congr {type' : QualType} (hid : type.id = type'.id)
    (h : ∃ tree, t.treeWithin fuel type = .ok tree) :
    ∃ tree, t.treeWithin fuel type' = .ok tree := by
  obtain ⟨tree, h⟩ := h
  cases fuel with
  | zero => exact absurd h treeWithin_zero_ne
  | succ fuel =>
    obtain ⟨kind, hkind, hlayer⟩ := treeWithin_succ_iff.1 h
    obtain ⟨tree', hlayer'⟩ :=
      TypeKind.Layer.exists_of_components type'.quals fun q hq => hlayer.exists_of_mem hq
    exact ⟨tree', treeWithin_succ_iff.2 ⟨kind, hid ▸ hkind, hlayer'⟩⟩

/-- Whether there is a tree does not depend on the qualifiers. -/
theorem exists_treeWithin_unqualified_iff :
    (∃ tree, t.treeWithin fuel { id := type.id } = .ok tree) ↔
      ∃ tree, t.treeWithin fuel type = .ok tree :=
  ⟨exists_treeWithin_congr rfl, exists_treeWithin_congr rfl⟩

/-- Looking for the tree of a type is a recursion along its components. -/
theorem recursion_tree (t : TypeTable) :
    Recursion t.Component (fun id => ∃ kind, t.kind id = .ok kind)
      fun n id => ∃ tree, t.treeWithin n { id } = .ok tree where
  zero _ := fun ⟨_, h⟩ => treeWithin_zero_ne h
  succ n id := by
    constructor
    · rintro ⟨tree, h⟩
      obtain ⟨kind, hkind, hlayer⟩ := treeWithin_succ_iff.1 h
      refine ⟨⟨kind, hkind⟩, ?_⟩
      rintro b ⟨kind', hkind', q, hq, rfl⟩
      obtain rfl := Except.ok.inj (hkind.symm.trans hkind')
      exact exists_treeWithin_unqualified_iff.2 (hlayer.exists_of_mem hq)
    · rintro ⟨⟨kind, hkind⟩, hbelow⟩
      have hlayer : ∃ tree, kind.Layer (fun q u => t.treeWithin n q = .ok u) .none tree := by
        refine TypeKind.Layer.exists_of_components .none fun q hq => ?_
        exact exists_treeWithin_unqualified_iff.1 (hbelow q.id ⟨kind, hkind, q, hq, rfl⟩)
      obtain ⟨tree, htree⟩ := hlayer
      exact ⟨tree, treeWithin_succ_iff.2 ⟨kind, hkind, htree⟩⟩

theorem index_lt_of_kind {id : TypeId} {kind : TypeKind} (h : t.kind id = .ok kind) :
    id.index < t.size :=
  (Array.getElem?_eq_some_iff.1 (lookup_eq_ok_iff.1 h)).1

theorem exists_kind {id : TypeId} (h : id.index < t.size) : ∃ kind, t.kind id = .ok kind :=
  ⟨_, lookup_eq_ok_iff.2 (Array.getElem?_eq_getElem h)⟩

/-- Exactly the resolvable types have a tree. -/
theorem exists_tree_iff : (∃ tree, t.tree type = .ok tree) ↔ t.Resolvable type.id := by
  have hbound : ∀ id, (∃ kind, t.kind id = .ok kind) → id.index < t.size + 1 :=
    fun id ⟨_, h⟩ => Nat.lt_succ_of_lt (index_lt_of_kind h)
  exact exists_treeWithin_unqualified_iff.symm.trans
    (t.recursion_tree.iff_grounded TypeId.index_injective hbound)

/-- A tree that is found at any depth is found within the depth of the table. -/
theorem exists_tree_of_treeWithin (h : ∃ tree, t.treeWithin fuel type = .ok tree) :
    ∃ tree, t.tree type = .ok tree :=
  exists_tree_iff.2 (t.recursion_tree.grounded (exists_treeWithin_unqualified_iff.2 h))

theorem tree_of_treeWithin (h : t.treeWithin fuel type = .ok tree) : t.tree type = .ok tree :=
  t.layered_tree.of_depth (fun _ _ => exists_tree_of_treeWithin) h

/-! ## Spelling by tree -/

theorem spell_params {params : List QualType} {ps : List TypeTree}
    (h : List.Forall₂ (fun q p => t.spell fuel q = .ok p.spelling) params ps) :
    params.mapM (t.spell fuel) = .ok (TypeTree.spellings ps) := by
  rw [TypeTree.spellings_eq_map, Checked.mapM_eq_ok_iff]
  exact List.forall₂_map_right_iff.2 h

/-- The spelling of a type is that of its tree. The recursion for a pointer to a function goes down
two layers at once, so the tree is there with depth to spare. -/
theorem spell_of_treeWithin (h : t.treeWithin fuel type = .ok tree) :
    t.spell fuel type = .ok tree.spelling := by
  induction fuel generalizing type tree with
  | zero => exact absurd h treeWithin_zero_ne
  | succ fuel ih =>
    obtain ⟨kind, hkind, hlayer⟩ := treeWithin_succ_iff.1 h
    rw [spell, Checked.bind_eq_ok_iff]
    refine ⟨kind, hkind, ?_⟩
    cases hlayer with
    | builtin b =>
      rfl
    | @pointer pointee p hp =>
      -- the pointee has a tree, so there is depth left to look at its kind
      obtain ⟨f, rfl⟩ : ∃ f, fuel = f + 1 := Nat.exists_eq_succ_of_ne_zero fun h0 => by
        rw [h0] at hp
        exact treeWithin_zero_ne hp
      obtain ⟨kind, hkind, hbelow⟩ := treeWithin_succ_iff.1 hp
      refine Checked.bind_eq_ok_iff.2 ⟨kind, hkind, ?_⟩
      cases hbelow with
      | builtin b => exact Checked.bind_eq_ok_iff.2 ⟨_, ih hp, rfl⟩
      | pointer => exact Checked.bind_eq_ok_iff.2 ⟨_, ih hp, rfl⟩
      | function hr hps =>
        have hret := ih (treeWithin_mono (Nat.le_succ f) hr)
        have hparams := hps.imp fun q u hq => ih (treeWithin_mono (Nat.le_succ f) hq)
        refine Checked.bind_eq_ok_iff.2 ⟨_, hret, ?_⟩
        refine Checked.bind_eq_ok_iff.2 ⟨_, spell_params hparams, rfl⟩
    | function hr hps =>
      refine Checked.bind_eq_ok_iff.2 ⟨_, ih hr, ?_⟩
      exact Checked.bind_eq_ok_iff.2 ⟨_, spell_params (hps.imp fun q u hq => ih hq), rfl⟩

/-- A type with a tree has the spelling of the tree. -/
theorem spelling_of_tree (h : t.tree type = .ok tree) : t.spelling type = .ok tree.spelling :=
  spell_of_treeWithin h

/-- Where the parts of a function type are spelt, each component is. -/
theorem exists_spell_of_function {ret : QualType} {params : List QualType} {r : String}
    {ps : List String} (hr : t.spell fuel ret = .ok r) (hps : params.mapM (t.spell fuel) = .ok ps) :
    ∀ q ∈ (TypeKind.function ret params).components, ∃ text, t.spell fuel q = .ok text := by
  rintro q (_ | ⟨_, hq⟩)
  · exact ⟨r, hr⟩
  · obtain ⟨text, -, htext⟩ := Checked.exists_of_forall₂ (Checked.mapM_eq_ok_iff.1 hps) q hq
    exact ⟨text, htext⟩

/-- A type with a spelling has a tree, at most twice as deep because of the layers that are
skipped. -/
theorem exists_treeWithin_of_spell {text : String} (h : t.spell fuel type = .ok text) :
    ∃ tree, t.treeWithin (2 * fuel) type = .ok tree := by
  induction fuel generalizing type text with
  | zero => cases h
  | succ fuel ih =>
    have hone {q : QualType} {text : String} (hq : t.spell fuel q = .ok text) :
        ∃ tree, t.treeWithin (2 * fuel + 1) q = .ok tree := by
      obtain ⟨tree, htree⟩ := ih hq
      exact ⟨tree, treeWithin_mono (Nat.le_succ _) htree⟩
    rw [spell, Checked.bind_eq_ok_iff] at h
    obtain ⟨kind, hkind, h⟩ := h
    have hcomponents : ∀ q ∈ kind.components, ∃ tree, t.treeWithin (2 * fuel + 1) q = .ok tree := by
      cases kind with
      | builtin b => simp [TypeKind.components]
      | pointer pointee =>
        intro q hq
        obtain rfl := List.mem_singleton.1 hq
        obtain ⟨kind, hkind, h⟩ := Checked.bind_eq_ok_iff.1 h
        cases kind with
        | function ret params =>
          obtain ⟨r, hr, h⟩ := Checked.bind_eq_ok_iff.1 h
          obtain ⟨ps, hps, -⟩ := Checked.bind_eq_ok_iff.1 h
          have hcomponents : ∀ q ∈ (TypeKind.function ret params).components,
              ∃ tree, t.treeWithin (2 * fuel) q = .ok tree := by
            intro q hq
            obtain ⟨text, htext⟩ := exists_spell_of_function hr hps q hq
            exact ih htext
          obtain ⟨tree, htree⟩ := TypeKind.Layer.exists_of_components q.quals hcomponents
          exact ⟨tree, treeWithin_succ_iff.2 ⟨_, hkind, htree⟩⟩
        | _ =>
          obtain ⟨base, hbase, -⟩ := Checked.bind_eq_ok_iff.1 h
          exact hone hbase
      | function ret params =>
        obtain ⟨r, hr, h⟩ := Checked.bind_eq_ok_iff.1 h
        obtain ⟨ps, hps, -⟩ := Checked.bind_eq_ok_iff.1 h
        intro q hq
        obtain ⟨text, htext⟩ := exists_spell_of_function hr hps q hq
        exact hone htext
    obtain ⟨tree, htree⟩ := TypeKind.Layer.exists_of_components type.quals hcomponents
    exact ⟨tree, treeWithin_succ_iff.2 ⟨kind, hkind, htree⟩⟩

/-- Exactly the resolvable types have a spelling. -/
theorem exists_spelling_iff : (∃ text, t.spelling type = .ok text) ↔ t.Resolvable type.id := by
  rw [← exists_tree_iff]
  constructor
  · rintro ⟨text, h⟩
    obtain ⟨tree, htree⟩ := exists_treeWithin_of_spell h
    exact ⟨tree, tree_of_treeWithin htree⟩
  · rintro ⟨tree, h⟩
    exact ⟨tree.spelling, spelling_of_tree h⟩

/-- A table with the same kinds and more has the same trees. -/
theorem tree_of_kinds {u : TypeTable} (h : ∀ id kind, t.kind id = .ok kind → u.kind id = .ok kind)
    (htree : t.tree type = .ok tree) : u.tree type = .ok tree :=
  tree_of_treeWithin (treeWithin_of_kinds h htree)

theorem tree_iff :
    t.tree type = .ok tree ↔
      ∃ kind, t.kind type.id = .ok kind ∧
        kind.Layer (fun q u => t.tree q = .ok u) type.quals tree :=
  t.layered_tree.iff fun _ _ => exists_tree_of_treeWithin

end TypeTable

end SyntaxArena
