import SyntaxArena.Operation
import SyntaxArena.Proofs.Unfolding

/-!
# Arenas only grow

Every operation but a reset leaves in place what was there, so what could be looked up before can be
looked up afterwards and is the same.

- `Arena.Extends`: what one arena answers to a lookup, another one answers too.
- `Arena.extends_apply`: an edit other than a reset leads to an arena that extends the one before.
- `Arena.Extends.unfold`: trees stay as they are.
- `Arena.after_induction`: what holds at first, and after every edit that keeps it, holds of a run.
-/

namespace SyntaxArena

/-! ## Tables -/

/-- Every key keeps its number. -/
def Interner.Extends {α : Type} (t u : Interner α) : Prop :=
  ∀ i a, t.get i = .ok a → u.get i = .ok a

theorem Interner.extends_intern {α : Type} [DecidableEq α] (t : Interner α) (a : α) :
    t.Extends (t.intern a).1 := fun _ _ h => get_intern_of_get h

/-- Every list that can be read can still be read. -/
def ListPool.Extends {α : Type} (p q : ListPool α) : Prop :=
  ∀ storage s l, p.read storage s = .ok l → q.read storage s = .ok l

theorem ListPool.extends_add {α : Type} (p : ListPool α) (l : List α) : p.Extends (p.add l).1 :=
  fun _ _ _ h => read_add_of_read l h

namespace NodeStore

/-- Nodes and lists are where they were. -/
structure Extends (s t : NodeStore) : Prop where
  node : ∀ id n, s.node id = .ok n → t.node id = .ok n
  exprLists : s.exprLists.Extends t.exprLists
  stmtLists : s.stmtLists.Extends t.stmtLists

theorem Extends.refl (s : NodeStore) : s.Extends s where
  node _ _ h := h
  exprLists _ _ _ h := h
  stmtLists _ _ _ h := h

theorem Extends.trans {s t u : NodeStore} (h : s.Extends t) (h' : t.Extends u) : s.Extends u where
  node id n hn := h'.node id n (h.node id n hn)
  exprLists _ seg l hl := h'.exprLists _ seg l (h.exprLists _ seg l hl)
  stmtLists _ seg l hl := h'.stmtLists _ seg l (h.stmtLists _ seg l hl)

theorem extends_add (s : NodeStore) (node : Node) : s.Extends (s.add node).1 where
  node _ _ h := node_add_of_node node h
  exprLists _ _ _ h := h
  stmtLists _ _ _ h := h

theorem extends_addExpr (s : NodeStore) (node : Node) : s.Extends (s.addExpr node).1 := by
  unfold addExpr
  by_cases h : node.isExpr
  · rw [if_pos h]
    exact s.extends_add node
  · rw [if_neg h]
    exact .refl s

theorem extends_addExprList (s : NodeStore) (l : List ExprId) : s.Extends (s.addExprList l).1 where
  node _ _ h := h
  exprLists := s.exprLists.extends_add l
  stmtLists _ _ _ h := h

theorem extends_addStmtList (s : NodeStore) (l : List StmtId) : s.Extends (s.addStmtList l).1 where
  node _ _ h := h
  exprLists _ _ _ h := h
  stmtLists := s.stmtLists.extends_add l

theorem extends_place (s : NodeStore) (b : Blueprint) : s.Extends (s.place b).1 := by
  cases b with
  | call n => exact s.extends_addExprList n.args
  | compound n => exact s.extends_addStmtList n.body
  | _ => exact .refl s

theorem extends_build (s : NodeStore) (b : Blueprint) : s.Extends (s.build b).1 :=
  (s.extends_place b).trans ((s.place b).1.extends_add _)

theorem extends_apply [Build] (s : NodeStore) (e : NodeEdit) : s.Extends (s.apply e).state := by
  cases e with
  | add node => exact s.extends_add node
  | addExpr node => exact s.extends_addExpr node
  | addExprList ids => exact s.extends_addExprList ids
  | addStmtList ids => exact s.extends_addStmtList ids
  | construct k => exact s.extends_build k.blueprint
  | request g r => exact s.extends_build _

/-- The lists of a node read as before. -/
theorem Extends.resolve {s t : NodeStore} (h : s.Extends t) {node : Node} {b : Blueprint}
    (hb : s.resolve node = .ok b) : t.resolve node = .ok b := by
  cases node with
  | call n =>
    obtain ⟨args, hargs, hb⟩ := Checked.bind_eq_ok_iff.1 hb
    exact Checked.bind_eq_ok_iff.2 ⟨args, h.exprLists _ _ _ hargs, hb⟩
  | compound n =>
    obtain ⟨body, hbody, hb⟩ := Checked.bind_eq_ok_iff.1 hb
    exact Checked.bind_eq_ok_iff.2 ⟨body, h.stmtLists _ _ _ hbody, hb⟩
  | _ => exact hb

theorem Extends.children {s t : NodeStore} (h : s.Extends t) {id : StmtId} {ids : List StmtId}
    (hids : s.children id = .ok ids) : t.children id = .ok ids := by
  obtain ⟨node, b, hnode, hb, rfl⟩ := children_eq_ok_iff.1 hids
  exact children_eq_ok_iff.2 ⟨node, b, h.node id node hnode, h.resolve hb, rfl⟩

end NodeStore

/-- The indices below the compound types are those of the builtin types. -/
theorem BuiltinType.exists_typeId {id : TypeId} (h : id.index < TypeId.firstCompound) :
    ∃ b : BuiltinType, b.typeId = id := by
  obtain ⟨i⟩ := id
  have hi : i = 0 ∨ i = 1 ∨ i = 2 ∨ i = 3 ∨ i = 4 ∨ i = 5 ∨ i = 6 ∨ i = 7 := by
    have hlt : i < 8 := h
    omega
  rcases hi with rfl | rfl | rfl | rfl | rfl | rfl | rfl | rfl
  exacts [⟨.void, rfl⟩, ⟨.bool, rfl⟩, ⟨.char, rfl⟩, ⟨.int, rfl⟩, ⟨.uint, rfl⟩, ⟨.long, rfl⟩,
    ⟨.float, rfl⟩, ⟨.double, rfl⟩]

/-! ## Arenas -/

namespace Arena

/-- What is looked up in `c` is found in `d` as well. -/
structure Extends (c d : Arena) : Prop where
  store : c.store.Extends d.store
  names : c.names.Extends d.names
  types : c.types.Extends d.types

theorem Extends.refl (c : Arena) : c.Extends c where
  store := .refl c.store
  names _ _ h := h
  types _ _ h := h

theorem Extends.trans {c d e : Arena} (h : c.Extends d) (h' : d.Extends e) : c.Extends e where
  store := h.store.trans h'.store
  names i a hi := h'.names i a (h.names i a hi)
  types i a hi := h'.types i a (h.types i a hi)

/-- An arena of which only the store grows. -/
theorem Extends.of_store {s t : NodeStore} {names : IdentifierTable} {types : TypeTable}
    (h : s.Extends t) : Extends ⟨s, names, types⟩ ⟨t, names, types⟩ where
  store := h
  names _ _ h := h
  types _ _ h := h

/-- An edit other than a reset leaves in place what was there. -/
theorem extends_apply [Build] (c : Arena) {e : Edit} (he : e ≠ .reset) :
    c.Extends (c.apply e).state := by
  obtain ⟨store, names, types⟩ := c
  cases e with
  | node e => exact .of_store (store.extends_apply e)
  | intern text => exact ⟨.refl store, names.extends_intern text, fun _ _ h => h⟩
  | type e =>
    refine ⟨.refl store, fun _ _ h => h, ?_⟩
    cases e with
    | pointer pointee => exact types.extends_intern (.pointer pointee)
    | function ret params => exact types.extends_intern (.function ret params)
  | reset => exact absurd rfl he

namespace Extends

variable {c d : Arena} {Args Body : Type}

theorem text {n : Identifier} {text : String} (h : c.Extends d) (hn : c.names.text n = .ok text) :
    d.names.text n = .ok text := h.names _ _ hn

theorem kind {id : TypeId} {kind : TypeKind} (h : c.Extends d)
    (hkind : c.types.kind id = .ok kind) : d.types.kind id = .ok kind := h.types _ _ hkind

theorem typeTree {type : QualType} {tree : TypeTree} (h : c.Extends d)
    (ht : c.types.tree type = .ok tree) : d.types.tree type = .ok tree :=
  TypeTable.tree_of_kinds (fun _ _ => h.kind) ht

theorem spelling {type : QualType} {text : String} (h : c.Extends d)
    (ht : c.types.spelling type = .ok text) : d.types.spelling type = .ok text := by
  obtain ⟨tree, htree⟩ := TypeTable.exists_tree_iff.2 (TypeTable.exists_spelling_iff.1 ⟨text, ht⟩)
  have htext := TypeTable.spelling_of_tree htree
  rw [ht] at htext
  rw [Except.ok.inj htext]
  exact TypeTable.spelling_of_tree (h.typeTree htree)

theorem spellInfo {info : ExprInfo} {i : SpeltInfo} (h : c.Extends d)
    (hi : c.spellInfo info = .ok i) : d.spellInfo info = .ok i := by
  obtain ⟨text, htext, hi⟩ := Checked.bind_eq_ok_iff.1 hi
  rw [Arena.spellInfo, h.spelling htext]
  exact hi

theorem spellDecl {decl : VarDecl} {e : SpeltDecl} (h : c.Extends d)
    (he : c.spellDecl decl = .ok e) : d.spellDecl decl = .ok e := by
  obtain ⟨name, hname, he⟩ := Checked.bind_eq_ok_iff.1 he
  obtain ⟨text, htext, he⟩ := Checked.bind_eq_ok_iff.1 he
  rw [Arena.spellDecl, h.text hname, h.spelling htext]
  exact he

theorem spellDecl? {o : Option VarDecl} {e : Option SpeltDecl} (h : c.Extends d)
    (he : c.spellDecl? o = .ok e) : d.spellDecl? o = .ok e := by
  cases o with
  | none => exact he
  | some decl =>
    obtain ⟨e, hdecl, he⟩ := Checked.bind_eq_ok_iff.1 he
    rw [Arena.spellDecl?, h.spellDecl hdecl]
    exact he

theorem label {n : NodeForm Args Body} {l : Label} (h : c.Extends d) (hl : c.label n = .ok l) :
    d.label n = .ok l := by
  cases n with
  | declRef n =>
    obtain ⟨decl, hdecl, hl⟩ := Checked.bind_eq_ok_iff.1 hl
    obtain ⟨info, hinfo, hl⟩ := Checked.bind_eq_ok_iff.1 hl
    rw [Arena.label, h.spellDecl hdecl, h.spellInfo hinfo]
    exact hl
  | ifStmt n | whileStmt n | returnStmt n =>
    obtain ⟨decl, hdecl, hl⟩ := Checked.bind_eq_ok_iff.1 hl
    rw [Arena.label, h.spellDecl? hdecl]
    exact hl
  | compound n | nullStmt n => exact hl
  | _ =>
    obtain ⟨info, hinfo, hl⟩ := Checked.bind_eq_ok_iff.1 hl
    rw [Arena.label, h.spellInfo hinfo]
    exact hl

/-- Trees stay as they are. -/
theorem unfold {id : StmtId} {tree : SyntaxTree} (h : c.Extends d) (ht : c.unfold id = .ok tree) :
    d.unfold id = .ok tree := by
  -- the bound on the depth may be greater in `d`, so the induction is on any depth
  have hwithin :
      ∀ fuel id tree, c.unfoldWithin fuel id = .ok tree → d.unfoldWithin fuel id = .ok tree := by
    intro fuel
    induction fuel with
    | zero => exact fun id tree hzero => absurd hzero unfoldWithin_zero_ne
    | succ fuel ih =>
      intro id tree hsucc
      obtain ⟨node, ids, hnode, hids, hlabel, hbelow⟩ := unfoldWithin_succ_iff.1 hsucc
      refine unfoldWithin_succ_iff.2
        ⟨node, ids, h.store.node id node hnode, h.store.children hids, ?_⟩
      exact ⟨h.label hlabel, hbelow.imp fun id u hu => ih id u hu⟩
  exact unfold_of_unfoldWithin (hwithin _ id tree ht)

end Extends

/-- What was built has the tree that its blueprint grows into. -/
theorem unfold_build {store : NodeStore} {names : IdentifierTable} {types : TypeTable}
    {b : Blueprint} {tree : SyntaxTree} (h : (⟨(store.build b).1, names, types⟩ : Arena).grow
      (unfold ⟨(store.build b).1, names, types⟩) b = .ok tree) :
    (⟨(store.build b).1, names, types⟩ : Arena).unfold (store.build b).2 = .ok tree := by
  obtain ⟨hlabel, hbelow⟩ := grow_eq_ok_iff.1 h
  have hnode : (store.build b).1.node (store.build b).2 = .ok (store.place b).2 :=
    NodeStore.node_add _ _
  have hresolve : (store.build b).1.resolve (store.place b).2 = .ok b :=
    ((store.place b).1.extends_add (store.place b).2).resolve (store.resolve_place b)
  have hchildren : (store.build b).1.children (store.build b).2 = .ok b.children :=
    NodeStore.children_eq_ok_iff.2 ⟨_, b, hnode, hresolve, rfl⟩
  rw [label_resolve (c := ⟨(store.build b).1, names, types⟩) hresolve] at hlabel
  exact unfold_iff.2 ⟨_, _, hnode, hchildren, hlabel, hbelow⟩

/-! ## Runs -/

/-- What holds of the arena at first, holds of a fresh arena and is kept by every edit, holds after
a run. -/
theorem after_induction [Build] {P : Arena → Prop} (hreset : P .initial)
    (hedit : ∀ c e, e ≠ .reset → P c → P (c.apply e).state) {c : Arena} (h : P c)
    (ops : List Operation) : P (c.after ops) := by
  induction ops generalizing c with
  | nil => exact h
  | cons op ops ih =>
    rw [after_cons]
    cases op with
    | query q => exact ih h
    | edit e =>
      by_cases he : e = .reset
      · rw [he, state_step_reset]
        exact ih hreset
      · exact ih (hedit c e he h)

/-- The builtin types stand at their indices. -/
def HasBuiltins (c : Arena) : Prop := ∀ b : BuiltinType, c.types.kind b.typeId = .ok (.builtin b)

theorem HasBuiltins.of_extends {c d : Arena} (h : c.HasBuiltins) (hcd : c.Extends d) :
    d.HasBuiltins :=
  fun b => hcd.kind (h b)

/-- The builtin types stand at their indices in every arena that can be reached. -/
theorem hasBuiltins_after [Build] (ops : List Operation) :
    (Arena.initial.after ops).HasBuiltins := by
  refine after_induction TypeTable.kind_initial_typeId ?_ TypeTable.kind_initial_typeId ops
  exact fun c e he h => h.of_extends (c.extends_apply he)

end Arena

end SyntaxArena
