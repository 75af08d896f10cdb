import SyntaxArena.Arena.Outline
import SyntaxArena.Arena.Shape
import SyntaxArena.Node.Visit
import SyntaxArena.Proofs.Unfolding

/-!
# Depth enough

Every recursion over nodes and types has a bound on its depth and ends in a fault of its own where
the bound is not enough. Without a cycle below the root that never happens: a way down meets no node
twice, and at a handle without a node it ends. Other faults may well occur, and nothing has to exist
for this.

- `Finishes`: a computation does not end for want of depth.
- `TypeTable.finishes_spelling`, `Arena.finishes_visit`, `Arena.finishes_outline`,
  `Comparison.finishes_same`: nor do the recursions over types and nodes.
-/

namespace SyntaxArena

open Relation

/-! ## Computations that are deep enough -/

/-- The computation does not end for want of depth. -/
def Finishes {α : Type} (x : Except Fault α) : Prop := x ≠ .error .cyclic

namespace Finishes

variable {α β : Type} {x : Except Fault α}

@[simp] theorem ok (a : α) : Finishes (.ok a) := nofun

theorem bind {f : α → Except Fault β} (hx : Finishes x) (hf : ∀ a, x = .ok a → Finishes (f a)) :
    Finishes (x >>= f) := by
  cases x with
  | error e => exact fun h => hx (congrArg Except.error (Except.error.inj h))
  | ok a => exact hf a rfl

/-- A computation whose last step cannot fail. -/
theorem map {f : α → β} (hx : Finishes x) : Finishes (do return f (← x)) :=
  hx.bind fun a _ => ok (f a)

@[simp] theorem lookup (table : Array α) (index : Nat) : Finishes (lookup table index) := by
  intro h
  cases (lookup_eq_error_iff.1 h).2

@[simp] theorem read (p : ListPool α) (storage : ListKind) (s : Segment α) :
    Finishes (p.read storage s) := by
  unfold ListPool.read
  split <;> nofun

theorem mapM {f : α → Except Fault β} {l : List α} (h : ∀ a ∈ l, Finishes (f a)) :
    Finishes (l.mapM f) := by
  induction l with
  | nil => exact ok []
  | cons a l ih =>
    rw [List.mapM_cons]
    obtain ⟨ha, hl⟩ := List.forall_mem_cons.1 h
    exact ha.bind fun b _ => (ih hl).map

theorem foldlM {f : β → α → Except Fault β} {l : List α} (h : ∀ a ∈ l, ∀ b, Finishes (f b a))
    (b : β) : Finishes (l.foldlM f b) := by
  induction l generalizing b with
  | nil => exact ok b
  | cons a l ih =>
    rw [List.foldlM_cons]
    obtain ⟨ha, hl⟩ := List.forall_mem_cons.1 h
    exact (ha b).bind fun b' _ => ih hl b'

theorem allM {f : α → Except Fault Bool} {l : List α} (h : ∀ a ∈ l, Finishes (f a)) :
    Finishes (l.allM f) := by
  induction l with
  | nil => exact ok true
  | cons a l ih =>
    obtain ⟨ha, hl⟩ := List.forall_mem_cons.1 h
    refine ha.bind fun r _ => ?_
    cases r with
    | false => exact ok false
    | true => exact ih hl

theorem allOf {checks : List (Except Fault Bool)} (h : ∀ x ∈ checks, Finishes x) :
    Finishes (allOf checks) :=
  allM h

theorem agree {y : Except Fault α} [DecidableEq α] (hx : Finishes x) (hy : Finishes y) :
    Finishes (agree x y) :=
  hx.bind fun _ _ => hy.bind fun _ _ => ok _

end Finishes

/-! ## Types -/

namespace TypeTable

variable {t : TypeTable} {fuel : Nat} {type : QualType}

theorem finishes_kind (id : TypeId) : Finishes (t.kind id) := .lookup _ _

theorem finishes_spell (h : Within t.Component fuel type.id) : Finishes (t.spell fuel type) := by
  induction fuel generalizing type with
  | zero => exact h.elim
  | succ fuel ih =>
    refine (finishes_kind _).bind fun kind hkind => ?_
    have hbelow : ∀ q ∈ kind.components, Within t.Component fuel q.id :=
      fun q hq => h q.id ⟨kind, hkind, q, hq, rfl⟩
    cases kind with
    | builtin b => exact .ok _
    | pointer pointee =>
      have hpointee : Within t.Component fuel pointee.id := hbelow pointee List.mem_cons_self
      refine (finishes_kind _).bind fun kind hkind => ?_
      cases kind with
      | function ret params =>
        -- two layers at once, from which there is depth to spare
        have hskip : ∀ q ∈ ret :: params, Finishes (t.spell fuel q) := by
          intro q hq
          have hq : TransGen t.Component pointee.id q.id := .single ⟨_, hkind, q, hq, rfl⟩
          exact ih (hpointee.of_reflTransGen hq.to_reflTransGen)
        obtain ⟨hret, hparams⟩ := List.forall_mem_cons.1 hskip
        exact hret.bind fun _ _ => (Finishes.mapM hparams).map
      | _ => exact (ih hpointee).map
    | function ret params =>
      obtain ⟨hret, hparams⟩ := List.forall_mem_cons.1 hbelow
      exact (ih hret).bind fun _ _ => (Finishes.mapM fun q hq => ih (hparams q hq)).map

/-- Where every component is older than the type, or missing, no types form a cycle. -/
theorem acyclic_of_older (h : ∀ i < t.size, ∀ kind ∈ (t.kind ⟨i⟩).toOption, ∀ q ∈ kind.components,
    q.id.index < i ∨ t.size ≤ q.id.index) (id : TypeId) : Acyclic t.Component id := by
  refine Acyclic.of_older (n := t.size) TypeId.index ?_ id
  rintro ⟨i⟩ b ⟨kind, hkind, q, hq, rfl⟩
  have hi : i < t.size := index_lt_of_kind hkind
  exact ⟨hi, h i hi kind (by rw [hkind]; rfl) q hq⟩

theorem finishes_spelling (h : Acyclic t.Component type.id) : Finishes (t.spelling type) :=
  finishes_spell (h.within TypeId.index_injective fun _ _ ⟨_, hkind, _⟩ => index_lt_of_kind hkind)

end TypeTable

/-- The types that a node mentions: that of an expression, and that of a declaration. -/
def NodeForm.types {Args Body : Type} (n : NodeForm Args Body) : List QualType :=
  n.info?.toList.map ExprInfo.type ++ n.decl?.toList.map VarDecl.type

/-! ## Nodes -/

namespace NodeStore

variable {s : NodeStore}

theorem finishes_node (id : StmtId) : Finishes (s.node id) := .lookup _ _

theorem finishes_children (id : StmtId) : Finishes (s.children id) := by
  refine (finishes_node id).bind fun node _ => Finishes.map ?_
  cases node with
  | call n => exact (Finishes.read _ _ _).map
  | compound n => exact (Finishes.read _ _ _).map
  | _ => exact .ok _

end NodeStore

namespace Arena

variable {c : Arena} {fuel : Nat} {id : StmtId}

/-- The node stands at `root` or at a handle below it. -/
def Below (c : Arena) (root : StmtId) (node : Node) : Prop :=
  ∃ id, ReflTransGen c.Child root id ∧ c.store.node id = .ok node

theorem Below.self {node : Node} (h : c.store.node id = .ok node) : c.Below id node :=
  ⟨id, .refl, h⟩

theorem Below.of_child {a b : StmtId} {node : Node} (hab : c.Child a b) (h : c.Below b node) :
    c.Below a node := by
  obtain ⟨id, hid, hnode⟩ := h
  exact ⟨id, .head hab hid, hnode⟩

/-- No type that a node below `root` mentions has a cycle below it. -/
def AcyclicTypes (c : Arena) (root : StmtId) : Prop :=
  ∀ node, c.Below root node → ∀ type ∈ node.types, Acyclic c.types.Component type.id

theorem AcyclicTypes.child {a b : StmtId} (h : c.AcyclicTypes a) (hab : c.Child a b) :
    c.AcyclicTypes b :=
  fun node hnode => h node (.of_child hab hnode)

/-- Where every child is older than its parent, or missing, no nodes form a cycle. -/
theorem acyclic_of_older
    (h : ∀ i < c.store.size, ∀ ids ∈ (c.store.children ⟨i⟩).toOption, ∀ b ∈ ids,
      b.index < i ∨ c.store.size ≤ b.index) (id : StmtId) : Acyclic c.Child id := by
  refine Acyclic.of_older (n := c.store.size) StmtId.index ?_ id
  rintro ⟨i⟩ b ⟨ids, hids, hb⟩
  have hi : i < c.store.size := NodeStore.index_lt_of_children hids
  exact ⟨hi, h i hi ids (by rw [hids]; rfl) b hb⟩

/-- Without a cycle, the depth that the store allows is enough for every way down. -/
theorem within_depthBound (h : Acyclic c.Child id) : Within c.Child c.store.depthBound id :=
  h.within StmtId.index_injective fun _ _ ⟨_, hids, _⟩ => NodeStore.index_lt_of_children hids

theorem finishes_visitWithin {σ : Type} {v : Visitor σ}
    (henter : ∀ id state, Finishes (v.enter c.store id state)) (h : Within c.Child fuel id)
    (state : σ) : Finishes (c.store.visitWithin v fuel id state) := by
  induction fuel generalizing id state with
  | zero => exact h.elim
  | succ fuel ih =>
    refine (henter id state).bind fun ⟨next, goOn⟩ _ => ?_
    cases goOn with
    | false => exact .ok next
    | true =>
      refine (NodeStore.finishes_children id).bind fun ids hids => ?_
      exact Finishes.foldlM (fun b hb state => ih (h b ⟨ids, hids, hb⟩) state) next

/-- A visitor that is deep enough at every node is deep enough below a root without cycles. -/
theorem finishes_visit {σ : Type} {v : Visitor σ}
    (henter : ∀ id state, Finishes (v.enter c.store id state))
    (h : Acyclic c.Child id) (state : σ) : Finishes (c.store.visit v id state) :=
  finishes_visitWithin henter (within_depthBound h) state

/-! ## Outlines -/

theorem finishes_detailText (n : Node) : Finishes (c.detailText n) := by
  have hname (d : VarDecl) : Finishes (c.nameText d) := (Finishes.lookup _ _).map
  have hoptional (word : String) (o : Option VarDecl) : Finishes (c.optionalNameText word o) := by
    cases o with
    | none => exact .ok _
    | some d => exact (hname d).map
  cases n with
  | declRef n => exact (hname n.decl).map
  | ifStmt n | whileStmt n | returnStmt n => exact (hoptional _ _).map
  | _ => exact .ok _

theorem finishes_line {n : Node} (h : ∀ type ∈ n.types, Acyclic c.types.Component type.id) :
    Finishes (c.line n) := by
  unfold line
  split
  · rename_i info hinfo
    have hspelling : Finishes (c.types.spelling info.type) :=
      TypeTable.finishes_spelling (h info.type (by simp [NodeForm.types, hinfo]))
    exact hspelling.map.bind fun _ _ => (finishes_detailText n).map
  · exact (finishes_detailText n).map

theorem finishes_outlineLines (h : Within c.Child fuel id) (htypes : c.AcyclicTypes id)
    (depth : Nat) : Finishes (c.outlineLines fuel depth id) := by
  induction fuel generalizing id depth with
  | zero => exact h.elim
  | succ fuel ih =>
    refine (NodeStore.finishes_node id).bind fun node hnode => ?_
    refine (finishes_line (htypes node (.self hnode))).bind fun _ _ => ?_
    refine (NodeStore.finishes_children id).bind fun ids hids => Finishes.map (.mapM fun b hb => ?_)
    have hchild : c.Child id b := ⟨ids, hids, hb⟩
    exact ih (h b hchild) (htypes.child hchild) (depth + 1)

theorem finishes_outline (h : Acyclic c.Child id) (htypes : c.AcyclicTypes id) :
    Finishes (c.outline id) :=
  (finishes_outlineLines (within_depthBound h) htypes 0).map

end Arena

/-! ## Comparison -/

namespace Comparison

variable {c : Comparison} {fuel : Nat} {a b : StmtId}

theorem finishes_sameType {t u : QualType} (ht : Acyclic c.lhs.types.Component t.id)
    (hu : Acyclic c.rhs.types.Component u.id) : Finishes (c.sameType t u) :=
  .agree (TypeTable.finishes_spelling ht) (TypeTable.finishes_spelling hu)

theorem finishes_sameInfo {i j : ExprInfo} (hi : Acyclic c.lhs.types.Component i.type.id)
    (hj : Acyclic c.rhs.types.Component j.type.id) : Finishes (c.sameInfo i j) :=
  .allOf (by simp [finishes_sameType hi hj])

theorem finishes_sameDecl {d e : VarDecl} (hd : Acyclic c.lhs.types.Component d.type.id)
    (he : Acyclic c.rhs.types.Component e.type.id) : Finishes (c.sameDecl d e) := by
  have hname : Finishes (c.sameName d.name e.name) := .agree (.lookup _ _) (.lookup _ _)
  exact .allOf (by simp [hname, finishes_sameType hd he])

theorem finishes_sameDecl? {d e : Option VarDecl}
    (hd : ∀ x ∈ d, Acyclic c.lhs.types.Component x.type.id)
    (he : ∀ x ∈ e, Acyclic c.rhs.types.Component x.type.id) : Finishes (c.sameDecl? d e) := by
  cases d with
  | none => cases e <;> exact .ok _
  | some d =>
    cases e with
    | none => exact .ok _
    | some e => exact finishes_sameDecl (hd d rfl) (he e rfl)

theorem finishes_sameNode {x y : Node}
    (hx : ∀ type ∈ x.types, Acyclic c.lhs.types.Component type.id)
    (hy : ∀ type ∈ y.types, Acyclic c.rhs.types.Component type.id) : Finishes (c.sameNode x y) := by
  unfold sameNode
  split
  case h_10 | h_11 => exact .ok _
  all_goals
    simp [NodeForm.types, NodeForm.info?, NodeForm.decl?] at hx hy
    exact .allOf (by simp_all [finishes_sameInfo, finishes_sameDecl, finishes_sameDecl?])

/-- Both sides go down together, so depth enough for the left one is enough. -/
theorem finishes_sameWithin (h : Within c.lhs.Child fuel a) (ha : c.lhs.AcyclicTypes a)
    (hb : c.rhs.AcyclicTypes b) : Finishes (c.sameWithin fuel a b) := by
  induction fuel generalizing a b with
  | zero => exact h.elim
  | succ fuel ih =>
    refine (NodeStore.finishes_node a).bind fun x hx =>
      (NodeStore.finishes_node b).bind fun y hy => ?_
    refine (finishes_sameNode (ha x (.self hx)) (hb y (.self hy))).bind fun r _ => ?_
    cases r with
    | false => exact .ok false
    | true =>
      refine (NodeStore.finishes_children a).bind fun left hleft => ?_
      refine (NodeStore.finishes_children b).bind fun right hright => ?_
      split
      · refine .allM fun p hp => ?_
        obtain ⟨hl, hr⟩ := List.of_mem_zip hp
        have hchild : c.lhs.Child a p.1 := ⟨left, hleft, hl⟩
        exact ih (h p.1 hchild) (ha.child hchild) (hb.child ⟨right, hright, hr⟩)
      · exact .ok false

theorem finishes_same (h : Acyclic c.lhs.Child a) (ha : c.lhs.AcyclicTypes a)
    (hb : c.rhs.AcyclicTypes b) : Finishes (c.same a b) := by
  have hbound := Nat.le_mul_of_pos_right c.lhs.store.depthBound (Nat.succ_pos c.rhs.store.size)
  exact finishes_sameWithin ((Arena.within_depthBound h).mono hbound) ha hb

end Comparison

end SyntaxArena
