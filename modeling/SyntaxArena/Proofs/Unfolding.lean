import SyntaxArena.Proofs.SyntaxTree
import SyntaxArena.Proofs.TypeTree

/-!
# Unfolding nodes

A node of an arena, with all that it refers to, unfolds into a syntax tree.

- `Arena.label`: everything about a node but its children.
- `Arena.unfold`: the tree of a node, or a fault.
- `Arena.Resolvable`: no cycle lies below a node, and all that is referred to below it exists.
- `Arena.exists_unfold_iff`: exactly the resolvable nodes have a tree.
- `Arena.unfold_iff`: a node has a tree when it has a label and its children have trees.
-/

namespace SyntaxArena

namespace Arena

variable {Args Body : Type}

/-! ## Labels -/

/-- The attributes of an expression with the type spelt out. -/
def spellInfo (c : Arena) (info : ExprInfo) : Except Fault SpeltInfo := do
  return ⟨← c.types.spelling info.type, info.valueKind, info.objectKind⟩

/-- A declaration with its name as a text and its type spelt out. -/
def spellDecl (c : Arena) (d : VarDecl) : Except Fault SpeltDecl := do
  return ⟨← c.names.text d.name, ← c.types.spelling d.type, d.loc⟩

/-- The same for a declaration that may be absent. -/
def spellDecl? (c : Arena) : Option VarDecl → Except Fault (Option SpeltDecl)
  | some d => return some (← c.spellDecl d)
  | none => return none

/-- Everything about a node but its children. -/
def label (c : Arena) : NodeForm Args Body → Except Fault Label
  | .integerLiteral n => return .integerLiteral n.value (← c.spellInfo n.info) n.loc
  | .declRef n => return .declRef (← c.spellDecl n.decl) (← c.spellInfo n.info) n.loc
  | .unary n => return .unary n.op (← c.spellInfo n.info) n.opLoc n.canOverflow
  | .binary n => return .binary n.op (← c.spellInfo n.info) n.opLoc n.fpOptions
  | .call n => return .call (← c.spellInfo n.info) n.rparenLoc
  | .ifStmt n => do
    let condVar ← c.spellDecl? n.condVar
    return .ifStmt n.ifLoc n.isConstexpr n.init.isSome condVar n.elseLoc n.elseBranch.isSome
  | .whileStmt n => return .whileStmt (← c.spellDecl? n.condVar) n.whileLoc
  | .returnStmt n => return .returnStmt n.returnLoc n.value.isSome (← c.spellDecl? n.nrvoCandidate)
  | .compound n => return .compound n.lbraceLoc n.rbraceLoc
  | .nullStmt n => return .nullStmt n.semiLoc

/-! ## Trees -/

/-- The tree of a node with its lists written out, where `below` grows the trees of its children. -/
def grow (c : Arena) (below : StmtId → Except Fault SyntaxTree) :
    Blueprint → Except Fault SyntaxTree
  | .integerLiteral n => return .integerLiteral n.value (← c.spellInfo n.info) n.loc
  | .declRef n => return .declRef (← c.spellDecl n.decl) (← c.spellInfo n.info) n.loc
  | .unary n => do
    let operand ← below n.operand.toStmt
    return .unary n.op operand (← c.spellInfo n.info) n.opLoc n.canOverflow
  | .binary n => do
    let lhs ← below n.lhs.toStmt
    let rhs ← below n.rhs.toStmt
    return .binary n.op lhs rhs (← c.spellInfo n.info) n.opLoc n.fpOptions
  | .call n => do
    let callee ← below n.callee.toStmt
    let args ← n.args.mapM fun arg => below arg.toStmt
    return .call callee args (← c.spellInfo n.info) n.rparenLoc
  | .ifStmt n => do
    let init ← n.init.mapM below
    let condVar ← c.spellDecl? n.condVar
    let cond ← below n.cond.toStmt
    let thenBranch ← below n.thenBranch
    let elseBranch ← n.elseBranch.mapM below
    return .ifStmt n.ifLoc n.isConstexpr init condVar cond thenBranch n.elseLoc elseBranch
  | .whileStmt n => do
    let condVar ← c.spellDecl? n.condVar
    let cond ← below n.cond.toStmt
    let body ← below n.body
    return .whileStmt condVar cond body n.whileLoc
  | .returnStmt n => do
    let value ← n.value.mapM fun value => below value.toStmt
    return .returnStmt n.returnLoc value (← c.spellDecl? n.nrvoCandidate)
  | .compound n => do
    let body ← n.body.mapM below
    return .compound body n.lbraceLoc n.rbraceLoc
  | .nullStmt n => return .nullStmt n.semiLoc

/-- The tree of a node with other nodes below it to a depth of less than `fuel`. -/
def unfoldWithin (c : Arena) : Nat → StmtId → Except Fault SyntaxTree
  | 0, _ => .error .cyclic
  | fuel + 1, id => do
    let node ← c.store.node id
    c.grow (c.unfoldWithin fuel) (← c.store.resolve node)

/-- The tree of a node. -/
def unfold (c : Arena) (id : StmtId) : Except Fault SyntaxTree :=
  c.unfoldWithin c.store.depthBound id

variable {c : Arena} {below : StmtId → Except Fault SyntaxTree} {fuel : Nat} {id : StmtId}
  {tree : SyntaxTree}

/-- What grows has the label of the tree, and its children grow into those of the tree. -/
theorem label_of_grow {b : Blueprint} (h : c.grow below b = .ok tree) :
    c.label b = .ok tree.label ∧
      List.Forall₂ (fun id u => below id = .ok u) b.children tree.children := by
  cases b with
  | integerLiteral n =>
    obtain ⟨info, hinfo, rfl⟩ := Checked.return_eq_ok_iff.1 h
    exact ⟨Checked.return_eq_ok_iff.2 ⟨info, hinfo, rfl⟩, .nil⟩
  | declRef n =>
    obtain ⟨decl, hdecl, h⟩ := Checked.bind_eq_ok_iff.1 h
    obtain ⟨info, hinfo, rfl⟩ := Checked.return_eq_ok_iff.1 h
    refine ⟨?_, .nil⟩
    rw [label, hdecl]
    exact Checked.return_eq_ok_iff.2 ⟨info, hinfo, rfl⟩
  | unary n =>
    obtain ⟨operand, hoperand, h⟩ := Checked.bind_eq_ok_iff.1 h
    obtain ⟨info, hinfo, rfl⟩ := Checked.return_eq_ok_iff.1 h
    exact ⟨Checked.return_eq_ok_iff.2 ⟨info, hinfo, rfl⟩, .cons hoperand .nil⟩
  | binary n =>
    obtain ⟨lhs, hlhs, h⟩ := Checked.bind_eq_ok_iff.1 h
    obtain ⟨rhs, hrhs, h⟩ := Checked.bind_eq_ok_iff.1 h
    obtain ⟨info, hinfo, rfl⟩ := Checked.return_eq_ok_iff.1 h
    exact ⟨Checked.return_eq_ok_iff.2 ⟨info, hinfo, rfl⟩, .cons hlhs (.cons hrhs .nil)⟩
  | call n =>
    obtain ⟨callee, hcallee, h⟩ := Checked.bind_eq_ok_iff.1 h
    obtain ⟨args, hargs, h⟩ := Checked.bind_eq_ok_iff.1 h
    obtain ⟨info, hinfo, rfl⟩ := Checked.return_eq_ok_iff.1 h
    have hbelow : List.Forall₂ (fun id u => below id = .ok u) (n.args.map ExprId.toStmt) args :=
      List.forall₂_map_left_iff.2 (Checked.mapM_eq_ok_iff.1 hargs)
    exact ⟨Checked.return_eq_ok_iff.2 ⟨info, hinfo, rfl⟩, .cons hcallee hbelow⟩
  | ifStmt n =>
    obtain ⟨init, hinit, h⟩ := Checked.bind_eq_ok_iff.1 h
    obtain ⟨condVar, hcondVar, h⟩ := Checked.bind_eq_ok_iff.1 h
    obtain ⟨cond, hcond, h⟩ := Checked.bind_eq_ok_iff.1 h
    obtain ⟨thenBranch, hthen, h⟩ := Checked.bind_eq_ok_iff.1 h
    obtain ⟨elseBranch, helse, rfl⟩ := Checked.return_eq_ok_iff.1 h
    refine ⟨Checked.return_eq_ok_iff.2 ⟨condVar, hcondVar, ?_⟩, ?_⟩
    · -- a child is there in the tree exactly if it is there in the node
      rw [SyntaxTree.label, Checked.isSome_of_option_mapM hinit,
        Checked.isSome_of_option_mapM helse]
    · have hinit := Checked.option_mapM_eq_ok_iff.1 hinit
      have helse := Checked.option_mapM_eq_ok_iff.1 helse
      exact List.rel_append (List.rel_append hinit (.cons hcond (.cons hthen .nil))) helse
  | whileStmt n =>
    obtain ⟨condVar, hcondVar, h⟩ := Checked.bind_eq_ok_iff.1 h
    obtain ⟨cond, hcond, h⟩ := Checked.bind_eq_ok_iff.1 h
    obtain ⟨body, hbody, rfl⟩ := Checked.return_eq_ok_iff.1 h
    exact ⟨Checked.return_eq_ok_iff.2 ⟨condVar, hcondVar, rfl⟩, .cons hcond (.cons hbody .nil)⟩
  | returnStmt n =>
    obtain ⟨value, hvalue, h⟩ := Checked.bind_eq_ok_iff.1 h
    obtain ⟨decl, hdecl, rfl⟩ := Checked.return_eq_ok_iff.1 h
    refine ⟨Checked.return_eq_ok_iff.2 ⟨decl, hdecl, ?_⟩, ?_⟩
    · rw [SyntaxTree.label, Checked.isSome_of_option_mapM hvalue]
    · have hvalue := Checked.option_mapM_eq_ok_iff.1 hvalue
      exact List.forall₂_map_left_iff.2 hvalue
  | compound n =>
    obtain ⟨body, hbody, rfl⟩ := Checked.return_eq_ok_iff.1 h
    exact ⟨rfl, Checked.mapM_eq_ok_iff.1 hbody⟩
  | nullStmt n =>
    obtain rfl := Checked.pure_eq_ok_iff.1 h
    exact ⟨rfl, .nil⟩

/-- A node with a label grows into a tree when all its children do. -/
theorem exists_grow {b : Blueprint} {l : Label} (hlabel : c.label b = .ok l)
    (hbelow : ∀ id ∈ b.children, ∃ u, below id = .ok u) : ∃ tree, c.grow below b = .ok tree := by
  cases b with
  | integerLiteral n =>
    obtain ⟨info, hinfo, -⟩ := Checked.return_eq_ok_iff.1 hlabel
    exact Checked.exists_return ⟨info, hinfo⟩
  | declRef n =>
    obtain ⟨decl, hdecl, hlabel⟩ := Checked.bind_eq_ok_iff.1 hlabel
    obtain ⟨info, hinfo, -⟩ := Checked.return_eq_ok_iff.1 hlabel
    rw [grow, hdecl]
    exact Checked.exists_return ⟨info, hinfo⟩
  | unary n =>
    obtain ⟨info, hinfo, -⟩ := Checked.return_eq_ok_iff.1 hlabel
    obtain ⟨operand, hoperand⟩ := hbelow n.operand.toStmt (by simp [Blueprint.children])
    rw [grow, hoperand]
    exact Checked.exists_return ⟨info, hinfo⟩
  | binary n =>
    obtain ⟨info, hinfo, -⟩ := Checked.return_eq_ok_iff.1 hlabel
    obtain ⟨lhs, hlhs⟩ := hbelow n.lhs.toStmt (by simp [Blueprint.children])
    obtain ⟨rhs, hrhs⟩ := hbelow n.rhs.toStmt (by simp [Blueprint.children])
    rw [grow, hlhs, hrhs]
    exact Checked.exists_return ⟨info, hinfo⟩
  | call n =>
    obtain ⟨info, hinfo, -⟩ := Checked.return_eq_ok_iff.1 hlabel
    obtain ⟨callee, hcallee⟩ := hbelow n.callee.toStmt (by simp [Blueprint.children])
    obtain ⟨args, hargs⟩ : ∃ args, n.args.mapM (fun arg => below arg.toStmt) = .ok args :=
      Checked.exists_mapM fun arg harg =>
        hbelow arg.toStmt (List.mem_map_of_mem (List.mem_cons_of_mem n.callee harg))
    rw [grow, hcallee, hargs]
    exact Checked.exists_return ⟨info, hinfo⟩
  | ifStmt n =>
    obtain ⟨condVar, hcondVar, -⟩ := Checked.return_eq_ok_iff.1 hlabel
    obtain ⟨init, hinit⟩ : ∃ init, n.init.mapM below = .ok init :=
      Checked.exists_option_mapM fun id hid => hbelow id (by simp_all [Blueprint.children])
    obtain ⟨cond, hcond⟩ := hbelow n.cond.toStmt (by simp [Blueprint.children])
    obtain ⟨thenBranch, hthen⟩ := hbelow n.thenBranch (by simp [Blueprint.children])
    have helse : ∃ elseBranch, n.elseBranch.mapM below = .ok elseBranch :=
      Checked.exists_option_mapM fun id hid => hbelow id (by simp_all [Blueprint.children])
    rw [grow, hinit, hcondVar, hcond, hthen]
    exact Checked.exists_return helse
  | whileStmt n =>
    obtain ⟨condVar, hcondVar, -⟩ := Checked.return_eq_ok_iff.1 hlabel
    obtain ⟨cond, hcond⟩ := hbelow n.cond.toStmt (by simp [Blueprint.children])
    have hbody : ∃ body, below n.body = .ok body := hbelow n.body (by simp [Blueprint.children])
    rw [grow, hcondVar, hcond]
    exact Checked.exists_return hbody
  | returnStmt n =>
    obtain ⟨decl, hdecl, -⟩ := Checked.return_eq_ok_iff.1 hlabel
    obtain ⟨value, hvalue⟩ : ∃ value, n.value.mapM (fun value => below value.toStmt) = .ok value :=
      Checked.exists_option_mapM fun e he => hbelow e.toStmt (by simp_all [Blueprint.children])
    rw [grow, hvalue]
    exact Checked.exists_return ⟨decl, hdecl⟩
  | compound n => exact Checked.exists_return (Checked.exists_mapM hbelow)
  | nullStmt n => exact ⟨_, rfl⟩

/-- A node grows into a tree when it has the label of the tree and its children grow into those of
the tree: label and children tell the tree. -/
theorem grow_eq_ok_iff {b : Blueprint} :
    c.grow below b = .ok tree ↔
      c.label b = .ok tree.label ∧
        List.Forall₂ (fun id u => below id = .ok u) b.children tree.children := by
  refine ⟨label_of_grow, ?_⟩
  rintro ⟨hlabel, hbelow⟩
  obtain ⟨other, hother⟩ := exists_grow hlabel (Checked.exists_forall₂_iff.1 ⟨_, hbelow⟩)
  obtain ⟨hlabel', hbelow'⟩ := label_of_grow hother
  have hroot : other.label = tree.label := Except.ok.inj (hlabel'.symm.trans hlabel)
  have hchildren : other.children = tree.children := by
    rw [← Checked.mapM_eq_ok_iff] at hbelow hbelow'
    exact Except.ok.inj (hbelow'.symm.trans hbelow)
  rw [hother, SyntaxTree.ext_children hroot hchildren]

end Arena

/-! ## What a node needs -/

/-- The declaration that a node mentions. -/
def NodeForm.decl? {Args Body : Type} : NodeForm Args Body → Option VarDecl
  | .declRef n => some n.decl
  | .ifStmt n => n.condVar
  | .whileStmt n => n.condVar
  | .returnStmt n => n.nrvoCandidate
  | .integerLiteral _ | .unary _ | .binary _ | .call _ | .compound _ | .nullStmt _ => none

theorem StmtId.index_injective : Function.Injective StmtId.index :=
  fun ⟨_⟩ ⟨_⟩ h => congrArg StmtId.mk h

namespace NodeStore

/-- The children of a node are those of the node with its lists written out. -/
theorem children_eq_ok_iff {s : NodeStore} {id : StmtId} {ids : List StmtId} :
    s.children id = .ok ids ↔
      ∃ node b, s.node id = .ok node ∧ s.resolve node = .ok b ∧ b.children = ids := by
  simp [children]

theorem index_lt_of_children {s : NodeStore} {id : StmtId} {ids : List StmtId}
    (h : s.children id = .ok ids) : id.index < s.size := by
  obtain ⟨node, _, hnode, -⟩ := children_eq_ok_iff.1 h
  exact (Array.getElem?_eq_some_iff.1 (lookup_eq_ok_iff.1 hnode)).1

end NodeStore

namespace Arena

variable {Args Body : Type} {c : Arena}

/-- The names and the types that a node mentions exist, with everything below the types. -/
structure Spellable (c : Arena) (n : NodeForm Args Body) : Prop where
  info : ∀ i ∈ n.info?, c.types.Resolvable i.type.id
  declName : ∀ d ∈ n.decl?, ∃ text, c.names.text d.name = .ok text
  declType : ∀ d ∈ n.decl?, c.types.Resolvable d.type.id

theorem spellable_iff {n : NodeForm Args Body} :
    c.Spellable n ↔
      (∀ i ∈ n.info?, c.types.Resolvable i.type.id) ∧
        ∀ d ∈ n.decl?, (∃ text, c.names.text d.name = .ok text) ∧ c.types.Resolvable d.type.id :=
  ⟨fun h => ⟨h.info, fun d hd => ⟨h.declName d hd, h.declType d hd⟩⟩,
    fun h => ⟨h.1, fun d hd => (h.2 d hd).1, fun d hd => (h.2 d hd).2⟩⟩

theorem exists_spellInfo_iff {info : ExprInfo} :
    (∃ i, c.spellInfo info = .ok i) ↔ c.types.Resolvable info.type.id := by
  simp [spellInfo, ← TypeTable.exists_spelling_iff]

theorem exists_spellDecl_iff {d : VarDecl} :
    (∃ e, c.spellDecl d = .ok e) ↔
      (∃ text, c.names.text d.name = .ok text) ∧ c.types.Resolvable d.type.id := by
  simp [spellDecl, ← TypeTable.exists_spelling_iff]

theorem exists_spellDecl?_iff {o : Option VarDecl} :
    (∃ e, c.spellDecl? o = .ok e) ↔
      ∀ d ∈ o, (∃ text, c.names.text d.name = .ok text) ∧ c.types.Resolvable d.type.id := by
  cases o with
  | none => simp [spellDecl?]
  | some d => simp [spellDecl?, exists_spellDecl_iff]

/-- Exactly the spellable nodes have a label. -/
theorem exists_label_iff {n : NodeForm Args Body} : (∃ l, c.label n = .ok l) ↔ c.Spellable n := by
  rw [spellable_iff]
  cases n <;>
    simp [label, NodeForm.info?, NodeForm.decl?, exists_spellInfo_iff, exists_spellDecl_iff,
      exists_spellDecl?_iff, and_comm]

/-! ## Which nodes have a tree -/

/-- A node with a handle has the label of a tree, and `R` holds between their children. -/
def Layer (c : Arena) (R : StmtId → SyntaxTree → Prop) (id : StmtId) (tree : SyntaxTree) : Prop :=
  ∃ node ids, c.store.node id = .ok node ∧ c.store.children id = .ok ids ∧
    c.label node = .ok tree.label ∧ List.Forall₂ R ids tree.children

theorem Layer.mono {R S : StmtId → SyntaxTree → Prop} {id : StmtId} {tree : SyntaxTree}
    (h : c.Layer R id tree) (hRS : ∀ id u, R id u → S id u) : c.Layer S id tree := by
  obtain ⟨node, ids, hnode, hids, hlabel, hbelow⟩ := h
  exact ⟨node, ids, hnode, hids, hlabel, hbelow.imp hRS⟩

variable {fuel : Nat} {id : StmtId} {tree : SyntaxTree}

theorem kind_label {n : NodeForm Args Body} {l : Label} (h : c.label n = .ok l) :
    l.kind = n.kind := by
  cases n <;> simp only [label, Checked.bind_eq_ok_iff, Checked.pure_eq_ok_iff] at h
  all_goals grind [Label.kind, NodeForm.kind]

theorem label_resolve {node : Node} {b : Blueprint} (h : c.store.resolve node = .ok b) :
    c.label b = c.label node := by
  cases node with
  | call n =>
    obtain ⟨args, -, rfl⟩ := Checked.return_eq_ok_iff.1 h
    rfl
  | compound n =>
    obtain ⟨body, -, rfl⟩ := Checked.return_eq_ok_iff.1 h
    rfl
  | _ =>
    cases h
    rfl

theorem unfoldWithin_zero_ne : c.unfoldWithin 0 id ≠ .ok tree := nofun

theorem unfoldWithin_succ_iff :
    c.unfoldWithin (fuel + 1) id = .ok tree ↔
      c.Layer (fun id u => c.unfoldWithin fuel id = .ok u) id tree := by
  rw [unfoldWithin, Checked.bind_eq_ok_iff]
  constructor
  · rintro ⟨node, hnode, h⟩
    obtain ⟨b, hb, h⟩ := Checked.bind_eq_ok_iff.1 h
    obtain ⟨hlabel, hbelow⟩ := grow_eq_ok_iff.1 h
    have hids := NodeStore.children_eq_ok_iff.2 ⟨node, b, hnode, hb, rfl⟩
    exact ⟨node, b.children, hnode, hids, label_resolve hb ▸ hlabel, hbelow⟩
  · rintro ⟨node, ids, hnode, hids, hlabel, hbelow⟩
    obtain ⟨node', b, hnode', hb, rfl⟩ := NodeStore.children_eq_ok_iff.1 hids
    obtain rfl := Except.ok.inj (hnode.symm.trans hnode')
    refine ⟨node, hnode, Checked.bind_eq_ok_iff.2 ⟨b, hb, ?_⟩⟩
    exact grow_eq_ok_iff.2 ⟨(label_resolve hb).trans hlabel, hbelow⟩

/-- The tree of a node has one layer more than the trees of its children. -/
theorem layered_unfold (c : Arena) : Layered c.unfoldWithin c.Layer where
  zero _ _ := unfoldWithin_zero_ne
  succ _ _ _ := unfoldWithin_succ_iff
  mono hRS h := h.mono hRS

theorem unfoldWithin_mono {m n : Nat} (hmn : m ≤ n) (h : c.unfoldWithin m id = .ok tree) :
    c.unfoldWithin n id = .ok tree :=
  c.layered_unfold.deeper hmn h

/-- `b` is a child of `a`. -/
def Child (c : Arena) (a b : StmtId) : Prop := ∃ ids, c.store.children a = .ok ids ∧ b ∈ ids

theorem child_iff {a b : StmtId} {ids : List StmtId} (h : c.store.children a = .ok ids) :
    c.Child a b ↔ b ∈ ids := by
  refine ⟨?_, fun hb => ⟨ids, h, hb⟩⟩
  rintro ⟨ids', h', hb⟩
  obtain rfl := Except.ok.inj (h.symm.trans h')
  exact hb

/-- The node exists, its list can be read, and what it mentions exists. -/
def Readable (c : Arena) (id : StmtId) : Prop :=
  ∃ node, c.store.node id = .ok node ∧ (∃ ids, c.store.children id = .ok ids) ∧ c.Spellable node

/-- No cycle lies below a node, and everything below it is readable. -/
def Resolvable (c : Arena) (id : StmtId) : Prop := Grounded c.Child c.Readable id

/-- Unfolding is a recursion along the children. -/
theorem recursion_unfold (c : Arena) :
    Recursion c.Child c.Readable fun n id => ∃ tree, c.unfoldWithin n id = .ok tree where
  zero _ := fun ⟨_, h⟩ => unfoldWithin_zero_ne h
  succ n id := by
    constructor
    · rintro ⟨tree, h⟩
      obtain ⟨node, ids, hnode, hids, hlabel, hbelow⟩ := unfoldWithin_succ_iff.1 h
      refine ⟨⟨node, hnode, ⟨ids, hids⟩, exists_label_iff.1 ⟨_, hlabel⟩⟩, fun b hb => ?_⟩
      exact Checked.exists_forall₂_iff.1 ⟨_, hbelow⟩ b ((child_iff hids).1 hb)
    · rintro ⟨⟨node, hnode, ⟨ids, hids⟩, hspell⟩, hbelow⟩
      obtain ⟨node', b, hnode', hb, rfl⟩ := NodeStore.children_eq_ok_iff.1 hids
      obtain rfl := Except.ok.inj (hnode.symm.trans hnode')
      obtain ⟨l, hlabel⟩ := exists_label_iff.2 hspell
      rw [← label_resolve hb] at hlabel
      have hgrow : ∃ tree, c.grow (c.unfoldWithin n) b = .ok tree :=
        exists_grow hlabel fun id hid => hbelow id ⟨_, hids, hid⟩
      obtain ⟨tree, htree⟩ := hgrow
      exact ⟨tree, Checked.bind_eq_ok_iff.2 ⟨node, hnode, Checked.bind_eq_ok_iff.2 ⟨b, hb, htree⟩⟩⟩

/-- Exactly the resolvable nodes have a tree. -/
theorem exists_unfold_iff : (∃ tree, c.unfold id = .ok tree) ↔ c.Resolvable id := by
  refine c.recursion_unfold.iff_grounded StmtId.index_injective fun id ⟨_, _, ⟨_, hids⟩, _⟩ => ?_
  exact Nat.lt_succ_of_lt (NodeStore.index_lt_of_children hids)

/-- A tree that is found at any depth is found within the depth of the store. -/
theorem exists_unfold_of_unfoldWithin (h : ∃ tree, c.unfoldWithin fuel id = .ok tree) :
    ∃ tree, c.unfold id = .ok tree :=
  exists_unfold_iff.2 (c.recursion_unfold.grounded h)

theorem unfold_of_unfoldWithin (h : c.unfoldWithin fuel id = .ok tree) : c.unfold id = .ok tree :=
  c.layered_unfold.of_depth (fun _ _ => exists_unfold_of_unfoldWithin) h

theorem unfold_iff :
    c.unfold id = .ok tree ↔ c.Layer (fun id u => c.unfold id = .ok u) id tree :=
  c.layered_unfold.iff fun _ _ => exists_unfold_of_unfoldWithin

end Arena

end SyntaxArena
