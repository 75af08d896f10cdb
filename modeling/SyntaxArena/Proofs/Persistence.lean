import SyntaxArena.Proofs.Queries

/-!
# What is found stays

Handles stay valid until the next reset: whatever an arena finds for them, it finds again after any
further edits. This is so not only of single entries. An outline, a comparison or a walk chases
handles through all tables and is bounded by their size; where it came to an end before, it comes to
the same end afterwards, although the tables and the bound have grown.

- `Lasts`: where one computation succeeds, another one does, with the same result. Computations made
  of parts that last do so themselves.
- `NodeStore.Extends.visit`, `Arena.Extends.outline`, `Comparison.Extends.same` and so on: the
  recursions over nodes, each by induction on the depth.
- `Arena.Extends.ask`: the answer to a lookup that found something lasts.
- `Arena.lookups_last`: the same for whole runs, where either side of a comparison may have grown.
-/

namespace SyntaxArena

/-! ## Computations that last -/

/-- Where the first computation succeeds, the second one does, with the same result. -/
def Lasts {α : Type} (x y : Except Fault α) : Prop := ∀ a, x = .ok a → y = .ok a

namespace Lasts

variable {α β γ : Type} {x y : Except Fault α}

theorem refl (x : Except Fault α) : Lasts x x := fun _ h => h

theorem error (e : Fault) (y : Except Fault α) : Lasts (.error e) y := nofun

theorem bind {f g : α → Except Fault β} (h : Lasts x y) (hfg : ∀ a, Lasts (f a) (g a)) :
    Lasts (x >>= f) (y >>= g) := by
  intro b hb
  obtain ⟨a, ha, hb⟩ := Checked.bind_eq_ok_iff.1 hb
  exact Checked.bind_eq_ok_iff.2 ⟨a, h a ha, hfg a b hb⟩

/-- What is made of a result that lasts. -/
theorem map (f : α → β) (h : Lasts x y) : Lasts (do return f (← x)) (do return f (← y)) :=
  h.bind fun a => refl (pure (f a))

theorem ite {p : Prop} [Decidable p] {x' y' : Except Fault α} (h : Lasts x y) (h' : Lasts x' y') :
    Lasts (if p then x else x') (if p then y else y') := by
  by_cases hp : p
  · rwa [if_pos hp, if_pos hp]
  · rwa [if_neg hp, if_neg hp]

theorem mapM {f g : α → Except Fault β} (hfg : ∀ a, Lasts (f a) (g a)) (l : List α) :
    Lasts (l.mapM f) (l.mapM g) := by
  intro r hr
  rw [Checked.mapM_eq_ok_iff] at *
  exact hr.imp fun a b hab => hfg a b hab

theorem foldlM {f g : β → α → Except Fault β} (hfg : ∀ b a, Lasts (f b a) (g b a)) (l : List α)
    (b : β) : Lasts (l.foldlM f b) (l.foldlM g b) := by
  induction l generalizing b with
  | nil => exact refl _
  | cons a l ih =>
    rw [List.foldlM_cons, List.foldlM_cons]
    exact (hfg b a).bind ih

/-- Checks in a row, up to the first that does not hold. -/
theorem allM {f : α → Except Fault Bool} {g : β → Except Fault Bool} {l : List α} {m : List β}
    (h : List.Forall₂ (fun a b => Lasts (f a) (g b)) l m) : Lasts (l.allM f) (m.allM g) := by
  induction h with
  | nil => exact refl _
  | cons hab _ ih =>
    refine hab.bind fun r => ?_
    cases r with
    | true => exact ih
    | false => exact refl _

theorem allOf {l m : List (Except Fault Bool)} (h : List.Forall₂ Lasts l m) :
    Lasts (SyntaxArena.allOf l) (SyntaxArena.allOf m) := allM h

theorem agree [DecidableEq α] {x' y' : Except Fault α} (h : Lasts x y) (h' : Lasts x' y') :
    Lasts (SyntaxArena.agree x x') (SyntaxArena.agree y y') :=
  h.bind fun _ => h'.bind fun _ => refl _

end Lasts

/-! ## Nodes -/

/-- What the visitor does at a single node of the first store, it does in the second one as well. -/
def Visitor.Steady {σ : Type} (v : Visitor σ) (s t : NodeStore) : Prop :=
  ∀ id state, Lasts (v.enter s id state) (v.enter t id state)

theorem Visitor.steady_passing (s t : NodeStore) : passing.Steady s t := fun _ _ => .refl _

namespace NodeStore

theorem Extends.depthBound_le {s t : NodeStore} (h : s.Extends t) :
    s.depthBound ≤ t.depthBound := by
  refine Nat.succ_le_succ (Nat.le_of_not_lt fun hlt => ?_)
  -- the node behind the last one of `t` would be in `s` and so in `t`
  have hnode : ∃ n, s.node ⟨t.size⟩ = .ok n := exists_node hlt
  obtain ⟨n, hn⟩ := hnode
  exact Nat.lt_irrefl _ (index_lt_of_node (h.node _ n hn))

namespace Extends

variable {s t : NodeStore} {m n : Nat} {σ : Type} {v : Visitor σ}

theorem get? (h : s.Extends t) {id : StmtId} {node : Node} (hnode : s.get? id = some node) :
    t.get? id = some node :=
  get?_eq_some_iff.2 (h.node id node (get?_eq_some_iff.1 hnode))

theorem asExpr? (h : s.Extends t) {id : StmtId} {e : ExprId} (he : s.asExpr? id = some e) :
    t.asExpr? id = some e := by
  unfold NodeStore.asExpr? at *
  cases hnode : s.get? id with
  | none =>
    rw [hnode] at he
    cases he
  | some node =>
    rw [hnode] at he
    rw [h.get? hnode]
    exact he

theorem exprInfo (h : s.Extends t) (id : ExprId) : Lasts (s.exprInfo id) (t.exprInfo id) := by
  refine Lasts.bind (h.node id.toStmt) fun node => ?_
  exact .refl _

theorem firstLocWithin (h : s.Extends t) (hmn : m ≤ n) (id : StmtId) :
    Lasts (s.firstLocWithin m id) (t.firstLocWithin n id) := by
  induction m generalizing n id with
  | zero => exact .error _ _
  | succ m ih =>
    cases n with
    | zero => exact absurd hmn (Nat.not_succ_le_zero m)
    | succ n =>
      refine Lasts.bind (h.node id) fun node => ?_
      cases node.start with
      | here loc => exact .refl _
      | operand e => exact ih (Nat.le_of_succ_le_succ hmn) e.toStmt

theorem visitWithin (h : s.Extends t) (hv : v.Steady s t) (hmn : m ≤ n) (id : StmtId) (state : σ) :
    Lasts (s.visitWithin v m id state) (t.visitWithin v n id state) := by
  induction m generalizing n id state with
  | zero => exact .error _ _
  | succ m ih =>
    cases n with
    | zero => exact absurd hmn (Nat.not_succ_le_zero m)
    | succ n =>
      refine (hv id state).bind fun next => .ite ?_ (.refl _)
      refine Lasts.bind (fun _ hids => h.children hids) fun ids => ?_
      exact .foldlM (fun state child => ih (Nat.le_of_succ_le_succ hmn) child state) ids next.1

theorem visit (h : s.Extends t) (hv : v.Steady s t) (root : StmtId) (state : σ) :
    Lasts (s.visit v root state) (t.visit v root state) :=
  h.visitWithin hv h.depthBound_le root state

theorem steady_recording (h : s.Extends t) (stops : List NodeKind) :
    (Visitor.recording stops).Steady s t :=
  fun id _ => Lasts.bind (h.node id) fun _ => .refl _

theorem walk (h : s.Extends t) (stops : List NodeKind) (root : StmtId) :
    Lasts (s.walk stops root) (t.walk stops root) :=
  (h.visit (h.steady_recording stops) root #[]).map _

end Extends

end NodeStore

/-! ## Outlines -/

namespace Arena.Extends

variable {c d : Arena} {m n : Nat}

theorem infoText (h : c.Extends d) (info : ExprInfo) : Lasts (c.infoText info) (d.infoText info) :=
  Lasts.bind (fun _ ht => h.spelling ht) fun _ => .refl _

theorem nameText (h : c.Extends d) (decl : VarDecl) : Lasts (c.nameText decl) (d.nameText decl) :=
  Lasts.map _ fun _ hn => h.text hn

theorem optionalNameText (h : c.Extends d) (word : String) (o : Option VarDecl) :
    Lasts (c.optionalNameText word o) (d.optionalNameText word o) := by
  cases o with
  | none => exact .refl _
  | some decl => exact (h.nameText decl).map _

theorem detailText (h : c.Extends d) (node : Node) :
    Lasts (c.detailText node) (d.detailText node) := by
  cases node with
  | declRef n => exact (h.nameText n.decl).map _
  | ifStmt n => exact (h.optionalNameText "has_var" n.condVar).map _
  | whileStmt n => exact (h.optionalNameText "has_var" n.condVar).map _
  | returnStmt n => exact (h.optionalNameText "nrvo_candidate" n.nrvoCandidate).map _
  | _ => exact .refl _

theorem line (h : c.Extends d) (node : Node) : Lasts (c.line node) (d.line node) := by
  have hdetail (info : String) : Lasts (do return node.kind.name ++ info ++ (← c.detailText node))
      (do return node.kind.name ++ info ++ (← d.detailText node)) := (h.detailText node).map _
  unfold Arena.line
  cases node.info? with
  | none => exact Lasts.bind (.refl _) hdetail
  | some info => exact (h.infoText info).bind hdetail

theorem outlineLines (h : c.Extends d) (hmn : m ≤ n) (depth : Nat) (id : StmtId) :
    Lasts (c.outlineLines m depth id) (d.outlineLines n depth id) := by
  induction m generalizing n depth id with
  | zero => exact .error _ _
  | succ m ih =>
    cases n with
    | zero => exact absurd hmn (Nat.not_succ_le_zero m)
    | succ n =>
      refine Lasts.bind (h.store.node id) fun node => ?_
      refine (h.line node).bind fun line => ?_
      refine Lasts.bind (fun _ hids => h.store.children hids) fun ids => ?_
      exact (Lasts.mapM (ih (Nat.le_of_succ_le_succ hmn) (depth + 1)) ids).map _

theorem outline (h : c.Extends d) (root : StmtId) : Lasts (c.outline root) (d.outline root) :=
  (h.outlineLines h.store.depthBound_le 0 root).map _

end Arena.Extends

/-! ## Comparisons -/

namespace Comparison

/-- Both sides have grown. -/
structure Extends (x y : Comparison) : Prop where
  lhs : x.lhs.Extends y.lhs
  rhs : x.rhs.Extends y.rhs

namespace Extends

variable {x y : Comparison} {m n : Nat}

theorem sameType (h : x.Extends y) (t u : QualType) : Lasts (x.sameType t u) (y.sameType t u) :=
  Lasts.agree (fun _ ht => h.lhs.spelling ht) fun _ hu => h.rhs.spelling hu

theorem sameName (h : x.Extends y) (i j : Identifier) : Lasts (x.sameName i j) (y.sameName i j) :=
  Lasts.agree (fun _ hi => h.lhs.text hi) fun _ hj => h.rhs.text hj

theorem sameInfo (h : x.Extends y) (i j : ExprInfo) : Lasts (x.sameInfo i j) (y.sameInfo i j) :=
  .allOf (.cons (h.sameType i.type j.type) (.cons (.refl _) (.cons (.refl _) .nil)))

theorem sameDecl (h : x.Extends y) (i j : VarDecl) : Lasts (x.sameDecl i j) (y.sameDecl i j) :=
  .allOf (.cons (h.sameName i.name j.name)
    (.cons (h.sameType i.type j.type) (.cons (.refl _) .nil)))

theorem sameDecl? (h : x.Extends y) (i j : Option VarDecl) :
    Lasts (x.sameDecl? i j) (y.sameDecl? i j) := by
  cases i <;> cases j <;> first | exact .refl _ | exact h.sameDecl _ _

theorem sameNode (h : x.Extends y) (i j : Node) : Lasts (x.sameNode i j) (y.sameNode i j) := by
  fun_cases x.sameNode i j with
  | case1 i j => exact .allOf (.cons (.refl _) (.cons (h.sameInfo _ _) (.cons (.refl _) .nil)))
  | case2 i j =>
    exact .allOf (.cons (h.sameDecl _ _) (.cons (h.sameInfo _ _) (.cons (.refl _) .nil)))
  | case3 i j | case4 i j =>
    exact .allOf (.cons (.refl _) (.cons (h.sameInfo _ _) (.cons (.refl _) (.cons (.refl _) .nil))))
  | case5 i j => exact .allOf (.cons (h.sameInfo _ _) (.cons (.refl _) .nil))
  | case6 i j =>
    exact .allOf (.cons (.refl _) (.cons (.refl _) (.cons (.refl _) (.cons (h.sameDecl? _ _)
      (.cons (.refl _) (.cons (.refl _) .nil))))))
  | case7 i j => exact .allOf (.cons (h.sameDecl? _ _) (.cons (.refl _) .nil))
  | case8 i j => exact .allOf (.cons (.refl _) (.cons (.refl _) (.cons (h.sameDecl? _ _) .nil)))
  | case9 i j => exact .allOf (.cons (.refl _) (.cons (.refl _) .nil))
  | case10 i j => exact .refl _
  | case11 i j =>
    -- two nodes of different kinds
    have hfalse : y.sameNode i j = .ok false := by
      rw [Comparison.sameNode]
      all_goals assumption
    rw [hfalse]
    exact .refl _

theorem sameWithin (h : x.Extends y) (hmn : m ≤ n) (a b : StmtId) :
    Lasts (x.sameWithin m a b) (y.sameWithin n a b) := by
  induction m generalizing n a b with
  | zero => exact .error _ _
  | succ m ih =>
    cases n with
    | zero => exact absurd hmn (Nat.not_succ_le_zero m)
    | succ n =>
      refine Lasts.bind (h.lhs.store.node a) fun i => ?_
      refine Lasts.bind (h.rhs.store.node b) fun j => ?_
      refine (h.sameNode i j).bind fun r => .ite ?_ (.refl _)
      refine Lasts.bind (fun _ hids => h.lhs.store.children hids) fun left => ?_
      refine Lasts.bind (fun _ hids => h.rhs.store.children hids) fun right => .ite ?_ (.refl _)
      exact .allM (List.forall₂_same.2 fun p _ => ih (Nat.le_of_succ_le_succ hmn) p.1 p.2)

/-- The depth allowed for pairs of nodes grows with both stores. -/
theorem same (h : x.Extends y) (a b : StmtId) : Lasts (x.same a b) (y.same a b) :=
  h.sameWithin (Nat.mul_le_mul h.lhs.store.depthBound_le h.rhs.store.depthBound_le) a b

end Extends

end Comparison

/-! ## Queries -/

/-- Whether a query looks something up. The others ask how much there is by now. -/
def Query.isLookup : Query → Bool
  | .entries | .size | .inspect => false
  | _ => true

/-- Whether an answer names something that is there. -/
def Answer.isFound : Answer → Bool
  | .maybeNode none | .maybeExpr none => false
  | _ => true

namespace Arena

/-- The answer to a lookup that found something lasts. -/
theorem Extends.ask {c d : Arena} (h : c.Extends d) {q : Query} {a : Answer} (hq : q.isLookup)
    (ha : a.isFound) (hask : c.ask q = .ok a) : d.ask q = .ok a := by
  cases q with
  | node id => exact Lasts.map _ (h.store.node id) a hask
  | get? id =>
    obtain rfl := Checked.pure_eq_ok_iff.1 hask
    cases hnode : c.store.get? id with
    | none =>
      rw [hnode] at ha
      cases ha
    | some node =>
      rw [Arena.ask, h.store.get? hnode]
      rfl
  | inspectNode id => exact Lasts.bind (h.store.node id) (fun n => .refl _) a hask
  | sameStored x y =>
    exact Lasts.bind (h.store.node x) (fun n => Lasts.map _ (h.store.node y)) a hask
  | asExpr? id =>
    obtain rfl := Checked.pure_eq_ok_iff.1 hask
    cases he : c.store.asExpr? id with
    | none =>
      rw [he] at ha
      cases ha
    | some e =>
      rw [Arena.ask, h.store.asExpr? he]
      rfl
  | exprInfo id => exact (h.store.exprInfo id).map _ a hask
  | exprList segment => exact Lasts.map _ (h.store.exprLists .exprs segment) a hask
  | stmtList segment => exact Lasts.map _ (h.store.stmtLists .stmts segment) a hask
  | children id => exact Lasts.map _ (fun _ hids => h.store.children hids) a hask
  | firstLoc id => exact (h.store.firstLocWithin h.store.depthBound_le id).map _ a hask
  | name n => exact Lasts.map _ (fun _ hn => h.text hn) a hask
  | typeKind id => exact Lasts.map _ (fun _ hkind => h.kind hkind) a hask
  | spelling t => exact Lasts.map _ (fun _ ht => h.spelling ht) a hask
  | outline id => exact (h.outline id).map _ a hask
  | sameHere x y =>
    exact (Comparison.Extends.same (x := ⟨c, c⟩) (y := ⟨d, d⟩) ⟨h, h⟩ x y).map _ a hask
  | same x e y =>
    exact (Comparison.Extends.same (x := ⟨c, e⟩) (y := ⟨d, e⟩) ⟨h, .refl e⟩ x y).map _ a hask
  | walk stops id => exact (h.store.walk stops id).map _ a hask
  | visitAll id =>
    exact (h.store.visit (Visitor.steady_passing _ _) id ()).bind (fun _ => .refl _) a hask
  | entries | size | inspect => cases hq

/-! ## Runs -/

/-- A run without a reset leaves in place what was there. -/
theorem extends_after [Build] (c : Arena) {ops : List Operation} (hops : .edit .reset ∉ ops) :
    c.Extends (c.after ops) := by
  induction ops generalizing c with
  | nil => exact .refl c
  | cons op ops ih =>
    obtain ⟨hop, hrest⟩ := not_or.1 (mt List.mem_cons.2 hops)
    have hstep : c.Extends (c.step op).state := by
      cases op with
      | query q => exact .refl c
      | edit e => exact c.extends_apply fun he => hop (congrArg Operation.edit he.symm)
    rw [after_cons]
    exact hstep.trans (ih _ hrest)

/-- **Handles stay valid until the next reset.** From any arena on, whatever has been stored in it,
and over any further operations without a reset:

* a lookup that found something finds the same;
* so does a comparison with a node of another arena, which may itself have grown meanwhile, whether
  the answer was yes or no;
* so does any visitor that finds at the single nodes what it found there before. -/
theorem lookups_last [Build] (c : Arena) (more : List Operation) (hmore : .edit .reset ∉ more) :
    (∀ q a, q.isLookup → a.isFound → c.ask q = .ok a → (c.after more).ask q = .ok a) ∧
      (∀ (d : Arena) (others : List Operation), .edit .reset ∉ others → ∀ a b answer,
        c.ask (.same a d b) = .ok answer →
          (c.after more).ask (.same a (d.after others) b) = .ok answer) ∧
      ∀ (σ : Type) (v : Visitor σ),
        v.Steady c.store (c.after more).store → ∀ root state result,
          c.store.visit v root state = .ok result →
            (c.after more).store.visit v root state = .ok result := by
  have hc : c.Extends (c.after more) := c.extends_after hmore
  refine ⟨fun q a hq ha => hc.ask hq ha, ?_, ?_⟩
  · intro d others hothers a b answer
    have hd : d.Extends (d.after others) := d.extends_after hothers
    have hboth : Comparison.Extends ⟨c, d⟩ ⟨c.after more, d.after others⟩ := ⟨hc, hd⟩
    exact (hboth.same a b).map _ answer
  · exact fun σ v hv root state => hc.store.visit hv root state

/-- A reference to a pointer `p`, and its sum with an operand that is missing. -/
def unfinished : Arena :=
  initial.after
    [.edit (.intern "p"), .edit (.type (.pointer (.builtin .int))),
      .edit (.node (.construct (.declRef ⟨⟨1⟩, { id := ⟨8⟩ }, .invalid⟩ .lvalue ⟨some 4⟩))),
      .edit (.node (.request (some .gen5) (.binary .add ⟨0⟩ ⟨2⟩ (.builtin .int))))]

/-- Adds the missing operand and more. -/
def finishing : List Operation :=
  [.edit (.intern "q"), .edit (.type (.pointer { id := ⟨8⟩, quals := { isConst := true } })),
    .edit (.node (.construct (.integerLiteral 1 (.builtin .int) .invalid))), .query (.outline ⟨1⟩),
    .edit (.node (.request none (.compound [⟨1⟩, ⟨0⟩])))]

theorem lookups_last_finishing :
    .edit .reset ∉ finishing ∧
      (unfinished.after finishing).ask (.firstLoc ⟨1⟩) = .ok (.loc ⟨some 4⟩) ∧
      (unfinished.after finishing).ask (.outline ⟨0⟩)
        = .ok (.text "DeclRefExpr 'int *' lvalue 'p' @4\n") ∧
      (unfinished.after finishing).ask (.same ⟨1⟩ (unfinished.after finishing) ⟨0⟩)
        = .ok (.truth false) ∧
      (unfinished.after finishing).store.visit (.recording [.binary]) ⟨1⟩ #[]
        = .ok #[(⟨1⟩, .binary)] := by
  have hmore : .edit .reset ∉ finishing := by simp [finishing]
  obtain ⟨hask, hsame, hvisit⟩ := lookups_last unfinished finishing hmore
  refine ⟨hmore, hask _ _ rfl rfl (by decide +kernel), hask _ _ rfl rfl (by decide +kernel), ?_, ?_⟩
  · exact hsame unfinished finishing hmore _ _ _ (by decide +kernel)
  · have hsteady := (unfinished.extends_after hmore).store.steady_recording [.binary]
    exact hvisit _ _ hsteady _ _ _ (by decide +kernel)

end Arena

end SyntaxArena
