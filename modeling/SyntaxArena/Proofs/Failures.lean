import SyntaxArena.Proofs.Comparison
import SyntaxArena.Proofs.DepthBound
import SyntaxArena.Proofs.NodeTree
import SyntaxArena.Operation

/-!
# Where traversals fail

A visit looks up nodes and their lists, an outline the types of expressions and the names in its
lines as well, and a comparison the types of declarations in addition. Each traversal fails exactly
where something that it looks up is missing.

- `NodeStore.visitWithin_of_thorough`: visitors that go everywhere and fail only at missing nodes
  fail alike.
- `Arena.exists_walk_iff`, `Arena.exists_outline_iff`, `Arena.same_self`: where a walk, an outline
  and the comparison of a node with itself succeed. Each is a `Recursion` along the children.
- `Confirms`: a check that cannot say no, and says yes exactly if a proposition holds. Comparing a
  node with itself is made of such checks.
- `Arena.traversals_fail_alike`: without cycles the three differ by the names and types alone.
-/

namespace SyntaxArena

open Relation

/-! ## Visits -/

/-- The visitor goes on from every node that exists, and at a handle without a node it fails as the
lookup does. -/
def Visitor.Thorough {σ : Type} (v : Visitor σ) : Prop :=
  ∀ s id state, (∃ node next, s.node id = .ok node ∧ v.enter s id state = .ok (next, true)) ∨
    ∃ e, s.node id = .error e ∧ v.enter s id state = .error e

theorem Visitor.thorough_recording : (recording []).Thorough := by
  intro s id met
  cases hnode : s.node id with
  | ok node => exact .inl ⟨node, _, rfl, NodeStore.enter_recording hnode met⟩
  | error e =>
    refine .inr ⟨e, rfl, ?_⟩
    rw [recording]
    simp [hnode, bind, Except.bind]

namespace NodeStore

variable {σ : Type} {s : NodeStore} {fuel : Nat} {id : StmtId}

/-- Steps that fail alike make folds that fail alike, whatever state they hand on. -/
theorem foldlM_discard {f : σ → StmtId → Except Fault σ} {g : Unit → StmtId → Except Fault Unit}
    (h : ∀ id state, (fun _ => ()) <$> f state id = g () id) (ids : List StmtId) (state : σ) :
    (fun _ => ()) <$> ids.foldlM f state = ids.foldlM g () := by
  induction ids generalizing state with
  | nil => rfl
  | cons id ids ih =>
    have hid := h id state
    rw [List.foldlM_cons, List.foldlM_cons, ← hid]
    cases f state id with
    | error e => rfl
    | ok next => exact ih next

/-- A visitor that goes everywhere fails as the one that does nothing, with the same fault. -/
theorem visitWithin_of_thorough {v : Visitor σ} (hv : v.Thorough) (fuel : Nat) (id : StmtId)
    (state : σ) :
    (fun _ => ()) <$> s.visitWithin v fuel id state = s.visitWithin .passing fuel id () := by
  induction fuel generalizing id state with
  | zero => rfl
  | succ fuel ih =>
    rcases hv s id state with ⟨node, next, -, henter⟩ | ⟨e, hnode, henter⟩
    · have hfold (ids : List StmtId) :
          (fun _ => ()) <$> ids.foldlM (fun state child => s.visitWithin v fuel child state) next =
            ids.foldlM (fun state child => s.visitWithin .passing fuel child state) () :=
        foldlM_discard (fun id state => ih id state) ids next
      rw [visitWithin, henter, visitWithin]
      cases hids : s.children id with
      | error e => rfl
      | ok ids => exact hfold ids
    · have hids : s.children id = .error e := by
        rw [children, hnode]
        rfl
      rw [visitWithin, henter, visitWithin]
      show Except.error e = (s.children id >>= fun _ => _)
      rw [hids]
      rfl

/-- Going through all nodes fails as the walk that goes everywhere, with the same fault. -/
theorem visitAll_eq_discard_walk (s : NodeStore) (id : StmtId) :
    s.visitAll id = (fun _ => ()) <$> s.walk [] id := by
  have hvisit := visitWithin_of_thorough (s := s) Visitor.thorough_recording s.depthBound id #[]
  rw [visitAll, visit, ← hvisit, walk, visit]
  cases s.visitWithin (.recording []) s.depthBound id #[] <;> rfl

theorem visitAll_eq_error_iff {e : Fault} : s.visitAll id = .error e ↔ s.walk [] id = .error e := by
  rw [visitAll_eq_discard_walk]
  cases s.walk [] id <;> simp [Functor.map, Except.map]

/-- A fold that hands nothing on succeeds when each of its steps does. -/
theorem foldlM_unit_eq_ok_iff {g : Unit → StmtId → Except Fault Unit} {ids : List StmtId} :
    ids.foldlM g () = .ok () ↔ ∀ id ∈ ids, g () id = .ok () := by
  induction ids with
  | nil => simp [pure, Except.pure]
  | cons id ids ih =>
    rw [List.foldlM_cons, Checked.bind_eq_ok_iff, List.forall_mem_cons, ← ih]
    exact ⟨fun ⟨(), h⟩ => h, fun h => ⟨(), h⟩⟩

end NodeStore

namespace Arena

variable {c : Arena} {fuel depth : Nat} {id : StmtId}

/-- Going through all nodes is a recursion along the children. -/
theorem recursion_visit (c : Arena) :
    Recursion c.Child (fun id => ∃ ids, c.store.children id = .ok ids)
      fun n id => c.store.visitWithin .passing n id () = .ok () where
  zero _ := nofun
  succ n id := by
    rw [NodeStore.visitWithin]
    constructor
    · intro h
      obtain ⟨⟨next, goOn⟩, henter, h⟩ := Checked.bind_eq_ok_iff.1 h
      obtain ⟨rfl, rfl⟩ := Prod.mk.inj (Except.ok.inj henter)
      obtain ⟨ids, hids, h⟩ := Checked.bind_eq_ok_iff.1 h
      refine ⟨⟨ids, hids⟩, fun b hb => ?_⟩
      exact NodeStore.foldlM_unit_eq_ok_iff.1 h b ((child_iff hids).1 hb)
    · rintro ⟨⟨ids, hids⟩, hbelow⟩
      refine Checked.bind_eq_ok_iff.2 ⟨((), true), rfl, Checked.bind_eq_ok_iff.2 ⟨ids, hids, ?_⟩⟩
      exact NodeStore.foldlM_unit_eq_ok_iff.2 fun b hb => hbelow b ⟨ids, hids, hb⟩

/-- Exactly below the walkable nodes a walk goes everywhere. -/
theorem exists_walk_iff : (∃ met, c.store.walk [] id = .ok met) ↔ c.Walkable id := by
  have hvisit : c.store.visitAll id = .ok () ↔ c.Walkable id :=
    c.recursion_visit.iff_grounded StmtId.index_injective fun _ ⟨_, hids⟩ =>
      Nat.lt_succ_of_lt (NodeStore.index_lt_of_children hids)
  rw [← hvisit, NodeStore.visitAll_eq_discard_walk]
  cases c.store.walk [] id <;> simp [Functor.map, Except.map]

/-! ## Outlines -/

theorem exists_infoText_iff {info : ExprInfo} :
    (∃ text, c.infoText info = .ok text) ↔ c.types.Resolvable info.type.id := by
  simp [infoText, ← TypeTable.exists_spelling_iff]

theorem exists_optionalNameText_iff {word : String} {o : Option VarDecl} :
    (∃ text, c.optionalNameText word o = .ok text) ↔
      ∀ d ∈ o, ∃ text, c.names.text d.name = .ok text := by
  cases o <;> simp [optionalNameText, nameText]

theorem exists_detailText_iff {n : Node} :
    (∃ text, c.detailText n = .ok text) ↔
      ∀ d ∈ n.decl?, ∃ text, c.names.text d.name = .ok text := by
  cases n <;> simp [detailText, NodeForm.decl?, nameText, exists_optionalNameText_iff]

/-- A node has a line when its type has a spelling and the name that is shown exists. -/
theorem exists_line_iff {n : Node} :
    (∃ line, c.line n = .ok line) ↔
      (∀ info ∈ n.info?, c.types.Resolvable info.type.id) ∧
        ∀ d ∈ n.decl?, ∃ text, c.names.text d.name = .ok text := by
  rw [← exists_detailText_iff, line]
  cases n.info? with
  | none => simp
  | some info => simp [← exists_infoText_iff]

/-- The node exists, its list can be read, and it has a line. -/
def HasLine (c : Arena) (id : StmtId) : Prop :=
  ∃ node, c.store.node id = .ok node ∧ (∃ ids, c.store.children id = .ok ids) ∧
    ∃ line, c.line node = .ok line

theorem exists_outlineLines_succ_iff :
    (∃ lines, c.outlineLines (fuel + 1) depth id = .ok lines) ↔
      c.HasLine id ∧ ∀ b, c.Child id b →
        ∃ lines, c.outlineLines fuel (depth + 1) b = .ok lines := by
  rw [outlineLines]
  constructor
  · rintro ⟨lines, h⟩
    obtain ⟨node, hnode, h⟩ := Checked.bind_eq_ok_iff.1 h
    obtain ⟨line, hline, h⟩ := Checked.bind_eq_ok_iff.1 h
    obtain ⟨ids, hids, h⟩ := Checked.bind_eq_ok_iff.1 h
    obtain ⟨below, hbelow, -⟩ := Checked.return_eq_ok_iff.1 h
    refine ⟨⟨node, hnode, ⟨ids, hids⟩, line, hline⟩, fun b hb => ?_⟩
    exact Checked.exists_forall₂_iff.1 ⟨below, Checked.mapM_eq_ok_iff.1 hbelow⟩ b
      ((child_iff hids).1 hb)
  · rintro ⟨⟨node, hnode, ⟨ids, hids⟩, line, hline⟩, hbelow⟩
    have hbelow : ∃ below, ids.mapM (c.outlineLines fuel (depth + 1)) = .ok below :=
      Checked.exists_mapM fun b hb => hbelow b ⟨ids, hids, hb⟩
    obtain ⟨below, hbelow⟩ := hbelow
    refine ⟨(indentation depth ++ line) :: below.flatten,
      Checked.bind_eq_ok_iff.2 ⟨node, hnode, ?_⟩⟩
    refine Checked.bind_eq_ok_iff.2 ⟨line, hline, Checked.bind_eq_ok_iff.2 ⟨ids, hids, ?_⟩⟩
    exact Checked.return_eq_ok_iff.2 ⟨below, hbelow, rfl⟩

/-- How far in a line stands does not matter for whether it is there. -/
theorem exists_outlineLines_congr (depth' : Nat)
    (h : ∃ lines, c.outlineLines fuel depth id = .ok lines) :
    ∃ lines, c.outlineLines fuel depth' id = .ok lines := by
  induction fuel generalizing depth depth' id with
  | zero => cases h.choose_spec
  | succ fuel ih =>
    obtain ⟨hline, hbelow⟩ := exists_outlineLines_succ_iff.1 h
    exact exists_outlineLines_succ_iff.2 ⟨hline, fun b hb => ih _ (hbelow b hb)⟩

/-- Writing an outline is a recursion along the children. -/
theorem recursion_outline (c : Arena) :
    Recursion c.Child c.HasLine fun n id => ∃ lines, c.outlineLines n 0 id = .ok lines where
  zero _ := nofun
  succ n id := by
    rw [exists_outlineLines_succ_iff]
    refine and_congr_right fun _ => forall₂_congr fun b _ => ?_
    exact ⟨exists_outlineLines_congr 0, exists_outlineLines_congr 1⟩

theorem exists_outline_iff : (∃ text, c.outline id = .ok text) ↔ Grounded c.Child c.HasLine id := by
  have hlines : (∃ lines, c.outlineLines c.store.depthBound 0 id = .ok lines) ↔
      Grounded c.Child c.HasLine id :=
    c.recursion_outline.iff_grounded StmtId.index_injective
      fun _ ⟨_, _, ⟨_, hids⟩, _⟩ => Nat.lt_succ_of_lt (NodeStore.index_lt_of_children hids)
  simp [outline, ← hlines]

end Arena

/-! ## Comparison of a node with itself -/

/-- The check never says no, and says yes exactly if `p` holds. -/
structure Confirms (x : Except Fault Bool) (p : Prop) : Prop where
  ne_false : x ≠ .ok false
  iff : x = .ok true ↔ p

namespace Confirms

variable {x : Except Fault Bool} {p q : Prop}

theorem congr (h : Confirms x p) (hpq : p ↔ q) : Confirms x q := ⟨h.ne_false, h.iff.trans hpq⟩

/-- It says yes as soon as it says anything. -/
theorem exists_ok_iff (h : Confirms x p) : (∃ r, x = .ok r) ↔ p := by
  rw [← h.iff]
  refine ⟨fun ⟨r, hr⟩ => ?_, fun hx => ⟨true, hx⟩⟩
  cases r with
  | false => exact absurd hr h.ne_false
  | true => exact hr

theorem ok {r : Bool} (hr : r = true) : Confirms (.ok r) True := by
  rw [hr]
  exact ⟨nofun, by simp⟩

theorem error (e : Fault) (hp : ¬p) : Confirms (.error e) p := ⟨nofun, by simp [hp]⟩

/-- A lookup finds what it finds. -/
theorem agree {α : Type} [DecidableEq α] (x : Except Fault α) :
    Confirms (agree x x) (∃ a, x = .ok a) := by
  cases x with
  | error e => exact error e (by simp)
  | ok a => exact (ok (decide_eq_true rfl)).congr (by simp)

/-- A check of something that is looked up first. -/
theorem bind {α : Type} {y : Except Fault α} {f : α → Except Fault Bool} {q : α → Prop}
    (h : ∀ a, y = .ok a → Confirms (f a) (q a)) : Confirms (y >>= f) (∃ a, y = .ok a ∧ q a) := by
  cases y with
  | error e => exact error e (by simp)
  | ok a => exact (h a rfl).congr (by simp)

/-- When a check is passed, the others decide. -/
theorem andThen {f : Bool → Except Fault Bool} (hx : Confirms x p) (hf : Confirms (f true) q) :
    Confirms (x >>= f) (p ∧ q) := by
  cases hr : x with
  | error e =>
    have hp : ¬p := fun hp => by simp [hx.iff.2 hp] at hr
    exact error e (mt And.left hp)
  | ok r =>
    cases r with
    | false => exact absurd hr hx.ne_false
    | true => exact hf.congr (iff_and_self.2 fun _ => hx.iff.1 hr)

theorem allM {α : Type} {f : α → Except Fault Bool} {l : List α} (h : ∀ a ∈ l, f a ≠ .ok false) :
    Confirms (l.allM f) (∀ a ∈ l, f a = .ok true) := by
  induction l with
  | nil => exact (ok rfl).congr (by simp)
  | cons a l ih =>
    obtain ⟨ha, hl⟩ := List.forall_mem_cons.1 h
    exact (andThen ⟨ha, Iff.rfl⟩ (ih hl)).congr (by simp)

theorem allOf_nil : Confirms (allOf []) True := ok rfl

theorem allOf_cons {checks : List (Except Fault Bool)} (hx : Confirms x p)
    (hchecks : Confirms (allOf checks) q) : Confirms (allOf (x :: checks)) (p ∧ q) :=
  andThen hx hchecks

/-- A check that is passed in any case. -/
theorem skip {r : Bool} (hr : r = true) {checks : List (Except Fault Bool)}
    (hchecks : Confirms (allOf checks) p) : Confirms (allOf (.ok r :: checks)) p :=
  ((ok hr).allOf_cons hchecks).congr (by simp)

end Confirms

namespace Arena

variable {c : Arena} {fuel : Nat} {id : StmtId}

/-- The arena compared with itself. -/
def withItself (c : Arena) : Comparison := ⟨c, c⟩

theorem sameType_self (type : QualType) :
    Confirms (c.withItself.sameType type type) (c.types.Resolvable type.id) :=
  (Confirms.agree _).congr TypeTable.exists_spelling_iff

theorem sameInfo_self (info : ExprInfo) :
    Confirms (c.withItself.sameInfo info info) (c.types.Resolvable info.type.id) :=
  ((sameType_self info.type).allOf_cons (.skip (by simp) (.skip (by simp) .allOf_nil))).congr
    (by simp)

theorem sameDecl_self (d : VarDecl) :
    Confirms (c.withItself.sameDecl d d)
      ((∃ text, c.names.text d.name = .ok text) ∧ c.types.Resolvable d.type.id) := by
  refine ((Confirms.agree _).allOf_cons
    ((sameType_self d.type).allOf_cons (.skip (by simp) .allOf_nil))).congr ?_
  simp [withItself]

theorem sameDecl?_self (o : Option VarDecl) :
    Confirms (c.withItself.sameDecl? o o)
      (∀ d ∈ o, (∃ text, c.names.text d.name = .ok text) ∧ c.types.Resolvable d.type.id) := by
  cases o with
  | none => exact (Confirms.ok rfl).congr (by simp)
  | some d => exact (sameDecl_self d).congr (by simp)

/-- A node is like itself where all that it mentions exists. -/
theorem sameNode_self (n : Node) : Confirms (c.withItself.sameNode n n) (c.Spellable n) := by
  rw [spellable_iff]
  cases n with
  | integerLiteral n =>
    refine (Confirms.skip (by simp)
      ((sameInfo_self n.info).allOf_cons (.skip (by simp) .allOf_nil))).congr ?_
    simp [NodeForm.info?, NodeForm.decl?]
  | declRef n =>
    refine ((sameDecl_self n.decl).allOf_cons ((sameInfo_self n.info).allOf_cons
      (.skip (by simp) .allOf_nil))).congr ?_
    simp [NodeForm.info?, NodeForm.decl?, and_comm]
  | unary n | binary n =>
    refine (Confirms.skip (by simp) ((sameInfo_self n.info).allOf_cons
      (.skip (by simp) (.skip (by simp) .allOf_nil)))).congr ?_
    simp [NodeForm.info?, NodeForm.decl?]
  | call n =>
    refine ((sameInfo_self n.info).allOf_cons (.skip (by simp) .allOf_nil)).congr ?_
    simp [NodeForm.info?, NodeForm.decl?]
  | ifStmt n =>
    refine (Confirms.skip (by simp) (.skip (by simp) (.skip (by simp)
      ((sameDecl?_self n.condVar).allOf_cons
        (.skip (by simp) (.skip (by simp) .allOf_nil)))))).congr ?_
    simp [NodeForm.info?, NodeForm.decl?]
  | whileStmt n =>
    refine ((sameDecl?_self n.condVar).allOf_cons (.skip (by simp) .allOf_nil)).congr ?_
    simp [NodeForm.info?, NodeForm.decl?]
  | returnStmt n =>
    refine (Confirms.skip (by simp) (.skip (by simp) ((sameDecl?_self n.nrvoCandidate).allOf_cons
      .allOf_nil))).congr ?_
    simp [NodeForm.info?, NodeForm.decl?]
  | compound n =>
    refine (Confirms.skip (by simp) (.skip (by simp) .allOf_nil)).congr ?_
    simp [NodeForm.info?, NodeForm.decl?]
  | nullStmt n => exact (Confirms.ok (by simp)).congr (by simp [NodeForm.info?, NodeForm.decl?])

/-- A list pairs up with itself entry by entry. -/
theorem mem_zip_self {l : List StmtId} {p : StmtId × StmtId} :
    p ∈ l.zip l ↔ p.1 ∈ l ∧ p.2 = p.1 := by
  have hzip : l.zip l = l.map fun b => (b, b) := by
    simpa using List.zip_map' (f := id) (g := id) (l := l)
  rw [hzip, List.mem_map]
  grind

/-- One step down the comparison of a node with itself. -/
theorem sameWithin_self_succ (hbelow : ∀ b, c.withItself.sameWithin fuel b b ≠ .ok false)
    (id : StmtId) :
    Confirms (c.withItself.sameWithin (fuel + 1) id id)
      (c.Readable id ∧ ∀ b, c.Child id b → c.withItself.sameWithin fuel b b = .ok true) := by
  -- of the two lookups of a node and of a list, the second finds what the first has found
  have hpairs {left right : List StmtId} (h : left = right) :
      Confirms (if left.length = right.length then
          (left.zip right).allM fun p => c.withItself.sameWithin fuel p.1 p.2
        else return false)
        (∀ b ∈ left, c.withItself.sameWithin fuel b b = .ok true) := by
    subst h
    rw [if_pos rfl]
    refine (Confirms.allM ?_).congr ?_
    · intro p hp
      rw [(mem_zip_self.1 hp).2]
      exact hbelow p.1
    · simp [mem_zip_self]
  have hlists : Confirms (do
      let left ← c.store.children id
      let right ← c.store.children id
      if left.length = right.length then
        (left.zip right).allM fun p => c.withItself.sameWithin fuel p.1 p.2
      else return false)
      (∃ left, c.store.children id = .ok left ∧ ∃ right, c.store.children id = .ok right ∧
        ∀ b ∈ left, c.withItself.sameWithin fuel b b = .ok true) :=
    .bind fun left hleft => .bind fun right hright =>
      hpairs (Except.ok.inj (hleft.symm.trans hright))
  have hnodes : Confirms (c.withItself.sameWithin (fuel + 1) id id)
      (∃ x, c.store.node id = .ok x ∧ ∃ y, c.store.node id = .ok y ∧ c.Spellable x ∧
        ∃ left, c.store.children id = .ok left ∧ ∃ right, c.store.children id = .ok right ∧
          ∀ b ∈ left, c.withItself.sameWithin fuel b b = .ok true) := by
    refine .bind fun x hx => .bind fun y hy => ?_
    obtain rfl := Except.ok.inj (hx.symm.trans hy)
    exact (sameNode_self x).andThen hlists
  refine hnodes.congr ⟨?_, ?_⟩
  · rintro ⟨x, hx, -, -, hspell, ids, hids, -, -, hbelow⟩
    exact ⟨⟨x, hx, ⟨ids, hids⟩, hspell⟩, fun b hb => hbelow b ((child_iff hids).1 hb)⟩
  · rintro ⟨⟨x, hx, ⟨ids, hids⟩, hspell⟩, hbelow⟩
    exact ⟨x, hx, x, hx, hspell, ids, hids, ids, hids, fun b hb => hbelow b ⟨ids, hids, hb⟩⟩

/-- Whatever a comparison of a node with itself meets on the way, it never says no. -/
theorem sameWithin_self_ne_false (fuel : Nat) (id : StmtId) :
    c.withItself.sameWithin fuel id id ≠ .ok false := by
  induction fuel generalizing id with
  | zero => nofun
  | succ fuel ih => exact (sameWithin_self_succ ih id).ne_false

/-- Comparing a node with itself is a recursion along the children. -/
theorem recursion_same_self (c : Arena) :
    Recursion c.Child c.Readable fun n id => c.withItself.sameWithin n id id = .ok true where
  zero _ := nofun
  succ n id := (sameWithin_self_succ (sameWithin_self_ne_false n) id).iff

/-- A node is like itself where it and everything below it can be read. -/
theorem same_self (id : StmtId) : Confirms (c.withItself.same id id) (c.Resolvable id) where
  ne_false := sameWithin_self_ne_false _ id
  iff := by
    refine c.recursion_same_self.iff_grounded StmtId.index_injective
      fun id ⟨_, _, ⟨_, hids⟩, _⟩ => ?_
    have hlt : id.index < c.store.depthBound :=
      Nat.lt_succ_of_lt (NodeStore.index_lt_of_children hids)
    exact Nat.lt_of_lt_of_le hlt (Nat.le_mul_of_pos_right _ (Nat.succ_pos _))

end Arena

/-! ## The three side by side -/

/-- Every index below `id` has an entry. -/
def TypeTable.Complete (t : TypeTable) (id : TypeId) : Prop :=
  ∀ x, ReflTransGen t.Component id x → ∃ kind, t.kind x = .ok kind

namespace Arena

variable {c : Arena} {root : StmtId}

/-- What the line of a node shows exists: the type of an expression with everything below it, and
the name. -/
structure Printable (c : Arena) (n : Node) : Prop where
  info : ∀ info ∈ n.info?, c.types.Complete info.type.id
  declName : ∀ d ∈ n.decl?, ∃ text, c.names.text d.name = .ok text

/-- The type of the declaration exists in addition, with everything below it. -/
structure Comparable (c : Arena) (n : Node) : Prop extends c.Printable n where
  declType : ∀ d ∈ n.decl?, c.types.Complete d.type.id

/-- Without a cycle, a type is resolvable when nothing is missing below it. -/
theorem info_resolvable_iff {n : Node} (h : ∀ type ∈ n.types, Acyclic c.types.Component type.id) :
    (∀ info ∈ n.info?, c.types.Resolvable info.type.id) ↔
      ∀ info ∈ n.info?, c.types.Complete info.type.id := by
  refine forall₂_congr fun info hinfo => grounded_iff.trans (and_iff_right (h info.type ?_))
  simp_all [NodeForm.types]

theorem decl_resolvable_iff {n : Node} (h : ∀ type ∈ n.types, Acyclic c.types.Component type.id) :
    (∀ d ∈ n.decl?, c.types.Resolvable d.type.id) ↔ ∀ d ∈ n.decl?, c.types.Complete d.type.id := by
  refine forall₂_congr fun d hd => grounded_iff.trans (and_iff_right (h d.type ?_))
  simp_all [NodeForm.types]

theorem exists_line_iff_printable {n : Node}
    (h : ∀ type ∈ n.types, Acyclic c.types.Component type.id) :
    (∃ line, c.line n = .ok line) ↔ c.Printable n := by
  rw [exists_line_iff, info_resolvable_iff h]
  exact ⟨fun hn => ⟨hn.1, hn.2⟩, fun hn => ⟨hn.info, hn.declName⟩⟩

theorem spellable_iff_comparable {n : Node}
    (h : ∀ type ∈ n.types, Acyclic c.types.Component type.id) : c.Spellable n ↔ c.Comparable n := by
  have hinfo := info_resolvable_iff h
  have hdecl := decl_resolvable_iff h
  constructor
  · exact fun hn => ⟨⟨hinfo.1 hn.info, hn.declName⟩, hdecl.1 hn.declType⟩
  · exact fun hn => ⟨hinfo.2 hn.info, hn.declName, hdecl.2 hn.declType⟩

/-- What every node below needs can be said of the lists and of the nodes one after the other. -/
theorem forall_below_iff {Q : Node → Prop} :
    (∀ id, ReflTransGen c.Child root id →
      ∃ node, c.store.node id = .ok node ∧ (∃ ids, c.store.children id = .ok ids) ∧ Q node) ↔
      (∀ id, ReflTransGen c.Child root id → ∃ ids, c.store.children id = .ok ids) ∧
        ∀ node, c.Below root node → Q node := by
  constructor
  · intro h
    refine ⟨fun id hid => ?_, fun node ⟨id, hid, hnode⟩ => ?_⟩
    · obtain ⟨_, _, hids, _⟩ := h id hid
      exact hids
    · obtain ⟨node', hnode', _, hQ⟩ := h id hid
      obtain rfl := Except.ok.inj (hnode.symm.trans hnode')
      exact hQ
  · rintro ⟨hlists, hQ⟩ id hid
    obtain ⟨ids, hids⟩ := hlists id hid
    obtain ⟨node, _, hnode, -⟩ := NodeStore.children_eq_ok_iff.1 hids
    exact ⟨node, hnode, ⟨ids, hids⟩, hQ node ⟨id, hid, hnode⟩⟩

theorem finishes_walk (h : Acyclic c.Child root) (stops : List NodeKind) :
    Finishes (c.store.walk stops root) := by
  have henter (id : StmtId) (met : Array (StmtId × NodeKind)) :
      Finishes ((Visitor.recording stops).enter c.store id met) := (NodeStore.finishes_node id).map
  exact (finishes_visit henter h #[]).map

/-- **Traversals fail alike.** Take any node below which neither nodes nor types form a cycle,
whatever is missing there. No traversal fails for want of depth, and

* going through all nodes fails as the walk without stops does, with the same fault; that walk
  succeeds exactly if every handle below has a node whose list can be read;
* an outline is written exactly if that walk succeeds and every type of an expression and every name
  in a line is there, the types with everything below them;
* the node can be compared with itself exactly if the types of declarations are there as well, and
  the answer is never no. -/
theorem traversals_fail_alike (c : Arena) (root : StmtId) (hnodes : Acyclic c.Child root)
    (htypes : c.AcyclicTypes root) :
    (∀ e, c.store.visitAll root = .error e ↔ c.store.walk [] root = .error e) ∧
      ((∃ met, c.store.walk [] root = .ok met) ↔
        ∀ id, ReflTransGen c.Child root id → ∃ ids, c.store.children id = .ok ids) ∧
      ((∃ text, c.outline root = .ok text) ↔
        (∃ met, c.store.walk [] root = .ok met) ∧ ∀ node, c.Below root node → c.Printable node) ∧
      ((∃ r, c.withItself.same root root = .ok r) ↔
        (∃ met, c.store.walk [] root = .ok met) ∧ ∀ node, c.Below root node → c.Comparable node) ∧
      c.withItself.same root root ≠ .ok false ∧
      Finishes (c.store.walk [] root) ∧ Finishes (c.outline root) ∧
      Finishes (c.withItself.same root root) := by
  have hwalk : (∃ met, c.store.walk [] root = .ok met) ↔
      ∀ id, ReflTransGen c.Child root id → ∃ ids, c.store.children id = .ok ids :=
    exists_walk_iff.trans (grounded_iff.trans (and_iff_right hnodes))
  have houtline : (∃ text, c.outline root = .ok text) ↔
      (∃ met, c.store.walk [] root = .ok met) ∧ ∀ node, c.Below root node → c.Printable node := by
    refine (exists_outline_iff.trans (grounded_iff.trans (and_iff_right hnodes))).trans ?_
    refine forall_below_iff.trans (and_congr hwalk.symm (forall₂_congr fun node hnode => ?_))
    exact exists_line_iff_printable (htypes node hnode)
  have hsame : (∃ r, c.withItself.same root root = .ok r) ↔
      (∃ met, c.store.walk [] root = .ok met) ∧ ∀ node, c.Below root node → c.Comparable node := by
    refine (same_self root).exists_ok_iff.trans ?_
    refine (grounded_iff.trans (and_iff_right hnodes)).trans ?_
    refine forall_below_iff.trans (and_congr hwalk.symm (forall₂_congr fun node hnode => ?_))
    exact spellable_iff_comparable (htypes node hnode)
  exact ⟨fun e => NodeStore.visitAll_eq_error_iff, hwalk, houtline, hsame,
    (same_self root).ne_false, finishes_walk hnodes [], finishes_outline hnodes htypes,
    Comparison.finishes_same hnodes htypes htypes⟩

/-- A block that returns a number of a type with a missing parameter twice, and a block of this
block and a call whose empty list lies outside the list storage. -/
def faulty : Arena :=
  initial.after
    [.edit (.type (.function (.builtin .int) [{ id := ⟨99⟩ }])),
      .edit (.node (.construct (.integerLiteral 7 { id := ⟨8⟩ } ⟨some 4⟩))),
      .edit (.node (.construct (.returnFactory .invalid (some ⟨0⟩) none))),
      .edit (.node (.construct (.compoundFactory [⟨1⟩, ⟨1⟩] .invalid .invalid))),
      .edit (.node (.add (.call ⟨⟨0⟩, ⟨5, 0⟩, .prvalue (.builtin .int), .invalid⟩))),
      .edit (.node (.construct (.compoundFactory [⟨2⟩, ⟨3⟩] .invalid .invalid)))]

theorem faulty_fails_alike :
    (∀ id, Acyclic faulty.Child id) ∧ (∀ id, faulty.AcyclicTypes id) ∧
      faulty.store.walk [] ⟨4⟩ = .error (.sliceOutOfRange .exprs 0 5) ∧
      faulty.store.visitAll ⟨4⟩ = .error (.sliceOutOfRange .exprs 0 5) ∧
      (∃ met, faulty.store.walk [] ⟨2⟩ = .ok met) ∧
      faulty.outline ⟨2⟩ = .error (.indexOutOfBounds 9 99) ∧
      ¬(∀ node, faulty.Below ⟨2⟩ node → faulty.Printable node) ∧
      ¬(∀ node, faulty.Below ⟨2⟩ node → faulty.Comparable node) := by
  have hnodes : ∀ id, Acyclic faulty.Child id := acyclic_of_older (by decide +kernel)
  have htypes (id : StmtId) : faulty.AcyclicTypes id :=
    fun _ _ type _ => TypeTable.acyclic_of_older (by decide +kernel) type.id
  have hwalk : faulty.store.walk [] ⟨4⟩ = .error (.sliceOutOfRange .exprs 0 5) := by decide +kernel
  have hblock : ∃ met, faulty.store.walk [] ⟨2⟩ = .ok met := ⟨_, rfl⟩
  have houtline : faulty.outline ⟨2⟩ = .error (.indexOutOfBounds 9 99) := by decide +kernel
  have hsame : faulty.withItself.same ⟨2⟩ ⟨2⟩ = .error (.indexOutOfBounds 9 99) := by decide +kernel
  obtain ⟨hvisit, -⟩ := traversals_fail_alike faulty ⟨4⟩ (hnodes _) (htypes _)
  obtain ⟨-, -, hprint, hcompare, -⟩ := traversals_fail_alike faulty ⟨2⟩ (hnodes _) (htypes _)
  refine ⟨hnodes, htypes, hwalk, (hvisit _).2 hwalk, hblock, houtline, fun h => ?_, fun h => ?_⟩
  · obtain ⟨text, htext⟩ := hprint.2 ⟨hblock, h⟩
    cases houtline.symm.trans htext
  · obtain ⟨r, hr⟩ := hcompare.2 ⟨hblock, h⟩
    cases hsame.symm.trans hr

end Arena

end SyntaxArena
