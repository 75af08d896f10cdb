import SyntaxArena.Operation
import SyntaxArena.Proofs.NodeTree
import SyntaxArena.Proofs.Observers

/-!
# The first location of a source-ordered tree

The first location of a node is looked for along leftmost operands. In a tree whose tokens stand in
the order in which a program is written, no token stands before the one at which the search ends.

- `NodeForm.tokens`, `NodeTree.tokens`: the locations of the tokens of a node, and of all nodes of a
  tree.
- `NodeTree.InOrder`: the tokens of a node and those below it stand as its kind is written.
- `NodeTree.SourceOrdered`: all tokens of a tree have locations, and every node of it is in order.
- `NodeStore.start_least`: no token stands before those of the operand at which a node begins, or
  before the location at which it begins by itself.
- `Arena.firstLoc_is_least`: the search ends at the least location of all.
-/

namespace SyntaxArena

/-! ## Tokens -/

/-- Where the `else` of an `if` stands, if there is one. -/
def IfStmt.elseTokens (n : IfStmt) : List Location :=
  if n.elseBranch.isSome then [n.elseLoc] else []

/-- The locations of the tokens that a node has besides those of its children. -/
def NodeForm.tokens {Args Body : Type} : NodeForm Args Body → List Location
  | .integerLiteral n => [n.loc]
  | .declRef n => [n.loc]
  | .unary n => [n.opLoc]
  | .binary n => [n.opLoc]
  | .call n => [n.rparenLoc]
  | .ifStmt n => n.ifLoc :: n.elseTokens
  | .whileStmt n => [n.whileLoc]
  | .returnStmt n => [n.returnLoc]
  | .compound n => [n.lbraceLoc, n.rbraceLoc]
  | .nullStmt n => [n.semiLoc]

namespace NodeTree

/-- The locations of all tokens of a tree. -/
def tokens (t : NodeTree) : List Location := t.subtrees.flatMap (·.node.tokens)

theorem tokens_eq (t : NodeTree) : t.tokens = t.node.tokens ++ t.children.flatMap tokens := by
  rw [tokens, subtrees_eq, List.flatMap_cons, List.flatMap_assoc]
  rfl

end NodeTree

/-! ## Order -/

/-- Both locations are valid, and the first stands before the second. -/
def Location.Before (l m : Location) : Prop := ∃ a ∈ l.offset?, ∃ b ∈ m.offset?, a < b

instance : (l m : Location) → Decidable (l.Before m)
  | ⟨some a⟩, ⟨some b⟩ => decidable_of_iff (a < b) (by simp [Location.Before])
  | ⟨some _⟩, ⟨none⟩ => isFalse (by simp [Location.Before])
  | ⟨none⟩, _ => isFalse (by simp [Location.Before])

theorem Location.Before.trans {l m n : Location} (h : l.Before m) (h' : m.Before n) :
    l.Before n := by
  obtain ⟨a, ha, b, hb, hab⟩ := h
  obtain ⟨b', hb', c, hc, hbc⟩ := h'
  obtain rfl := Option.some.inj (hb.symm.trans hb')
  exact ⟨a, ha, c, hc, Nat.lt_trans hab hbc⟩

/-- Every location of one list stands before every location of another. -/
def Precede (ls ms : List Location) : Prop := ∀ l ∈ ls, ∀ m ∈ ms, l.Before m

instance (ls ms : List Location) : Decidable (Precede ls ms) :=
  inferInstanceAs (Decidable (∀ l ∈ ls, ∀ m ∈ ms, l.Before m))

namespace NodeTree

/-- The operators that are written behind their operand. -/
def postfixOps : List UnaryOp := [.postInc, .postDec]

theorem mem_postfixOps_iff {op : UnaryOp} : op ∈ postfixOps ↔ op.isPostfix := by
  cases op <;> decide

/-- The tokens of the root and those below it stand in the order in which the root is written. A
leaf has nothing below it. -/
def InOrder : NodeTree → Prop
  | ⟨_, .unary n, [operand]⟩ =>
    if n.op ∈ postfixOps then Precede operand.tokens [n.opLoc] else Precede [n.opLoc] operand.tokens
  | ⟨_, .binary n, [lhs, rhs]⟩ => Precede lhs.tokens [n.opLoc] ∧ Precede [n.opLoc] rhs.tokens
  | ⟨_, .call n, callee :: args⟩ => Precede callee.tokens (n.rparenLoc :: args.flatMap tokens)
  | ⟨_, .ifStmt n, below⟩ => Precede [n.ifLoc] (n.elseTokens ++ below.flatMap tokens)
  | ⟨_, .whileStmt n, below⟩ => Precede [n.whileLoc] (below.flatMap tokens)
  | ⟨_, .returnStmt n, below⟩ => Precede [n.returnLoc] (below.flatMap tokens)
  | ⟨_, .compound n, below⟩ => Precede [n.lbraceLoc] (n.rbraceLoc :: below.flatMap tokens)
  | _ => True

instance (t : NodeTree) : Decidable t.InOrder := by
  unfold InOrder
  split <;> infer_instance

/-- Every token has a location, and every node stands in order with what is below it. -/
structure SourceOrdered (t : NodeTree) : Prop where
  valid : ∀ l ∈ t.tokens, l.isValid
  inOrder : ∀ u ∈ t.subtrees, u.InOrder

instance (t : NodeTree) : Decidable t.SourceOrdered :=
  decidable_of_iff ((∀ l ∈ t.tokens, l.isValid) ∧ ∀ u ∈ t.subtrees, u.InOrder)
    ⟨fun h => ⟨h.1, h.2⟩, fun h => ⟨h.1, h.2⟩⟩

end NodeTree

/-! ## Where a search ends -/

namespace NodeStore

variable {s : NodeStore} {fuel : Nat} {id : StmtId} {t : NodeTree}

/-- One step of a search. The others are all tokens but the one at which the search ends, or but
those of the operand with which it goes on. -/
theorem start_least {R : StmtId → NodeTree → Prop} {b : Blueprint} (hb : s.resolve t.node = .ok b)
    (hbelow : List.Forall₂ R b.children t.children) :
    match t.node.start with
    | .here loc => ∃ others, t.tokens = loc :: others ∧ (t.InOrder → Precede [loc] others)
    | .operand e => ∃ u ∈ t.children, R e.toStmt u ∧
        ∃ others, (∀ m, m ∈ t.tokens ↔ m ∈ u.tokens ∨ m ∈ others) ∧
          (t.InOrder → Precede u.tokens others) := by
  obtain ⟨root, node, children⟩ := t
  simp only [NodeTree.tokens_eq ⟨_, _, _⟩]
  cases node with
  | integerLiteral n | declRef n | nullStmt n =>
    cases hb
    cases hbelow
    exact ⟨[], rfl, fun _ _ _ => nofun⟩
  | unary n =>
    cases hb
    obtain ⟨operand, _, hoperand, hnil, rfl⟩ := List.forall₂_cons_left_iff.1 hbelow
    cases hnil
    simp only [NodeForm.start, NodeTree.InOrder, NodeTree.mem_postfixOps_iff]
    cases n.op.isPostfix with
    | true =>
      refine ⟨operand, List.mem_cons_self, hoperand, [n.opLoc], fun m => ?_, id⟩
      simp [NodeForm.tokens, or_comm]
    | false => exact ⟨operand.tokens, by simp [NodeForm.tokens], id⟩
  | binary n =>
    cases hb
    obtain ⟨lhs, rest, hlhs, hrest, rfl⟩ := List.forall₂_cons_left_iff.1 hbelow
    obtain ⟨rhs, _, -, hnil, rfl⟩ := List.forall₂_cons_left_iff.1 hrest
    cases hnil
    refine ⟨lhs, List.mem_cons_self, hlhs, n.opLoc :: rhs.tokens, fun m => ?_, ?_⟩
    · simp [NodeForm.tokens, or_left_comm]
    · -- what stands behind the operator stands behind the left operand
      rintro ⟨hop, hrhs⟩ l hl m (_ | ⟨_, hm⟩)
      · exact hop l hl _ List.mem_cons_self
      · exact (hop l hl _ List.mem_cons_self).trans (hrhs _ List.mem_cons_self m hm)
  | call n =>
    obtain ⟨args, -, rfl⟩ := Checked.return_eq_ok_iff.1 hb
    obtain ⟨callee, rest, hcallee, -, rfl⟩ := List.forall₂_cons_left_iff.1 hbelow
    refine ⟨callee, List.mem_cons_self, hcallee, n.rparenLoc :: rest.flatMap NodeTree.tokens,
      fun m => ?_, id⟩
    simp [NodeForm.tokens, or_left_comm]
  | ifStmt n | whileStmt n | returnStmt n | compound n => exact ⟨_, rfl, id⟩

/-- A search ends at a token. Where every node is in order, no other token stands before it. -/
theorem firstLocWithin_of_treeWithin (h : s.treeWithin fuel id = .ok t) :
    ∃ loc, s.firstLocWithin fuel id = .ok loc ∧ loc ∈ t.tokens ∧
      ((∀ u ∈ t.subtrees, u.InOrder) → ∀ m ∈ t.tokens, m = loc ∨ loc.Before m) := by
  induction fuel generalizing id t with
  | zero => exact absurd h treeWithin_zero_ne
  | succ fuel ih =>
    obtain ⟨rfl, hnode, ids, hids, hbelow⟩ := treeWithin_succ_iff.1 h
    obtain ⟨node, b, hnode', hb, rfl⟩ := children_eq_ok_iff.1 hids
    obtain rfl := Except.ok.inj (hnode.symm.trans hnode')
    have hstart := start_least hb hbelow
    rw [firstLocWithin, hnode]
    simp only [bind, Except.bind]
    cases hs : t.node.start with
    | here loc =>
      rw [hs] at hstart
      obtain ⟨others, htokens, hleast⟩ := hstart
      refine ⟨loc, rfl, by rw [htokens]; exact List.mem_cons_self, fun horder m hm => ?_⟩
      rw [htokens] at hm
      have hroot : t.InOrder := horder t (t.subtrees_eq ▸ List.mem_cons_self)
      rcases List.mem_cons.1 hm with rfl | hm
      · exact .inl rfl
      · exact .inr (hleast hroot _ List.mem_cons_self m hm)
    | operand e =>
      rw [hs] at hstart
      obtain ⟨u, hu, hfound, others, hothers, hleast⟩ := hstart
      obtain ⟨loc, hloc, hmem, hrest⟩ := ih hfound
      refine ⟨loc, hloc, (hothers loc).2 (.inl hmem), fun horder m hm => ?_⟩
      have hroot : t.InOrder := horder t (t.subtrees_eq ▸ List.mem_cons_self)
      have hoperand : ∀ v ∈ u.subtrees, v.InOrder := fun v hv =>
        horder v (t.subtrees_eq ▸ List.mem_cons_of_mem t (List.mem_flatMap.2 ⟨u, hu, hv⟩))
      rcases (hothers m).1 hm with hm | hm
      · exact hrest hoperand m hm
      · exact .inr (hleast hroot loc hmem m hm)

end NodeStore

namespace Arena

/-- **The first location is the least one.** Below a node without cycles at which everything can be
followed, the search for the first location ends, and it ends at a token. Where in addition the tree
of the node is source-ordered, no token has a smaller offset. -/
theorem firstLoc_is_least (c : Arena) (root : StmtId) (hroot : c.Walkable root) :
    ∃ t loc, c.store.tree root = .ok t ∧ c.store.firstLoc root = .ok loc ∧ loc ∈ t.tokens ∧
      (t.SourceOrdered → ∃ a ∈ loc.offset?, ∀ m ∈ t.tokens, ∃ b ∈ m.offset?, a ≤ b) := by
  obtain ⟨t, ht⟩ := exists_tree_iff.2 hroot
  obtain ⟨loc, hloc, hmem, hleast⟩ := NodeStore.firstLocWithin_of_treeWithin ht
  refine ⟨t, loc, ht, hloc, hmem, fun hordered => ?_⟩
  obtain ⟨a, ha⟩ := Option.isSome_iff_exists.1 (hordered.valid loc hmem)
  refine ⟨a, ha, fun m hm => ?_⟩
  rcases hleast hordered.inOrder m hm with rfl | ⟨a', ha', b, hb, hab⟩
  · exact ⟨a, ha, Nat.le_refl _⟩
  · obtain rfl := Option.some.inj (ha.symm.trans ha')
    exact ⟨b, hb, Nat.le_of_lt hab⟩

/-- The sum `f++(-7) + 7` with a space at either side of the `+`, four bytes into the text. -/
def written : Arena :=
  initial.after
    [.edit (.intern "f"),
      .edit (.node (.construct (.declRef ⟨⟨1⟩, .builtin .int, .invalid⟩ .lvalue ⟨some 4⟩))),
      .edit (.node (.construct (.unary ⟨0⟩ .postInc (.prvalue (.builtin .int)) ⟨some 5⟩))),
      .edit (.node (.construct (.integerLiteral 7 (.builtin .int) ⟨some 9⟩))),
      .edit (.node (.construct (.unary ⟨2⟩ .minus (.prvalue (.builtin .int)) ⟨some 8⟩))),
      .edit (.node (.construct (.callFactory ⟨1⟩ [⟨3⟩] (.builtin .int) .prvalue ⟨some 10⟩))),
      .edit (.node (.construct (.integerLiteral 7 (.builtin .int) ⟨some 14⟩))),
      .edit (.node (.construct
        (.binaryOptions ⟨4⟩ ⟨5⟩ .add (.prvalue (.builtin .int)) ⟨some 12⟩ .initial)))]

theorem written_begins_at_reference :
    written.Walkable ⟨6⟩ ∧ ∃ t, written.store.tree ⟨6⟩ = .ok t ∧ t.SourceOrdered ∧
      written.store.firstLoc ⟨6⟩ = .ok ⟨some 4⟩ ∧ ∀ m ∈ t.tokens, ∃ b ∈ m.offset?, 4 ≤ b := by
  have hroot : written.Walkable ⟨6⟩ := exists_tree_iff.1 ⟨_, rfl⟩
  have hordered : ∀ t ∈ (written.store.tree ⟨6⟩).toOption, t.SourceOrdered := by decide +kernel
  obtain ⟨t, loc, ht, hloc, -, hleast⟩ := firstLoc_is_least written ⟨6⟩ hroot
  have ht' : t.SourceOrdered := hordered t (by rw [ht]; rfl)
  obtain rfl : ⟨some 4⟩ = loc := Except.ok.inj (Eq.trans rfl hloc)
  obtain ⟨a, ha, hall⟩ := hleast ht'
  obtain rfl : 4 = a := Option.some.inj ha
  exact ⟨hroot, t, ht, ht', hloc, hall⟩

end Arena

end SyntaxArena
