import SyntaxArena.Node.Visit
import SyntaxArena.Proofs.Unfolding

/-!
# What is observed of a node is read off its tree

- `Arena.outline_of_unfold`: the outline of a node is the outline of its tree.
- `Arena.firstLoc_of_unfold`: so is the first location.
- `Arena.visitWithin_of_unfoldWithin`: a visitor that does not fail at a node does not fail on the
  way either.
-/

namespace SyntaxArena

namespace Arena

variable {c : Arena} {fuel depth : Nat} {id : StmtId} {tree : SyntaxTree}

/-! ## Outlines -/

theorem infoText_of_spellInfo {info : ExprInfo} {i : SpeltInfo} (h : c.spellInfo info = .ok i) :
    c.infoText info = .ok i.text := by
  obtain ⟨type, htype, rfl⟩ := Checked.return_eq_ok_iff.1 h
  rw [infoText, htype]
  rfl

theorem nameText_of_spellDecl {d : VarDecl} {e : SpeltDecl} (h : c.spellDecl d = .ok e) :
    c.nameText d = .ok e.nameText := by
  obtain ⟨name, hname, h⟩ := Checked.bind_eq_ok_iff.1 h
  obtain ⟨type, -, rfl⟩ := Checked.return_eq_ok_iff.1 h
  rw [nameText, hname]
  rfl

theorem optionalNameText_of_spellDecl? (word : String) {o : Option VarDecl} {e : Option SpeltDecl}
    (h : c.spellDecl? o = .ok e) :
    c.optionalNameText word o = .ok (SpeltDecl.optionalNameText word e) := by
  cases o with
  | none =>
    obtain rfl := Checked.pure_eq_ok_iff.1 h
    rfl
  | some d =>
    obtain ⟨e, he, rfl⟩ := Checked.return_eq_ok_iff.1 h
    rw [optionalNameText, nameText_of_spellDecl he]
    rfl

theorem detailText_of_label {n : Node} {l : Label} (h : c.label n = .ok l) :
    c.detailText n = .ok l.detailText := by
  cases n with
  | declRef n =>
    obtain ⟨d, hd, h⟩ := Checked.bind_eq_ok_iff.1 h
    obtain ⟨i, -, rfl⟩ := Checked.return_eq_ok_iff.1 h
    rw [detailText, nameText_of_spellDecl hd]
    rfl
  | ifStmt n | whileStmt n | returnStmt n =>
    obtain ⟨d, hd, rfl⟩ := Checked.return_eq_ok_iff.1 h
    rw [detailText, optionalNameText_of_spellDecl? _ hd]
    rfl
  | compound n | nullStmt n =>
    obtain rfl := Checked.pure_eq_ok_iff.1 h
    rfl
  | _ =>
    obtain ⟨i, -, rfl⟩ := Checked.return_eq_ok_iff.1 h
    rfl

theorem info_of_label {n : Node} {l : Label} (h : c.label n = .ok l) :
    (match n.info? with
      | some info => c.infoText info
      | none => pure "") = .ok l.infoText := by
  cases n with
  | declRef n =>
    obtain ⟨d, -, h⟩ := Checked.bind_eq_ok_iff.1 h
    obtain ⟨i, hi, rfl⟩ := Checked.return_eq_ok_iff.1 h
    exact infoText_of_spellInfo hi
  | ifStmt n | whileStmt n | returnStmt n =>
    obtain ⟨d, -, rfl⟩ := Checked.return_eq_ok_iff.1 h
    rfl
  | compound n | nullStmt n =>
    cases h
    rfl
  | _ =>
    obtain ⟨i, hi, rfl⟩ := Checked.return_eq_ok_iff.1 h
    exact infoText_of_spellInfo hi

/-- The line of a node is that of its label. -/
theorem line_of_label {n : Node} {l : Label} (h : c.label n = .ok l) : c.line n = .ok l.line := by
  have hinfo := info_of_label h
  have hdetail := detailText_of_label h
  rw [line, Label.line, kind_label h]
  split at hinfo
  · simp [*]
  · simp [*]

/-- The lines of a node are those of its tree. -/
theorem outlineLines_of_unfoldWithin (h : c.unfoldWithin fuel id = .ok tree) :
    c.outlineLines fuel depth id = .ok (tree.lines depth) := by
  induction fuel generalizing depth id tree with
  | zero => exact absurd h unfoldWithin_zero_ne
  | succ fuel ih =>
    obtain ⟨node, ids, hnode, hids, hlabel, hbelow⟩ := unfoldWithin_succ_iff.1 h
    have hlines : ids.mapM (c.outlineLines fuel (depth + 1))
        = .ok (tree.children.map (SyntaxTree.lines (depth + 1))) := by
      rw [Checked.mapM_eq_ok_iff, List.forall₂_map_right_iff]
      exact hbelow.imp fun _ _ hu => ih hu
    have hline : c.line node = .ok tree.label.line := line_of_label hlabel
    rw [outlineLines, SyntaxTree.lines_eq]
    simp only [hnode, hids, hline, hlines, bind, Except.bind]
    rfl

/-- The outline of a node is the outline of its tree. -/
theorem outline_of_unfold (h : c.unfold id = .ok tree) : c.outline id = .ok tree.outline := by
  have hlines : c.outlineLines c.store.depthBound 0 id = .ok (tree.lines 0) :=
    outlineLines_of_unfoldWithin h
  rw [outline, hlines]
  rfl

/-! ## First locations -/

/-- Where a tree begins: at a location of its own, or where the tree of the leftmost operand
begins. -/
theorem start_of_label {R : StmtId → SyntaxTree → Prop} {b : Blueprint}
    (hlabel : c.label b = .ok tree.label) (hbelow : List.Forall₂ R b.children tree.children) :
    match b.start with
    | .here loc => tree.firstLoc = loc
    | .operand e => ∃ u, R e.toStmt u ∧ tree.firstLoc = u.firstLoc := by
  have hkind := kind_label hlabel
  cases b with
  | unary n =>
    cases tree with
    | unary op operand info opLoc canOverflow =>
      obtain ⟨i, -, hroot⟩ := Checked.return_eq_ok_iff.1 hlabel
      cases hroot
      simp only [NodeForm.start]
      cases hop : n.op.isPostfix with
      | true => exact ⟨operand, (List.forall₂_cons.1 hbelow).1, by simp [SyntaxTree.firstLoc, hop]⟩
      | false => simp [SyntaxTree.firstLoc, hop]
    | _ => cases hkind
  | binary n =>
    cases tree with
    | binary op lhs rhs info opLoc fpOptions => exact ⟨lhs, (List.forall₂_cons.1 hbelow).1, rfl⟩
    | _ => cases hkind
  | call n =>
    cases tree with
    | call callee args info rparenLoc => exact ⟨callee, (List.forall₂_cons.1 hbelow).1, rfl⟩
    | _ => cases hkind
  | _ =>
    cases tree <;> cases hkind
    all_goals
      simp only [label, Checked.bind_eq_ok_iff, Checked.pure_eq_ok_iff] at hlabel
      grind [NodeForm.start, SyntaxTree.firstLoc, SyntaxTree.label]

theorem start_resolve {node : Node} {b : Blueprint} (h : c.store.resolve node = .ok b) :
    b.start = node.start := by
  cases node with
  | call n =>
    obtain ⟨args, -, rfl⟩ := Checked.return_eq_ok_iff.1 h
    rfl
  | compound n =>
    obtain ⟨body, -, rfl⟩ := Checked.return_eq_ok_iff.1 h
    rfl
  | _ =>
    cases h
    rfl

theorem firstLocWithin_of_unfoldWithin (h : c.unfoldWithin fuel id = .ok tree) :
    c.store.firstLocWithin fuel id = .ok tree.firstLoc := by
  induction fuel generalizing id tree with
  | zero => exact absurd h unfoldWithin_zero_ne
  | succ fuel ih =>
    obtain ⟨node, hnode, h⟩ := Checked.bind_eq_ok_iff.1 h
    obtain ⟨b, hb, h⟩ := Checked.bind_eq_ok_iff.1 h
    obtain ⟨hlabel, hbelow⟩ := grow_eq_ok_iff.1 h
    have hstart := start_of_label hlabel hbelow
    rw [start_resolve hb] at hstart
    refine Checked.bind_eq_ok_iff.2 ⟨node, hnode, ?_⟩
    cases hs : node.start with
    | here loc =>
      rw [hs] at hstart
      rw [hstart]
      rfl
    | operand e =>
      rw [hs] at hstart
      obtain ⟨u, hu, hloc⟩ := hstart
      rw [hloc]
      exact ih hu

/-- The first location of a node is that of its tree. -/
theorem firstLoc_of_unfold (h : c.unfold id = .ok tree) : c.store.firstLoc id = .ok tree.firstLoc :=
  firstLocWithin_of_unfoldWithin h

/-! ## Visitors -/

/-- A visitor that never fails at a node that exists never fails below a node that has a tree. -/
theorem visitWithin_of_unfoldWithin {σ : Type} {v : Visitor σ}
    (henter : ∀ id node state, c.store.node id = .ok node → ∃ r, v.enter c.store id state = .ok r)
    (h : c.unfoldWithin fuel id = .ok tree) (state : σ) :
    ∃ r, c.store.visitWithin v fuel id state = .ok r := by
  induction fuel generalizing id tree state with
  | zero => exact absurd h unfoldWithin_zero_ne
  | succ fuel ih =>
    obtain ⟨node, ids, hnode, hids, -, hbelow⟩ := unfoldWithin_succ_iff.1 h
    obtain ⟨⟨next, goOn⟩, hr⟩ := henter id node state hnode
    rw [NodeStore.visitWithin, hr]
    cases goOn with
    | false => exact ⟨next, rfl⟩
    | true =>
      -- the visit of each child succeeds from whatever state the ones before it leave
      have hchildren : ∀ b ∈ ids, ∀ state, ∃ r, c.store.visitWithin v fuel b state = .ok r := by
        intro b hb state
        obtain ⟨u, -, hu⟩ := Checked.exists_of_forall₂ hbelow b hb
        exact ih hu state
      obtain ⟨r, hfold⟩ := Checked.exists_foldlM hchildren next
      refine ⟨r, ?_⟩
      show (do
        let ids ← c.store.children id
        ids.foldlM (fun state child => c.store.visitWithin v fuel child state) next) = .ok r
      rw [hids]
      exact hfold

/-- What a visitor keeps at every node, a visit of all nodes below a root keeps. -/
theorem invariant_of_visitWithin {σ : Type} {v : Visitor σ} {P : σ → Prop}
    (henter : ∀ id state next, P state → v.enter c.store id state = .ok next → P next.1)
    {state r : σ} (hstate : P state) (h : c.store.visitWithin v fuel id state = .ok r) : P r := by
  induction fuel generalizing id state r with
  | zero => cases h
  | succ fuel ih =>
    obtain ⟨⟨next, goOn⟩, hnext, h⟩ := Checked.bind_eq_ok_iff.1 h
    have hP : P next := henter id state _ hstate hnext
    cases goOn with
    | false =>
      cases h
      exact hP
    | true =>
      obtain ⟨ids, -, h⟩ := Checked.bind_eq_ok_iff.1 h
      exact Checked.invariant_of_foldlM (fun child _ _ _ hb hb' => ih hb hb') hP h

/-- The recording walk meets nodes that exist. -/
theorem exists_node_of_walk {stops : List NodeKind} {met : List (StmtId × NodeKind)}
    (h : c.store.walk stops id = .ok met) : ∀ e ∈ met, ∃ node, c.store.node e.1 = .ok node := by
  obtain ⟨r, hr, h⟩ := Checked.bind_eq_ok_iff.1 h
  obtain rfl := Checked.pure_eq_ok_iff.1 h
  refine invariant_of_visitWithin
    (P := fun met => ∀ e ∈ met.toList, ∃ node, c.store.node e.1 = .ok node)
    ?_ (by simp) hr
  intro id met next hmet hnext e he
  obtain ⟨node, hnode, hnext⟩ := Checked.bind_eq_ok_iff.1 hnext
  obtain rfl := Checked.pure_eq_ok_iff.1 hnext
  rw [Array.toList_push] at he
  rcases List.mem_append.1 he with hold | hnew
  · exact hmet e hold
  · obtain rfl := List.mem_singleton.1 hnew
    exact ⟨node, hnode⟩

/-- The recording walk does not fail below a node that has a tree. -/
theorem walk_of_unfold (h : c.unfold id = .ok tree) (stops : List NodeKind) :
    ∃ r, c.store.walk stops id = .ok r := by
  have henter : ∀ id node met, c.store.node id = .ok node →
      ∃ r, (Visitor.recording stops).enter c.store id met = .ok r := by
    intro id node met hnode
    exact Checked.exists_return ⟨node, hnode⟩
  have hvisit : ∃ r, c.store.visit (.recording stops) id #[] = .ok r :=
    visitWithin_of_unfoldWithin henter h #[]
  exact Checked.exists_return hvisit

/-- Nor does the one that records nothing. -/
theorem visitAll_of_unfold (h : c.unfold id = .ok tree) : c.store.visitAll id = .ok () := by
  obtain ⟨r, hr⟩ := visitWithin_of_unfoldWithin (v := .passing) (fun _ _ _ _ => ⟨_, rfl⟩) h ()
  exact hr

end Arena

end SyntaxArena
