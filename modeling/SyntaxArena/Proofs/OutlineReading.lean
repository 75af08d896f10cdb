import SyntaxArena.Operation
import SyntaxArena.Proofs.Comparison
import SyntaxArena.Proofs.LineReading
import SyntaxArena.Proofs.Observers

/-!
# Reading an outline

An outline shows a tree: the indentation tells how the nodes hang together, and every line what is
shown of its node. So outlines of nodes of any two arenas are equal exactly if the same is shown of
their trees.

- `SyntaxTree.shown`: the part of a tree that is shown, a tree again.
- `SyntaxTree.entries`: the nodes of a tree in the order of the lines, each with its depth.
- `SyntaxTree.shown_eq_of_rows`: depths and labels, in order, tell the tree.
- `SyntaxTree.outline_eq_iff`: two trees have the same outline exactly if the same is shown of them.
- `Root.outline_eq_iff_shown_eq`: so do two resolvable nodes of any two arenas.
-/

namespace SyntaxArena

open Relation

namespace SyntaxTree

/-! ## What is shown of a tree -/

mutual

/-- The tree as far as its outline shows it: of a declaration the name is left, and the location of
`else` only where there is one. -/
def shown : SyntaxTree → SyntaxTree
  | .integerLiteral value info loc => .integerLiteral value info loc
  | .declRef decl info loc => .declRef decl.shown info loc
  | .unary op operand info opLoc canOverflow => .unary op operand.shown info opLoc canOverflow
  | .binary op lhs rhs info opLoc fpOptions => .binary op lhs.shown rhs.shown info opLoc fpOptions
  | .call callee args info rparenLoc => .call callee.shown (shownList args) info rparenLoc
  | .ifStmt ifLoc isConstexpr init condVar cond thenBranch elseLoc elseBranch =>
    .ifStmt ifLoc isConstexpr (shownOption init) (condVar.map SpeltDecl.shown) cond.shown
      thenBranch.shown (if elseBranch.isSome then elseLoc else .invalid) (shownOption elseBranch)
  | .whileStmt condVar cond body whileLoc =>
    .whileStmt (condVar.map SpeltDecl.shown) cond.shown body.shown whileLoc
  | .returnStmt returnLoc value nrvoCandidate =>
    .returnStmt returnLoc (shownOption value) (nrvoCandidate.map SpeltDecl.shown)
  | .compound body lbraceLoc rbraceLoc => .compound (shownList body) lbraceLoc rbraceLoc
  | .nullStmt semiLoc => .nullStmt semiLoc

/-- Several trees as far as outlines show them. -/
def shownList : List SyntaxTree → List SyntaxTree
  | [] => []
  | t :: ts => t.shown :: shownList ts

/-- A tree that may be absent, as far as outlines show it. -/
def shownOption : Option SyntaxTree → Option SyntaxTree
  | some t => some t.shown
  | none => none

end

theorem shownList_eq_map (ts : List SyntaxTree) : shownList ts = ts.map shown := by
  induction ts with
  | nil => rfl
  | cons t ts ih => rw [shownList, ih, List.map_cons]

theorem shownOption_eq_map (o : Option SyntaxTree) : shownOption o = o.map shown := by
  cases o <;> rfl

/-- The children keep their places and their roles. -/
theorem children_shown (t : SyntaxTree) : t.shown.children = t.children.map shown := by
  cases t <;> simp [shown, children, shownList_eq_map, shownOption_eq_map]
  case ifStmt => simp [Option.toList_map]
  case returnStmt => simp [Option.toList_map]

end SyntaxTree

/-- The label with the note whether something is returned taken from the number of children. -/
def Label.withChildren (count : Nat) : Label → Label
  | .returnStmt returnLoc _ nrvoCandidate => .returnStmt returnLoc (count != 0) nrvoCandidate
  | l => l

theorem Label.line_withChildren (l : Label) (count : Nat) :
    (l.withChildren count).line = l.line := by
  cases l <;> rfl

namespace SyntaxTree

theorem label_shown (t : SyntaxTree) :
    t.shown.label = t.label.shown.withChildren t.children.length := by
  cases t with
  | ifStmt => simp [shown, label, Label.shown, Label.withChildren, shownOption_eq_map]
  | returnStmt returnLoc value nrvoCandidate => cases value <;> rfl
  | _ => rfl

/-- What is shown of the root and of the children is what is shown of the tree. -/
theorem shown_ext {t u : SyntaxTree} (hlabel : t.label.shown = u.label.shown)
    (hchildren : t.children.map shown = u.children.map shown) : t.shown = u.shown := by
  have hlength : t.children.length = u.children.length := by
    simpa using congrArg List.length hchildren
  -- the label does not tell whether something is returned, but the number of children does
  refine ext_children ?_ ?_
  · rw [label_shown, label_shown, hlabel, hlength]
  · rw [children_shown, children_shown, hchildren]

theorem line_label_shown (t : SyntaxTree) : t.shown.label.line = t.label.line := by
  rw [label_shown, Label.line_withChildren, Label.line_shown]

/-! ## The order of the lines -/

/-- Induction on what is below. -/
@[elab_as_elim]
theorem children_induction {P : SyntaxTree → Prop} (h : ∀ t, (∀ u ∈ t.children, P u) → P t)
    (t : SyntaxTree) : P t :=
  h t fun u _ => children_induction h u
termination_by sizeOf t
decreasing_by exact sizeOf_lt_of_mem_children ‹_›

/-- The nodes with their depths, every node in front of those below it. -/
def entries (depth : Nat) (t : SyntaxTree) : List (Nat × Label) :=
  (depth, t.label) :: (t.children.attach.map fun ⟨u, _⟩ => u.entries (depth + 1)).flatten
termination_by sizeOf t
decreasing_by exact sizeOf_lt_of_mem_children ‹_›

theorem entries_eq (depth : Nat) (t : SyntaxTree) :
    t.entries depth = (depth, t.label) :: t.children.flatMap (entries (depth + 1)) := by
  rw [entries, List.flatMap]
  exact congrArg (fun below => _ :: List.flatten below) List.attach_map_val

/-- The line of an entry. -/
def entryLine (e : Nat × Label) : String := Arena.indentation e.1 ++ e.2.line

theorem lines_eq_map_entries (depth : Nat) (t : SyntaxTree) :
    t.lines depth = (t.entries depth).map entryLine := by
  induction t using children_induction generalizing depth with
  | h t ih =>
    rw [lines_eq, entries_eq, List.map_cons, List.map_flatMap, ← List.flatMap_def]
    exact congrArg (_ :: ·) (List.flatMap_congr fun u hu => ih u hu (depth + 1))

/-- Outlines have no more to go by than what is shown. -/
theorem lines_shown (depth : Nat) (t : SyntaxTree) : t.shown.lines depth = t.lines depth := by
  induction t using children_induction generalizing depth with
  | h t ih =>
    rw [lines_eq, lines_eq, line_label_shown, children_shown, List.map_map]
    exact congrArg (fun below => _ :: List.flatten below)
      (List.map_congr_left fun u hu => ih u hu (depth + 1))

/-! ## From the depths to the tree -/

/-- The depths, and what is shown at each. -/
def rows (depth : Nat) (t : SyntaxTree) : List (Nat × Label) :=
  (t.entries depth).map fun e => (e.1, e.2.shown)

theorem rows_eq (depth : Nat) (t : SyntaxTree) :
    t.rows depth = (depth, t.label.shown) :: t.children.flatMap (rows (depth + 1)) := by
  rw [rows, entries_eq, List.map_cons, List.map_flatMap]
  rfl

/-- The depth of the first row, if there is one. -/
def FirstWithin (depth : Nat) (rows : List (Nat × Label)) : Prop := ∀ e ∈ rows.head?, e.1 ≤ depth

theorem firstWithin_flatMap_rows {depth : Nat} {s : List (Nat × Label)} (hs : FirstWithin depth s)
    (ts : List SyntaxTree) : FirstWithin (depth + 1) (ts.flatMap (rows (depth + 1)) ++ s) := by
  cases ts with
  | nil => exact fun e he => Nat.le_succ_of_le (hs e he)
  | cons t ts => simp [FirstWithin, rows_eq]

/-- A node and all below it end at the first row that is not deeper than the node. -/
def Ends (t : SyntaxTree) : Prop :=
  ∀ depth u s s', FirstWithin depth s → FirstWithin depth s' →
    t.rows depth ++ s = rows depth u ++ s' → t.shown = u.shown ∧ s = s'

/-- So do the children of a node, one after the other. -/
theorem map_shown_eq_of_rows {ts us : List SyntaxTree} (hts : ∀ t ∈ ts, t.Ends) {depth : Nat}
    {s s' : List (Nat × Label)} (hs : FirstWithin depth s) (hs' : FirstWithin depth s')
    (h : ts.flatMap (rows (depth + 1)) ++ s = us.flatMap (rows (depth + 1)) ++ s') :
    ts.map shown = us.map shown ∧ s = s' := by
  -- where the children end, no row as deep as theirs is left
  have hdeeper {u : SyntaxTree} {us : List SyntaxTree} {s s' : List (Nat × Label)}

      (hs : FirstWithin depth s) (h : s = (u :: us).flatMap (rows (depth + 1)) ++ s') : False := by
    have := hs (depth + 1, u.label.shown) (by simp [h, rows_eq])
    omega
  induction ts generalizing us with
  | nil =>
    cases us with
    | nil => exact ⟨rfl, h⟩
    | cons u us => exact (hdeeper hs h).elim
  | cons t ts ih =>
    cases us with
    | nil => exact (hdeeper hs' h.symm).elim
    | cons u us =>
      simp only [List.flatMap_cons, List.append_assoc] at h
      obtain ⟨htu, hrest⟩ := hts t List.mem_cons_self (depth + 1) u _ _
        (firstWithin_flatMap_rows hs ts) (firstWithin_flatMap_rows hs' us) h
      obtain ⟨htsus, hss⟩ := ih (fun t ht => hts t (List.mem_cons_of_mem _ ht)) hrest
      rw [List.map_cons, List.map_cons, htu, htsus]
      exact ⟨rfl, hss⟩

theorem ends (t : SyntaxTree) : t.Ends := by
  induction t using children_induction with
  | h t ih =>
    intro depth u s s' hs hs' h
    rw [rows_eq, rows_eq] at h
    obtain ⟨hroot, hbelow⟩ := List.cons.inj h
    obtain ⟨hchildren, hss⟩ := map_shown_eq_of_rows ih hs hs' hbelow
    exact ⟨shown_ext (congrArg Prod.snd hroot) hchildren, hss⟩

/-- Depths and labels, in order, tell the tree. -/
theorem shown_eq_of_rows {t u : SyntaxTree} (h : t.rows 0 = u.rows 0) : t.shown = u.shown := by
  have hnil : FirstWithin 0 [] := by simp [FirstWithin]
  exact (t.ends 0 u [] [] hnil hnil (by rw [h])).1

/-! ## From the lines to the depths -/

/-- Every label of the tree is clear. -/
def Clear (t : SyntaxTree) : Prop := ∀ e ∈ t.entries 0, e.2.Clear

theorem row_eq_of_entryLine {d e : Nat × Label} (hd : d.2.Clear) (he : e.2.Clear)
    (h : entryLine d = entryLine e) : (d.1, d.2.shown) = (e.1, e.2.shown) := by
  have hspace {n : Nat} : ∀ c ∈ List.replicate (2 * n) ' ', ¬c ≠ ' ' := by simp
  have h := congrArg String.toList h
  simp only [entryLine, Arena.indentation, String.toList_append, String.toList_ofList] at h
  obtain ⟨hdepth, hline⟩ := Splitting.eq_of_first hspace hspace d.2.head_line e.2.head_line h
  have hdepth : 2 * d.1 = 2 * e.1 := by simpa using congrArg List.length hdepth
  rw [Label.shown_eq_of_line hd he (String.toList_inj.1 hline),
    Nat.eq_of_mul_eq_mul_left Nat.two_pos hdepth]

theorem not_mem_entryLine {e : Nat × Label} (he : e.2.Clear) : '\n' ∉ (entryLine e).toList := by
  simp [entryLine, Arena.indentation, Label.not_mem_line he]

/-- Two trees have the same outline exactly if the same is shown of them. -/
theorem outline_eq_iff {t u : SyntaxTree} (ht : t.Clear) (hu : u.Clear) :
    t.outline = u.outline ↔ t.shown = u.shown := by
  constructor
  · intro h
    -- the text is the lines, each with a line break behind it, and there is none in a line
    have hlines {t : SyntaxTree} : t.outline.toList =
        ((t.entries 0).map fun e => (entryLine e).toList).flatMap (· ++ ['\n']) := by
      simp [outline, lines_eq_map_entries, List.flatMap_map]
    have hended : (t.entries 0).map (fun e => (entryLine e).toList) =
        (u.entries 0).map fun e => (entryLine e).toList := by
      refine Splitting.eq_of_ended (a := '\n') ?_ ?_
        (hlines.symm.trans ((congrArg String.toList h).trans hlines))
      · exact List.forall_mem_map.2 fun e he => not_mem_entryLine (ht e he)
      · exact List.forall_mem_map.2 fun e he => not_mem_entryLine (hu e he)
    refine shown_eq_of_rows (Splitting.map_eq_of_map_eq (fun d hd e he hde => ?_) hended)
    exact row_eq_of_entryLine (ht d hd) (hu e he) (String.toList_inj.1 hde)
  · intro h
    rw [outline, outline, ← lines_shown, h, lines_shown]

end SyntaxTree

/-! ## Outlines of nodes -/

namespace Arena

variable {Args Body : Type} {c : Arena}

/-- No name that is mentioned at a node or below it has a line break. -/
def NamesOnOneLine (c : Arena) (id : StmtId) : Prop :=
  ∀ x, ReflTransGen c.Child id x → ∀ node, c.store.node x = .ok node →
    ∀ d ∈ node.decl?, ∀ name, c.names.text d.name = .ok name → '\n' ∉ name.toList

theorem namesOnOneLine_of_keys {id : StmtId}
    (h : ∀ name ∈ c.names.keys.toList, '\n' ∉ name.toList) :
    c.NamesOnOneLine id := fun _ _ _ _ _ _ name hname => by
  refine h name (Array.mem_toList_iff.2 ?_)
  exact Array.mem_of_getElem? (lookup_eq_ok_iff.1 hname)

theorem spellDecl_of_spellDecl? {o : Option VarDecl} {e : Option SpeltDecl}
    (h : c.spellDecl? o = .ok e) : ∀ x ∈ e, ∃ d ∈ o, c.spellDecl d = .ok x := by
  cases o with
  | none =>
    cases h
    nofun
  | some d =>
    obtain ⟨x, hx, rfl⟩ := Checked.return_eq_ok_iff.1 h
    rintro x ⟨⟩
    exact ⟨d, rfl, hx⟩

/-- What a label mentions is what the node mentions, spelt out. -/
theorem mentions_of_label {n : NodeForm Args Body} {l : Label} (h : c.label n = .ok l) :
    (∀ i ∈ l.info?, ∃ info ∈ n.info?, c.spellInfo info = .ok i) ∧
      ∀ e ∈ l.decl?, ∃ d ∈ n.decl?, c.spellDecl d = .ok e := by
  cases n <;> simp only [label, Checked.bind_eq_ok_iff, Checked.pure_eq_ok_iff] at h
  all_goals
    grind [Label.info?, Label.decl?, NodeForm.info?, NodeForm.decl?, spellDecl_of_spellDecl?]

theorem isTypeChar_of_spelling {type : QualType} {text : String}
    (h : c.types.spelling type = .ok text) : ∀ a ∈ text.toList, isTypeChar a := by
  obtain ⟨tree, htree⟩ := TypeTable.exists_tree_iff.2 (TypeTable.exists_spelling_iff.1 ⟨text, h⟩)
  obtain rfl := Except.ok.inj (h.symm.trans (TypeTable.spelling_of_tree htree))
  exact tree.isTypeChar_text

theorem clear_of_label {n : NodeForm Args Body} {l : Label} (h : c.label n = .ok l)
    (hnames : ∀ d ∈ n.decl?, ∀ name, c.names.text d.name = .ok name → '\n' ∉ name.toList) :
    l.Clear := by
  obtain ⟨hinfo, hdecl⟩ := mentions_of_label h
  constructor
  · intro i hi
    obtain ⟨info, -, h⟩ := hinfo i hi
    obtain ⟨type, htype, rfl⟩ := Checked.return_eq_ok_iff.1 h
    exact isTypeChar_of_spelling htype
  · intro e he
    obtain ⟨d, hd, h⟩ := hdecl e he
    obtain ⟨name, hname, h⟩ := Checked.bind_eq_ok_iff.1 h
    obtain ⟨type, -, rfl⟩ := Checked.return_eq_ok_iff.1 h
    exact hnames d hd name hname

theorem clear_of_unfold {id : StmtId} {t : SyntaxTree} (h : c.unfold id = .ok t)
    (hnames : c.NamesOnOneLine id) (depth : Nat) : ∀ e ∈ t.entries depth, e.2.Clear := by
  induction t using SyntaxTree.children_induction generalizing id depth with
  | h t ih =>
    obtain ⟨node, ids, hnode, hids, hlabel, hbelow⟩ := unfold_iff.1 h
    rw [SyntaxTree.entries_eq]
    refine List.forall_mem_cons.2 ⟨clear_of_label hlabel (hnames id .refl node hnode), ?_⟩
    intro e he
    obtain ⟨u, hu, he⟩ := List.mem_flatMap.1 he
    obtain ⟨child, hchild, hunfold⟩ := Checked.exists_of_forall₂ hbelow.flip u hu
    exact ih u hu hunfold (fun x hx => hnames x (.head ⟨ids, hids, hchild⟩ hx)) (depth + 1) e he

end Arena

/-- **Outlines show trees.** Take resolvable nodes of any two arenas, below which no name has a line
break: both have outlines, and these are equal exactly if the same is shown of their trees. What is
shown is a tree again, with every child in its role, so it can be recovered from the outline. -/
theorem Root.outline_eq_iff_shown_eq (x y : Root) (hx : x.arena.NamesOnOneLine x.id)
    (hy : y.arena.NamesOnOneLine y.id) :
    x.arena.unfold x.id = .ok x.tree ∧ y.arena.unfold y.id = .ok y.tree ∧
      x.arena.outline x.id = .ok x.tree.outline ∧ y.arena.outline y.id = .ok y.tree.outline ∧
      (x.tree.outline = y.tree.outline ↔ x.tree.shown = y.tree.shown) := by
  have hclear {x : Root} (hx : x.arena.NamesOnOneLine x.id) : x.tree.Clear :=
    Arena.clear_of_unfold x.unfold_eq hx 0
  exact ⟨x.unfold_eq, y.unfold_eq, Arena.outline_of_unfold x.unfold_eq,
    Arena.outline_of_unfold y.unfold_eq, SyntaxTree.outline_eq_iff (hclear hx) (hclear hy)⟩

/-- An `if` without `else` that declares an `int`, whose name goes on like a line with `else`
would. -/
def Root.oneArmed : Root where
  arena :=
    Arena.initial.after
      [.edit (.intern "v' has_else"),
        .edit (.node (.construct (.integerLiteral 1 (.builtin .int) .invalid))),
        .edit (.node (.construct (.nullStmt .invalid))),
        .edit (.node (.construct
          (.ifPlacement .invalid false none (some ⟨⟨1⟩, .builtin .int, .invalid⟩) ⟨0⟩ ⟨1⟩)))]
  id := ⟨2⟩
  resolvable := Arena.exists_unfold_iff.1 ⟨_, rfl⟩

/-- The same in another arena, but that it declares a `char`. -/
def Root.oneArmedChar : Root where
  arena :=
    Arena.initial.after
      [.edit (.node (.construct (.nullStmt .invalid))), .edit (.intern "v"),
        .edit (.intern "v' has_else"),
        .edit (.node (.construct (.integerLiteral 1 (.builtin .int) .invalid))),
        .edit (.node (.construct
          (.ifPlacement .invalid false none (some ⟨⟨2⟩, .builtin .char, .invalid⟩) ⟨1⟩ ⟨0⟩)))]
  id := ⟨2⟩
  resolvable := Arena.exists_unfold_iff.1 ⟨_, rfl⟩

theorem Root.oneArmed_shown_eq :
    oneArmed.arena.NamesOnOneLine oneArmed.id ∧ oneArmedChar.arena.NamesOnOneLine oneArmedChar.id ∧
      oneArmed.tree.outline = oneArmedChar.tree.outline ∧ oneArmed.tree ≠ oneArmedChar.tree ∧
      oneArmed.tree.shown = oneArmedChar.tree.shown := by
  have hx : oneArmed.arena.NamesOnOneLine oneArmed.id :=
    Arena.namesOnOneLine_of_keys (by decide +kernel)
  have hy : oneArmedChar.arena.NamesOnOneLine oneArmedChar.id :=
    Arena.namesOnOneLine_of_keys (by decide +kernel)
  obtain ⟨htree, htree', houtline, houtline', hiff⟩ :=
    outline_eq_iff_shown_eq oneArmed oneArmedChar hx hy
  have hsame : oneArmed.tree.outline = oneArmedChar.tree.outline := by
    have heq : oneArmed.arena.outline oneArmed.id = oneArmedChar.arena.outline oneArmedChar.id := by
      decide +kernel
    exact Except.ok.inj (houtline.symm.trans (heq.trans houtline'))
  have hne : Comparison.same ⟨oneArmed.arena, oneArmedChar.arena⟩ oneArmed.id oneArmedChar.id
      ≠ .ok true := by
    decide +kernel
  exact ⟨hx, hy, hsame, mt (Comparison.same_decides htree htree').of_true hne, hiff.1 hsame⟩

end SyntaxArena
