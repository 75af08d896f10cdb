import SyntaxArena.Operation
import SyntaxArena.Proofs.Comparison
import SyntaxArena.Proofs.NodeTree
import SyntaxArena.Proofs.Observers

/-!
# Nodes of one shape look alike

Comparing, writing an outline, walking and looking for the first location are four recursions of
their own. What each of them makes of a node it makes of the tree of the node, so nodes whose trees
are equal cannot be told apart by any of them.

- `SyntaxTree.kinds`: the kinds that a walk meets, read off the tree.
- `Arena.kindNames_of_unfold`: the names that a walk records are those of the tree.
- `Root.observed_alike`: two nodes of one shape look alike, in whatever arenas they stand.
-/

namespace SyntaxArena

/-- The kinds of the nodes that a walk meets, which does not go on below those at which it stops. -/
def SyntaxTree.kinds (stops : List NodeKind) (t : SyntaxTree) : List NodeKind :=
  t.label.kind ::
    if t.label.kind ∈ stops then [] else (t.children.attach.map fun ⟨u, _⟩ => u.kinds stops).flatten
termination_by sizeOf t
decreasing_by exact sizeOf_lt_of_mem_children ‹_›

theorem SyntaxTree.kinds_eq (stops : List NodeKind) (t : SyntaxTree) :
    t.kinds stops =
      t.label.kind :: if t.label.kind ∈ stops then [] else t.children.flatMap (kinds stops) := by
  have hbelow :
      t.children.attach.map (fun ⟨u, _⟩ => u.kinds stops) = t.children.map (kinds stops) :=
    List.attach_map_val
  rw [kinds, hbelow, List.flatMap]

/-- The names of the kinds that a walk records. -/
def NodeStore.kindNames (s : NodeStore) (stops : List NodeKind) (root : StmtId) :
    Except Fault (List String) := do
  return (← s.walk stops root).map (·.2.name)

namespace Arena

variable {c : Arena} {fuel : Nat} {id : StmtId} {t : NodeTree} {u : SyntaxTree}

/-- The tree of the nodes and the tree of what they stand for have the same kinds, also when
pruned. -/
theorem kinds_of_trees (stops : List NodeKind) (ht : c.store.treeWithin fuel id = .ok t)
    (hu : c.unfoldWithin fuel id = .ok u) :
    (t.prune stops).entries.map Prod.snd = u.kinds stops := by
  induction fuel generalizing id t u with
  | zero => exact absurd hu unfoldWithin_zero_ne
  | succ fuel ih =>
    obtain ⟨rfl, hnode, ids, hids, hbelow⟩ := NodeStore.treeWithin_succ_iff.1 ht
    obtain ⟨node, ids', hnode', hids', hlabel, hbelow'⟩ := unfoldWithin_succ_iff.1 hu
    obtain rfl := Except.ok.inj (hnode.symm.trans hnode')
    obtain rfl := Except.ok.inj (hids.symm.trans hids')
    have hchildren : List.Forall₂ (fun t u => (t.prune stops).entries.map Prod.snd = u.kinds stops)
        t.children u.children :=
      Checked.forall₂_of_common hbelow hbelow' fun _ _ _ => ih
    rw [NodeTree.entries_prune, SyntaxTree.kinds_eq, kind_label hlabel, List.map_cons]
    by_cases hstop : t.node.kind ∈ stops
    · rw [if_pos hstop, if_pos hstop, List.map_nil]
    · rw [if_neg hstop, if_neg hstop, List.map_flatMap]
      exact congrArg (_ :: ·) (Checked.flatMap_eq_of_forall₂ hchildren)

/-- The names that a walk records are those of the tree. -/
theorem kindNames_of_unfold (stops : List NodeKind) (h : c.unfold id = .ok u) :
    c.store.kindNames stops id = .ok ((u.kinds stops).map NodeKind.name) := by
  obtain ⟨t, ht⟩ := exists_tree_iff.2 (exists_unfold_iff.1 ⟨u, h⟩).walkable
  rw [NodeStore.kindNames, NodeStore.walk_of_tree stops ht, ← kinds_of_trees stops ht h,
    List.map_map]
  rfl

end Arena

namespace Root

/-- **Nodes of one shape look alike.** Take resolvable nodes of any two arenas that have the same
shape, whatever their names are. They have the same outline, the names recorded by walks are the
same wherever these stop, and they begin at the same location. -/
theorem observed_alike (x y : Root) (h : x.SameShape y) :
    Common (x.arena.outline x.id) (y.arena.outline y.id) ∧
      (∀ stops, Common (x.arena.store.kindNames stops x.id) (y.arena.store.kindNames stops y.id)) ∧
      Common (x.arena.store.firstLoc x.id) (y.arena.store.firstLoc y.id) := by
  have htree : x.tree = y.tree := (Comparison.same_decides x.unfold_eq y.unfold_eq).iff.1 h
  have hy : y.arena.unfold y.id = .ok x.tree := htree ▸ y.unfold_eq
  refine ⟨⟨_, Arena.outline_of_unfold x.unfold_eq, Arena.outline_of_unfold hy⟩, fun stops => ?_, ?_⟩
  · exact ⟨_, Arena.kindNames_of_unfold stops x.unfold_eq, Arena.kindNames_of_unfold stops hy⟩
  · exact ⟨_, Arena.firstLoc_of_unfold x.unfold_eq, Arena.firstLoc_of_unfold hy⟩

/-- The sum of one reference with itself. The name has a line break. -/
def doubled : Root where
  arena :=
    Arena.initial.after
      [.edit (.intern "a\nb"), .edit (.type (.pointer (.builtin .int))),
        .edit (.node (.construct (.declRef ⟨⟨1⟩, { id := ⟨8⟩ }, .invalid⟩ .lvalue ⟨some 3⟩))),
        .edit (.node (.request (some .gen4) (.binary .add ⟨0⟩ ⟨0⟩ (.builtin .int))))]
  id := ⟨1⟩
  resolvable := Arena.exists_unfold_iff.1 ⟨_, rfl⟩

/-- The sum of two references, in an arena that has other names and types besides. -/
def paired : Root where
  arena :=
    Arena.initial.after
      [.edit (.type (.pointer (.builtin .char))), .edit (.type (.pointer (.builtin .int))),
        .edit (.intern "a"), .edit (.intern "a\nb"),
        .edit (.node (.construct (.declRef ⟨⟨2⟩, { id := ⟨9⟩ }, .invalid⟩ .lvalue ⟨some 3⟩))),
        .edit (.node (.construct (.nullStmt .invalid))),
        .edit (.node (.construct (.declRef ⟨⟨2⟩, { id := ⟨9⟩ }, .invalid⟩ .lvalue ⟨some 3⟩))),
        .edit (.node (.request (some .gen8) (.binary .add ⟨0⟩ ⟨2⟩ (.builtin .int))))]
  id := ⟨3⟩
  resolvable := Arena.exists_unfold_iff.1 ⟨_, rfl⟩

theorem doubled_observed_alike :
    doubled.SameShape paired ∧
      Common (doubled.arena.outline doubled.id) (paired.arena.outline paired.id) ∧
      Common (doubled.arena.store.kindNames [.declRef] doubled.id)
        (paired.arena.store.kindNames [.declRef] paired.id) ∧
      Common (doubled.arena.store.firstLoc doubled.id) (paired.arena.store.firstLoc paired.id) := by
  have hshape : doubled.SameShape paired := by
    unfold SameShape
    decide +kernel
  obtain ⟨houtline, hnames, hloc⟩ := observed_alike doubled paired hshape
  exact ⟨hshape, houtline, hnames [.declRef], hloc⟩

end Root

end SyntaxArena
