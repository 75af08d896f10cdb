import SyntaxArena.Arena.Shape
import SyntaxArena.Proofs.Unfolding

/-!
# Comparison decides equality of trees

- `Decides`: a computation has an answer, and the answer tells whether a proposition holds.
- `Comparison.sameNode_decides`: comparing two nodes decides whether their labels are equal.
- `Comparison.sameWithin_decides`: comparing all below two nodes decides whether their trees are
  equal.
- `Root`: a resolvable node of some arena, and `Root.tree` its tree.
- `Root.same_decides_tree_eq`: across any number of arenas, having the same shape is having equal
  trees.
-/

namespace SyntaxArena

/-! ## Checks -/

/-- The computation has an answer, which tells whether `p` holds. -/
def Decides (x : Except Fault Bool) (p : Prop) : Prop := ∃ r, x = .ok r ∧ (r = true ↔ p)

namespace Decides

variable {x : Except Fault Bool} {p q : Prop}

theorem ok (p : Prop) [Decidable p] : Decides (.ok (decide p)) p := ⟨_, rfl, decide_eq_true_iff⟩

theorem congr (h : Decides x p) (hpq : p ↔ q) : Decides x q := by
  obtain ⟨r, hr, hp⟩ := h
  exact ⟨r, hr, hp.trans hpq⟩

theorem iff (h : Decides x p) : x = .ok true ↔ p := by
  obtain ⟨r, rfl, hr⟩ := h
  simpa using hr

theorem of_true (h : Decides x p) (hp : p) : x = .ok true := h.iff.2 hp

/-- Two lookups that find something decide whether they find the same. -/
theorem agree {α : Type} [DecidableEq α] {x y : Except Fault α} {a b : α} (hx : x = .ok a)
    (hy : y = .ok b) : Decides (agree x y) (a = b) := by
  rw [hx, hy]
  exact .ok (a = b)

theorem allOf_nil : Decides (allOf []) True := ⟨true, rfl, by simp⟩

/-- One check more. When it is not passed, the others do not matter. -/
theorem allM_cons {α : Type} {f : α → Except Fault Bool} {a : α} {l : List α} (ha : Decides (f a) p)
    (hl : Decides (l.allM f) q) : Decides ((a :: l).allM f) (p ∧ q) := by
  obtain ⟨r, hr, hp⟩ := ha
  cases r with
  | true =>
    rw [List.allM, hr]
    exact hl.congr ⟨fun h => ⟨hp.1 rfl, h⟩, And.right⟩
  | false =>
    rw [List.allM, hr]
    exact ⟨false, rfl, by simp [← hp]⟩

theorem allOf_cons {checks : List (Except Fault Bool)} (hx : Decides x p)
    (hchecks : Decides (allOf checks) q) : Decides (allOf (x :: checks)) (p ∧ q) :=
  allM_cons hx hchecks

end Decides

namespace Comparison

variable {c : Comparison}

/-! ## Everything but the children -/

theorem sameInfo_decides {x y : ExprInfo} {i j : SpeltInfo} (hx : c.lhs.spellInfo x = .ok i)
    (hy : c.rhs.spellInfo y = .ok j) : Decides (c.sameInfo x y) (i = j) := by
  simp only [Arena.spellInfo, Checked.bind_eq_ok_iff, Checked.pure_eq_ok_iff] at hx hy
  obtain ⟨t, ht, rfl⟩ := hx
  obtain ⟨u, hu, rfl⟩ := hy
  refine ((Decides.agree ht hu).allOf_cons ((Decides.ok _).allOf_cons
    ((Decides.ok _).allOf_cons .allOf_nil))).congr ?_
  simp

theorem sameDecl_decides {x y : VarDecl} {d e : SpeltDecl} (hx : c.lhs.spellDecl x = .ok d)
    (hy : c.rhs.spellDecl y = .ok e) : Decides (c.sameDecl x y) (d = e) := by
  simp only [Arena.spellDecl, Checked.bind_eq_ok_iff, Checked.pure_eq_ok_iff] at hx hy
  obtain ⟨m, hm, t, ht, rfl⟩ := hx
  obtain ⟨n, hn, u, hu, rfl⟩ := hy
  refine ((Decides.agree hm hn).allOf_cons ((Decides.agree ht hu).allOf_cons
    ((Decides.ok _).allOf_cons .allOf_nil))).congr ?_
  simp

theorem sameDecl?_decides {x y : Option VarDecl} {d e : Option SpeltDecl}
    (hx : c.lhs.spellDecl? x = .ok d) (hy : c.rhs.spellDecl? y = .ok e) :
    Decides (c.sameDecl? x y) (d = e) := by
  cases x with
  | none =>
    cases hx
    cases y with
    | none =>
      cases hy
      exact ⟨true, rfl, by simp⟩
    | some y =>
      obtain ⟨e, -, rfl⟩ := Checked.return_eq_ok_iff.1 hy
      exact ⟨false, rfl, by simp⟩
  | some x =>
    obtain ⟨d, hd, rfl⟩ := Checked.return_eq_ok_iff.1 hx
    cases y with
    | none =>
      cases hy
      exact ⟨false, rfl, by simp⟩
    | some y =>
      obtain ⟨e, he, rfl⟩ := Checked.return_eq_ok_iff.1 hy
      exact (sameDecl_decides hd he).congr (by simp)

/-- Nodes of different kinds are told apart without a look at anything else. -/
theorem sameNode_of_kind_ne {x y : Node} (h : x.kind ≠ y.kind) : c.sameNode x y = .ok false := by
  cases x <;> cases y <;> first | rfl | exact absurd rfl h

/-- Comparing two nodes but for their children decides whether their labels are equal. -/
theorem sameNode_decides {x y : Node} {l m : Label} (hx : c.lhs.label x = .ok l)
    (hy : c.rhs.label y = .ok m) : Decides (c.sameNode x y) (l = m) := by
  by_cases hkind : x.kind = y.kind
  case neg =>
    refine ⟨false, sameNode_of_kind_ne hkind, ?_⟩
    rw [← Arena.kind_label hx, ← Arena.kind_label hy] at hkind
    simpa using fun h => hkind (congrArg Label.kind h)
  -- from here on both nodes are of one kind, and the checks of that kind decide one field each
  cases x with
  | integerLiteral x =>
    cases y with
    | integerLiteral y =>
      simp only [Arena.label, Checked.bind_eq_ok_iff, Checked.pure_eq_ok_iff] at hx hy
      obtain ⟨i, hi, rfl⟩ := hx
      obtain ⟨j, hj, rfl⟩ := hy
      refine ((Decides.ok _).allOf_cons ((sameInfo_decides hi hj).allOf_cons
        ((Decides.ok _).allOf_cons .allOf_nil))).congr ?_
      simp
    | _ => cases hkind
  | declRef x =>
    cases y with
    | declRef y =>
      simp only [Arena.label, Checked.bind_eq_ok_iff, Checked.pure_eq_ok_iff] at hx hy
      obtain ⟨d, hd, i, hi, rfl⟩ := hx
      obtain ⟨e, he, j, hj, rfl⟩ := hy
      refine ((sameDecl_decides hd he).allOf_cons ((sameInfo_decides hi hj).allOf_cons
        ((Decides.ok _).allOf_cons .allOf_nil))).congr ?_
      simp
    | _ => cases hkind
  | unary x =>
    cases y with
    | unary y =>
      simp only [Arena.label, Checked.bind_eq_ok_iff, Checked.pure_eq_ok_iff] at hx hy
      obtain ⟨i, hi, rfl⟩ := hx
      obtain ⟨j, hj, rfl⟩ := hy
      refine ((Decides.ok _).allOf_cons ((sameInfo_decides hi hj).allOf_cons
        ((Decides.ok _).allOf_cons ((Decides.ok _).allOf_cons .allOf_nil)))).congr ?_
      simp
    | _ => cases hkind
  | binary x =>
    cases y with
    | binary y =>
      simp only [Arena.label, Checked.bind_eq_ok_iff, Checked.pure_eq_ok_iff] at hx hy
      obtain ⟨i, hi, rfl⟩ := hx
      obtain ⟨j, hj, rfl⟩ := hy
      refine ((Decides.ok _).allOf_cons ((sameInfo_decides hi hj).allOf_cons
        ((Decides.ok _).allOf_cons ((Decides.ok _).allOf_cons .allOf_nil)))).congr ?_
      simp
    | _ => cases hkind
  | call x =>
    cases y with
    | call y =>
      simp only [Arena.label, Checked.bind_eq_ok_iff, Checked.pure_eq_ok_iff] at hx hy
      obtain ⟨i, hi, rfl⟩ := hx
      obtain ⟨j, hj, rfl⟩ := hy
      refine ((sameInfo_decides hi hj).allOf_cons ((Decides.ok _).allOf_cons .allOf_nil)).congr ?_
      simp
    | _ => cases hkind
  | ifStmt x =>
    cases y with
    | ifStmt y =>
      simp only [Arena.label, Checked.bind_eq_ok_iff, Checked.pure_eq_ok_iff] at hx hy
      obtain ⟨d, hd, rfl⟩ := hx
      obtain ⟨e, he, rfl⟩ := hy
      refine ((Decides.ok _).allOf_cons ((Decides.ok _).allOf_cons ((Decides.ok _).allOf_cons
        ((sameDecl?_decides hd he).allOf_cons ((Decides.ok _).allOf_cons
          ((Decides.ok _).allOf_cons .allOf_nil)))))).congr ?_
      simp
    | _ => cases hkind
  | whileStmt x =>
    cases y with
    | whileStmt y =>
      simp only [Arena.label, Checked.bind_eq_ok_iff, Checked.pure_eq_ok_iff] at hx hy
      obtain ⟨d, hd, rfl⟩ := hx
      obtain ⟨e, he, rfl⟩ := hy
      refine ((sameDecl?_decides hd he).allOf_cons ((Decides.ok _).allOf_cons .allOf_nil)).congr ?_
      simp
    | _ => cases hkind
  | returnStmt x =>
    cases y with
    | returnStmt y =>
      simp only [Arena.label, Checked.bind_eq_ok_iff, Checked.pure_eq_ok_iff] at hx hy
      obtain ⟨d, hd, rfl⟩ := hx
      obtain ⟨e, he, rfl⟩ := hy
      refine ((Decides.ok _).allOf_cons ((Decides.ok _).allOf_cons
        ((sameDecl?_decides hd he).allOf_cons .allOf_nil))).congr ?_
      simp
    | _ => cases hkind
  | compound x =>
    cases y with
    | compound y =>
      cases hx
      cases hy
      refine ((Decides.ok _).allOf_cons ((Decides.ok _).allOf_cons .allOf_nil)).congr ?_
      simp
    | _ => cases hkind
  | nullStmt x =>
    cases y with
    | nullStmt y =>
      cases hx
      cases hy
      refine (Decides.ok _).congr ?_
      simp
    | _ => cases hkind

/-! ## Nodes and all below them -/

/-- Where comparing a pair from two lists decides whether their trees are equal, comparing the lists
in pairs decides whether the lists of trees are. -/
theorem zip_decides {f : StmtId × StmtId → Except Fault Bool} {R S : StmtId → SyntaxTree → Prop}
    (hf : ∀ p t u, R p.1 t → S p.2 u → Decides (f p) (t = u)) {l r : List StmtId}
    {ts us : List SyntaxTree} (hl : List.Forall₂ R l ts) (hr : List.Forall₂ S r us)
    (hlen : l.length = r.length) : Decides ((l.zip r).allM f) (ts = us) := by
  induction hl generalizing r us with
  | nil =>
    obtain rfl := List.length_eq_zero_iff.1 hlen.symm
    cases hr
    exact ⟨true, rfl, by simp⟩
  | cons hat _ ih =>
    cases hr with
    | nil => cases hlen
    | cons hbu hr =>
      have hrest := ih hr (Nat.succ.inj hlen)
      exact ((hf (_, _) _ _ hat hbu).allM_cons hrest).congr List.cons_eq_cons.symm

/-- Comparing nodes decides whether their trees are equal. -/
theorem sameWithin_decides {fuel : Nat} {a b : StmtId} {t u : SyntaxTree}
    (ha : c.lhs.unfoldWithin fuel a = .ok t) (hb : c.rhs.unfoldWithin fuel b = .ok u) :
    Decides (c.sameWithin fuel a b) (t = u) := by
  induction fuel generalizing a b t u with
  | zero => exact absurd ha Arena.unfoldWithin_zero_ne
  | succ fuel ih =>
    obtain ⟨x, left, hx, hleft, hlx, hbelow⟩ := Arena.unfoldWithin_succ_iff.1 ha
    obtain ⟨y, right, hy, hright, hly, hbelow'⟩ := Arena.unfoldWithin_succ_iff.1 hb
    obtain ⟨r, hr, hlabel⟩ := sameNode_decides hlx hly
    rw [sameWithin, hx, hy]
    simp only [bind, Except.bind, hr]
    cases r with
    | false =>
      -- the roots tell the trees apart, and the children are not looked at
      have hne : t ≠ u := fun htu => by simpa using hlabel.2 (congrArg SyntaxTree.label htu)
      exact ⟨false, rfl, by simpa using hne⟩
    | true =>
      simp only [hleft, hright, if_true]
      by_cases hlen : left.length = right.length
      case neg =>
        -- lists of different lengths would be compared in pairs only as far as the shorter one goes
        have hne : t ≠ u := by
          rintro rfl
          exact hlen (hbelow.length_eq.trans hbelow'.length_eq.symm)
        rw [if_neg hlen]
        exact ⟨false, rfl, by simpa using hne⟩
      rw [if_pos hlen]
      have hroot : t.label = u.label := hlabel.1 rfl
      have hpair : ∀ (p : StmtId × StmtId) (t u : SyntaxTree), c.lhs.unfoldWithin fuel p.1 = .ok t →
          c.rhs.unfoldWithin fuel p.2 = .ok u → Decides (c.sameWithin fuel p.1 p.2) (t = u) :=
        fun _ _ _ h h' => ih h h'
      refine (zip_decides hpair hbelow hbelow' hlen).congr ⟨?_, ?_⟩
      · exact SyntaxTree.ext_children hroot
      · exact congrArg SyntaxTree.children

/-- Comparing two nodes that have trees decides whether the trees are equal. The depth allowed for a
pair of nodes is no less than that for each of them. -/
theorem same_decides {a b : StmtId} {t u : SyntaxTree} (ha : c.lhs.unfold a = .ok t)
    (hb : c.rhs.unfold b = .ok u) : Decides (c.same a b) (t = u) := by
  refine sameWithin_decides (Arena.unfoldWithin_mono ?_ ha) (Arena.unfoldWithin_mono ?_ hb)
  · exact Nat.le_mul_of_pos_right _ (Nat.succ_pos _)
  · exact Nat.le_mul_of_pos_left _ (Nat.succ_pos _)

end Comparison

/-! ## Across any number of arenas -/

/-- A resolvable node of an arena. -/
structure Root where
  arena : Arena
  id : StmtId
  resolvable : arena.Resolvable id

namespace Root

/-- The tree of the node. -/
def tree (x : Root) : SyntaxTree :=
  match h : x.arena.unfold x.id with
  | .ok tree => tree
  | .error _ => by
    have := Arena.exists_unfold_iff.2 x.resolvable
    simp [h] at this

theorem unfold_eq (x : Root) : x.arena.unfold x.id = .ok x.tree := by
  obtain ⟨t, ht⟩ := Arena.exists_unfold_iff.2 x.resolvable
  unfold tree
  split
  · assumption
  · rename_i h
    rw [ht] at h
    cases h

/-- The two nodes have the same shape. -/
def SameShape (x y : Root) : Prop := Comparison.same ⟨x.arena, y.arena⟩ x.id y.id = .ok true

/-- **Comparison decides equality of trees.** Whatever arenas two resolvable nodes come from: both
unfold, the comparison has an answer, and the answer is yes exactly if the trees are equal. So
having the same shape is an equivalence across any number of arenas. -/
theorem same_decides_tree_eq :
    (∀ x y : Root,
      x.arena.unfold x.id = .ok x.tree ∧ y.arena.unfold y.id = .ok y.tree ∧
        Decides (Comparison.same ⟨x.arena, y.arena⟩ x.id y.id) (x.tree = y.tree)) ∧
      Equivalence SameShape := by
  have hdecides (x y : Root) :
      Decides (Comparison.same ⟨x.arena, y.arena⟩ x.id y.id) (x.tree = y.tree) :=
    Comparison.same_decides x.unfold_eq y.unfold_eq
  have hiff (x y : Root) : x.SameShape y ↔ x.tree = y.tree := (hdecides x y).iff
  refine ⟨fun x y => ⟨x.unfold_eq, y.unfold_eq, hdecides x y⟩, ?_⟩
  constructor
  · exact fun x => (hiff x x).2 rfl
  · exact fun h => (hiff _ _).2 ((hiff _ _).1 h).symm
  · exact fun h h' => (hiff _ _).2 (((hiff _ _).1 h).trans ((hiff _ _).1 h'))

end Root

end SyntaxArena
