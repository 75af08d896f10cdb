import SyntaxArena.Proofs.Allocation
import SyntaxArena.Proofs.Persistence

/-!
# Requests and the shapes of what they build

Two requests, perhaps in different arenas and through different generations, build nodes of the same
shape exactly if they ask for the same: the same operator, types with one spelling, and operands
that are as many and have the same shapes one by one. The idea is that a tree is known from its
label and its children. What a request names goes into one of them, and what it does not name is the
same for all requests of a kind.

- `Request.Ready`: everything that a request refers to can be resolved.
- `Request.Alike`: two requests ask for the same.
- `Request.eq_iff_alike`: exactly then they grow into equal trees.
- `Request.Ready.unfold_built`: what a request builds has the tree that it grows into, then and
  later.
- `Arena.requests_compare`: comparing what was built decides whether the requests are alike.
-/

namespace SyntaxArena

/-! ## What requests refer to -/

namespace Request

/-- The operands in source order. -/
def operands : Request → List StmtId
  | .unary _ operand _ => [operand.toStmt]
  | .binary _ lhs rhs _ => [lhs.toStmt, rhs.toStmt]
  | .ifStmt cond thenBranch => [cond.toStmt, thenBranch]
  | .whileStmt cond body => [cond.toStmt, body]
  | .returnStmt value => value.toList.map ExprId.toStmt
  | .compound stmts => stmts
  | .call callee args _ => (callee :: args).map ExprId.toStmt

/-- The type of the result. -/
def type? : Request → Option QualType
  | .unary _ _ type => some type
  | .binary _ _ _ type => some type
  | .call _ _ type => some type
  | .ifStmt .. | .whileStmt .. | .returnStmt .. | .compound .. => none

/-- No cycle lies below the operands and the type, and everything below them exists. -/
structure Ready (c : Arena) (r : Request) : Prop where
  operands : ∀ id ∈ r.operands, c.Resolvable id
  type : ∀ t ∈ r.type?, c.types.Resolvable t.id

theorem children_blueprint (r : Request) : r.blueprint.children = r.operands := by
  cases r <;> rfl

/-- What a request does not name needs nothing. -/
theorem Ready.spellable {c : Arena} {r : Request} (h : r.Ready c) : c.Spellable r.blueprint where
  info i hi := by
    have htype := h.type
    cases r <;> cases hi <;> exact htype _ rfl
  declName d hd := by cases r <;> cases hd
  declType d hd := by cases r <;> cases hd

end Request

/-! ## Requests that ask for the same -/

/-- The two nodes have the same shape. -/
def Comparison.SameShape (k : Comparison) (a b : StmtId) : Prop := k.same a b = .ok true

/-- The two types are spelt alike. -/
def Comparison.SameSpelling (k : Comparison) (t u : QualType) : Prop :=
  k.lhs.types.spelling t = k.rhs.types.spelling u

instance (k : Comparison) (a b : StmtId) : Decidable (k.SameShape a b) :=
  inferInstanceAs (Decidable (_ = _))

instance (k : Comparison) (t u : QualType) : Decidable (k.SameSpelling t u) :=
  inferInstanceAs (Decidable (_ = _))

/-- Two requests ask for the same, the first in the left arena and the second in the right one. -/
def Request.Alike (k : Comparison) : Request → Request → Prop
  | .unary op operand type, .unary op' operand' type' =>
    op = op' ∧ k.SameSpelling type type' ∧ k.SameShape operand.toStmt operand'.toStmt
  | .binary op lhs rhs type, .binary op' lhs' rhs' type' =>
    op = op' ∧ k.SameSpelling type type' ∧ k.SameShape lhs.toStmt lhs'.toStmt ∧
      k.SameShape rhs.toStmt rhs'.toStmt
  | .ifStmt cond thenBranch, .ifStmt cond' thenBranch' =>
    k.SameShape cond.toStmt cond'.toStmt ∧ k.SameShape thenBranch thenBranch'
  | .whileStmt cond body, .whileStmt cond' body' =>
    k.SameShape cond.toStmt cond'.toStmt ∧ k.SameShape body body'
  | .returnStmt value, .returnStmt value' =>
    Option.Rel (fun a b => k.SameShape a.toStmt b.toStmt) value value'
  | .compound stmts, .compound stmts' => List.Forall₂ k.SameShape stmts stmts'
  | .call callee args type, .call callee' args' type' =>
    k.SameSpelling type type' ∧ k.SameShape callee.toStmt callee'.toStmt ∧
      List.Forall₂ (fun a b => k.SameShape a.toStmt b.toStmt) args args'
  | _, _ => False

/-! ## Trees of requests -/

theorem SyntaxTree.eq_iff {t u : SyntaxTree} :
    t = u ↔ t.label = u.label ∧ t.children = u.children := by
  constructor
  · rintro rfl
    exact ⟨rfl, rfl⟩
  · exact fun ⟨hlabel, hchildren⟩ => ext_children hlabel hchildren

namespace Comparison

variable {k : Comparison}

/-- Lists of nodes have equal trees if they are equally long and have the same shapes one by one. -/
theorem trees_eq_iff {l r : List StmtId} {ts us : List SyntaxTree}
    (hl : List.Forall₂ (fun id t => k.lhs.unfold id = .ok t) l ts)
    (hr : List.Forall₂ (fun id u => k.rhs.unfold id = .ok u) r us) :
    ts = us ↔ List.Forall₂ k.SameShape l r := by
  induction hl generalizing r us with
  | nil => cases hr <;> simp
  | cons ht _ ih =>
    cases hr with
    | nil => simp
    | cons hu hr =>
      rw [List.cons_eq_cons, List.forall₂_cons, ih hr, SameShape, (same_decides ht hu).iff]

theorem prvalue_eq_iff {t u : QualType} {i j : SpeltInfo}
    (hi : k.lhs.spellInfo (.prvalue t) = .ok i)
    (hj : k.rhs.spellInfo (.prvalue u) = .ok j) : i = j ↔ k.SameSpelling t u := by
  obtain ⟨text, htext, rfl⟩ := Checked.return_eq_ok_iff.1 hi
  obtain ⟨text', htext', rfl⟩ := Checked.return_eq_ok_iff.1 hj
  rw [SameSpelling, show k.lhs.types.spelling t = .ok text from htext,
    show k.rhs.types.spelling u = .ok text' from htext']
  simp [ExprInfo.prvalue]

end Comparison

namespace Request

variable {k : Comparison} {r r' : Request} {t u : SyntaxTree}

theorem Alike.kind_eq (h : r.Alike k r') : r.blueprint.kind = r'.blueprint.kind := by
  cases r <;> cases r' <;> first | rfl | exact h.elim

/-- Exactly the requests that are alike grow into equal trees. -/
theorem eq_iff_alike (ht : k.lhs.grow k.lhs.unfold r.blueprint = .ok t)
    (hu : k.rhs.grow k.rhs.unfold r'.blueprint = .ok u) : t = u ↔ r.Alike k r' := by
  obtain ⟨hlabel, hbelow⟩ := Arena.grow_eq_ok_iff.1 ht
  obtain ⟨hlabel', hbelow'⟩ := Arena.grow_eq_ok_iff.1 hu
  rw [children_blueprint] at hbelow hbelow'
  rw [SyntaxTree.eq_iff, Comparison.trees_eq_iff hbelow hbelow']
  by_cases hkind : r.blueprint.kind = r'.blueprint.kind
  case neg =>
    refine iff_of_false (fun h => ?_) fun h => hkind h.kind_eq
    rw [← Arena.kind_label hlabel, ← Arena.kind_label hlabel'] at hkind
    exact hkind (congrArg Label.kind h.1)
  -- from here on both are of one kind, and their labels differ only in what they name
  cases r with
  | unary op operand type =>
    cases r' with
    | unary op' operand' type' =>
      obtain ⟨i, hi, hl⟩ := Checked.return_eq_ok_iff.1 hlabel
      obtain ⟨j, hj, hl'⟩ := Checked.return_eq_ok_iff.1 hlabel'
      rw [← hl, ← hl', Label.unary.injEq, Comparison.prvalue_eq_iff hi hj]
      simp [operands, Alike, and_assoc]
    | _ => cases hkind
  | binary op lhs rhs type =>
    cases r' with
    | binary op' lhs' rhs' type' =>
      obtain ⟨i, hi, hl⟩ := Checked.return_eq_ok_iff.1 hlabel
      obtain ⟨j, hj, hl'⟩ := Checked.return_eq_ok_iff.1 hlabel'
      rw [← hl, ← hl', Label.binary.injEq, Comparison.prvalue_eq_iff hi hj]
      simp [operands, Alike, and_assoc]
    | _ => cases hkind
  | ifStmt cond thenBranch =>
    cases r' with
    | ifStmt cond' thenBranch' =>
      rw [← Except.ok.inj hlabel, ← Except.ok.inj hlabel']
      simp [operands, Alike]
    | _ => cases hkind
  | whileStmt cond body =>
    cases r' with
    | whileStmt cond' body' =>
      rw [← Except.ok.inj hlabel, ← Except.ok.inj hlabel']
      simp [operands, Alike]
    | _ => cases hkind
  | returnStmt value =>
    cases r' with
    | returnStmt value' =>
      rw [← Except.ok.inj hlabel, ← Except.ok.inj hlabel']
      cases value <;> cases value' <;> simp [operands, Alike]
    | _ => cases hkind
  | compound stmts =>
    cases r' with
    | compound stmts' =>
      rw [← Except.ok.inj hlabel, ← Except.ok.inj hlabel']
      simp [operands, Alike]
    | _ => cases hkind
  | call callee args type =>
    cases r' with
    | call callee' args' type' =>
      obtain ⟨i, hi, hl⟩ := Checked.return_eq_ok_iff.1 hlabel
      obtain ⟨j, hj, hl'⟩ := Checked.return_eq_ok_iff.1 hlabel'
      rw [← hl, ← hl', Label.call.injEq, Comparison.prvalue_eq_iff hi hj]
      simp [operands, Alike]
    | _ => cases hkind

end Request

/-! ## What requests build -/

theorem Arena.Extends.grow {c d : Arena} {b : Blueprint} {t : SyntaxTree} (h : c.Extends d)
    (ht : c.grow c.unfold b = .ok t) : d.grow d.unfold b = .ok t := by
  obtain ⟨hlabel, hbelow⟩ := Arena.grow_eq_ok_iff.1 ht
  exact Arena.grow_eq_ok_iff.2 ⟨h.label hlabel, hbelow.imp fun _ _ => h.unfold⟩

namespace Request

variable {c d C D : Arena} {g h : Option Generation} {r r' : Request}

/-- Exactly the requests that are ready grow into a tree. -/
theorem ready_iff : r.Ready c ↔ ∃ t, c.grow c.unfold r.blueprint = .ok t := by
  constructor
  · intro hr
    obtain ⟨l, hlabel⟩ := Arena.exists_label_iff.2 hr.spellable
    refine Arena.exists_grow hlabel fun id hid => Arena.exists_unfold_iff.2 (hr.operands id ?_)
    rwa [← children_blueprint]
  · rintro ⟨t, ht⟩
    obtain ⟨hlabel, hbelow⟩ := Arena.grow_eq_ok_iff.1 ht
    rw [children_blueprint] at hbelow
    have hinfo := (Arena.exists_label_iff.1 ⟨_, hlabel⟩).info
    refine ⟨fun id hid => ?_, ?_⟩
    · exact Arena.exists_unfold_iff.1 (Checked.exists_forall₂_iff.1 ⟨_, hbelow⟩ id hid)
    intro type htype
    cases r <;> cases htype <;> exact hinfo _ rfl

/-- What a request has built has the tree that it grows into, for as long as the arena is not reset.
The request grows into the same tree later on. -/
theorem Ready.unfold_built [Build] (hr : r.Ready c) (hC : (c.step (.build g r)).state.Extends C) :
    ∃ t, c.grow c.unfold r.blueprint = .ok t ∧ C.grow C.unfold r.blueprint = .ok t ∧
      C.unfold ⟨c.store.size⟩ = .ok t := by
  obtain ⟨t, ht⟩ := ready_iff.1 hr
  have hgrown : c.Extends (c.step (.build g r)).state := c.extends_apply nofun
  have hbuilt : (c.step (.build g r)).state.unfold ⟨c.store.size⟩ = .ok t := by
    have hnew := hgrown.grow ht
    rw [Arena.step_build] at hnew ⊢
    rw [← c.store.build_snd r.blueprint]
    exact Arena.unfold_build hnew
  exact ⟨t, ht, (hgrown.trans hC).grow ht, hC.unfold hbuilt⟩

/-- Comparing what two requests have built decides whether they are alike, which does not depend on
when the operands are compared. -/
theorem Ready.decides [Build] (hr : r.Ready c) (hr' : r'.Ready d)
    (hC : (c.step (.build g r)).state.Extends C) (hD : (d.step (.build h r')).state.Extends D) :
    Decides (Comparison.same ⟨C, D⟩ ⟨c.store.size⟩ ⟨d.store.size⟩) (r.Alike ⟨c, d⟩ r') ∧
      (r.Alike ⟨C, D⟩ r' ↔ r.Alike ⟨c, d⟩ r') := by
  obtain ⟨t, ht, htC, hbuilt⟩ := hr.unfold_built hC
  obtain ⟨u, hu, huD, hbuilt'⟩ := hr'.unfold_built hD
  have halike : t = u ↔ r.Alike ⟨c, d⟩ r' := eq_iff_alike ht hu
  have halike' : t = u ↔ r.Alike ⟨C, D⟩ r' := eq_iff_alike htC huD
  exact ⟨(Comparison.same_decides hbuilt hbuilt').congr halike, halike'.symm.trans halike⟩

end Request

namespace Arena

/-- The next handle has not been given out before. -/
theorem next_not_mem_allocated [Build] {c : Arena} {ops : List Operation}
    (hops : .edit .reset ∉ ops) : (⟨(c.after ops).store.size⟩ : StmtId) ∉ c.allocated ops :=
  fun h => Nat.lt_irrefl _ (index_lt_of_mem_allocated hops h)

/-- **What is built on request compares as the requests do.**

* In any two arenas and through any generations, if everything that two requests refer to can be
  resolved: comparing the nodes that they build decides whether they ask for the same, in these
  arenas and in whatever they grow into without a reset.
* In one arena, with anything but resets before, between and after them, the same holds, and whether
  it can be resolved or not, each request gets a handle that has not been given out since the last
  reset. -/
theorem requests_compare [Build] :
    (∀ (c d : Arena) (g h : Option Generation) (r r' : Request), r.Ready c → r'.Ready d →
      ∃ a b, (c.step (.build g r)).handle? = some a ∧ (d.step (.build h r')).handle? = some b ∧
        ∀ more others, .edit .reset ∉ more → .edit .reset ∉ others →
          Decides
            (Comparison.same
              ⟨(c.step (.build g r)).state.after more, (d.step (.build h r')).state.after others⟩
              a b)
            (r.Alike ⟨c, d⟩ r')) ∧
    ∀ (c : Arena) (before mid : List Operation) (g h : Option Generation) (r r' : Request),
      .edit .reset ∉ before → .edit .reset ∉ mid →
        let x := c.after before
        let y := (x.step (.build g r)).state.after mid
        ∃ a b, (x.step (.build g r)).handle? = some a ∧ (y.step (.build h r')).handle? = some b ∧
          a ≠ b ∧ a ∉ c.allocated before ∧ b ∉ c.allocated (before ++ .build g r :: mid) ∧
          (r.Ready x → r'.Ready y → ∀ more, .edit .reset ∉ more →
            let z := (y.step (.build h r')).state.after more
            Decides (Comparison.same ⟨z, z⟩ a b) (r.Alike ⟨z, z⟩ r')) := by
  constructor
  · intro c d g h r r' hr hr'
    refine ⟨_, _, c.handle?_build g r, d.handle?_build h r', fun more others hmore hothers => ?_⟩
    exact (hr.decides hr' (extends_after _ hmore) (extends_after _ hothers)).1
  · intro c before mid g h r r' hbefore hmid x y
    have hall : .edit .reset ∉ before ++ .build g r :: mid := by simp [hbefore, hmid]
    have hy : y = c.after (before ++ .build g r :: mid) := by rw [after_append, after_cons]
    have hfresh : (⟨y.store.size⟩ : StmtId) ∉ c.allocated (before ++ .build g r :: mid) := by
      rw [hy]
      exact next_not_mem_allocated hall
    refine ⟨_, _, x.handle?_build g r, y.handle?_build h r', ?_, next_not_mem_allocated hbefore,
      hfresh, ?_⟩
    · -- the first handle is one of those that have been given out when the second request is made
      intro heq
      have hfirst : (⟨x.store.size⟩ : StmtId) ∈ x.allocated (.build g r :: mid) := by
        simp [allocated_cons, handle?_build]
      have hlt := index_lt_of_mem_allocated (by simp [hmid]) hfirst
      exact Nat.ne_of_lt hlt (congrArg StmtId.index heq)
    · intro hr hr' more hmore z
      have hxy : (x.step (.build g r)).state.Extends y := extends_after _ hmid
      have hyz : y.Extends (y.step (.build h r')).state := y.extends_apply nofun
      have hz : (y.step (.build h r')).state.Extends z := extends_after _ hmore
      obtain ⟨hdecides, halike⟩ := hr.decides hr' ((hxy.trans hyz).trans hz) hz
      exact hdecides.congr halike.symm

/-- Two literals. -/
def literals : Arena :=
  initial.after
    [.edit (.node (.construct (.integerLiteral 1 (.builtin .int) .invalid))),
      .edit (.node (.construct (.integerLiteral 2 (.builtin .int) .invalid)))]

/-- The same literals behind another node. -/
def shiftedLiterals : Arena :=
  initial.after
    [.edit (.node (.construct (.nullStmt .invalid))),
      .edit (.node (.construct (.integerLiteral 1 (.builtin .int) .invalid))),
      .edit (.node (.construct (.integerLiteral 2 (.builtin .int) .invalid)))]

/-- A difference of the literals, asked for in both arenas, and a negation, asked for twice in one
of them. -/
theorem literals_compare :
    (∃ a b,
      (literals.step (.build (some .gen4) (.binary .sub ⟨0⟩ ⟨1⟩ (.builtin .int)))).handle?
        = some a ∧
      (shiftedLiterals.step (.build none (.binary .sub ⟨1⟩ ⟨2⟩ (.builtin .int)))).handle? = some b ∧
      Comparison.same
        ⟨(literals.step (.build (some .gen4) (.binary .sub ⟨0⟩ ⟨1⟩ (.builtin .int)))).state,
          (shiftedLiterals.step (.build none (.binary .sub ⟨1⟩ ⟨2⟩ (.builtin .int)))).state⟩ a b
        = .ok true) ∧
    let y := (literals.step (.build none (.unary .minus ⟨0⟩ (.builtin .int)))).state.after
      [.edit (.intern "q")]
    let z := (y.step (.build (some .gen7) (.unary .minus ⟨0⟩ (.builtin .int)))).state
    ∃ a b, a ≠ b ∧ Comparison.same ⟨z, z⟩ a b = .ok true := by
  obtain ⟨htwo, hone⟩ := requests_compare
  constructor
  · have hr : Request.Ready literals (.binary .sub ⟨0⟩ ⟨1⟩ (.builtin .int)) :=
      Request.ready_iff.2 ⟨_, rfl⟩
    have hr' : Request.Ready shiftedLiterals (.binary .sub ⟨1⟩ ⟨2⟩ (.builtin .int)) :=
      Request.ready_iff.2 ⟨_, rfl⟩
    obtain ⟨a, b, ha, hb, hsame⟩ := htwo _ _ (some .gen4) none _ _ hr hr'
    refine ⟨a, b, ha, hb, (hsame [] [] List.not_mem_nil List.not_mem_nil).of_true ?_⟩
    exact ⟨rfl, by decide +kernel, by decide +kernel, by decide +kernel⟩
  · intro y z
    obtain ⟨a, b, -, -, hne, -, -, hsame⟩ :=
      hone literals [] [.edit (.intern "q")] none (some .gen7) (.unary .minus ⟨0⟩ (.builtin .int))
        (.unary .minus ⟨0⟩ (.builtin .int)) (by simp) (by simp)
    have hdecides :=
      hsame (Request.ready_iff.2 ⟨_, rfl⟩) (Request.ready_iff.2 ⟨_, rfl⟩) [] List.not_mem_nil
    exact ⟨a, b, hne, hdecides.of_true ⟨rfl, by decide +kernel, by decide +kernel⟩⟩

end Arena

end SyntaxArena
