import SyntaxArena.Proofs.References

/-!
# Programs that build

A straight-line program builds names, types and nodes one after the other. What it uses it has built
itself: in its instructions a handle, a name or a type index stands for the result of the step with
that number, so that one program can be run in any arena.

- `Renaming`: where in an arena the results of earlier steps stand, and what it makes of arguments.
- `Instruction`, `Program`: the steps, with operands by number.
- `Program.run`: a program in an arena, with a generation for every step.
- `Program.Scoped`: every operand is the result of an earlier step of the right sort. Builtin types
  are free.
-/

namespace SyntaxArena

/-! ## Renamings -/

/-- The indices that nodes, names and types have in an arena, by the numbers that stand for them. -/
structure Renaming where
  node : Nat → Nat
  name : Nat → Nat
  type : Nat → Nat

namespace Renaming

variable (ρ : Renaming)

def expr (id : ExprId) : ExprId := ⟨ρ.node id.index⟩

def stmt (id : StmtId) : StmtId := ⟨ρ.node id.index⟩

def identifier (n : Identifier) : Identifier := ⟨ρ.name n.index⟩

/-- Qualifiers stay. -/
def qualType (t : QualType) : QualType := { id := ⟨ρ.type t.id.index⟩, quals := t.quals }

def info (i : ExprInfo) : ExprInfo := { i with type := ρ.qualType i.type }

def decl (d : VarDecl) : VarDecl :=
  { name := ρ.identifier d.name, type := ρ.qualType d.type, loc := d.loc }

def kind : TypeKind → TypeKind
  | .builtin b => .builtin b
  | .pointer pointee => .pointer (ρ.qualType pointee)
  | .function ret params => .function (ρ.qualType ret) (params.map ρ.qualType)

def typeEdit : TypeEdit → TypeEdit
  | .pointer pointee => .pointer (ρ.qualType pointee)
  | .function ret params => .function (ρ.qualType ret) (params.map ρ.qualType)

def blueprint : Blueprint → Blueprint
  | .integerLiteral n => .integerLiteral { n with info := ρ.info n.info }
  | .declRef n => .declRef { n with decl := ρ.decl n.decl, info := ρ.info n.info }
  | .unary n => .unary { n with operand := ρ.expr n.operand, info := ρ.info n.info }
  | .binary n => .binary { n with lhs := ρ.expr n.lhs, rhs := ρ.expr n.rhs, info := ρ.info n.info }
  | .call n =>
    .call { n with callee := ρ.expr n.callee, args := n.args.map ρ.expr, info := ρ.info n.info }
  | .ifStmt n =>
    .ifStmt
      { n with
        init := n.init.map ρ.stmt, condVar := n.condVar.map ρ.decl, cond := ρ.expr n.cond,
        thenBranch := ρ.stmt n.thenBranch, elseBranch := n.elseBranch.map ρ.stmt }
  | .whileStmt n =>
    .whileStmt
      { n with condVar := n.condVar.map ρ.decl, cond := ρ.expr n.cond, body := ρ.stmt n.body }
  | .returnStmt n =>
    .returnStmt { n with value := n.value.map ρ.expr, nrvoCandidate := n.nrvoCandidate.map ρ.decl }
  | .compound n => .compound { n with body := n.body.map ρ.stmt }
  | .nullStmt n => .nullStmt n

def construction : Construction → Construction
  | .integerLiteral value type loc => .integerLiteral value (ρ.qualType type) loc
  | .declRef decl valueKind loc => .declRef (ρ.decl decl) valueKind loc
  | .nullStmt semiLoc => .nullStmt semiLoc
  | .unary operand op info opLoc => .unary (ρ.expr operand) op (ρ.info info) opLoc
  | .unaryWithOverflow operand op info opLoc canOverflow =>
    .unaryWithOverflow (ρ.expr operand) op (ρ.info info) opLoc canOverflow
  | .binaryContractable lhs rhs op info opLoc contractable =>
    .binaryContractable (ρ.expr lhs) (ρ.expr rhs) op (ρ.info info) opLoc contractable
  | .binaryOptions lhs rhs op info opLoc fpOptions =>
    .binaryOptions (ρ.expr lhs) (ρ.expr rhs) op (ρ.info info) opLoc fpOptions
  | .ifPlacement ifLoc isConstexpr init condVar cond thenBranch =>
    .ifPlacement ifLoc isConstexpr (init.map ρ.stmt) (condVar.map ρ.decl) (ρ.expr cond)
      (ρ.stmt thenBranch)
  | .ifFactory ifLoc isConstexpr init condVar cond thenBranch elseLoc elseBranch =>
    .ifFactory ifLoc isConstexpr (init.map ρ.stmt) (condVar.map ρ.decl) (ρ.expr cond)
      (ρ.stmt thenBranch) elseLoc (elseBranch.map ρ.stmt)
  | .whilePlacement condVar cond body whileLoc =>
    .whilePlacement (condVar.map ρ.decl) (ρ.expr cond) (ρ.stmt body) whileLoc
  | .whileFactory condVar cond body whileLoc =>
    .whileFactory (condVar.map ρ.decl) (ρ.expr cond) (ρ.stmt body) whileLoc
  | .returnPlacement returnLoc value nrvoCandidate =>
    .returnPlacement returnLoc (value.map ρ.expr) (nrvoCandidate.map ρ.decl)
  | .returnFactory returnLoc value nrvoCandidate =>
    .returnFactory returnLoc (value.map ρ.expr) (nrvoCandidate.map ρ.decl)
  | .compoundPlacement stmts lbraceLoc rbraceLoc =>
    .compoundPlacement (stmts.map ρ.stmt) lbraceLoc rbraceLoc
  | .compoundFactory stmts lbraceLoc rbraceLoc =>
    .compoundFactory (stmts.map ρ.stmt) lbraceLoc rbraceLoc
  | .callPlacement callee args type valueKind rparenLoc =>
    .callPlacement (ρ.expr callee) (args.map ρ.expr) (ρ.qualType type) valueKind rparenLoc
  | .callFactory callee args type valueKind rparenLoc =>
    .callFactory (ρ.expr callee) (args.map ρ.expr) (ρ.qualType type) valueKind rparenLoc

def request : Request → Request
  | .unary op operand type => .unary op (ρ.expr operand) (ρ.qualType type)
  | .binary op lhs rhs type => .binary op (ρ.expr lhs) (ρ.expr rhs) (ρ.qualType type)
  | .ifStmt cond thenBranch => .ifStmt (ρ.expr cond) (ρ.stmt thenBranch)
  | .whileStmt cond body => .whileStmt (ρ.expr cond) (ρ.stmt body)
  | .returnStmt value => .returnStmt (value.map ρ.expr)
  | .compound stmts => .compound (stmts.map ρ.stmt)
  | .call callee args type => .call (ρ.expr callee) (args.map ρ.expr) (ρ.qualType type)

@[simp] theorem blueprint_construction (k : Construction) :
    (ρ.construction k).blueprint = ρ.blueprint k.blueprint := by
  cases k <;> rfl

@[simp] theorem blueprint_request (r : Request) :
    (ρ.request r).blueprint = ρ.blueprint r.blueprint := by
  cases r <;> rfl

end Renaming

/-! ## Programs -/

/-- What a step results in. -/
inductive ResultSort where
  | node | name | type
deriving DecidableEq

/-- A step of a program. A handle or a name with index `k` stands for the result of step `k`, a type
index `TypeId.firstCompound + k` likewise. -/
inductive Instruction where
  | intern (text : String)
  | type (e : TypeEdit)
  | construct (k : Construction)
  | request (r : Request)

namespace Instruction

def sort : Instruction → ResultSort
  | .intern _ => .name
  | .type _ => .type
  | .construct _ | .request _ => .node

/-- The operands. -/
def references : Instruction → List Reference
  | .intern _ => []
  | .type e => e.references
  | .construct k => k.references
  | .request r => r.references

/-- The operation that a step performs, where the operands stand as the renaming says. -/
def operation (g : Option Generation) (ρ : Renaming) : Instruction → Operation
  | .intern text => .edit (.intern text)
  | .type e => .edit (.type (ρ.typeEdit e))
  | .construct k => .edit (.node (.construct (ρ.construction k)))
  | .request r => .edit (.node (.request g (ρ.request r)))

end Instruction

abbrev Program := List Instruction

/-- The renaming by the results of earlier steps. Builtin types have the same indices in every
arena. -/
def Renaming.ofResults (results : List (Except Fault Answer)) : Renaming where
  node k := match results[k]? with
    | some (.ok (.built ref)) => ref.toStmt.index
    | _ => k
  name k := match results[k]? with
    | some (.ok (.name n)) => n.index
    | _ => k
  type k :=
    if k < TypeId.firstCompound then k
    else
      match results[k - TypeId.firstCompound]? with
      | some (.ok (.type t)) => t.id.index
      | _ => k

namespace Renaming

variable {results : List (Except Fault Answer)}

theorem stmt_ofResults {id : StmtId} {ref : NodeRef}
    (h : results[id.index]? = some (.ok (.built ref))) :
    (ofResults results).stmt id = ref.toStmt := by
  simp only [stmt, ofResults, h]

theorem identifier_ofResults {n m : Identifier} (h : results[n.index]? = some (.ok (.name m))) :
    (ofResults results).identifier n = m := by
  simp only [identifier, ofResults, h]

/-- A builtin type stands for itself. -/
theorem qualType_ofResults_builtin {t : QualType} (h : t.id.index < TypeId.firstCompound) :
    (ofResults results).qualType t = t := by
  simp only [qualType, ofResults, if_pos h]

theorem qualType_ofResults {t u : QualType} (hge : TypeId.firstCompound ≤ t.id.index)
    (h : results[t.id.index - TypeId.firstCompound]? = some (.ok (.type u))) :
    (ofResults results).qualType t = { id := u.id, quals := t.quals } := by
  simp only [qualType, ofResults, if_neg (Nat.not_lt.2 hge), h]

end Renaming

namespace Program

/-- Runs a program from an arena, after steps with the given results: the arena at the end, and the
results of all steps. -/
def runFrom [Build] (g : Nat → Option Generation) :
    Arena → List (Except Fault Answer) → Program → Arena × List (Except Fault Answer)
  | c, results, [] => (c, results)
  | c, results, i :: p =>
    let o := c.step (i.operation (g results.length) (.ofResults results))
    runFrom g o.state (results ++ [o.answer]) p

/-- Runs a program, the step with number `k` through the generation `g k`. -/
def run [Build] (g : Nat → Option Generation) (p : Program) (c : Arena) :
    Arena × List (Except Fault Answer) :=
  runFrom g c [] p

end Program

/-- The operand is the result of an earlier step of the right sort, where the earlier steps result
in the given sorts. -/
def Reference.InScope (sorts : List ResultSort) : Reference → Prop
  | .expr id => sorts[id.index]? = some .node
  | .stmt id => sorts[id.index]? = some .node
  | .name n => sorts[n.index]? = some .name
  | .type id =>
    id.index < TypeId.firstCompound ∨
      TypeId.firstCompound ≤ id.index ∧ sorts[id.index - TypeId.firstCompound]? = some .type
  | .exprSegment _ | .stmtSegment _ => False

/-- Every operand of the steps that follow is the result of an earlier step. -/
def Program.ScopedFrom : List ResultSort → Program → Prop
  | _, [] => True
  | sorts, i :: p => (∀ r ∈ i.references, r.InScope sorts) ∧ ScopedFrom (sorts ++ [i.sort]) p

/-- Every operand is the result of an earlier step. -/
def Program.Scoped (p : Program) : Prop := p.ScopedFrom []

instance (sorts : List ResultSort) : DecidablePred (Reference.InScope sorts)
  | .expr _ | .stmt _ | .name _ => inferInstanceAs (Decidable (_ = _))
  | .type _ => inferInstanceAs (Decidable (_ ∨ _ ∧ _))
  | .exprSegment _ | .stmtSegment _ => inferInstanceAs (Decidable False)

instance Program.decidableScopedFrom : (sorts : List ResultSort) → (p : Program) →
    Decidable (p.ScopedFrom sorts)
  | _, [] => inferInstanceAs (Decidable True)
  | sorts, i :: p =>
    have := decidableScopedFrom (sorts ++ [i.sort]) p
    inferInstanceAs
      (Decidable ((∀ r ∈ i.references, r.InScope sorts) ∧ ScopedFrom (sorts ++ [i.sort]) p))

instance (p : Program) : Decidable p.Scoped := inferInstanceAs (Decidable (p.ScopedFrom []))

end SyntaxArena
