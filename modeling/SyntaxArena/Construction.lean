import SyntaxArena.Node.Basic

/-!
# Construction

Every way of building a node from its parts. The older way builds a node in a place that the caller
has, the newer one through a factory that takes all parts up front; the argument lists differ, the
node does not.

- `Construction`: one constructor for each way, with its own arguments.
- `Construction.args`, `Construction.body`: the list that is among the arguments.
- `Construction.blueprint`: the node it stands for. What the arguments leave out has its default.
-/

namespace SyntaxArena

/-- A node to be built, as one of the ways of building nodes asks for it. -/
inductive Construction where
  | integerLiteral (value : UInt64) (type : QualType) (loc : Location)
  /-- An ordinary reference, which has the declared type. -/
  | declRef (decl : VarDecl) (valueKind : ValueKind) (loc : Location)
  | nullStmt (semiLoc : Location)
  | unary (operand : ExprId) (op : UnaryOp) (info : ExprInfo) (opLoc : Location)
  | unaryWithOverflow (operand : ExprId) (op : UnaryOp) (info : ExprInfo) (opLoc : Location)
      (canOverflow : Bool)
  | binaryContractable (lhs rhs : ExprId) (op : BinaryOp) (info : ExprInfo) (opLoc : Location)
      (contractable : Bool)
  | binaryOptions (lhs rhs : ExprId) (op : BinaryOp) (info : ExprInfo) (opLoc : Location)
      (fpOptions : FpOptions)
  /-- An `if` whose else branch has no place among the arguments. -/
  | ifPlacement (ifLoc : Location) (isConstexpr : Bool) (init : Option StmtId)
      (condVar : Option VarDecl) (cond : ExprId) (thenBranch : StmtId)
  | ifFactory (ifLoc : Location) (isConstexpr : Bool) (init : Option StmtId)
      (condVar : Option VarDecl) (cond : ExprId) (thenBranch : StmtId) (elseLoc : Location)
      (elseBranch : Option StmtId)
  | whilePlacement (condVar : Option VarDecl) (cond : ExprId) (body : StmtId) (whileLoc : Location)
  | whileFactory (condVar : Option VarDecl) (cond : ExprId) (body : StmtId) (whileLoc : Location)
  | returnPlacement (returnLoc : Location) (value : Option ExprId) (nrvoCandidate : Option VarDecl)
  | returnFactory (returnLoc : Location) (value : Option ExprId) (nrvoCandidate : Option VarDecl)
  | compoundPlacement (stmts : List StmtId) (lbraceLoc rbraceLoc : Location)
  | compoundFactory (stmts : List StmtId) (lbraceLoc rbraceLoc : Location)
  /-- A call is always of the ordinary object kind. -/
  | callPlacement (callee : ExprId) (args : List ExprId) (type : QualType) (valueKind : ValueKind)
      (rparenLoc : Location)
  | callFactory (callee : ExprId) (args : List ExprId) (type : QualType) (valueKind : ValueKind)
      (rparenLoc : Location)

namespace Construction

/-- The list of expressions among the arguments. -/
def args : Construction → List ExprId
  | .callPlacement _ args .. | .callFactory _ args .. => args
  | _ => []

/-- The list of statements among the arguments. -/
def body : Construction → List StmtId
  | .compoundPlacement stmts .. | .compoundFactory stmts .. => stmts
  | _ => []

/-- The node that a construction stands for. -/
def blueprint : Construction → Blueprint
  | .integerLiteral value type loc => .integerLiteral { value, info := .prvalue type, loc }
  | .declRef decl valueKind loc => .declRef { decl, info := { type := decl.type, valueKind }, loc }
  | .nullStmt semiLoc => .nullStmt { semiLoc }
  | .unary operand op info opLoc => .unary { op, operand, info, opLoc, canOverflow := false }
  | .unaryWithOverflow operand op info opLoc canOverflow =>
    .unary { op, operand, info, opLoc, canOverflow }
  | .binaryContractable lhs rhs op info opLoc contractable =>
    .binary { op, lhs, rhs, info, opLoc, fpOptions := .ofContractable contractable }
  | .binaryOptions lhs rhs op info opLoc fpOptions =>
    .binary { op, lhs, rhs, info, opLoc, fpOptions }
  | .ifPlacement ifLoc isConstexpr init condVar cond thenBranch =>
    .ifStmt
      { ifLoc, isConstexpr, init, condVar, cond, thenBranch, elseLoc := .invalid,
        elseBranch := none }
  | .ifFactory ifLoc isConstexpr init condVar cond thenBranch elseLoc elseBranch =>
    .ifStmt { ifLoc, isConstexpr, init, condVar, cond, thenBranch, elseLoc, elseBranch }
  | .whilePlacement condVar cond body whileLoc
  | .whileFactory condVar cond body whileLoc => .whileStmt { condVar, cond, body, whileLoc }
  | .returnPlacement returnLoc value nrvoCandidate
  | .returnFactory returnLoc value nrvoCandidate => .returnStmt { returnLoc, value, nrvoCandidate }
  | .compoundPlacement body lbraceLoc rbraceLoc
  | .compoundFactory body lbraceLoc rbraceLoc => .compound { body, lbraceLoc, rbraceLoc }
  | .callPlacement callee args type valueKind rparenLoc
  | .callFactory callee args type valueKind rparenLoc =>
    .call { callee, args, info := { type, valueKind }, rparenLoc }

@[simp] theorem args_blueprint (c : Construction) : c.blueprint.args = c.args := by
  cases c <;> rfl

@[simp] theorem body_blueprint (c : Construction) : c.blueprint.body = c.body := by
  cases c <;> rfl

end Construction

end SyntaxArena
