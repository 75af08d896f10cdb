import SyntaxArena.ExprInfo
import SyntaxArena.Node.Id
import SyntaxArena.ListPool
import SyntaxArena.Identifier
import SyntaxArena.Operator
import SyntaxArena.Location

/-!
# Nodes

A node refers to its children by handle. Two kinds have any number of children: a call has a list of
arguments and a block a list of statements. How these two lists are held is left open.

- `NodeForm`: a node of one of the ten kinds, over the representation of its lists.
- `Node`: a node as a store keeps it, with segments of list pools.
- `Blueprint`: a node with its lists written out, as it is built and as it reads back.
- `NodeForm.traverse`: from one representation of the lists to another.
- `Blueprint.children`: the children in source order.
-/

namespace SyntaxArena

/-! ## The ten kinds -/

/-- A variable declaration. It is no node of its own but part of the node that mentions it. -/
structure VarDecl where
  name : Identifier
  type : QualType
  loc : Location
deriving DecidableEq

/-- Integer literal. -/
structure IntegerLiteral where
  value : UInt64
  info : ExprInfo
  loc : Location
deriving DecidableEq

/-- Reference to a declared variable. -/
structure DeclRefExpr where
  decl : VarDecl
  info : ExprInfo
  loc : Location
deriving DecidableEq

/-- Application of a unary operator. -/
structure UnaryOperator where
  op : UnaryOp
  operand : ExprId
  info : ExprInfo
  opLoc : Location
  /-- Whether the operation may overflow. -/
  canOverflow : Bool
deriving DecidableEq

/-- Application of a binary operator. -/
structure BinaryOperator where
  op : BinaryOp
  lhs : ExprId
  rhs : ExprId
  info : ExprInfo
  opLoc : Location
  fpOptions : FpOptions
deriving DecidableEq

/-- Function call. -/
structure CallExpr (Args : Type) where
  callee : ExprId
  args : Args
  info : ExprInfo
  rparenLoc : Location
deriving DecidableEq

/-- An `if` statement. -/
structure IfStmt where
  ifLoc : Location
  isConstexpr : Bool
  init : Option StmtId
  condVar : Option VarDecl
  cond : ExprId
  thenBranch : StmtId
  elseLoc : Location
  elseBranch : Option StmtId
deriving DecidableEq

/-- A `while` loop. -/
structure WhileStmt where
  condVar : Option VarDecl
  cond : ExprId
  body : StmtId
  whileLoc : Location
deriving DecidableEq

/-- A `return` statement. -/
structure ReturnStmt where
  returnLoc : Location
  value : Option ExprId
  /-- The variable in whose place the returned value may be constructed. -/
  nrvoCandidate : Option VarDecl
deriving DecidableEq

/-- A block in braces. -/
structure CompoundStmt (Body : Type) where
  body : Body
  lbraceLoc : Location
  rbraceLoc : Location
deriving DecidableEq

/-- The range from brace to brace. -/
def CompoundStmt.sourceRange {Body : Type} (n : CompoundStmt Body) : Span :=
  ⟨n.lbraceLoc, n.rbraceLoc⟩

/-- The empty statement `;`. -/
structure NullStmt where
  semiLoc : Location
deriving DecidableEq

/-! ## Nodes of any kind -/

/-- A node whose argument list is held as `Args` and whose statement list is held as `Body`. -/
inductive NodeForm (Args Body : Type) where
  | integerLiteral (n : IntegerLiteral)
  | declRef (n : DeclRefExpr)
  | unary (n : UnaryOperator)
  | binary (n : BinaryOperator)
  | call (n : CallExpr Args)
  | ifStmt (n : IfStmt)
  | whileStmt (n : WhileStmt)
  | returnStmt (n : ReturnStmt)
  | compound (n : CompoundStmt Body)
  | nullStmt (n : NullStmt)
deriving DecidableEq

/-- A node as a store keeps it: its lists are segments of list pools. -/
abbrev Node := NodeForm (Segment ExprId) (Segment StmtId)

/-- A node with its lists written out. -/
abbrev Blueprint := NodeForm (List ExprId) (List StmtId)

namespace NodeForm

variable {Args Body Args' Body' : Type}

/-- The kind of the node. -/
def kind : NodeForm Args Body → NodeKind
  | .integerLiteral _ => .integerLiteral
  | .declRef _ => .declRef
  | .unary _ => .unary
  | .binary _ => .binary
  | .call _ => .call
  | .ifStmt _ => .ifStmt
  | .whileStmt _ => .whileStmt
  | .returnStmt _ => .returnStmt
  | .compound _ => .compound
  | .nullStmt _ => .nullStmt

/-- Type and categories, `none` for statements. -/
def info? : NodeForm Args Body → Option ExprInfo
  | .integerLiteral n => some n.info
  | .declRef n => some n.info
  | .unary n => some n.info
  | .binary n => some n.info
  | .call n => some n.info
  | .ifStmt _ | .whileStmt _ | .returnStmt _ | .compound _ | .nullStmt _ => none

/-- Whether the node is an expression. -/
def isExpr (n : NodeForm Args Body) : Bool := n.info?.isSome

/-- Whether a node is an expression depends on its kind alone. -/
theorem isExpr_eq_isExpr_kind (n : NodeForm Args Body) : n.isExpr = n.kind.isExpr := by
  cases n <;> rfl

/-- The handle of a node as an allocation returns it: expressions get an expression handle. -/
def ref (n : NodeForm Args Body) (id : StmtId) : NodeRef :=
  if n.isExpr then .expr id.toExpr else .stmt id

@[simp] theorem toStmt_ref (n : NodeForm Args Body) (id : StmtId) : (n.ref id).toStmt = id := by
  unfold ref
  split <;> rfl

/-! ## The lists of a node -/

/-- Changes the representation of the lists. At most one of the two functions is called, and
once. -/
def traverse {m : Type → Type} [Monad m] (args : Args → m Args') (body : Body → m Body') :
    NodeForm Args Body → m (NodeForm Args' Body')
  | .integerLiteral n => pure (.integerLiteral n)
  | .declRef n => pure (.declRef n)
  | .unary n => pure (.unary n)
  | .binary n => pure (.binary n)
  | .call n => do return .call ⟨n.callee, ← args n.args, n.info, n.rparenLoc⟩
  | .ifStmt n => pure (.ifStmt n)
  | .whileStmt n => pure (.whileStmt n)
  | .returnStmt n => pure (.returnStmt n)
  | .compound n => do return .compound ⟨← body n.body, n.lbraceLoc, n.rbraceLoc⟩
  | .nullStmt n => pure (.nullStmt n)

/-! ## Where a node begins -/

/-- Where the text of a node begins. -/
inductive Start where
  /-- At a location of its own. -/
  | here (loc : Location)
  /-- Where its leftmost operand begins. -/
  | operand (id : ExprId)

/-- Binary operators, calls and postfix operators begin with their leftmost operand, every other
node with a location of its own. -/
def start : NodeForm Args Body → Start
  | .integerLiteral n => .here n.loc
  | .declRef n => .here n.loc
  | .unary n => if n.op.isPostfix then .operand n.operand else .here n.opLoc
  | .binary n => .operand n.lhs
  | .call n => .operand n.callee
  | .ifStmt n => .here n.ifLoc
  | .whileStmt n => .here n.whileLoc
  | .returnStmt n => .here n.returnLoc
  | .compound n => .here n.lbraceLoc
  | .nullStmt n => .here n.semiLoc

end NodeForm

/-- The list of expressions of a node: the arguments of a call. -/
def Blueprint.args : Blueprint → List ExprId
  | .call n => n.args
  | _ => []

/-- The list of statements of a node: those of a block. -/
def Blueprint.body : Blueprint → List StmtId
  | .compound n => n.body
  | _ => []

/-- The children of a node in source order. -/
def Blueprint.children : Blueprint → List StmtId
  | .integerLiteral _ => []
  | .declRef _ => []
  | .unary n => [n.operand.toStmt]
  | .binary n => [n.lhs.toStmt, n.rhs.toStmt]
  | .call n => (n.callee :: n.args).map ExprId.toStmt
  | .ifStmt n => n.init.toList ++ [n.cond.toStmt, n.thenBranch] ++ n.elseBranch.toList
  | .whileStmt n => [n.cond.toStmt, n.body]
  | .returnStmt n => n.value.toList.map ExprId.toStmt
  | .compound n => n.body
  | .nullStmt _ => []

end SyntaxArena
