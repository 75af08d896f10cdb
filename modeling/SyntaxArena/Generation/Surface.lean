import SyntaxArena.Construction
import SyntaxArena.Generation.Basic

/-!
# Construction surfaces

Callers ask for nodes in a way that no generation changes; each generation answers through the
primitives of its own surface.

- `Request`: a node asked for, with the parts that callers name.
- `Primitive`: the ways of building that a surface chooses from.
- `Surface`: what the surface of a generation looks like, `Generation.surface` the one of each.
- `Surface.construction`: the construction that answers a request.

| kind                      | before                | since | after                  |
|---------------------------|-----------------------|-------|------------------------|
| binary operator           | contractable flag     | gen5  | floating-point options |
| block                     | placement             | gen6  | factory                |
| unary operator            | no overflow flag      | gen7  | overflow flag          |
| if, while, return, call   | placement             | gen8  | factory                |
-/

namespace SyntaxArena

/-! ## Requests -/

/-- The kinds of nodes that can be asked for. -/
inductive RequestKind where
  | unary | binary | ifStmt | whileStmt | returnStmt | compound | call
deriving DecidableEq

namespace RequestKind

/-- Every kind. -/
def all : List RequestKind := [.unary, .binary, .ifStmt, .whileStmt, .returnStmt, .compound, .call]

/-- The kind of the node that is built. -/
def nodeKind : RequestKind → NodeKind
  | .unary => .unary
  | .binary => .binary
  | .ifStmt => .ifStmt
  | .whileStmt => .whileStmt
  | .returnStmt => .returnStmt
  | .compound => .compound
  | .call => .call

/-- Name of the kind of the node that is built. -/
def name (k : RequestKind) : String := k.nodeKind.name

end RequestKind

/-- A node asked for. What is not named has its default. -/
inductive Request where
  | unary (op : UnaryOp) (operand : ExprId) (type : QualType)
  | binary (op : BinaryOp) (lhs rhs : ExprId) (type : QualType)
  | ifStmt (cond : ExprId) (thenBranch : StmtId)
  | whileStmt (cond : ExprId) (body : StmtId)
  | returnStmt (value : Option ExprId)
  | compound (stmts : List StmtId)
  | call (callee : ExprId) (args : List ExprId) (type : QualType)

/-- The kind of node asked for. -/
def Request.kind : Request → RequestKind
  | .unary .. => .unary
  | .binary .. => .binary
  | .ifStmt .. => .ifStmt
  | .whileStmt .. => .whileStmt
  | .returnStmt .. => .returnStmt
  | .compound .. => .compound
  | .call .. => .call

/-- The list of expressions that a request names. -/
def Request.args : Request → List ExprId
  | .call _ args _ => args
  | _ => []

/-- The list of statements that a request names. -/
def Request.body : Request → List StmtId
  | .compound stmts => stmts
  | _ => []

/-! ## Primitives -/

/-- How a statement or a call is built. -/
inductive Style where
  /-- In a place that the caller has. -/
  | placement
  /-- Through a factory that takes every part. -/
  | factory
deriving DecidableEq

/-- How a unary operator is built. -/
inductive UnaryStyle where
  | plain | withOverflow
deriving DecidableEq

/-- How a binary operator is built. -/
inductive BinaryStyle where
  | contractable | fpOptions
deriving DecidableEq

/-- A way of building one kind of node. -/
inductive Primitive where
  | unary (style : UnaryStyle)
  | binary (style : BinaryStyle)
  | ifStmt (style : Style)
  | whileStmt (style : Style)
  | returnStmt (style : Style)
  | compound (style : Style)
  | call (style : Style)
deriving DecidableEq

namespace Primitive

/-- Name of the primitive for a kind whose two styles are placement and factory. -/
def styled (kind : String) : Style → String
  | .placement => kind ++ "_new_in"
  | .factory => kind ++ "_create"

/-- Name of the primitive. -/
def name : Primitive → String
  | .unary .plain => "unary_new_in"
  | .unary .withOverflow => "unary_new_in_with_overflow"
  | .binary .contractable => "binary_new_in_contractable"
  | .binary .fpOptions => "binary_new_in_fp_options"
  | .ifStmt style => styled "if" style
  | .whileStmt style => styled "while" style
  | .returnStmt style => styled "return" style
  | .compound style => styled "compound" style
  | .call style => styled "call" style

end Primitive

/-! ## Surfaces -/

/-- The primitives of one generation: one for each kind of node. -/
structure Surface where
  unary : UnaryStyle
  binary : BinaryStyle
  ifStmt : Style
  whileStmt : Style
  returnStmt : Style
  compound : Style
  call : Style
deriving DecidableEq

namespace Surface

/-- The primitive for a kind of node. -/
def primitive (s : Surface) : RequestKind → Primitive
  | .unary => .unary s.unary
  | .binary => .binary s.binary
  | .ifStmt => .ifStmt s.ifStmt
  | .whileStmt => .whileStmt s.whileStmt
  | .returnStmt => .returnStmt s.returnStmt
  | .compound => .compound s.compound
  | .call => .call s.call

/-- The construction by which the surface answers a request. Arguments of a primitive that the
request does not name get the canonical defaults: no location, an ordinary prvalue, no optional
part, no overflow, no contraction. -/
def construction (s : Surface) : Request → Construction
  | .unary op operand type =>
    match s.unary with
    | .plain => .unary operand op (.prvalue type) .invalid
    | .withOverflow => .unaryWithOverflow operand op (.prvalue type) .invalid false
  | .binary op lhs rhs type =>
    match s.binary with
    | .contractable => .binaryContractable lhs rhs op (.prvalue type) .invalid false
    | .fpOptions => .binaryOptions lhs rhs op (.prvalue type) .invalid .initial
  | .ifStmt cond thenBranch =>
    match s.ifStmt with
    | .placement => .ifPlacement .invalid false none none cond thenBranch
    | .factory => .ifFactory .invalid false none none cond thenBranch .invalid none
  | .whileStmt cond body =>
    match s.whileStmt with
    | .placement => .whilePlacement none cond body .invalid
    | .factory => .whileFactory none cond body .invalid
  | .returnStmt value =>
    match s.returnStmt with
    | .placement => .returnPlacement .invalid value none
    | .factory => .returnFactory .invalid value none
  | .compound stmts =>
    match s.compound with
    | .placement => .compoundPlacement stmts .invalid .invalid
    | .factory => .compoundFactory stmts .invalid .invalid
  | .call callee args type =>
    match s.call with
    | .placement => .callPlacement callee args type .prvalue .invalid
    | .factory => .callFactory callee args type .prvalue .invalid

end Surface

/-- The surface of a generation. -/
def Generation.surface : Generation → Surface
  | .gen4 =>
    { unary := .plain, binary := .contractable, ifStmt := .placement, whileStmt := .placement,
      returnStmt := .placement, compound := .placement, call := .placement }
  | .gen5 =>
    { unary := .plain, binary := .fpOptions, ifStmt := .placement, whileStmt := .placement,
      returnStmt := .placement, compound := .placement, call := .placement }
  | .gen6 =>
    { unary := .plain, binary := .fpOptions, ifStmt := .placement, whileStmt := .placement,
      returnStmt := .placement, compound := .factory, call := .placement }
  | .gen7 =>
    { unary := .withOverflow, binary := .fpOptions, ifStmt := .placement, whileStmt := .placement,
      returnStmt := .placement, compound := .factory, call := .placement }
  | .gen8 =>
    { unary := .withOverflow, binary := .fpOptions, ifStmt := .factory, whileStmt := .factory,
      returnStmt := .factory, compound := .factory, call := .factory }

end SyntaxArena
