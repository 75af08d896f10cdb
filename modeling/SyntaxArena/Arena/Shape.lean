import SyntaxArena.Arena.Basic
import SyntaxArena.Types.Spelling

/-!
# Structural equality

Two nodes, perhaps of different arenas, have the same shape when everything below them is the same
but for the numbers that happen to stand for nodes, names and types. Types are compared by spelling
and names by text.

- `Comparison`: the two arenas whose nodes are compared.
- `Comparison.sameNode`: everything but the children.
- `Comparison.same`: the nodes and all below them.

Checks are made in a fixed order, and the first one that fails ends the comparison, so a fault is
reported only where the checks before it were passed.
-/

namespace SyntaxArena

/-- Passes the checks one after the other up to the first that does not hold. -/
def allOf (checks : List (Except Fault Bool)) : Except Fault Bool := checks.allM id

/-- Whether two lookups find the same. -/
def agree {α : Type} [DecidableEq α] (x y : Except Fault α) : Except Fault Bool := do
  let a ← x
  let b ← y
  return a = b

/-- The arenas of the left and of the right side. -/
structure Comparison where
  lhs : Arena
  rhs : Arena

namespace Comparison

/-! ## Everything but the children -/

/-- Whether two types are spelt alike. -/
def sameType (c : Comparison) (t u : QualType) : Except Fault Bool :=
  agree (c.lhs.types.spelling t) (c.rhs.types.spelling u)

/-- Whether two names have the same text. -/
def sameName (c : Comparison) (m n : Identifier) : Except Fault Bool :=
  agree (c.lhs.names.text m) (c.rhs.names.text n)

/-- Whether two expressions have the same attributes. -/
def sameInfo (c : Comparison) (x y : ExprInfo) : Except Fault Bool :=
  allOf
    [c.sameType x.type y.type, .ok (x.valueKind = y.valueKind), .ok (x.objectKind = y.objectKind)]

/-- Whether two declarations are the same. -/
def sameDecl (c : Comparison) (d e : VarDecl) : Except Fault Bool :=
  allOf [c.sameName d.name e.name, c.sameType d.type e.type, .ok (d.loc = e.loc)]

/-- Whether two declarations are both absent, or both present and the same. -/
def sameDecl? (c : Comparison) : Option VarDecl → Option VarDecl → Except Fault Bool
  | some d, some e => c.sameDecl d e
  | none, none => .ok true
  | _, _ => .ok false

/-- Whether two nodes are the same but for their children. -/
def sameNode (c : Comparison) : Node → Node → Except Fault Bool
  | .integerLiteral x, .integerLiteral y =>
    allOf [.ok (x.value = y.value), c.sameInfo x.info y.info, .ok (x.loc = y.loc)]
  | .declRef x, .declRef y =>
    allOf [c.sameDecl x.decl y.decl, c.sameInfo x.info y.info, .ok (x.loc = y.loc)]
  | .unary x, .unary y =>
    allOf
      [.ok (x.op = y.op), c.sameInfo x.info y.info, .ok (x.opLoc = y.opLoc),
       .ok (x.canOverflow = y.canOverflow)]
  | .binary x, .binary y =>
    allOf
      [.ok (x.op = y.op), c.sameInfo x.info y.info, .ok (x.opLoc = y.opLoc),
       .ok (x.fpOptions = y.fpOptions)]
  | .call x, .call y => allOf [c.sameInfo x.info y.info, .ok (x.rparenLoc = y.rparenLoc)]
  | .ifStmt x, .ifStmt y =>
    allOf
      [.ok (x.ifLoc = y.ifLoc), .ok (x.isConstexpr = y.isConstexpr),
       .ok (x.init.isSome = y.init.isSome), c.sameDecl? x.condVar y.condVar,
       .ok (x.elseLoc = y.elseLoc), .ok (x.elseBranch.isSome = y.elseBranch.isSome)]
  | .whileStmt x, .whileStmt y =>
    allOf [c.sameDecl? x.condVar y.condVar, .ok (x.whileLoc = y.whileLoc)]
  | .returnStmt x, .returnStmt y =>
    allOf
      [.ok (x.returnLoc = y.returnLoc), .ok (x.value.isSome = y.value.isSome),
       c.sameDecl? x.nrvoCandidate y.nrvoCandidate]
  | .compound x, .compound y =>
    allOf [.ok (x.lbraceLoc = y.lbraceLoc), .ok (x.rbraceLoc = y.rbraceLoc)]
  | .nullStmt x, .nullStmt y => .ok (x.semiLoc = y.semiLoc)
  | _, _ => .ok false

/-! ## Nodes and all below them -/

/-- Compares two nodes and those below them to a depth of less than `fuel`. -/
def sameWithin (c : Comparison) : Nat → StmtId → StmtId → Except Fault Bool
  | 0, _, _ => .error .cyclic
  | fuel + 1, a, b => do
    let x ← c.lhs.store.node a
    let y ← c.rhs.store.node b
    if ← c.sameNode x y then
      let left ← c.lhs.store.children a
      let right ← c.rhs.store.children b
      if left.length = right.length then
        (left.zip right).allM fun (a, b) => c.sameWithin fuel a b
      else return false
    else return false

/-- Whether two nodes have the same shape. Unless some pair of handles comes round again on the way
down, a path of compared pairs is no longer than there are pairs. -/
def same (c : Comparison) (a b : StmtId) : Except Fault Bool :=
  c.sameWithin (c.lhs.store.depthBound * c.rhs.store.depthBound) a b

end Comparison

end SyntaxArena
