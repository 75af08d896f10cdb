/-!
# Node kinds

The ten kinds of nodes and their names. The first five are the expressions.
-/

namespace SyntaxArena

/-- Kind of a node. -/
inductive NodeKind where
  | integerLiteral | declRef | unary | binary | call
  | ifStmt | whileStmt | returnStmt | compound | nullStmt
deriving DecidableEq

namespace NodeKind

/-- Every kind. -/
def all : List NodeKind :=
  [.integerLiteral, .declRef, .unary, .binary, .call,
   .ifStmt, .whileStmt, .returnStmt, .compound, .nullStmt]

/-- Name of the kind, as outlines and events show it. -/
def name : NodeKind → String
  | .integerLiteral => "IntegerLiteral"
  | .declRef => "DeclRefExpr"
  | .unary => "UnaryOperator"
  | .binary => "BinaryOperator"
  | .call => "CallExpr"
  | .ifStmt => "IfStmt"
  | .whileStmt => "WhileStmt"
  | .returnStmt => "ReturnStmt"
  | .compound => "CompoundStmt"
  | .nullStmt => "NullStmt"

theorem name_injective {j k : NodeKind} (h : j.name = k.name) : j = k := by
  revert h
  cases j <;> cases k <;> decide

/-- The kind as inspection shows it. -/
def inspect : NodeKind → String
  | .integerLiteral => "IntegerLiteral"
  | .declRef => "DeclRef"
  | .unary => "Unary"
  | .binary => "Binary"
  | .call => "Call"
  | .ifStmt => "If"
  | .whileStmt => "While"
  | .returnStmt => "Return"
  | .compound => "Compound"
  | .nullStmt => "Null"

/-- The kind with the given name. -/
def ofName? (s : String) : Option NodeKind := all.find? (·.name == s)

/-- Whether nodes of this kind are expressions. -/
def isExpr : NodeKind → Bool
  | .integerLiteral | .declRef | .unary | .binary | .call => true
  | .ifStmt | .whileStmt | .returnStmt | .compound | .nullStmt => false

end NodeKind

end SyntaxArena
