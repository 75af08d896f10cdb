import SyntaxArena.Node.Basic
import SyntaxArena.Text.Record

/-!
# Inspection of nodes

`Node.inspect` writes a stored node in record notation, with every field. Handles, names and types
are shown as the indices that they are, so nothing is looked up. Only the end of a list range can
fail to have a text, when it exceeds 32 bits.
-/

namespace SyntaxArena

/-- The declaration in record notation. -/
def VarDecl.inspect (d : VarDecl) : String :=
  Record.fields "VarDecl" [("name", d.name.inspect), ("ty", d.type.inspect), ("loc", d.loc.text)]

namespace Node

open Record

/-- The fields of a node with their values. -/
def fields : Node → Except Fault (List (String × String))
  | .integerLiteral n =>
    .ok [("value", n.value.toNat.repr), ("meta", n.info.inspect), ("loc", n.loc.text)]
  | .declRef n =>
    .ok [("decl", n.decl.inspect), ("meta", n.info.inspect), ("loc", n.loc.text)]
  | .unary n =>
    .ok [("opc", n.op.inspect), ("operand", n.operand.inspect), ("meta", n.info.inspect),
      ("op_loc", n.opLoc.text), ("can_overflow", truth n.canOverflow)]
  | .binary n =>
    .ok [("opc", n.op.inspect), ("lhs", n.lhs.inspect), ("rhs", n.rhs.inspect),
      ("meta", n.info.inspect), ("op_loc", n.opLoc.text), ("fp_options", n.fpOptions.inspect)]
  | .call n => do
    let args ← inspectExprs n.args
    return [("callee", n.callee.inspect), ("args", args), ("meta", n.info.inspect),
      ("rparen_loc", n.rparenLoc.text)]
  | .ifStmt n =>
    .ok [("if_loc", n.ifLoc.text), ("is_constexpr", truth n.isConstexpr),
      ("init", optional (n.init.map StmtId.inspect)),
      ("cond_var", optional (n.condVar.map VarDecl.inspect)), ("cond", n.cond.inspect),
      ("then_branch", n.thenBranch.inspect), ("else_loc", n.elseLoc.text),
      ("else_branch", optional (n.elseBranch.map StmtId.inspect))]
  | .whileStmt n =>
    .ok [("cond_var", optional (n.condVar.map VarDecl.inspect)), ("cond", n.cond.inspect),
      ("body", n.body.inspect), ("while_loc", n.whileLoc.text)]
  | .returnStmt n =>
    .ok [("return_loc", n.returnLoc.text), ("value", optional (n.value.map ExprId.inspect)),
      ("nrvo_candidate", optional (n.nrvoCandidate.map VarDecl.inspect))]
  | .compound n => do
    let body ← inspectStmts n.body
    return [("body", body), ("lbrace_loc", n.lbraceLoc.text), ("rbrace_loc", n.rbraceLoc.text)]
  | .nullStmt n => .ok [("semi_loc", n.semiLoc.text)]

/-- The node in record notation. -/
def inspect (n : Node) : Except Fault String := do
  let fs ← fields n
  return variant n.kind.inspect (Record.fields n.kind.name fs)

end Node

end SyntaxArena
