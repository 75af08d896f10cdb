import SyntaxArena.Arena.Basic
import SyntaxArena.Types.Spelling

/-!
# Outlines

The outline of a node has one line for the node and each node below it, every line two spaces
further in than the line of its parent:

```text
BinaryOperator 'int' prvalue '+' contract=off <invalid sloc>
  DeclRefExpr 'int' lvalue 'a' <invalid sloc>
  DeclRefExpr 'int' lvalue 'b' <invalid sloc>
```

- `Arena.line`: the line of a node, without its indentation.
- `Arena.outline`: the outline of the nodes below a root.
-/

namespace SyntaxArena

namespace Arena

/-! ## The line of a node -/

/-- The type and the categories of an expression. Ordinary objects go without saying. -/
def infoText (c : Arena) (info : ExprInfo) : Except Fault String := do
  let type ← c.types.spelling info.type
  let object := if info.objectKind = .ordinary then "" else " " ++ info.objectKind.name
  return " '" ++ type ++ "' " ++ info.valueKind.name ++ object

/-- The name of a declaration in quotes. -/
def nameText (c : Arena) (d : VarDecl) : Except Fault String := do
  let name ← c.names.text d.name
  return " '" ++ name ++ "'"

/-- The name of an optional declaration after a word that announces it. -/
def optionalNameText (c : Arena) (word : String) : Option VarDecl → Except Fault String
  | some d => return " " ++ word ++ (← c.nameText d)
  | none => return ""

/-- What a line says of a node besides its kind and its expression attributes. -/
def detailText (c : Arena) : Node → Except Fault String
  | .integerLiteral n => return " " ++ n.value.toNat.repr ++ " " ++ n.loc.text
  | .declRef n => return (← c.nameText n.decl) ++ " " ++ n.loc.text
  | .unary n =>
    let side := if n.op.isPostfix then " postfix '" else " prefix '"
    let overflow := if n.canOverflow then "" else " cannot overflow"
    return side ++ n.op.symbol ++ "'" ++ overflow ++ " " ++ n.opLoc.text
  | .binary n => return " '" ++ n.op.symbol ++ "' " ++ n.fpOptions.text ++ " " ++ n.opLoc.text
  | .call n => return " " ++ n.rparenLoc.text
  | .ifStmt n => do
    let constexpr := if n.isConstexpr then " constexpr" else ""
    let init := if n.init.isSome then " has_init" else ""
    let var ← c.optionalNameText "has_var" n.condVar
    let orElse := if n.elseBranch.isSome then " has_else " ++ n.elseLoc.text else ""
    return " " ++ n.ifLoc.text ++ constexpr ++ init ++ var ++ orElse
  | .whileStmt n => return " " ++ n.whileLoc.text ++ (← c.optionalNameText "has_var" n.condVar)
  | .returnStmt n =>
    return " " ++ n.returnLoc.text ++ (← c.optionalNameText "nrvo_candidate" n.nrvoCandidate)
  | .compound n => return " " ++ n.sourceRange.text
  | .nullStmt n => return " " ++ n.semiLoc.text

/-- The line of a node. -/
def line (c : Arena) (node : Node) : Except Fault String := do
  let info ← match node.info? with
    | some info => c.infoText info
    | none => pure ""
  return node.kind.name ++ info ++ (← c.detailText node)

/-! ## The lines below a root -/

/-- The space in front of a line. -/
def indentation (depth : Nat) : String := String.ofList (List.replicate (2 * depth) ' ')

/-- The lines of the nodes below a root to a depth of less than `fuel`, where the root itself stands
at `depth`. -/
def outlineLines (c : Arena) : Nat → Nat → StmtId → Except Fault (List String)
  | 0, _, _ => .error .cyclic
  | fuel + 1, depth, id => do
    let line ← c.line (← c.store.node id)
    let below ← (← c.store.children id).mapM (c.outlineLines fuel (depth + 1))
    return (indentation depth ++ line) :: below.flatten

/-- The outline of the nodes below a root. Every line is ended by a line break. -/
def outline (c : Arena) (root : StmtId) : Except Fault String := do
  let lines ← c.outlineLines c.store.depthBound 0 root
  return String.join (lines.map (· ++ "\n"))

end Arena

end SyntaxArena
