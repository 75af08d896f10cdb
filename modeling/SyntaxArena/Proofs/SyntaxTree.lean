import SyntaxArena.Arena.Outline

/-!
# Syntax trees

What a node stands for apart from the numbers: the tree of everything below it, with types spelt out
and names as texts.

- `SyntaxTree`: one constructor per kind of node, with the children in their roles.
- `Label`: everything about a node but its children. What is optional is noted as present or absent.
- `SyntaxTree.ext_children`: a tree is known from its label and the list of its children, roles or
  not.
- `SyntaxTree.outline`, `SyntaxTree.firstLoc`: the outline and the first location, read off the
  tree.
-/

namespace SyntaxArena

/-! ## Trees and labels -/

/-- The attributes of an expression, with the type spelt out. -/
structure SpeltInfo where
  type : String
  valueKind : ValueKind
  objectKind : ObjectKind
deriving DecidableEq

/-- A declaration with its name as a text and its type spelt out. -/
structure SpeltDecl where
  name : String
  type : String
  loc : Location
deriving DecidableEq

/-- A node with all that is below it. -/
inductive SyntaxTree where
  | integerLiteral (value : UInt64) (info : SpeltInfo) (loc : Location)
  | declRef (decl : SpeltDecl) (info : SpeltInfo) (loc : Location)
  | unary (op : UnaryOp) (operand : SyntaxTree) (info : SpeltInfo) (opLoc : Location)
      (canOverflow : Bool)
  | binary (op : BinaryOp) (lhs rhs : SyntaxTree) (info : SpeltInfo) (opLoc : Location)
      (fpOptions : FpOptions)
  | call (callee : SyntaxTree) (args : List SyntaxTree) (info : SpeltInfo) (rparenLoc : Location)
  | ifStmt (ifLoc : Location) (isConstexpr : Bool) (init : Option SyntaxTree)
      (condVar : Option SpeltDecl) (cond thenBranch : SyntaxTree) (elseLoc : Location)
      (elseBranch : Option SyntaxTree)
  | whileStmt (condVar : Option SpeltDecl) (cond body : SyntaxTree) (whileLoc : Location)
  | returnStmt (returnLoc : Location) (value : Option SyntaxTree) (nrvoCandidate : Option SpeltDecl)
  | compound (body : List SyntaxTree) (lbraceLoc rbraceLoc : Location)
  | nullStmt (semiLoc : Location)

/-- A node without its children. -/
inductive Label where
  | integerLiteral (value : UInt64) (info : SpeltInfo) (loc : Location)
  | declRef (decl : SpeltDecl) (info : SpeltInfo) (loc : Location)
  | unary (op : UnaryOp) (info : SpeltInfo) (opLoc : Location) (canOverflow : Bool)
  | binary (op : BinaryOp) (info : SpeltInfo) (opLoc : Location) (fpOptions : FpOptions)
  | call (info : SpeltInfo) (rparenLoc : Location)
  | ifStmt (ifLoc : Location) (isConstexpr hasInit : Bool) (condVar : Option SpeltDecl)
      (elseLoc : Location) (hasElse : Bool)
  | whileStmt (condVar : Option SpeltDecl) (whileLoc : Location)
  | returnStmt (returnLoc : Location) (hasValue : Bool) (nrvoCandidate : Option SpeltDecl)
  | compound (lbraceLoc rbraceLoc : Location)
  | nullStmt (semiLoc : Location)
deriving DecidableEq

namespace SyntaxTree

/-- The root without its children. -/
def label : SyntaxTree → Label
  | .integerLiteral value info loc => .integerLiteral value info loc
  | .declRef decl info loc => .declRef decl info loc
  | .unary op _ info opLoc canOverflow => .unary op info opLoc canOverflow
  | .binary op _ _ info opLoc fpOptions => .binary op info opLoc fpOptions
  | .call _ _ info rparenLoc => .call info rparenLoc
  | .ifStmt ifLoc isConstexpr init condVar _ _ elseLoc elseBranch =>
    .ifStmt ifLoc isConstexpr init.isSome condVar elseLoc elseBranch.isSome
  | .whileStmt condVar _ _ whileLoc => .whileStmt condVar whileLoc
  | .returnStmt returnLoc value nrvoCandidate => .returnStmt returnLoc value.isSome nrvoCandidate
  | .compound _ lbraceLoc rbraceLoc => .compound lbraceLoc rbraceLoc
  | .nullStmt semiLoc => .nullStmt semiLoc

/-- The children in source order. -/
def children : SyntaxTree → List SyntaxTree
  | .integerLiteral .. => []
  | .declRef .. => []
  | .unary _ operand _ _ _ => [operand]
  | .binary _ lhs rhs _ _ _ => [lhs, rhs]
  | .call callee args _ _ => callee :: args
  | .ifStmt _ _ init _ cond thenBranch _ elseBranch =>
    init.toList ++ [cond, thenBranch] ++ elseBranch.toList
  | .whileStmt _ cond body _ => [cond, body]
  | .returnStmt _ value _ => value.toList
  | .compound body _ _ => body
  | .nullStmt _ => []

/-- A tree is known from its label and its children. That the list of children does not tell their
roles does not matter, since the label says which of the optional ones are there. -/
theorem ext_children {t u : SyntaxTree} (hlabel : t.label = u.label)
    (hchildren : t.children = u.children) : t = u := by
  cases t with
  | ifStmt ifLoc isConstexpr init condVar cond thenBranch elseLoc elseBranch =>
    cases u with
    | ifStmt ifLoc' isConstexpr' init' condVar' cond' thenBranch' elseLoc' elseBranch' =>
      simp only [label, Label.ifStmt.injEq] at hlabel
      obtain ⟨rfl, rfl, hinit, rfl, rfl, helse⟩ := hlabel
      cases init <;> cases init' <;> simp_all [children]
      all_goals cases elseBranch <;> cases elseBranch' <;> simp_all
    | _ => simp [label] at hlabel
  | returnStmt returnLoc value nrvoCandidate =>
    cases u with
    | returnStmt returnLoc' value' nrvoCandidate' =>
      simp only [label, Label.returnStmt.injEq] at hlabel
      obtain ⟨rfl, hvalue, rfl⟩ := hlabel
      cases value <;> cases value' <;> simp_all [children]
    | _ => simp [label] at hlabel
  | _ => cases u <;> simp_all [label, children]

theorem sizeOf_lt_of_mem_children {t u : SyntaxTree} (h : u ∈ t.children) :
    sizeOf u < sizeOf t := by
  cases t with
  | call callee args info rparenLoc =>
    rcases List.mem_cons.1 h with rfl | h
    · simp
      omega
    · have := List.sizeOf_lt_of_mem h
      simp
      omega
  | compound body lbraceLoc rbraceLoc =>
    have := List.sizeOf_lt_of_mem (show u ∈ body from h)
    simp
    omega
  | ifStmt ifLoc isConstexpr init condVar cond thenBranch elseLoc elseBranch =>
    cases init <;> cases elseBranch <;> simp [children] at h ⊢
    all_goals rcases h with rfl | rfl | rfl | rfl <;> omega
  | returnStmt returnLoc value nrvoCandidate =>
    cases value <;> simp [children] at h ⊢
    rw [h]
    omega
  | _ =>
    simp [children] at h ⊢
    try (rcases h with rfl | rfl <;> omega)

/-! ## What outlines and locations show -/

end SyntaxTree

/-- The type and the categories as outlines show them. -/
def SpeltInfo.text (i : SpeltInfo) : String :=
  let object := if i.objectKind = .ordinary then "" else " " ++ i.objectKind.name
  " '" ++ i.type ++ "' " ++ i.valueKind.name ++ object

/-- The name of the declaration in quotes. -/
def SpeltDecl.nameText (d : SpeltDecl) : String := " '" ++ d.name ++ "'"

/-- The name of an optional declaration after a word that announces it. -/
def SpeltDecl.optionalNameText (word : String) : Option SpeltDecl → String
  | some d => " " ++ word ++ d.nameText
  | none => ""

namespace Label

def kind : Label → NodeKind
  | .integerLiteral .. => .integerLiteral
  | .declRef .. => .declRef
  | .unary .. => .unary
  | .binary .. => .binary
  | .call .. => .call
  | .ifStmt .. => .ifStmt
  | .whileStmt .. => .whileStmt
  | .returnStmt .. => .returnStmt
  | .compound .. => .compound
  | .nullStmt .. => .nullStmt

/-- The attributes of an expression, nothing for statements. -/
def infoText : Label → String
  | .integerLiteral _ info _ => info.text
  | .declRef _ info _ => info.text
  | .unary _ info _ _ => info.text
  | .binary _ info _ _ => info.text
  | .call info _ => info.text
  | .ifStmt .. | .whileStmt .. | .returnStmt .. | .compound .. | .nullStmt .. => ""

/-- What a line says besides the kind and the attributes of an expression. -/
def detailText : Label → String
  | .integerLiteral value _ loc => " " ++ value.toNat.repr ++ " " ++ loc.text
  | .declRef decl _ loc => decl.nameText ++ " " ++ loc.text
  | .unary op _ opLoc canOverflow =>
    let side := if op.isPostfix then " postfix '" else " prefix '"
    let overflow := if canOverflow then "" else " cannot overflow"
    side ++ op.symbol ++ "'" ++ overflow ++ " " ++ opLoc.text
  | .binary op _ opLoc fpOptions => " '" ++ op.symbol ++ "' " ++ fpOptions.text ++ " " ++ opLoc.text
  | .call _ rparenLoc => " " ++ rparenLoc.text
  | .ifStmt ifLoc isConstexpr hasInit condVar elseLoc hasElse =>
    let constexpr := if isConstexpr then " constexpr" else ""
    let init := if hasInit then " has_init" else ""
    let orElse := if hasElse then " has_else " ++ elseLoc.text else ""
    " " ++ ifLoc.text ++ constexpr ++ init ++ SpeltDecl.optionalNameText "has_var" condVar ++ orElse
  | .whileStmt condVar whileLoc =>
    " " ++ whileLoc.text ++ SpeltDecl.optionalNameText "has_var" condVar
  | .returnStmt returnLoc _ nrvoCandidate =>
    " " ++ returnLoc.text ++ SpeltDecl.optionalNameText "nrvo_candidate" nrvoCandidate
  | .compound lbraceLoc rbraceLoc => " " ++ (Span.mk lbraceLoc rbraceLoc).text
  | .nullStmt semiLoc => " " ++ semiLoc.text

/-- The line of a node, without its indentation. -/
def line (l : Label) : String := l.kind.name ++ l.infoText ++ l.detailText

end Label

namespace SyntaxTree

/-- The lines of the outline, the first of them at the given depth. -/
def lines (depth : Nat) (t : SyntaxTree) : List String :=
  let below := t.children.attach.map fun ⟨u, _⟩ => u.lines (depth + 1)
  (Arena.indentation depth ++ t.label.line) :: below.flatten
termination_by sizeOf t
decreasing_by exact sizeOf_lt_of_mem_children ‹_›

theorem lines_eq (depth : Nat) (t : SyntaxTree) :
    t.lines depth
      = (Arena.indentation depth ++ t.label.line)
        :: (t.children.map (lines (depth + 1))).flatten := by
  rw [lines]
  exact congrArg (fun below => _ :: List.flatten below) List.attach_map_val

/-- The outline, every line ended by a line break. -/
def outline (t : SyntaxTree) : String := String.join ((t.lines 0).map (· ++ "\n"))

/-- The first location covered. -/
def firstLoc : SyntaxTree → Location
  | .integerLiteral _ _ loc => loc
  | .declRef _ _ loc => loc
  | .unary op operand _ opLoc _ => if op.isPostfix then operand.firstLoc else opLoc
  | .binary _ lhs _ _ _ _ => lhs.firstLoc
  | .call callee _ _ _ => callee.firstLoc
  | .ifStmt ifLoc _ _ _ _ _ _ _ => ifLoc
  | .whileStmt _ _ _ whileLoc => whileLoc
  | .returnStmt returnLoc _ _ => returnLoc
  | .compound _ lbraceLoc _ => lbraceLoc
  | .nullStmt semiLoc => semiLoc

end SyntaxTree

end SyntaxArena
