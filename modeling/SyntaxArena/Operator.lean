/-!
# Operators

The unary and binary operators of a C-like language: their symbols, and for the binary ones how
tightly they bind.
-/

namespace SyntaxArena

/-! ## Binary operators -/

/-- Binary operators. -/
inductive BinaryOp where
  | mul | div | rem
  | add | sub
  | shl | shr
  | lt | gt | le | ge
  | eq | ne
  | and | xor | or
  | land | lor
  | assign
  | mulAssign | divAssign | remAssign | addAssign | subAssign
  | shlAssign | shrAssign | andAssign | xorAssign | orAssign
  | comma
deriving DecidableEq

namespace BinaryOp

/-- Every binary operator. -/
def all : List BinaryOp :=
  [.mul, .div, .rem, .add, .sub, .shl, .shr, .lt, .gt, .le, .ge, .eq, .ne, .and, .xor, .or,
   .land, .lor, .assign, .mulAssign, .divAssign, .remAssign, .addAssign, .subAssign, .shlAssign,
   .shrAssign, .andAssign, .xorAssign, .orAssign, .comma]

theorem mem_all (op : BinaryOp) : op ∈ all := by
  cases op <;> decide

/-- The operator as inspection shows it. -/
def inspect : BinaryOp → String
  | .mul => "Mul" | .div => "Div" | .rem => "Rem"
  | .add => "Add" | .sub => "Sub"
  | .shl => "Shl" | .shr => "Shr"
  | .lt => "Lt" | .gt => "Gt" | .le => "Le" | .ge => "Ge"
  | .eq => "Eq" | .ne => "Ne"
  | .and => "And" | .xor => "Xor" | .or => "Or"
  | .land => "LAnd" | .lor => "LOr"
  | .assign => "Assign"
  | .mulAssign => "MulAssign" | .divAssign => "DivAssign" | .remAssign => "RemAssign"
  | .addAssign => "AddAssign" | .subAssign => "SubAssign"
  | .shlAssign => "ShlAssign" | .shrAssign => "ShrAssign"
  | .andAssign => "AndAssign" | .xorAssign => "XorAssign" | .orAssign => "OrAssign"
  | .comma => "Comma"

/-- The operator in source text. -/
def symbol : BinaryOp → String
  | .mul => "*" | .div => "/" | .rem => "%"
  | .add => "+" | .sub => "-"
  | .shl => "<<" | .shr => ">>"
  | .lt => "<" | .gt => ">" | .le => "<=" | .ge => ">="
  | .eq => "==" | .ne => "!="
  | .and => "&" | .xor => "^" | .or => "|"
  | .land => "&&" | .lor => "||"
  | .assign => "="
  | .mulAssign => "*=" | .divAssign => "/=" | .remAssign => "%="
  | .addAssign => "+=" | .subAssign => "-="
  | .shlAssign => "<<=" | .shrAssign => ">>="
  | .andAssign => "&=" | .xorAssign => "^=" | .orAssign => "|="
  | .comma => ","

/-- Distinct binary operators have distinct symbols. -/
theorem symbol_injective {a b : BinaryOp} (h : a.symbol = b.symbol) : a = b := by
  have table : ∀ a ∈ all, ∀ b ∈ all, a.symbol = b.symbol → a = b := by decide
  exact table a (mem_all a) b (mem_all b) h

/-- How tightly the operator binds: a higher number binds less tightly. Level 13 belongs to the
conditional operator, which is not binary. -/
def precedence : BinaryOp → Nat
  | .mul | .div | .rem => 3
  | .add | .sub => 4
  | .shl | .shr => 5
  | .lt | .gt | .le | .ge => 6
  | .eq | .ne => 7
  | .and => 8
  | .xor => 9
  | .or => 10
  | .land => 11
  | .lor => 12
  | .assign | .mulAssign | .divAssign | .remAssign | .addAssign | .subAssign
  | .shlAssign | .shrAssign | .andAssign | .xorAssign | .orAssign => 14
  | .comma => 15

/-- Whether the operator assigns to its left operand. -/
def isAssignment (op : BinaryOp) : Bool := op.precedence == 14

/-- Whether the operator compares its operands. -/
def isComparison : BinaryOp → Bool
  | .lt | .gt | .le | .ge | .eq | .ne => true
  | _ => false

end BinaryOp

/-! ## Unary operators -/

/-- Unary operators. -/
inductive UnaryOp where
  | postInc | postDec | preInc | preDec
  | addrOf | deref
  | plus | minus
  | not | lnot
  | real | imag
  | extension
deriving DecidableEq

namespace UnaryOp

/-- Every unary operator. -/
def all : List UnaryOp :=
  [.postInc, .postDec, .preInc, .preDec, .addrOf, .deref, .plus, .minus, .not, .lnot, .real, .imag,
   .extension]

theorem mem_all (op : UnaryOp) : op ∈ all := by
  cases op <;> decide

/-- The operator as inspection shows it. -/
def inspect : UnaryOp → String
  | .postInc => "PostInc" | .postDec => "PostDec"
  | .preInc => "PreInc" | .preDec => "PreDec"
  | .addrOf => "AddrOf" | .deref => "Deref"
  | .plus => "Plus" | .minus => "Minus"
  | .not => "Not" | .lnot => "LNot"
  | .real => "Real" | .imag => "Imag"
  | .extension => "Extension"

/-- The operator in source text. -/
def symbol : UnaryOp → String
  | .postInc | .preInc => "++"
  | .postDec | .preDec => "--"
  | .addrOf => "&"
  | .deref => "*"
  | .plus => "+"
  | .minus => "-"
  | .not => "~"
  | .lnot => "!"
  | .real => "__real"
  | .imag => "__imag"
  | .extension => "__extension__"

/-- Whether the operator stands behind its operand. -/
def isPostfix : UnaryOp → Bool
  | .postInc | .postDec => true
  | _ => false

/-- The symbol and the side on which it stands tell every unary operator from the others. -/
theorem eq_of_symbol_eq {a b : UnaryOp} (hs : a.symbol = b.symbol)
    (hp : a.isPostfix = b.isPostfix) : a = b := by
  have table : ∀ a ∈ all, ∀ b ∈ all, a.symbol = b.symbol → a.isPostfix = b.isPostfix → a = b := by
    decide
  exact table a (mem_all a) b (mem_all b) hs hp

end UnaryOp

end SyntaxArena
