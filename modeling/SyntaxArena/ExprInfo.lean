import SyntaxArena.Types.Basic

/-!
# Attributes of expressions

- `ValueKind`, `ObjectKind`: what an expression denotes.
- `ExprInfo`: the type of an expression with both kinds, stored in every expression node.
- `FpOptions`: floating-point options, stored in binary operators.
-/

namespace SyntaxArena

/-! ## Value and object kinds -/

/-- Value category of an expression. -/
inductive ValueKind where
  /-- A temporary without identity. -/
  | prvalue
  /-- Designates an object or a function. -/
  | lvalue
  /-- An expiring value. -/
  | xvalue
deriving DecidableEq

namespace ValueKind

def all : List ValueKind := [.prvalue, .lvalue, .xvalue]

/-- The category as outlines show it. -/
def name : ValueKind → String
  | .prvalue => "prvalue"
  | .lvalue => "lvalue"
  | .xvalue => "xvalue"

/-- The category as inspection shows it. -/
def inspect : ValueKind → String
  | .prvalue => "PRValue"
  | .lvalue => "LValue"
  | .xvalue => "XValue"

end ValueKind

/-- Special category of the object that an expression designates. -/
inductive ObjectKind where
  | ordinary | bitField | vectorComponent
deriving DecidableEq

namespace ObjectKind

def all : List ObjectKind := [.ordinary, .bitField, .vectorComponent]

/-- The category as outlines show it. -/
def name : ObjectKind → String
  | .ordinary => "ordinary"
  | .bitField => "bitfield"
  | .vectorComponent => "vectorcomponent"

/-- The category as inspection shows it. -/
def inspect : ObjectKind → String
  | .ordinary => "Ordinary"
  | .bitField => "BitField"
  | .vectorComponent => "VectorComponent"

end ObjectKind

/-! ## Floating-point options -/

/-- Contraction of floating-point operations. -/
inductive FpContract where
  | off | on | fast
deriving DecidableEq

namespace FpContract

def all : List FpContract := [.off, .on, .fast]

/-- The mode as inspection shows it. -/
def inspect : FpContract → String
  | .off => "Off"
  | .on => "On"
  | .fast => "Fast"

end FpContract

/-- Floating-point options of a binary operator. -/
structure FpOptions where
  contract : FpContract := .off
deriving DecidableEq

namespace FpOptions

/-- Contraction off. -/
def initial : FpOptions := {}

/-- The options that a single flag stands for, whether operations may be contracted. -/
def ofContractable (contractable : Bool) : FpOptions := ⟨if contractable then .on else .off⟩

/-- Whether operations may be contracted. -/
def allowsContraction (o : FpOptions) : Bool := o.contract != .off

/-- The options as outlines show them. -/
def text (o : FpOptions) : String :=
  match o.contract with
  | .off => "contract=off"
  | .on => "contract=on"
  | .fast => "contract=fast"

theorem text_injective {o p : FpOptions} (h : o.text = p.text) : o = p := by
  obtain ⟨a⟩ := o
  obtain ⟨b⟩ := p
  revert h
  cases a <;> cases b <;> decide

/-- The options as inspection shows them. -/
def inspect (o : FpOptions) : String := Record.fields "FpOptions" [("contract", o.contract.inspect)]

end FpOptions

/-! ## Expression attributes -/

/-- Type and categories of an expression. -/
structure ExprInfo where
  type : QualType
  valueKind : ValueKind := .prvalue
  objectKind : ObjectKind := .ordinary
deriving DecidableEq

namespace ExprInfo

/-- An ordinary prvalue of a type. -/
def prvalue (type : QualType) : ExprInfo := { type }

/-- The attributes as inspection shows them. -/
def inspect (i : ExprInfo) : String :=
  Record.fields "ExprMeta"
    [("ty", i.type.inspect), ("value_kind", i.valueKind.inspect),
      ("object_kind", i.objectKind.inspect)]

end ExprInfo

end SyntaxArena
