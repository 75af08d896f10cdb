/-!
# Record notation

How inspection writes values that are made of other values: `Name { field: value, field: value }`
for a record, `Variant(value)` for an alternative that holds one value, `[value, value]` for a list.
-/

namespace SyntaxArena.Record

/-- A record with a name and at least one field. -/
def fields (name : String) (fs : List (String × String)) : String :=
  name ++ " \x7b " ++ ", ".intercalate (fs.map fun f => f.1 ++ ": " ++ f.2) ++ " \x7d"

/-- An alternative that holds one value. -/
def variant (name value : String) : String := name ++ "(" ++ value ++ ")"

/-- A value that may be absent. -/
def optional : Option String → String
  | some value => variant "Some" value
  | none => "None"

/-- A list. -/
def list (items : List String) : String := "[" ++ ", ".intercalate items ++ "]"

/-- A truth value. -/
def truth (b : Bool) : String := if b then "true" else "false"

end SyntaxArena.Record
