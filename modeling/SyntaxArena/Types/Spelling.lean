import SyntaxArena.Types.Table

/-!
# Spelling of types

`TypeTable.spelling` writes a type as C does, for instance `const int`, `char *` or `int (*)(int,
long)`. Types are looked up on the way, so a spelling fails where a type index has no entry.
-/

namespace SyntaxArena

namespace TypeTable

/-- The parameters between the parentheses of a function type. -/
def spellParams : List String → String
  | [] => "void"
  | ps@(_ :: _) => ", ".intercalate ps

/-- The spelling of a type whose components are nested less than `fuel` deep. -/
def spell (t : TypeTable) : Nat → QualType → Except Fault String
  | 0, _ => .error .cyclic
  | fuel + 1, type => do
    let quals := type.quals.spelling
    match ← t.kind type.id with
    | .builtin b => return if quals = "" then b.name else quals ++ " " ++ b.name
    | .pointer pointee =>
      match ← t.kind pointee.id with
      | .function ret params =>
        let ret ← t.spell fuel ret
        let params ← params.mapM (t.spell fuel)
        return ret ++ " (*)(" ++ spellParams params ++ ")" ++ quals
      | _ =>
        let base ← t.spell fuel pointee
        return base ++ " *" ++ quals
    | .function ret params =>
      let ret ← t.spell fuel ret
      let params ← params.mapM (t.spell fuel)
      return ret ++ " (" ++ spellParams params ++ ")"

/-- The spelling of a type in C. Indices cannot nest deeper than the table is long unless they form
a cycle, so every type without a cycle below it gets its spelling or the first fault on the way. -/
def spelling (t : TypeTable) (type : QualType) : Except Fault String := t.spell (t.size + 1) type

end TypeTable

end SyntaxArena
