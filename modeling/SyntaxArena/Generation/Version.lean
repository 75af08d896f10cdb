import SyntaxArena.Generation.Basic
import SyntaxArena.Text.Blank
import SyntaxArena.Text.Numeral

/-!
# Versions

The generation that goes with a version. The major version alone decides; a version outside the
supported range is refused and never taken for a neighbour.

- `Generation.ofVersion`: from the numbers.
- `Generation.parse`: from text of the form `major[.minor[.patch]]`.
-/

namespace SyntaxArena

/-- Why a version has no generation. -/
inductive VersionError where
  /-- The text is no version. -/
  | malformed (text : String)
  /-- No generation goes with the version. -/
  | unsupported (major minor : Nat)
deriving DecidableEq

/-- The wording of a version error. -/
def VersionError.message : VersionError → String
  | .malformed text => "malformed API version `" ++ text ++ "`: expected `major[.minor[.patch]]`"
  | .unsupported major minor =>
    s!"API version {major.repr}.{minor.repr} is not supported (supported majors: " ++
      s!"{Generation.oldest.major.repr}..={Generation.newest.major.repr})"

/-- The pieces of a text between the occurrences of a separator. -/
def splitAtChar (separator : Char) : List Char → List (List Char)
  | [] => [[]]
  | c :: cs =>
    if c = separator then [] :: splitAtChar separator cs
    else
      match splitAtChar separator cs with
      | [] => [[c]]
      | piece :: pieces => (c :: piece) :: pieces

namespace Generation

/-- The generation of a version. -/
def ofVersion (major minor : Nat) : Except VersionError Generation :=
  match ofMajor? major with
  | some g => .ok g
  | none => .error (.unsupported major minor)

/-- The generation of a version given as text: one to three numbers with dots between them, and
blanks at either end. Every number has to be well formed before the major version is looked at. -/
def parse (text : String) : Except VersionError Generation :=
  match (splitAtChar '.' (Blank.trim text.toList)).mapM Numeral.word? with
  | some [major] => ofVersion major 0
  | some [major, minor] => ofVersion major minor
  | some [major, minor, _] => ofVersion major minor
  | _ => .error (.malformed text)

end Generation

end SyntaxArena
