/-!
# Numerals

Unsigned numbers as text.

- `Numeral.hex`: hexadecimal digits in upper case.
- `Numeral.word?`: the value of a decimal numeral that fits into 32 bits.
-/

namespace SyntaxArena.Numeral

/-- The hexadecimal digits of a number, in upper case. -/
def hex (n : Nat) : String := String.ofList ((Nat.toDigits 16 n).map Char.toUpper)

/-! ## Reading -/

/-- The value of a decimal digit. -/
def digit? (c : Char) : Option Nat :=
  if '0' ≤ c ∧ c ≤ '9' then some (c.toNat - '0'.toNat) else none

/-- The value of a row of decimal digits, first digit first. -/
def value (ds : List Nat) : Nat := ds.foldl (fun n d => 10 * n + d) 0

/-- The numeral without its sign: one plus sign may stand in front. -/
def unsigned : List Char → List Char
  | '+' :: cs => cs
  | cs => cs

/-- Reads a decimal numeral: an optional plus sign, then one or more digits, whose value is below
`2 ^ 32`. Zeros may lead. -/
def word? (cs : List Char) : Option Nat := do
  let ds ← (unsigned cs).mapM digit?
  if ds.isEmpty then none
  else if value ds < 4294967296 then some (value ds) else none

end SyntaxArena.Numeral
