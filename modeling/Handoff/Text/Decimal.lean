/-
Handoff.Text.Decimal — words written in decimal digits.

A word may have a plus sign before its digits and any number of leading zeros.
-/
import Handoff.Memory

namespace Handoff.Text

/-- The value of a decimal digit. -/
def digitValue (c : Char) : Nat := c.toNat - '0'.toNat

/-- The value of decimal digits. -/
def decimalValue (ds : List Char) : Nat := ds.foldl (fun n c => 10 * n + digitValue c) 0

/-- Characters without a plus sign at their front. -/
def withoutPlus : List Char → List Char
  | [] => []
  | c :: rest => if c = '+' then rest else c :: rest

/-- The word that characters are, if they are one. -/
def word? (s : List Char) : Option Nat :=
  let ds := withoutPlus s
  if ds.isEmpty || !ds.all Char.isDigit then none
  else if decimalValue ds < wordLimit then some (decimalValue ds)
  else none

end Handoff.Text
