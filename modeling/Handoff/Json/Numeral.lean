/-
Handoff.Json.Numeral — numbers as JSON writes them.

A numeral is kept as it is written: a sign, digits, and perhaps a fraction and an exponent. Two
questions are asked of it. Is it a plain number without sign, fraction and exponent, and which one
(`natural?`)? And, where the number would be kept as a double, is it in the range of doubles
(`isFinite`)? The second question is asked of an approximation: digits are taken into a 64-bit
significand as long as they fit, and the product of significand and power of ten is rounded to 53
bits twice, once for each factor and once for the result.
-/
import Handoff.Json.Scan
import Handoff.Text.Decimal

namespace Handoff.Json

open Text (digitValue decimalValue)

/-! ## §1 Reading -/

/-- A number as it is written. -/
structure Numeral where
  negative : Bool
  whole : List Char
  fraction : Option (List Char)
  /-- Whether the exponent is negative, and its digits. -/
  exponent : Option (Bool × List Char)
  deriving DecidableEq, Repr

/-- Reads one digit or more. -/
def digits (s : List Char) : Except Fault (List Char × List Char) :=
  match s with
  | [] => .error .truncated
  | c :: _ =>
    if c.isDigit then .ok (s.takeWhile Char.isDigit, s.dropWhile Char.isDigit)
    else .error .malformed

/-- Whether a text starts with a digit. -/
def startsWithDigit : List Char → Bool
  | [] => false
  | c :: _ => c.isDigit

/-- Reads the digits before the point: a single zero, or digits that do not start with one. -/
def wholePart : Reader (List Char)
  | [] => .error .truncated
  | c :: rest =>
    if c = '0' then
      if startsWithDigit rest then .error .malformed else .ok (['0'], rest)
    else digits (c :: rest)

/-- Reads a point and the digits after it, if there is a point. -/
def fractionPart : Reader (Option (List Char))
  | [] => .ok (none, [])
  | c :: rest =>
    if c = '.' then
      match digits rest with
      | .error f => .error f
      | .ok (ds, t) => .ok (some ds, t)
    else .ok (none, c :: rest)

/-- The sign at the front of a text, whether it is a minus, and what follows it. -/
def optionalSign : List Char → Bool × List Char
  | [] => (false, [])
  | c :: rest => if c = '-' then (true, rest) else if c = '+' then (false, rest) else (false, c :: rest)

/-- Reads an exponent, if there is one. -/
def exponentPart : Reader (Option (Bool × List Char))
  | [] => .ok (none, [])
  | c :: rest =>
    if c = 'e' ∨ c = 'E' then
      match digits (optionalSign rest).2 with
      | .error f => .error f
      | .ok (ds, t) => .ok (some ((optionalSign rest).1, ds), t)
    else .ok (none, c :: rest)

namespace Numeral

/-- The minus at the front of a text, and what follows it. -/
def optionalMinus : List Char → Bool × List Char
  | [] => (false, [])
  | c :: rest => if c = '-' then (true, rest) else (false, c :: rest)

/-- Reads a number as it is written. -/
def scan (s : List Char) : Except Fault (Numeral × List Char) :=
  match wholePart (optionalMinus s).2 with
  | .error f => .error f
  | .ok (whole, t) =>
    match fractionPart t with
    | .error f => .error f
    | .ok (fraction, u) =>
      match exponentPart u with
      | .error f => .error f
      | .ok (exponent, v) => .ok (⟨(optionalMinus s).1, whole, fraction, exponent⟩, v)

/-! ## §2 Plain numbers -/

/-- The value of a numeral without sign, fraction and exponent. -/
def natural? (n : Numeral) : Option Nat :=
  if n.negative ∨ n.fraction.isSome ∨ n.exponent.isSome then none else some (decimalValue n.whole)

/-! ## §3 The range of doubles -/

/-- Takes digits into a significand for as long as it stays a word. The number of digits that are
left out is returned with it. -/
def absorb : Nat → List Char → Nat × Nat
  | n, [] => (n, 0)
  | n, c :: rest =>
    if wordLimit ≤ 10 * n + digitValue c then (n, rest.length + 1)
    else absorb (10 * n + digitValue c) rest

/-- A number rounded to 53 bits; a tie goes to the even neighbour. -/
def round53 (n : Nat) : Nat :=
  if n < Nat.pow 2 53 then n
  else
    let shift := n.log2 - 52
    let unit := Nat.pow 2 shift
    let quotient := n / unit
    let twice := 2 * (n % unit)
    if twice < unit ∨ (twice = unit ∧ quotient % 2 = 0) then quotient * unit
    else (quotient + 1) * unit

/-- The least number that rounds to a double without end. -/
def firstInfinite : Nat := Nat.pow 2 1024 - Nat.pow 2 970

/-- Whether a significand times a power of ten is in the range of doubles. -/
def scaledFinite (significand : Nat) (exponent : Int) : Bool :=
  if significand = 0 ∨ exponent < 0 then true
  else if 308 < exponent then false
  else round53 significand * round53 (Nat.pow 10 exponent.toNat) < firstInfinite

/-- The exponent as a number. -/
def exponentValue (n : Numeral) : Int :=
  match n.exponent with
  | none => 0
  | some (negative, ds) => if negative then -(decimalValue ds : Int) else decimalValue ds

/-- Whether the numeral is in the range of doubles. Digits before the point that the significand
does not take count as zeros, those after it are left out. -/
def isFinite (n : Numeral) : Bool :=
  let (whole, zeros) := absorb 0 n.whole
  match n.fraction with
  | none => scaledFinite whole (zeros + n.exponentValue)
  | some ds =>
    let (significand, unused) := absorb whole ds
    scaledFinite significand ((zeros : Int) - (ds.length - unused : Nat) + n.exponentValue)

/-- Reads a number. One that is kept must be plain and a word, or in the range of doubles. -/
def read (care : Care) (s : List Char) : Except Fault (Numeral × List Char) :=
  match care, scan s with
  | .keep, .error f => .error f
  | .keep, .ok (n, rest) => if n.isFinite then .ok (n, rest) else .error .malformed
  | .drop, .error _ => .error .malformed
  | .drop, .ok (n, rest) => .ok (n, rest)

end Numeral

end Handoff.Json
