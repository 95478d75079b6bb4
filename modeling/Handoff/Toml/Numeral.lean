/-
Handoff.Toml.Numeral — numbers and date-times of TOML text.

An integer must be a signed 64-bit one; only its value is kept. A float must not be larger than all
doubles. A date-time must name a day of the calendar and a time of the day; a minute may have 61
seconds.
-/
import Handoff.Text.Decimal
import Handoff.Toml.Scan
import Handoff.Toml.Value

namespace Handoff.Toml

open Text (decimalValue)

/-! ## §1 Digits -/

/-- Reads digits with single underscores between them, after a digit. -/
def moreDigits (isDigit : Char → Bool) : List Char → List Char × List Char
  | '_' :: d :: rest =>
    if isDigit d then
      let (ds, t) := moreDigits isDigit rest
      (d :: ds, t)
    else ([], '_' :: d :: rest)
  | d :: rest =>
    if isDigit d then
      let (ds, t) := moreDigits isDigit rest
      (d :: ds, t)
    else ([], d :: rest)
  | [] => ([], [])

/-- Reads one digit or more, with single underscores between them. -/
def digitRun (isDigit : Char → Bool) : Reader (List Char)
  | [] => none
  | d :: rest =>
    if isDigit d then
      let (ds, t) := moreDigits isDigit rest
      some (d :: ds, t)
    else none

/-- The sign at the front of a text, whether it is a minus, and what follows it. -/
def optionalSign : List Char → Bool × List Char
  | '-' :: rest => (true, rest)
  | '+' :: rest => (false, rest)
  | s => (false, s)

/-- Reads the digits of a decimal number: a single zero, or digits that do not start with one. -/
def decimalDigits : Reader (List Char)
  | [] => none
  | c :: rest => if c = '0' then some (['0'], rest) else digitRun Char.isDigit (c :: rest)

/-! ## §2 Integers -/

/-- Whether a number is a signed 64-bit one. -/
def isSigned64 (n : Int) : Bool := -(Nat.pow 2 63 : Int) ≤ n && n < (Nat.pow 2 63 : Int)

/-- Reads a decimal integer. -/
def decimalInteger (s : List Char) : Option (Value × List Char) :=
  let (negative, t) := optionalSign s
  match decimalDigits t with
  | none => none
  | some (ds, rest) =>
    let n : Int := if negative then -(decimalValue ds : Int) else decimalValue ds
    if isSigned64 n then some (.integer n, rest) else none

/-- The value of digits in a base. -/
def valueIn (base : Nat) (ds : List Char) : Nat :=
  ds.foldl (fun n c => n * base + (hexValue c).getD 0) 0

/-- Reads the digits of an integer in a base. -/
def basedInteger (base : Nat) (s : List Char) : Option (Value × List Char) :=
  match digitRun (fun c => (hexValue c).any (· < base)) s with
  | none => none
  | some (ds, rest) =>
    if isSigned64 (valueIn base ds) then some (.integer (valueIn base ds), rest) else none

/-- Reads an integer. -/
def integer (s : List Char) : Option (Value × List Char) :=
  match s with
  | '0' :: 'x' :: rest => basedInteger 16 rest
  | '0' :: 'o' :: rest => basedInteger 8 rest
  | '0' :: 'b' :: rest => basedInteger 2 rest
  | _ => decimalInteger s

/-! ## §3 Floats -/

/-- Reads a point and digits, if there is a point. -/
def fraction : Reader (List Char)
  | '.' :: rest => digitRun Char.isDigit rest
  | s => some ([], s)

/-- Reads an exponent, if there is one. -/
def exponent (s : List Char) : Option (Int × List Char) :=
  match s with
  | [] => some (0, [])
  | c :: rest =>
    if c = 'e' ∨ c = 'E' then
      let (negative, t) := optionalSign rest
      match digitRun Char.isDigit t with
      | none => none
      | some (ds, u) => some (if negative then -(decimalValue ds : Int) else decimalValue ds, u)
    else some (0, s)

/-- Whether a significand times a power of ten is larger than all doubles, after rounding. -/
def isHuge (significand : Nat) (power : Int) : Bool :=
  let size := (Nat.toDigits 10 significand).length + power
  if significand = 0 ∨ size < 308 then false
  else if 310 < size then true
  else
    Nat.pow 2 1024 - Nat.pow 2 970 ≤
      significand * Nat.pow 10 power.toNat / Nat.pow 10 (-power).toNat

/-- Reads a float with digits. -/
def digitFloat (s : List Char) : Option (Value × List Char) :=
  let (negative, t) := optionalSign s
  match decimalDigits t with
  | none => none
  | some (whole, u) =>
    match fraction u with
    | none => none
    | some (frac, v) =>
      match exponent v with
      | none => none
      | some (power, rest) =>
        if rest.length = u.length then none
        else if !negative && isHuge (decimalValue (whole ++ frac)) (power - frac.length) then none
        else some (.float, rest)

/-- Reads a word that names a float, after its sign. -/
def namedFloat : List Char → Option (Value × List Char)
  | 'i' :: 'n' :: 'f' :: rest => some (.float, rest)
  | 'n' :: 'a' :: 'n' :: rest => some (.float, rest)
  | _ => none

/-- Reads a float. -/
def float (s : List Char) : Option (Value × List Char) :=
  (digitFloat s).or (namedFloat (optionalSign s).2)

/-! ## §4 Date-times -/

/-- Reads exactly so many digits. -/
def fixedDigits (count : Nat) (s : List Char) : Option (Nat × List Char) :=
  let ds := s.take count
  if ds.length = count ∧ ds.all Char.isDigit then some (decimalValue ds, s.drop count) else none

/-- The number of days of a month. -/
def daysIn (year month : Nat) : Nat :=
  if month = 2 then
    if year % 4 = 0 ∧ (year % 100 ≠ 0 ∨ year % 400 = 0) then 29 else 28
  else if month = 4 ∨ month = 6 ∨ month = 9 ∨ month = 11 then 30
  else 31

/-- Reads a date. -/
def date (s : List Char) : Option (List Char) := do
  let (year, s) ← fixedDigits 4 s
  let s ← expect '-' s
  let (month, s) ← fixedDigits 2 s
  let s ← expect '-' s
  let (day, s) ← fixedDigits 2 s
  if 1 ≤ month ∧ month ≤ 12 ∧ 1 ≤ day ∧ day ≤ daysIn year month then some s else none

/-- Reads hours and minutes. -/
def hoursMinutes (s : List Char) : Option (List Char) := do
  let (hour, s) ← fixedDigits 2 s
  let s ← expect ':' s
  let (minute, s) ← fixedDigits 2 s
  if hour ≤ 23 ∧ minute ≤ 59 then some s else none

/-- Reads a point and digits, if there is a point. -/
def secondFraction (s : List Char) : Option (List Char) :=
  match s with
  | '.' :: rest =>
    match rest with
    | [] => none
    | c :: _ => if c.isDigit then some (rest.dropWhile Char.isDigit) else none
  | _ => some s

/-- Reads a time. -/
def time (s : List Char) : Option (List Char) := do
  let s ← hoursMinutes s
  let s ← expect ':' s
  let (second, s) ← fixedDigits 2 s
  if second ≤ 60 then secondFraction s else none

/-- Reads an offset from the universal time, if there is one. -/
def offset (s : List Char) : Option (List Char) :=
  match s with
  | [] => some []
  | c :: rest =>
    if c = 'Z' ∨ c = 'z' then some rest
    else if c = '+' ∨ c = '-' then hoursMinutes rest
    else some s

/-- Reads the time and the offset after a date, if there are any. -/
def timeAfterDate (s : List Char) : Option (List Char) :=
  match s with
  | [] => some []
  | c :: rest =>
    if c = 'T' ∨ c = 't' ∨ c = ' ' then
      match time rest with
      | none => some s
      | some t => offset t
    else some s

/-- Reads a date, a time, or a date and a time. -/
def dateTime (s : List Char) : Option (Value × List Char) :=
  match date s with
  | some t => (timeAfterDate t).map fun rest => (.dateTime, rest)
  | none => (time s).map fun rest => (.dateTime, rest)

/-- Reads a number or a date-time. -/
def numeral (s : List Char) : Option (Value × List Char) :=
  ((dateTime s).or (float s)).or (integer s)

end Handoff.Toml
