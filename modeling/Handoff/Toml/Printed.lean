/-
Handoff.Toml.Printed — how a text is written as a TOML string.

There are four ways to write a string: between double or single quotes, on one line or on several.
Single quotes take everything as it is; between double quotes backslashes, some quotes and control
characters are escaped. `style` chooses the first way that needs no escape, if there is one.
-/

namespace Handoff.Toml

/-! ## §1 Styles -/

/-- The four ways to write a string. -/
inductive Style where
  | basic
  | literal
  | basicLines
  | literalLines
  deriving DecidableEq, Repr

/-- Whether a character can only be written with an escape: a control character other than a tab or
a line break. -/
def isControl (c : Char) : Bool := (c < ' ' && c != '\t' && c != '\n') || c == '\x7f'

/-- The length of the longest run of a character; `current` is the length of the run before. -/
def longestRun (quote : Char) (current : Nat) : List Char → Nat
  | [] => current
  | c :: rest =>
    if c = quote then longestRun quote (current + 1) rest
    else max current (longestRun quote 0 rest)

/-- The way in which a text is written. -/
def style (s : List Char) : Style :=
  let plain := !s.any isControl
  if plain && !s.contains '\\' && !s.contains '"' && !s.contains '\n' then .basic
  else if plain && !s.contains '\'' && !s.contains '\n' then .literal
  else if plain && !s.contains '\\' && longestRun '"' 0 s < 3 then .basicLines
  else if plain && longestRun '\'' 0 s < 3 then .literalLines
  else if s.contains '\n' then .basicLines
  else .basic

/-! ## §2 Writing -/

/-- A digit in hexadecimal, with capital letters. -/
def hexDigit (n : Nat) : Char := if n < 10 then Char.ofNat (48 + n) else Char.ofNat (55 + n)

/-- A character between double quotes, quotes apart. -/
def basicChar (c : Char) : List Char :=
  if c = '\x08' then ['\\', 'b']
  else if c = '\t' then ['\\', 't']
  else if c = '\x0c' then ['\\', 'f']
  else if c = '\r' then ['\\', 'r']
  else if c = '\\' then ['\\', '\\']
  else if isControl c then
    ['\\', 'u', '0', '0', hexDigit (c.toNat / 16), hexDigit (c.toNat % 16)]
  else [c]

/-- Characters between double quotes. Of quotes that stand side by side at most `allowed` are written
as they are before one is escaped, which starts the count anew; `run` were written just before. -/
def basicChars (allowed run : Nat) : List Char → List Char
  | [] => []
  | c :: rest =>
    if c = '"' then
      if run < allowed then '"' :: basicChars allowed (run + 1) rest
      else '\\' :: '"' :: basicChars allowed 0 rest
    else basicChar c ++ basicChars allowed 0 rest

/-- The line break after the opening quotes of a string on several lines. -/
def leadingBreak (s : List Char) : List Char := if s.contains '\n' then ['\n'] else []

/-- A text written in one of the four ways. -/
def write (s : List Char) : Style → List Char
  | .basic => '"' :: basicChars 0 0 s ++ ['"']
  | .literal => '\'' :: s ++ ['\'']
  | .basicLines => ['"', '"', '"'] ++ leadingBreak s ++ basicChars 2 0 s ++ ['"', '"', '"']
  | .literalLines => ['\'', '\'', '\''] ++ leadingBreak s ++ s ++ ['\'', '\'', '\'']

/-- A text written as a string. -/
def stringChars (s : String) : List Char := write s.toList (style s.toList)

end Handoff.Toml
