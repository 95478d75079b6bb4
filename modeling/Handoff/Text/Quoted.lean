/-
Handoff.Text.Quoted — text between double quotes, as a developer sees it.

Quotes and backslashes are written with a backslash, the common control characters by a letter, and
every other character that does not show by itself by its number in hexadecimal.
-/
import Handoff.Text.Unprintable

namespace Handoff.Text

/-- The digits of a number in hexadecimal, in small letters. -/
def hexDigits (n : Nat) : String := String.ofList (Nat.toDigits 16 n)

/-- One character between double quotes. -/
def quotedChar (c : Char) : String :=
  if c = '"' then "\\\""
  else if c = '\\' then "\\\\"
  else if c = '\t' then "\\t"
  else if c = '\n' then "\\n"
  else if c = '\r' then "\\r"
  else if c = '\x00' then "\\0"
  else if isUnprintable c then "\\u\x7b" ++ hexDigits c.toNat ++ "\x7d"
  else String.singleton c

/-- A text between double quotes. -/
def quoted (s : String) : String := "\"" ++ String.join (s.toList.map quotedChar) ++ "\""

end Handoff.Text
