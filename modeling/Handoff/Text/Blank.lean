/-
Handoff.Text.Blank — white space of all scripts.

A character is blank if it has the property White_Space of the Unicode standard.
-/

namespace Handoff.Text

/-- Whether a character is white space. -/
def isBlank (c : Char) : Bool :=
  let n := c.toNat
  (0x9 ≤ n && n ≤ 0xD) || n == 0x20 || n == 0x85 || n == 0xA0 || n == 0x1680 ||
    (0x2000 ≤ n && n ≤ 0x200A) || n == 0x2028 || n == 0x2029 || n == 0x202F || n == 0x205F ||
    n == 0x3000

/-- Characters without the blanks at their end. -/
def trimEnd (s : List Char) : List Char := (s.reverse.dropWhile isBlank).reverse

/-- Characters without the blanks at their front. -/
def trimStart (s : List Char) : List Char := s.dropWhile isBlank

/-- Characters without the blanks at both ends. -/
def trim (s : List Char) : List Char := trimEnd (trimStart s)

end Handoff.Text
