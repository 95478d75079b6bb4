/-
Handoff.Text.Lines — bytes cut into lines.

A line ends after its line feed; the last line may lack one. Nothing is lost: the lines put together
are the bytes.
-/

namespace Handoff.Text

/-- The byte that ends a line. -/
def lineFeed : UInt8 := 10

/-- The byte that may stand before it. -/
def carriageReturn : UInt8 := 13

/-- Bytes cut after each line feed; `current` holds the bytes of the line so far, last first. -/
def cutFrom (current : List UInt8) : List UInt8 → List (List UInt8)
  | [] => if current.isEmpty then [] else [current.reverse]
  | b :: rest =>
    if b = lineFeed then (b :: current).reverse :: cutFrom [] rest else cutFrom (b :: current) rest

/-- The lines of bytes, each with its line feed. -/
def cutLines (bytes : List UInt8) : List (List UInt8) := cutFrom [] bytes

/-- A line without its line feed and the carriage return before it. -/
def withoutEnd (line : List UInt8) : List UInt8 :=
  match line.reverse with
  | a :: b :: rest =>
    if a = lineFeed then (if b = carriageReturn then rest else b :: rest).reverse else line
  | [a] => if a = lineFeed then [] else line
  | [] => []

end Handoff.Text
