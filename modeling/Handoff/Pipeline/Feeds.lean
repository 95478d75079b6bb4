/-
Handoff.Pipeline.Feeds — what the pipelines of the program carry.

A load is pushed by producers that each have the same number of items; an item's tag is its number
among all items, producer after producer, and its payload names it. The lines of a text are pushed by
one producer; the tag of a line is its number, and its payload the bytes of the line.
-/
import Handoff.Pipeline.Basic
import Handoff.Text.Lines
import Handoff.Text.Utf8

namespace Handoff

/-! ## §1 Loads -/

/-- The bytes of an ASCII text. -/
def asciiBytes (s : String) : List UInt8 := s.toList.map fun c => UInt8.ofNat c.toNat

/-- The item of a load that a producer pushes at a place, when each pushes `items`. -/
def loadItem (items producer index : Nat) : WorkItem where
  tag := UInt64.ofNat (producer * items + index)
  payload := asciiBytes s!"producer-{producer}-item-{index}"

/-- What each producer of a load pushes. -/
def loadFeed (items producer : Nat) : Feed where
  size := items
  message index := .data (loadItem items producer index)

/-- A load. -/
def loadFeeds (producers items : Nat) : List Feed := (List.range producers).map (loadFeed items)

/-! ## §2 Lines -/

/-- The lines of a text up to the first that is no text, and what is wrong with that one. -/
def readLines : List (List UInt8) → List (List UInt8) × Option Text.Utf8Fault
  | [] => ([], none)
  | line :: rest =>
    match Text.decodeUtf8 line with
    | .error fault => ([], some fault)
    | .ok _ =>
      let (lines, fault) := readLines rest
      (Text.withoutEnd line :: lines, fault)

/-- What the producer of lines pushes. -/
def lineFeedOf (lines : Array (List UInt8)) : Feed where
  size := lines.size
  message index := .data ⟨UInt64.ofNat index, lines.getD index []⟩

end Handoff
