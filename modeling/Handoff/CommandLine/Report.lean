/-
Handoff.CommandLine.Report — what the program prints at the end of a load.

The figures are printed as lines of a label and a value, or as JSON with sorted keys, indented by two
spaces.
-/
import Handoff.Consumer
import Handoff.Queue.Basic

namespace Handoff.CommandLine

/-- The figures of a load. -/
structure Figures where
  queue : QueueStats
  consumer : Report
  payloadBytes : UInt64
  deriving DecidableEq, Repr

/-- A line of a label, padded to twelve places, and a value. -/
def labelled (label value : String) : String :=
  label ++ ":" ++ "".pushn ' ' (11 - label.length) ++ value ++ "\n"

/-- The figures as lines. -/
def Figures.lines (f : Figures) : String :=
  labelled "Queue" f.queue.name ++
    labelled "Capacity" (toString f.queue.capacity) ++
    labelled "Count" (toString f.queue.count) ++
    labelled "Pushed" (toString f.queue.pushed) ++
    labelled "Popped" (toString f.queue.popped) ++
    labelled "Grows" (toString f.queue.grows) ++
    labelled "Processed" (toString f.consumer.processed) ++
    labelled "Failed" (toString f.consumer.failed) ++
    labelled "Bytes" (toString f.payloadBytes)

/-- A character of a JSON string. -/
def jsonChar (c : Char) : String :=
  if c = '"' then "\\\""
  else if c = '\\' then "\\\\"
  else if c = '\x08' then "\\b"
  else if c = '\t' then "\\t"
  else if c = '\n' then "\\n"
  else if c = '\x0c' then "\\f"
  else if c = '\r' then "\\r"
  else if c < ' ' then
    "\\u00" ++ (if c.toNat < 16 then "0" else "") ++ String.ofList (Nat.toDigits 16 c.toNat)
  else String.singleton c

/-- A text as a JSON string. -/
def jsonString (s : String) : String := "\"" ++ String.join (s.toList.map jsonChar) ++ "\""

/-- The lines of a JSON object at a depth; values are given as they are written. -/
def jsonObject (depth : Nat) (members : List (String × String)) : String :=
  let indent := "".pushn ' ' (2 * depth)
  "\x7b\n" ++
    ",\n".intercalate (members.map fun m => indent ++ "  " ++ jsonString m.1 ++ ": " ++ m.2) ++
    "\n" ++ indent ++ "\x7d"

/-- The figures as JSON. -/
def Figures.json (f : Figures) : String :=
  jsonObject 0
    [("consumer", jsonObject 1
        [("failed", toString f.consumer.failed), ("processed", toString f.consumer.processed),
          ("stopped_by", jsonString f.consumer.stoppedBy.word)]),
      ("payload_bytes", toString f.payloadBytes),
      ("queue", jsonObject 1
        [("capacity", toString f.queue.capacity), ("count", toString f.queue.count),
          ("grows", toString f.queue.grows), ("name", jsonString f.queue.name),
          ("popped", toString f.queue.popped), ("pushed", toString f.queue.pushed)])] ++ "\n"

end Handoff.CommandLine
