/-
Handoff.Settings.Document — settings as a TOML document.

The document holds the keys `otel_endpoint` and `log_level` and the table `queue`. What is missing
has its standard value; unknown keys do not matter. The queue may be given as an array instead of a
table: its values are then taken in the order name, initial capacity, ceiling, poll interval.

`ofFile` reads a document, and `ofEntries` what was found in it; `document?` writes one. Not all
settings can be written, as an integer of a document is a signed 64-bit one.
-/
import Handoff.Settings
import Handoff.Text.Utf8
import Handoff.Toml.Document
import Handoff.Toml.Printed

namespace Handoff

/-! ## §1 Reading -/

namespace Toml.Value

/-- The text that a value is. -/
def text? : Value → Option String
  | .string s => some s
  | _ => none

/-- The number that a value is. -/
def natural? : Value → Option Nat
  | .integer n => if 0 ≤ n then some n.toNat else none
  | _ => none

end Toml.Value

/-- What a field says: a value that is there must be of the right kind, and one that is not has the
standard value. -/
def fieldOr {α : Type} (kind : Toml.Value → Option α) (standard : α) :
    Option Toml.Value → Option α
  | none => some standard
  | some v => kind v

namespace QueueSettings

/-- The settings of a queue with these fields. -/
def ofFields (name initial max poll : Option Toml.Value) : Option QueueSettings := do
  let name ← fieldOr (·.text?) standard.name name
  let initialCapacity ← fieldOr (·.natural?) standard.initialCapacity initial
  let maxCapacity ← fieldOr (·.natural?.map some) standard.maxCapacity max
  let pollInterval ← fieldOr (·.natural?) standard.pollInterval poll
  return { name, initialCapacity, maxCapacity, pollInterval }

/-- The settings of a queue that a value is. -/
def ofValue : Toml.Value → Option QueueSettings
  | .table _ es =>
    ofFields (es.lookup "name") (es.lookup "initial_capacity") (es.lookup "max_capacity")
      (es.lookup "poll_interval_ms")
  | .array vs => ofFields vs[0]? vs[1]? vs[2]? vs[3]?
  | _ => none

end QueueSettings

namespace Settings

/-- The settings that the table of a document is. -/
def ofEntries (es : Toml.Entries) : Option Settings := do
  let endpoint ← fieldOr (·.text?.map some) standard.endpoint (es.find? "otel_endpoint")
  let logLevel ← fieldOr (·.text?) standard.logLevel (es.find? "log_level")
  let queue ← fieldOr QueueSettings.ofValue standard.queue (es.find? "queue")
  return { endpoint, logLevel, queue }

/-- Why a file could not be read. -/
inductive ReadFault where
  | missing
  | isDirectory
  | notDirectory
  | nameTooLong
  | notText
  deriving DecidableEq, Repr

/-- The text that describes the fault. -/
def ReadFault.message : ReadFault → String
  | .missing => "No such file or directory (os error 2)"
  | .isDirectory => "Is a directory (os error 21)"
  | .notDirectory => "Not a directory (os error 20)"
  | .nameTooLong => "File name too long (os error 36)"
  | .notText => "stream did not contain valid UTF-8"

/-- The characters of a file. -/
def fileChars (file : Except ReadFault (List UInt8)) : Except ReadFault (List Char) :=
  match file with
  | .error fault => .error fault
  | .ok bytes =>
    match Text.decodeUtf8 bytes with
    | .error _ => .error .notText
    | .ok cs => .ok cs

/-- The settings in a file, which are checked; `path` is how the file is called in an error. -/
def ofFile (path : String) (file : Except ReadFault (List UInt8)) : Except Error Settings :=
  match fileChars file with
  | .error fault => .error (.config (.unreadable path fault.message))
  | .ok cs =>
    match (Toml.parse cs).bind ofEntries with
    | none => .error (.config (.badFile path))
    | some settings => settings.validated

/-! ## §2 Writing -/

/-- A line that gives a key a text. -/
def textLine (key value : String) : List Char :=
  key.toList ++ [' ', '=', ' '] ++ Toml.stringChars value ++ ['\n']

/-- A line that gives a key a number. -/
def numberLine (key : String) (value : Nat) : List Char :=
  key.toList ++ [' ', '=', ' '] ++ Nat.toDigits 10 value ++ ['\n']

/-- A line for a value that may be missing. -/
def optionalLine {α : Type} (line : α → List Char) : Option α → List Char
  | none => []
  | some a => line a

/-- The characters of the document. -/
def documentChars (s : Settings) : List Char :=
  optionalLine (textLine "otel_endpoint") s.endpoint ++
    textLine "log_level" s.logLevel ++
    ['\n'] ++ "[queue]".toList ++ ['\n'] ++
    textLine "name" s.queue.name ++
    numberLine "initial_capacity" s.queue.initialCapacity ++
    optionalLine (numberLine "max_capacity") s.queue.maxCapacity ++
    numberLine "poll_interval_ms" s.queue.pollInterval

/-- The least number that a document cannot hold. -/
def integerLimit : Nat := Nat.pow 2 63

/-- Whether a document can hold the numbers of the settings. -/
def isWritable (s : Settings) : Bool :=
  s.queue.initialCapacity < integerLimit && s.queue.maxCapacity.all (· < integerLimit) &&
    s.queue.pollInterval < integerLimit

/-- The document, if it can hold the settings. -/
def document? (s : Settings) : Option String :=
  if s.isWritable then some (String.ofList s.documentChars) else none

end Settings

end Handoff
