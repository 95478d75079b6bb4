/-
Handoff.EnvironmentFile — variables that a file adds to the environment.

A file holds one assignment a line; values between quotes may go over several lines. An assignment
sets its variable only if it is not set, so the environment goes before the file and an earlier line
before a later one. The file is read up to the first line with a fault; what was set before stays
set.

  §1 lines        — `joinLines`
  §2 values       — `readValue`
  §3 assignments  — `readAssignment`, `load`
-/
import Handoff.Settings.Environment
import Handoff.Text.Alphanumeric
import Handoff.Text.Lines

namespace Handoff.EnvironmentFile

/-! ## §1 Lines -/

/-- Where a line stands after some of its characters, as far as its end is concerned. -/
inductive LineState where
  | plain
  | blank
  | escaped
  | single
  | singleEscaped
  | double
  | doubleEscaped
  deriving DecidableEq, Repr

/-- What a character outside quotes leads to. -/
def outside (c : Char) : LineState :=
  if c = '\\' then .escaped
  else if c = '"' then .double
  else if c = '\'' then .single
  else .plain

/-- What a character leads to. -/
def LineState.next (state : LineState) (c : Char) : LineState :=
  match state with
  | .plain => if Text.isBlank c && c != '\n' && c != '\r' then .blank else outside c
  | .blank => outside c
  | .escaped => .plain
  | .single => if c = '\\' then .singleEscaped else if c = '\'' then .plain else .single
  | .singleEscaped => .single
  | .double => if c = '\\' then .doubleEscaped else if c = '"' then .plain else .double
  | .doubleEscaped => .double

/-- The characters up to a comment, and the state after them; there is none if a comment began. A
comment begins with a number sign after a blank. -/
def beforeComment : LineState → List Char → List Char × Option LineState
  | state, [] => ([], some state)
  | state, c :: rest =>
    if state = .blank ∧ c = '#' then ([], none)
    else
      let (kept, last) := beforeComment (state.next c) rest
      (c :: kept, last)

/-- A line without the line break at its end. -/
def withoutBreak (s : List Char) : List Char :=
  match s.reverse with
  | '\n' :: '\r' :: rest => rest.reverse
  | '\n' :: rest => rest.reverse
  | _ => s

/-- Joins lines inside quotes to the ones before them and cuts comments off. Lines after the first
that is no text are left out, and so is one whose quotes do not end; `held` is what is to be
continued. -/
def joinLines (held : List Char) (state : LineState) : List (List UInt8) → List (List Char)
  | [] => []
  | raw :: rest =>
    match Text.decodeUtf8 raw with
    | .error _ => []
    | .ok cs =>
      if (Text.trimStart (held ++ cs)).head? = some '#' then [] :: joinLines [] .plain rest
      else match beforeComment state cs with
        | (kept, none) => (held ++ kept) :: joinLines [] .plain rest
        | (_, some .plain) => withoutBreak (held ++ cs) :: joinLines [] .plain rest
        | (_, some further) => joinLines (held ++ cs) further rest

/-! ## §2 Values -/

/-- Where a value stands after some of its characters. `quoted` says whether double quotes are
open. -/
inductive ValueState where
  | plain (quoted : Bool)
  | single
  | escaped (quoted : Bool)
  /-- In the name of a variable after a dollar sign; its letters, last first. -/
  | name (quoted : Bool) (letters : List Char)
  /-- In the name of a variable between braces; its characters, last first. -/
  | braced (quoted : Bool) (letters : List Char)
  /-- After the value: only blanks and a comment may follow. -/
  | after
  deriving DecidableEq, Repr

/-- The value of the variable with these letters, last first. -/
def substitute (env : Environment) (letters : List Char) : List Char :=
  ((env.get? (String.ofList letters.reverse)).getD "").toList

/-- The character that one after a backslash stands for. -/
def unescape (c : Char) : Option Char :=
  if c = 'n' then some '\n'
  else if c = '\\' ∨ c = '\'' ∨ c = '"' ∨ c = '$' ∨ c = ' ' then some c
  else none

/-- Puts characters before what a reading of the rest gives. -/
def prepend (cs : List Char) : Option (List Char) → Option (List Char) := Option.map (cs ++ ·)

/-- Reads a value. -/
def readFrom (env : Environment) : ValueState → List Char → Option (List Char)
  | .plain quoted, [] => if quoted then none else some []
  | .single, [] => none
  | .escaped quoted, [] => if quoted then none else some []
  | .name quoted letters, [] => if quoted then none else some (substitute env letters)
  | .braced _ _, [] => none
  | .after, [] => some []
  | .after, c :: rest =>
    if c = ' ' ∨ c = '\t' then readFrom env .after rest
    else if c = '#' then some []
    else none
  | .escaped quoted, c :: rest =>
    match unescape c with
    | none => none
    | some d => prepend [d] (readFrom env (.plain quoted) rest)
  | .single, c :: rest =>
    if c = '\'' then readFrom env (.plain false) rest
    else prepend [c] (readFrom env .single rest)
  | .name quoted letters, c :: rest =>
    if Text.isAlphanumeric c then readFrom env (.name quoted (c :: letters)) rest
    else if c = '{' ∧ letters.isEmpty then readFrom env (.braced quoted []) rest
    else if c = '$' then prepend (substitute env letters) (readFrom env (.name quoted []) rest)
    else prepend (substitute env letters ++ [c]) (readFrom env (.plain quoted) rest)
  | .braced quoted letters, c :: rest =>
    if c = '}' then prepend (substitute env letters) (readFrom env (.plain quoted) rest)
    else readFrom env (.braced quoted (c :: letters)) rest
  | .plain quoted, c :: rest =>
    if c = '$' then readFrom env (.name quoted []) rest
    else if c = '\\' then readFrom env (.escaped quoted) rest
    else if c = '"' then readFrom env (.plain (!quoted)) rest
    else if quoted then prepend [c] (readFrom env (.plain quoted) rest)
    else if c = '\'' then readFrom env .single rest
    else if c = ' ' ∨ c = '\t' then readFrom env .after rest
    else prepend [c] (readFrom env (.plain quoted) rest)

/-- Reads the value after an equals sign. -/
def readValue (env : Environment) (s : List Char) : Option (List Char) :=
  if s.isEmpty ∨ s.head? = some '#' then some [] else readFrom env (.plain false) s

/-! ## §3 Assignments -/

/-- Whether a character stands in a name. -/
def isNameChar (c : Char) : Bool := c.isAlphanum || c == '_' || c == '.'

/-- Reads a name and the blanks after it. -/
def readName (s : List Char) : Option (List Char × List Char) :=
  match s with
  | [] => none
  | c :: _ =>
    if c.isAlpha || c == '_' then
      some (s.takeWhile isNameChar, Text.trimStart (s.dropWhile isNameChar))
    else none

/-- Reads an equals sign and the blanks after it. -/
def readEquals : List Char → Option (List Char)
  | [] => none
  | c :: rest => if c = '=' then some (Text.trimStart rest) else none

/-- Reads a name, which `export` may stand before, and the equals sign. -/
def readTarget (s : List Char) : Option (List Char × List Char) := do
  let (name, rest) ← readName s
  match readEquals rest with
  | some value => return (name, value)
  | none =>
    if name = "export".toList then
      let (name, rest) ← readName rest
      let value ← readEquals rest
      return (name, value)
    else none

/-- Reads an assignment: its variable and its value. A line without one is fine (`some none`), a line
with a fault is not. -/
def readAssignment (env : Environment) (line : List Char) :
    Option (Option (String × List Char)) :=
  let s := Text.trim line
  if s.isEmpty ∨ s.head? = some '#' then some none
  else do
    let (name, rest) ← readTarget s
    let value ← readValue env rest
    return some (String.ofList name, value)

/-- The bytes of characters. -/
def bytesOfChars (cs : List Char) : List UInt8 := cs.flatMap String.utf8EncodeChar

/-- Sets a variable unless it is set. -/
def setDefault (env : Environment) (name : String) (value : List Char) : Environment :=
  if (env.get? name).isSome then env else (name, bytesOfChars value) :: env

/-- The environment after the assignments of lines, up to the first with a fault. -/
def assignLines : Environment → List (List Char) → Environment
  | env, [] => env
  | env, line :: rest =>
    match readAssignment env line with
    | none => env
    | some none => assignLines env rest
    | some (some (name, value)) => assignLines (setDefault env name value) rest

/-- Bytes without a byte order mark at their front. -/
def withoutMark : List UInt8 → List UInt8
  | 0xEF :: 0xBB :: 0xBF :: rest => rest
  | bytes => bytes

/-- The environment with what a file adds to it, if there is a file. -/
def load (env : Environment) : Option (List UInt8) → Environment
  | none => env
  | some bytes => assignLines env (joinLines [] .plain (Text.cutLines (withoutMark bytes)))

end Handoff.EnvironmentFile
