/-
Handoff.Json.Value — JSON values and how they are read.

`scalar` reads a value that holds no other value; where an array or an object stands instead, that
is a mismatch which is found at its first character. `value` reads any value in which at most
`depth` arrays and objects stand inside each other. With as much depth as there are characters any
value is read: this is how a value is dropped (`skip`).
-/
import Handoff.Json.Numeral

namespace Handoff.Json

/-- A JSON value. The members of an object are in the order of the text, repeated ones included. -/
inductive Value where
  | null
  | bool (b : Bool)
  | number (n : Numeral)
  | string (s : String)
  | array (elements : List Value)
  | object (members : List (String × Value))

/-- The word that a text starts with, without its first letter, and what it stands for. -/
def wordAt (c : Char) : Option (List Char × Value) :=
  if c = 'n' then some (['u', 'l', 'l'], .null)
  else if c = 't' then some (['r', 'u', 'e'], .bool true)
  else if c = 'f' then some (['a', 'l', 's', 'e'], .bool false)
  else none

/-- Reads a scalar from a text without blanks at its front; an array or object is a mismatch. -/
def scalarFrom (care : Care) : Reader Value
  | [] => .error .truncated
  | c :: rest =>
    if c = '"' then
      match string care rest with
      | .error f => .error f
      | .ok (s, t) => .ok (.string s, t)
    else if c = '-' ∨ c.isDigit then
      match Numeral.read care (c :: rest) with
      | .error f => .error f
      | .ok (n, t) => .ok (.number n, t)
    else if c = '[' ∨ c = '{' then .error .mismatched
    else match wordAt c with
      | none => .error .malformed
      | some (letters, v) =>
        match literal letters rest with
        | .error f => .error f
        | .ok t => .ok (v, t)

/-- Reads a scalar that is kept. -/
def scalar (s : List Char) : Except Fault (Value × List Char) := scalarFrom .keep (skipBlanks s)

/-- Reads the next element of an array and puts it before those read so far. -/
def collectElement (element : Reader Value) (read : List Value) : Reader (List Value) := fun s =>
  match element s with
  | .error f => .error f
  | .ok (v, t) => .ok (v :: read, t)

/-- Reads the next member of an object and puts it before those read so far. -/
def collectMember (care : Care) (element : Reader Value) (read : List (String × Value)) :
    Reader (List (String × Value)) := fun s =>
  match string care s with
  | .error f => .error f
  | .ok (name, t) =>
    match colon t with
    | .error f => .error f
    | .ok u =>
      match element u with
      | .error f => .error f
      | .ok (v, w) => .ok ((name, v) :: read, w)

/-- Reads a value in which at most `depth` arrays and objects stand inside each other. -/
def value (care : Care) (limit depth : Nat) (s : List Char) : Except Fault (Value × List Char) :=
  match skipBlanks s with
  | [] => .error .truncated
  | c :: rest =>
    if c = '[' then
      match depth with
      | 0 => .error .malformed
      | depth + 1 =>
        match foldElements limit (collectElement (fun t => value care limit depth t)) true [] rest with
        | .error f => .error f
        | .ok (vs, t) => .ok (.array vs.reverse, t)
    else if c = '{' then
      match depth with
      | 0 => .error .malformed
      | depth + 1 =>
        match foldMembers limit (collectMember care (fun t => value care limit depth t)) [] rest with
        | .error f => .error f
        | .ok (ms, t) => .ok (.object ms.reverse, t)
    else scalarFrom care (c :: rest)

/-- Reads a value of any depth and drops it. -/
def skip (limit : Nat) (s : List Char) : Except Fault (List Char) :=
  match value .drop limit limit s with
  | .error f => .error f
  | .ok (_, rest) => .ok rest

end Handoff.Json
