/-
Handoff.Toml.Value — the values of a TOML document, and how a document is built up.

A document names the places of its values by paths of keys, and the order of its lines matters: a
table may be opened only once by a header, a dotted key may only add to tables that dotted keys or
longer headers brought about, and nothing may be added to a value. `Origin` records with each table
how it came about, and `within` decides from that which steps of a path are open.

The values of floats and date-times are not kept: no setting is one.
-/

namespace Handoff.Toml

/-! ## §1 Values -/

/-- How a table came about. -/
inductive Origin where
  /-- By a header of its own, or as the whole document. -/
  | header
  /-- As a step on the way of a longer header. -/
  | implied
  /-- As a step of a dotted key. -/
  | dotted
  /-- As a value between braces. -/
  | inline
  deriving DecidableEq, Repr

/-- A value. Keys stand in the order in which they came. -/
inductive Value where
  | string (s : String)
  | integer (n : Int)
  | float
  | boolean (b : Bool)
  | dateTime
  | array (elements : List Value)
  | table (origin : Origin) (entries : List (String × Value))
  /-- Tables opened one after the other by double-bracketed headers, newest first. -/
  | tables (newestFirst : List (List (String × Value)))

/-- The keys of a table with their values. -/
abbrev Entries := List (String × Value)

namespace Entries

/-- The value of a key. -/
def find? (es : Entries) (key : String) : Option Value := List.lookup key es

/-- The entries with another value for a key that they hold. -/
def replace (es : Entries) (key : String) (v : Value) : Entries :=
  es.map fun e => if e.1 = key then (key, v) else e

/-- The entries with a key that they do not hold yet. -/
def add (es : Entries) (key : String) (v : Value) : Entries := es ++ [(key, v)]

/-! ## §2 Paths -/

/-- How a path is given: by a header, or by a dotted key. -/
inductive Route where
  | header
  | dotted
  deriving DecidableEq, Repr

/-- What the tables are that a path brings about. -/
def Route.origin : Route → Origin
  | .header => .implied
  | .dotted => .dotted

/-- Whether a path may lead through a table. -/
def Route.mayEnter (route : Route) (origin : Origin) : Bool :=
  origin != .inline && !(route == .dotted && origin == .header)

/-- Changes the table at the end of a path; `change` is given how that table came about. Tables that
are missing on the way are brought about; of tables in a row the newest is meant. -/
def within (route : Route) (change : Origin → Entries → Option Entries) :
    List String → Origin → Entries → Option Entries
  | [], origin, es => change origin es
  | key :: path, _, es =>
    match es.find? key with
    | none =>
      match within route change path route.origin [] with
      | none => none
      | some inner => some (es.add key (.table route.origin inner))
    | some (.table origin old) =>
      if route.mayEnter origin then
        match within route change path origin old with
        | none => none
        | some inner => some (es.replace key (.table origin inner))
      else none
    | some (.tables (newest :: older)) =>
      match within route change path .header newest with
      | none => none
      | some inner => some (es.replace key (.tables (inner :: older)))
    | some _ => none

/-! ## §3 What a line does -/

/-- Gives a new key a value. A table that a dotted key leads to must itself be dotted, and one that a
plain key is in must not. -/
def put (dotted : Bool) (key : String) (v : Value) (origin : Origin) (es : Entries) :
    Option Entries :=
  if dotted ≠ (origin == .dotted) then none
  else if (es.find? key).isSome then none
  else some (es.add key v)

/-- Gives a value to the key at the end of a path of keys. -/
def assign (es : Entries) (origin : Origin) (path : List String) (key : String) (v : Value) :
    Option Entries :=
  within .dotted (put (!path.isEmpty) key v) path origin es

/-- Opens a table: a new one, or one that was only implied so far. -/
def openTable (key : String) (_ : Origin) (es : Entries) : Option Entries :=
  match es.find? key with
  | none => some (es.add key (.table .header []))
  | some (.table .implied old) => some (es.replace key (.table .header old))
  | some _ => none

/-- Opens another table in a row of tables. -/
def openNext (key : String) (_ : Origin) (es : Entries) : Option Entries :=
  match es.find? key with
  | none => some (es.add key (.tables [[]]))
  | some (.tables older) => some (es.replace key (.tables ([] :: older)))
  | some _ => none

end Entries

end Handoff.Toml
