/-
Handoff.Toml.Document — a TOML document, from its text to its table.

The text is read as statements, each on a line of its own: headers that open a table, and keys with
their values. The statements are then carried out in order.

  §1 values        — `value`
  §2 statements    — `Statement`, `statements`
  §3 documents     — `build`, `parse`
-/
import Handoff.Toml.Numeral

namespace Handoff.Toml

/-! ## §1 Values -/

/-- Reads the elements of an array after its bracket or a comma, up to and with the end; `element`
reads one. -/
def elements (element : Reader Value) : Nat → Reader (List Value)
  | 0, _ => none
  | limit + 1, s =>
    match trivia false s with
    | none => none
    | some (']' :: rest) => some ([], rest)
    | some t =>
      match element t with
      | none => none
      | some (v, u) =>
        match trivia false u with
        | some (']' :: rest) => some ([v], rest)
        | some (',' :: w) =>
          match elements element limit w with
          | none => none
          | some (vs, rest) => some (v :: vs, rest)
        | _ => none

/-- Reads a path of keys and the equals sign after it. -/
def assignee (limit : Nat) (s : List Char) : Option (List String × List Char) :=
  match keyPath limit maxDepth s with
  | none => none
  | some (path, t) =>
    match expect '=' t with
    | none => none
    | some u => some (path, skipBlanks u)

/-- Reads a path of keys with its value. -/
def pair (limit : Nat) (element : Reader Value) (s : List Char) :
    Option ((List String × Value) × List Char) :=
  match assignee limit s with
  | none => none
  | some (path, t) =>
    match element t with
    | none => none
    | some (v, rest) => some ((path, v), rest)

/-- Reads at most `count` pairs of a table between braces, up to and with its end; there is at least
one. -/
def pairs (limit : Nat) (element : Reader Value) : Nat → Reader (List (List String × Value))
  | 0, _ => none
  | count + 1, s =>
    match pair limit element s with
    | none => none
    | some (p, t) =>
      match skipBlanks t with
      | '}' :: rest => some ([p], rest)
      | ',' :: u =>
        match pairs limit element count u with
        | none => none
        | some (ps, rest) => some (p :: ps, rest)
      | _ => none

/-- Gives values to the keys at the ends of paths, one after the other. -/
def assignAll (origin : Origin) : Entries → List (List String × Value) → Option Entries
  | es, [] => some es
  | es, (path, v) :: rest =>
    match path.getLast? with
    | none => none
    | some key =>
      match es.assign origin path.dropLast key v with
      | none => none
      | some more => assignAll origin more rest

/-- Reads a table after its opening brace. -/
def inlineTable (limit : Nat) (element : Reader Value) (s : List Char) : Option (Value × List Char) :=
  match skipBlanks s with
  | '}' :: rest => some (.table .inline [], rest)
  | _ =>
    match pairs limit element limit s with
    | none => none
    | some (ps, rest) =>
      match assignAll .inline [] ps with
      | none => none
      | some es => some (.table .inline es, rest)

/-- Reads a value that holds no other. -/
def scalar (limit : Nat) (s : List Char) : Option (Value × List Char) :=
  match s with
  | 't' :: 'r' :: 'u' :: 'e' :: rest => some (.boolean true, rest)
  | 'f' :: 'a' :: 'l' :: 's' :: 'e' :: rest => some (.boolean false, rest)
  | c :: _ =>
    if c = '"' ∨ c = '\'' then (anyString limit s).map fun (text, rest) => (.string text, rest)
    else numeral s
  | [] => none

/-- Reads a value in which at most `depth` arrays and tables stand inside each other. -/
def value (limit depth : Nat) (s : List Char) : Option (Value × List Char) :=
  match s with
  | [] => none
  | c :: rest =>
    if c = '[' then
      match depth with
      | 0 => none
      | depth + 1 => (elements (fun t => value limit depth t) limit rest).map fun (vs, t) => (.array vs, t)
    else if c = '{' then
      match depth with
      | 0 => none
      | depth + 1 => inlineTable limit (fun t => value limit depth t) rest
    else scalar limit s

/-! ## §2 Statements -/

/-- What one line of a document says. -/
inductive Statement where
  /-- Opens a table. -/
  | table (path : List String)
  /-- Opens another table in a row of tables. -/
  | nextTable (path : List String)
  /-- Gives a key a value. -/
  | assign (path : List String) (value : Value)

/-- Reads a path and the brackets that end a header. -/
def headerPath (limit : Nat) (brackets : List Char) (s : List Char) :
    Option (List String × List Char) :=
  match keyPath limit maxDepth s with
  | none => none
  | some (path, t) =>
    if t.take brackets.length = brackets then some (path, t.drop brackets.length) else none

/-- Reads a statement, up to the end of its line. -/
def statement (limit : Nat) (s : List Char) : Option (Statement × List Char) :=
  match s with
  | '[' :: '[' :: rest => (headerPath limit [']', ']'] rest).map fun (path, t) => (.nextTable path, t)
  | '[' :: rest => (headerPath limit [']'] rest).map fun (path, t) => (.table path, t)
  | _ => (pair limit (value limit maxDepth) s).map fun ((path, v), t) => (.assign path v, t)

/-- Skips blanks, empty lines and lines that hold a comment only; here a comment may end with the
text. -/
def nextLine (inComment : Bool) : List Char → Option (List Char)
  | [] => some []
  | '\n' :: rest => nextLine false rest
  | '\r' :: '\n' :: rest => nextLine false rest
  | c :: rest =>
    if inComment then if isPlain c then nextLine true rest else none
    else if c = '#' then nextLine true rest
    else if isBlank c then nextLine false rest
    else some (c :: rest)

/-- Reads at most `count` statements, up to the end of the document. -/
def statements (limit : Nat) : Nat → List Char → Option (List Statement)
  | 0, _ => none
  | count + 1, s =>
    match nextLine false s with
    | none => none
    | some [] => some []
    | some t =>
      match statement limit t with
      | none => none
      | some (first, u) =>
        match endOfLine u with
        | none => none
        | some v => (statements limit count v).map (first :: ·)

/-! ## §3 Documents -/

/-- Changes the table that is open. -/
def inOpenTable (current : List String) (change : Origin → Entries → Option Entries)
    (es : Entries) : Option Entries :=
  es.within .header change current .header

/-- Carries out statements one after the other; `current` is the path of the table that is open. -/
def build : List String → Entries → List Statement → Option Entries
  | _, es, [] => some es
  | current, es, .assign path v :: rest =>
    match path.getLast? with
    | none => none
    | some key =>
      match inOpenTable current (fun origin inner => inner.assign origin path.dropLast key v) es with
      | none => none
      | some more => build current more rest
  | _, es, .table path :: rest =>
    match path.getLast? with
    | none => none
    | some key =>
      match inOpenTable path.dropLast (Entries.openTable key) es with
      | none => none
      | some more => build path more rest
  | _, es, .nextTable path :: rest =>
    match path.getLast? with
    | none => none
    | some key =>
      match inOpenTable path.dropLast (Entries.openNext key) es with
      | none => none
      | some more => build path more rest

/-- A text without a byte order mark at its front. -/
def withoutMark : List Char → List Char
  | '\uFEFF' :: rest => rest
  | s => s

/-- The table that a document is. -/
def parse (text : List Char) : Option Entries :=
  let s := withoutMark text
  match statements (s.length + 1) (s.length + 1) s with
  | none => none
  | some ss => build [] [] ss

end Handoff.Toml
