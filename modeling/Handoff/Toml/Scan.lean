/-
Handoff.Toml.Scan — blanks, comments, strings and keys of TOML text.

A reader takes the characters that are left and returns what it read with those that are left then,
or nothing if the text does not fit. Where a reader goes round, it takes a `limit` on how often; the
length of the whole text is enough for each of them.

  §1 characters           — which characters may stand where
  §2 blanks and lines     — `skipBlanks`, `trivia`, `endOfLine`
  §3 strings              — `body` and the four kinds
  §4 keys                 — `simpleKey`, `keyPath`
-/

namespace Handoff.Toml

/-- Reads a value from the front of a text. -/
abbrev Reader (α : Type) := List Char → Option (α × List Char)

/-! ## §1 Characters -/

/-- Whether a character is a blank within a line. -/
def isBlank (c : Char) : Bool := c == ' ' || c == '\t'

/-- Whether a character shows or is a tab: these stand in comments and strings. -/
def isPlain (c : Char) : Bool := (c == '\t' || ' ' ≤ c) && c != '\x7f'

/-- Whether a character stands for itself between double quotes. -/
def isBasic (c : Char) : Bool := isPlain c && c != '"' && c != '\\'

/-- Whether a character stands for itself between single quotes. -/
def isLiteral (c : Char) : Bool := isPlain c && c != '\''

/-- Whether a character stands in a key without quotes. -/
def isBare (c : Char) : Bool := c.isAlphanum || c == '_' || c == '-'

/-! ## §2 Blanks and lines -/

/-- What is left after the blanks at the front. -/
def skipBlanks (s : List Char) : List Char := s.dropWhile isBlank

/-- Reads a line break. -/
def lineBreak : List Char → Option (List Char)
  | '\n' :: rest => some rest
  | '\r' :: '\n' :: rest => some rest
  | _ => none

/-- Skips blanks, line breaks and comments. A comment must end with a line break; `inComment` says
whether one has begun. -/
def trivia : Bool → List Char → Option (List Char)
  | true, [] => none
  | false, [] => some []
  | true, '\n' :: rest => trivia false rest
  | true, '\r' :: '\n' :: rest => trivia false rest
  | true, c :: rest => if isPlain c then trivia true rest else none
  | false, '\n' :: rest => trivia false rest
  | false, '\r' :: '\n' :: rest => trivia false rest
  | false, '#' :: rest => trivia true rest
  | false, c :: rest => if isBlank c then trivia false rest else some (c :: rest)

/-- What is left of the line at the front after a comment, if there is one. -/
def skipComment (s : List Char) : List Char :=
  match s with
  | '#' :: rest => rest.dropWhile isPlain
  | _ => s

/-- Reads the end of a line: blanks, perhaps a comment, and a line break or the end of the text. -/
def endOfLine (s : List Char) : Option (List Char) :=
  match skipComment (skipBlanks s) with
  | [] => some []
  | rest => lineBreak rest

/-- Reads a character that must come next. -/
def expect (c : Char) : List Char → Option (List Char)
  | [] => none
  | d :: rest => if d = c then some rest else none

/-! ## §3 Strings -/

/-- The value of a hexadecimal digit. -/
def hexValue (c : Char) : Option Nat :=
  if '0' ≤ c ∧ c ≤ '9' then some (c.toNat - '0'.toNat)
  else if 'a' ≤ c ∧ c ≤ 'f' then some (c.toNat - 'a'.toNat + 10)
  else if 'A' ≤ c ∧ c ≤ 'F' then some (c.toNat - 'A'.toNat + 10)
  else none

/-- Reads exactly so many hexadecimal digits, the first of which follows those that `n` is the value
of. -/
def hexDigits : Nat → Nat → Reader Nat
  | 0, n, s => some (n, s)
  | _ + 1, _, [] => none
  | count + 1, n, c :: rest =>
    match hexValue c with
    | none => none
    | some d => hexDigits count (n * 16 + d) rest

/-- Reads the number of a character in so many digits. -/
def numbered (count : Nat) (s : List Char) : Option (List Char × List Char) :=
  match hexDigits count 0 s with
  | none => none
  | some (n, rest) => if n.isValidChar then some ([Char.ofNat n], rest) else none

/-- Reads what follows a backslash between double quotes. -/
def escape : Reader (List Char)
  | [] => none
  | c :: rest =>
    if c = 'b' then some (['\x08'], rest)
    else if c = 't' then some (['\t'], rest)
    else if c = 'n' then some (['\n'], rest)
    else if c = 'f' then some (['\x0c'], rest)
    else if c = 'r' then some (['\r'], rest)
    else if c = '"' then some (['"'], rest)
    else if c = '\\' then some (['\\'], rest)
    else if c = 'u' then numbered 4 rest
    else if c = 'U' then numbered 8 rest
    else none

/-- Reads the pieces of a string up to and with its end. At most `limit` pieces are read: as each
takes a character or more, the length of the text is enough. -/
def body (close piece : Reader (List Char)) : Nat → Reader (List Char)
  | 0, _ => none
  | limit + 1, s =>
    match close s with
    | some (last, rest) => some (last, rest)
    | none =>
      match piece s with
      | none => none
      | some (cs, t) =>
        match body close piece limit t with
        | none => none
        | some (ds, u) => some (cs ++ ds, u)

/-- Reads a quote that ends a string on one line. -/
def closeLine (quote : Char) : Reader (List Char)
  | [] => none
  | c :: rest => if c = quote then some ([], rest) else none

/-- Reads the three quotes that end a string on several lines; up to two more before them belong to
the string. -/
def closeLines (quote : Char) (s : List Char) : Option (List Char × List Char) :=
  let run := ((s.take 5).takeWhile (· == quote)).length
  if run < 3 then none else some (List.replicate (run - 3) quote, s.drop run)

/-- A piece of a string between double quotes on one line. -/
def basicPiece : Reader (List Char)
  | [] => none
  | c :: rest =>
    if c = '\\' then escape rest
    else if isBasic c then some ([c], rest)
    else none

/-- A piece of a string between single quotes on one line. -/
def literalPiece : Reader (List Char)
  | [] => none
  | c :: rest => if isLiteral c then some ([c], rest) else none

/-- Skips blanks and line breaks. -/
def skipLines : List Char → List Char
  | '\n' :: rest => skipLines rest
  | '\r' :: '\n' :: rest => skipLines rest
  | c :: rest => if isBlank c then skipLines rest else c :: rest
  | [] => []

/-- What is left after a backslash that ends a line: the line break and all blanks and line breaks
after it are no part of the string. -/
def foldedLine (s : List Char) : Option (List Char) := (lineBreak (skipBlanks s)).map skipLines

/-- A piece of a string between double quotes on several lines. -/
def basicLinesPiece : Reader (List Char)
  | [] => none
  | c :: rest =>
    if c = '\\' then
      match foldedLine rest with
      | some t => some ([], t)
      | none => escape rest
    else if c = '"' ∨ isBasic c then some ([c], rest)
    else (lineBreak (c :: rest)).map fun t => (['\n'], t)

/-- A piece of a string between single quotes on several lines. -/
def literalLinesPiece : Reader (List Char)
  | [] => none
  | c :: rest =>
    if c = '\'' ∨ isLiteral c then some ([c], rest)
    else (lineBreak (c :: rest)).map fun t => (['\n'], t)

/-- What is left after a line break at the front, if there is one. -/
def afterLineBreak (s : List Char) : List Char := (lineBreak s).getD s

/-- What is left after three quotes at the front. -/
def tripled (quote : Char) : List Char → Option (List Char)
  | a :: b :: c :: rest => if a = quote ∧ b = quote ∧ c = quote then some rest else none
  | _ => none

/-- Reads a string on one line. -/
def lineString (limit : Nat) (s : List Char) : Option (String × List Char) :=
  let read := match s with
    | '"' :: rest => body (closeLine '"') basicPiece limit rest
    | '\'' :: rest => body (closeLine '\'') literalPiece limit rest
    | _ => none
  read.map fun (cs, rest) => (String.ofList cs, rest)

/-- Reads a string of any kind. -/
def anyString (limit : Nat) (s : List Char) : Option (String × List Char) :=
  match tripled '"' s, tripled '\'' s with
  | some rest, _ =>
    (body (closeLines '"') basicLinesPiece limit (afterLineBreak rest)).map fun (cs, t) =>
      (String.ofList cs, t)
  | none, some rest =>
    (body (closeLines '\'') literalLinesPiece limit (afterLineBreak rest)).map fun (cs, t) =>
      (String.ofList cs, t)
  | none, none => lineString limit s

/-! ## §4 Keys -/

/-- Reads a key without dots. -/
def simpleKey (limit : Nat) (s : List Char) : Option (String × List Char) :=
  match s with
  | [] => none
  | c :: _ =>
    if c = '"' ∨ c = '\'' then lineString limit s
    else if isBare c then some (String.ofList (s.takeWhile isBare), s.dropWhile isBare)
    else none

/-- Reads at most `count` keys with a dot between each two, and blanks around them. -/
def keyPath (limit : Nat) : Nat → Reader (List String)
  | 0, _ => none
  | count + 1, s =>
    match simpleKey limit (skipBlanks s) with
    | none => none
    | some (key, t) =>
      match skipBlanks t with
      | '.' :: u =>
        match keyPath limit count u with
        | none => none
        | some (keys, v) => some (key :: keys, v)
      | u => some ([key], u)

/-- The greatest number of keys in a path, and of arrays and tables inside each other. -/
def maxDepth : Nat := 79

end Handoff.Toml
