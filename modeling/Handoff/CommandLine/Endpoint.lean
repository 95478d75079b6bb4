/-
Handoff.CommandLine.Endpoint — whether telemetry can be exported to an address.

An address is a path, an authority, or a scheme, an authority and a path. This module checks the form
of an address as far as an export needs it; nothing is sent. An empty address means the standard one
and is fine.

  §1 faults        — `AddressFault`
  §2 parts         — `schemeEnd`, `authorityEnd`, `checkPath`
  §3 addresses     — `check`
-/

namespace Handoff.Address

/-! ## §1 Faults -/

/-- What is wrong with an address. -/
inductive AddressFault where
  | badCharacter
  | badAuthority
  | badFormat
  | schemeTooLong
  | tooLong
  deriving DecidableEq, Repr

/-- The text that describes the fault. -/
def AddressFault.message : AddressFault → String
  | .badCharacter => "invalid uri character"
  | .badAuthority => "invalid authority"
  | .badFormat => "invalid format"
  | .schemeTooLong => "scheme too long"
  | .tooLong => "uri too long"

/-! ## §2 Parts -/

/-- Whether a character stands in a scheme. -/
def isSchemeChar (c : Char) : Bool := c.isAlphanum || c == '+' || c == '-' || c == '.'

/-- Whether a character stands in an authority, percent signs apart. -/
def isAuthorityChar (c : Char) : Bool :=
  c.isAlphanum || "!$&'()*+,-.:;=@[]_~".toList.contains c

/-- Whether a character ends an authority. -/
def endsAuthority (c : Char) : Bool := c == '/' || c == '?' || c == '#'

/-- The length of the longest scheme of an address. -/
def maxSchemeLength : Nat := 64

/-- The number of bytes of the longest address. -/
def maxLength : Nat := 65534

/-- What follows the scheme of an address, if it has one. -/
def afterScheme (s : List Char) : Except AddressFault (Option (List Char)) :=
  let scheme := s.takeWhile isSchemeChar
  match s.dropWhile isSchemeChar with
  | ':' :: '/' :: '/' :: rest =>
    if maxSchemeLength < scheme.length then .error .schemeTooLong else .ok (some rest)
  | _ => .ok none

/-- What was seen of an authority. -/
structure Seen where
  colons : Nat
  opened : Bool
  closed : Bool
  percent : Bool
  /-- Whether the last character was an at sign. -/
  justAt : Bool
  deriving DecidableEq, Repr

/-- Nothing seen yet. -/
def Seen.nothing : Seen := ⟨0, false, false, false, false⟩

/-- What was seen after one more character. User information before an at sign and the address
between brackets may hold colons and percent signs of their own. -/
def Seen.next (seen : Seen) (c : Char) : Except AddressFault Seen :=
  if c = '%' then .ok { seen with percent := true, justAt := false }
  else if !isAuthorityChar c then .error .badCharacter
  else if c = ':' then
    if 8 ≤ seen.colons then .error .badAuthority
    else .ok { seen with colons := seen.colons + 1, justAt := false }
  else if c = '[' then
    if seen.percent || seen.opened then .error .badAuthority
    else .ok { seen with opened := true, justAt := false }
  else if c = ']' then
    if !seen.opened || seen.closed then .error .badAuthority
    else .ok { seen with closed := true, colons := 0, percent := false, justAt := false }
  else if c = '@' then .ok { seen with colons := 0, percent := false, justAt := true }
  else .ok { seen with justAt := false }

/-- Reads an authority; what follows it is returned. -/
def authority : Seen → List Char → Except AddressFault (Seen × List Char)
  | seen, [] => .ok (seen, [])
  | seen, c :: rest =>
    if endsAuthority c then .ok (seen, c :: rest)
    else match seen.next c with
      | .error f => .error f
      | .ok more => authority more rest

/-- Reads an authority that is well formed. -/
def wholeAuthority (s : List Char) : Except AddressFault (List Char) :=
  match authority .nothing s with
  | .error f => .error f
  | .ok (seen, rest) =>
    if seen.opened != seen.closed || decide (1 < seen.colons) || seen.justAt || seen.percent then
      .error .badAuthority
    else .ok rest

/-- Whether a character stands in a path. -/
def isPathChar (c : Char) : Bool :=
  let n := c.toNat
  n == 0x21 || n == 0x22 || (0x24 ≤ n && n ≤ 0x3B) || n == 0x3D || (0x40 ≤ n && n ≤ 0x5F) ||
    (0x61 ≤ n && n ≤ 0x7E) || 0x7F ≤ n

/-- Whether a character stands after the question mark. -/
def isQueryChar (c : Char) : Bool :=
  let n := c.toNat
  n == 0x21 || (0x24 ≤ n && n ≤ 0x3B) || n == 0x3D || (0x3F ≤ n && n ≤ 0x7E) || 0x7F ≤ n

/-- Checks a path and a query; what follows a number sign does not matter. -/
def checkPath (inQuery : Bool) : List Char → Except AddressFault Unit
  | [] => .ok ()
  | c :: rest =>
    if c = '#' then .ok ()
    else if inQuery then
      if isQueryChar c then checkPath true rest else .error .badCharacter
    else if c = '?' then checkPath true rest
    else if isPathChar c then checkPath false rest
    else .error .badCharacter

/-! ## §3 Addresses -/

/-- Checks an address of one character, which is an authority. -/
def checkSingle (c : Char) : Except AddressFault Unit :=
  match wholeAuthority [c] with
  | .error f => .error f
  | .ok rest => if rest.isEmpty then .ok () else .error .badCharacter

/-- Checks an address that does not start with a slash. -/
def checkFull (s : List Char) : Except AddressFault Unit :=
  match afterScheme s with
  | .error f => .error f
  | .ok scheme =>
    let t := scheme.getD s
    match wholeAuthority t with
    | .error f => .error f
    | .ok rest =>
      if scheme.isNone then if rest.isEmpty then .ok () else .error .badFormat
      else if rest.length = t.length then .error .badFormat
      else checkPath false rest

/-- Checks an address. -/
def check (address : String) : Except AddressFault Unit :=
  if maxLength < address.utf8ByteSize then .error .tooLong
  else if address = "*" then .ok ()
  else match address.toList with
    | [] => .ok ()
    | '/' :: rest => checkPath false ('/' :: rest)
    | [c] => checkSingle c
    | s => checkFull s

end Handoff.Address
