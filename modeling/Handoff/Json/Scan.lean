/-
Handoff.Json.Scan — the pieces that JSON text is made of.

A reader takes the characters that are left and returns what it read with those that are left then,
or a fault. There are three faults, and reading stops at the first: the text is not JSON
(`malformed`), it is JSON of the wrong shape (`mismatched`), or it ended too early (`truncated`).

A piece is read with full care if its value is kept. If the value is dropped, text may hold half a
surrogate pair, numbers may have any size, and a number that the end of the text cuts short counts
as malformed.

Readers of arrays and objects take a `limit` on how often they go round. It is there to make them
total and never felt: the length of the whole text is enough for each of them.

  §1 faults and readers     — `Fault`, `Care`, `Reader`
  §2 blanks and words       — `skipBlanks`, `literal`, `colon`
  §3 strings                — `escape`, `string`
  §4 arrays and objects     — `arrayNext`, `objectNext`, `foldElements`, `foldMembers`
-/

namespace Handoff.Json

/-! ## §1 Faults and readers -/

/-- Why reading stopped. -/
inductive Fault where
  /-- The text is not JSON. -/
  | malformed
  /-- The text is JSON of the wrong shape. -/
  | mismatched
  /-- The text ended too early. -/
  | truncated
  deriving DecidableEq, Repr

/-- Whether the value that is read is kept. -/
inductive Care where
  | keep
  | drop
  deriving DecidableEq, Repr

/-- Reads a value from the front of a text. -/
abbrev Reader (α : Type) := List Char → Except Fault (α × List Char)

/-! ## §2 Blanks and words -/

/-- Whether a character may stand between the pieces. -/
def isBlank (c : Char) : Bool := c == ' ' || c == '\t' || c == '\n' || c == '\r'

/-- What is left after the blanks at the front. -/
def skipBlanks (s : List Char) : List Char := s.dropWhile isBlank

/-- Reads the characters of a word. -/
def literal : List Char → List Char → Except Fault (List Char)
  | [], s => .ok s
  | _ :: _, [] => .error .truncated
  | w :: ws, c :: s => if c = w then literal ws s else .error .malformed

/-- Reads the colon between a name and its value. -/
def colon (s : List Char) : Except Fault (List Char) :=
  match skipBlanks s with
  | [] => .error .truncated
  | c :: rest => if c = ':' then .ok rest else .error .malformed

/-- Accepts nothing but blanks. -/
def endOfText (s : List Char) : Except Fault Unit :=
  if (skipBlanks s).isEmpty then .ok () else .error .malformed

/-! ## §3 Strings -/

/-- The value of a hexadecimal digit. -/
def hexValue (c : Char) : Option Nat :=
  if '0' ≤ c ∧ c ≤ '9' then some (c.toNat - '0'.toNat)
  else if 'a' ≤ c ∧ c ≤ 'f' then some (c.toNat - 'a'.toNat + 10)
  else if 'A' ≤ c ∧ c ≤ 'F' then some (c.toNat - 'A'.toNat + 10)
  else none

/-- The number of bytes that a text takes. -/
def byteLength (s : List Char) : Nat := (s.map Char.utf8Size).foldl (· + ·) 0

/-- Reads four hexadecimal digits. The text is truncated if fewer than four bytes are left of it,
whatever they are. -/
def fourHexDigits : Reader Nat
  | a :: b :: c :: d :: rest =>
    match hexValue a, hexValue b, hexValue c, hexValue d with
    | some a, some b, some c, some d => .ok (((a * 16 + b) * 16 + c) * 16 + d, rest)
    | _, _, _, _ => .error .malformed
  | short => .error (if byteLength short < 4 then .truncated else .malformed)

/-- Whether a number is the first half of a surrogate pair. -/
def isLeading (n : Nat) : Bool := 0xD800 ≤ n && n ≤ 0xDBFF

/-- Whether a number is the second half of a surrogate pair. -/
def isTrailing (n : Nat) : Bool := 0xDC00 ≤ n && n ≤ 0xDFFF

/-- The character that two halves of a surrogate pair stand for. -/
def ofPair (leading trailing : Nat) : Char :=
  Char.ofNat ((leading - 0xD800) * 0x400 + (trailing - 0xDC00) + 0x10000)

/-- Reads the second half of a surrogate pair. -/
def trailingHalf (leading : Nat) : Reader Char
  | [] => .error .truncated
  | c :: rest =>
    if c ≠ '\\' then .error .malformed
    else match rest with
      | [] => .error .truncated
      | c :: rest =>
        if c ≠ 'u' then .error .malformed
        else match fourHexDigits rest with
          | .error f => .error f
          | .ok (n, rest) =>
            if isTrailing n then .ok (ofPair leading n, rest) else .error .malformed

/-- Reads a character given by its number. A half of a surrogate pair stands for a replacement
character if the text is dropped; if it is kept, both halves must stand together. -/
def numbered (care : Care) (s : List Char) : Except Fault (Char × List Char) :=
  match fourHexDigits s with
  | .error f => .error f
  | .ok (n, rest) =>
    if isTrailing n then
      match care with
      | .keep => .error .malformed
      | .drop => .ok ('\uFFFD', rest)
    else if isLeading n then
      match care with
      | .keep => trailingHalf n rest
      | .drop => .ok ('\uFFFD', rest)
    else .ok (Char.ofNat n, rest)

/-- The character that a letter after a backslash stands for. -/
def shortEscape (c : Char) : Option Char :=
  if c = '"' then some '"'
  else if c = '\\' then some '\\'
  else if c = '/' then some '/'
  else if c = 'b' then some '\x08'
  else if c = 'f' then some '\x0c'
  else if c = 'n' then some '\n'
  else if c = 'r' then some '\r'
  else if c = 't' then some '\t'
  else none

/-- Reads what follows a backslash. -/
def escape (care : Care) : Reader Char
  | [] => .error .truncated
  | c :: rest =>
    if c = 'u' then numbered care rest
    else match shortEscape c with
      | some d => .ok (d, rest)
      | none => .error .malformed

theorem fourHexDigits_length {s r : List Char} {n : Nat} (h : fourHexDigits s = .ok (n, r)) :
    r.length < s.length := by
  unfold fourHexDigits at h
  split at h
  · split at h
    · simp only [Except.ok.injEq, Prod.mk.injEq] at h
      obtain ⟨_, rfl⟩ := h
      simp only [List.length_cons]
      omega
    · simp at h
  · simp at h

theorem trailingHalf_length {s r : List Char} {leading : Nat} {c : Char}
    (h : trailingHalf leading s = .ok (c, r)) : r.length < s.length := by
  unfold trailingHalf at h
  split at h
  · simp at h
  · split at h
    · simp at h
    · split at h
      · simp at h
      · split at h
        · simp at h
        · split at h
          · simp at h
          · next hx =>
            have := fourHexDigits_length hx
            split at h
            · simp only [Except.ok.injEq, Prod.mk.injEq] at h
              obtain ⟨_, rfl⟩ := h
              simp only [List.length_cons]
              omega
            · simp at h

theorem numbered_length {care : Care} {s r : List Char} {c : Char}
    (h : numbered care s = .ok (c, r)) : r.length < s.length := by
  unfold numbered at h
  split at h
  · simp at h
  · next hx =>
    have := fourHexDigits_length hx
    split at h
    · cases care <;> simp only [reduceCtorEq, Except.ok.injEq, Prod.mk.injEq] at h
      obtain ⟨_, rfl⟩ := h
      exact this
    · split at h
      · cases care <;> simp only [Except.ok.injEq, Prod.mk.injEq] at h
        · have := trailingHalf_length h
          omega
        · obtain ⟨_, rfl⟩ := h
          exact this
      · simp only [Except.ok.injEq, Prod.mk.injEq] at h
        obtain ⟨_, rfl⟩ := h
        exact this

/-- An escape takes at least one character. -/
theorem escape_length {care : Care} {s r : List Char} {c : Char}
    (h : escape care s = .ok (c, r)) : r.length < s.length := by
  unfold escape at h
  split at h
  · simp at h
  · split at h
    · have := numbered_length h
      simp only [List.length_cons]
      omega
    · split at h
      · simp only [Except.ok.injEq, Prod.mk.injEq] at h
        obtain ⟨_, rfl⟩ := h
        simp
      · simp at h

/-- Reads the characters of a string up to and with the closing quote. -/
def stringChars (care : Care) : Reader (List Char)
  | [] => .error .truncated
  | c :: rest =>
    if c = '"' then .ok ([], rest)
    else if c = '\\' then
      match _h : escape care rest with
      | .error f => .error f
      | .ok (d, s) =>
        match stringChars care s with
        | .error f => .error f
        | .ok (ds, t) => .ok (d :: ds, t)
    else if c < ' ' then .error .malformed
    else
      match stringChars care rest with
      | .error f => .error f
      | .ok (ds, t) => .ok (c :: ds, t)
termination_by s => s.length
decreasing_by
  · have := escape_length ‹_›
    simp only [List.length_cons]
    omega
  · simp

/-- Reads what follows the opening quote of a string. -/
def string (care : Care) (s : List Char) : Except Fault (String × List Char) :=
  match stringChars care s with
  | .error f => .error f
  | .ok (cs, rest) => .ok (String.ofList cs, rest)

/-! ## §4 Arrays and objects -/

/-- What comes next in an array or an object: its end, or another element or member. Either way the
characters that are left are given. -/
inductive Next where
  | close (rest : List Char)
  | more (rest : List Char)
  deriving DecidableEq, Repr

/-- Looks for the next element of an array: before the first there is no comma, between two there is
one, and after the last there is none. -/
def arrayNext (first : Bool) (s : List Char) : Except Fault Next :=
  match skipBlanks s with
  | [] => .error .truncated
  | c :: rest =>
    if c = ']' then .ok (.close rest)
    else if first then .ok (.more (c :: rest))
    else if c = ',' then
      match skipBlanks rest with
      | [] => .error .truncated
      | d :: after => if d = ']' then .error .malformed else .ok (.more (d :: after))
    else .error .malformed

/-- Reads the quote that opens the name of a member. -/
def openName : List Char → Except Fault Next
  | [] => .error .truncated
  | c :: rest => if c = '"' then .ok (.more rest) else .error .malformed

/-- Looks for the next member of an object, with commas as in an array; what is left starts with the
name, after its opening quote. -/
def objectNext (first : Bool) (s : List Char) : Except Fault Next :=
  match skipBlanks s with
  | [] => .error .truncated
  | c :: rest =>
    if c = '}' then .ok (.close rest)
    else if first then openName (c :: rest)
    else if c = ',' then openName (skipBlanks rest)
    else .error .malformed

/-- Reads the pieces of an array or object up to and with its end; `piece` reads one and updates the
state. At most `limit` pieces are looked for: as each takes a character or more, the length of the
text is enough. -/
def foldPieces {σ : Type} (next : Bool → List Char → Except Fault Next) (piece : σ → Reader σ) :
    Nat → Bool → σ → Reader σ
  | 0, _, _, _ => .error .malformed
  | limit + 1, first, state, s =>
    match next first s with
    | .error f => .error f
    | .ok (.close rest) => .ok (state, rest)
    | .ok (.more t) =>
      match piece state t with
      | .error f => .error f
      | .ok (state, u) => foldPieces next piece limit false state u

/-- Reads the elements of an array; `first` says whether none was read yet. -/
def foldElements {σ : Type} (limit : Nat) (element : σ → Reader σ) (first : Bool) (state : σ) :
    Reader σ :=
  foldPieces arrayNext element limit first state

/-- Reads the members of an object from the first on. -/
def foldMembers {σ : Type} (limit : Nat) (member : σ → Reader σ) (state : σ) : Reader σ :=
  foldPieces objectNext member limit true state

end Handoff.Json
