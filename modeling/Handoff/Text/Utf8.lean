/-
Handoff.Text.Utf8 — bytes as characters.

A character takes one to four bytes: a first byte that says how many follow, and then bytes of the
form `10xxxxxx`, of which the first is further restricted so that each character has one form only
and no half of a surrogate pair has any. Decoding stops at the first byte that does not fit; the
fault says where the character starts and how many bytes fitted, or that the bytes ended within it.
-/

namespace Handoff.Text

/-- Bytes that are not text: where the first character that is none starts, and how many bytes of it
fit, or none if the bytes end within it. -/
structure Utf8Fault where
  index : Nat
  length : Option Nat
  deriving DecidableEq, Repr

/-- The text that describes the fault. -/
def Utf8Fault.message (f : Utf8Fault) : String :=
  match f.length with
  | some n => s!"invalid utf-8 sequence of {n} bytes from index {f.index}"
  | none => s!"incomplete utf-8 byte sequence from index {f.index}"

/-- Whether a byte lies between two others. -/
def byteIn (low high : UInt8) (b : UInt8) : Bool := low ≤ b && b ≤ high

/-- Whether a byte has the form of all bytes after the first. -/
def isTail (b : UInt8) : Bool := byteIn 0x80 0xBF b

/-- The first byte of a character: how many bytes follow, and between which bounds the next one
lies. -/
structure Lead where
  tails : Nat
  low : UInt8
  high : UInt8
  deriving DecidableEq, Repr

/-- What a first byte of 128 or more announces. -/
def leadOf (a : UInt8) : Option Lead :=
  if byteIn 0xC2 0xDF a then some ⟨1, 0x80, 0xBF⟩
  else if a = 0xE0 then some ⟨2, 0xA0, 0xBF⟩
  else if byteIn 0xE1 0xEC a then some ⟨2, 0x80, 0xBF⟩
  else if a = 0xED then some ⟨2, 0x80, 0x9F⟩
  else if byteIn 0xEE 0xEF a then some ⟨2, 0x80, 0xBF⟩
  else if a = 0xF0 then some ⟨3, 0x90, 0xBF⟩
  else if byteIn 0xF1 0xF3 a then some ⟨3, 0x80, 0xBF⟩
  else if a = 0xF4 then some ⟨3, 0x80, 0x8F⟩
  else none

/-- The six bits that a byte after the first adds to a character's number. -/
def addTail (n : Nat) (b : UInt8) : Nat := n * 64 + b.toNat % 64

/-- Decodes bytes that start at a position; `read` holds the characters before it, last first. -/
def decodeFrom (i : Nat) (read : List Char) : List UInt8 → Except Utf8Fault (List Char)
  | [] => .ok read.reverse
  | a :: s =>
    if a < 0x80 then decodeFrom (i + 1) (Char.ofNat a.toNat :: read) s
    else match leadOf a with
      | none => .error ⟨i, some 1⟩
      | some lead =>
        match s with
        | [] => .error ⟨i, none⟩
        | b :: t =>
          if !byteIn lead.low lead.high b then .error ⟨i, some 1⟩
          else if lead.tails = 1 then
            decodeFrom (i + 2) (Char.ofNat (addTail (a.toNat % 32) b) :: read) t
          else match t with
            | [] => .error ⟨i, none⟩
            | c :: u =>
              if !isTail c then .error ⟨i, some 2⟩
              else if lead.tails = 2 then
                decodeFrom (i + 3) (Char.ofNat (addTail (addTail (a.toNat % 16) b) c) :: read) u
              else match u with
                | [] => .error ⟨i, none⟩
                | d :: v =>
                  if !isTail d then .error ⟨i, some 3⟩
                  else
                    decodeFrom (i + 4)
                      (Char.ofNat (addTail (addTail (addTail (a.toNat % 8) b) c) d) :: read) v

/-- Decodes bytes. -/
def decodeUtf8 (bytes : List UInt8) : Except Utf8Fault (List Char) := decodeFrom 0 [] bytes

/-- The text that bytes are, if they are text. -/
def textOfBytes? (bytes : List UInt8) : Option String :=
  match decodeUtf8 bytes with
  | .error _ => none
  | .ok cs => some (String.ofList cs)

end Handoff.Text
