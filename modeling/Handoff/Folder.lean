/-
Handoff.Folder — a folder as a value, and what a path finds in it.

A folder holds files by name and no other folders. A path is read step by step: a single dot stays
where it is, two dots lead out of the folder, where nothing is known but that folders are there, and
a name finds a file. Nothing can follow a file, not even a slash. Names and paths have a greatest
length.
-/
import Handoff.Settings.Document

namespace Handoff

/-- The files of a folder, with their bytes. -/
abbrev Folder := List (String × List UInt8)

namespace Folder

open Settings (ReadFault)

/-- The number of bytes of the longest name. -/
def maxNameLength : Nat := 255

/-- The number of bytes of the longest path. -/
def maxPathLength : Nat := 4095

/-- The fault of a name that finds nothing. -/
def unknown (name : String) : ReadFault :=
  if maxNameLength < name.utf8ByteSize then .nameTooLong else .missing

/-- Reads the rest of a path outside the folder. -/
def readOutside : List String → Except ReadFault (List UInt8)
  | [] => .error .isDirectory
  | step :: rest =>
    if step = "" ∨ step = "." ∨ step = ".." then readOutside rest
    else .error (unknown step)

/-- Reads the steps of a path inside the folder. -/
def readSteps (folder : Folder) : List String → Except ReadFault (List UInt8)
  | [] => .error .isDirectory
  | step :: rest =>
    if step = "" ∨ step = "." then folder.readSteps rest
    else if step = ".." then readOutside rest
    else match folder.lookup step with
      | none => .error (unknown step)
      | some bytes => if rest.isEmpty then .ok bytes else .error .notDirectory

/-- Reads the file at a path. -/
def read (folder : Folder) (path : String) : Except ReadFault (List UInt8) :=
  if path.isEmpty then .error .missing
  else if maxPathLength < path.utf8ByteSize then .error .nameTooLong
  else if path.startsWith "/" then readOutside (path.splitOn "/")
  else folder.readSteps (path.splitOn "/")

end Folder

end Handoff
