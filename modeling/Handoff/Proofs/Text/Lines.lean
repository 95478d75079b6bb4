/-
Handoff.Proofs.Text.Lines — what the lines of bytes are.

`HasLines` says it without cutting anything: bytes are lines that hold no line feed, each with a line
feed after it or with a carriage return and a line feed, and perhaps one more that has no end and is
not empty. Every sequence of bytes has lines in exactly one way, and they are those that
`cutLines` finds, each without its end (`hasLines_iff`).

  §1 lines        — `HasLines`
  §2 cutting them — `cutFrom_append`, `withoutEnd_append`, `hasLines_iff`
-/
import Handoff.Text.Lines
import Mathlib.Data.List.Basic

namespace Handoff.Text

/-! ## §1 Lines -/

/-- The bytes consist of lines, which are given without their ends. -/
inductive HasLines : List UInt8 → List (List UInt8) → Prop where
  /-- An empty tail is no line. -/
  | none : HasLines [] []
  | last {line : List UInt8} (whole : lineFeed ∉ line) (nonempty : line ≠ []) :
      HasLines line [line]
  | feed {line rest : List UInt8} {lines : List (List UInt8)} (whole : lineFeed ∉ line)
      (plain : line.getLast? ≠ some carriageReturn) (others : HasLines rest lines) :
      HasLines (line ++ lineFeed :: rest) (line :: lines)
  | returnFeed {line rest : List UInt8} {lines : List (List UInt8)} (whole : lineFeed ∉ line)
      (others : HasLines rest lines) :
      HasLines (line ++ carriageReturn :: lineFeed :: rest) (line :: lines)

/-! ## §2 Cutting them -/

variable {bytes line : List UInt8} {lines : List (List UInt8)}

theorem cutFrom_append (whole : lineFeed ∉ line) (current rest : List UInt8) :
    cutFrom current (line ++ rest) = cutFrom (line.reverse ++ current) rest := by
  induction line generalizing current with
  | nil => rfl
  | cons b line ih =>
    rw [List.mem_cons, not_or] at whole
    rw [List.cons_append, cutFrom, if_neg (Ne.symm whole.1), ih whole.2, List.reverse_cons,
      List.append_assoc]
    rfl

theorem cutLines_feed (whole : lineFeed ∉ line) (rest : List UInt8) :
    cutLines (line ++ lineFeed :: rest) = (line ++ [lineFeed]) :: cutLines rest := by
  rw [cutLines, cutFrom_append whole, cutFrom, if_pos rfl, List.append_nil, List.reverse_cons,
    List.reverse_reverse, cutLines]

theorem cutLines_last (whole : lineFeed ∉ line) (nonempty : line ≠ []) :
    cutLines line = [line] := by
  have hcut := cutFrom_append whole [] []
  rw [List.append_nil, List.append_nil, cutFrom, if_neg (by simpa using nonempty),
    List.reverse_reverse] at hcut
  exact hcut

theorem withoutEnd_feed (plain : line.getLast? ≠ some carriageReturn) :
    withoutEnd (line ++ [lineFeed]) = line := by
  unfold withoutEnd
  rw [List.reverse_append, List.reverse_singleton, List.singleton_append]
  rw [← List.head?_reverse] at plain
  cases hline : line.reverse with
  | nil =>
    rw [List.reverse_eq_nil_iff] at hline
    simp [hline]
  | cons b rest =>
    have hb : b ≠ carriageReturn := by simpa [hline] using plain
    have hrest : (b :: rest).reverse = line := by rw [← hline, List.reverse_reverse]
    simpa [hb] using hrest

theorem withoutEnd_returnFeed : withoutEnd (line ++ [carriageReturn, lineFeed]) = line := by
  simp [withoutEnd]

/-- A line that has no end is not shortened, whatever its last byte is. -/
theorem withoutEnd_last (whole : lineFeed ∉ line) : withoutEnd line = line := by
  have hhead : ∀ a ∈ line.reverse.head?, a ≠ lineFeed := by
    intro a ha
    rw [List.head?_reverse] at ha
    exact fun heq => whole (heq ▸ List.mem_of_getLast? ha)
  unfold withoutEnd
  split
  · next a b rest hline => rw [if_neg (hhead a (by simp [hline]))]
  · next a hline => rw [if_neg (hhead a (by simp [hline]))]
  · next hline => exact (List.reverse_eq_nil_iff.mp hline).symm

theorem HasLines.eq (h : HasLines bytes lines) : (cutLines bytes).map withoutEnd = lines := by
  induction h with
  | none => rfl
  | last whole nonempty =>
    rw [cutLines_last whole nonempty, List.map_singleton, withoutEnd_last whole]
  | feed whole plain _ ih =>
    rw [cutLines_feed whole, List.map_cons, withoutEnd_feed plain, ih]
  | @returnFeed line rest _ whole _ ih =>
    have hwhole : lineFeed ∉ line ++ [carriageReturn] := by
      simpa [lineFeed, carriageReturn] using whole
    rw [List.append_cons, cutLines_feed hwhole, List.map_cons, List.append_assoc,
      List.singleton_append, withoutEnd_returnFeed, ih]

theorem hasLines_cutLines (bytes : List UInt8) :
    HasLines bytes ((cutLines bytes).map withoutEnd) := by
  -- What is cut next is shorter by the first line and its end.
  induction hlength : bytes.length using Nat.strongRecOn generalizing bytes with
  | ind length ih =>
    by_cases hfeed : lineFeed ∈ bytes
    · obtain ⟨line, rest, rfl, whole⟩ := List.eq_append_cons_of_mem hfeed
      have hrest := ih rest.length (by simp at hlength; omega) rest rfl
      rw [cutLines_feed whole, List.map_cons]
      by_cases hreturn : line.getLast? = some carriageReturn
      · obtain ⟨init, rfl⟩ := List.getLast?_eq_some_iff.mp hreturn
        rw [List.append_assoc, List.append_assoc, List.singleton_append, List.singleton_append,
          withoutEnd_returnFeed]
        exact .returnFeed (fun h => whole (List.mem_append_left _ h)) hrest
      · rw [withoutEnd_feed hreturn]
        exact .feed whole hreturn hrest
    · by_cases hnil : bytes = []
      · subst hnil
        exact .none
      · rw [cutLines_last hfeed hnil, List.map_singleton, withoutEnd_last hfeed]
        exact .last hfeed hnil

/-- **Bytes have lines in exactly one way**: those that are cut, without their ends. -/
theorem hasLines_iff : HasLines bytes lines ↔ (cutLines bytes).map withoutEnd = lines :=
  ⟨HasLines.eq, fun h => h ▸ hasLines_cutLines bytes⟩

end Handoff.Text
