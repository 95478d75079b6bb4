/-
Handoff.Proofs.Pipeline.Stream — lines are mapped to lines, whatever the queue.

For each line of its input the program prints the line's number and the number of its bytes, in the
order of the input. `Written` says so of a result without a word about producers, consumers or a
queue. The queue between the reader and the printer can have any capacity and any ceiling, the two can
run in any order, and the result is the same one (`lines_written`).

If a line is not UTF-8, what was read before it is still delivered: the reader ends with the lines
that it has, and the complaint comes after the consumer has taken the stop.

  §1 reading          — `readLines_cases`
  §2 printing         — `lineTable`, `Written`
  §3 lines in a queue — `Delivered.lines`, `lines_written`
-/
import Handoff.CommandLine.Session
import Handoff.Proofs.Pipeline.Progress
import Handoff.Proofs.Text.Lines
import Handoff.Proofs.Text.Utf8

namespace Handoff.Pipeline

open CommandLine (Result printedLines itemLine linesResult runLines)
open Text (HasLines IsUtf8 cutLines withoutEnd)

/-! ## §1 Reading -/

/-- A line is UTF-8 with its end if it is without. -/
theorem isUtf8_withoutEnd (line : List UInt8) : IsUtf8 (withoutEnd line) ↔ IsUtf8 line := by
  have hreverse : ∀ a rest, line.reverse = a :: rest → line = rest.reverse ++ [a] := by
    intro a rest h
    rw [← List.reverse_reverse line, h, List.reverse_cons]
  unfold withoutEnd
  split
  · next a b rest hline =>
    have hwhole := hreverse a (b :: rest) hline
    split
    · next ha =>
      rw [hwhole, Text.isUtf8_append_ascii (by rw [ha]; decide)]
      split
      · next hb => rw [List.reverse_cons, Text.isUtf8_append_ascii (by rw [hb]; decide)]
      · rfl
    · rfl
  · next a hline =>
    split
    · next ha =>
      rw [hreverse a [] hline, Text.isUtf8_append_ascii (by rw [ha]; decide)]
      rfl
    · rfl
  · next hline => rw [List.reverse_eq_nil_iff.mp hline]

/-- All lines are read, if all are UTF-8; else those before the first that is not. -/
theorem readLines_cases (raw : List (List UInt8)) :
    (readLines raw = (raw.map withoutEnd, none) ∧ ∀ line ∈ raw.map withoutEnd, IsUtf8 line) ∨
      ∃ n line fault, readLines raw = ((raw.map withoutEnd).take n, some fault) ∧
        (raw.map withoutEnd)[n]? = some line ∧ ¬ IsUtf8 line ∧
        ∀ other ∈ (raw.map withoutEnd).take n, IsUtf8 other := by
  induction raw with
  | nil => exact .inl ⟨rfl, by simp⟩
  | cons line raw ih =>
    have hvalid : IsUtf8 (withoutEnd line) ↔ ∃ text, Text.decodeUtf8 line = .ok text :=
      (isUtf8_withoutEnd line).trans Text.isUtf8_iff
    rw [readLines]
    cases hdecode : Text.decodeUtf8 line with
    | error fault =>
      refine .inr ⟨0, withoutEnd line, fault, rfl, rfl, ?_, by simp⟩
      rw [hvalid, hdecode]
      simp
    | ok text =>
      have hline : IsUtf8 (withoutEnd line) := hvalid.mpr ⟨text, hdecode⟩
      rcases ih with ⟨hread, hall⟩ | ⟨n, other, fault, hread, hother, hinvalid, hbefore⟩
      · refine .inl ⟨by rw [hread, List.map_cons], ?_⟩
        exact List.forall_mem_cons.mpr ⟨hline, hall⟩
      · refine .inr ⟨n + 1, other, fault, by rw [hread]; rfl, hother, hinvalid, ?_⟩
        exact List.forall_mem_cons.mpr ⟨hline, hbefore⟩

/-! ## §2 Printing -/

/-- What is printed for lines: of each its number, a tab, the number of its bytes and a line feed. The
number is a word. -/
def lineTable (lines : List (List UInt8)) : String :=
  String.join (lines.mapIdx fun k line => s!"{k % 2 ^ 64}\t{line.length}\n")

/-- What is written for lines: all are printed if all are UTF-8; else those before the first that is
not are, and then the program fails. -/
inductive Written (lines : List (List UInt8)) (result : Result) : Prop where
  | all (valid : ∀ line ∈ lines, IsUtf8 line) (code : result.code = 0)
      (output : result.output = lineTable lines) (complaint : result.complaint = "")
  | before {n : Nat} {line : List UInt8} {message : String} (found : lines[n]? = some line)
      (invalid : ¬ IsUtf8 line) (valid : ∀ other ∈ lines.take n, IsUtf8 other)
      (code : result.code = 1) (output : result.output = lineTable (lines.take n))
      (complaint : result.complaint = "Error: " ++ message ++ "\n")

/-- What is written for lines that were read. -/
def outcomeOf (read : List (List UInt8) × Option Text.Utf8Fault) : Result :=
  match read.2 with
  | none => .success (lineTable read.1)
  | some fault => .failure (lineTable read.1) fault.message

theorem written_outcomeOf (raw : List (List UInt8)) :
    Written (raw.map withoutEnd) (outcomeOf (readLines raw)) := by
  rcases readLines_cases raw with ⟨hread, hall⟩ | ⟨n, line, fault, hread, hline, hinvalid, hbefore⟩
  · rw [hread]
    exact .all hall rfl rfl rfl
  · rw [hread]
    exact .before hline hinvalid hbefore rfl rfl rfl

/-! ## §3 Lines in a queue -/

theorem carriesItems_lineFeedOf (lines : Array (List UInt8)) :
    ∀ feed ∈ [lineFeedOf lines], feed.CarriesItems := by
  intro feed hfeed
  cases List.mem_singleton.mp hfeed
  exact fun index => ⟨_, rfl⟩

/-- A merge of one feed is that feed. -/
theorem Merges.singleton {feed : Feed} {messages : List Message} (h : Merges [feed] messages) :
    messages = feed.messages := by
  obtain ⟨log, rfl, hauthors, hentries⟩ := h
  rw [← hentries 0 feed rfl, entriesOf, List.filter_eq_self.mpr]
  intro entry hentry
  simpa using hauthors entry hentry

/-- The consumer has printed the lines that were read. -/
theorem Delivered.printedLines {lines : List (List UInt8)} {p : Pipeline}
    (h : Delivered [lineFeedOf lines.toArray] p) : printedLines p = lineTable lines := by
  have hitems : p.items =
      (List.range lines.length).map fun k => ⟨UInt64.ofNat k, lines.getD k []⟩ := by
    refine List.map_injective_iff.mpr (fun x y hxy => Message.data.inj hxy) ?_
    rw [h.merges.singleton, Feed.messages, List.map_map]
    simp [lineFeedOf, Function.comp_def]
  rw [CommandLine.printedLines, lineTable, hitems, List.map_map]
  refine congrArg String.join (List.ext_getElem? fun k => ?_)
  rw [List.getElem?_map, List.getElem?_mapIdx]
  by_cases hk : k < lines.length
  · rw [List.getElem?_range hk, Option.map_some, Function.comp, List.getD_eq_getElem?_getD,
      List.getElem?_eq_getElem hk]
    rfl
  · rw [List.getElem?_eq_none (by simpa using hk), List.getElem?_eq_none (by simpa using hk)]
    rfl

theorem Delivered.lines {read : List (List UInt8) × Option Text.Utf8Fault} {p : Pipeline}
    (h : Delivered [lineFeedOf read.1.toArray] p) : linesResult read.2 p = outcomeOf read := by
  unfold linesResult outcomeOf
  rw [h.error, h.printedLines]
  cases read.2 <;> rfl

/-- **Lines are mapped to lines.** For every input there is one result, which is what is to be written
for its lines, whatever the memory, the capacity and the ceiling of the queue, and the order in which
the reader and the consumer move: unless memory was refused, both have ended where nobody can move,
and then the result is that one. The program's own schedule leads there. -/
theorem lines_written (input : List UInt8) :
    ∃ lines result, HasLines input lines ∧ (∀ others, HasLines input others → others = lines) ∧
      (lines.length ≤ 2 ^ 64 →
        lineTable lines = String.join (lines.mapIdx fun k line => s!"{k}\t{line.length}\n")) ∧
      Written lines result ∧
      ∀ memory s queue, 0 < memory.slotBytes → Queue.ofSettings memory s = .ok queue →
        let read := readLines (cutLines input)
        let start := ofFeeds queue s.pollInterval [lineFeedOf read.1.toArray]
        (∀ p, start.Reaches p → p.Unrefused →
          (∀ memory, Stuck memory p → p.hasEnded = true) ∧
          (p.hasEnded = true → linesResult read.2 p = result)) ∧
        ((start.run memory).Unrefused → runLines memory s input = result) := by
  refine ⟨(cutLines input).map withoutEnd, outcomeOf (readLines (cutLines input)),
    Text.hasLines_cutLines input, fun others h => h.eq.symm, fun hlength => ?_,
    written_outcomeOf (cutLines input), ?_⟩
  · refine congrArg String.join (List.ext_getElem? fun k => ?_)
    rw [List.getElem?_mapIdx, List.getElem?_mapIdx]
    by_cases hk : k < ((cutLines input).map withoutEnd).length
    · rw [Nat.mod_eq_of_lt (Nat.lt_of_lt_of_le hk hlength)]
    · rw [List.getElem?_eq_none (Nat.not_lt.mp hk)]
      rfl
  intro memory s queue sized made read start
  have hdata := carriesItems_lineFeedOf read.1.toArray
  refine ⟨fun p reached unrefused => ?_, fun unrefused => ?_⟩
  · obtain ⟨hended, hdelivered⟩ := reached.delivers sized made hdata unrefused
    exact ⟨hended, fun h => (hdelivered h).lines⟩
  · rw [runLines, made]
    exact (run_delivers sized made s.pollInterval hdata unrefused).lines

/-- The third line is longer in bytes than in characters, and the fourth is no text: a queue that
holds one message delivers the three before it, and all five if the fourth is one. -/
theorem lines_written_invalid :
    let input (last : UInt8) : List UInt8 := [97, 13, 10, 10, 195, 169, 10, last, 10, 120]
    let lines (last : UInt8) : List (List UInt8) := [[97], [], [195, 169], [last], [120]]
    let s : QueueSettings := ⟨"work", 1, some 2, 100⟩
    let written (last : UInt8) := runLines CommandLine.memory s (input last)
    (HasLines (input 255) (lines 255) ∧ Written (lines 255) (written 255) ∧
      (written 255).code = 1 ∧ (written 255).output = "0\t1\n1\t0\n2\t2\n") ∧
    HasLines (input 98) (lines 98) ∧ Written (lines 98) (written 98) ∧
      (written 98).code = 0 ∧ (written 98).output = "0\t1\n1\t0\n2\t2\n3\t1\n4\t1\n" := by
  intro input lines s written
  have hmade : Queue.ofSettings CommandLine.memory s =
      .ok (.ofRing "work" ⟨#[none], 0, 0, some 2⟩ : Queue Message) := rfl
  have hwritten : ∀ last, HasLines (input last) (lines last) →
      Unrefused ((ofFeeds (.ofRing "work" ⟨#[none], 0, 0, some 2⟩) 100
        [lineFeedOf (readLines (cutLines (input last))).1.toArray]).run CommandLine.memory) →
      Written (lines last) (written last) := by
    intro last hlines hunrefused
    obtain ⟨found, result, -, hunique, -, hwritten, hall⟩ := lines_written (input last)
    obtain ⟨-, hrun⟩ := hall CommandLine.memory s _ (by decide) hmade
    show Written (lines last) (runLines CommandLine.memory s (input last))
    rw [hrun hunrefused, hunique _ hlines]
    exact hwritten
  have hinvalid : HasLines (input 255) (lines 255) := Text.hasLines_iff.mpr rfl
  have hvalid : HasLines (input 98) (lines 98) := Text.hasLines_iff.mpr rfl
  exact ⟨⟨hinvalid, hwritten 255 hinvalid (unrefused_of_all (by decide +kernel)),
      by decide +kernel, by decide +kernel⟩,
    hvalid, hwritten 98 hvalid (unrefused_of_all (by decide +kernel)), by decide +kernel,
    by decide +kernel⟩

end Handoff.Pipeline
