/-
Handoff.Proofs.Settings.Reloading — the settings that are printed can be loaded back.

The environment gives texts of any characters and numbers of 64 bits. A document holds all of the
texts, as each is written in a style that suits it. Of the numbers it holds those that are signed
64-bit ones: where one is greater nothing is printed, and the program says so. Otherwise each setting
has a line of its own, but for an endpoint or a ceiling that is missing (`Settings.given`), and what
the lines say are the settings again, which pass the check that they have passed before.

  §1 what is printed   — `Settings.given`, `settings?_given`
  §2 lines             — `Prints`, `prints_columns`, `prints_queueColumns`
  §3 documents         — `documentGives_printed`, `ofFile_printed`
  §4 the program       — `printed_settings_reload`
-/
import Handoff.CommandLine.Session
import Handoff.Proofs.Settings.Loading
import Handoff.Proofs.Toml.Strings

namespace Handoff

/-! ## §1 What is printed -/

/-- All that the settings are, as it is given by a document. -/
def Settings.given (s : Settings) : Given where
  endpoint := s.endpoint
  logLevel := some s.logLevel
  name := some s.queue.name
  initial := some s.queue.initialCapacity
  max := s.queue.maxCapacity.map Int.ofNat
  poll := some s.queue.pollInterval

theorem Given.natural?_ofNat (n? : Option Nat) : natural? (n?.map Int.ofNat) = some n? := by
  cases n? with
  | none => rfl
  | some n => simp [natural?]

theorem Settings.settings?_given (s : Settings) : s.given.settings? = some s := by
  have hqueue := s.given.queue?_eq (Given.natural?_ofNat (some s.queue.initialCapacity))
    (Given.natural?_ofNat s.queue.maxCapacity) (Given.natural?_ofNat (some s.queue.pollInterval))
  rw [Given.settings?, hqueue]
  rfl

/-! ## §2 Lines -/

namespace Toml

/-- The characters are lines that say what there is in the columns. -/
def Prints (text : List Char) (columns : List (String × Option Value)) : Prop :=
  ∃ ls : List Line, linesChars ls = text ∧ ls.map Line.entry = said columns

variable {key : String}

theorem Prints.append {text text' : List Char} {columns columns' : List (String × Option Value)}
    (h : Prints text columns) (h' : Prints text' columns') :
    Prints (text ++ text') (columns ++ columns') := by
  obtain ⟨ls, htext, hentries⟩ := h
  obtain ⟨ls', htext', hentries'⟩ := h'
  refine ⟨ls ++ ls', ?_, ?_⟩
  · rw [← htext, ← htext', linesChars, linesChars, linesChars, List.flatMap_append]
  · rw [List.map_append, hentries, hentries', said, said, said, List.filterMap_append]

/-- A line, or none where there is no value. -/
theorem Prints.optional {α : Type} {line : α → List Char} {value : α → Value}
    (bare : isBareKey key = true) (a? : Option α)
    (spelled : ∀ a ∈ a?, ∃ text, Spelled text (value a) ∧
      line a = key.toList ++ (' ' :: '=' :: ' ' :: (text ++ ['\n']))) :
    Prints (Settings.optionalLine line a?) [(key, a?.map value)] := by
  cases a? with
  | none => exact ⟨[], rfl, rfl⟩
  | some a =>
    obtain ⟨text, hspelled, hline⟩ := spelled a rfl
    refine ⟨[⟨key, text, value a, bare, hspelled⟩], ?_, rfl⟩
    rw [linesChars, List.flatMap_singleton, Settings.optionalLine, hline, Line.chars]

theorem Prints.text (bare : isBareKey key = true) (text : Option String) :
    Prints (Settings.optionalLine (Settings.textLine key) text) [(key, text.map .string)] :=
  .optional bare text fun s _ => ⟨_, spelled_stringChars s, by simp [Settings.textLine]⟩

theorem Prints.number (bare : isBareKey key = true) (n? : Option Nat)
    (small : ∀ n ∈ n?, n < Settings.integerLimit) :
    Prints (Settings.optionalLine (Settings.numberLine key) n?)
      [(key, (n?.map Int.ofNat).map .integer)] := by
  rw [Option.map_map]
  refine .optional bare n? fun n hn => ⟨_, spelled_integer ?_, ?_⟩
  · have hsmall : (n : Int) < (Settings.integerLimit : Int) := Int.ofNat_lt.mpr (small n hn)
    have hnonneg := Int.natCast_nonneg n
    simp only [isSigned64, Bool.and_eq_true, decide_eq_true_eq]
    exact ⟨Int.le_trans (by decide) hnonneg, hsmall⟩
  · have hchars : integerChars (n : Int) = Nat.toDigits 10 n := rfl
    simp [Settings.numberLine, hchars]

end Toml

namespace Settings

variable {s : Settings}

theorem isWritable_iff : s.isWritable = true ↔ s.queue.initialCapacity < integerLimit ∧
    (∀ n ∈ s.queue.maxCapacity, n < integerLimit) ∧ s.queue.pollInterval < integerLimit := by
  simp [isWritable, Option.all_eq_true, and_assoc]

theorem prints_columns (s : Settings) :
    Toml.Prints (optionalLine (textLine "otel_endpoint") s.endpoint ++ textLine "log_level" s.logLevel)
      s.given.columns :=
  (Toml.Prints.text (by decide) s.endpoint).append (.text (by decide) (some s.logLevel))

theorem prints_queueColumns (writable : s.isWritable = true) :
    Toml.Prints (textLine "name" s.queue.name ++
      (numberLine "initial_capacity" s.queue.initialCapacity ++
        (optionalLine (numberLine "max_capacity") s.queue.maxCapacity ++
          numberLine "poll_interval_ms" s.queue.pollInterval))) s.given.queueColumns := by
  obtain ⟨hinitial, hmax, hpoll⟩ := isWritable_iff.mp writable
  have hsmall : ∀ {k : Nat}, k < integerLimit → ∀ n ∈ some k, n < integerLimit := by
    rintro k hk _ ⟨⟩
    exact hk
  exact (Toml.Prints.text (by decide) (some s.queue.name)).append
    ((Toml.Prints.number (by decide) (some s.queue.initialCapacity) (hsmall hinitial)).append
      ((Toml.Prints.number (by decide) s.queue.maxCapacity hmax).append
        (.number (by decide) (some s.queue.pollInterval) (hsmall hpoll))))

/-! ## §3 Documents -/

/-- What is printed is a document that gives all that the settings are. -/
theorem documentGives_printed (writable : s.isWritable = true) :
    DocumentGives (bytesOf (String.ofList s.documentChars ++ "\n")) s.given := by
  obtain ⟨top, htop, hentries⟩ := s.prints_columns
  obtain ⟨inner, hinner, hentries'⟩ := prints_queueColumns writable
  refine documentGives_of_lines hentries hentries' 1 1 ?_
  have hheader : Toml.headerChars "queue" = "[queue]".toList ++ ['\n'] := by decide
  rw [htop, hinner, hheader, String.toList_append, String.toList_ofList]
  simp [documentChars]

/-- **Settings that pass the check are loaded as they are from the document that is printed for
them.** -/
theorem ofFile_printed (valid : s.queue.validate = .ok ()) (writable : s.isWritable = true)
    (path : String) : ofFile path (.ok (bytesOf (String.ofList s.documentChars ++ "\n"))) = .ok s := by
  rw [ofFile_eq (documentGives_printed writable), settings?_given]
  simp only [validated, valid]

end Settings

/-! ## §4 The program -/

namespace CommandLine

/-- **The settings that the environment gives are printed as a document from which they can be loaded
back**, if their numbers are signed 64-bit ones. Otherwise nothing is printed. -/
theorem printed_settings_reload (inputs : Inputs) (s : Settings)
    (loaded : Settings.ofEnvironment
      (EnvironmentFile.load inputs.environment inputs.environmentFile) = .ok s) :
    parse ["config"] = some ⟨none, .config⟩ ∧
    (s.queue.initialCapacity < Nat.pow 2 63 ∧ (∀ n ∈ s.queue.maxCapacity, n < Nat.pow 2 63) ∧
        s.queue.pollInterval < Nat.pow 2 63 →
      ∃ text, execute ⟨none, .config⟩ inputs = ⟨0, text, ""⟩ ∧
        ∀ path, Settings.ofFile path (.ok (bytesOf text)) = .ok s) ∧
    (¬ (s.queue.initialCapacity < Nat.pow 2 63 ∧ (∀ n ∈ s.queue.maxCapacity, n < Nat.pow 2 63) ∧
        s.queue.pollInterval < Nat.pow 2 63) →
      execute ⟨none, .config⟩ inputs =
        ⟨1, "", "Error: out-of-range value for u64 type\n"⟩) := by
  have hexecute : execute ⟨none, .config⟩ inputs = perform s inputs.standardInput .config := by
    simp only [execute, settingsOf, loaded]
  refine ⟨by decide +kernel, fun small => ?_, fun large => ?_⟩
  · have hwritable := Settings.isWritable_iff.mpr small
    refine ⟨String.ofList s.documentChars ++ "\n", ?_,
      Settings.ofFile_printed (Settings.validate_of_ofEnvironment loaded) hwritable⟩
    simp only [hexecute, perform, Settings.document?, hwritable, if_true, Result.success]
  · have hwritable : ¬ s.isWritable = true := fun h => large (Settings.isWritable_iff.mp h)
    have hdocument : s.document? = none := if_neg hwritable
    simp only [hexecute, perform, hdocument]
    rfl

theorem eq_ok_of_toOption {answer : Except Error Settings} {s : Settings}
    (h : answer.toOption = some s) : answer = .ok s := by
  cases answer with
  | error e => cases h
  | ok t =>
    cases h
    rfl

/-- A queue whose name has quotes of both kinds, a backslash and a line break, with a ceiling. -/
theorem printed_settings_reload_quoted :
    let inputs : Inputs := ⟨[("WORKQ_QUEUE_NAME", bytesOf "it's\n\"\"\"C:\\new\"\"\""),
      ("WORKQ_MAX_CAPACITY", bytesOf " +64 ")], none, .error .missing, []⟩
    let s : Settings := ⟨none, "info", "it's\n\"\"\"C:\\new\"\"\"", 16, some 64, 100⟩
    Settings.ofEnvironment (EnvironmentFile.load inputs.environment inputs.environmentFile) = .ok s ∧
    ∃ text, execute ⟨none, .config⟩ inputs = ⟨0, text, ""⟩ ∧
      Settings.ofFile "workq.toml" (.ok (bytesOf text)) = .ok s := by
  intro inputs s
  have hloaded : Settings.ofEnvironment
      (EnvironmentFile.load inputs.environment inputs.environmentFile) = .ok s :=
    eq_ok_of_toOption (by decide +kernel)
  obtain ⟨-, hprinted, -⟩ := printed_settings_reload inputs s hloaded
  obtain ⟨text, hexecute, hreload⟩ := hprinted (by decide)
  exact ⟨hloaded, text, hexecute, hreload "workq.toml"⟩

/-- A poll interval of more milliseconds than a document can hold is accepted and not printed. -/
theorem long_poll_not_printed :
    let inputs : Inputs := ⟨[("WORKQ_POLL_INTERVAL_MS", bytesOf "9223372036854775808")], none,
      .error .missing, []⟩
    (∃ s, Settings.ofEnvironment
      (EnvironmentFile.load inputs.environment inputs.environmentFile) = .ok s) ∧
    parse ["config"] = some ⟨none, .config⟩ ∧
    (execute ⟨none, .config⟩ inputs).code = 1 ∧ (execute ⟨none, .config⟩ inputs).output = "" := by
  intro inputs
  have hloaded : Settings.ofEnvironment
      (EnvironmentFile.load inputs.environment inputs.environmentFile) =
        .ok ⟨none, "info", "work", 16, none, 9223372036854775808⟩ :=
    eq_ok_of_toOption (by decide +kernel)
  exact ⟨⟨_, hloaded⟩, by decide +kernel, by decide +kernel, by decide +kernel⟩

end CommandLine

end Handoff
