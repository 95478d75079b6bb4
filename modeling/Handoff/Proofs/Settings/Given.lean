/-
Handoff.Proofs.Settings.Given — what is given of the settings, in the environment or in a document.

Settings come from a text or an integer for some keys and nothing for the others (`Given`). Variables
hold what is given if they hold the same texts, and the integers in decimal with blanks around them
(`Environment.Holds`). A document gives it if its table has the same values, whatever else it has
(`DocumentGives`). Whatever is given can be given in both ways.

  §1 what is given     — `Given`, `Environment.Holds`, `DocumentGives`
  §2 columns           — `said`, `lookup_said`
  §3 environments      — `Environment.exists_holds`
  §4 documents         — `documentGives_of_lines`, `exists_documentGives`
-/
import Handoff.Proofs.Text.Utf8
import Handoff.Proofs.Toml.Lines
import Handoff.Settings.Document
import Handoff.Settings.Environment

namespace Handoff

open Text (decimalValue)

/-! ## §1 What is given -/

/-- What is given of the settings: a text or an integer for each key, or nothing. -/
structure Given where
  endpoint : Option String
  logLevel : Option String
  name : Option String
  initial : Option Int
  max : Option Int
  poll : Option Int
  deriving DecidableEq, Repr

/-- Integers that are signed 64-bit ones. -/
structure Given.Signed64 (g : Given) : Prop where
  initial : ∀ n ∈ g.initial, Toml.isSigned64 n = true
  max : ∀ n ∈ g.max, Toml.isSigned64 n = true
  poll : ∀ n ∈ g.poll, Toml.isSigned64 n = true

/-- An integer in decimal digits, perhaps with a sign before them. -/
inductive Decimal : List Char → Int → Prop where
  | plain {ds : List Char} (ne_nil : ds ≠ []) (digits : ds.all Char.isDigit = true) :
      Decimal ds (decimalValue ds)
  | plus {ds : List Char} (ne_nil : ds ≠ []) (digits : ds.all Char.isDigit = true) :
      Decimal ('+' :: ds) (decimalValue ds)
  | minus {ds : List Char} (ne_nil : ds ≠ []) (digits : ds.all Char.isDigit = true) :
      Decimal ('-' :: ds) (-decimalValue ds)

/-- An integer in decimal with blanks around it. -/
def Padded (raw : String) (n : Int) : Prop :=
  ∃ b s b', b.all Text.isBlank = true ∧ b'.all Text.isBlank = true ∧ Decimal s n ∧
    raw.toList = b ++ (s ++ b')

namespace Environment

/-- The variable holds the integer, or nothing if there is none. -/
def HoldsInteger (env : Environment) (name : String) : Option Int → Prop
  | none => env.get? name = none
  | some n => ∃ raw, env.get? name = some raw ∧ Padded raw n

/-- The variables hold what is given. -/
structure Holds (env : Environment) (g : Given) : Prop where
  endpoint : env.get? "OTEL_ENDPOINT" = g.endpoint
  logLevel : env.get? "LOG_LEVEL" = g.logLevel
  name : env.get? "WORKQ_QUEUE_NAME" = g.name
  initial : env.HoldsInteger "WORKQ_INITIAL_CAPACITY" g.initial
  max : env.HoldsInteger "WORKQ_MAX_CAPACITY" g.max
  poll : env.HoldsInteger "WORKQ_POLL_INTERVAL_MS" g.poll

end Environment

namespace Toml.Entries

/-- The keys of the table of a queue have the values that are given; there may be others. -/
structure GivesQueue (es : Entries) (g : Given) : Prop where
  name : es.find? "name" = g.name.map .string
  initial : es.find? "initial_capacity" = g.initial.map .integer
  max : es.find? "max_capacity" = g.max.map .integer
  poll : es.find? "poll_interval_ms" = g.poll.map .integer

/-- The keys of a document have the values that are given; there may be others. The table of the
queue may be missing if it would say nothing. -/
structure Gives (es : Entries) (g : Given) : Prop where
  endpoint : es.find? "otel_endpoint" = g.endpoint.map .string
  logLevel : es.find? "log_level" = g.logLevel.map .string
  queue : (es.find? "queue" = none ∧ GivesQueue [] g) ∨
    ∃ origin inner, es.find? "queue" = some (.table origin inner) ∧ GivesQueue inner g

end Toml.Entries

/-- The bytes are those of a document that gives this. -/
def DocumentGives (bytes : List UInt8) (g : Given) : Prop :=
  ∃ cs es, Text.decodeUtf8 bytes = .ok cs ∧ Toml.parse cs = some es ∧ es.Gives g

/-! ## §2 Columns -/

section Columns

variable {α : Type} {columns : List (String × Option α)} {key : String} {a? : Option α}

/-- What is said of some keys: those for which there is something, in their order. -/
def said (columns : List (String × Option α)) : List (String × α) :=
  columns.filterMap fun c => c.2.map (c.1, ·)

theorem keys_said (columns : List (String × Option α)) :
    ((said columns).map (·.1)).Sublist (columns.map (·.1)) := by
  induction columns with
  | nil => exact .slnil
  | cons c columns ih =>
    obtain ⟨key, a?⟩ := c
    cases a? with
    | none => exact ih.cons key
    | some a => exact ih.cons_cons key

theorem mem_said {e : String × α} (h : e ∈ said columns) : (e.1, some e.2) ∈ columns := by
  obtain ⟨⟨key, a?⟩, hmem, heq⟩ := List.mem_filterMap.mp h
  obtain ⟨a, rfl, rfl⟩ := Option.map_eq_some_iff.mp heq
  exact hmem

/-- What is said of a key is what there is for it, if no key comes twice. -/
theorem lookup_said (distinct : (columns.map (·.1)).Nodup) (h : (key, a?) ∈ columns) :
    (said columns).lookup key = a? := by
  induction columns with
  | nil => cases h
  | cons c columns ih =>
    obtain ⟨key', b?⟩ := c
    obtain ⟨hnew, hothers⟩ := List.nodup_cons.mp distinct
    rcases List.mem_cons.mp h with heq | hmem
    · cases heq
      cases a? with
      | some a => simp [said]
      | none =>
        show (said columns).lookup key = none
        rw [List.lookup_eq_none_iff]
        intro e he
        rw [bne_iff_ne]
        rintro rfl
        exact hnew ((keys_said columns).subset (List.mem_map.mpr ⟨e, he, rfl⟩))
    · have hne : key ≠ key' := by
        rintro rfl
        exact hnew (List.mem_map.mpr ⟨_, hmem, rfl⟩)
      cases b? with
      | none => exact ih hothers hmem
      | some b =>
        show List.lookup key ((key', b) :: said columns) = a?
        rw [List.lookup_cons, beq_eq_false_iff_ne.mpr hne]
        exact ih hothers hmem

end Columns

/-! ## §3 Environments -/

theorem decimal_signedChars (negative : Bool) {ds : List Char} (h : Json.Digits ds) :
    Decimal (Toml.signedChars negative ds)
      (if negative then -(decimalValue ds : Int) else decimalValue ds) := by
  have hall : ds.all Char.isDigit = true := List.all_eq_true.mpr h.isDigit
  cases negative with
  | true => exact .minus h.ne_nil hall
  | false => exact .plain h.ne_nil hall

theorem decimal_integerChars (n : Int) : Decimal (Toml.integerChars n) n := by
  have h := decimal_signedChars (n < 0) (Json.Numeral.digits_decimalChars n.natAbs)
  rwa [Toml.signed_decimalChars] at h

/-- The bytes of a text. -/
def bytesOf (s : String) : List UInt8 := s.toList.flatMap String.utf8EncodeChar

theorem decodeUtf8_bytesOf (s : String) : Text.decodeUtf8 (bytesOf s) = .ok s.toList :=
  Text.decodeUtf8_eq_ok_iff.mpr rfl

theorem textOfBytes?_bytesOf (s : String) : Text.textOfBytes? (bytesOf s) = some s := by
  rw [Text.textOfBytes?, decodeUtf8_bytesOf]
  simp

/-- The variables that hold what is given, with the bytes of their texts. -/
def Given.variables (g : Given) : List (String × Option (List UInt8)) :=
  [("OTEL_ENDPOINT", g.endpoint.map bytesOf), ("LOG_LEVEL", g.logLevel.map bytesOf),
    ("WORKQ_QUEUE_NAME", g.name.map bytesOf),
    ("WORKQ_INITIAL_CAPACITY", g.initial.map fun n => bytesOf (.ofList (Toml.integerChars n))),
    ("WORKQ_MAX_CAPACITY", g.max.map fun n => bytesOf (.ofList (Toml.integerChars n))),
    ("WORKQ_POLL_INTERVAL_MS", g.poll.map fun n => bytesOf (.ofList (Toml.integerChars n)))]

/-- **Whatever is given can be held by variables.** -/
theorem Environment.exists_holds (g : Given) : ∃ env : Environment, env.Holds g := by
  have hlookup : ∀ {name bytes?}, (name, bytes?) ∈ g.variables →
      Environment.get? (said g.variables) name = bytes?.bind Text.textOfBytes? := by
    intro name bytes? h
    rw [get?, lookup_said (show (g.variables.map (·.1)).Nodup by simp [Given.variables]) h]
  have hstring : ∀ {name text}, (name, Option.map bytesOf text) ∈ g.variables →
      Environment.get? (said g.variables) name = text := by
    intro name text h
    rw [hlookup h]
    cases text with
    | none => rfl
    | some s => exact textOfBytes?_bytesOf s
  have hinteger : ∀ {name n?},
      (name, Option.map (fun n => bytesOf (.ofList (Toml.integerChars n))) n?) ∈ g.variables →
      Environment.HoldsInteger (said g.variables) name n? := by
    intro name n? h
    cases n? with
    | none => exact hlookup h
    | some n =>
      exact ⟨_, (hlookup h).trans (textOfBytes?_bytesOf _), [], Toml.integerChars n, [], rfl, rfl,
        decimal_integerChars n, by simp⟩
  exact ⟨said g.variables, hstring (by simp [Given.variables]), hstring (by simp [Given.variables]),
    hstring (by simp [Given.variables]), hinteger (by simp [Given.variables]),
    hinteger (by simp [Given.variables]), hinteger (by simp [Given.variables])⟩

/-! ## §4 Documents -/

namespace Toml

/-- Columns whose keys need no quotes and whose values can be spelled can be written as lines. -/
theorem exists_lines {columns : List (String × Option Value)}
    (h : ∀ c ∈ columns, isBareKey c.1 = true ∧ ∀ v ∈ c.2, ∃ text, Spelled text v) :
    ∃ ls : List Line, ls.map Line.entry = said columns := by
  have hlines : ∀ es : Entries, (∀ e ∈ es, (e.1, some e.2) ∈ columns) →
      ∃ ls : List Line, ls.map Line.entry = es := by
    intro es
    induction es with
    | nil => exact fun _ => ⟨[], rfl⟩
    | cons e es ih =>
      intro hmem
      obtain ⟨ls, hls⟩ := ih fun e' he => hmem e' (List.mem_cons_of_mem _ he)
      obtain ⟨bare, hspelled⟩ := h _ (hmem e List.mem_cons_self)
      obtain ⟨text, spelled⟩ := hspelled e.2 rfl
      exact ⟨⟨e.1, text, e.2, bare, spelled⟩ :: ls, by rw [List.map_cons, hls]; rfl⟩
  exact hlines (said columns) fun _ => mem_said

theorem exists_spelled_text (text : Option String) :
    ∀ v ∈ text.map Value.string, ∃ t, Spelled t v := by
  intro v hv
  obtain ⟨s, -, rfl⟩ := Option.map_eq_some_iff.mp hv
  exact ⟨_, spelled_text s⟩

theorem exists_spelled_integer {n? : Option Int} (signed : ∀ n ∈ n?, isSigned64 n = true) :
    ∀ v ∈ n?.map Value.integer, ∃ t, Spelled t v := by
  intro v hv
  obtain ⟨n, hn, rfl⟩ := Option.map_eq_some_iff.mp hv
  exact ⟨_, spelled_integer (signed n hn)⟩

/-- Lines that are different columns have different keys. -/
theorem nodup_keys {columns : List (String × Option Value)} {ls : List Line}
    (distinct : (columns.map (·.1)).Nodup) (h : ls.map Line.entry = said columns) :
    (ls.map Line.key).Nodup := by
  have hkeys : ls.map Line.key = (said columns).map (·.1) := by
    rw [← h, List.map_map]
    rfl
  rw [hkeys]
  exact (keys_said columns).nodup distinct

end Toml

namespace Given

/-- The keys of a document before the table of the queue. -/
def columns (g : Given) : List (String × Option Toml.Value) :=
  [("otel_endpoint", g.endpoint.map .string), ("log_level", g.logLevel.map .string)]

/-- The keys of the table of the queue. -/
def queueColumns (g : Given) : List (String × Option Toml.Value) :=
  [("name", g.name.map .string), ("initial_capacity", g.initial.map .integer),
    ("max_capacity", g.max.map .integer), ("poll_interval_ms", g.poll.map .integer)]

variable (g : Given)

theorem nodup_columns : (g.columns.map (·.1)).Nodup := by simp [columns]

theorem nodup_queueColumns : (g.queueColumns.map (·.1)).Nodup := by simp [queueColumns]

theorem givesQueue_said : Toml.Entries.GivesQueue (said g.queueColumns) g :=
  ⟨lookup_said g.nodup_queueColumns (by simp [queueColumns]),
    lookup_said g.nodup_queueColumns (by simp [queueColumns]),
    lookup_said g.nodup_queueColumns (by simp [queueColumns]),
    lookup_said g.nodup_queueColumns (by simp [queueColumns])⟩

/-- The table of a document that says what is given, and no more. -/
def entries : Toml.Entries :=
  said g.columns ++ [("queue", .table .header (said g.queueColumns))]

/-- The table of the queue is none of the columns before it. -/
theorem queue_notMem {g : Given} {e : String × Toml.Value} (h : e ∈ said g.columns) :
    e.1 ≠ "queue" := by
  have hmem := mem_said h
  simp only [columns, List.mem_cons, Prod.mk.injEq, List.not_mem_nil, or_false] at hmem
  rcases hmem with ⟨hkey, -⟩ | ⟨hkey, -⟩ <;> simp [hkey]

theorem gives_entries : g.entries.Gives g := by
  have hqueue : Toml.Entries.find? (said g.columns) "queue" = none :=
    Toml.Entries.find?_eq_none.mpr fun _ => queue_notMem
  have hother : ∀ {key v?}, key ≠ "queue" → (key, v?) ∈ g.columns →
      g.entries.find? key = v? := by
    intro key v? hne hmem
    have hlast : Toml.Entries.find? [("queue", .table .header (said g.queueColumns))] key = none := by
      simp [Toml.Entries.find?, hne]
    rw [entries, Toml.Entries.find?_append, hlast, Option.or_none]
    exact lookup_said g.nodup_columns hmem
  refine ⟨hother (by decide) (by simp [columns]), hother (by decide) (by simp [columns]), .inr
    ⟨.header, said g.queueColumns, ?_, g.givesQueue_said⟩⟩
  rw [entries, Toml.Entries.find?_append, hqueue]
  rfl

end Given

/-- A document of lines gives what its lines say; there may be empty lines before the header of the
queue and at the end. -/
theorem documentGives_of_lines {g : Given} {top inner : List Toml.Line}
    (htop : top.map Toml.Line.entry = said g.columns)
    (hinner : inner.map Toml.Line.entry = said g.queueColumns) (before after : Nat) {text : String}
    (htext : text.toList = Toml.linesChars top ++ (List.replicate before '\n' ++
      (Toml.headerChars "queue" ++ (Toml.linesChars inner ++ List.replicate after '\n')))) :
    DocumentGives (bytesOf text) g := by
  have hkeys := Toml.nodup_keys g.nodup_columns htop
  have hinnerKeys := Toml.nodup_keys g.nodup_queueColumns hinner
  have hqueue : ∀ l ∈ top, l.key ≠ "queue" := by
    intro l hl
    have hmem : l.entry ∈ said g.columns := htop ▸ List.mem_map.mpr ⟨l, hl, rfl⟩
    exact Given.queue_notMem hmem
  have hbare : Toml.isBareKey "queue" = true := by decide
  have hparse := Toml.parse_spaced hbare hkeys hqueue hinnerKeys before after
  rw [htop, hinner, ← htext] at hparse
  exact ⟨text.toList, g.entries, decodeUtf8_bytesOf text, hparse, g.gives_entries⟩

/-- **Whatever is given of texts and signed 64-bit integers can be written in a document.** -/
theorem exists_documentGives {g : Given} (signed : g.Signed64) :
    ∃ bytes, DocumentGives bytes g := by
  have htext := Toml.exists_spelled_text
  obtain ⟨top, htop⟩ : ∃ ls : List Toml.Line, ls.map Toml.Line.entry = said g.columns := by
    refine Toml.exists_lines ?_
    simp only [Given.columns, List.forall_mem_cons]
    exact ⟨⟨by decide, htext _⟩, ⟨by decide, htext _⟩, nofun⟩
  obtain ⟨inner, hinner⟩ : ∃ ls : List Toml.Line, ls.map Toml.Line.entry = said g.queueColumns := by
    refine Toml.exists_lines ?_
    simp only [Given.queueColumns, List.forall_mem_cons]
    exact ⟨⟨by decide, htext _⟩, ⟨by decide, Toml.exists_spelled_integer signed.initial⟩,
      ⟨by decide, Toml.exists_spelled_integer signed.max⟩,
      ⟨by decide, Toml.exists_spelled_integer signed.poll⟩, nofun⟩
  exact ⟨_, documentGives_of_lines htop hinner 0 0 String.toList_ofList⟩

end Handoff
