/-
Handoff.Proofs.Settings.Loading — the environment and a document give the same settings.

The two ways of loading settings share nothing but the check at their end. One reads text and parses
numbers out of it, the other reads typed values; each fills in what is missing in its own way. What
both are compared with is what is given: from it the settings are known (`Given.settings?`), and there
are none if an integer is negative.

A document has these settings or none, as they are (`ofEntries_eq`). The environment may also reject
a text that is a number: a zero with a minus sign. But no zero passes the check, so that both reject
it, if not for the same reason (`QueueSettings.fault?_of_zero`).

  §1 the settings      — `Given.settings?`, `Given.fault?_of_nonpos`
  §2 documents         — `ofEntries_eq`
  §3 environments      — `Decimal.word?`, `Environment.getNumber_cases`, `gather_cases`
  §4 agreement         — `Agree`, `loaders_agree`
-/
import Handoff.Proofs.Settings.Given

namespace Handoff

open Text (decimalValue)

/-! ## §1 The settings -/

namespace Given

/-- The number that an integer is, if one is given; a negative one is none. -/
def natural? : Option Int → Option (Option Nat)
  | none => some none
  | some n => if 0 ≤ n then some (some n.toNat) else none

/-- The settings of the queue that are given, with the standard values for what is not. -/
def queue? (g : Given) : Option QueueSettings := do
  let initial ← natural? g.initial
  let max ← natural? g.max
  let poll ← natural? g.poll
  return {
    name := g.name.getD QueueSettings.standard.name
    initialCapacity := initial.getD QueueSettings.standard.initialCapacity
    maxCapacity := max
    pollInterval := poll.getD QueueSettings.standard.pollInterval }

/-- The settings that are given, with the standard values for what is not. -/
def settings? (g : Given) : Option Settings :=
  g.queue?.map fun queue =>
    { endpoint := g.endpoint, logLevel := g.logLevel.getD Settings.standard.logLevel, queue }

variable {g : Given} {initial max poll : Option Nat}

theorem queue?_eq (hinitial : natural? g.initial = some initial) (hmax : natural? g.max = some max)
    (hpoll : natural? g.poll = some poll) : g.queue? = some
      ⟨g.name.getD QueueSettings.standard.name,
        initial.getD QueueSettings.standard.initialCapacity, max,
        poll.getD QueueSettings.standard.pollInterval⟩ := by
  simp only [queue?, hinitial, hmax, hpoll]
  rfl

theorem exists_of_queue? {q : QueueSettings} (h : g.queue? = some q) :
    ∃ initial max poll, natural? g.initial = some initial ∧ natural? g.max = some max ∧
      natural? g.poll = some poll ∧ q =
        ⟨g.name.getD QueueSettings.standard.name,
          initial.getD QueueSettings.standard.initialCapacity, max,
          poll.getD QueueSettings.standard.pollInterval⟩ := by
  cases hinitial : natural? g.initial with
  | none => simp [queue?, hinitial] at h
  | some initial =>
    cases hmax : natural? g.max with
    | none => simp [queue?, hmax] at h
    | some max =>
      cases hpoll : natural? g.poll with
      | none => simp [queue?, hpoll] at h
      | some poll =>
        rw [queue?_eq hinitial hmax hpoll, Option.some.injEq] at h
        exact ⟨initial, max, poll, rfl, rfl, rfl, h.symm⟩

/-- Of the integers that are not positive only zero is a number. -/
theorem eq_zero_of_natural? {n? : Option Int} {k? : Option Nat} (h : natural? n? = some k?)
    (nonpos : ∃ n ∈ n?, n ≤ 0) : k? = some 0 := by
  obtain ⟨n, hn, hle⟩ := nonpos
  rw [Option.mem_def] at hn
  subst hn
  simp only [natural?, Option.ite_none_right_eq_some, Option.some.injEq] at h
  obtain ⟨hnonneg, rfl⟩ := h
  rw [show n = 0 by omega]
  rfl

end Given

/-- No number of a queue's settings may be zero. -/
theorem QueueSettings.fault?_of_zero {q : QueueSettings}
    (zero : q.initialCapacity = 0 ∨ q.maxCapacity = some 0 ∨ q.pollInterval = 0) :
    ∃ fault, q.fault? = some fault := by
  unfold fault?
  split
  · exact ⟨_, rfl⟩
  · next hinitial =>
    split
    · exact ⟨_, rfl⟩
    · next hceiling =>
      rcases zero with h | h | h
      · exact absurd h hinitial
      · rw [h] at hceiling
        cases hceiling
      · rw [if_pos h]
        exact ⟨_, rfl⟩

/-- Settings of which an integer is not positive are no settings, or do not pass the check. -/
theorem Given.fault?_of_nonpos {g : Given} {q : QueueSettings} (h : g.queue? = some q)
    (nonpos : (∃ n ∈ g.initial, n ≤ 0) ∨ (∃ n ∈ g.max, n ≤ 0) ∨ ∃ n ∈ g.poll, n ≤ 0) :
    ∃ fault, q.fault? = some fault := by
  obtain ⟨initial, max, poll, hinitial, hmax, hpoll, rfl⟩ := exists_of_queue? h
  refine QueueSettings.fault?_of_zero ?_
  rcases nonpos with hn | hn | hn
  · exact .inl (by rw [eq_zero_of_natural? hinitial hn]; rfl)
  · exact .inr (.inl (eq_zero_of_natural? hmax hn))
  · exact .inr (.inr (by rw [eq_zero_of_natural? hpoll hn]; rfl))

theorem Settings.validated_of_fault {s : Settings} {fault : ConfigFault}
    (h : s.queue.fault? = some fault) : s.validated = .error (.config fault) := by
  rw [validated, QueueSettings.validate, h]

theorem Settings.validated_cases (s : Settings) :
    s.validated = .ok s ∨ ∃ fault, s.validated = .error (.config fault) := by
  cases h : s.queue.fault? with
  | none =>
    left
    rw [validated, QueueSettings.validate, h]
  | some fault => exact .inr ⟨fault, validated_of_fault h⟩

/-! ## §2 Documents -/

theorem fieldOr_text (standard : String) (text : Option String) :
    fieldOr (·.text?) standard (text.map .string) = some (text.getD standard) := by
  cases text <;> rfl

theorem fieldOr_optionalText (text : Option String) :
    fieldOr (·.text?.map some) none (text.map .string) = some text := by
  cases text <;> rfl

theorem fieldOr_natural (standard : Nat) (n : Option Int) :
    fieldOr (·.natural?) standard (n.map .integer) = (Given.natural? n).map (·.getD standard) := by
  cases n with
  | none => rfl
  | some n =>
    simp only [Option.map_some, fieldOr, Toml.Value.natural?, Given.natural?]
    split <;> rfl

theorem fieldOr_optionalNatural (n : Option Int) :
    fieldOr (·.natural?.map some) none (n.map .integer) = Given.natural? n := by
  cases n with
  | none => rfl
  | some n =>
    simp only [Option.map_some, fieldOr, Toml.Value.natural?, Given.natural?]
    split <;> rfl

theorem QueueSettings.ofFields_eq (g : Given) :
    ofFields (g.name.map .string) (g.initial.map .integer) (g.max.map .integer)
      (g.poll.map .integer) = g.queue? := by
  have hmax := fieldOr_optionalNatural g.max
  unfold ofFields Given.queue?
  rw [fieldOr_text, fieldOr_natural, fieldOr_natural, show standard.maxCapacity = none from rfl,
    hmax]
  cases Given.natural? g.initial with
  | none => rfl
  | some initial =>
    cases Given.natural? g.max with
    | none => rfl
    | some max => cases Given.natural? g.poll <;> rfl

theorem QueueSettings.ofValue_table {es : Toml.Entries} {g : Given} (h : es.GivesQueue g)
    (origin : Toml.Origin) : ofValue (.table origin es) = g.queue? := by
  show ofFields (es.find? "name") (es.find? "initial_capacity") (es.find? "max_capacity")
    (es.find? "poll_interval_ms") = g.queue?
  rw [h.name, h.initial, h.max, h.poll, ofFields_eq]

/-- Where nothing is given, the settings are the standard ones. -/
theorem Toml.Entries.GivesQueue.standard {g : Given} (h : GivesQueue [] g) :
    g.queue? = some QueueSettings.standard :=
  (QueueSettings.ofValue_table h .header).symm

/-- **A document is read as the settings that it gives.** -/
theorem Settings.ofEntries_eq {es : Toml.Entries} {g : Given} (h : es.Gives g) :
    ofEntries es = g.settings? := by
  have hqueue : fieldOr QueueSettings.ofValue standard.queue (es.find? "queue") = g.queue? := by
    rcases h.queue with ⟨hnone, hinner⟩ | ⟨origin, inner, hsome, hinner⟩
    · rw [hnone, hinner.standard]
      rfl
    · rw [hsome]
      exact QueueSettings.ofValue_table hinner origin
  unfold ofEntries
  rw [h.endpoint, h.logLevel, hqueue, fieldOr_text, show standard.endpoint = none from rfl,
    fieldOr_optionalText]
  cases hq : g.queue? <;> simp [Given.settings?, hq]

/-! ## §3 Environments -/

theorem not_isBlank_of_digit {c : Char} (h : c.isDigit = true) : Text.isBlank c = false := by
  have hrange : 48 ≤ c.toNat ∧ c.toNat ≤ 57 := by
    simpa [Char.isDigit, Char.le_def, UInt32.le_iff_toNat_le] using h
  simp [Text.isBlank]
  omega

/-- An integer in decimal is not empty and has no blank in it. -/
theorem Decimal.not_isBlank {s : List Char} {n : Int} (h : Decimal s n) :
    s ≠ [] ∧ ∀ c ∈ s, Text.isBlank c = false := by
  have hdigits : ∀ {ds : List Char}, ds.all Char.isDigit = true →
      ∀ c ∈ ds, Text.isBlank c = false := fun digits c hc =>
    not_isBlank_of_digit (List.all_eq_true.mp digits c hc)
  cases h with
  | plain ne_nil digits => exact ⟨ne_nil, hdigits digits⟩
  | plus _ digits =>
    exact ⟨List.cons_ne_nil _ _, List.forall_mem_cons.mpr ⟨rfl, hdigits digits⟩⟩
  | minus _ digits =>
    exact ⟨List.cons_ne_nil _ _, List.forall_mem_cons.mpr ⟨rfl, hdigits digits⟩⟩

theorem dropWhile_padded {b s rest : List Char} {p : Char → Bool} (hb : b.all p = true)
    (hs : ∀ c ∈ s, p c = false) (ne_nil : s ≠ []) :
    (b ++ (s ++ rest)).dropWhile p = s ++ rest := by
  rw [List.dropWhile_append_of_pos (List.all_eq_true.mp hb)]
  obtain ⟨c, t, rfl⟩ := List.exists_cons_of_ne_nil ne_nil
  rw [List.cons_append, List.dropWhile_cons_of_neg (by simp [hs c List.mem_cons_self])]

/-- Blanks around a text without blanks are taken off. -/
theorem trim_padded {b s b' : List Char} (hb : b.all Text.isBlank = true)
    (hb' : b'.all Text.isBlank = true) (hs : ∀ c ∈ s, Text.isBlank c = false) (ne_nil : s ≠ []) :
    Text.trim (b ++ (s ++ b')) = s := by
  have hend : (b'.reverse ++ (s.reverse ++ [])).dropWhile Text.isBlank = s.reverse ++ [] :=
    dropWhile_padded (by rw [List.all_reverse]; exact hb')
      (fun c hc => hs c (List.mem_reverse.mp hc)) (by simpa using ne_nil)
  rw [List.append_nil] at hend
  rw [Text.trim, Text.trimStart, dropWhile_padded hb hs ne_nil, Text.trimEnd, List.reverse_append,
    hend, List.reverse_reverse]

theorem word?_digits {ds : List Char} (ne_nil : ds ≠ []) (digits : ds.all Char.isDigit = true)
    (small : decimalValue ds < wordLimit) {s : List Char} (h : Text.withoutPlus s = ds) :
    Text.word? s = some (decimalValue ds) := by
  simp [Text.word?, h, ne_nil, digits, small]

/-- A number in decimal is read as a word; one with a minus sign is not, be it zero or not. -/
theorem Decimal.word? {s : List Char} {n : Int} (h : Decimal s n) (small : n < wordLimit) :
    (0 ≤ n ∧ Text.word? s = some n.toNat) ∨ (n ≤ 0 ∧ Text.word? s = none) := by
  cases h with
  | @plain ds ne_nil digits =>
    left
    refine ⟨by omega, word?_digits ne_nil digits (by omega) ?_⟩
    obtain ⟨c, t, rfl⟩ := List.exists_cons_of_ne_nil ne_nil
    have hc : c ≠ '+' := by
      rintro rfl
      exact absurd digits (by simp)
    rw [Text.withoutPlus, if_neg hc]
  | plus ne_nil digits =>
    exact .inl ⟨by omega, word?_digits ne_nil digits (by omega) rfl⟩
  | minus ne_nil digits =>
    right
    refine ⟨by omega, ?_⟩
    simp [Text.word?, Text.withoutPlus]

namespace Environment

variable {env : Environment} {name : String}

/-- A variable that holds an integer is read as the number that it is, or it is an error and the
integer is not positive. -/
theorem getNumber_cases {n? : Option Int} (h : env.HoldsInteger name n?)
    (signed : ∀ n ∈ n?, Toml.isSigned64 n = true) :
    (∃ k?, Given.natural? n? = some k? ∧ env.getNumber name = .ok k?) ∨
      ((∃ n ∈ n?, n ≤ 0) ∧ ∃ fault, env.getNumber name = .error (.config fault)) := by
  cases n? with
  | none =>
    left
    refine ⟨none, rfl, ?_⟩
    have hnone : env.get? name = none := h
    rw [getNumber, hnone]
  | some n =>
    obtain ⟨raw, hraw, b, s, b', hb, hb', decimal, htext⟩ := h
    have hsmall : n < wordLimit := by
      have hsigned := signed n rfl
      simp only [Toml.isSigned64, Bool.and_eq_true, decide_eq_true_eq] at hsigned
      have hlt : n < 2 ^ 63 := hsigned.2
      have hlimit : (wordLimit : Int) = 2 ^ 64 := rfl
      omega
    have hnumber : number? raw = Text.word? s := by
      rw [number?, htext, trim_padded hb hb' decimal.not_isBlank.2 decimal.not_isBlank.1]
    rcases decimal.word? hsmall with ⟨hnonneg, hword⟩ | ⟨hnonpos, hword⟩
    · left
      refine ⟨some n.toNat, by rw [Given.natural?, if_pos hnonneg], ?_⟩
      rw [getNumber, hraw]
      simp only [hnumber, hword]
    · right
      refine ⟨⟨n, rfl, hnonpos⟩, .badVariable name raw, ?_⟩
      rw [getNumber, hraw]
      simp only [hnumber, hword]

end Environment

/-- **The environment is read as the settings that it gives**, or it is an error and no settings with
these integers pass the check. -/
theorem Settings.gather_cases {env : Environment} {g : Given} (h : env.Holds g)
    (signed : g.Signed64) :
    (∃ s, g.settings? = some s ∧ gather env = .ok s) ∨
      ((∃ fault, gather env = .error (.config fault)) ∧
        ∀ q, g.queue? = some q → ∃ fault, q.fault? = some fault) := by
  rcases Environment.getNumber_cases h.initial signed.initial with
    ⟨initial, hinitial, hgot⟩ | ⟨hnonpos, fault, hgot⟩
  · rcases Environment.getNumber_cases h.max signed.max with
      ⟨max, hmax, hgot'⟩ | ⟨hnonpos, fault, hgot'⟩
    · rcases Environment.getNumber_cases h.poll signed.poll with
        ⟨poll, hpoll, hgot''⟩ | ⟨hnonpos, fault, hgot''⟩
      · left
        have hqueue := Given.queue?_eq hinitial hmax hpoll
        refine ⟨_, by rw [Given.settings?, hqueue]; rfl, ?_⟩
        simp only [gather, hgot, hgot', hgot'', h.endpoint, h.logLevel, h.name]
        rfl
      · refine .inr ⟨⟨fault, ?_⟩, fun q hq => Given.fault?_of_nonpos hq (.inr (.inr hnonpos))⟩
        simp only [gather, hgot, hgot', hgot'']
    · refine .inr ⟨⟨fault, ?_⟩, fun q hq => Given.fault?_of_nonpos hq (.inr (.inl hnonpos))⟩
      simp only [gather, hgot, hgot']
  · refine .inr ⟨⟨fault, ?_⟩, fun q hq => Given.fault?_of_nonpos hq (.inl hnonpos)⟩
    simp only [gather, hgot]

/-! ## §4 Agreement -/

/-- Both answers are the same settings, or both are faults of the configuration. -/
inductive Agree : Except Error Settings → Except Error Settings → Prop where
  | loaded (s : Settings) : Agree (.ok s) (.ok s)
  | rejected (f f' : ConfigFault) : Agree (.error (.config f)) (.error (.config f'))

theorem Agree.eq_ok {answer : Except Error Settings} {s : Settings} (h : Agree answer (.ok s)) :
    answer = .ok s := by
  cases h
  rfl

namespace Settings

variable {s : Settings}

theorem ofFile_eq {bytes : List UInt8} {g : Given} (h : DocumentGives bytes g) (path : String) :
    ofFile path (.ok bytes) =
      match g.settings? with
      | none => .error (.config (.badFile path))
      | some s => s.validated := by
  obtain ⟨cs, es, hdecode, hparse, gives⟩ := h
  have hchars : fileChars (.ok bytes) = .ok cs := by
    rw [fileChars, hdecode]
  have hloaded : (Toml.parse cs).bind ofEntries = g.settings? := by
    rw [hparse, Option.bind_some, ofEntries_eq gives]
  cases hs : g.settings? with
  | none => simp only [ofFile, hchars, hloaded, hs]
  | some t => simp only [ofFile, hchars, hloaded, hs]

theorem validate_of_validated {t : Settings} (h : t.validated = .ok s) :
    s.queue.validate = .ok () := by
  unfold validated at h
  split at h
  · cases h
  · next hvalid =>
    cases h
    exact hvalid

theorem validate_of_ofEnvironment {env : Environment} (h : ofEnvironment env = .ok s) :
    s.queue.validate = .ok () := by
  unfold ofEnvironment at h
  split at h
  · cases h
  · exact validate_of_validated h

theorem validate_of_ofFile {path : String} {file : Except ReadFault (List UInt8)}
    (h : ofFile path file = .ok s) : s.queue.validate = .ok () := by
  unfold ofFile at h
  split at h
  · cases h
  · split at h
    · cases h
    · exact validate_of_validated h

/-- **The environment and a document that give the same are loaded as the same settings, or both are
rejected**, whatever is given and whatever other keys the document has; all settings that are loaded
pass the check. What is given is up to the user: whatever it is, there are an environment and a
document that give it. -/
theorem loaders_agree :
    (∀ (g : Given) env path bytes, g.Signed64 → env.Holds g → DocumentGives bytes g →
      Agree (ofEnvironment env) (ofFile path (.ok bytes))) ∧
    (∀ env s, ofEnvironment env = .ok s → s.queue.validate = .ok ()) ∧
    (∀ path file s, ofFile path file = .ok s → s.queue.validate = .ok ()) ∧
    ∀ g : Given, g.Signed64 →
      (∃ env : Environment, env.Holds g) ∧ ∃ bytes, DocumentGives bytes g := by
  refine ⟨fun g env path bytes signed holds gives => ?_, fun _ _ => validate_of_ofEnvironment,
    fun _ _ _ => validate_of_ofFile,
    fun g signed => ⟨Environment.exists_holds g, exists_documentGives signed⟩⟩
  rw [ofFile_eq gives]
  rcases gather_cases holds signed with ⟨s, hs, hgather⟩ | ⟨⟨fault, hgather⟩, hfault⟩
  · simp only [ofEnvironment, hgather, hs]
    rcases s.validated_cases with hvalid | ⟨fault, hvalid⟩
    · rw [hvalid]
      exact .loaded s
    · rw [hvalid]
      exact .rejected fault fault
  · simp only [ofEnvironment, hgather]
    cases hs : g.settings? with
    | none => exact .rejected fault _
    | some s =>
      obtain ⟨q, hq, rfl⟩ := Option.map_eq_some_iff.mp hs
      obtain ⟨fault', hfault'⟩ := hfault q hq
      simp only [validated_of_fault (s := ⟨_, _, q⟩) hfault']
      exact .rejected fault fault'

/-- The variables hold numbers with blanks, a sign and zeros before them; the document has keys that
are not known, and its keys stand in another order. -/
theorem loaders_agree_padded :
    let g : Given := ⟨none, some "debug", none, some 4, none, some 250⟩
    let env : Environment := [("WORKQ_POLL_INTERVAL_MS", bytesOf " +250\t"),
      ("LOG_LEVEL", bytesOf "debug"), ("WORKQ_INITIAL_CAPACITY", bytesOf "004\n")]
    let text := "retries = 3\nlog_level = \"debug\"\n[queue]\npoll_interval_ms = 250\n" ++
      "color = \"red\"\ninitial_capacity = 4\n"
    let s : Settings := ⟨none, "debug", ⟨"work", 4, none, 250⟩⟩
    g.Signed64 ∧ env.Holds g ∧ DocumentGives (bytesOf text) g ∧ ofEnvironment env = .ok s ∧
      ofFile "workq.toml" (.ok (bytesOf text)) = .ok s ∧ s.queue.validate = .ok () := by
  intro g env text s
  have hsigned : g.Signed64 := ⟨by decide, by decide, by decide⟩
  have hinitial : Decimal ['0', '0', '4'] 4 := Decimal.plain (by simp) (by decide)
  have hpoll : Decimal ['+', '2', '5', '0'] 250 := Decimal.plus (by simp) (by decide)
  have hget : ∀ {name value}, List.lookup name env = some (bytesOf value) →
      env.get? name = some value := by
    intro name value h
    rw [Environment.get?, h]
    exact textOfBytes?_bytesOf value
  have hholds : env.Holds g :=
    ⟨rfl, hget rfl, rfl, ⟨"004\n", hget rfl, [], _, ['\n'], rfl, rfl, hinitial, by decide⟩, rfl,
      ⟨" +250\t", hget rfl, [' '], _, ['\t'], rfl, rfl, hpoll, by decide⟩⟩
  let integer (key : String) (bare : Toml.isBareKey key = true) (n : Int)
      (signed : Toml.isSigned64 n = true) : Toml.Line :=
    ⟨key, _, _, bare, Toml.spelled_integer signed⟩
  let string (key : String) (bare : Toml.isBareKey key = true) (value : String) : Toml.Line :=
    ⟨key, _, _, bare, Toml.spelled_text value⟩
  let top := [integer "retries" (by decide) 3 (by decide), string "log_level" (by decide) "debug"]
  let inner := [integer "poll_interval_ms" (by decide) 250 (by decide),
    string "color" (by decide) "red", integer "initial_capacity" (by decide) 4 (by decide)]
  have hbare : Toml.isBareKey "queue" = true := by decide
  have hparse := @Toml.parse_lines top inner "queue" hbare (by decide) (by decide) (by decide)
  have htext : Toml.linesChars top ++ (Toml.headerChars "queue" ++ Toml.linesChars inner) =
      text.toList := by decide
  rw [htext] at hparse
  have hgives : DocumentGives (bytesOf text) g :=
    ⟨text.toList, _, decodeUtf8_bytesOf text, hparse, rfl, rfl,
      .inr ⟨.header, _, rfl, rfl, rfl, rfl, rfl⟩⟩
  have hfile : ofFile "workq.toml" (.ok (bytesOf text)) = .ok s := (ofFile_eq hgives _).trans rfl
  have hagree := loaders_agree.1 g env "workq.toml" (bytesOf text) hsigned hholds hgives
  have henv : ofEnvironment env = .ok s := by
    rw [hfile] at hagree
    exact hagree.eq_ok
  exact ⟨hsigned, hholds, hgives, henv, hfile, loaders_agree.2.1 env s henv⟩

end Settings

end Handoff
