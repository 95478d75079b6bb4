/-
Handoff.Proofs.Toml.Lines — documents of lines, each with a key and its value.

Most documents are plain: a key without quotes, an equals sign and a value on each line, and headers
that open tables. Such a document is the table that its lines say, in their order, as long as no key
comes twice. How a value is spelled does not matter, if the reader of values takes it (`Spelled`).

A line is read as a statement (`Line.statement_eq`), and the statements are carried out one by one:
before the header they add to the document (`build_lines`), after it to the table that the header has
opened (`build_inner`).

  §1 lines        — `Line`, `linesChars`, `headerChars`
  §2 keys         — `simpleKey_bare`, `keyPath_bare`
  §3 statements   — `statements_lines`, `statements_header`
  §4 documents    — `build_lines`, `build_inner`, `parse_spaced`
-/
import Handoff.Proofs.Toml.Spelled

namespace Handoff.Toml

/-! ## §1 Lines -/

/-- A key without quotes. -/
def isBareKey (key : String) : Bool := !key.toList.isEmpty && key.toList.all isBare

/-- A key without quotes and the characters of its value. -/
structure Line where
  key : String
  text : List Char
  value : Value
  bare : isBareKey key = true
  spelled : Spelled text value

namespace Line

/-- The characters of a line, with its end. -/
def chars (l : Line) : List Char := l.key.toList ++ (' ' :: '=' :: ' ' :: (l.text ++ ['\n']))

/-- What a line says. -/
def statement (l : Line) : Statement := .assign [l.key] l.value

/-- What a line adds to its table. -/
def entry (l : Line) : String × Value := (l.key, l.value)

end Line

/-- The characters of lines. -/
def linesChars (ls : List Line) : List Char := ls.flatMap Line.chars

/-- The characters of a header that opens a table, with the end of its line. -/
def headerChars (key : String) : List Char := '[' :: (key.toList ++ [']', '\n'])

/-! ## §2 Keys -/

section Keys

variable {key : String} {c : Char} {t : List Char}

theorem exists_of_bareKey (bare : isBareKey key = true) :
    ∃ d u, key.toList = d :: u ∧ isBare d = true := by
  simp only [isBareKey, Bool.and_eq_true, Bool.not_eq_true', List.isEmpty_eq_false_iff] at bare
  obtain ⟨d, u, heq⟩ := List.exists_cons_of_ne_nil bare.1
  refine ⟨d, u, heq, List.all_eq_true.mp bare.2 d ?_⟩
  rw [heq]
  exact List.mem_cons_self

theorem ne_of_isBare {d : Char} (h : isBare c = true) (other : isBare d = false) : c ≠ d := by
  rintro rfl
  simp [h] at other

/-- A key is read up to the first character that no key holds. -/
theorem simpleKey_bare (bare : isBareKey key = true) (limit : Nat) (other : isBare c = false) :
    simpleKey limit (key.toList ++ c :: t) = some (key, c :: t) := by
  obtain ⟨d, u, heq, hd⟩ := exists_of_bareKey bare
  have hall : ∀ d ∈ key.toList, isBare d = true := by
    simp only [isBareKey, Bool.and_eq_true] at bare
    exact List.all_eq_true.mp bare.2
  have htake : (key.toList ++ c :: t).takeWhile isBare = key.toList := by
    rw [List.takeWhile_append_of_pos hall, List.takeWhile_cons_of_neg (by simp [other]),
      List.append_nil]
  have hdrop : (key.toList ++ c :: t).dropWhile isBare = c :: t := by
    rw [List.dropWhile_append_of_pos hall, List.dropWhile_cons_of_neg (by simp [other])]
  have hquotes : ¬ (d = '"' ∨ d = '\'') :=
    not_or.mpr ⟨ne_of_isBare hd (by decide), ne_of_isBare hd (by decide)⟩
  unfold simpleKey
  rw [htake, hdrop, heq, List.cons_append]
  simp only [hquotes, hd, if_false, if_true]
  rw [← heq, String.ofList_toList]

theorem skipBlanks_bare (bare : isBareKey key = true) :
    skipBlanks (key.toList ++ t) = key.toList ++ t := by
  obtain ⟨d, u, heq, hd⟩ := exists_of_bareKey bare
  have hblank : isBlank d = false := by
    have hspace := ne_of_isBare hd (show isBare ' ' = false by decide)
    have htab := ne_of_isBare hd (show isBare '\t' = false by decide)
    simp [isBlank, hspace, htab]
  rw [heq, List.cons_append, skipBlanks, List.dropWhile_cons_of_neg (by simp [hblank])]

/-- A path of one key, with the blanks after it. -/
theorem keyPath_bare (bare : isBareKey key = true) (limit count : Nat) (other : isBare c = false)
    {d : Char} {u : List Char} (hskip : skipBlanks (c :: t) = d :: u) (dot : d ≠ '.') :
    keyPath limit (count + 1) (key.toList ++ c :: t) = some ([key], d :: u) := by
  rw [keyPath, skipBlanks_bare bare, simpleKey_bare bare limit other]
  simp only [hskip]
  split
  · next heq => exact absurd (List.cons.inj heq).1 dot
  · rfl

end Keys

/-! ## §3 Statements -/

/-- A line that starts with no bracket gives a key a value. -/
theorem statement_pair {limit : Nat} {c : Char} {t : List Char} (bracket : c ≠ '[') :
    statement limit (c :: t) = (pair limit (value limit maxDepth) (c :: t)).map
      fun ((path, v), u) => (.assign path v, u) := by
  unfold statement
  split
  · next heq => exact absurd (List.cons.inj heq).1 bracket
  · next heq => exact absurd (List.cons.inj heq).1 bracket
  · rfl

theorem Line.statement_eq (l : Line) {limit : Nat} (enough : l.text.length < limit)
    (rest : List Char) :
    Toml.statement limit (l.chars ++ rest) = some (l.statement, '\n' :: rest) := by
  have htext : l.chars ++ rest = l.key.toList ++ (' ' :: '=' :: ' ' :: (l.text ++ '\n' :: rest)) := by
    simp [chars]
  have hpath : keyPath limit maxDepth (l.chars ++ rest) =
      some ([l.key], '=' :: ' ' :: (l.text ++ '\n' :: rest)) := by
    rw [htext]
    exact keyPath_bare l.bare limit 78 (by decide) rfl (by decide)
  have hskip : skipBlanks (' ' :: (l.text ++ '\n' :: rest)) = l.text ++ '\n' :: rest := by
    obtain ⟨c, t, heq, hblank⟩ := l.spelled.starts
    have hspace : isBlank ' ' = true := by decide
    rw [heq, skipBlanks, List.dropWhile_cons_of_pos hspace, List.cons_append,
      List.dropWhile_cons_of_neg (by simp [hblank])]
  have hpair : pair limit (Toml.value limit maxDepth) (l.chars ++ rest) =
      some (([l.key], l.value), '\n' :: rest) := by
    rw [pair, assignee, hpath]
    simp only [expect, if_true, hskip, l.spelled.reads limit rest enough]
  obtain ⟨d, u, heq, hd⟩ := exists_of_bareKey l.bare
  have hcons : l.chars ++ rest = d :: (u ++ (' ' :: '=' :: ' ' :: (l.text ++ '\n' :: rest))) := by
    rw [htext, heq, List.cons_append]
  rw [hcons] at hpair ⊢
  rw [statement_pair (ne_of_isBare hd (by decide)), hpair]
  rfl

theorem statement_header {key : String} (bare : isBareKey key = true) (limit : Nat)
    (rest : List Char) :
    statement limit (headerChars key ++ rest) = some (.table [key], '\n' :: rest) := by
  have hpath : keyPath limit maxDepth (key.toList ++ ']' :: '\n' :: rest) =
      some ([key], ']' :: '\n' :: rest) :=
    keyPath_bare bare limit 78 (by decide) rfl (by decide)
  have hheader : headerPath limit [']'] (key.toList ++ ']' :: '\n' :: rest) =
      some ([key], '\n' :: rest) := by
    rw [headerPath, hpath]
    rfl
  have htext : headerChars key ++ rest = '[' :: (key.toList ++ ']' :: '\n' :: rest) := by
    simp [headerChars]
  obtain ⟨d, u, heq, hd⟩ := exists_of_bareKey bare
  rw [htext]
  unfold statement
  split
  · next t heq' =>
    have htail := (List.cons.inj heq').2
    rw [heq, List.cons_append] at htail
    exact absurd (List.cons.inj htail).1 (ne_of_isBare hd (by decide))
  · next t heq' =>
    rw [← (List.cons.inj heq').2, hheader]
    rfl
  · next bracket => exact absurd rfl (bracket _)

/-- A line that starts with a key or a bracket is the next line. -/
theorem nextLine_cons {c : Char} {t : List Char} (h : c = '[' ∨ isBare c = true) :
    nextLine false (c :: t) = some (c :: t) := by
  have hother : ∀ d : Char, d ≠ '[' → isBare d = false → c ≠ d := fun _ => ne_of_eq_or h
  have hblank : isBlank c = false := by
    simp [isBlank, hother ' ' (by decide) (by decide), hother '\t' (by decide) (by decide)]
  rw [nextLine.eq_def]
  split
  · next heq => cases heq
  · next heq => exact absurd (List.cons.inj heq).1 (hother '\n' (by decide) (by decide))
  · next heq => exact absurd (List.cons.inj heq).1 (hother '\r' (by decide) (by decide))
  · next heq =>
    obtain ⟨rfl, rfl⟩ := List.cons.inj heq
    simp [hother '#' (by decide) (by decide), hblank]

theorem statements_cons {limit count : Nat} {c : Char} {t rest : List Char} {first : Statement}
    (starts : c = '[' ∨ isBare c = true)
    (read : statement limit (c :: t) = some (first, '\n' :: rest)) :
    statements limit (count + 1) (c :: t) = (statements limit count rest).map (first :: ·) := by
  have hend : endOfLine ('\n' :: rest) = some rest := rfl
  rw [statements, nextLine_cons starts]
  simp only [read, hend]

theorem Line.chars_eq (l : Line) : ∃ c t, l.chars = c :: t ∧ isBare c = true := by
  obtain ⟨d, u, heq, hd⟩ := exists_of_bareKey l.bare
  exact ⟨d, _, by rw [chars, heq, List.cons_append], hd⟩

/-- Lines are read as what they say, one after the other. -/
theorem statements_lines {limit : Nat} {ls : List Line} (small : ∀ l ∈ ls, l.text.length < limit)
    (count : Nat) (rest : List Char) :
    statements limit (ls.length + count) (linesChars ls ++ rest) =
      (statements limit count rest).map (ls.map Line.statement ++ ·) := by
  induction ls with
  | nil => simp [linesChars]
  | cons l ls ih =>
    have hread := l.statement_eq (small l List.mem_cons_self) (linesChars ls ++ rest)
    have hothers := ih fun l h => small l (List.mem_cons_of_mem _ h)
    obtain ⟨c, t, heq, hc⟩ := l.chars_eq
    have htext : linesChars (l :: ls) ++ rest = c :: (t ++ (linesChars ls ++ rest)) := by
      simp [linesChars, heq]
    have hlength : (l :: ls).length + count = (ls.length + count) + 1 := by
      rw [List.length_cons]
      omega
    rw [heq, List.cons_append] at hread
    rw [htext, hlength, statements_cons (.inr hc) hread, hothers, Option.map_map]
    rfl

theorem statements_header {key : String} (bare : isBareKey key = true) (limit count : Nat)
    (rest : List Char) :
    statements limit (count + 1) (headerChars key ++ rest) =
      (statements limit count rest).map (.table [key] :: ·) :=
  statements_cons (.inl rfl) (statement_header bare limit rest)

/-- Empty lines say nothing. -/
theorem statements_breaks (limit count n : Nat) (rest : List Char) :
    statements limit count (List.replicate n '\n' ++ rest) = statements limit count rest := by
  induction n with
  | zero => rfl
  | succ n ih =>
    rw [← ih]
    cases count <;> rfl

/-! ## §4 Documents -/

section Build

variable {es old : Entries} {key name : String} {v : Value} {ls : List Line}
  {rest : List Statement}

theorem Entries.find?_eq_none : es.find? key = none ↔ ∀ e ∈ es, e.1 ≠ key := by
  simp only [find?, List.lookup_eq_none_iff, bne_iff_ne]
  exact forall₂_congr fun _ _ => ne_comm

theorem Entries.find?_append (es es' : Entries) (key : String) :
    (es ++ es').find? key = (es.find? key).or (es'.find? key) := List.lookup_append

theorem build_assign (fresh : es.find? key = none) :
    build [] es (.assign [key] v :: rest) = build [] (es ++ [(key, v)]) rest := by
  simp [build, inOpenTable, Entries.within, Entries.assign, Entries.put, fresh, Entries.add]

/-- Keys that differ from one that was added are as new as they were. -/
theorem fresh_of_nodup {l : Line} (distinct : ((l :: ls).map Line.key).Nodup)
    (fresh : ∀ k ∈ l :: ls, es.find? k.key = none) :
    ∀ k ∈ ls, (es ++ [l.entry]).find? k.key = none := by
  intro k hk
  rw [List.map_cons, List.nodup_cons] at distinct
  rw [Entries.find?_append, fresh k (List.mem_cons_of_mem _ hk), Option.none_or,
    Entries.find?_eq_none]
  intro e he
  rw [List.mem_singleton] at he
  subst he
  intro heq
  exact distinct.1 (List.mem_map.mpr ⟨k, hk, heq.symm⟩)

/-- Keys that are new are added to the document in their order. -/
theorem build_lines (distinct : (ls.map Line.key).Nodup)
    (fresh : ∀ l ∈ ls, es.find? l.key = none) :
    build [] es (ls.map Line.statement ++ rest) = build [] (es ++ ls.map Line.entry) rest := by
  induction ls generalizing es with
  | nil => simp
  | cons l ls ih =>
    have hfresh := fresh_of_nodup distinct fresh
    have hothers := (List.nodup_cons.mp distinct).2
    have hthis := fresh l List.mem_cons_self
    show build [] es (.assign [l.key] l.value :: (ls.map Line.statement ++ rest)) = _
    rw [build_assign hthis, show (l.key, l.value) = l.entry from rfl, ih hothers hfresh]
    simp

theorem build_header (fresh : es.find? key = none) (current : List String) :
    build current es (.table [key] :: rest) = build [key] (es ++ [(key, .table .header [])]) rest := by
  simp [build, inOpenTable, Entries.within, Entries.openTable, fresh, Entries.add]

theorem build_assign_inner (fresh : es.find? key = none) (freshName : old.find? name = none) :
    build [key] (es ++ [(key, .table .header old)]) (.assign [name] v :: rest) =
      build [key] (es ++ [(key, .table .header (old ++ [(name, v)]))]) rest := by
  have hfind : (es ++ [(key, Value.table .header old)]).find? key = some (.table .header old) := by
    rw [Entries.find?_append, fresh]
    simp [Entries.find?]
  have hreplace : ∀ w, Entries.replace (es ++ [(key, Value.table .header old)]) key w =
      es ++ [(key, w)] := by
    intro w
    have hsame : ∀ e ∈ es, (if e.1 = key then (key, w) else e) = e := fun e he =>
      if_neg (Entries.find?_eq_none.mp fresh e he)
    rw [Entries.replace, List.map_append, List.map_congr_left hsame]
    simp
  simp [build, inOpenTable, Entries.within, hfind, Entries.Route.mayEnter, Entries.assign,
    Entries.put, freshName, Entries.add, hreplace]

/-- And so are they in the table that a header has opened. -/
theorem build_inner (fresh : es.find? key = none) (distinct : (ls.map Line.key).Nodup)
    (freshNames : ∀ l ∈ ls, old.find? l.key = none) :
    build [key] (es ++ [(key, .table .header old)]) (ls.map Line.statement) =
      some (es ++ [(key, .table .header (old ++ ls.map Line.entry))]) := by
  induction ls generalizing old with
  | nil => simp [build]
  | cons l ls ih =>
    have hfresh := fresh_of_nodup distinct freshNames
    have hothers := (List.nodup_cons.mp distinct).2
    have hthis := freshNames l List.mem_cons_self
    show build [key] _ (.assign [l.key] l.value :: ls.map Line.statement) = _
    rw [build_assign_inner fresh hthis, show (l.key, l.value) = l.entry from rfl, ih hothers hfresh]
    simp

end Build

theorem text_lt_linesChars {ls : List Line} {l : Line} (h : l ∈ ls) :
    l.text.length < (linesChars ls).length := by
  induction ls with
  | nil => cases h
  | cons k ls ih =>
    simp only [linesChars, List.flatMap_cons, List.length_append]
    rcases List.mem_cons.mp h with rfl | h
    · simp only [Line.chars, List.length_append, List.length_cons]
      omega
    · have hlt := ih h
      rw [linesChars] at hlt
      omega

theorem length_le_linesChars (ls : List Line) : ls.length ≤ (linesChars ls).length := by
  refine length_le_length_flatMap (fun l => ?_) ls
  obtain ⟨c, t, heq, -⟩ := l.chars_eq
  rw [heq]
  exact List.cons_ne_nil c t

/-- **A document of lines with different keys is the table that its lines say**: those before the
header are its own, those after it are in the table that the header opens. There may be empty lines
before the header and at the end. -/
theorem parse_spaced {top inner : List Line} {key : String} (bare : isBareKey key = true)
    (distinct : (top.map Line.key).Nodup) (notKey : ∀ l ∈ top, l.key ≠ key)
    (distinctInner : (inner.map Line.key).Nodup) (before after : Nat) :
    parse (linesChars top ++ (List.replicate before '\n' ++
        (headerChars key ++ (linesChars inner ++ List.replicate after '\n')))) =
      some (top.map Line.entry ++ [(key, .table .header (inner.map Line.entry))]) := by
  generalize htext : linesChars top ++ (List.replicate before '\n' ++
    (headerChars key ++ (linesChars inner ++ List.replicate after '\n'))) = text
  have hlength : (linesChars top).length + ((headerChars key).length + (linesChars inner).length) ≤
      text.length := by
    simp only [← htext, List.length_append]
    omega
  have hmark : withoutMark text = text := by
    obtain ⟨c, t, heq, hc⟩ : ∃ c t, text = c :: t ∧ c ≠ '\uFEFF' := by
      cases top with
      | nil =>
        cases before with
        | zero => exact ⟨'[', _, htext.symm, by decide⟩
        | succ before => exact ⟨'\n', _, htext.symm, by decide⟩
      | cons l ls =>
        obtain ⟨c, t, heq, hc⟩ := l.chars_eq
        obtain ⟨u, hcons⟩ : ∃ u, text = c :: u := by
          rw [← htext, linesChars, List.flatMap_cons, heq, List.cons_append, List.cons_append]
          exact ⟨_, rfl⟩
        exact ⟨c, u, hcons, ne_of_isBare hc (by decide)⟩
    rw [heq]
    unfold withoutMark
    split
    · next h => exact absurd (List.cons.inj h).1 hc
    · rfl
  -- There are no more lines than characters.
  obtain ⟨spare, hcount⟩ : ∃ n, text.length + 1 = top.length + (inner.length + (n + 1) + 1) := by
    have htop := length_le_linesChars top
    have hinner := length_le_linesChars inner
    simp only [headerChars, List.length_cons, List.length_append] at hlength
    exact ⟨text.length - top.length - inner.length - 1, by omega⟩
  have hsmall : ∀ l ∈ top, l.text.length < text.length + 1 := by
    intro l hl
    have hlt := text_lt_linesChars hl
    omega
  have hsmallInner : ∀ l ∈ inner, l.text.length < text.length + 1 := by
    intro l hl
    have hlt := text_lt_linesChars hl
    omega
  have hinner : statements (text.length + 1) (inner.length + (spare + 1))
      (linesChars inner ++ List.replicate after '\n') = some (inner.map Line.statement) := by
    have hend := statements_breaks (text.length + 1) (spare + 1) after []
    rw [List.append_nil] at hend
    rw [statements_lines hsmallInner, hend]
    simp [statements, nextLine]
  have hstatements : statements (text.length + 1) (text.length + 1) text =
      some (top.map Line.statement ++ .table [key] :: inner.map Line.statement) := by
    have h := statements_lines hsmall (inner.length + (spare + 1) + 1) (List.replicate before '\n' ++
      (headerChars key ++ (linesChars inner ++ List.replicate after '\n')))
    rw [statements_breaks, statements_header bare, hinner, htext, ← hcount] at h
    exact h
  have hfresh : Entries.find? (top.map Line.entry) key = none := by
    rw [Entries.find?_eq_none]
    intro e he
    obtain ⟨l, hl, rfl⟩ := List.mem_map.mp he
    exact notKey l hl
  have hbuild : build [] [] (top.map Line.statement ++ .table [key] :: inner.map Line.statement) =
      build [] ([] ++ top.map Line.entry) (.table [key] :: inner.map Line.statement) :=
    build_lines distinct fun _ _ => rfl
  rw [parse, hmark]
  simp only [hstatements]
  rw [hbuild, List.nil_append, build_header hfresh, build_inner hfresh distinctInner fun _ _ => rfl,
    List.nil_append]

theorem parse_lines {top inner : List Line} {key : String} (bare : isBareKey key = true)
    (distinct : (top.map Line.key).Nodup) (notKey : ∀ l ∈ top, l.key ≠ key)
    (distinctInner : (inner.map Line.key).Nodup) :
    parse (linesChars top ++ (headerChars key ++ linesChars inner)) =
      some (top.map Line.entry ++ [(key, .table .header (inner.map Line.entry))]) := by
  have h := parse_spaced bare distinct notKey distinctInner 0 0
  rwa [List.replicate_zero, List.append_nil, List.nil_append] at h

end Handoff.Toml
