/-
Handoff.Proofs.Pipeline.Load — a load is delivered, in whatever order its participants run.

The items of a load are numbered producer after producer: the tag of the item `index` of a producer
`k` is `k * items + index`, so that a tag says whose item it is. The consumer handles a merge of the
feeds, and with that the tags are those below the number of items, each once, and those of one
producer come in increasing order.

The figures are words. The messages are counted exactly, as a load has fewer than `2 ^ 62` items here.
But an item has seventeen bytes or more, so that the payload bytes can pass a word: their figure is
their number modulo `2 ^ 64`, and not always their number (`heavy_load_miscounted`). A load of so many
producers that no block of memory can have their handles is not started at all.

  §1 merges as lists — `Merges.perm`
  §2 the items       — `loadItems`, `tags_loadItems`, `lengths_loadItems`
  §3 the figures     — `FiguresOfLoad`, `Delivered.load`, `load_delivered`
-/
import Handoff.CommandLine.Session
import Handoff.Proofs.Pipeline.Progress
import Handoff.Proofs.Pipeline.Refusal
import Mathlib.Algebra.BigOperators.Intervals
import Mathlib.Algebra.Order.BigOperators.Group.Finset
import Mathlib.Data.Nat.Log

namespace Handoff.Pipeline

/-! ## §1 Merges as lists -/

/-- The entries of the members below `n`, member after member, are all entries of theirs. -/
theorem flatMap_entriesOf_perm (log : List (TaskId × Message)) (n : Nat) :
    ((List.range n).flatMap fun id => entriesOf id log).Perm
      ((log.filter (·.1 < n)).map (·.2)) := by
  have hbelow : ∀ a n : Nat, (decide (a < n) && decide (a < n + 1)) = decide (a < n) := by
    intro a n
    simpa using Nat.lt_succ_of_lt
  have hlast : ∀ a n : Nat, (!decide (a < n) && decide (a < n + 1)) = decide (a = n) := by
    intro a n
    rw [Bool.eq_iff_iff]
    simp only [Bool.and_eq_true, Bool.not_eq_true', decide_eq_false_iff_not, decide_eq_true_eq]
    omega
  induction n with
  | zero => simp
  | succ n ih =>
    -- The entries below `n + 1` are those below `n` and those of `n`.
    have hsplit := List.filter_append_perm (·.1 < n) (log.filter (·.1 < n + 1))
    rw [List.filter_filter, List.filter_filter] at hsplit
    simp only [hbelow, hlast] at hsplit
    have hmap := hsplit.map (·.2)
    rw [List.map_append] at hmap
    rw [List.range_succ, List.flatMap_append, List.flatMap_singleton]
    exact (ih.append_right _).trans hmap

variable {feeds : List Feed}

/-- A merge of feeds has the messages of the feeds, in some order. -/
theorem Merges.perm {messages : List Message} (h : Merges feeds messages) :
    messages.Perm (feeds.flatMap Feed.messages) := by
  obtain ⟨log, rfl, hauthors, hentries⟩ := h
  have hfeeds : feeds.map Feed.messages =
      (List.range feeds.length).map (fun id => entriesOf id log) := by
    refine List.ext_getElem? (fun id => ?_)
    rw [List.getElem?_map, List.getElem?_map]
    by_cases hid : id < feeds.length
    · rw [List.getElem?_eq_getElem hid, List.getElem?_range hid]
      exact congrArg some (hentries id _ (List.getElem?_eq_getElem hid)).symm
    · rw [List.getElem?_eq_none (Nat.not_lt.mp hid), List.getElem?_eq_none (by simpa using hid)]
      rfl
  have hperm := flatMap_entriesOf_perm log feeds.length
  rw [List.filter_eq_self.mpr (by simpa using hauthors)] at hperm
  rw [List.flatMap_def, hfeeds, ← List.flatMap_def]
  exact hperm.symm

/-! ## §2 The items -/

/-- The items of a load, producer after producer. -/
def loadItems (producers items : Nat) : List WorkItem :=
  (List.range producers).flatMap fun producer => (List.range items).map (loadItem items producer)

/-- The number of decimal digits of a number. -/
def decimalDigits (n : Nat) : Nat := Nat.log 10 n + 1

theorem length_toString (n : Nat) : (toString n).length = decimalDigits n := by
  have hlength : (toString n).length = (Nat.toDigits 10 n).length := by
    rw [Nat.toString_eq_ofList_toDigits, String.length_ofList]
  rw [hlength, decimalDigits]
  refine Nat.le_antisymm ?_ (Nat.succ_le_of_lt ?_)
  · exact (Nat.length_toDigits_le_iff (by decide) (Nat.succ_pos _)).mpr
      (Nat.lt_pow_succ_log_self (by decide) n)
  · by_cases hlog : Nat.log 10 n = 0
    · rw [hlog]
      exact Nat.length_toDigits_pos
    · refine Nat.not_le.mp (fun hle => ?_)
      have hlt := (Nat.length_toDigits_le_iff (by decide) (Nat.pos_of_ne_zero hlog)).mp hle
      have hpow : 10 ^ Nat.log 10 n ≤ n :=
        Nat.pow_log_le_self 10 (fun hzero => hlog (by rw [hzero, Nat.log_zero_right]))
      exact Nat.lt_irrefl _ (Nat.lt_of_lt_of_le hlt hpow)

theorem length_loadItem (items producer index : Nat) :
    (loadItem items producer index).length =
      15 + decimalDigits producer + decimalDigits index := by
  have hprefix : "producer-".length = 9 := by decide
  have hmiddle : "-item-".length = 6 := by decide
  have htext : (loadItem items producer index).length =
      ("producer-" ++ toString producer ++ "-item-" ++ toString index).length := by
    rw [WorkItem.length, loadItem, asciiBytes, List.length_map, String.length_toList]
    rfl
  rw [htext, String.length_append, String.length_append, String.length_append, hprefix, hmiddle,
    length_toString, length_toString]
  omega

/-- The number of an item is below the number of items. -/
theorem number_lt {producers items producer index : Nat} (hproducer : producer < producers)
    (hindex : index < items) : producer * items + index < producers * items := by
  have hbound : (producer + 1) * items ≤ producers * items := Nat.mul_le_mul_right items hproducer
  rw [Nat.succ_mul] at hbound
  omega

theorem toNat_tag_loadItem {items producer index : Nat} (h : producer * items + index < 2 ^ 64) :
    (loadItem items producer index).tag.toNat = producer * items + index :=
  Nat.mod_eq_of_lt h

theorem loadItems_succ (producers items : Nat) :
    loadItems (producers + 1) items =
      loadItems producers items ++ (List.range items).map (loadItem items producers) := by
  rw [loadItems, List.range_succ, List.flatMap_append, List.flatMap_singleton, loadItems]

/-- The tags of a load are the numbers of its items. -/
theorem tags_loadItems {producers items : Nat} (h : producers * items < 2 ^ 64) :
    (loadItems producers items).map (·.tag.toNat) = List.range (producers * items) := by
  induction producers with
  | zero => simp [loadItems]
  | succ producers ih =>
    rw [Nat.succ_mul] at h ⊢
    rw [loadItems_succ, List.map_append, ih (by omega), List.range_add, List.map_map]
    refine congrArg (List.range (producers * items) ++ ·) (List.map_congr_left fun index hindex => ?_)
    have hlt := List.mem_range.mp hindex
    exact toNat_tag_loadItem (by omega)

/-- The number of payload bytes of a load. -/
def loadBytes (producers items : Nat) : Nat :=
  ∑ producer ∈ Finset.range producers, ∑ index ∈ Finset.range items,
    (15 + decimalDigits producer + decimalDigits index)

theorem lengths_loadItems (producers items : Nat) :
    ((loadItems producers items).map WorkItem.length).sum = loadBytes producers items := by
  induction producers with
  | zero => rfl
  | succ producers ih =>
    have hlengths : ((List.range items).map (loadItem items producers)).map WorkItem.length =
        (List.range items).map (fun index => 15 + decimalDigits producers + decimalDigits index) := by
      rw [List.map_map]
      exact List.map_congr_left (fun index _ => length_loadItem items producers index)
    rw [loadItems_succ, List.map_append, List.sum_append, ih, hlengths, loadBytes, loadBytes,
      Finset.sum_range_succ]
    rfl

/-- An item of a load has seventeen bytes at least. -/
theorem le_loadBytes (producers items : Nat) :
    17 * (producers * items) ≤ loadBytes producers items := by
  have hitem : ∀ producer index, 17 ≤ 15 + decimalDigits producer + decimalDigits index := by
    intro producer index
    unfold decimalDigits
    omega
  have hfeed : ∑ _ ∈ Finset.range items, 17 = items * 17 := by
    rw [Finset.sum_const_nat fun _ _ => rfl, Finset.card_range]
  have hall : ∑ _ ∈ Finset.range producers, ∑ _ ∈ Finset.range items, 17 =
      producers * (items * 17) := by
    rw [Finset.sum_const_nat fun _ _ => hfeed, Finset.card_range]
  rw [Nat.mul_comm 17, Nat.mul_assoc, ← hall]
  exact Finset.sum_le_sum fun producer _ => Finset.sum_le_sum fun index _ => hitem producer index

theorem carriesItems_loadFeeds {producers items : Nat} :
    ∀ feed ∈ loadFeeds producers items, feed.CarriesItems := by
  intro feed hfeed
  obtain ⟨producer, -, rfl⟩ := List.mem_map.mp hfeed
  exact fun index => ⟨_, rfl⟩

theorem messages_loadFeeds (producers items : Nat) :
    (loadFeeds producers items).flatMap Feed.messages =
      (loadItems producers items).map Message.data := by
  rw [loadFeeds, List.flatMap_map, loadItems, List.map_flatMap]
  refine congrArg (List.range producers).flatMap (funext fun producer => ?_)
  rw [List.map_map]
  rfl

theorem getElem?_loadFeeds {producers items producer : Nat} (h : producer < producers) :
    (loadFeeds producers items)[producer]? = some (loadFeed items producer) := by
  rw [loadFeeds, List.getElem?_map, List.getElem?_range h]
  rfl

/-- The items are those of a load: their tags are the numbers below the number of items, each once,
and what one producer sent comes in its order. -/
structure ItemsOfLoad (producers items : Nat) (xs : List WorkItem) : Prop where
  tags : (xs.map (·.tag.toNat)).Perm (List.range (producers * items))
  ordered : ∀ producer < producers,
    xs.filter (·.tag.toNat / items = producer) = (List.range items).map (loadItem items producer)
  increasing : ∀ producer < producers,
    ((xs.filter (·.tag.toNat / items = producer)).map (·.tag.toNat)).Pairwise (· < ·)
  bytes : (xs.map WorkItem.length).sum = loadBytes producers items

section Items

variable {producers items : Nat} {xs : List WorkItem}

theorem Merges.items_perm (h : Merges (loadFeeds producers items) (xs.map .data)) :
    xs.Perm (loadItems producers items) := by
  have hperm := h.perm.filterMap Message.item?
  have hitems : ∀ ys : List WorkItem, (ys.map Message.data).filterMap Message.item? = ys := by
    intro ys
    rw [List.filterMap_map]
    exact List.filterMap_some
  rwa [messages_loadFeeds, hitems, hitems] at hperm

/-- The producer's number of an item is that of the producer that sent it. -/
theorem Merges.filter_producer (h : Merges (loadFeeds producers items) (xs.map .data))
    (fits : producers * items < 2 ^ 64) {producer : Nat} (hproducer : producer < producers) :
    xs.filter (·.tag.toNat / items = producer) =
      (List.range items).map (loadItem items producer) := by
  obtain ⟨log, hlog, hauthors, hentries⟩ := h
  have howner : ∀ entry ∈ log, ∃ item, entry.2 = .data item ∧ item.tag.toNat / items = entry.1 := by
    intro entry hentry
    have hlt : entry.1 < producers := by
      have hauthor := hauthors entry hentry
      rwa [loadFeeds, List.length_map, List.length_range] at hauthor
    have hmem : entry.2 ∈ entriesOf entry.1 log := mem_entriesOf.mpr hentry
    rw [hentries _ _ (getElem?_loadFeeds hlt), Feed.messages, List.mem_map] at hmem
    obtain ⟨index, hindex, hmessage⟩ := hmem
    have hindex : index < items := List.mem_range.mp hindex
    refine ⟨loadItem items entry.1 index, hmessage.symm, ?_⟩
    rw [toNat_tag_loadItem (Nat.lt_trans (number_lt hlt hindex) fits), Nat.add_comm,
      Nat.add_mul_div_right _ _ (Nat.zero_lt_of_lt hindex), Nat.div_eq_of_lt hindex, Nat.zero_add]
  let sentBy (message : Message) : Bool :=
    message.item?.any (·.tag.toNat / items = producer)
  refine List.map_injective_iff.mpr (fun x y hxy => Message.data.inj hxy) ?_
  calc (xs.filter (·.tag.toNat / items = producer)).map Message.data
      = (xs.map Message.data).filter sentBy := by rw [List.filter_map]; rfl
    _ = (log.filter (sentBy ∘ (·.2))).map (·.2) := by rw [← hlog, List.filter_map]
    _ = entriesOf producer log := by
        refine congrArg (List.map _) (List.filter_congr (fun entry hentry => ?_))
        obtain ⟨item, hitem, htag⟩ := howner entry hentry
        simp [sentBy, hitem, Message.item?, htag]
    _ = ((List.range items).map (loadItem items producer)).map Message.data := by
        rw [hentries _ _ (getElem?_loadFeeds hproducer), Feed.messages, List.map_map]
        rfl

theorem Merges.itemsOfLoad (h : Merges (loadFeeds producers items) (xs.map .data))
    (fits : producers * items < 2 ^ 64) : ItemsOfLoad producers items xs where
  tags := by
    rw [← tags_loadItems fits]
    exact h.items_perm.map _
  ordered := fun _ hproducer => h.filter_producer fits hproducer
  increasing := by
    intro producer hproducer
    rw [h.filter_producer fits hproducer, List.map_map, List.pairwise_map]
    refine List.pairwise_lt_range.imp_of_mem (fun {i j} hi hj hij => ?_)
    have hbound : ∀ index ∈ List.range items, producer * items + index < 2 ^ 64 :=
      fun index hindex =>
        Nat.lt_trans (number_lt hproducer (List.mem_range.mp hindex)) fits
    rw [Function.comp, Function.comp, toNat_tag_loadItem (hbound i hi),
      toNat_tag_loadItem (hbound j hj)]
    exact Nat.add_lt_add_left hij _
  bytes := by
    rw [← lengths_loadItems]
    exact (h.items_perm.map _).sum_eq

end Items

/-! ## §3 The figures -/

open CommandLine (Figures figuresOf handleBytes loadResult runLoad)

/-- The figures are those of a load that was delivered. The payload bytes are counted in a word, so
that the figure is their number modulo the size of a word. -/
structure FiguresOfLoad (s : QueueSettings) (producers items : Nat) (f : Figures) : Prop where
  pushed : f.queue.pushed.toNat = producers * items + 1
  popped : f.queue.popped.toNat = producers * items + 1
  count : f.queue.count = 0
  capacity_le : ∀ max, s.maxCapacity = some max → f.queue.capacity ≤ max
  processed : f.consumer.processed.toNat = producers * items
  failed : f.consumer.failed = 0
  stoppedBy : f.consumer.stoppedBy = .stopMessage
  payloadBytes : f.payloadBytes.toNat = loadBytes producers items % 2 ^ 64

/-- The payload bytes are counted item by item. -/
theorem foldl_payloadBytes (xs : List WorkItem) (bytes : UInt64) :
    xs.foldl (fun bytes item => bytes + UInt64.ofNat item.length) bytes =
      bytes + UInt64.ofNat (xs.map WorkItem.length).sum := by
  induction xs generalizing bytes with
  | nil => simp
  | cons x xs ih =>
    rw [List.foldl_cons, ih, List.map_cons, List.sum_cons, UInt64.ofNat_add, UInt64.add_assoc]

/-- The bytes of a load that has more than a word can count are no figure. -/
theorem payloadBytes_ne (f : Figures) {producers items : Nat}
    (heavy : 2 ^ 64 ≤ 17 * (producers * items)) :
    f.payloadBytes.toNat ≠ loadBytes producers items := by
  have hlt := f.payloadBytes.toNat_lt
  have hle := le_loadBytes producers items
  omega

section Load

variable {memory : Memory} {s : QueueSettings} {queue : Queue Message} {producers items : Nat}
  {p : Pipeline}

/-- What holds of a load that has ended, in whatever order its participants ran. -/
theorem Delivered.load (h : Delivered (loadFeeds producers items) p)
    (fits : producers * items < 2 ^ 62)
    (capacity : ∀ max, s.maxCapacity = some max → p.queue.capacity ≤ max) :
    ItemsOfLoad producers items p.items ∧
      ∃ report, p.report? = some report ∧ FiguresOfLoad s producers items (figuresOf p report) ∧
        ∀ json, loadResult json p =
          ⟨0, if json then (figuresOf p report).json else (figuresOf p report).lines, ""⟩ := by
  have hitems : ItemsOfLoad producers items p.items := h.merges.itemsOfLoad (by omega)
  have hlength : p.items.length = producers * items := by
    simpa using hitems.tags.length_eq
  have hcounter : (UInt64.ofNat (p.items.length + 1)).toNat = producers * items + 1 := by
    rw [hlength]
    exact Nat.mod_eq_of_lt (by omega)
  refine ⟨hitems, _, h.report, ?_, fun json => by
    rw [loadResult, h.error, h.report]
    rfl⟩
  exact
    { pushed := (congrArg UInt64.toNat h.pushed).trans hcounter
      popped := (congrArg UInt64.toNat h.popped).trans hcounter
      count := h.empty
      capacity_le := capacity
      processed := by
        rw [figuresOf, hlength]
        exact Nat.mod_eq_of_lt (by omega)
      failed := rfl
      stoppedBy := rfl
      payloadBytes := by
        rw [figuresOf, foldl_payloadBytes, hitems.bytes, UInt64.zero_add]
        exact UInt64.toNat_ofNat' }

/-- **A load is delivered.** Whatever the order in which the participants move and the wake-ups come,
and whatever the queue: where nobody can move, all have ended, unless memory was refused; the capacity
never passes the ceiling; and where all have ended, every item was handled once, those of one
producer in increasing order, and the figures say so, the payload bytes modulo the size of a word. The
program's own schedule leads there, if one block of memory can have the handles of the producers. -/
theorem load_delivered (sized : 0 < memory.slotBytes)
    (made : Queue.ofSettings memory s = .ok queue) (fits : producers * items < 2 ^ 62) :
    let start := ofFeeds queue s.pollInterval (loadFeeds producers items)
    (∀ p, start.Reaches p → p.Unrefused →
      (∀ memory, Stuck memory p → p.hasEnded = true) ∧
      (∀ max, s.maxCapacity = some max → p.queue.capacity ≤ max) ∧
      (p.hasEnded = true →
        ItemsOfLoad producers items p.items ∧
          ∃ report, p.report? = some report ∧
            FiguresOfLoad s producers items (figuresOf p report) ∧
            ∀ json, loadResult json p =
              ⟨0, if json then (figuresOf p report).json else (figuresOf p report).lines, ""⟩)) ∧
    (∀ handleBytes, producers * handleBytes ≤ maxBlockBytes → (start.run memory).Unrefused →
      ∃ f, FiguresOfLoad s producers items f ∧
        ∀ json, runLoad memory handleBytes s producers items json =
          ⟨0, if json then f.json else f.lines, ""⟩) := by
  intro start
  have hdata : ∀ feed ∈ loadFeeds producers items, feed.CarriesItems := carriesItems_loadFeeds
  refine ⟨fun p reached unrefused => ?_, fun handleBytes held unrefused => ?_⟩
  · obtain ⟨hended, hdelivered⟩ := reached.delivers sized made hdata unrefused
    have hcapacity : ∀ max, s.maxCapacity = some max → p.queue.capacity ≤ max :=
      fun _ => reached.capacity_le sized made
    exact ⟨hended, hcapacity, fun h => (hdelivered h).load fits hcapacity⟩
  · obtain ⟨hreached, -⟩ := Reaches.run sized made s.pollInterval hdata
    obtain ⟨-, report, -, hfigures, hresult⟩ :=
      (run_delivers sized made s.pollInterval hdata unrefused).load fits
        (fun _ => hreached.capacity_le sized made)
    refine ⟨_, hfigures, fun json => ?_⟩
    simp only [runLoad, made, if_neg (Nat.not_lt.mpr held)]
    exact hresult json

/-- Two producers with two items each take turns at a queue that holds one message. -/
theorem load_delivered_tight :
    let s : QueueSettings := ⟨"work", 1, some 2, 100⟩
    let queue : Queue Message := .ofRing "work" ⟨#[none], 0, 0, some 2⟩
    let start := ofFeeds queue 100 (loadFeeds 2 2)
    let last := start.run CommandLine.memory
    start.Reaches last ∧ last.Unrefused ∧ Stuck CommandLine.memory last ∧ last.hasEnded = true ∧
      ItemsOfLoad 2 2 last.items ∧
      (∃ f, FiguresOfLoad s 2 2 f ∧
        runLoad CommandLine.memory handleBytes s 2 2 false = ⟨0, f.lines, ""⟩) ∧
      (runLoad CommandLine.memory handleBytes s 2 2 false).output =
        "Queue:      work\nCapacity:   2\nCount:      0\nPushed:     5\nPopped:     5\n" ++
          "Grows:      1\nProcessed:  4\nFailed:     0\nBytes:      68\n" := by
  intro s queue start last
  have hsized : 0 < CommandLine.memory.slotBytes := by decide
  have hmade : Queue.ofSettings CommandLine.memory s = .ok queue := rfl
  have hunrefused : last.Unrefused := unrefused_of_all (by decide +kernel)
  obtain ⟨hreaches, hstuck⟩ := Reaches.run hsized hmade 100
    (carriesItems_loadFeeds : ∀ feed ∈ loadFeeds 2 2, feed.CarriesItems)
  obtain ⟨hall, hrun⟩ := load_delivered hsized hmade (by decide : 2 * 2 < 2 ^ 62)
  obtain ⟨hended, -, hdelivered⟩ := hall last hreaches hunrefused
  obtain ⟨f, hfigures, hresult⟩ := hrun handleBytes (by decide) hunrefused
  have hlast := hended _ hstuck
  exact ⟨hreaches, hunrefused, hstuck, hlast, (hdelivered hlast).1, ⟨f, hfigures, hresult false⟩,
    by decide +kernel⟩

/-- One producer with `2 ^ 61` items is delivered, through a queue that holds one message, and the
figure for the payload bytes is not their number; and `2 ^ 61` producers with one item each are not
started. -/
theorem heavy_load_miscounted :
    let s : QueueSettings := ⟨"work", 2, some 2, 100⟩
    let queue : Queue Message := .ofRing "work" ⟨#[none, none], 0, 0, some 2⟩
    let start := ofFeeds queue 100 (loadFeeds 1 (2 ^ 61))
    let last := start.run CommandLine.memory
    Queue.ofSettings CommandLine.memory s = .ok queue ∧
    (start.Reaches last ∧ last.Unrefused ∧ last.hasEnded = true ∧
      ∃ report, last.report? = some report ∧
        (figuresOf last report).payloadBytes.toNat ≠ loadBytes 1 (2 ^ 61)) ∧
    ∀ json, (runLoad CommandLine.memory handleBytes s (2 ^ 61) 1 json).code = 101 ∧
      (runLoad CommandLine.memory handleBytes s (2 ^ 61) 1 json).output = "" := by
  intro s queue start last
  have hsized : 0 < CommandLine.memory.slotBytes := by decide
  have hmade : Queue.ofSettings CommandLine.memory s = .ok queue := rfl
  have hdata : ∀ feed ∈ loadFeeds 1 (2 ^ 61), feed.CarriesItems := carriesItems_loadFeeds
  obtain ⟨hreached, hstuck⟩ := Reaches.run hsized hmade 100 hdata
  have hunrefused : last.Unrefused := hreached.unrefused hsized hmade ⟨rfl, by decide⟩
  obtain ⟨hended, hdelivered⟩ := hreached.delivers hsized hmade hdata hunrefused
  have hlast : Delivered (loadFeeds 1 (2 ^ 61)) last := hdelivered (hended _ hstuck)
  refine ⟨hmade, ⟨hreached, hunrefused, hended _ hstuck, _, hlast.report,
    payloadBytes_ne _ (by decide)⟩, fun json => ?_⟩
  have hlarge : maxBlockBytes < 2 ^ 61 * handleBytes := by decide
  simp only [runLoad, hmade, if_pos hlarge]
  exact ⟨rfl, rfl⟩

end Load

end Handoff.Pipeline
