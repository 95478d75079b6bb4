/-
Handoff.Proofs.Pipeline.Delivery — what a pipeline has done when nobody can move.

If no memory was refused, a pipeline in which nobody can move has ended: no producer is left waiting
for room, and the consumer is not left resting. And a pipeline that has ended has delivered all its
feeds: the items that the consumer handled are a merge of them, the stop message came after them all,
nothing is left in the queue, and the counters and the report say as much.

Feeds whose messages are all items are assumed throughout, so that the stop message is known for what
it is.

  §1 merges           — `Merges`
  §2 the stop message — `Ledger.closer_sent`, `Ledger.before_stop`
  §3 the end          — `Delivered`, `Ledger.delivered`
  §4 no deadlock      — `Ledger.hasEnded_of_stuck`, `Reaches.delivers`
-/
import Handoff.Proofs.Pipeline.Ledger
import Mathlib.Data.Set.List

namespace Handoff

/-! ## §1 Merges -/

/-- Every message of the feed is an item. -/
def Feed.CarriesItems (feed : Feed) : Prop := ∀ index, ∃ item, feed.message index = .data item

/-- The messages of a feed, in their order. -/
def Feed.messages (feed : Feed) : List Message := (List.range feed.size).map feed.message

namespace Pipeline

/-- The messages are those of the feeds, each feed's in their order: every one can be ascribed to a
feed so that those of one feed, read alone, are its messages. -/
def Merges (feeds : List Feed) (messages : List Message) : Prop :=
  ∃ log : List (TaskId × Message), log.map (·.2) = messages ∧
    (∀ entry ∈ log, entry.1 < feeds.length) ∧
    ∀ id feed, feeds[id]? = some feed → entriesOf id log = feed.messages

/-! ## §2 The stop message -/

/-- Two lists of items, one ended by a stop and one followed by it, are the same, and nothing comes
after the stop. -/
theorem items_eq_of_stop {xs ys : List WorkItem} {rest : List Message}
    (h : xs.map Message.data ++ [.stop] = ys.map Message.data ++ .stop :: rest) :
    xs = ys ∧ rest = [] := by
  induction xs generalizing ys with
  | nil =>
    cases ys with
    | nil => exact ⟨rfl, by simpa using h⟩
    | cons y ys => simp at h
  | cons x xs ih =>
    cases ys with
    | nil => simp at h
    | cons y ys =>
      simp only [List.map_cons, List.cons_append, List.cons.injEq, Message.data.injEq] at h
      obtain ⟨rfl, htail⟩ := h
      obtain ⟨rfl, hrest⟩ := ih htail
      exact ⟨rfl, hrest⟩

section Stop

variable {feeds : List Feed} {p : Pipeline} {log : List (TaskId × Message)}

theorem Ledger.size_eq (h : Ledger feeds p log) : p.producers.size = feeds.length := by
  have hlength := congrArg List.length h.feeds_eq
  simpa using hlength

theorem Ledger.feed_eq (h : Ledger feeds p log) {id : TaskId} {m : Producer}
    (found : p.members[id]? = some m) (producer : id < p.producers.size) :
    feeds[id]? = some m.feed := by
  have hfeed := congrArg (·[id]?) h.feeds_eq
  simp only [List.getElem?_map, found, Option.map_some] at hfeed
  rwa [List.getElem?_append_left (h.size_eq ▸ producer), eq_comm] at hfeed

theorem exists_member {id : TaskId} (h : id ≤ p.producers.size) :
    ∃ m, p.members[id]? = some m := by
  have hlt : id < p.members.length := by
    rw [length_members]
    exact Nat.lt_succ_of_le h
  exact ⟨_, List.getElem?_eq_getElem hlt⟩

/-- What a producer stores is an item. -/
theorem Ledger.item_of_lt (h : Ledger feeds p log) (data : ∀ feed ∈ feeds, feed.CarriesItems)
    {id : TaskId} {message : Message} (stored : (id, message) ∈ log)
    (producer : id < p.producers.size) : ∃ item, message = .data item := by
  obtain ⟨m, hm⟩ := exists_member (Nat.le_of_lt producer)
  have hentry := mem_entriesOf.mpr stored
  rw [h.sent id m hm, List.mem_map] at hentry
  obtain ⟨index, -, rfl⟩ := hentry
  exact data m.feed (List.mem_of_getElem? (h.feed_eq hm producer)) index

/-- If there is a stop among the messages that were stored, the closing member has stored it. -/
theorem Ledger.closer_sent (h : Ledger feeds p log) (coherent : p.Coherent)
    (data : ∀ feed ∈ feeds, feed.CarriesItems) (stored : .stop ∈ p.taken ++ p.queue.toList) :
    p.closer.sent = 1 := by
  rw [← h.order, List.mem_map] at stored
  obtain ⟨⟨id, message⟩, hentry, rfl⟩ := stored
  have hclosing : id = p.producers.size := by
    refine Nat.le_antisymm (h.author _ hentry) (Nat.not_lt.mp (fun hlt => ?_))
    obtain ⟨item, hitem⟩ := h.item_of_lt data hentry hlt
    cases hitem
  subst hclosing
  have hmem := mem_entriesOf.mpr hentry
  rw [h.sent _ _ (getElem?_members_size p), List.mem_map] at hmem
  obtain ⟨index, hindex, -⟩ := hmem
  have hle := (coherent.member _ _ (getElem?_members_size p)).sent_le
  rw [h.closing_feed] at hle
  exact Nat.le_antisymm hle (Nat.zero_lt_of_lt (List.mem_range.mp hindex))

/-- When the stop was stored, all messages before it are items of the producers. -/
theorem Ledger.before_stop (h : Ledger feeds p log) (data : ∀ feed ∈ feeds, feed.CarriesItems)
    (sent : p.closer.sent = 1) :
    ∃ earlier, log = earlier ++ [(p.producers.size, .stop)] ∧
      (∀ entry ∈ earlier, entry.1 < p.producers.size) ∧
      ∃ items : List WorkItem, earlier.map (·.2) = items.map Message.data := by
  obtain ⟨earlier, hlog⟩ : ∃ earlier, log = earlier ++ [(p.producers.size, .stop)] :=
    ⟨log.dropLast, (List.dropLast_append_getLast? _ (h.last (by omega))).symm⟩
  -- The closing member stored nothing else.
  have hauthors : ∀ entry ∈ earlier, entry.1 < p.producers.size := by
    intro entry hentry
    have hle := h.author entry (hlog ▸ List.mem_append_left _ hentry)
    refine Nat.lt_of_le_of_ne hle (fun heq => ?_)
    have hentries := h.sent _ _ (getElem?_members_size p)
    rw [hlog, entriesOf_append, if_pos rfl] at hentries
    have hlength := congrArg List.length hentries
    simp only [List.length_append, List.length_singleton, List.length_map, List.length_range,
      sent, Nat.add_eq_right, List.length_eq_zero_iff] at hlength
    have hmem : entry.2 ∈ entriesOf p.producers.size earlier :=
      mem_entriesOf.mpr (heq ▸ hentry)
    rw [hlength] at hmem
    cases hmem
  have hitems : earlier.map (·.2) ∈ Set.range (List.map Message.data) := by
    rw [Set.range_list_map]
    intro message hmessage
    obtain ⟨entry, hentry, rfl⟩ := List.mem_map.mp hmessage
    obtain ⟨item, hitem⟩ := h.item_of_lt data
      (hlog ▸ List.mem_append_left _ hentry : (entry.1, entry.2) ∈ log) (hauthors entry hentry)
    exact ⟨item, hitem.symm⟩
  obtain ⟨items, hmap⟩ := hitems
  exact ⟨earlier, hlog, hauthors, items, hmap.symm⟩

end Stop

/-! ## §3 The end -/

/-- The feeds were delivered: what the consumer handled is a merge of them, it then took the stop, and
nothing is left or went wrong. -/
structure Delivered (feeds : List Feed) (p : Pipeline) : Prop where
  merges : Merges feeds (p.items.map .data)
  empty : p.queue.count = 0
  pushed : p.queue.pushed = UInt64.ofNat (p.items.length + 1)
  popped : p.queue.popped = UInt64.ofNat (p.items.length + 1)
  report : p.report? = some ⟨UInt64.ofNat p.items.length, 0, .stopMessage⟩
  error : p.error? = none

section End

variable {feeds : List Feed} {p : Pipeline} {log : List (TaskId × Message)}

/-- A member that has ended has sent its whole feed, unless memory was refused. -/
theorem Coherent.sent_of_hasEnded (h : p.Coherent) (unrefused : p.Unrefused) {id : TaskId}
    {m : Producer} (found : p.members[id]? = some m) (ended : m.hasEnded = true) :
    m.state = .active ∧ m.sent = m.feed.size := by
  have hstanding := h.member id m found
  unfold Producer.hasEnded at ended
  cases hstate : m.state with
  | active =>
    simp only [hstate, decide_eq_true_eq] at ended
    exact ⟨rfl, Nat.le_antisymm hstanding.sent_le ended⟩
  | enrolled | announcing | waiting => simp [hstate] at ended
  | failed e =>
    obtain ⟨slots, fault, rfl⟩ := hstanding.refused e hstate
    refine absurd ?_ (unrefused m (List.mem_of_getElem? found) slots fault)
    rw [Producer.error?, hstate]

theorem Coherent.error?_eq_none (h : p.Coherent) (unrefused : p.Unrefused)
    (ended : p.feedsEnded = true) (closed : p.closer.hasEnded = true) : p.error? = none := by
  have hnone : ∀ m ∈ p.members, m.error? = none := by
    intro m hm
    obtain ⟨id, hid⟩ := List.mem_iff_getElem?.mp hm
    have hended : m.hasEnded = true := by
      rcases member_cases hid with hproducer | ⟨-, rfl⟩
      · exact feedsEnded_iff.mp ended id m hproducer hid
      · exact closed
    rw [Producer.error?, (h.sent_of_hasEnded unrefused hid hended).1]
  rw [error?, hnone _ (closer_mem_members p), Option.none_or, List.findSome?_eq_none_iff]
  exact fun m hm => hnone m (List.mem_append_left _ hm)

theorem Ledger.delivered (h : Ledger feeds p log) (coherent : p.Coherent)
    (data : ∀ feed ∈ feeds, feed.CarriesItems) (unrefused : p.Unrefused)
    (ended : p.hasEnded = true) : Delivered feeds p := by
  simp only [hasEnded, Bool.and_eq_true] at ended
  obtain ⟨⟨hproducers, hclosed⟩, hreported⟩ := ended
  obtain ⟨report, hphase⟩ : ∃ report, p.phase = .ended report := by
    unfold report? at hreported
    split at hreported
    · next report hphase => exact ⟨report, hphase⟩
    all_goals cases hreported
  have htaken : p.taken = p.items.map .data ++ [.stop] := by rw [taken, hphase]; rfl
  obtain ⟨earlier, hlog, hauthors, items, hitems⟩ :=
    h.before_stop data (h.closer_sent coherent data (by simp [htaken]))
  -- The stop was the last message to be stored, so all others were taken before it.
  obtain ⟨rfl, hempty⟩ : items = p.items ∧ p.queue.toList = [] := by
    refine items_eq_of_stop ?_
    have horder := h.order
    rw [hlog, List.map_append, hitems, htaken, List.append_assoc] at horder
    exact horder
  have hlength : log.length = p.items.length + 1 := by
    have hcount := congrArg List.length hitems
    rw [List.length_map, List.length_map] at hcount
    rw [hlog, List.length_append, hcount, List.length_singleton]
  refine
    { merges := ⟨earlier, hitems, fun entry hentry => h.size_eq ▸ hauthors entry hentry, ?_⟩
      empty := coherent.sound.holds.count_eq.trans (congrArg List.length hempty)
      pushed := by rw [h.pushed, hlength]
      popped := by rw [h.popped, htaken]; simp
      report := by rw [report?, hphase, h.ended report hphase]
      error := coherent.error?_eq_none unrefused hproducers hclosed }
  intro id feed hfeed
  have hid : id < p.producers.size := by
    rw [h.size_eq]
    exact (List.getElem?_eq_some_iff.mp hfeed).1
  obtain ⟨m, hm⟩ := exists_member (Nat.le_of_lt hid)
  have hsame : feed = m.feed := Option.some_inj.mp (hfeed.symm.trans (h.feed_eq hm hid))
  have hsent := h.sent id m hm
  rw [hlog, entriesOf_append, if_neg (Nat.ne_of_gt hid), List.append_nil,
    (coherent.sent_of_hasEnded unrefused hm (feedsEnded_iff.mp hproducers id m hid hm)).2] at hsent
  rw [hsame, Feed.messages, hsent]

end End

/-! ## §4 No deadlock -/

section Deadlock

variable {feeds : List Feed} {p : Pipeline} {log : List (TaskId × Message)} {memory : Memory}

/-- Nobody who has stored a message is kept from announcing it. -/
theorem Coherent.announced_of_stuck (h : p.Coherent) (stuck : Stuck memory p) :
    ¬ p.Unannounced := by
  have hcloser := stuck .close (by simp)
  rintro ⟨id, m, hm, hstate⟩
  have hrefuted : ¬ (m.hasEnded = true ∨ m.state = .waiting ∧ id ∈ p.queue.space) := by
    simp [Producer.hasEnded, hstate]
  rcases member_cases hm with hproducer | ⟨rfl, rfl⟩
  · exact hrefuted (move?_produce_eq_none hm hproducer (stuck _ (by simp)))
  · rcases h.closing with ⟨hactive, -⟩ | hended
    · rw [hstate] at hactive
      cases hactive
    · exact hrefuted (move?_close_eq_none hended hcloser)

/-- Where the queue is empty and the consumer holds nothing, nobody waits for room. -/
theorem Coherent.not_blocked (h : p.Coherent) (empty : p.queue.toList = [])
    (free : ∀ message, p.phase ≠ .holding message) {id : TaskId} {m : Producer}
    (found : p.members[id]? = some m) (waits : m.state = .waiting) : id ∉ p.queue.space := by
  intro hid
  rcases (h.member id m found).blocked waits hid with hfull | ⟨message, hholding⟩
  · have htwo := h.ceiling _ hfull
    have hcount : p.queue.ring.count = 0 :=
      h.sound.holds.count_eq.trans (congrArg List.length empty)
    omega
  · exact free message hholding

/-- **There is no deadlock**: where nobody can move, all have ended, unless memory was refused. -/
theorem Ledger.hasEnded_of_stuck (h : Ledger feeds p log) (coherent : p.Coherent)
    (data : ∀ feed ∈ feeds, feed.CarriesItems) (unrefused : p.Unrefused)
    (stuck : Stuck memory p) : p.hasEnded = true := by
  have hcloser := stuck .close (by simp)
  rw [hasEnded, Bool.and_eq_true, Bool.and_eq_true]
  rcases moveConsumer_eq_none coherent.untriggered (stuck .consume (by simp)) with
    ⟨report, hphase⟩ | ⟨hphase, hlisted⟩
  · -- The stop was taken, so the closing member is done, and it began when the others were.
    have hstop := h.closer_sent coherent data (by simp [taken, hphase, inHand])
    have hended : p.feedsEnded = true := coherent.feedsEnded_of_sent hstop
    refine ⟨⟨hended, (move?_close_eq_none hended hcloser).resolve_right (fun hwaits => ?_)⟩, by
      rw [report?, hphase]; rfl⟩
    have hleft := (coherent.member _ _ (getElem?_members_size p)).left (.inr hwaits.1)
    rw [hstop, h.closing_feed] at hleft
    exact Nat.lt_irrefl 1 hleft
  · -- The consumer rests: nothing is queued, and so nobody waits for room.
    have hfree : ∀ message, p.phase ≠ .holding message := by simp [hphase]
    have hempty : p.queue.toList = [] :=
      (coherent.awake (.inr (List.ne_nil_of_mem hlisted))).resolve_right
        (coherent.announced_of_stuck stuck)
    have hended : p.feedsEnded = true := feedsEnded_iff.mpr (fun id m hid hm =>
      (move?_produce_eq_none hm hid (stuck _ (by simp))).resolve_right
        (fun hwaits => coherent.not_blocked hempty hfree hm hwaits.1 hwaits.2))
    have hclosed : p.closer.hasEnded = true :=
      (move?_close_eq_none hended hcloser).resolve_right
        (fun hwaits => coherent.not_blocked hempty hfree (getElem?_members_size p) hwaits.1
          hwaits.2)
    -- So the stop was stored; but then it is queued or was taken.
    exfalso
    have hsent := (coherent.sent_of_hasEnded unrefused (getElem?_members_size p) hclosed).2
    have hpos : 0 < p.closer.sent := by
      rw [hsent, h.closing_feed]
      exact Nat.one_pos
    have hmem : Message.stop ∈ log.map (·.2) :=
      List.mem_map.mpr ⟨_, List.mem_of_getLast? (h.last hpos), rfl⟩
    rw [h.order, hempty, taken, hphase] at hmem
    simp [inHand] at hmem

end Deadlock

/-- What holds in every run from its start: if no memory was refused, all have ended where nobody can
move, and where all have ended the feeds were delivered. -/
theorem Reaches.delivers {feeds : List Feed} {p : Pipeline} {memory : Memory} {s : QueueSettings}
    {queue : Queue Message} {pollInterval : Nat} (sized : 0 < memory.slotBytes)
    (made : Queue.ofSettings memory s = .ok queue) (data : ∀ feed ∈ feeds, feed.CarriesItems)
    (reached : (ofFeeds queue pollInterval feeds).Reaches p) (unrefused : p.Unrefused) :
    (∀ memory, Stuck memory p → p.hasEnded = true) ∧ (p.hasEnded = true → Delivered feeds p) := by
  have hstart := Coherent.ofFeeds sized made pollInterval feeds
  have hcoherent := reached.coherent hstart
  obtain ⟨log, hlog⟩ := reached.ledger hstart ⟨[], .ofFeeds sized made pollInterval feeds⟩
  exact ⟨fun _ => hlog.hasEnded_of_stuck hcoherent data unrefused,
    hlog.delivered hcoherent data unrefused⟩

end Pipeline

end Handoff
