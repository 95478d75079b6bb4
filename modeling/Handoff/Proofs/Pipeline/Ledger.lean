/-
Handoff.Proofs.Pipeline.Ledger — what the consumer takes is what the producers stored.

The ledger of a run lists every message that was stored, with the member that stored it. Read without
the members it is what the consumer has taken and then what is still queued; read for one member it is
the part of that member's feed that was sent. So the consumer sees a merge of the feeds: nothing
twice, nothing left out, and each feed in its order. The ledger is no part of the pipeline, so that
every statement about it says that there is one.

The stop message is its last entry, since the closing member stores it only when all others have
ended.

  §1 the ledger   — `taken`, `Ledger`
  §2 moves        — `Ledger.turn`, `Ledger.consumerTurn`
  §3 runs         — `Reaches.ledger`
-/
import Handoff.Proofs.Pipeline.Coherence

namespace Handoff.Pipeline

/-! ## §1 The ledger -/

/-- The message that the consumer has taken and not handled: the one that it holds, or the stop that
it ended with. -/
def inHand : ConsumerState → List Message
  | .holding message => [message]
  | .ended _ => [.stop]
  | .active | .seeking | .waiting => []

/-- The messages that the consumer has taken, oldest first. -/
def taken (p : Pipeline) : List Message := p.items.map .data ++ inHand p.phase

/-- The part of a ledger that one member stored. -/
def entriesOf (id : TaskId) (log : List (TaskId × Message)) : List Message :=
  (log.filter (·.1 = id)).map (·.2)

theorem entriesOf_append (id author : TaskId) (log : List (TaskId × Message)) (message : Message) :
    entriesOf id (log ++ [(author, message)]) =
      entriesOf id log ++ if author = id then [message] else [] := by
  unfold entriesOf
  by_cases h : author = id <;> simp [List.filter_append, h]

theorem mem_entriesOf {id : TaskId} {log : List (TaskId × Message)} {message : Message} :
    message ∈ entriesOf id log ↔ (id, message) ∈ log := by
  simp [entriesOf]

/-- The messages that were stored in a run of a pipeline over `feeds`, each with its member. -/
structure Ledger (feeds : List Feed) (p : Pipeline) (log : List (TaskId × Message)) : Prop where
  feeds_eq : p.members.map (·.feed) = feeds ++ [closing]
  order : log.map (·.2) = p.taken ++ p.queue.toList
  sent : ∀ id m, p.members[id]? = some m →
    entriesOf id log = (List.range m.sent).map m.feed.message
  author : ∀ entry ∈ log, entry.1 ≤ p.producers.size
  /-- Nothing is stored after the stop message. -/
  last : 0 < p.closer.sent → log.getLast? = some (p.producers.size, .stop)
  pushed : p.queue.pushed = UInt64.ofNat log.length
  popped : p.queue.popped = UInt64.ofNat p.taken.length
  handler : p.consumer.handler = accepting
  report : ∀ reason, p.consumer.report reason = ⟨UInt64.ofNat p.items.length, 0, reason⟩
  ended : ∀ report, p.phase = .ended report →
    report = ⟨UInt64.ofNat p.items.length, 0, .stopMessage⟩

/-! ## §2 Moves -/

section Members

variable {feeds : List Feed} {p : Pipeline} {log : List (TaskId × Message)} {memory : Memory}
  {id : TaskId} {queue : Queue Message} {m next : Producer}

theorem feeds_became (found : p.members[id]? = some m) (feed : next.feed = m.feed) :
    (p.became id queue next).members.map (·.feed) = p.members.map (·.feed) := by
  refine List.ext_getElem? (fun other => ?_)
  rw [List.getElem?_map, List.getElem?_map, getElem?_members_became (le_size_of_getElem? found)]
  split
  · next heq => rw [heq, found, Option.map_some, Option.map_some, feed]
  · rfl

/-- The feed of the last member is the stop message. -/
theorem Ledger.closing_feed (h : Ledger feeds p log) : p.closer.feed = closing := by
  have hlast := congrArg List.getLast? h.feeds_eq
  simpa [members] using hlast

/-- A member that stores nothing leaves the ledger as it is. -/
theorem Ledger.became (h : Ledger feeds p log) (found : p.members[id]? = some m)
    (feed : next.feed = m.feed) (sent : next.sent = m.sent) (ring : queue.ring = p.queue.ring)
    (pushed : queue.pushed = p.queue.pushed) (popped : queue.popped = p.queue.popped) :
    Ledger feeds (p.became id queue next) log := by
  have hid := le_size_of_getElem? found
  refine
    { feeds_eq := (feeds_became found feed).trans h.feeds_eq
      order := by rw [queue_became, Queue.toList, ring]; exact h.order
      sent := ?_
      author := by rw [size_producers_became]; exact h.author
      last := ?_
      pushed := pushed.trans h.pushed
      popped := popped.trans h.popped
      handler := h.handler
      report := h.report
      ended := h.ended }
  · intro other m' hother
    rw [getElem?_members_became hid] at hother
    split at hother
    · next heq =>
      cases hother
      rw [heq, sent, feed]
      exact h.sent id m found
    · exact h.sent other m' hother
  · intro hsent
    rw [size_producers_became]
    refine h.last ?_
    unfold Pipeline.became at hsent
    dsimp only at hsent
    split at hsent
    · next heq =>
      rw [heq, getElem?_members_size, Option.some.injEq] at found
      rwa [found, ← sent]
    · exact hsent

theorem Ledger.store {placement : Placement} {ring : Ring Message} (h : Ledger feeds p log)
    (coherent : p.Coherent) (found : p.members[id]? = some m) (busy : m.hasEnded = false)
    (accepted : p.queue.ring.push memory (m.feed.message m.sent) = .ok (placement, ring)) :
    Ledger feeds
      (p.became id
        { p.queue with
          ring, pushed := p.queue.pushed + 1, grows := p.queue.grows + Queue.growthOf placement }
        { m with sent := m.sent + 1, state := .announcing })
      (log ++ [(id, m.feed.message m.sent)]) := by
  have hid := le_size_of_getElem? found
  obtain ⟨hlist, -, -⟩ := coherent.sound.push_ok accepted
  refine
    { feeds_eq := (feeds_became found (by rfl)).trans h.feeds_eq
      order := ?_
      sent := ?_
      author := ?_
      last := ?_
      pushed := ?_
      popped := h.popped
      handler := h.handler
      report := h.report
      ended := h.ended }
  · show _ = p.taken ++ ring.toList
    rw [List.map_append, h.order, hlist, List.append_assoc]
    rfl
  · intro other m' hother
    rw [getElem?_members_became hid] at hother
    rw [entriesOf_append]
    split at hother
    · next heq =>
      cases hother
      rw [heq, if_pos rfl, h.sent id m found, List.range_succ, List.map_append]
      rfl
    · next hne => rw [if_neg (Ne.symm hne), List.append_nil, h.sent other m' hother]
  · rw [size_producers_became]
    intro entry hentry
    rcases List.mem_append.mp hentry with hbefore | hnew
    · exact h.author entry hbefore
    · cases List.mem_singleton.mp hnew
      exact hid
  · rw [size_producers_became, List.getLast?_append, List.getLast?_singleton, Option.some_or]
    intro hsent
    rcases member_cases found with hproducer | ⟨rfl, rfl⟩
    · have hidle := (coherent.closer_idle found hproducer busy).2
      rw [Pipeline.became, if_neg (Nat.ne_of_lt hproducer)] at hsent
      dsimp only at hsent
      omega
    · rw [h.closing_feed]
      rfl
  · show p.queue.pushed + 1 = _
    rw [h.pushed, List.length_append, List.length_singleton, UInt64.ofNat_add]
    rfl

theorem Ledger.turn (h : Ledger feeds p log) (coherent : p.Coherent)
    (found : p.members[id]? = some m) (turn : Turn memory id p.queue m queue next) :
    ∃ log, Ledger feeds (p.became id queue next) log := by
  have hbusy := turn.hasEnded_eq_false
  cases turn with
  | store state accepted => exact ⟨_, h.store coherent found hbusy accepted⟩
  | enroll | postpone | fail | announce | resume =>
    exact ⟨log, h.became found rfl rfl rfl rfl rfl⟩

end Members

section Consumers

variable {feeds : List Feed} {p q : Pipeline} {log : List (TaskId × Message)}

/-- A consumer that handles nothing and makes no report leaves the ledger as it is. -/
theorem Ledger.consumed (h : Ledger feeds p log) (producers : q.producers = p.producers)
    (closer : q.closer = p.closer) (order : q.taken ++ q.queue.toList = p.taken ++ p.queue.toList)
    (pushed : q.queue.pushed = p.queue.pushed) (popped : q.queue.popped = UInt64.ofNat q.taken.length)
    (handler : q.consumer.handler = p.consumer.handler)
    (report : ∀ reason, q.consumer.report reason = ⟨UInt64.ofNat q.items.length, 0, reason⟩)
    (ended : ∀ report, q.phase = .ended report →
      report = ⟨UInt64.ofNat q.items.length, 0, .stopMessage⟩) :
    Ledger feeds q log := by
  have hmembers : q.members = p.members := by rw [members, members, producers, closer]
  exact
    { feeds_eq := by rw [hmembers]; exact h.feeds_eq
      order := h.order.trans order.symm
      sent := by rw [hmembers]; exact h.sent
      author := by rw [producers]; exact h.author
      last := by rw [closer, producers]; exact h.last
      pushed := pushed.trans h.pushed
      popped
      handler := handler.trans h.handler
      report
      ended }

theorem Ledger.consumerTurn (h : Ledger feeds p log) (coherent : p.Coherent)
    (turn : ConsumerTurn p q) : Ledger feeds q log := by
  have hpopped := h.popped
  cases turn with
  | seek phase empty =>
    obtain ⟨-, rfl⟩ := coherent.sound.pop_none empty
    have htaken : p.taken = p.items.map .data ++ [] := by rw [taken, phase]; rfl
    rw [htaken] at hpopped
    exact h.consumed rfl rfl (by rw [htaken]; rfl) rfl hpopped rfl h.report (by simp)
  | @take ring message phase found =>
    obtain ⟨-, hlist, -⟩ := coherent.sound.pop_some found
    have htaken : p.taken = p.items.map .data := by
      rw [taken, phase]
      exact List.append_nil _
    refine h.consumed rfl rfl ?_ rfl ?_ rfl h.report (by simp)
    · show (p.items.map .data ++ [message]) ++ ring.toList = p.taken ++ p.queue.ring.toList
      rw [htaken, hlist, List.append_assoc]
      rfl
    · show p.queue.popped + 1 = UInt64.ofNat (p.items.map Message.data ++ [message]).length
      rw [hpopped, htaken, List.length_append, UInt64.ofNat_add]
      rfl
  | stop phase =>
    have htaken : p.taken = p.items.map .data ++ [.stop] := by rw [taken, phase]; rfl
    rw [htaken] at hpopped
    refine h.consumed rfl rfl (by rw [htaken]; rfl) rfl hpopped rfl h.report ?_
    rintro report ⟨⟩
    exact h.report .stopMessage
  | @handle item phase =>
    have htaken : p.taken = p.items.map .data ++ [.data item] := by rw [taken, phase]; rfl
    have hnow : ∀ q : Pipeline, q.handled = item :: p.handled → q.phase = .active →
        q.taken = p.taken ∧ q.items.length = p.items.length + 1 := by
      intro q hhandled hphase
      rw [htaken, taken, items, items, hhandled, hphase]
      simp [inHand]
    have haccepts : (p.consumer.react item).complaint = none := by
      rw [Consumer.react, h.handler]
      rfl
    have hreport := h.report
    rw [haccepts]
    refine h.consumed rfl rfl ?_ rfl ?_ rfl ?_ (by simp)
    · rw [(hnow _ rfl rfl).1]
      rfl
    · rw [(hnow _ rfl rfl).1]
      exact hpopped
    · intro reason
      rw [(hnow _ rfl rfl).2, UInt64.ofNat_add]
      have hbefore := hreport reason
      simp only [Consumer.report, Report.mk.injEq] at hbefore
      simp only [Consumer.report, Consumer.tally, hbefore]
      rfl
  | spend phase | rest phase | wake phase =>
    have htaken : p.taken = p.items.map .data ++ [] := by rw [taken, phase]; rfl
    rw [htaken] at hpopped
    exact h.consumed rfl rfl (by rw [htaken]; rfl) rfl hpopped rfl h.report (by simp)

theorem Ledger.lapse (h : Ledger feeds p log) (lapse : Lapse p q) : Ledger feeds q log := by
  have hpopped := h.popped
  cases lapse with
  | early phase | leave phase | pass phase =>
    have htaken : p.taken = p.items.map .data ++ [] := by rw [taken, phase]; rfl
    rw [htaken] at hpopped
    exact h.consumed rfl rfl (by rw [htaken]; rfl) rfl hpopped rfl h.report (by simp)

end Consumers

/-! ## §3 Runs -/

section Runs

variable {memory : Memory} {feeds : List Feed} {s : QueueSettings} {queue : Queue Message}

theorem Ledger.ofFeeds (sized : 0 < memory.slotBytes)
    (made : Queue.ofSettings memory s = .ok queue) (pollInterval : Nat) (feeds : List Feed) :
    Ledger feeds (ofFeeds queue pollInterval feeds) [] := by
  obtain ⟨-, hempty, -, -, hqueue⟩ := ring_of_ofSettings sized made
  exact
    { feeds_eq := by
        rw [members_ofFeeds, List.map_map]
        exact List.map_id _
      order := hempty.symm
      sent := by
        intro id m hm
        rw [members_ofFeeds, List.getElem?_map, Option.map_eq_some_iff] at hm
        obtain ⟨feed, -, rfl⟩ := hm
        rfl
      author := by simp
      last := by simp [Pipeline.ofFeeds, Producer.ofFeed]
      pushed := by rw [Pipeline.ofFeeds, hqueue]; rfl
      popped := by rw [Pipeline.ofFeeds, hqueue]; rfl
      handler := rfl
      report := fun _ => rfl
      ended := by simp [Pipeline.ofFeeds] }

theorem Reaches.ledger {start p : Pipeline} (coherent : start.Coherent)
    (h : ∃ log, Ledger feeds start log) (reached : start.Reaches p) :
    ∃ log, Ledger feeds p log := by
  induction reached with
  | refl => exact h
  | move _ before moved ih =>
    have hbefore := before.coherent coherent
    obtain ⟨log, hlog⟩ := ih
    rcases step_or_lapse hbefore.untriggered moved with hstep | hlapse
    · cases hstep with
      | member found _ turn => exact hlog.turn hbefore found turn
      | consumer turn => exact ⟨log, hlog.consumerTurn hbefore turn⟩
    · exact ⟨log, hlog.lapse hlapse⟩

end Runs

end Handoff.Pipeline
