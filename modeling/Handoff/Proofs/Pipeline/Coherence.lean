/-
Handoff.Proofs.Pipeline.Coherence — no wake-up of a pipeline is lost.

Two things could leave a pipeline asleep while there is work. The consumer could rest though a message
was stored: `Coherent.awake` says that while it rests, or is about to, nothing is queued, or else the
member that stored the message has yet to announce it. And a member could wait for room though there
is some: `Standing.blocked` says that while it waits and was not woken, the ring stands at its
ceiling, or else the consumer has yet to wake those that wait.

Both hold because the one who changes the ring tells the others only afterwards, and because whoever
is about to wait enrolls before it looks. `Coherent` is preserved by every move, for every memory and
whether or not the move ends a sleep.

  §1 what holds between moves   — `Standing`, `Coherent`
  §2 members                    — `Coherent.turn`
  §3 the consumer               — `Coherent.consumerTurn`, `Coherent.lapse`
  §4 runs                       — `Coherent.ofFeeds`, `Reaches.coherent`
-/
import Handoff.Proofs.Pipeline.Step

namespace Handoff.Pipeline

/-! ## §1 What holds between moves -/

/-- What holds of the member `id`, with what it shares with others. -/
structure Standing (q : Queue Message) (phase : ConsumerState) (id : TaskId) (m : Producer) :
    Prop where
  sent_le : m.sent ≤ m.feed.size
  /-- Whoever is about to push has a message left. -/
  left : m.state = .enrolled ∨ m.state = .waiting → m.sent < m.feed.size
  listed : id ∈ q.space → m.state = .enrolled ∨ m.state = .announcing ∨ m.state = .waiting
  blocked : m.state = .waiting → id ∈ q.space →
    q.ring.AtCeiling ∨ ∃ message, phase = .holding message
  /-- A push fails for good only where memory is refused. -/
  refused : ∀ e, m.state = .failed e → ∃ slots fault, e = .allocation slots fault

/-- What holds of one member holds after others moved, if they did not list it, and if they did not
make room without being about to tell it. -/
theorem Standing.mono {q q' : Queue Message} {phase phase' : ConsumerState} {id : TaskId}
    {m : Producer} (h : Standing q phase id m) (space : id ∈ q'.space → id ∈ q.space)
    (blocked : id ∈ q'.space → (q.ring.AtCeiling ∨ ∃ message, phase = .holding message) →
      q'.ring.AtCeiling ∨ ∃ message, phase' = .holding message) :
    Standing q' phase' id m where
  sent_le := h.sent_le
  left := h.left
  listed := fun hid => h.listed (space hid)
  blocked := fun hwaiting hid => blocked hid (h.blocked hwaiting (space hid))
  refused := h.refused

/-- The consumer rests, or it is about to rest and no notification is kept for it. -/
def Resting (p : Pipeline) : Prop :=
  p.phase = .seeking ∧ p.queue.ready.permit = false ∨ p.queue.ready.waiters ≠ []

/-- Some member has stored a message that it has not announced. -/
def Unannounced (p : Pipeline) : Prop :=
  ∃ (id : TaskId) (m : Producer), p.members[id]? = some m ∧ m.state = .announcing

/-- What holds of a pipeline between two moves. -/
structure Coherent (p : Pipeline) : Prop where
  untriggered : p.triggered = false
  sound : p.queue.ring.Sound
  /-- The ceiling leaves room for a message. -/
  ceiling : ∀ max, p.queue.ring.maxCapacity = some max → 2 ≤ max
  nodup : p.queue.space.Nodup
  space_le : ∀ id ∈ p.queue.space, id ≤ p.producers.size
  member : ∀ id m, p.members[id]? = some m → Standing p.queue p.phase id m
  waiters : p.queue.ready.waiters = [] ∨
    p.queue.ready.waiters = [p.consumerId] ∧ p.phase = .waiting
  awake : p.Resting → p.queue.toList = [] ∨ p.Unannounced
  closing : p.closer.state = .active ∧ p.closer.sent = 0 ∨ p.feedsEnded = true

/-! ## §2 Members -/

section Members

variable {p : Pipeline} {memory : Memory} {id : TaskId} {queue : Queue Message} {m next : Producer}

/-- While a producer has not ended the closing one has not begun. -/
theorem Coherent.closer_idle (h : p.Coherent) (found : p.members[id]? = some m)
    (producer : id < p.producers.size) (busy : m.hasEnded = false) :
    p.closer.state = .active ∧ p.closer.sent = 0 := by
  refine h.closing.resolve_right (fun hended => ?_)
  have hall := feedsEnded_iff.mp hended id m producer found
  rw [busy] at hall
  cases hall

/-- When the stop was stored all producers had ended. -/
theorem Coherent.feedsEnded_of_sent (h : p.Coherent) (sent : p.closer.sent = 1) :
    p.feedsEnded = true := by
  refine h.closing.resolve_left (fun hidle => ?_)
  rw [sent] at hidle
  cases hidle.2

theorem Unannounced.became (h : p.Unannounced) (found : p.members[id]? = some m)
    (other : m.state ≠ .announcing) : (p.became id queue next).Unannounced := by
  obtain ⟨author, stored, hauthor, hstate⟩ := h
  refine ⟨author, stored, ?_, hstate⟩
  have hne : author ≠ id := by
    rintro rfl
    rw [found, Option.some.injEq] at hauthor
    exact other (hauthor ▸ hstate)
  rwa [getElem?_members_became (le_size_of_getElem? found), if_neg hne]

/-- What has to be checked when a member moves; the rest does not depend on what it does. -/
theorem Coherent.became (h : p.Coherent) (found : p.members[id]? = some m)
    (cleared : id = p.producers.size → p.feedsEnded = true) (busy : m.hasEnded = false)
    (sound : queue.ring.Sound) (ceiling : queue.ring.maxCapacity = p.queue.ring.maxCapacity)
    (nodup : queue.space.Nodup) (space : ∀ other ∈ queue.space, other = id ∨ other ∈ p.queue.space)
    (full : p.queue.ring.AtCeiling → queue.ring.AtCeiling)
    (own : Standing queue p.phase id next)
    (waiters : queue.ready.waiters = p.queue.ready.waiters ∨ queue.ready.waiters = [])
    (awake : (p.became id queue next).Resting →
      queue.toList = [] ∨ (p.became id queue next).Unannounced) :
    (p.became id queue next).Coherent := by
  have hid := le_size_of_getElem? found
  refine
    { untriggered := h.untriggered
      sound
      ceiling := fun max hmax => h.ceiling max (ceiling ▸ hmax)
      nodup
      space_le := ?_
      member := ?_
      waiters := ?_
      awake
      closing := ?_ }
  · intro other hother
    rw [size_producers_became]
    rcases space other hother with rfl | hlisted
    · exact hid
    · exact h.space_le other hlisted
  · intro other m' hother
    rw [getElem?_members_became hid] at hother
    by_cases heq : other = id
    · subst heq
      rw [if_pos rfl, Option.some.injEq] at hother
      exact hother ▸ own
    · rw [if_neg heq] at hother
      exact (h.member other m' hother).mono (fun hlisted => (space other hlisted).resolve_left heq)
        (fun _ => Or.imp_left full)
  · rw [consumerId_became]
    rcases waiters with hsame | hnil
    · rw [queue_became, hsame]
      exact h.waiters
    · exact .inl hnil
  · rcases member_cases found with hproducer | ⟨hlast, -⟩
    · have hidle := h.closer_idle found hproducer busy
      exact .inl (by rwa [Pipeline.became, if_neg (Nat.ne_of_lt hproducer)])
    · exact .inr ((feedsEnded_became hlast).trans (cleared hlast))

theorem Coherent.turn (h : p.Coherent) (found : p.members[id]? = some m)
    (cleared : id = p.producers.size → p.feedsEnded = true) (sized : 0 < memory.slotBytes)
    (turn : Turn memory id p.queue m queue next) : (p.became id queue next).Coherent := by
  have hown := h.member id m found
  have hbusy := turn.hasEnded_eq_false
  -- Whether anybody rests, and whether there is a message not announced, depends on two moves only.
  have hawake : queue.ready = p.queue.ready → queue.ring = p.queue.ring →
      m.state ≠ .announcing → (p.became id queue next).Resting →
        queue.toList = [] ∨ (p.became id queue next).Unannounced := by
    intro hready hring hstate hresting
    have hbefore : p.Resting := by
      unfold Resting at hresting ⊢
      rwa [queue_became, phase_became, hready] at hresting
    rw [Queue.toList, hring]
    exact (h.awake hbefore).imp_right (·.became found hstate)
  cases turn with
  | enroll state left =>
    have hunlisted : id ∉ p.queue.space := by
      intro hid
      have hlisted := hown.listed hid
      simp [state] at hlisted
    refine h.became found cleared hbusy h.sound rfl ?_ ?_ (fun hfull => hfull) ?_ (.inl rfl)
      (hawake rfl rfl (by simp [state]))
    · rw [(List.perm_append_singleton id _).nodup_iff]
      exact List.nodup_cons.mpr ⟨hunlisted, h.nodup⟩
    · intro other hother
      simpa [or_comm] using hother
    · exact ⟨hown.sent_le, fun _ => left, fun _ => .inl rfl, by simp, by simp⟩
  | store state accepted =>
    obtain ⟨hlist, hmax, hroom⟩ := h.sound.push_ok accepted
    have hleft := hown.left (.inl state)
    refine h.became found cleared hbusy (h.sound.push sized accepted) hmax h.nodup
      (fun _ hother => .inr hother) (fun hfull => absurd hfull hroom) ?_ (.inl rfl)
      (fun _ => .inr ⟨id, { m with sent := m.sent + 1, state := .announcing }, ?_, rfl⟩)
    · exact ⟨hleft, by simp, fun _ => .inr (.inl rfl), by simp, by simp⟩
    · rw [getElem?_members_became (le_size_of_getElem? found), if_pos rfl]
  | postpone state refused full =>
    refine h.became found cleared hbusy h.sound rfl h.nodup (fun _ hother => .inr hother)
      (fun hfull => hfull) ?_ (.inl rfl) (hawake rfl rfl (by simp [state]))
    refine ⟨hown.sent_le, fun _ => hown.left (.inl state), fun _ => .inr (.inr rfl), ?_, by simp⟩
    intro _ _
    rcases h.sound.push_error refused with ⟨-, hceiling⟩ | ⟨hroom, -⟩
    · exact .inl hceiling
    · rw [full] at hroom
      cases hroom
  | fail state refused room =>
    refine h.became found cleared hbusy h.sound rfl (h.nodup.erase id)
      (fun _ hother => .inr (List.mem_of_mem_erase hother)) (fun hfull => hfull) ?_ (.inl rfl)
      (hawake rfl rfl (by simp [state]))
    refine ⟨hown.sent_le, by simp, fun hid => absurd hid (h.nodup.not_mem_erase), by simp, ?_⟩
    rintro e ⟨⟩
    rcases h.sound.push_error refused with ⟨hfull, -⟩ | ⟨-, hwhy⟩
    · rw [room] at hfull
      cases hfull
    · exact hwhy
  | announce state =>
    refine h.became found cleared hbusy h.sound rfl (h.nodup.erase id)
      (fun _ hother => .inr (List.mem_of_mem_erase hother)) (fun hfull => hfull) ?_ (.inr ?_) ?_
    · exact ⟨hown.sent_le, by simp, fun hid => absurd hid (h.nodup.not_mem_erase), by simp,
        by simp⟩
    · rcases h.waiters with hnil | ⟨hone, -⟩
      · simp [Signal.notifyOne, hnil]
      · simp [Signal.notifyOne, hone]
    · -- The consumer was woken, or the notification is kept for it.
      intro hresting
      exfalso
      rcases h.waiters with hnil | ⟨hone, hphase⟩
      · simp [Resting, Signal.notifyOne, hnil] at hresting
      · simp [Resting, Signal.notifyOne, hone, hphase] at hresting
  | resume state unlisted =>
    refine h.became found cleared hbusy h.sound rfl h.nodup (fun _ hother => .inr hother)
      (fun hfull => hfull) ?_ (.inl rfl) (hawake rfl rfl (by simp [state]))
    exact ⟨hown.sent_le, by simp, fun hid => absurd hid unlisted, by simp, by simp⟩

end Members

/-! ## §3 The consumer -/

section Consumers

variable {p q : Pipeline}

/-- What has to be checked when the consumer moves and the members stay as they are. -/
theorem Coherent.consumed (h : p.Coherent) (producers : q.producers = p.producers)
    (closer : q.closer = p.closer) (triggered : q.triggered = p.triggered)
    (sound : q.queue.ring.Sound) (ceiling : q.queue.ring.maxCapacity = p.queue.ring.maxCapacity)
    (space : q.queue.space = [] ∨ q.queue.space = p.queue.space ∧
      ((∃ message, q.phase = .holding message) ∨
        q.queue.ring = p.queue.ring ∧ ∀ message, p.phase ≠ .holding message))
    (waiters : q.queue.ready.waiters = [] ∨
      q.queue.ready.waiters = [p.consumerId] ∧ q.phase = .waiting)
    (awake : q.Resting → q.queue.toList = [] ∨ p.Unannounced) : q.Coherent := by
  have hmembers : q.members = p.members := by rw [members, members, producers, closer]
  refine
    { untriggered := triggered.trans h.untriggered
      sound
      ceiling := fun max hmax => h.ceiling max (ceiling ▸ hmax)
      nodup := ?_
      space_le := ?_
      member := ?_
      waiters := by rwa [consumerId, producers]
      awake := by rwa [Unannounced, hmembers]
      closing := by rw [closer, feedsEnded, producers]; exact h.closing }
  · rcases space with hnil | ⟨hsame, -⟩
    · rw [hnil]
      exact List.nodup_nil
    · rw [hsame]
      exact h.nodup
  · intro id hid
    rcases space with hnil | ⟨hsame, -⟩
    · rw [hnil] at hid
      cases hid
    · rw [producers]
      exact h.space_le id (hsame ▸ hid)
  · intro id m hm
    rw [hmembers] at hm
    refine (h.member id m hm).mono (fun hid => ?_) (fun hid hblocked => ?_)
    · rcases space with hnil | ⟨hsame, -⟩
      · rw [hnil] at hid
        cases hid
      · exact hsame ▸ hid
    · rcases space with hnil | ⟨-, hholds | ⟨hring, hfree⟩⟩
      · rw [hnil] at hid
        cases hid
      · exact .inr hholds
      · rcases hblocked with hfull | ⟨message, hholding⟩
        · exact .inl (hring ▸ hfull)
        · exact absurd hholding (hfree message)

theorem Coherent.consumerTurn (h : p.Coherent) (turn : ConsumerTurn p q) : q.Coherent := by
  -- Nobody rests whose phase is another.
  have hnil : p.phase ≠ .waiting → p.queue.ready.waiters = [] :=
    fun hphase => h.waiters.resolve_right (fun hw => hphase hw.2)
  cases turn with
  | seek phase empty =>
    obtain ⟨hempty, rfl⟩ := h.sound.pop_none empty
    exact h.consumed rfl rfl rfl h.sound rfl (.inr ⟨rfl, .inr ⟨rfl, by simp [phase]⟩⟩)
      (.inl (hnil (by simp [phase]))) (fun _ => .inl hempty)
  | take phase found =>
    obtain ⟨hsound, -, hmax⟩ := h.sound.pop_some found
    refine h.consumed rfl rfl rfl hsound hmax (.inr ⟨rfl, .inl ⟨_, rfl⟩⟩)
      (.inl (hnil (by simp [phase]))) (fun hresting => ?_)
    simp [Resting, hnil (by simp [phase])] at hresting
  | stop phase | handle phase =>
    refine h.consumed rfl rfl rfl h.sound rfl (.inl rfl) (.inl (hnil (by simp [phase])))
      (fun hresting => ?_)
    simp [Resting, hnil (by simp [phase])] at hresting
  | spend phase kept =>
    refine h.consumed rfl rfl rfl h.sound rfl (.inr ⟨rfl, .inr ⟨rfl, by simp [phase]⟩⟩)
      (.inl (hnil (by simp [phase]))) (fun hresting => ?_)
    simp [Resting, Signal.spend, hnil (by simp [phase])] at hresting
  | rest phase none_kept =>
    refine h.consumed rfl rfl rfl h.sound rfl (.inr ⟨rfl, .inr ⟨rfl, by simp [phase]⟩⟩)
      (.inr ⟨?_, rfl⟩) (fun _ => h.awake (.inl ⟨phase, none_kept⟩))
    simp [Signal.enroll, hnil (by simp [phase])]
  | wake phase unlisted =>
    have hwoken : p.queue.ready.waiters = [] :=
      h.waiters.resolve_right (fun hw => unlisted (by simp [hw.1]))
    refine h.consumed rfl rfl rfl h.sound rfl (.inr ⟨rfl, .inr ⟨rfl, by simp [phase]⟩⟩)
      (.inl hwoken) (fun hresting => ?_)
    simp [Resting, hwoken] at hresting

theorem Coherent.lapse (h : p.Coherent) (lapse : Lapse p q) : q.Coherent := by
  have hwaiters : q.phase = .active → q.queue.ready.waiters = [] → q.queue.ring = p.queue.ring →
      q.queue.space = p.queue.space → q.producers = p.producers → q.closer = p.closer →
      q.triggered = p.triggered → (∀ message, p.phase ≠ .holding message) → q.Coherent := by
    intro hphase hnone hring hspace hproducers hcloser htriggered hfree
    refine h.consumed hproducers hcloser htriggered (hring ▸ h.sound) (by rw [hring])
      (.inr ⟨hspace, .inr ⟨hring, hfree⟩⟩) (.inl hnone) (fun hresting => ?_)
    simp [Resting, hphase, hnone] at hresting
  cases lapse with
  | early phase =>
    refine hwaiters rfl ?_ rfl rfl rfl rfl rfl (by simp [phase])
    exact h.waiters.resolve_right (by simp [phase])
  | leave phase listed =>
    refine hwaiters rfl ?_ rfl rfl rfl rfl rfl (by simp [phase])
    rcases h.waiters with hnil | ⟨hone, -⟩ <;> simp [Signal.leave, *]
  | pass phase unlisted =>
    refine hwaiters rfl ?_ rfl rfl rfl rfl rfl (by simp [phase])
    rcases h.waiters with hnil | ⟨hone, -⟩ <;> simp [Signal.notifyOne, *]

end Consumers

/-! ## §4 Runs -/

section Start

variable {memory : Memory} {s : QueueSettings} {queue : Queue Message}

/-- A queue that the settings describe is an empty ring with their ceiling, and it has room for a
message. -/
theorem ring_of_ofSettings (sized : 0 < memory.slotBytes)
    (made : Queue.ofSettings memory s = .ok queue) :
    queue.ring.Sound ∧ queue.ring.toList = [] ∧ queue.ring.maxCapacity = s.maxCapacity ∧
      (∀ max, s.maxCapacity = some max → 2 ≤ max) ∧ queue = .ofRing s.name queue.ring := by
  obtain ⟨-, ring, hring, rfl⟩ := Queue.ofSettings_ok made
  obtain ⟨hholds, -, hmax⟩ := Ring.holds_create hring
  refine ⟨(Ring.Reached.create sized hring).sound, hholds.toList_eq, hmax, ?_, rfl⟩
  intro max hceiling
  rw [hceiling, Ring.create, Ring.bounded] at hring
  split at hring
  · cases hring
  · next hlow => exact Nat.not_lt.mp hlow

theorem members_ofFeeds (pollInterval : Nat) (feeds : List Feed) :
    (ofFeeds queue pollInterval feeds).members = (feeds ++ [closing]).map Producer.ofFeed := by
  simp [members, ofFeeds]

theorem Coherent.ofFeeds (sized : 0 < memory.slotBytes)
    (made : Queue.ofSettings memory s = .ok queue) (pollInterval : Nat) (feeds : List Feed) :
    (ofFeeds queue pollInterval feeds).Coherent := by
  obtain ⟨hsound, hempty, hmax, hceiling, hqueue⟩ := ring_of_ofSettings sized made
  have hspace : queue.space = [] := by rw [hqueue]; rfl
  have hwaiters : queue.ready.waiters = [] := by rw [hqueue]; rfl
  exact
    { untriggered := rfl
      sound := hsound
      ceiling := fun max h => hceiling max (hmax ▸ h)
      nodup := by rw [Pipeline.ofFeeds, hspace]; exact List.nodup_nil
      space_le := by simp [Pipeline.ofFeeds, hspace]
      member := by
        intro id m hm
        rw [members_ofFeeds, List.getElem?_map, Option.map_eq_some_iff] at hm
        obtain ⟨feed, -, rfl⟩ := hm
        exact ⟨Nat.zero_le _, by simp [Producer.ofFeed], by simp [Pipeline.ofFeeds, hspace],
          by simp [Producer.ofFeed], by simp [Producer.ofFeed]⟩
      waiters := .inl hwaiters
      awake := fun _ => .inl hempty
      closing := .inl ⟨rfl, rfl⟩ }

end Start

theorem Coherent.step {memory : Memory} {p q : Pipeline} (h : p.Coherent)
    (sized : 0 < memory.slotBytes) (step : Step memory p q) : q.Coherent := by
  cases step with
  | member found cleared turn => exact h.turn found cleared sized turn
  | consumer turn => exact h.consumerTurn turn

theorem Reaches.coherent {start p : Pipeline} (h : start.Coherent) (reached : start.Reaches p) :
    p.Coherent := by
  induction reached with
  | refl => exact h
  | move sized _ moved ih =>
    rcases step_or_lapse ih.untriggered moved with hstep | hlapse
    · exact ih.step sized hstep
    · exact ih.lapse hlapse

theorem Step.maxCapacity_eq {memory : Memory} {p q : Pipeline} (h : p.Coherent)
    (step : Step memory p q) : q.queue.ring.maxCapacity = p.queue.ring.maxCapacity := by
  cases step with
  | member found cleared turn =>
    cases turn with
    | store state accepted => exact (h.sound.push_ok accepted).2.1
    | enroll | postpone | fail | announce | resume => rfl
  | consumer turn =>
    cases turn with
    | seek phase empty => rw [(h.sound.pop_none empty).2]
    | take phase found => exact (h.sound.pop_some found).2.2
    | stop | handle | spend | rest | wake => rfl

/-- No move changes the ceiling. -/
theorem Reaches.maxCapacity_eq {start p : Pipeline} (h : start.Coherent)
    (reached : start.Reaches p) :
    p.queue.ring.maxCapacity = start.queue.ring.maxCapacity := by
  induction reached with
  | refl => rfl
  | move _ before moved ih =>
    have hbefore := before.coherent h
    rcases step_or_lapse hbefore.untriggered moved with hstep | hlapse
    · exact (hstep.maxCapacity_eq hbefore).trans ih
    · cases hlapse <;> exact ih

/-- The ring does not grow past the ceiling of the settings. -/
theorem Reaches.capacity_le {memory : Memory} {s : QueueSettings} {queue : Queue Message}
    (sized : 0 < memory.slotBytes) (made : Queue.ofSettings memory s = .ok queue)
    {pollInterval : Nat} {feeds : List Feed} {p : Pipeline}
    (reached : (ofFeeds queue pollInterval feeds).Reaches p) {max : Nat}
    (ceiling : s.maxCapacity = some max) : p.queue.capacity ≤ max := by
  have hstart := Coherent.ofFeeds sized made pollInterval feeds
  refine (reached.coherent hstart).sound.holds.capacity_le max ?_
  rw [reached.maxCapacity_eq hstart]
  exact (ring_of_ofSettings sized made).2.2.1.trans ceiling

end Handoff.Pipeline
