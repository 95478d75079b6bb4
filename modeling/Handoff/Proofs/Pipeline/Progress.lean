/-
Handoff.Proofs.Pipeline.Progress — a pipeline runs only so long.

Every move that no lapsed sleep makes possible takes something of a finite store, its `weight`. What
has to be bounded are the wake-ups: a message that leaves the queue wakes all producers that wait for
room, and each then tries again. So a queued message weighs as much as it costs to wake everybody, a
message that was not sent yet weighs more, and a member that is not enrolled weighs more than one that
is.

With `Ledger.hasEnded_of_stuck` this gives the end of the schedule that `run` follows: its moves are
bounded by `moveBound`, and it goes on until nobody can move.

  §1 the weight     — `weight`, `Coherent.weight_lt`
  §2 the schedule   — `InTurn`, `Reaches.run`, `run_delivers`
-/
import Handoff.Proofs.Pipeline.Delivery
import Mathlib.Algebra.BigOperators.Intervals
import Mathlib.Data.List.Perm.Subperm

namespace Handoff.Pipeline

/-! ## §1 The weight -/

/-- What is to come of a member for the message that it is about to send. -/
def stateWeight : ProducerState → Nat
  | .active => 2
  | .enrolled => 4
  | .announcing => 9
  | .waiting => 3
  | .failed _ => 0

/-- What is to come of a member, among `n` of them. -/
def memberWeight (n : Nat) (m : Producer) : Nat :=
  (3 * n + 8) * (m.feed.size - m.sent) + stateWeight m.state

/-- What is to come of the consumer for the message that it holds or has found missing. -/
def phaseWeight (p : Pipeline) : Nat :=
  match p.phase with
  | .active => 2
  | .holding _ => 3 * p.members.length + 3
  | .seeking => 1
  | .waiting => if p.consumerId ∈ p.queue.ready.waiters then 0 else 3
  | .ended _ => 0

/-- What is to come of a queue with `n` members: of those that are not enrolled, of the messages, and
of the permit. -/
def queueWeight (n : Nat) (q : Queue Message) : Nat :=
  3 * (n - q.space.length) + (3 * n + 2) * q.toList.length + 2 * q.ready.permit.toNat

/-- A bound of the moves to come. -/
def weight (p : Pipeline) : Nat :=
  (p.members.map (memberWeight p.members.length)).sum + queueWeight p.members.length p.queue +
    p.phaseWeight

section Weight

variable {p q : Pipeline} {memory : Memory} {id : TaskId} {queue : Queue Message}
  {m next : Producer}

/-- A sum in which one term was replaced. -/
theorem sum_map_set {α : Type} (f : α → Nat) (l : List α) {i : Nat} {a : α} (b : α)
    (h : l[i]? = some a) : ((l.set i b).map f).sum + f a = (l.map f).sum + f b := by
  induction l generalizing i with
  | nil => simp at h
  | cons x l ih =>
    cases i with
    | zero =>
      simp only [List.getElem?_cons_zero, Option.some.injEq] at h
      simp only [List.set_cons_zero, List.map_cons, List.sum_cons, h]
      omega
    | succ i =>
      have htail := ih h
      simp only [List.set_cons_succ, List.map_cons, List.sum_cons]
      omega

/-- No more members are enrolled than there are. -/
theorem Coherent.length_space_le (h : p.Coherent) :
    p.queue.space.length ≤ p.members.length := by
  have hsubset : p.queue.space ⊆ List.range p.members.length := by
    intro id hid
    rw [List.mem_range, length_members]
    exact Nat.lt_succ_of_le (h.space_le id hid)
  simpa using (List.subperm_of_subset h.nodup hsubset).length_le

/-- The weight becomes less if the weight of what moved does. -/
theorem weight_became_lt (found : p.members[id]? = some m)
    (less : memberWeight p.members.length next + queueWeight p.members.length queue +
        (p.became id queue next).phaseWeight <
      memberWeight p.members.length m + queueWeight p.members.length p.queue + p.phaseWeight) :
    (p.became id queue next).weight < p.weight := by
  have hmembers : (p.became id queue next).members = p.members.set id next :=
    members_became (le_size_of_getElem? found)
  have hsum := sum_map_set (memberWeight p.members.length) p.members next found
  rw [weight, weight, hmembers, List.length_set, queue_became]
  omega

/-- The consumer's weight depends on who waits for a notification, and on its phase. -/
theorem phaseWeight_became (ready : queue.ready = p.queue.ready) :
    (p.became id queue m).phaseWeight = p.phaseWeight := by
  rw [phaseWeight, phaseWeight, phase_became, consumerId_became, queue_became, ready,
    length_members, length_members, size_producers_became]

/-- A consumer that was woken goes on, and one that is about to rest does so if there is a permit. -/
theorem Coherent.phaseWeight_notified (h : p.Coherent) (id : TaskId) (m : Producer)
    (ready : queue.ready = p.queue.ready.notifyOne.2) :
    2 * queue.ready.permit.toNat + (p.became id queue m).phaseWeight ≤
      2 * p.queue.ready.permit.toNat + p.phaseWeight + 3 := by
  rcases h.waiters with hnil | ⟨hone, hresting⟩
  · have hsame : (p.became id queue m).phaseWeight = p.phaseWeight := by
      simp [phaseWeight, ready, Signal.notifyOne, hnil]
    have hone := Bool.toNat_le queue.ready.permit
    omega
  · simp [phaseWeight, ready, Signal.notifyOne, hone, hresting]

/-- At most one place is lost where an entry is erased. -/
theorem length_le_length_erase (id : TaskId) (space : List TaskId) :
    space.length ≤ (space.erase id).length + 1 := by
  rw [List.length_erase]
  split <;> omega

theorem Coherent.weight_turn (h : p.Coherent) (found : p.members[id]? = some m)
    (after : (p.became id queue next).Coherent) (turn : Turn memory id p.queue m queue next) :
    (p.became id queue next).weight < p.weight := by
  have hspace := h.length_space_le
  have hspace' : queue.space.length ≤ p.members.length := by
    have hle := after.length_space_le
    rwa [length_members, size_producers_became, ← length_members] at hle
  have hnotified : queue.ready = p.queue.ready.notifyOne.2 → _ := h.phaseWeight_notified id next
  refine weight_became_lt found ?_
  cases turn with
  | enroll state left =>
    rw [phaseWeight_became (by rfl)]
    simp only [memberWeight, queueWeight, Queue.toList, state, stateWeight, List.length_append,
      List.length_singleton] at hspace' ⊢
    omega
  | @store placement ring state accepted =>
    have hleft := (h.member id m found).left (.inl state)
    obtain ⟨hlist, -, -⟩ := h.sound.push_ok accepted
    rw [phaseWeight_became (by rfl)]
    simp only [memberWeight, queueWeight, Queue.toList, state, stateWeight, hlist,
      List.length_append, List.length_singleton]
    rw [show m.feed.size - m.sent = m.feed.size - (m.sent + 1) + 1 by omega, Nat.mul_add,
      Nat.mul_add]
    omega
  | postpone state refused full =>
    rw [phaseWeight_became (by rfl)]
    simp only [memberWeight, state, stateWeight]
    omega
  | fail state refused room =>
    have herased := length_le_length_erase id p.queue.space
    rw [phaseWeight_became (by rfl)]
    simp only [memberWeight, queueWeight, Queue.toList, state, stateWeight]
    omega
  | announce state =>
    have herased := length_le_length_erase id p.queue.space
    have hphase := hnotified rfl
    simp only [memberWeight, queueWeight, Queue.toList, state, stateWeight] at hphase ⊢
    omega
  | resume state unlisted =>
    rw [phaseWeight_became (by rfl)]
    simp only [memberWeight, state, stateWeight]
    omega

theorem Coherent.weight_consumerTurn (h : p.Coherent) (turn : ConsumerTurn p q) :
    q.weight < p.weight := by
  have hspace := h.length_space_le
  have hless : q.members = p.members →
      queueWeight p.members.length q.queue + q.phaseWeight <
        queueWeight p.members.length p.queue + p.phaseWeight → q.weight < p.weight := by
    intro hmembers hless
    rw [weight, weight, hmembers]
    omega
  cases turn with
  | seek phase empty =>
    obtain ⟨-, rfl⟩ := h.sound.pop_none empty
    refine hless rfl ?_
    simp only [queueWeight, phaseWeight, phase, Queue.toList]
    omega
  | take phase found =>
    obtain ⟨-, hlist, -⟩ := h.sound.pop_some found
    refine hless rfl ?_
    simp only [queueWeight, phaseWeight, phase, Queue.toList, hlist, List.length_cons,
      Nat.mul_add, length_members]
    omega
  | stop phase | handle phase =>
    refine hless rfl ?_
    simp only [queueWeight, phaseWeight, phase, Queue.toList, List.length_nil, length_members]
    omega
  | spend phase kept =>
    refine hless rfl ?_
    simp only [queueWeight, phaseWeight, phase, Queue.toList, kept, Signal.spend, Bool.toNat_true,
      Bool.toNat_false]
    omega
  | rest phase none_kept =>
    refine hless rfl ?_
    simp [queueWeight, phaseWeight, phase, Queue.toList, Signal.enroll, consumerId]
  | wake phase unlisted =>
    refine hless rfl ?_
    simp [queueWeight, phaseWeight, phase, unlisted]

/-- Every move but a lapse takes something of the weight. -/
theorem Coherent.weight_lt (h : p.Coherent) (sized : 0 < memory.slotBytes)
    (step : Step memory p q) : q.weight < p.weight := by
  cases step with
  | member found cleared turn => exact h.weight_turn found (h.turn found cleared sized turn) turn
  | consumer turn => exact h.weight_consumerTurn turn

end Weight

/-! ## §2 The schedule -/

/-- The producers before `index` have ended, and none but the one at `index` is about to do more than
begin. -/
structure InTurn (index : Nat) (p : Pipeline) : Prop where
  le_size : index ≤ p.producers.size
  earlier : ∀ id m, id < index → p.members[id]? = some m → m.hasEnded = true
  idle : ∀ id m, id ≠ index → p.members[id]? = some m →
    m.state = .active ∨ ∃ e, m.state = .failed e

section Schedule

variable {feeds : List Feed} {start p q : Pipeline} {log : List (TaskId × Message)}
  {memory : Memory} {index : Nat}

/-- A member that moves at its turn is still the only one that is about to do anything. -/
theorem InTurn.became (h : InTurn index p) (queue : Queue Message) (m : Producer) :
    InTurn index (p.became index queue m) where
  le_size := by rw [size_producers_became]; exact h.le_size
  earlier := by
    intro id other hid hother
    rw [getElem?_members_became h.le_size, if_neg (Nat.ne_of_lt hid)] at hother
    exact h.earlier id other hid hother
  idle := by
    intro id other hid hother
    rw [getElem?_members_became h.le_size, if_neg hid] at hother
    exact h.idle id other hid hother

theorem InTurn.consumerTurn (h : InTurn index p) (turn : ConsumerTurn p q) : InTurn index q := by
  cases turn <;> exact ⟨h.le_size, h.earlier, h.idle⟩

/-- A producer that cannot move at its turn, where the consumer cannot either, has ended. -/
theorem InTurn.hasEnded (h : InTurn index p) (coherent : p.Coherent) (ledger : Ledger feeds p log)
    (data : ∀ feed ∈ feeds, feed.CarriesItems) (rests : p.move? memory .consume = none)
    (producer : index < p.producers.size) {m : Producer} (found : p.members[index]? = some m)
    (waits : p.move? memory (.produce index) = none) : m.hasEnded = true := by
  refine (move?_produce_eq_none found producer waits).resolve_right ?_
  rintro ⟨hstate, hlisted⟩
  rcases moveConsumer_eq_none coherent.untriggered rests with ⟨report, hphase⟩ | ⟨hphase, hresting⟩
  · -- The consumer has ended, so all producers had before.
    have hstop := ledger.closer_sent coherent data (by simp [taken, hphase, inHand])
    have hall := feedsEnded_iff.mp (coherent.feedsEnded_of_sent hstop) index m producer found
    simp [Producer.hasEnded, hstate] at hall
  · -- The consumer rests, so nothing is queued: nobody else could have a message to announce.
    have hempty : p.queue.toList = [] := by
      refine (coherent.awake (.inr (List.ne_nil_of_mem hresting))).resolve_right ?_
      rintro ⟨id, other, hother, hannouncing⟩
      by_cases hid : id = index
      · rw [hid, found, Option.some.injEq] at hother
        rw [← hother, hstate] at hannouncing
        cases hannouncing
      · rcases h.idle id other hid hother with hactive | ⟨e, hfailed⟩
        · rw [hactive] at hannouncing
          cases hannouncing
        · rw [hfailed] at hannouncing
          cases hannouncing
    exact coherent.not_blocked hempty (by simp [hphase]) found hstate hlisted

/-- When a producer has ended it is the turn of the next. -/
theorem InTurn.next (h : InTurn index p) (producer : index < p.producers.size) {m : Producer}
    (found : p.members[index]? = some m) (ended : m.hasEnded = true) : InTurn (index + 1) p where
  le_size := producer
  earlier := by
    intro id other hid hother
    rcases Nat.lt_succ_iff_lt_or_eq.mp hid with hlt | rfl
    · exact h.earlier id other hlt hother
    · rw [found, Option.some.injEq] at hother
      exact hother ▸ ended
  idle := by
    intro id other _ hother
    by_cases hid : id = index
    · rw [hid, found, Option.some.injEq] at hother
      subst hother
      unfold Producer.hasEnded at ended
      cases hstate : m.state with
      | active => exact .inl rfl
      | failed e => exact .inr ⟨e, rfl⟩
      | enrolled | announcing | waiting => simp [hstate] at ended
    · exact h.idle id other hid hother

/-- When all producers have had their turn and neither the closing member nor the consumer can move,
nobody can. -/
theorem InTurn.stuck (h : InTurn p.producers.size p) (rests : p.move? memory .consume = none)
    (closed : p.move? memory .close = none) : Stuck memory p := by
  intro who hwho
  cases who with
  | produce id =>
    cases hmove : p.move? memory (.produce id) with
    | none => rfl
    | some q =>
      obtain ⟨hid, m, queue, next, hm, hturn, -⟩ := move?_produce_eq_some hmove
      have hended := h.earlier id m hid hm
      rw [hturn.hasEnded_eq_false] at hended
      cases hended
  | close => exact closed
  | consume => exact rests
  | timeout => exact absurd rfl hwho

/-- The schedule is followed until nobody can move, if it is followed for as many moves as there can
be, and one more for each producer whose turn is still to come. -/
theorem Reaches.runFrom (coherent : start.Coherent) (ledger : ∃ log, Ledger feeds start log)
    (data : ∀ feed ∈ feeds, feed.CarriesItems) (sized : 0 < memory.slotBytes) (moves : Nat)
    (reached : start.Reaches p) (turn : InTurn index p)
    (enough : p.weight + (p.producers.size - index) < moves) :
    start.Reaches (runFrom memory moves index p) ∧ Stuck memory (runFrom memory moves index p) := by
  induction moves generalizing index p with
  | zero => cases enough
  | succ moves ih =>
    have hcoherent := reached.coherent coherent
    obtain ⟨log, hlog⟩ := reached.ledger coherent ledger
    unfold Pipeline.runFrom
    cases hconsume : p.move? memory .consume with
    | some q =>
      have hturn := consumerTurn_of_moveConsumer hcoherent.untriggered hconsume
      have hless := hcoherent.weight_consumerTurn hturn
      have hsize : q.producers.size = p.producers.size := by cases hturn <;> rfl
      exact ih (.move sized reached hconsume) (turn.consumerTurn hturn) (by omega)
    | none =>
      by_cases hindex : index < p.producers.size
      · simp only [if_pos hindex]
        cases hproduce : p.move? memory (.produce index) with
        | some q =>
          have hless := hcoherent.weight_lt sized
            (step_of_move? hcoherent.untriggered hproduce (by simp))
          obtain ⟨-, m, queue, next, -, -, rfl⟩ := move?_produce_eq_some hproduce
          refine ih (.move sized reached hproduce) (turn.became queue next) ?_
          rw [size_producers_became]
          omega
        | none =>
          obtain ⟨m, hm⟩ := exists_member (Nat.le_of_lt hindex)
          have hended := turn.hasEnded hcoherent hlog data hconsume hindex hm hproduce
          exact ih reached (turn.next hindex hm hended) (by omega)
      · obtain rfl : index = p.producers.size :=
          Nat.le_antisymm turn.le_size (Nat.not_lt.mp hindex)
        simp only [if_neg hindex]
        cases hclose : p.move? memory .close with
        | some q =>
          have hless := hcoherent.weight_lt sized
            (step_of_move? hcoherent.untriggered hclose (by simp))
          obtain ⟨-, queue, next, -, rfl⟩ := move?_close_eq_some hclose
          refine ih (.move sized reached hclose) (turn.became queue next) ?_
          rw [size_producers_became]
          omega
        | none => exact ⟨reached, turn.stuck hconsume hclose⟩

variable {s : QueueSettings} {queue : Queue Message}

theorem totalSize_ofFeeds (pollInterval : Nat) (feeds : List Feed) :
    (ofFeeds queue pollInterval feeds).totalSize = (feeds.map Feed.size).sum + 1 := by
  have hfold : ∀ (l : List Feed) (n : Nat),
      l.foldl (fun n feed => n + feed.size) n = (l.map Feed.size).sum + n := by
    intro l
    induction l with
    | nil => simp
    | cons feed l ih =>
      intro n
      rw [List.foldl_cons, ih, List.map_cons, List.sum_cons]
      omega
  simp only [totalSize, ofFeeds, List.size_toArray, List.length_map, List.foldl_toArray',
    List.foldl_map]
  exact hfold feeds 1

/-- At its start a pipeline weighs what its schedule is given. -/
theorem weight_ofFeeds (sized : 0 < memory.slotBytes)
    (made : Queue.ofSettings memory s = .ok queue) (pollInterval : Nat) (feeds : List Feed) :
    (ofFeeds queue pollInterval feeds).weight = (ofFeeds queue pollInterval feeds).moveBound := by
  obtain ⟨-, hempty, -, -, hqueue⟩ := ring_of_ofSettings sized made
  have hspace : queue.space = [] := by rw [hqueue]; rfl
  have hpermit : queue.ready.permit = false := by rw [hqueue]; rfl
  have hsum : ∀ (n : Nat) (l : List Feed), ((l.map Producer.ofFeed).map (memberWeight n)).sum =
      (3 * n + 8) * (l.map Feed.size).sum + 2 * l.length := by
    intro n l
    induction l with
    | nil => simp
    | cons feed l ih =>
      simp only [List.map_cons, List.sum_cons, ih, memberWeight, Producer.ofFeed, stateWeight,
        Nat.sub_zero, Nat.mul_add, List.length_cons]
      omega
  rw [weight, moveBound, totalSize_ofFeeds, members_ofFeeds, hsum]
  simp only [queueWeight, Queue.toList, phaseWeight, ofFeeds, hempty, hspace, hpermit, closing,
    List.length_map, List.length_append, List.length_singleton, List.size_toArray, List.map_append,
    List.map_singleton, List.sum_append, List.sum_singleton, List.length_nil, Bool.toNat_false]
  rw [show 3 * (feeds.length + 1) + 8 = 3 * feeds.length + 11 by omega]
  omega

/-- **The schedule ends**: a pipeline that follows it makes moves until nobody can make one. -/
theorem Reaches.run (sized : 0 < memory.slotBytes) (made : Queue.ofSettings memory s = .ok queue)
    (pollInterval : Nat) (data : ∀ feed ∈ feeds, feed.CarriesItems) :
    (ofFeeds queue pollInterval feeds).Reaches ((ofFeeds queue pollInterval feeds).run memory) ∧
      Stuck memory ((ofFeeds queue pollInterval feeds).run memory) := by
  have hturn : InTurn 0 (ofFeeds queue pollInterval feeds) := by
    refine ⟨Nat.zero_le _, fun _ _ hid => absurd hid (Nat.not_lt_zero _), fun id m _ hm => ?_⟩
    rw [members_ofFeeds, List.getElem?_map, Option.map_eq_some_iff] at hm
    obtain ⟨feed, -, rfl⟩ := hm
    exact .inl rfl
  refine Reaches.runFrom (.ofFeeds sized made pollInterval feeds)
    ⟨[], .ofFeeds sized made pollInterval feeds⟩ data sized _ .refl hturn ?_
  rw [weight_ofFeeds sized made]
  omega

/-- So what the schedule ends with has been delivered, unless memory was refused. -/
theorem run_delivers (sized : 0 < memory.slotBytes) (made : Queue.ofSettings memory s = .ok queue)
    (pollInterval : Nat) (data : ∀ feed ∈ feeds, feed.CarriesItems)
    (unrefused : ((ofFeeds queue pollInterval feeds).run memory).Unrefused) :
    Delivered feeds ((ofFeeds queue pollInterval feeds).run memory) := by
  obtain ⟨hreached, hstuck⟩ := Reaches.run sized made pollInterval data
  obtain ⟨hended, hdelivered⟩ := hreached.delivers sized made data unrefused
  exact hdelivered (hended memory hstuck)

end Schedule

end Handoff.Pipeline
