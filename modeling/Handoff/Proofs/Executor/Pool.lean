/-
Handoff.Proofs.Executor.Pool — a pool of consumers ends when as many stop messages have come.

Nobody tells the consumers of a pool how many they are: each ends with the first stop message that
it takes. That all of them end is a matter of counting. If there are as many stop messages as
consumers and one consumer is left at rest, the queue is empty, for the wake-ups for its messages
would have reached that consumer; so the others have taken all the stop messages, and one of them
took two, which no consumer does. Once all have ended, the last accepted message, a stop, was taken,
and with it everything that came before.

What a pool has taken is counted by whom: `countP_extract` splits a count over the journal into
counts over the events of its members.

  §1 the members          — `staff`, `Staffed`
  §2 counts by member     — `countP_extract`, `Staffed.countP_removed`
  §3 messages and items   — `Staffed.items_eq`, `Conserves.toList_eq_nil`
  §4 the pool at rest     — `Muster`, `pool_finished`
-/
import Mathlib.Algebra.BigOperators.Group.Finset.Piecewise
import Mathlib.Algebra.Order.BigOperators.Group.Finset
import Handoff.Proofs.Executor.Accounts
import Handoff.Proofs.Executor.Departures

namespace Handoff.Executor

variable {x : Executor} {id : TaskId}

/-! ## §1 The members -/

/-- The consumers, at work or not. -/
def staff (x : Executor) : Finset TaskId := (Finset.range x.tasks.length).filter (x.isConsumer ·)

theorem mem_staff : id ∈ x.staff ↔ x.isConsumer id = true := by
  rw [staff, Finset.mem_filter, Finset.mem_range, and_iff_right_iff_imp]
  intro h
  obtain ⟨task, -, htask, -⟩ := exists_of_isConsumer h
  exact (List.getElem?_eq_some_iff.mp htask).1

/-- Nobody but consumers has taken messages. -/
def Staffed (x : Executor) : Prop :=
  ∀ actor message, .removed actor message ∈ x.journal → ∃ id ∈ x.staff, actor = .task id

/-! ## §2 Counts by member -/

/-- What is said by events of some tasks is counted task by task. -/
theorem countP_extract {β : Type} (f : Event → Option β) (p : β → Bool) {ids : Finset TaskId}
    {events : List Event}
    (authors : ∀ e ∈ events, (f e).isSome → ∃ id ∈ ids, e.actor = .task id) :
    (extract f events).countP p =
      ∑ id ∈ ids, (extract f (events.filter fun e => e.actor = .task id)).countP p := by
  induction events with
  | nil => exact (Finset.sum_const_zero).symm
  | cons e rest ih =>
    have hcons : ∀ older, (extract f (e :: older)).countP p =
        (extract f older).countP p + (f e).toList.countP p := by
      intro older
      rw [show e :: older = [e] ++ older from rfl, extract_append, extract_singleton,
        List.countP_append]
    have hterm : ∀ id, (extract f ((e :: rest).filter fun e => e.actor = .task id)).countP p =
        (extract f (rest.filter fun e => e.actor = .task id)).countP p +
          if e.actor = .task id then (f e).toList.countP p else 0 := by
      intro id
      by_cases h : e.actor = .task id
      · rw [List.filter_cons_of_pos (by simpa using h), hcons, if_pos h]
      · rw [List.filter_cons_of_neg (by simpa using h), if_neg h, Nat.add_zero]
    rw [hcons, ih fun e' he' => authors e' (List.mem_cons_of_mem e he'), Finset.sum_congr rfl
      fun id _ => hterm id, Finset.sum_add_distrib, Nat.add_left_cancel_iff]
    -- The event is counted once, for its author, unless it says nothing.
    cases hf : f e with
    | none => simp
    | some b =>
      obtain ⟨author, hmem, hauthor⟩ := authors e List.mem_cons_self (by rw [hf]; rfl)
      simp [hauthor, hmem]

/-- Whether the event is no removal, or one by a consumer. -/
def isStaffed (x : Executor) : Event → Bool
  | .removed (.task id) _ => x.isConsumer id
  | .removed .caller _ => false
  | _ => true

theorem staffed_of_all (h : x.journal.all x.isStaffed = true) : x.Staffed := by
  intro actor message hmem
  have hevent := List.all_eq_true.mp h _ hmem
  cases actor with
  | caller => cases hevent
  | task id => exact ⟨id, mem_staff.mpr hevent, rfl⟩

theorem Staffed.countP_removed (h : x.Staffed) (p : Message → Bool) :
    x.removed.countP p = ∑ id ∈ x.staff, (x.takenBy id).countP p := by
  refine countP_extract Event.removed? p fun e he hremoved => ?_
  cases e with
  | removed actor message => exact h actor message he
  | accepted => cases hremoved
  | handled => cases hremoved
  | finished => cases hremoved
  | cancelled => cases hremoved

/-! ## §3 Messages and items -/

/-- The items that consumers took are those that were taken, if nobody else takes any. -/
theorem Staffed.items_eq (h : x.Staffed) :
    x.consumed.map (·.2) = x.removed.filterMap Message.item? := by
  have hall : x.consumed = extract Event.taken? x.journal := by
    refine List.filter_eq_self.mpr fun taken htaken => ?_
    obtain ⟨e, he, heq⟩ := mem_extract.mp htaken
    unfold Event.taken? at heq
    split at heq
    · next member item =>
      obtain ⟨id, hid, hactor⟩ := h _ _ he
      cases heq
      cases hactor
      exact mem_staff.mp hid
    · cases heq
  rw [hall]
  unfold removed extract
  rw [List.map_reverse, List.filterMap_reverse, List.map_filterMap, List.filterMap_filterMap]
  refine congrArg List.reverse (List.filterMap_congr fun e he => ?_)
  cases e with
  | removed actor message =>
    obtain ⟨id, -, rfl⟩ := h actor message he
    cases message <;> rfl
  | accepted => rfl
  | handled => rfl
  | finished => rfl
  | cancelled => rfl

/-- A consumer has taken a stop message if it ended for one, and then only one. -/
theorem Accounted.countP_isStop {consumer : Consumer} {fate : Fate}
    (h : x.Accounted id consumer fate) :
    (x.takenBy id).countP Message.isStop = if fate = .ended .stopMessage then 1 else 0 := by
  rw [h.taken_eq, List.countP_append, List.countP_map]
  cases fate with
  | working => simp [Fate.stops, Function.comp_def, Message.isStop]
  | cancelled => simp [Fate.stops, Function.comp_def, Message.isStop]
  | ended reason =>
    cases reason <;> simp [Fate.stops, Function.comp_def, Message.isStop]

/-- What was taken is all that was accepted, if the last accepted message was taken. -/
theorem Conserves.toList_eq_nil (hx : x.Conserves) (last : Message)
    (newest : x.accepted.getLast? = some last) (taken : last ∉ x.queue.toList) :
    x.queue.toList = [] := by
  by_contra hne
  rw [← hx.removed_append_toList, List.getLast?_append_of_ne_nil _ hne] at newest
  exact taken (List.mem_of_getLast? newest)

/-! ## §4 The pool at rest -/

/-- While a consumer is at work the queue is empty at rest, if nobody was shut down and no bare
waiter is there. -/
theorem Reachable.toList_eq_nil_of_working (h : x.Reachable) (unshut : x.Unshut)
    (bare : ∀ task ∈ x.tasks, task.job ≠ .awaitReady) (rest : x.atRest = true)
    (working : ∃ task ∈ x.tasks, task.live = true ∧ ∃ consumer, task.job = .consume consumer) :
    x.queue.toList = [] := by
  obtain ⟨hfree, -⟩ : x.running = none ∧ x.woken = [] := by simpa [atRest] using rest
  obtain ⟨task, hmem, live, hjob⟩ := working
  have hcovered := (h.attended_of_unshut (not_mem_jobs_of_bare bare) unshut).of_free hfree
  have hcount := hcovered (h.orderly.waiters_of_rest rest ⟨task, hmem, live, .inr hjob⟩)
  have htold := h.orderly.told_of_rest rest
  have hlength : x.queue.count = x.queue.toList.length := h.holds.count_eq
  exact List.length_eq_zero_iff.mp (by omega)

/-- How the members of a pool stand, and what they have counted. -/
structure Muster (x : Executor) (consumers : TaskId → Consumer) (fates : TaskId → Fate) :
    Prop where
  accounted : ∀ id ∈ x.staff, x.Accounted id (consumers id) (fates id)
  live : ∀ id ∈ x.staff, ∃ task ∈ x.tasks[id]?, task.live = (fates id).live ∧
    task.job = .consume (consumers id)

theorem Reachable.muster (h : x.Reachable) : ∃ consumers fates, x.Muster consumers fates := by
  have hmember : ∀ id ∈ x.staff, ∃ consumer fate, x.Accounted id consumer fate ∧
      ∃ task ∈ x.tasks[id]?, task.live = fate.live ∧ task.job = .consume consumer := by
    intro id hid
    obtain ⟨task, consumer, htask, job⟩ := exists_of_isConsumer (mem_staff.mp hid)
    obtain ⟨fate, hlive, haccounted⟩ := h.registered.accounted (workers_of_job htask job)
    exact ⟨consumer, fate, haccounted, task, htask, hlive.symm, job⟩
  have : Nonempty Consumer := ⟨.fresh (.own 0) 0 fun _ _ => ⟨[], none⟩⟩
  have : Nonempty Fate := ⟨.working⟩
  choose! consumers fates haccounted hlive using hmember
  exact ⟨consumers, fates, haccounted, hlive⟩

/-- A member that was neither cancelled nor shut down is at work or has ended for a stop message. -/
theorem Muster.working_or_stopped {consumers : TaskId → Consumer} {fates : TaskId → Fate}
    (hx : x.Muster consumers fates) (unshut : x.Unshut) (hid : id ∈ x.staff)
    (kept : .cancelled id ∉ x.journal) : fates id = .working ∨ fates id = .ended .stopMessage := by
  have haccounted := hx.accounted id hid
  obtain ⟨task, htask, -, job⟩ := hx.live id hid
  cases hfate : fates id with
  | working => exact .inl rfl
  | cancelled => exact absurd (haccounted.cancelled_iff.mpr hfate) kept
  | ended reason =>
    cases reason with
    | stopMessage => exact .inr rfl
    | shutdown =>
      have htriggered := haccounted.triggered hfate
      rw [unshut task (List.mem_of_getElem? htask) (consumers id) job] at htriggered
      cases htriggered

/-- The stop messages that a pool has taken are as many as members that ended for one. -/
theorem Muster.countP_isStop {consumers : TaskId → Consumer} {fates : TaskId → Fate}
    (hx : x.Muster consumers fates) (staffed : x.Staffed) :
    x.removed.countP Message.isStop =
      (x.staff.filter fun id => fates id = .ended .stopMessage).card := by
  rw [staffed.countP_removed, Finset.card_filter]
  exact Finset.sum_congr rfl fun id hid => (hx.accounted id hid).countP_isStop

/-- The handlers of a pool were called for as many items as it has taken. -/
theorem Muster.sum_calls {consumers : TaskId → Consumer} {fates : TaskId → Fate}
    (hx : x.Muster consumers fates) (staffed : x.Staffed) :
    ∑ id ∈ x.staff, (consumers id).calls = (x.removed.filterMap Message.item?).length := by
  rw [List.length_filterMap_eq_countP, staffed.countP_removed]
  refine Finset.sum_congr rfl fun id hid => ?_
  rw [(hx.accounted id hid).calls_eq, List.length_filterMap_eq_countP]

/-- What the members have counted adds up to the items that the pool has taken: always in a word, and
as numbers too if a word can count them. -/
theorem Muster.sum_counted {consumers : TaskId → Consumer} {fates : TaskId → Fate}
    (hx : x.Muster consumers fates) (staffed : x.Staffed) {n : Nat}
    (taken : (x.removed.filterMap Message.item?).length = n) :
    (∑ id ∈ x.staff, ((consumers id).processed.toNat + (consumers id).failed.toNat)) % wordLimit =
        n % wordLimit ∧
      (n < wordLimit →
        ∑ id ∈ x.staff, ((consumers id).processed.toNat + (consumers id).failed.toNat) = n) := by
  have hcalls := (hx.sum_calls staffed).trans taken
  constructor
  · rw [← hcalls, Finset.sum_nat_mod, Finset.sum_nat_mod x.staff _ fun id => (consumers id).calls]
    refine congrArg (· % wordLimit) (Finset.sum_congr rfl fun id hid => ?_)
    have hadd := congrArg UInt64.toNat (hx.accounted id hid).add_eq
    rwa [UInt64.toNat_add, UInt64.toNat_ofNat'] at hadd
  · intro fits
    rw [← hcalls]
    refine Finset.sum_congr rfl fun id hid => ?_
    have hle : (consumers id).calls ≤ ∑ id ∈ x.staff, (consumers id).calls :=
      Finset.single_le_sum (f := fun id => (consumers id).calls) (fun _ _ => Nat.zero_le _) hid
    rw [hcalls] at hle
    exact ((hx.accounted id hid).exact (Nat.lt_of_le_of_lt hle fits)).2.2

/-- If a pool was sent as many stop messages as it has members, all have ended for one at rest. -/
theorem Muster.stopped {consumers : TaskId → Consumer} {fates : TaskId → Fate}
    (hx : x.Muster consumers fates) (h : x.Reachable) (staffed : x.Staffed)
    (kept : ∀ id ∈ x.staff, .cancelled id ∉ x.journal) (unshut : x.Unshut)
    (bare : ∀ task ∈ x.tasks, task.job ≠ .awaitReady)
    (sent : x.accepted.countP Message.isStop = x.staff.card) (rest : x.atRest = true) :
    ∀ id ∈ x.staff, fates id = .ended .stopMessage := by
  have hstops := hx.countP_isStop staffed
  intro id hid
  rcases hx.working_or_stopped unshut hid (kept id hid) with hworking | hstopped
  · -- The queue is empty, so all stop messages were taken, by as many members as there are.
    obtain ⟨task, htask, hlive, job⟩ := hx.live id hid
    have hempty := h.toList_eq_nil_of_working unshut bare rest
      ⟨task, List.mem_of_getElem? htask, by rw [hlive, hworking]; rfl, _, job⟩
    rw [h.conserves.removed_eq hempty, sent] at hstops
    have hall := Finset.filter_eq_self.mp
      (Finset.eq_of_subset_of_card_le (Finset.filter_subset _ _) hstops.le)
    exact hall id hid
  · exact hstopped

/-- **A pool of consumers ends when it is told to**: if nobody but its members takes messages, none
of them was cancelled or shut down, no bare waiter is there, and as many stop messages as there are
members were accepted after the items, then at rest every member has ended with a stop message, the
queue is empty, the items were handled once each and in their order, and the reports of the members
add up to their number, in a word if a word cannot count them. It does not matter who sent the
messages, or what the handlers do besides. -/
theorem pool_finished (h : x.Reachable) {items : List WorkItem} {k : Nat} (pos : 0 < k)
    (pool : x.staff.card = k) (staffed : x.Staffed)
    (kept : ∀ id ∈ x.staff, .cancelled id ∉ x.journal) (unshut : x.Unshut)
    (bare : ∀ task ∈ x.tasks, task.job ≠ .awaitReady)
    (accepted : x.accepted = items.map .data ++ List.replicate k .stop)
    (rest : x.atRest = true) :
    (∃ reports : TaskId → Report,
      (∀ id ∈ x.staff, (∃ task ∈ x.tasks[id]?, task.live = false) ∧
        x.outcomesOf id = [.reported (reports id)] ∧ (reports id).stoppedBy = .stopMessage) ∧
      (∑ id ∈ x.staff, ((reports id).processed.toNat + (reports id).failed.toNat)) % wordLimit =
        items.length % wordLimit ∧
      (items.length < wordLimit →
        ∑ id ∈ x.staff, ((reports id).processed.toNat + (reports id).failed.toNat) =
          items.length)) ∧
    x.queue.toList = [] ∧ x.calls.map (·.2) = items := by
  obtain ⟨consumers, fates, hmuster⟩ := h.muster
  have hitems : x.accepted.filterMap Message.item? = items := by
    have hdata : (items.map Message.data).filterMap Message.item? = items := by
      rw [List.filterMap_map]
      exact List.filterMap_some
    have hnone : (List.replicate k Message.stop).filterMap Message.item? = [] :=
      List.filterMap_replicate_of_none rfl
    rw [accepted, List.filterMap_append, hdata, hnone, List.append_nil]
  have hsent : x.accepted.countP Message.isStop = x.staff.card := by
    rw [accepted, List.countP_append, List.countP_map, pool]
    simp [Function.comp_def, Message.isStop, List.countP_replicate]
  have hstopped := hmuster.stopped h staffed kept unshut bare hsent rest
  have hempty : x.queue.toList = [] := by
    refine h.conserves.toList_eq_nil .stop ?_ ?_
    · rw [accepted, List.getLast?_append, List.getLast?_replicate, if_neg (by omega)]
      rfl
    · -- All stop messages were taken, one by each member.
      have hcount := hmuster.countP_isStop staffed
      rw [Finset.filter_true_of_mem hstopped] at hcount
      rw [← h.conserves.removed_append_toList, List.countP_append, hcount] at hsent
      intro hmem
      have hpos : 0 < x.queue.toList.countP Message.isStop :=
        List.countP_pos_iff.mpr ⟨_, hmem, rfl⟩
      omega
  have hremoved := h.conserves.removed_eq hempty
  refine ⟨⟨fun id => (consumers id).report .stopMessage, fun id hid => ⟨?_, ?_, rfl⟩, ?_⟩, hempty,
    ?_⟩
  · obtain ⟨task, htask, hlive, -⟩ := hmuster.live id hid
    exact ⟨task, htask, by rw [hlive, hstopped id hid]; rfl⟩
  · rw [(hmuster.accounted id hid).outcomes_eq, hstopped id hid]
    rfl
  · exact hmuster.sum_counted staffed (by rw [hremoved, hitems])
  · rw [h.calls_eq, staffed.items_eq, hremoved, hitems]

/-- Two stop messages wait for room behind two items until two consumers come, of which one refuses
the second item. -/
theorem pool_finished_crowded :
    let c : Conditions := ⟨.ofSlotBytes 16, true⟩
    let start := ofQueue ⟨"work", ⟨#[none, none], 0, 0, some 3⟩, .quiet, [], 0, 0, 0⟩
    let crowded := (start.step c 20 [.spawn "p" (.submit (.tagged 1)),
      .spawn "q" (.submit (.tagged 2)), .spawn "r" .stop, .spawn "s" .stop]).2
    let consume (label : String) :=
      Command.spawn label (.consume none 100 (Script.handler ⟨[], [], [], [2]⟩) false)
    let left := (crowded.step c 20 [consume "v", consume "w"]).2
    crowded.pending = ["r", "s"] ∧ left.staff = {4, 5} ∧ left.Staffed ∧ left.Unshut ∧
      left.accepted = [.tagged 1, .tagged 2].map .data ++ List.replicate 2 .stop ∧
      left.atRest = true ∧
      (∃ reports : TaskId → Report,
        (∀ id ∈ left.staff, (∃ task ∈ left.tasks[id]?, task.live = false) ∧
          left.outcomesOf id = [.reported (reports id)] ∧
          (reports id).stoppedBy = .stopMessage) ∧
        ∑ id ∈ left.staff, ((reports id).processed.toNat + (reports id).failed.toNat) = 2) ∧
      left.queue.toList = [] ∧ left.calls.map (·.2) = [.tagged 1, .tagged 2] := by
  intro c start crowded consume left
  have hmade : Queue.ofSettings c.memory ⟨"work", 2, some 3, 100⟩ = .ok start.queue := rfl
  have hcrowded : crowded.Reachable :=
    Reachable.step c 20 _ ⟨start.queue, .ofSettings hmade, .refl⟩ rfl
  have hleft : left.Reachable := hcrowded.step c 20 _ (by decide +kernel)
  have hstaffed : left.Staffed := staffed_of_all (by decide +kernel)
  have hunshut : left.Unshut := unshut_of_nil (by decide +kernel)
  have haccepted : left.accepted = [.tagged 1, .tagged 2].map .data ++ List.replicate 2 .stop := by
    decide +kernel
  have hrest : left.atRest = true := by decide +kernel
  obtain ⟨⟨reports, hended, -, hsum⟩, hempty, hcalls⟩ :=
    pool_finished hleft (by decide) (by decide +kernel) hstaffed (by decide +kernel) hunshut
      (bare_of_any (by decide +kernel)) haccepted hrest
  exact ⟨by decide +kernel, by decide +kernel, hstaffed, hunshut, haccepted, hrest,
    ⟨reports, hended, hsum (by decide)⟩, hempty, hcalls⟩

end Handoff.Executor
