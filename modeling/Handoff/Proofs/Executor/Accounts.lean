/-
Handoff.Proofs.Executor.Accounts — consumers report what they did.

Two accounts are kept of every item that a consumer handles: the queue's, of who took it, and the
handler's, of who was called with it. They are the same list (`Reachable.calls_eq`), since nothing
happens between the two. What a consumer reports at its end is the sum of its part of that list, and
how it ended is how its part of the queue's account ends: with a stop message, or not.

A consumer that nobody helps to empty the queue has thus handled what was accepted before the first
stop message, in this order, and the rest is still queued (`Alone.accepted_eq`).

  §1 the two accounts    — `calls`, `consumed`, `Reachable.calls_eq`
  §2 a single consumer   — `Alone.accepted_eq`
  §3 all consumers       — `Accounted`, `consumers_accounted`
-/
import Handoff.Proofs.Executor.Conservation
import Handoff.Proofs.Executor.Lives

namespace Handoff

/-! ## §1 The two accounts -/

/-- The item that a task took, with the task. -/
def Event.taken? : Event → Option (TaskId × WorkItem)
  | .removed (.task id) (.data item) => some (id, item)
  | _ => none

theorem Event.actor_of_taken? {e : Event} {taken : TaskId × WorkItem}
    (h : e.taken? = some taken) : e.actor = .task taken.1 := by
  unfold taken? at h
  split at h
  · cases h
    rfl
  · cases h

namespace Deed

variable (d : Deed) (id : TaskId) (consumer : Consumer)

theorem extract_call : extract Event.call? (d.events id consumer) =
    (d.answers consumer).map fun answer => (id, answer.1) := by
  cases d with
  | handle item results pushed => exact extract_handle id consumer _ (fun _ => rfl) item results _
  | takeStop => rfl
  | shutDown => rfl
  | cancelled => rfl

theorem extract_taken : extract Event.taken? (d.events id consumer) =
    (d.answers consumer).map fun answer => (id, answer.1) := by
  cases d with
  | handle item results pushed => exact extract_handle id consumer _ (fun _ => rfl) item results _
  | takeStop => rfl
  | shutDown => rfl
  | cancelled => rfl

end Deed

namespace Executor

/-- Whether the task is a consumer, at work or not. -/
def isConsumer (x : Executor) (id : TaskId) : Bool := x.workers[id]?.join.isSome

/-- The calls of handlers, in their order. -/
def calls (x : Executor) : List (TaskId × WorkItem) := extract Event.call? x.journal

/-- The items that consumers took, with who took them, in the order in which they were taken. -/
def consumed (x : Executor) : List (TaskId × WorkItem) :=
  (extract Event.taken? x.journal).filter fun taken => x.isConsumer taken.1

variable {x y : Executor} {id : TaskId}

theorem exists_of_isConsumer (h : x.isConsumer id = true) :
    ∃ task consumer, x.tasks[id]? = some task ∧ task.job = .consume consumer := by
  rw [isConsumer, Option.isSome_iff_exists] at h
  obtain ⟨worker, hworker⟩ := h
  obtain ⟨task, htask, heq⟩ := workers_eq_some (Option.join_eq_some_iff.mp hworker)
  exact ⟨task, worker.1, htask, (Task.worker?_eq_some heq).1⟩

theorem Entry.isConsumer (h : x.Entry y) (hid : id < x.workers.length) :
    y.isConsumer id = x.isConsumer id := by
  unfold Executor.isConsumer
  cases h with
  | aside events journal others workers triggered => rw [workers]
  | trigger handle free eq => rw [eq, workers_trigger]
  | joined worker? fresh journal workers triggered =>
    rw [workers, List.getElem?_append_left hid]
  | deed who consumer d worker fits journal workers triggered =>
    rw [workers]
    by_cases heq : who = id
    · subst heq
      rw [List.getElem?_set_self hid, worker]
      rfl
    · rw [List.getElem?_set_ne heq]

/-- The queue's account is only added to. -/
theorem Entry.consumed_append (h : x.Entry y) (hx : x.Registered) {events : List Event}
    (journal : y.journal = events ++ x.journal) :
    y.consumed =
      x.consumed ++ (extract Event.taken? events).filter fun taken => y.isConsumer taken.1 := by
  rw [consumed, journal, extract_append, List.filter_append, consumed]
  refine congrArg (· ++ _) (List.filter_congr fun taken htaken => ?_)
  obtain ⟨e, he, heq⟩ := mem_extract.mp htaken
  exact h.isConsumer (hx.known e he _ (Event.actor_of_taken? heq))

/-- A move adds the same to both accounts. -/
theorem Entry.calls_eq (h : x.Entry y) (hx : x.Registered) (eq : x.calls = x.consumed) :
    y.calls = y.consumed := by
  have happend : ∀ {events : List Event}, y.journal = events ++ x.journal →
      extract Event.call? events =
        (extract Event.taken? events).filter (fun taken => y.isConsumer taken.1) →
      y.calls = y.consumed := by
    intro events journal hevents
    rw [h.consumed_append hx journal, ← hevents, ← eq, calls, journal, extract_append]
    rfl
  cases hy : h with
  | aside events journal others workers triggered =>
    refine happend journal ?_
    have hcalls : extract Event.call? events = [] := extract_eq_nil fun e he => (others e he).1
    rw [hcalls, eq_comm, List.filter_eq_nil_iff]
    intro taken htaken
    obtain ⟨e, he, heq⟩ := mem_extract.mp htaken
    rw [Executor.isConsumer, workers, (others e he).2 _ (Event.actor_of_taken? heq)]
    simp
  | trigger handle free eq' =>
    refine @happend [] ?_ rfl
    rw [eq', journal_trigger]
    rfl
  | joined worker? fresh journal workers triggered => exact @happend [] journal rfl
  | deed who consumer d worker fits journal workers triggered =>
    have hwho : y.isConsumer who = true := by
      rw [h.isConsumer (lt_length_of_getElem? worker), Executor.isConsumer, worker]
      rfl
    refine happend journal ?_
    rw [d.extract_call, d.extract_taken, eq_comm, List.filter_eq_self]
    intro taken htaken
    obtain ⟨answer, -, rfl⟩ := List.mem_map.mp htaken
    exact hwho

/-- The calls of handlers are the items that consumers took, in this order. -/
theorem Reachable.calls_eq (h : x.Reachable) : x.calls = x.consumed := by
  have hboth : x.Registered ∧ x.calls = x.consumed := by
    refine h.induction (P := fun x => x.Registered ∧ x.calls = x.consumed) ?_ ?_
    · exact fun q hq => ⟨Queue.Fresh.registered hq, rfl⟩
    · rintro y z - ⟨hy, heq⟩ hmove
      exact ⟨hy.move hmove, (hmove.entry hy.orderly).calls_eq hy heq⟩
  exact hboth.2

/-- A consumer that has just handled an item goes on, whatever its handler said. -/
theorem Reachable.live_of_handled (h : x.Reachable) {item : WorkItem}
    {results : List (Option Error)} {complaint : Option Error} {earlier : List Event}
    (newest : x.journal = .handled id item results complaint :: earlier) :
    ∃ task, x.tasks[id]? = some task ∧ task.live = true := by
  have hcall : (id, item) ∈ x.calls := by
    rw [calls, newest, mem_extract]
    exact ⟨_, List.mem_cons_self, rfl⟩
  rw [h.calls_eq, consumed, List.mem_filter] at hcall
  obtain ⟨task, consumer, htask, job⟩ := exists_of_isConsumer hcall.2
  obtain ⟨fate, hlife, hlive, -⟩ := h.registered.lives id consumer _ (workers_of_job htask job)
  have hown : x.own id = .handled id item results complaint ::
      earlier.filter fun e => e.actor = .task id := by
    rw [own, newest, List.filter_cons_of_pos (by simp [Event.actor])]
  rw [hown] at hlife
  refine ⟨task, htask, ?_⟩
  rw [← hlive, hlife.working_of_handled]
  rfl

/-! ## §2 A single consumer -/

/-- Nobody but one task has taken messages. -/
def Alone (x : Executor) (id : TaskId) : Prop :=
  ∀ actor message, .removed actor message ∈ x.journal → actor = .task id

/-- When one task takes all messages, those that it took are all that were taken. -/
theorem Alone.removed_eq (h : x.Alone id) : x.removed = x.takenBy id := by
  show extract Event.removed? x.journal = extract Event.removed? (x.own id)
  rw [own, extract, extract, List.filterMap_filter]
  refine congrArg List.reverse (List.filterMap_congr fun e he => ?_)
  cases e with
  | removed actor message => simp [Event.actor, h actor message he]
  | accepted => simp [Event.removed?]
  | handled => simp [Event.removed?]
  | finished => simp [Event.removed?]
  | cancelled => simp [Event.removed?]

theorem Reachable.conserves (h : x.Reachable) : x.Conserves := by
  refine h.flow_induction ?_ (fun _ _ hy hflow => hy.flow hflow)
  exact fun q hq => ⟨[], holds_ofQueue hq, rfl⟩

theorem Conserves.removed_append_toList (hx : x.Conserves) :
    x.removed ++ x.queue.toList = x.accepted := by
  obtain ⟨queued, hholds, heq⟩ := hx
  rw [Queue.toList, hholds.toList_eq, heq]

theorem Conserves.removed_eq (hx : x.Conserves) (empty : x.queue.toList = []) :
    x.removed = x.accepted := by
  rw [← hx.removed_append_toList, empty, List.append_nil]

/-- What nobody but one task has taken is a first part of what was accepted, and the rest is
queued. -/
theorem Alone.accepted_eq (h : x.Alone id) (hx : x.Reachable) :
    x.accepted = x.takenBy id ++ x.queue.toList := by
  rw [← hx.conserves.removed_append_toList, h.removed_eq]

/-! ## §3 All consumers -/

/-- What is to be said of a consumer that has counted its items and stands so. -/
structure Accounted (x : Executor) (id : TaskId) (consumer : Consumer) (fate : Fate) : Prop where
  /-- It has processed the items that its handler accepted, counted in a word. -/
  processed_eq : consumer.processed = UInt64.ofNat ((x.answers id).countP (·.2.isNone))
  /-- It has failed on the items that its handler refused, counted in a word. -/
  failed_eq : consumer.failed = UInt64.ofNat ((x.answers id).countP (·.2.isSome))
  /-- Its handler was called for each item that it took. -/
  calls_eq : consumer.calls = ((x.takenBy id).filterMap Message.item?).length
  add_eq : consumer.processed + consumer.failed = UInt64.ofNat consumer.calls
  /-- Below the limit of a word the counters are exact. -/
  exact : consumer.calls < wordLimit →
    consumer.processed.toNat = (x.answers id).countP (·.2.isNone) ∧
      consumer.failed.toNat = (x.answers id).countP (·.2.isSome) ∧
      consumer.processed.toNat + consumer.failed.toNat = consumer.calls
  /-- The n-th answer is what the handler says at its n-th call. -/
  answered : ∀ n item complaint, (x.answers id)[n]? = some (item, complaint) →
    complaint = (consumer.handler n item).complaint
  /-- It took the items that its handler was given and, if it ended because of a stop message, that
  message at last. -/
  taken_eq : x.takenBy id = (x.answers id).map (.data ·.1) ++ fate.stops
  /-- It reports once, at its end. -/
  outcomes_eq : x.outcomesOf id = fate.outcomes consumer
  cancelled_iff : .cancelled id ∈ x.journal ↔ fate = .cancelled
  triggered : fate = .ended .shutdown → x.isTriggered consumer.handle = true

theorem Registered.accounted (hx : x.Registered) {consumer : Consumer} {live : Bool}
    (worker : x.workers[id]? = some (some (consumer, live))) :
    ∃ fate : Fate, fate.live = live ∧ x.Accounted id consumer fate := by
  obtain ⟨fate, hlife, hlive, htriggered⟩ := hx.lives id consumer live worker
  have hcounted := hlife.counted
  refine ⟨fate, hlive, hcounted.processed_eq, hcounted.failed_eq, ?_, hcounted.add_eq,
    hcounted.exact, fun n item complaint hn => hlife.answered hn, hlife.taken_eq,
    hlife.outcomes_eq, ?_, htriggered⟩
  · have hitems : (x.takenBy id).filterMap Message.item? = (x.answers id).map (·.1) := by
      rw [takenBy, hlife.taken_eq, List.filterMap_append, fate.item?_stops, List.append_nil,
        List.filterMap_map]
      exact congrFun (List.filterMap_eq_map (f := Prod.fst)) _
    rw [hitems, List.length_map]
    exact hcounted.calls_eq
  · rw [← hlife.cancelled_iff, mem_own]
    simp [Event.actor]

/-- **Consumers report what they did**: the calls of handlers are the items that consumers took, in
this order; an answer of a handler never ends a consumer; every consumer has counted the answers of
its handler, took nothing but the items of these calls, and after them one stop message if it ended
for it; and if nobody else took messages, they are those that were accepted before the first stop
message, and the later ones are queued. -/
theorem consumers_accounted (h : x.Reachable) :
    x.calls = x.consumed ∧
    (∀ id item results complaint earlier,
      x.journal = .handled id item results complaint :: earlier →
        ∃ task, x.tasks[id]? = some task ∧ task.live = true) ∧
    ∀ id task consumer, x.tasks[id]? = some task → task.job = .consume consumer →
      ∃ fate : Fate, fate.live = task.live ∧ x.Accounted id consumer fate ∧
        (fate = .ended .stopMessage → x.Alone id →
          ∃ later, x.accepted = (x.answers id).map (.data ·.1) ++ .stop :: later ∧
            x.queue.toList = later) := by
  refine ⟨h.calls_eq, fun id item results complaint earlier newest => h.live_of_handled newest,
    fun id task consumer htask job => ?_⟩
  obtain ⟨fate, hlive, haccounted⟩ := h.registered.accounted (workers_of_job htask job)
  refine ⟨fate, hlive, haccounted, fun hfate alone => ⟨x.queue.toList, ?_, rfl⟩⟩
  rw [alone.accepted_eq h, haccounted.taken_eq, hfate, List.append_assoc]
  rfl

/-- A consumer refuses an item tagged 0, pushes a new one while it handles the next, and ends with
the stop message; what was pushed after that is left. -/
theorem consumers_accounted_stopped :
    let c : Conditions := ⟨.ofSlotBytes 16, true⟩
    let start := ofQueue ⟨"work", ⟨#[none, none], 0, 0, some 8⟩, .quiet, [], 0, 0, 0⟩
    let handler := Script.handler ⟨[], [], [(2, 9)], [0]⟩
    let left := (start.step c 20 [.spawn "w" (.consume none 100 handler false),
      .submit (.tagged 0) none, .submit (.tagged 2) none, .stop, .submit (.tagged 5) none]).2
    left.outcomesOf 0 = [.reported ⟨1, 1, .stopMessage⟩] ∧
    left.queue.toList = [.data (.tagged 5), .data (.tagged 9)] ∧
    left.consumed = [(0, .tagged 0), (0, .tagged 2)] ∧ left.calls = left.consumed ∧
    ∃ consumer fate, left.Accounted 0 consumer fate := by
  intro c start handler left
  have hmade : Queue.ofSettings c.memory ⟨"work", 2, some 8, 100⟩ = .ok start.queue := rfl
  have hleft : left.Reachable := Reachable.step c 20 _ ⟨start.queue, .ofSettings hmade, .refl⟩ rfl
  obtain ⟨hcalls, -, hconsumers⟩ := consumers_accounted hleft
  obtain ⟨task, consumer, htask, job⟩ :=
    exists_of_isConsumer (show left.isConsumer 0 = true by decide +kernel)
  obtain ⟨fate, -, haccounted, -⟩ := hconsumers 0 task consumer htask job
  exact ⟨by decide +kernel, by decide +kernel, by decide +kernel, hcalls, consumer, fate,
    haccounted⟩

end Executor

end Handoff
