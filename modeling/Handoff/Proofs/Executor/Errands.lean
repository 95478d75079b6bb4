/-
Handoff.Proofs.Executor.Errands — a waiting push takes effect once or not at all.

A producer tries its push whenever it gets to run, and comes to rest again as long as the queue is
full and at its ceiling. Of these attempts nothing is written down, nor do they change the queue. So
the journal has nothing of a producer but how its errand ended (`Errand`): the message was accepted,
and the producer finished with that; or the push failed for another reason, which it finished with;
or it was cancelled. After that nothing more comes of it, however long the run goes on.

  §1 errands   — `Task.sender?`, `Errand`
  §2 moves     — `Sending`, `Move.sending`
  §3 runs      — `Tracked`, `Moves.own_eq_of_ended`
  §4 results   — `waiting_pushes_once`
-/
import Handoff.Proofs.Executor.Cancellation
import Handoff.Proofs.Executor.Shutdown

namespace Handoff

/-! ## §1 Errands -/

/-- The job of a producer, and whether it has not ended; nothing for other tasks. -/
def Task.sender? (task : Task) : Option (Job × Bool) :=
  task.job.message?.map fun _ => (task.job, task.live)

theorem Task.sender?_of_job {task : Task} {message : Message}
    (job : task.job.message? = some message) : task.sender? = some (task.job, task.live) := by
  rw [sender?, job]
  rfl

theorem Task.sender?_of_none {task : Task} (job : task.job.message? = none) :
    task.sender? = none := by
  rw [sender?, job]
  rfl

theorem Task.sender?_dead (task : Task) :
    ({ task with live := false } : Task).sender? =
      task.sender?.map fun sender => (sender.1, false) := by
  unfold sender?
  cases task.job.message? <;> rfl

/-- How the errand of a producer stands. -/
inductive Errand where
  /-- The push has not been accepted and may be later. -/
  | waiting
  | delivered
  /-- The push failed for another reason than that the queue was full and at its ceiling. -/
  | refused (rejection : Rejection Message)
  | cancelled

namespace Errand

/-- Whether the producer has not ended. -/
def live : Errand → Bool
  | .waiting => true
  | .delivered | .refused _ | .cancelled => false

/-- All that the journal has of the producer, newest first. -/
def events (id : TaskId) (job : Job) (message : Message) : Errand → List Event
  | .waiting => []
  | .delivered => [.finished id .accepted, .accepted (.task id) message]
  | .refused rejection => [.finished id (job.refusal rejection)]
  | .cancelled => [.cancelled id]

/-- A push that failed hands back its message, and the queue was not full and at its ceiling. -/
def Fits (message : Message) : Errand → Prop
  | .refused rejection => rejection.item = message ∧ rejection.isFull = false
  | .waiting | .delivered | .cancelled => True

theorem live_eq_true {errand : Errand} : errand.live = true ↔ errand = .waiting := by
  cases errand <;> simp [live]

theorem actor_of_mem (errand : Errand) {id : TaskId} {job : Job} {message : Message} {e : Event}
    (h : e ∈ errand.events id job message) : e.actor = .task id := by
  cases errand with
  | waiting => cases h
  | delivered =>
    simp only [events, List.mem_cons, List.not_mem_nil, or_false] at h
    rcases h with rfl | rfl <;> rfl
  | refused rejection =>
    rw [List.mem_singleton.mp h]
    rfl
  | cancelled =>
    rw [List.mem_singleton.mp h]
    rfl

end Errand

namespace Executor

/-- The producers in order of creation, with gaps for the other tasks. -/
def senders (x : Executor) : List (Option (Job × Bool)) := x.tasks.map Task.sender?

variable {x y : Executor} {id : TaskId} {task : Task}

theorem senders_getElem? (htask : x.tasks[id]? = some task) :
    x.senders[id]? = some task.sender? := by
  rw [senders, List.getElem?_map, htask]
  rfl

/-- A change of a task that is none for the producers. -/
theorem senders_of_modify {f : Task → Task} (tasks : y.tasks = x.tasks.modify id f)
    (same : ∀ task, x.tasks[id]? = some task → (f task).sender? = task.sender?) :
    y.senders = x.senders := by
  unfold senders
  rw [tasks]
  exact map_modify_of_eq _ same

/-- A task ends; it is a producer or not. -/
theorem senders_end {sender? : Option (Job × Bool)}
    (tasks : y.tasks = x.tasks.modify id fun t => { t with live := false })
    (h : x.senders[id]? = some sender?) :
    y.senders = x.senders.set id (sender?.map fun sender => (sender.1, false)) := by
  rw [senders, tasks]
  exact map_end Task.sender?_dead h

theorem senders_end_of_none
    (tasks : y.tasks = x.tasks.modify id fun t => { t with live := false })
    (h : x.senders[id]? = some none) : y.senders = x.senders := by
  rw [senders, tasks]
  exact map_end_of_none Task.sender?_dead h

theorem aspect_sender : Aspect Task.sender? := fun _ _ _ => rfl

theorem senders_trigger (x : Executor) (handle : HandleId) :
    (x.trigger handle).senders = x.senders := by
  rw [senders, senders, tasks_trigger]

/-- A push that fails hands the message back. -/
theorem item_of_push_error {memory : Memory} {actor : Actor} {message : Message}
    {rejection : Rejection Message} (h : x.push memory actor message = .error rejection) :
    rejection.item = message := by
  have hring := push_error h
  unfold Ring.push at hring
  split at hring
  · split at hring
    · cases hring
      rfl
    · cases hring
  · cases hring

/-! ## §2 Moves -/

/-- What one move is for the producers. -/
inductive Sending (x y : Executor) : Prop where
  /-- No producer has a part in it. -/
  | aside (events : List Event) (journal : y.journal = events ++ x.journal)
      (others : ∀ e ∈ events, ∀ id, e.actor = .task id → x.senders[id]? = some none)
      (senders : y.senders = x.senders)
  /-- There is one more task. -/
  | joined (sender? : Option (Job × Bool))
      (fresh : ∀ job live, sender? = some (job, live) → live = true)
      (journal : y.journal = x.journal) (senders : y.senders = x.senders ++ [sender?])
  /-- The errand of one producer ends. -/
  | settled (id : TaskId) (job : Job) (message : Message) (errand : Errand)
      (sender : x.senders[id]? = some (some (job, true))) (sends : job.message? = some message)
      (fits : errand.Fits message) (ended : errand.live = false)
      (called : errand = .cancelled → x.running = none)
      (journal : y.journal = errand.events id job message ++ x.journal)
      (senders : y.senders = x.senders.set id (some (job, false)))

namespace Sending

/-- Nothing is written. -/
theorem quiet (journal : y.journal = x.journal) (senders : y.senders = x.senders) : x.Sending y :=
  .aside [] journal (fun _ h => by cases h) senders

/-- Another task than a producer does something. -/
theorem other (events : List Event) (sender : x.senders[id]? = some none)
    (journal : y.journal = events ++ x.journal) (own : ∀ e ∈ events, e.actor = .task id)
    (senders : y.senders = x.senders) : x.Sending y := by
  refine .aside events journal (fun e he i hi => ?_) senders
  rw [own e he, Actor.task.injEq] at hi
  rwa [← hi]

/-- What is unseen by the producers and the journal can precede. -/
theorem of_eq {z : Executor} (h : y.Sending z) (journal : y.journal = x.journal)
    (senders : y.senders = x.senders) (running : y.running = x.running) : x.Sending z := by
  cases h with
  | aside events hjournal others hsenders =>
    exact .aside events (journal ▸ hjournal) (senders ▸ others) (senders ▸ hsenders)
  | joined sender? fresh hjournal hsenders =>
    exact .joined sender? fresh (journal ▸ hjournal) (senders ▸ hsenders)
  | settled id job message errand sender sends fits ended called hjournal hsenders =>
    exact .settled id job message errand (senders ▸ sender) sends fits ended (running ▸ called)
      (journal ▸ hjournal) (senders ▸ hsenders)

theorem add (x : Executor) (label : String) (duty : Duty) : x.Sending (x.add label duty) := by
  rw [Executor.add, wake_eq]
  let task : Task := ⟨label, jobOf x.tasks.length duty, true, false, none⟩
  refine .joined task.sender? (fun job live hsender => ?_) rfl (List.map_append ..)
  obtain ⟨message, -, hpair⟩ := Option.map_eq_some_iff.mp hsender
  cases hpair
  rfl

theorem cancel (htask : x.tasks[id]? = some task) (live : task.live = true)
    (free : x.running = none) : x.Sending (x.cancel id) := by
  have hjournal : (x.cancel id).journal = .cancelled id :: x.journal :=
    congrArg (List.cons _) (withdraw_keeps journal x id rfl (fun _ _ _ _ => rfl))
  have hwithdraw : (x.withdraw id).senders = x.senders := aspect_sender.withdraw x id
  have hsender := senders_getElem? htask
  cases hmessage : task.job.message? with
  | none =>
    rw [Task.sender?_of_none hmessage] at hsender
    exact .other [.cancelled id] hsender hjournal (by simp [Event.actor])
      ((senders_end_of_none rfl (hwithdraw ▸ hsender)).trans hwithdraw)
  | some message =>
    rw [Task.sender?_of_job hmessage, live] at hsender
    refine .settled id task.job message .cancelled hsender hmessage trivial rfl (fun _ => free)
      hjournal ((senders_end rfl (hwithdraw ▸ hsender)).trans ?_)
    rw [hwithdraw]
    rfl

/-- A consumer handles an item; what its handler pushes is not the errand of a producer. -/
theorem handle {memory : Memory} {consumer : Consumer} {item : WorkItem} {ring : Ring Message}
    (htask : x.tasks[id]? = some task) (job : task.job = .consume consumer) :
    x.Sending ((x.taken (.task id) [.data item] ring).handle memory id consumer item) := by
  obtain ⟨⟨pushed, hjournal⟩, -, -⟩ := actAll_entry memory id consumer
    (consumer.react item).actions (x.taken (.task id) [.data item] ring)
  have hactions : (actAll memory id consumer (consumer.react item).actions
      (x.taken (.task id) [.data item] ring)).2.senders = x.senders :=
    aspect_sender.actAll memory consumer _ _
  have hsender : x.senders[id]? = some none := by
    rw [senders_getElem? htask, Task.sender?_of_none (by rw [job]; rfl)]
  refine .other ((Deed.handle item (actAll memory id consumer (consumer.react item).actions
    (x.taken (.task id) [.data item] ring)).1 pushed).events id consumer) hsender ?_
    (fun e he => Deed.actor_of_mem _ he) ?_
  · refine (congrArg (List.cons _) hjournal).trans ?_
    simp [Deed.events, taken]
  · refine (senders_of_modify rfl fun t ht => ?_).trans hactions
    have hnone := senders_getElem? ht
    rw [hactions, hsender, Option.some.injEq] at hnone
    exact hnone

end Sending

/-- Every move is one of these. -/
theorem Move.sending (hx : x.Orderly) (h : x.Move y) : x.Sending y := by
  have hnone : ∀ {id : TaskId} {task : Task}, x.Runs id task → task.job.message? = none →
      x.senders[id]? = some none := by
    intro id task runs job
    rw [senders_getElem? runs.task_eq, Task.sender?_of_none job]
  have hsome : ∀ {id : TaskId} {task : Task} {message : Message}, x.Runs id task →
      task.job.message? = some message → x.senders[id]? = some (some (task.job, true)) := by
    intro id task message runs job
    rw [senders_getElem? runs.task_eq, Task.sender?_of_job job, hx.live_of_runs runs]
  cases h with
  | @callerPush memory message y free accepted =>
    exact .aside [.accepted .caller message] (push_entry accepted).1 (by simp [Event.actor])
      (aspect_sender.push accepted)
  | @callerTake messages ring free _ _ =>
    exact .aside (messages.map (Event.removed .caller)).reverse rfl (by simp [Event.actor]) rfl
  | add label duty => exact .add x label duty
  | cancel free found live => exact .cancel found live free
  | callerTrigger handle free => exact .quiet (journal_trigger x handle) (senders_trigger x handle)
  | advance millis =>
    rw [Executor.advance, wakeAll_eq]
    exact .quiet rfl rfl
  | start => exact .quiet rfl rfl
  | vanish => exact .quiet rfl rfl
  | @receive id task message ring runs job _ =>
    have hheed : ((x.heed id).taken (.task id) [message] ring).senders = x.senders :=
      aspect_sender.heed x id
    have hother := hnone runs (by rw [job]; rfl)
    exact .other [.finished id (.received message), .removed (.task id) message] hother rfl
      (by simp [Event.actor]) ((senders_end_of_none rfl (hheed ▸ hother)).trans hheed)
  | @receiveAgain id => exact .quiet rfl (aspect_sender.heed x id)
  | @receiveWait id => exact .quiet rfl (aspect_sender.heed x id)
  | @ready id task runs job _ =>
    have hheed : (x.heed id).senders = x.senders := aspect_sender.heed x id
    have hother := hnone runs (by rw [job]; rfl)
    exact .other [.finished id .ready] hother rfl (by simp [Event.actor])
      ((senders_end_of_none rfl (hheed ▸ hother)).trans hheed)
  | @readyAtOnce id task runs job _ _ =>
    have hother := hnone runs (by rw [job]; rfl)
    exact .other [.finished id .ready] hother rfl (by simp [Event.actor])
      (senders_end_of_none rfl hother)
  | readyWait => exact .quiet rfl rfl
  | @deliver memory id task message z runs job accepted =>
    have hpush : z.senders = x.senders := aspect_sender.push accepted
    have hsender := hsome runs job
    refine .settled id task.job message .delivered hsender job trivial rfl (fun h => by cases h)
      (congrArg (List.cons _) (push_entry accepted).1)
      ((senders_end rfl (hpush ▸ hsender)).trans ?_)
    rw [hpush]
    rfl
  | queueUp => exact .quiet rfl rfl
  | @giveUp memory id task message rejection runs job rejected full =>
    exact .settled id task.job message (.refused rejection) (hsome runs job) job
      ⟨item_of_push_error rejected, full⟩ rfl (fun h => by cases h) rfl
      (senders_end rfl (hsome runs job))
  | @stopWaiting id task consumer deadline readyFirst runs job waited =>
    exact .quiet
      (stopWaiting_keeps journal readyFirst runs.task_eq consumer deadline rfl
        (fun _ _ _ _ => rfl))
      (aspect_sender.stopWaiting readyFirst runs.task_eq consumer deadline)
  | @shutDown id task consumer runs job awake triggered =>
    have hother := hnone runs (by rw [job]; rfl)
    exact .other [.finished id (.reported (consumer.report .shutdown))] hother rfl
      (by simp [Event.actor]) (senders_end_of_none rfl hother)
  | @takeStop id task consumer ring runs job awake triggered _ =>
    have hother := hnone runs (by rw [job]; rfl)
    exact .other [.finished id (.reported (consumer.report .stopMessage)),
      .removed (.task id) .stop] hother rfl (by simp [Event.actor])
      (senders_end_of_none rfl hother)
  | handle runs job awake triggered _ => exact .handle runs.task_eq job
  | consumeAgain => exact .quiet rfl rfl
  | @consumeWait id task consumer => exact .quiet rfl (aspect_sender.awaitAny x id consumer)

/-! ## §3 Runs -/

/-- A turn is one of these too: a consumer that stops waiting is nothing to the producers. -/
theorem turn_sending (c : Conditions) (hx : x.Orderly) {items : List Message}
    (holds : x.queue.ring.Holds items) : x.Sending (x.turn c) := by
  rcases turn_cases c holds with
    h | ⟨-, hmove⟩ | ⟨id, task, consumer, deadline, runs, -, -, -, hmove⟩
  · rw [h]
    exact .quiet rfl rfl
  · exact hmove.sending hx
  · have hstopped := hx.stopWaiting c.readyFirst runs (hx.live_of_runs runs) consumer deadline
    exact (hmove.sending hstopped).of_eq
      (stopWaiting_keeps journal c.readyFirst runs.task_eq consumer deadline rfl
        (fun _ _ _ _ => rfl))
      (aspect_sender.stopWaiting c.readyFirst runs.task_eq consumer deadline)
      (stopWaiting_keeps running c.readyFirst runs.task_eq consumer deadline rfl
        (fun _ _ _ _ => rfl))

/-- The journal has of every producer how its errand stands, and nothing else. -/
structure Tracked (x : Executor) : Prop where
  registered : x.Registered
  errands : ∀ id job live message, x.senders[id]? = some (some (job, live)) →
    job.message? = some message →
    ∃ errand : Errand, errand.Fits message ∧ errand.live = live ∧
      x.own id = errand.events id job message

theorem length_senders (x : Executor) : x.senders.length = x.workers.length := by
  rw [senders, workers, List.length_map, List.length_map]

theorem Tracked.move (hx : x.Tracked) (h : x.Move y) : y.Tracked := by
  refine ⟨hx.registered.move h, fun id job live message sender sends => ?_⟩
  cases h.sending hx.registered.orderly with
  | aside events journal others senders =>
    rw [senders] at sender
    rw [own_of_others journal fun e he hactor => by simp [others e he id hactor] at sender]
    exact hx.errands id job live message sender sends
  | joined sender? fresh journal senders =>
    have hown : y.own id = x.own id := by rw [own, journal, ← own]
    rw [senders] at sender
    rw [hown]
    rcases Nat.lt_trichotomy id x.senders.length with hlt | rfl | hgt
    · rw [List.getElem?_append_left hlt] at sender
      exact hx.errands id job live message sender sends
    · rw [List.getElem?_concat_length, Option.some.injEq] at sender
      exact ⟨.waiting, trivial, (fresh job live sender).symm,
        hx.registered.own_eq_nil (Nat.le_of_eq x.length_senders.symm)⟩
    · rw [List.getElem?_eq_none (by rw [List.length_append]; exact hgt)] at sender
      cases sender
  | settled who hisJob hisMessage errand before hisSends fits ended _ journal senders =>
    rw [senders] at sender
    by_cases heq : who = id
    · subst heq
      rw [List.getElem?_set_self (lt_length_of_getElem? before), Option.some.injEq,
        Option.some.injEq, Prod.mk.injEq] at sender
      obtain ⟨rfl, rfl⟩ := sender
      rw [hisSends, Option.some.injEq] at sends
      subst sends
      -- Its errand was still to do, so that nothing had been written of it.
      obtain ⟨earlier, -, hlive, hown⟩ := hx.errands who hisJob true hisMessage before hisSends
      rw [Errand.live_eq_true] at hlive
      subst hlive
      refine ⟨errand, fits, ended, ?_⟩
      rw [own_of_all journal fun e he => errand.actor_of_mem he, hown]
      exact List.append_nil _
    · rw [List.getElem?_set_ne heq] at sender
      rw [own_of_others journal fun e he hactor => heq ?_]
      · exact hx.errands id job live message sender sends
      · rwa [errand.actor_of_mem he, Actor.task.injEq] at hactor

theorem Queue.Fresh.tracked {q : Queue Message} (h : q.Fresh) : (ofQueue q).Tracked :=
  ⟨Queue.Fresh.registered h, fun _ _ _ _ sender => by cases sender⟩

/-- In every run the journal has of every producer how its errand stands. -/
theorem Reachable.tracked (h : x.Reachable) : x.Tracked :=
  h.induction (fun _ hq => Queue.Fresh.tracked hq) fun _ _ _ hy hmove => hy.move hmove

/-- Once its errand has ended, a producer has no part in anything. -/
theorem Sending.ended {job : Job} (h : x.Sending y)
    (sender : x.senders[id]? = some (some (job, false))) :
    y.senders[id]? = some (some (job, false)) ∧ y.own id = x.own id := by
  cases h with
  | aside events journal others senders =>
    refine ⟨senders ▸ sender, own_of_others journal fun e he hactor => ?_⟩
    simp [others e he id hactor] at sender
  | joined sender? fresh journal senders =>
    refine ⟨?_, by rw [own, journal, ← own]⟩
    rw [senders, List.getElem?_append_left (lt_length_of_getElem? sender)]
    exact sender
  | settled who hisJob hisMessage errand before hisSends fits ended _ journal senders =>
    have hne : who ≠ id := by
      rintro rfl
      simp [before] at sender
    refine ⟨?_, own_of_others journal fun e he hactor => hne ?_⟩
    · rw [senders, List.getElem?_set_ne hne]
      exact sender
    · rwa [errand.actor_of_mem he, Actor.task.injEq] at hactor

theorem Moves.ended {job : Job} (hx : x.Registered) (h : x.Moves y)
    (sender : x.senders[id]? = some (some (job, false))) :
    y.senders[id]? = some (some (job, false)) ∧ y.own id = x.own id := by
  induction h with
  | refl => exact ⟨sender, rfl⟩
  | tail hmoves hmove ih =>
    obtain ⟨hsender, hown⟩ := (hmove.sending (Moves.registered hx hmoves).orderly).ended ih.1
    exact ⟨hsender, hown.trans ih.2⟩

/-- What a run has written of a producer when its errand ends is written in the turn that ends
it. -/
theorem Reachable.turn_settles (h : x.Reachable) (c : Conditions) {message : Message}
    {later : Task} (htask : x.tasks[id]? = some task) (job : task.job.message? = some message)
    (live : task.live = true) (hlater : (x.turn c).tasks[id]? = some later)
    (dead : later.live = false) :
    ∃ errand : Errand, errand ≠ .cancelled ∧ errand.live = false ∧ errand.Fits message ∧
      (x.turn c).journal = errand.events id task.job message ++ x.journal := by
  have hbefore := senders_getElem? htask
  have hafter := senders_getElem? hlater
  rw [Task.sender?_of_job job, live] at hbefore
  -- Were it not this errand that ends, the producer would be live after the turn.
  have hsame : (x.turn c).senders[id]? ≠ some (some (task.job, true)) := by
    rw [hafter, Task.sender?]
    intro hsender
    obtain ⟨_, -, hpair⟩ := Option.map_eq_some_iff.mp (Option.some.inj hsender)
    rw [Prod.mk.injEq, dead] at hpair
    cases hpair.2
  cases turn_sending c h.orderly h.holds with
  | aside events journal others senders => exact absurd (senders ▸ hbefore) hsame
  | joined sender? fresh journal senders =>
    refine absurd ?_ hsame
    rw [senders, List.getElem?_append_left (lt_length_of_getElem? hbefore)]
    exact hbefore
  | settled who hisJob hisMessage errand sender sends fits ended called journal senders =>
    by_cases heq : who = id
    · subst heq
      rw [hbefore, Option.some.injEq, Option.some.injEq, Prod.mk.injEq] at sender
      obtain ⟨rfl, -⟩ := sender
      rw [job, Option.some.injEq] at sends
      subst sends
      refine ⟨errand, ?_, ended, fits, journal⟩
      rintro rfl
      -- While no task runs, a turn at most starts one.
      have hquiet : (x.turn c).tasks = x.tasks := by
        unfold turn
        rw [called rfl]
        cases x.woken <;> rfl
      rw [hquiet, htask, Option.some.injEq] at hlater
      rw [← hlater, live] at dead
      cases dead
    · refine absurd ?_ hsame
      rw [senders, List.getElem?_set_ne heq]
      exact hbefore

/-! ## §4 Results -/

/-- **Waiting pushes take effect exactly once, and cancellation is safe**: in every run the journal
has of a producer how its errand stands, and nothing else. The message was accepted, once, and the
producer finished with that; or it failed, not for the ceiling, and the message came back; while it
waits, and after it was cancelled, nothing was accepted. What has ended stays so, and an errand that
is not cancelled ends within one turn. To cancel a task that has not ended, whatever it does, takes
it off its lists and changes nothing else, but that a notification it holds is passed on. -/
theorem waiting_pushes_once (h : x.Reachable) :
    (∀ id task message, x.tasks[id]? = some task → task.job.message? = some message →
      (∃ errand : Errand, errand.Fits message ∧ errand.live = task.live ∧
        x.own id = errand.events id task.job message) ∧
      (task.live = false → ∀ y, x.Reaches y → y.own id = x.own id) ∧
      (task.live = true → ∀ c later, (x.turn c).tasks[id]? = some later → later.live = false →
        ∃ errand : Errand, errand ≠ .cancelled ∧ errand.live = false ∧ errand.Fits message ∧
          (x.turn c).journal = errand.events id task.job message ++ x.journal)) ∧
    ∀ id task, x.tasks[id]? = some task → task.live = true → x.TakesAway (x.cancel id) id := by
  refine ⟨fun id task message htask job => ⟨?_, fun dead y reaches => ?_, ?_⟩,
    fun id task _ _ => h.orderly.takesAway id⟩
  · have hsender := senders_getElem? htask
    rw [Task.sender?_of_job job] at hsender
    exact h.tracked.errands id task.job task.live message hsender job
  · have hsender := senders_getElem? htask
    rw [Task.sender?_of_job job, dead] at hsender
    exact (Moves.ended h.registered (reaches.moves ⟨_, h.holds⟩) hsender).2
  · exact fun live c later hlater dead => h.turn_settles c htask job live hlater dead

/-- One producer fails because the memory refuses, one is cancelled while it waits, and a third gets
room at its second attempt; a receiver that was told of an item is cancelled before it runs. -/
theorem waiting_pushes_once_retried :
    let c : Conditions := ⟨.ofSlotBytes 16, true⟩
    let tight : Conditions := ⟨c.memory.limitedTo 2, true⟩
    let start := ofQueue ⟨"work", ⟨#[none, none], 0, 0, some 3⟩, .quiet, [], 0, 0, 0⟩
    let refused := (start.step tight 20 [.submit (.tagged 1) none,
      .spawn "p" (.push (.data (.tagged 2)))]).2
    let waiting := (refused.step c 20 [.spawn "q" (.submit (.tagged 3)), .spawn "r" .stop,
      .spawn "s" .stop]).2
    let emptied := (waiting.step c 20 [.cancel "s", .drain, .spawn "u" .receive,
      .spawn "v" .receive, .spawn "w" .receive]).2
    let told := (emptied.perform c.memory (.submit (.tagged 4) none)).2
    waiting.pending = ["r", "s"] ∧
      told.own 0 =
        [.finished 0 (.rejected ⟨.data (.tagged 2), .allocation 3 .refused⟩)] ∧
      told.own 2 = [.finished 2 .accepted, .accepted (.task 2) .stop] ∧
      told.own 3 = [.cancelled 3] ∧
      (∃ (errand : Errand) (job : Job), errand.Fits .stop ∧ errand.live = false ∧
        told.own 2 = errand.events 2 job .stop) ∧
      told.isNoticed 5 = true ∧ told.TakesAway (told.cancel 5) 5 ∧
      (told.cancel 5).isNoticed 6 = true := by
  intro c tight start refused waiting emptied told
  have hmade : Queue.ofSettings c.memory ⟨"work", 2, some 3, 100⟩ = .ok start.queue := rfl
  have hrefused : refused.Reachable :=
    Reachable.step tight 20 _ ⟨start.queue, .ofSettings hmade, .refl⟩ rfl
  have hwaiting : waiting.Reachable := hrefused.step c 20 _ (by decide +kernel)
  have hemptied : emptied.Reachable := hwaiting.step c 20 _ (by decide +kernel)
  have htold : told.Reachable := (hemptied.perform c.memory _ (by decide +kernel)).1
  obtain ⟨hproducers, hcancel⟩ := waiting_pushes_once htold
  have hstop : told.tasks[2]?.map (fun t => (t.live, t.job.message?)) =
      some (false, some .stop) := by decide +kernel
  have hreceiver : told.tasks[5]?.map (·.live) = some true := by decide +kernel
  obtain ⟨producer, hproducer, hfields⟩ := Option.map_eq_some_iff.mp hstop
  obtain ⟨receiver, hreceiving, hlive⟩ := Option.map_eq_some_iff.mp hreceiver
  rw [Prod.mk.injEq] at hfields
  obtain ⟨errand, hfits, hended, hown⟩ := (hproducers 2 producer .stop hproducer hfields.2).1
  exact ⟨by decide +kernel, by decide +kernel, by decide +kernel, by decide +kernel,
    ⟨errand, producer.job, hfits, hended.trans hfields.1, hown⟩, by decide +kernel,
    hcancel 5 receiver hreceiving hlive, by decide +kernel⟩

end Executor

end Handoff
