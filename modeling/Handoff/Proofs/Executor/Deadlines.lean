/-
Handoff.Proofs.Executor.Deadlines — consumers look again in time.

A notification by `ready` can be lost for those that would take a message: it goes to a task that
only wants to be told, or to a consumer that ends before it looks. Then messages are queued while
consumers sleep. They do so for one interval at most. When the time of a consumer has come, it is
woken, and it gets to run: whoever runs before it wakes others only behind it, and leaves its time
alone (`Passes`). Once it runs, all turns are its own until it has reported or found the queue
empty. At that moment everything that was ever accepted has been removed, and its next wait begins
(`Called.turn`).

It may be told of a message and run again before all tasks rest, any number of times; the same holds
at the end of each of its waits, and so it holds when all tasks rest.

  §1 the turns of others      — `Passes`, `Move.passes`, `passes_turn`
  §2 the turns of a consumer  — `pollActive_cases`, `poll_of_consumer`
  §3 until all rest           — `Called`, `Called.turn`, `due_consumer_looks`
-/
import Handoff.Proofs.Executor.Accounts
import Handoff.Proofs.Executor.Rest
import Handoff.Proofs.Executor.Shifts
import Handoff.Proofs.Executor.Shutdown

namespace Handoff

namespace Executor

variable {x y z : Executor} {id own : TaskId} {task : Task}

/-! ## §1 The turns of others -/

/-- What other tasks leave to a task: it stays woken, and when it is to look again does not change,
nor does the time. -/
structure Passes (x y : Executor) (id : TaskId) : Prop where
  woken : id ∈ x.woken → id ∈ y.woken
  deadline_eq : y.deadlines[id]? = x.deadlines[id]?
  clock_eq : y.clock = x.clock

theorem Passes.trans (hxy : x.Passes y id) (hyz : y.Passes z id) : x.Passes z id :=
  ⟨fun h => hyz.woken (hxy.woken h), hyz.deadline_eq.trans hxy.deadline_eq,
    hyz.clock_eq.trans hxy.clock_eq⟩

/-- While a task runs others are only woken. -/
theorem Move.woken_append (hx : x.Orderly) (busy : x.running ≠ none) (h : x.Move y) :
    ∃ more, y.woken = x.woken ++ more := by
  cases h.shift hx with
  | wake more woken => exact ⟨more, woken⟩
  | release more woken => exact ⟨x.queue.space ++ more, by rw [woken, List.append_assoc]⟩
  | lineUp _ woken => exact ⟨[], by rw [woken, List.append_nil]⟩
  | start _ _ free => exact absurd free busy
  | leave _ _ free => exact absurd free busy

theorem deadlines_heed (x : Executor) (id : TaskId) : (x.heed id).deadlines = x.deadlines :=
  map_modify_of_eq _ fun _ _ => rfl

theorem deadlines_finish (x : Executor) (id : TaskId) (outcome : Outcome) :
    (x.finish id outcome).deadlines = x.deadlines :=
  map_modify_of_eq (f := fun t : Task => { t with live := false }) _ fun _ _ => rfl

theorem deadlines_push {memory : Memory} {actor : Actor} {message : Message}
    (accepted : x.push memory actor message = .ok y) :
    y.deadlines = x.deadlines ∧ y.clock = x.clock := by
  obtain ⟨placement, ring, -, rfl⟩ := push_ok accepted
  exact ⟨deadlines_notifyReady _, notifyReady_keeps clock _ fun _ _ _ => rfl⟩

theorem deadlines_handle (memory : Memory) (x : Executor) (id : TaskId) (consumer : Consumer)
    (item : WorkItem) : (x.handle memory id consumer item).deadlines = x.deadlines ∧
      (x.handle memory id consumer item).clock = x.clock := by
  have hacted : (actAll memory id consumer (consumer.react item).actions x).2.deadlines =
      x.deadlines ∧ (actAll memory id consumer (consumer.react item).actions x).2.clock =
      x.clock := by
    refine actAll_induction (P := fun y => y.deadlines = x.deadlines ∧ y.clock = x.clock) consumer
      ?_ ?_ _ ⟨rfl, rfl⟩
    · rintro y z message ⟨hdeadlines, hclock⟩ accepted
      obtain ⟨hsame, hstill⟩ := deadlines_push accepted
      exact ⟨hsame.trans hdeadlines, hstill.trans hclock⟩
    · rintro y handle ⟨hdeadlines, hclock⟩
      refine ⟨?_, by rw [trigger_eq]; exact hclock⟩
      rw [deadlines, tasks_trigger]
      exact hdeadlines
  obtain ⟨hdeadlines, hclock⟩ := hacted
  refine ⟨Eq.trans ?_ hdeadlines, hclock⟩
  exact map_modify_of_eq (f := fun t : Task =>
    { t with job := .consume (consumer.tally (consumer.react item).complaint) }) _ fun _ _ => rfl

/-- A change of one task does not show in the deadlines of others. -/
theorem deadlines_modify {f : Task → Task} (tasks : y.tasks = x.tasks.modify own f)
    (other : id ≠ own) : y.deadlines[id]? = x.deadlines[id]? := by
  rw [deadlines, deadlines, tasks, List.getElem?_map, List.getElem?_map,
    List.getElem?_modify_ne _ _ (Ne.symm other)]

/-- A task that runs leaves the deadlines of others, and the time. -/
theorem Move.deadlines_eq (running : x.running = some own) (other : id ≠ own) (h : x.Move y) :
    y.deadlines[id]? = x.deadlines[id]? ∧ y.clock = x.clock := by
  have busy : x.running ≠ none := by simp [running]
  have hown : ∀ {task : Task} {i : TaskId}, x.Runs i task → id ≠ i := by
    intro task i runs
    have hi := runs.running_eq
    rw [running, Option.some.injEq] at hi
    exact hi ▸ other
  have hsame : y.deadlines = x.deadlines → y.clock = x.clock →
      y.deadlines[id]? = x.deadlines[id]? ∧ y.clock = x.clock :=
    fun deadlines clock => ⟨by rw [deadlines], clock⟩
  cases h with
  | callerPush free => exact absurd free busy
  | callerTake free => exact absurd free busy
  | add label duty free => exact absurd free busy
  | cancel free => exact absurd free busy
  | callerTrigger handle free => exact absurd free busy
  | advance millis free => exact absurd free busy
  | start free => exact absurd free busy
  | vanish => exact ⟨rfl, rfl⟩
  | receive => exact hsame ((deadlines_finish _ _ _).trans (deadlines_heed x _)) rfl
  | receiveAgain => exact hsame (deadlines_heed x _) rfl
  | receiveWait => exact hsame (deadlines_heed x _) rfl
  | ready => exact hsame ((deadlines_finish _ _ _).trans (deadlines_heed x _)) rfl
  | readyAtOnce => exact hsame (deadlines_finish _ _ _) rfl
  | readyWait => exact ⟨rfl, rfl⟩
  | deliver _ _ accepted =>
    obtain ⟨hdeadlines, hclock⟩ := deadlines_push accepted
    exact hsame ((deadlines_finish _ _ _).trans hdeadlines) hclock
  | queueUp => exact ⟨rfl, rfl⟩
  | giveUp => exact hsame (deadlines_finish x _ _) rfl
  | @stopWaiting i task consumer deadline readyFirst runs =>
    have hdetached : (x.detached i).deadlines[id]? = x.deadlines[id]? :=
      deadlines_modify rfl (hown runs)
    refine stopWaiting_induction
      (P := fun y => y.deadlines[id]? = x.deadlines[id]? ∧ y.clock = x.clock) readyFirst
      runs.task_eq consumer deadline ⟨hdetached, rfl⟩ ⟨?_, ?_⟩
    · rw [deadlines_notifyReady]
      exact hdetached
    · exact notifyReady_keeps clock _ fun _ _ _ => rfl
  | shutDown => exact hsame (deadlines_finish x _ _) rfl
  | takeStop => exact hsame (deadlines_finish _ _ _) rfl
  | handle =>
    obtain ⟨hdeadlines, hclock⟩ := deadlines_handle _ _ _ _ _
    exact hsame hdeadlines hclock
  | consumeAgain => exact ⟨rfl, rfl⟩
  | consumeWait runs => exact ⟨deadlines_modify rfl (hown runs), rfl⟩

theorem Move.passes (hx : x.Orderly) (running : x.running = some own) (other : id ≠ own)
    (h : x.Move y) : x.Passes y id := by
  obtain ⟨more, hwoken⟩ := h.woken_append hx (by simp [running])
  obtain ⟨hdeadline, hclock⟩ := h.deadlines_eq running other
  exact ⟨fun hmem => hwoken ▸ List.mem_append_left _ hmem, hdeadline, hclock⟩

/-- So does every turn of another task. -/
theorem passes_turn (c : Conditions) (hx : x.Orderly) {items : List Message}
    (holds : x.queue.ring.Holds items) (running : x.running = some own) (other : id ≠ own) :
    x.Passes (x.turn c) id := by
  rcases turn_cases c holds with
    hsame | ⟨-, hmove⟩ | ⟨i, task, consumer, deadline, runs, job, waited, -, hmove⟩
  · rw [hsame]
    exact ⟨fun hmem => hmem, rfl, rfl⟩
  · exact hmove.passes hx running other
  · have hi := runs.running_eq
    rw [running, Option.some.injEq] at hi
    subst hi
    have hstop : x.Move _ := .stopWaiting c.readyFirst runs job waited
    obtain ⟨_, hruns⟩ := runs_stopWaiting c.readyFirst runs consumer deadline
    exact (hstop.passes hx running other).trans
      (hmove.passes (hx.move hstop) hruns.running_eq other)

/-! ## §2 The turns of a consumer -/

/-- A round of a consumer ends it with a report, or it goes on, or it finds no message and waits. -/
theorem pollActive_cases (memory : Memory) {items : List Message}
    (holds : x.queue.ring.Holds items) (running : x.running = some id) (consumer : Consumer) :
    (∃ report, .finished id (.reported report) ∈ (x.pollActive memory id consumer).journal) ∨
    (x.pollActive memory id consumer).running = some id ∨
    items = [] ∧ x.pollActive memory id consumer = x.awaitAny id consumer := by
  unfold pollActive
  cases htriggered : x.isTriggered consumer.handle with
  | true => exact .inl ⟨_, List.mem_cons_self⟩
  | false =>
    rw [if_neg (by simp)]
    cases items with
    | nil =>
      rw [pop_nil holds]
      cases hpermit : x.queue.ready.permit with
      | true =>
        refine .inr (.inl ?_)
        show (x.awaitReadyOr _ _).running = some id
        rw [awaitReadyOr_permit hpermit]
        exact running
      | false =>
        refine .inr (.inr ⟨rfl, ?_⟩)
        show x.awaitReadyOr _ _ = _
        rw [awaitReadyOr_wait hpermit]
    | cons message rest =>
      rw [pop_cons holds]
      cases message with
      | stop => exact .inl ⟨_, List.mem_cons_self⟩
      | data item => exact .inr (.inl ((running_handle memory _ id consumer item).trans running))

/-- A turn of a consumer is a round of one that does not wait, with the same messages. -/
theorem poll_of_consumer (c : Conditions) {consumer : Consumer} (runs : x.Runs id task)
    (job : task.job = .consume consumer) :
    ∃ (y : Executor) (t : Task), x.poll c id = y.pollActive c.memory id consumer ∧ y.Runs id t ∧
      y.queue.ring = x.queue.ring := by
  cases hdeadline : task.deadline with
  | none =>
    refine ⟨x, task, ?_, runs, rfl⟩
    unfold poll
    rw [runs.task_eq]
    obtain ⟨label, taskJob, live, noticed, deadline?⟩ := task
    cases job
    cases hdeadline
    rfl
  | some deadline =>
    obtain ⟨noticed, hruns⟩ := runs_stopWaiting c.readyFirst runs consumer deadline
    exact ⟨_, _, poll_of_idle c runs job hdeadline, hruns,
      ring_stopWaiting c.readyFirst runs.task_eq consumer deadline⟩

/-! ## §3 Until all rest -/

theorem extract_grows {β : Type} (f : Event → Option β)
    (h : ∃ since, y.journal = since ++ x.journal) :
    extract f x.journal <+: extract f y.journal := by
  obtain ⟨since, hsince⟩ := h
  rw [hsince, extract_append]
  exact List.prefix_append _ _

/-- A consumer that was called after `x` has reported, or is to run, or has found the queue empty
and waits for a whole interval. -/
inductive Called (x y : Executor) (id : TaskId) (interval : Nat) : Prop where
  | returned (report : Report) (finished : .finished id (.reported report) ∈ y.journal)
  | toRun (runnable : y.IsRunnable id)
  | waits (removed : x.accepted <+: y.removed)
      (deadline : y.deadlines[id]? = some (some (y.clock + interval)))

/-- When its time has come a consumer is called. -/
theorem called_advance {deadline millis : Nat} (htask : x.tasks[id]? = some task)
    (live : task.live = true) (waits : task.deadline = some deadline)
    (due : deadline ≤ x.clock + millis) (interval : Nat) :
    x.Called (x.advance millis) id interval := by
  refine .toRun ?_
  rw [advance_roused, isRunnable_roused]
  exact .inr (mem_due.mpr ⟨task, deadline, htask, waits, live, due⟩)

/-- The task that was woken first starts to run. -/
theorem Called.start {interval : Nat} (h : x.Called y id interval) (free : y.running = none)
    (c : Conditions) : x.Called (y.turn c) id interval := by
  unfold Executor.turn
  rw [free]
  cases hwoken : y.woken with
  | nil => exact h
  | cons first rest =>
    cases h with
    | returned report finished => exact .returned report finished
    | waits removed deadline => exact .waits removed deadline
    | toRun runnable =>
      refine .toRun ?_
      rcases runnable with hmem | hrun
      · rw [hwoken] at hmem
        rcases List.mem_cons.mp hmem with rfl | hlater
        · exact .inr rfl
        · exact .inl hlater
      · rw [free] at hrun
        cases hrun

/-- Whatever a consumer was before, after a turn of its own it is one of the three. Only when it has
found the queue empty does it wait, and then what was removed is all that was accepted. -/
theorem called_own (reached : y.Reachable) (since : x.Moves y) (hx : x.Registered)
    {consumer : Consumer} (runs : y.Runs id task) (job : task.job = .consume consumer)
    (c : Conditions) : x.Called (y.turn c) id consumer.pollInterval := by
  have hpoll : y.turn c = y.poll c id := by
    unfold Executor.turn
    rw [runs.running_eq]
  obtain ⟨z, t, hround, hruns, hring⟩ := poll_of_consumer c runs job
  rw [hround] at hpoll
  rcases pollActive_cases c.memory (hring ▸ reached.holds) hruns.running_eq consumer with
    ⟨report, hfinished⟩ | hbusy | ⟨hempty, hwaits⟩
  · exact .returned report (hpoll ▸ hfinished)
  · exact .toRun (.inr (hpoll ▸ hbusy))
  · rw [hwaits] at hpoll
    have hsince := hx.journal_append (since.trans (turn_moves c reached.holds))
    have hnone : (y.turn c).queue.toList = [] := by
      have hsame : (y.turn c).queue.ring = y.queue.ring := by
        rw [hpoll]
        exact hring
      rw [Queue.toList, hsame]
      exact hempty
    refine .waits ?_ ?_
    · rw [(reached.after_turn c).conserves.removed_eq hnone]
      exact extract_grows Event.accepted? hsince
    · rw [hpoll, deadlines, List.getElem?_map]
      show ((z.tasks.modify id _)[id]?).map _ = _
      rw [List.getElem?_modify_eq, hruns.task_eq]
      rfl

/-- A consumer that was called stays so, whoever has the next turn. -/
theorem Called.turn (reached : y.Reachable) (since : x.Moves y) (hx : x.Registered)
    {consumer : Consumer} (htask : y.tasks[id]? = some task) (job : task.job = .consume consumer)
    (h : x.Called y id consumer.pollInterval) (c : Conditions) :
    x.Called (y.turn c) id consumer.pollInterval := by
  cases hrunning : y.running with
  | none => exact h.start hrunning c
  | some own =>
    by_cases heq : id = own
    · exact called_own reached since hx ⟨heq ▸ hrunning, htask⟩ job c
    · have hpasses := passes_turn c reached.orderly reached.holds hrunning heq
      have hnew := reached.registered.journal_append (turn_moves c reached.holds)
      cases h with
      | returned report finished =>
        obtain ⟨events, hevents⟩ := hnew
        exact .returned report (hevents ▸ List.mem_append_right _ finished)
      | toRun runnable =>
        rcases runnable with hmem | hrun
        · exact .toRun (.inl (hpasses.woken hmem))
        · rw [hrunning, Option.some.injEq] at hrun
          exact absurd hrun.symm heq
      | waits removed deadline =>
        refine .waits (removed.trans (extract_grows Event.removed? hnew)) ?_
        rw [hpasses.deadline_eq, hpasses.clock_eq]
        exact deadline

theorem Called.turns (reached : y.Reachable) (since : x.Moves y) (hx : x.Registered)
    {consumer : Consumer} (htask : y.tasks[id]? = some task) (job : task.job = .consume consumer)
    (h : x.Called y id consumer.pollInterval) (cs : List Conditions) :
    (Executor.turns cs y).Reachable ∧ x.Moves (Executor.turns cs y) ∧
      x.Called (Executor.turns cs y) id consumer.pollInterval := by
  induction cs generalizing y task consumer with
  | nil => exact ⟨reached, since, h⟩
  | cons c cs ih =>
    have hturn := turn_moves c reached.holds
    obtain ⟨later, hlater, hcore⟩ := hturn.lasts.job_core htask
    obtain ⟨other, hother, -, hinterval⟩ :=
      Job.core_eq_consume (hcore.trans (congrArg Job.core job))
    have hnext := h.turn reached since hx htask job c
    rw [← hinterval] at hnext ⊢
    exact ih (reached.after_turn c) (since.trans hturn) hlater hother hnext

/-- A consumer that has reported is at work no more. -/
theorem Reachable.not_live_of_finished (h : x.Reachable) {consumer : Consumer} {outcome : Outcome}
    (htask : x.tasks[id]? = some task) (job : task.job = .consume consumer)
    (finished : .finished id outcome ∈ x.journal) : task.live = false := by
  obtain ⟨fate, hlive, haccounted⟩ := h.registered.accounted (workers_of_job htask job)
  have hmem : outcome ∈ x.outcomesOf id :=
    mem_extract.mpr ⟨_, mem_own.mpr ⟨finished, rfl⟩, rfl⟩
  rw [haccounted.outcomes_eq] at hmem
  cases fate with
  | working => cases hmem
  | cancelled => cases hmem
  | ended reason => exact hlive.symm

/-- **An idle consumer looks again in time**: if time passes until its deadline, whatever the reason
that it was not told of messages, then at rest the consumer has reported, or all messages that were
queued before have been removed and it waits, for an interval from now. That is a time still to come,
unless the consumer gives itself no time at all, which checked settings do not. Tasks may have been
left to run before, and the turns may be made under any conditions. -/
theorem due_consumer_looks (h : x.Reachable) (free : x.running = none) {consumer : Consumer}
    {deadline millis : Nat} (htask : x.tasks[id]? = some task)
    (job : task.job = .consume consumer) (live : task.live = true)
    (waits : task.deadline = some deadline) (due : deadline ≤ x.clock + millis)
    (cs : List Conditions) (rest : (turns cs (x.advance millis)).atRest = true) :
    let y := turns cs (x.advance millis)
    ∃ later, y.tasks[id]? = some later ∧
      ((later.live = false ∧ ∃ report, .finished id (.reported report) ∈ y.journal) ∨
        (later.live = true ∧ x.removed ++ x.queue.toList <+: y.removed ∧
          id ∈ y.queue.ready.waiters ∧ ∃ next, later.deadline = some next ∧
            next = y.clock + consumer.pollInterval ∧
            (0 < consumer.pollInterval → y.clock < next))) := by
  intro y
  have hadvance : x.Moves (x.advance millis) := .single (.advance millis free)
  obtain ⟨hreached, hmoves, hcalled⟩ : y.Reachable ∧ x.Moves y ∧
      x.Called y id consumer.pollInterval := by
    obtain ⟨called, hsame, hcore⟩ := hadvance.lasts.job_core htask
    obtain ⟨other, hother, -, hinterval⟩ :=
      Job.core_eq_consume (hcore.trans (congrArg Job.core job))
    rw [← hinterval]
    exact (called_advance htask live waits due other.pollInterval).turns
      (h.perform (.ofSlotBytes 0) (.advance millis) free).1 hadvance h.registered hsame hother cs
  obtain ⟨later, hlater, hcore⟩ := hmoves.lasts.job_core htask
  obtain ⟨other, hother, -⟩ := Job.core_eq_consume (hcore.trans (congrArg Job.core job))
  refine ⟨later, hlater, ?_⟩
  cases hcalled with
  | returned report finished =>
    exact .inl ⟨hreached.not_live_of_finished hlater hother finished, report, finished⟩
  | toRun runnable =>
    obtain ⟨hfree, hwoken⟩ : y.running = none ∧ y.woken = [] := by simpa [atRest] using rest
    simp [IsRunnable, hfree, hwoken] at runnable
  | waits removed next =>
    have hnext : later.deadline = some (y.clock + consumer.pollInterval) := by
      rw [deadlines, List.getElem?_map, hlater] at next
      exact Option.some.inj next
    have hlive : later.live = true := by
      rcases (hreached.orderly.placed id).awake_or_idles with
        hawake | ⟨idle, _, _, hidle, idles⟩
      · have hnone := hawake later hlater
        rw [hnext] at hnone
        cases hnone
      · rw [hlater, Option.some.injEq] at hidle
        exact hidle ▸ idles.live
    refine .inr ⟨hlive, ?_, ?_, _, hnext, rfl, fun pos => by omega⟩
    · rw [h.conserves.removed_append_toList]
      exact removed
    · exact hreached.orderly.waits_of_rest rest hlater hlive (by rw [hother]; rfl)

/-- Two tasks that only want to be told have got the notifications of two items, while three
consumers sleep. When their time has come, the first one handles an item and has its handler trigger
the handle that it shares with the second; the third one takes the other item and waits again. -/
theorem due_consumer_looks_stranded :
    let c : Conditions := ⟨.ofSlotBytes 16, false⟩
    let start := ofQueue ⟨"work", ⟨#[none, none], 0, 0, some 8⟩, .quiet, [], 0, 0, 0⟩
    let consume (label handle : String) :=
      Command.spawn label (.consume (some handle) 10 (Script.handler ⟨[1], [], [], []⟩) false)
    let asleep := (start.step c 20 [.spawn "m" .awaitReady, .spawn "n" .awaitReady,
      consume "u" "h", consume "v" "h", consume "w" "k"]).2
    let left := (asleep.step c 20 [.submit (.tagged 1) none, .submit (.tagged 2) none]).2
    let looked := turns (List.replicate 30 c) (left.advance 10)
    left.atRest = true ∧ left.queue.toList = [.data (.tagged 1), .data (.tagged 2)] ∧
    left.deadlines = [none, none, some 10, some 10, some 10] ∧
    looked.pending = ["w"] ∧ looked.outcomesOf 3 = [.reported ⟨0, 0, .shutdown⟩] ∧
    left.removed ++ left.queue.toList <+: looked.removed ∧
    looked.deadlines = [none, none, none, none, some 20] := by
  intro c start consume asleep left looked
  have hmade : Queue.ofSettings c.memory ⟨"work", 2, some 8, 100⟩ = .ok start.queue := rfl
  have hasleep : asleep.Reachable :=
    Reachable.step c 20 _ ⟨start.queue, .ofSettings hmade, .refl⟩ rfl
  have hleft : left.Reachable := hasleep.step c 20 _ (by decide +kernel)
  obtain ⟨task, consumer, htask, job⟩ :=
    exists_of_isConsumer (show left.isConsumer 4 = true by decide +kernel)
  have hwaits : left.tasks[4]?.map (fun t => (t.live, t.deadline)) = some (true, some 10) := by
    decide +kernel
  simp only [htask, Option.map_some, Option.some.injEq, Prod.mk.injEq] at hwaits
  have hfree : left.running = none := by decide +kernel
  have hdue : 10 ≤ left.clock + 10 := by decide +kernel
  have hrest : looked.atRest = true := by decide +kernel
  have hworks : looked.tasks[4]?.map (·.live) = some true := by decide +kernel
  obtain ⟨later, hlater, hlooks⟩ :=
    due_consumer_looks hleft hfree htask job hwaits.1 hwaits.2 hdue (List.replicate 30 c) hrest
  have hlater : looked.tasks[4]? = some later := hlater
  rw [hlater, Option.map_some, Option.some.injEq] at hworks
  rcases hlooks with ⟨hdead, -⟩ | ⟨-, hremoved, -⟩
  · rw [hdead] at hworks
    cases hworks
  · exact ⟨by decide +kernel, by decide +kernel, by decide +kernel, by decide +kernel,
      by decide +kernel, hremoved, by decide +kernel⟩

end Executor

end Handoff
