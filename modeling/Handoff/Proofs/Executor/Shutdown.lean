/-
Handoff.Proofs.Executor.Shutdown — what the trigger of a handle brings about.

Safety: a consumer looks at its handle whenever it is about to take a message, so one whose handle
was triggered does nothing any more but end (`Deed.ends_of_fits`). This is true of every move from
the trigger on (`Registered.late`), also when the trigger came from a handler: the message of that
call had been taken before, and the rest of the call only pushes (`turn_triggers`).

Liveness: a trigger leaves nothing behind for consumers that begin to wait later, but those look at
the handle first; and it wakes all that wait. So a consumer of a triggered handle that has not ended
is to run, wherever it stands (`Orderly.ended_of_rest`).

  §1 after a trigger   — `Registered.late`, `Registered.quiet_since`
  §2 triggers          — `turn_triggers`
  §3 at rest           — `Orderly.ended_of_rest`
  §4 shutdown          — `consumers_shut_down`
-/
import Handoff.Proofs.Executor.Lives

namespace Handoff

/-! ## §1 After a trigger -/

/-- A consumer whose handle was triggered takes no message, and its handler is not called. -/
theorem Deed.ends_of_fits (d : Deed) (fits : d.Fits true) {id : TaskId} {consumer : Consumer}
    {e : Event} (h : e ∈ d.events id consumer) : e.removed? = none ∧ e.call? = none := by
  cases d with
  | handle item results pushed => cases fits
  | takeStop => cases fits
  | shutDown =>
    rw [List.mem_singleton.mp h]
    exact ⟨rfl, rfl⟩
  | cancelled =>
    rw [List.mem_singleton.mp h]
    exact ⟨rfl, rfl⟩

namespace Executor

variable {x y : Executor} {id : TaskId} {task : Task}

theorem Lasts.length_le (h : x.Lasts y) : x.workers.length ≤ y.workers.length := by
  have hjobs := h.jobs_prefix.length_le
  rw [jobs, jobs, List.length_map, List.length_map] at hjobs
  rwa [workers, workers, List.length_map, List.length_map]

theorem Moves.registered (hx : x.Registered) (h : x.Moves y) : y.Registered := by
  induction h with
  | refl => exact hx
  | tail _ move ih => exact ih.move move

/-- Whatever is written down of a consumer after its handle was triggered is that it ends. -/
theorem Registered.late (hx : x.Registered) (h : x.Moves y) {consumer : Consumer} {live : Bool}
    (worker : y.workers[id]? = some (some (consumer, live)))
    (triggered : x.isTriggered consumer.handle = true) :
    ∃ late, y.own id = late ++ x.own id ∧ ∀ e ∈ late, e.removed? = none ∧ e.call? = none := by
  induction h generalizing consumer live with
  | refl => exact ⟨[], rfl, fun e he => by cases he⟩
  | @tail y z run move ih =>
    have hy := Moves.registered hx run
    -- The last move is the consumer's own deed, and then it saw the trigger, or adds nothing.
    cases (move.entry hy.orderly).turned worker with
    | same worker own =>
      rw [own]
      exact ih worker triggered
    | hired first live fresh own =>
      have habsent : x.workers.length ≤ id := first ▸ (Moves.lasts run).length_le
      rw [own, hy.own_eq_nil (Nat.le_of_eq first.symm), hx.own_eq_nil habsent]
      exact ⟨[], rfl, fun e he => by cases he⟩
    | deed before d worker fits own after live =>
      have hhandle : x.isTriggered before.handle = true := by
        rwa [after, d.handle_after] at triggered
      rw [(Moves.lasts run).isTriggered hhandle] at fits
      obtain ⟨late, hown, hlate⟩ := ih worker hhandle
      refine ⟨d.events id before ++ late, ?_, fun e he => ?_⟩
      · rw [own, hown, List.append_assoc]
      · rcases List.mem_append.mp he with hnew | hold
        · exact d.ends_of_fits fits hnew
        · exact hlate e hold

theorem Entry.journal_append (h : x.Entry y) : ∃ events, y.journal = events ++ x.journal := by
  cases h with
  | aside events journal => exact ⟨events, journal⟩
  | trigger handle free eq => exact ⟨[], by rw [eq, journal_trigger]; rfl⟩
  | joined worker? fresh journal => exact ⟨[], journal⟩
  | deed who consumer d worker fits journal => exact ⟨_, journal⟩

/-- What was written down stays so. -/
theorem Registered.journal_append (hx : x.Registered) (h : x.Moves y) :
    ∃ since, y.journal = since ++ x.journal := by
  induction h with
  | refl => exact ⟨[], rfl⟩
  | @tail y z run move ih =>
    obtain ⟨since, hsince⟩ := ih
    obtain ⟨events, hevents⟩ := (move.entry (Moves.registered hx run).orderly).journal_append
    exact ⟨events ++ since, by rw [hevents, hsince, List.append_assoc]⟩

/-- A consumer whose handle was triggered has taken no message since, and its handler has not been
called. -/
theorem Registered.quiet_since (hx : x.Registered) (h : x.Moves y) {consumer : Consumer}
    {live : Bool} (worker : y.workers[id]? = some (some (consumer, live)))
    (triggered : x.isTriggered consumer.handle = true) {since : List Event}
    (journal : y.journal = since ++ x.journal) :
    (∀ message, .removed (.task id) message ∉ since) ∧
      ∀ item results complaint, .handled id item results complaint ∉ since := by
  obtain ⟨late, hown, hlate⟩ := hx.late h worker triggered
  have hsame : (since.filter fun e => e.actor = .task id) = late := by
    rw [own_append journal] at hown
    exact List.append_cancel_right hown
  have hquiet : ∀ e ∈ since, e.actor = .task id → e.removed? = none ∧ e.call? = none := by
    intro e he hactor
    refine hlate e ?_
    rw [← hsame, List.mem_filter]
    exact ⟨he, by simpa using hactor⟩
  refine ⟨fun message hmem => ?_, fun item results complaint hmem => ?_⟩
  · cases (hquiet _ hmem rfl).1
  · cases (hquiet _ hmem rfl).2

/-! ## §2 Triggers -/

/-- A handler triggers the handle: all that is written down is that its consumer has taken an item,
what the handler pushed, and its answer. -/
def HandlerTriggers (x y : Executor) (handle : HandleId) : Prop :=
  ∃ (id : TaskId) (consumer : Consumer) (item : WorkItem) (results : List (Option Error))
      (pushed : List Message),
    x.workers[id]? = some (some (consumer, true)) ∧
    (∃ target, .shutDown target ∈ (consumer.react item).actions ∧
      target.getD consumer.handle = handle) ∧
    y.journal = .handled id item results (consumer.react item).complaint ::
      (pushed.map (Event.accepted (.task id)) ++ .removed (.task id) (.data item) :: x.journal)

/-- A handle that is triggered while a task runs is triggered by a handler. -/
theorem Entry.triggers {handle : HandleId} (h : x.Entry y) (running : x.running = some id)
    (before : x.isTriggered handle = false) (after : y.isTriggered handle = true) :
    x.HandlerTriggers y handle := by
  have hkept : y.triggered ≠ x.triggered := by
    intro heq
    rw [isTriggered, heq, ← isTriggered, before] at after
    cases after
  cases h with
  | aside events journal others workers triggered => exact absurd triggered hkept
  | trigger handle free => simp [running] at free
  | joined worker? fresh journal workers triggered => exact absurd triggered hkept
  | deed who consumer d worker fits journal workers triggered =>
    obtain hbefore | ⟨target, htarget, heq⟩ := (triggered handle).mp after
    · rw [before] at hbefore
      cases hbefore
    · cases d with
      | handle item results pushed =>
        refine ⟨who, consumer, item, results, pushed, worker, ⟨target, htarget, heq⟩, ?_⟩
        rw [journal, Deed.events, List.cons_append, List.append_assoc]
        rfl
      | takeStop => cases htarget
      | shutDown => cases htarget
      | cancelled => cases htarget

/-- In a turn a handle is triggered by a handler, or not at all. -/
theorem turn_triggers (hx : x.Orderly) {items : List Message} (holds : x.queue.ring.Holds items)
    (c : Conditions) {handle : HandleId} (before : x.isTriggered handle = false)
    (after : (x.turn c).isTriggered handle = true) : x.HandlerTriggers (x.turn c) handle := by
  cases hrunning : x.running with
  | none =>
    have hsame : (x.turn c).triggered = x.triggered := by
      unfold turn
      rw [hrunning]
      cases x.woken <;> rfl
    rw [isTriggered, hsame, ← isTriggered, before] at after
    cases after
  | some id =>
    rcases turn_cases c holds with
      h | ⟨-, move⟩ | ⟨id, task, consumer, deadline, runs, job, waited, -, move⟩
    · rw [h, before] at after
      cases after
    · exact (move.entry hx).triggers hrunning before after
    · have hstop := stopWaiting_keeps isTriggered c.readyFirst runs.task_eq consumer deadline rfl
        (fun _ _ _ _ => rfl)
      have horderly := hx.move (.stopWaiting c.readyFirst runs job waited)
      obtain ⟨noticed, hruns⟩ := runs_stopWaiting c.readyFirst runs consumer deadline
      have htriggers := (move.entry horderly).triggers hruns.running_eq (hstop ▸ before) after
      unfold HandlerTriggers at htriggers ⊢
      rwa [workers, aspect_worker.stopWaiting c.readyFirst runs.task_eq, ← workers,
        stopWaiting_keeps journal c.readyFirst runs.task_eq consumer deadline rfl
          (fun _ _ _ _ => rfl)] at htriggers

/-! ## §3 At rest -/

/-- At rest a consumer whose handle was triggered has ended. -/
theorem Orderly.ended_of_rest (hx : x.Orderly) (rest : x.atRest = true)
    (htask : x.tasks[id]? = some task) {consumer : Consumer} (job : task.job = .consume consumer)
    (triggered : x.isTriggered consumer.handle = true) : task.live = false := by
  obtain ⟨hfree, hwoken⟩ : x.running = none ∧ x.woken = [] := by simpa [atRest] using rest
  have hstill : ¬ x.IsRunnable id := by simp [IsRunnable, hfree, hwoken]
  have hplaced := hx.placed id
  rw [htask] at hplaced
  cases hplaced with
  | ended dead => exact dead
  | active _ _ _ _ runnable => exact absurd runnable hstill
  | listening _ _ _ listens => simp [job, Job.listens] at listens
  | queueing _ _ _ produces => simp [job, Job.message?] at produces
  | idling idles =>
    have hsame := idles.job
    rw [job, Job.consume.injEq] at hsame
    subst hsame
    exact absurd (idles.called (.inr triggered)) hstill

/-- A consumer that has ended was cancelled or has reported, with the stop message as its reason if
it took one and the shutdown if not. -/
theorem Registered.report (hx : x.Registered) {consumer : Consumer}
    (worker : x.workers[id]? = some (some (consumer, false))) :
    .cancelled id ∈ x.journal ∨ ∃ report, x.outcomesOf id = [.reported report] ∧
      (report.stoppedBy = .shutdown ↔ .removed (.task id) .stop ∉ x.journal) := by
  obtain ⟨fate, hlife, hlive, -⟩ := hx.lives id consumer false worker
  have hstop : .removed (.task id) .stop ∈ x.journal ↔ Message.stop ∈ fate.stops := by
    rw [← mem_takenBy, takenBy, hlife.taken_eq]
    simp
  cases fate with
  | working => cases hlive
  | cancelled => exact .inl (mem_own.mp (hlife.cancelled_iff.mpr rfl)).1
  | ended reason =>
    refine .inr ⟨consumer.report reason, hlife.outcomes_eq, ?_⟩
    rw [hstop]
    cases reason with
    | stopMessage => simp [Consumer.report, Fate.stops]
    | shutdown => simp [Consumer.report, Fate.stops]

/-! ## §4 Shutdown -/

/-- **A trigger ends the consumers of its handle**: it changes neither the messages nor the figures
of the queue. If it comes from a handler, its message was taken before and the call only pushes
after it. From the trigger on no consumer of the handle takes a message, and no handler of theirs is
called. At rest all of them have ended: they were cancelled or have reported, with the shutdown as
the reason unless they had taken a stop message. -/
theorem consumers_shut_down (h : x.Reachable) (handle : HandleId) :
    ((x.trigger handle).isTriggered handle = true ∧ (x.trigger handle).queue = x.queue ∧
      (x.trigger handle).journal = x.journal) ∧
    (∀ c, x.isTriggered handle = false → (x.turn c).isTriggered handle = true →
      x.HandlerTriggers (x.turn c) handle) ∧
    (x.isTriggered handle = true → ∀ y, x.Reaches y →
      y.isTriggered handle = true ∧
      ∃ since, y.journal = since ++ x.journal ∧
        ∀ id task consumer, y.tasks[id]? = some task → task.job = .consume consumer →
          consumer.handle = handle →
          (∀ message, .removed (.task id) message ∉ since) ∧
          ∀ item results complaint, .handled id item results complaint ∉ since) ∧
    (x.isTriggered handle = true → x.atRest = true →
      ∀ id task consumer, x.tasks[id]? = some task → task.job = .consume consumer →
        consumer.handle = handle →
        task.live = false ∧
        (.cancelled id ∈ x.journal ∨ ∃ report, x.outcomesOf id = [.reported report] ∧
          (report.stoppedBy = .shutdown ↔ .removed (.task id) .stop ∉ x.journal))) := by
  have hx := h.registered
  refine ⟨⟨(isTriggered_trigger x handle handle).mpr (.inr rfl), queue_trigger x handle,
    journal_trigger x handle⟩,
    fun c before after => turn_triggers hx.orderly h.holds c before after,
    fun triggered y run => ?_, fun triggered rest id task consumer htask job heq => ?_⟩
  · have hmoves := run.moves ⟨_, h.holds⟩
    obtain ⟨since, hsince⟩ := hx.journal_append hmoves
    exact ⟨hmoves.lasts.isTriggered triggered, since, hsince, fun id task consumer htask job heq =>
      hx.quiet_since hmoves (workers_of_job htask job) (heq ▸ triggered) hsince⟩
  · have hdead := hx.orderly.ended_of_rest rest htask job (heq ▸ triggered)
    have hworker := workers_of_job htask job
    rw [hdead] at hworker
    exact ⟨hdead, hx.report hworker⟩

/-- Of two consumers that share a handle one has its handler trigger it at the second of four items.
Both end, and the other items are left. -/
theorem consumers_shut_down_shared :
    let c : Conditions := ⟨.ofSlotBytes 16, true⟩
    let start := ofQueue ⟨"work", ⟨#[none, none], 0, 0, some 8⟩, .quiet, [], 0, 0, 0⟩
    let consume (label : String) :=
      Command.spawn label (.consume (some "h") 100 (Script.handler ⟨[2], [], [], []⟩) false)
    let waiting := (start.step c 20 [consume "v", consume "w"]).2
    let left := (waiting.step c 20 [.submitMany 1 4]).2
    left.queue.toList = [.data (.tagged 3), .data (.tagged 4)] ∧
    left.outcomesOf 0 = [.reported ⟨2, 0, .shutdown⟩] ∧
    left.outcomesOf 1 = [.reported ⟨0, 0, .shutdown⟩] ∧
    ∀ (id : TaskId) (task : Task) (consumer : Consumer), left.tasks[id]? = some task →
      task.job = .consume consumer → consumer.handle = .shared "h" → task.live = false := by
  intro c start consume waiting left
  have hmade : Queue.ofSettings c.memory ⟨"work", 2, some 8, 100⟩ = .ok start.queue := rfl
  have hwaiting : waiting.Reachable :=
    Reachable.step c 20 _ ⟨start.queue, .ofSettings hmade, .refl⟩ rfl
  have hleft : left.Reachable := hwaiting.step c 20 _ (by decide +kernel)
  obtain ⟨-, -, -, hrest⟩ := consumers_shut_down hleft (.shared "h")
  exact ⟨by decide +kernel, by decide +kernel, by decide +kernel, fun id task consumer htask job
    heq => (hrest (by decide +kernel) (by decide +kernel) id task consumer htask job heq).1⟩

end Executor

end Handoff
