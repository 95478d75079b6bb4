/-
Handoff.Proofs.Executor.Waiting — who waits where, whichever of the woken tasks runs next.

The executor runs the task that was woken first. For the waiter lists that order does not matter:
here the woken tasks may change places at any time, so any of them may run next
(`ReachesInAnyOrder`), and still all tasks stand where they should. So a task is on the lists that go
with what it waits for, each time once, and no list holds a task that is gone.

That a task is gone is said twice: by the task itself, which is not live any more, and by the
journal, which tells that it finished or was cancelled. Both say the same (`Chronicled`), since the
two ways to end write the one with the other (`Census`).

  §1 runs in any order   — `ReachesInAnyOrder`, `ReachableInAnyOrder.induction`
  §2 tasks that are gone — `Census`, `Move.census`, `Chronicled`
  §3 the waiter lists    — `ListsKept`, `RestsWhereItShould`, `waiter_lists_kept`
-/
import Handoff.Proofs.Executor.Entries

namespace Handoff

namespace Executor

variable {x y : Executor} {id : TaskId} {task : Task}

/-! ## §1 Runs in any order -/

/-- Some run leads from `x` to the other executor in which any of the woken tasks may run next: they
may change places at any time. -/
inductive ReachesInAnyOrder (x : Executor) : Executor → Prop where
  | refl : ReachesInAnyOrder x x
  | perform {y : Executor} (memory : Memory) (command : Command) :
      ReachesInAnyOrder x y → y.running = none → ReachesInAnyOrder x (y.perform memory command).2
  | turn {y : Executor} (c : Conditions) : ReachesInAnyOrder x y → ReachesInAnyOrder x (y.turn c)
  | reorder {y : Executor} {woken : List TaskId} :
      ReachesInAnyOrder x y → woken.Perm y.woken → ReachesInAnyOrder x { y with woken }

/-- Some run in any order that starts without tasks leads to the executor. -/
def ReachableInAnyOrder (x : Executor) : Prop :=
  ∃ q : Queue Message, q.Fresh ∧ (ofQueue q).ReachesInAnyOrder x

/-- A run in which nothing changes places is one in any order. -/
theorem ReachesInAnyOrder.extend {z : Executor} (h : x.ReachesInAnyOrder y) (run : y.Reaches z) :
    x.ReachesInAnyOrder z := by
  induction run with
  | refl => exact h
  | perform memory command _ free ih => exact ih.perform memory command free
  | turn c _ ih => exact ih.turn c

/-- What holds at the start, and is kept by every move and by every change of places, holds in every
run in any order. -/
theorem ReachableInAnyOrder.induction {P : Executor → Prop} (h : x.ReachableInAnyOrder)
    (start : ∀ q : Queue Message, q.Fresh → P (ofQueue q))
    (move : ∀ y z : Executor, P y → y.Move z → P z)
    (reorder : ∀ (y : Executor) (woken : List TaskId), woken.Perm y.woken → P y →
      P { y with woken }) : P x := by
  have hmoves : ∀ {y z : Executor}, y.Moves z → P y → P z := by
    intro y z moves hy
    induction moves with
    | refl => exact hy
    | tail _ hmove ih => exact move _ _ ih hmove
  obtain ⟨q, hq, hrun⟩ := h
  have hboth : (∃ items, x.queue.ring.Holds items) ∧ P x := by
    induction hrun with
    | refl => exact ⟨⟨[], holds_ofQueue hq⟩, start q hq⟩
    | perform memory command _ free ih =>
      obtain ⟨⟨items, hitems⟩, hP⟩ := ih
      have hcommand := (perform_moves memory hitems free command).1.moves
      exact ⟨hcommand.holds ⟨items, hitems⟩, hmoves hcommand hP⟩
    | turn c _ ih =>
      obtain ⟨⟨items, hitems⟩, hP⟩ := ih
      have hturn := turn_moves c hitems
      exact ⟨hturn.holds ⟨items, hitems⟩, hmoves hturn hP⟩
    | reorder _ perm ih => exact ⟨ih.1, reorder _ _ perm ih.2⟩
  exact hboth.2

/-- Where a task stands does not depend on when it gets to run. -/
theorem Orderly.reorder (hx : x.Orderly) {woken : List TaskId} (perm : woken.Perm x.woken) :
    Orderly { x with woken } :=
  ⟨hx.ready_nodup, hx.space_nodup, hx.idle_nodup, perm.nodup_iff.mpr hx.woken_nodup,
    fun i hi hmem => hx.running_fresh i hi (perm.mem_iff.mp hmem), hx.permit_alone,
    fun i => (hx.placed i).alike ⟨rfl, or_congr_left perm.mem_iff, Iff.rfl, Iff.rfl,
      fun _ => Iff.rfl⟩ fun _ => ⟨rfl, rfl⟩⟩

theorem ReachableInAnyOrder.orderly (h : x.ReachableInAnyOrder) : x.Orderly :=
  h.induction (fun _ hq => Queue.Fresh.orderly hq) (fun _ _ hy hmove => hy.move hmove)
    fun _ _ perm hy => hy.reorder perm

end Executor

/-! ## §2 Tasks that are gone -/

/-- The task of whose end the event tells. -/
def Event.leaver? : Event → Option TaskId
  | .finished id _ | .cancelled id => some id
  | .accepted _ _ | .removed _ _ | .handled _ _ _ _ => none

namespace Executor

variable {x y z : Executor} {id : TaskId} {task : Task}

/-- Which tasks are live, in order of creation. -/
def roll (x : Executor) : List Bool := x.tasks.map (·.live)

/-- The tasks of whose end the journal tells, last one first. -/
def leavers (x : Executor) : List TaskId := x.journal.filterMap Event.leaver?

/-- What a move is for who is there: nothing, a new task, or the end of one. -/
inductive Census (x y : Executor) : Prop where
  | same (roll : y.roll = x.roll) (leavers : y.leavers = x.leavers)
  | joined (roll : y.roll = x.roll ++ [true]) (leavers : y.leavers = x.leavers)
  | left (id : TaskId) (known : id < x.roll.length) (roll : y.roll = x.roll.set id false)
      (leavers : y.leavers = id :: x.leavers)

theorem aspect_live : Aspect Task.live := fun _ _ _ => rfl

theorem leavers_append (events : List Event) (journal : y.journal = events ++ x.journal)
    (stay : ∀ e ∈ events, e.leaver? = none) : y.leavers = x.leavers := by
  rw [leavers, journal, List.filterMap_append, List.filterMap_eq_nil_iff.mpr stay]
  rfl

theorem lt_length_roll (htask : x.tasks[id]? = some task) : id < x.roll.length := by
  rw [roll, List.length_map]
  exact (List.getElem?_eq_some_iff.mp htask).1

theorem roll_end (tasks : y.tasks = x.tasks.modify id fun t => { t with live := false })
    (htask : x.tasks[id]? = some task) : y.roll = x.roll.set id false := by
  rw [roll, tasks]
  exact map_modify_of_getElem? (·.live) _ htask

/-- A task finishes after what it does has neither brought nor ended a task. -/
theorem Census.finish {outcome : Outcome} (htask : x.tasks[id]? = some task)
    (roll : z.roll = x.roll) (leavers : z.leavers = x.leavers) :
    x.Census (z.finish id outcome) := by
  have hknown : id < x.roll.length := lt_length_roll htask
  obtain ⟨later, hlater⟩ : ∃ later, z.tasks[id]? = some later := by
    refine ⟨_, List.getElem?_eq_getElem ?_⟩
    rwa [← roll, Executor.roll, List.length_map] at hknown
  refine .left id hknown ?_ (congrArg (List.cons id) leavers)
  rw [← roll]
  exact roll_end rfl hlater

theorem push_census {memory : Memory} {actor : Actor} {message : Message}
    (accepted : x.push memory actor message = .ok y) :
    y.roll = x.roll ∧ y.leavers = x.leavers :=
  ⟨aspect_live.push accepted,
    leavers_append [.accepted actor message] (push_entry accepted).1
      (by simp [Event.leaver?])⟩

theorem leavers_taken (x : Executor) (actor : Actor) (messages : List Message)
    (ring : Ring Message) : (x.taken actor messages ring).leavers = x.leavers :=
  leavers_append (messages.map (Event.removed actor)).reverse rfl
    (by simp [Event.leaver?])

theorem Census.cancel (htask : x.tasks[id]? = some task) : x.Census (x.cancel id) := by
  have hjournal : (x.cancel id).journal = .cancelled id :: x.journal :=
    congrArg (List.cons _) (withdraw_keeps journal x id rfl (fun _ _ _ _ => rfl))
  have hwithdraw : (x.withdraw id).roll = x.roll := aspect_live.withdraw x id
  have hknown : id < x.roll.length := lt_length_roll htask
  obtain ⟨later, hlater⟩ : ∃ later, (x.withdraw id).tasks[id]? = some later := by
    refine ⟨_, List.getElem?_eq_getElem ?_⟩
    rwa [← hwithdraw, roll, List.length_map] at hknown
  refine .left id hknown ?_ ?_
  · rw [← hwithdraw]
    exact roll_end rfl hlater
  · rw [leavers, hjournal]
    rfl

/-- A handler neither brings nor ends a task. -/
theorem Census.handle (memory : Memory) (id : TaskId) (consumer : Consumer) (item : WorkItem)
    (actor : Actor) (messages : List Message) (ring : Ring Message) :
    x.Census ((x.taken actor messages ring).handle memory id consumer item) := by
  obtain ⟨⟨pushed, hjournal⟩, -⟩ := actAll_entry memory id consumer
    (consumer.react item).actions (x.taken actor messages ring)
  have hroll : (actAll memory id consumer (consumer.react item).actions
      (x.taken actor messages ring)).2.roll = x.roll :=
    aspect_live.actAll memory consumer _ _
  refine .same ?_ ?_
  · refine Eq.trans ?_ hroll
    exact map_modify_of_eq Task.live fun _ _ => rfl
  · refine (leavers_append (_ :: pushed.map (Event.accepted (.task id)))
      (congrArg (List.cons _) hjournal) ?_).trans (x.leavers_taken actor messages ring)
    simp [Event.leaver?]

/-- Every move is one of the three. -/
theorem Move.census (h : x.Move y) : x.Census y := by
  cases h with
  | callerPush _ accepted => exact .same (push_census accepted).1 (push_census accepted).2
  | callerTake => exact .same rfl (x.leavers_taken _ _ _)
  | add label duty =>
    rw [Executor.add, wake_eq]
    exact .joined (List.map_append ..) rfl
  | cancel _ found _ => exact .cancel found
  | callerTrigger handle =>
    rw [trigger_eq]
    exact .same rfl rfl
  | advance millis =>
    rw [Executor.advance, wakeAll_eq]
    exact .same rfl rfl
  | start => exact .same rfl rfl
  | vanish => exact .same rfl rfl
  | @receive id task message ring runs _ _ =>
    exact .finish runs.task_eq (aspect_live.heed x id) ((x.heed id).leavers_taken _ _ _)
  | @receiveAgain id => exact .same (aspect_live.heed x id) rfl
  | @receiveWait id => exact .same (aspect_live.heed x id) rfl
  | @ready id _ runs => exact .finish runs.task_eq (aspect_live.heed x id) rfl
  | readyAtOnce runs => exact .finish runs.task_eq rfl rfl
  | readyWait => exact .same rfl rfl
  | deliver runs _ accepted =>
    exact .finish runs.task_eq (push_census accepted).1 (push_census accepted).2
  | queueUp => exact .same rfl rfl
  | giveUp runs => exact .finish runs.task_eq rfl rfl
  | @stopWaiting id task consumer deadline readyFirst runs _ _ =>
    refine .same (aspect_live.stopWaiting readyFirst runs.task_eq consumer deadline) ?_
    exact stopWaiting_keeps leavers readyFirst runs.task_eq consumer deadline rfl
      (fun _ _ _ _ => rfl)
  | shutDown runs => exact .finish runs.task_eq rfl rfl
  | takeStop runs => exact .finish runs.task_eq rfl (x.leavers_taken _ _ _)
  | handle => exact .handle _ _ _ _ _ _ _
  | consumeAgain => exact .same rfl rfl
  | @consumeWait id task consumer => exact .same (aspect_live.awaitAny x id consumer) rfl

/-- The tasks that are not live any more are those of whose end the journal tells. -/
def Chronicled (x : Executor) : Prop := ∀ id, x.roll[id]? = some false ↔ id ∈ x.leavers

theorem Chronicled.move (hx : x.Chronicled) (h : x.Move y) : y.Chronicled := by
  intro id
  cases h.census with
  | same roll leavers =>
    rw [roll, leavers]
    exact hx id
  | joined roll leavers =>
    rw [roll, leavers, ← hx id, List.getElem?_append]
    split
    · exact Iff.rfl
    · next hge =>
      rw [List.getElem?_eq_none (Nat.le_of_not_lt hge)]
      cases id - x.roll.length <;> simp
  | left gone known roll leavers =>
    rw [roll, leavers, List.mem_cons, ← hx id, List.getElem?_set]
    split
    · next heq => simp [← heq, known]
    · next hne => simp [Ne.symm hne]

theorem ReachableInAnyOrder.chronicled (h : x.ReachableInAnyOrder) : x.Chronicled := by
  refine h.induction (fun q hq => ?_) (fun _ _ hy hmove => hy.move hmove) fun _ _ _ hy => hy
  intro id
  simp [ofQueue, roll, leavers]

/-- The journal tells of no end of a live task. -/
theorem Chronicled.not_mem_of_live (hx : x.Chronicled) (htask : x.tasks[id]? = some task)
    (live : task.live = true) : id ∉ x.leavers := by
  rw [← hx id, roll, List.getElem?_map, htask, Option.map_some, live]
  simp

/-! ## §3 The waiter lists -/

/-- The task is on some list. -/
def IsListed (x : Executor) (id : TaskId) : Prop :=
  id ∈ x.queue.ready.waiters ∨ id ∈ x.queue.space ∨ ∃ handle, (handle, id) ∈ x.idle

/-- What the waiter lists owe at any time. -/
structure ListsKept (x : Executor) : Prop where
  /-- A permit is kept only while nobody waits for it. -/
  permit_alone : x.queue.ready.permit = true → x.queue.ready.waiters = []
  ready_nodup : x.queue.ready.waiters.Nodup
  space_nodup : x.queue.space.Nodup
  /-- Nobody is twice on the list of a handle, or on those of two. -/
  idle_nodup : (x.idle.map (·.2)).Nodup
  /-- Whoever waits has neither finished nor been cancelled. -/
  live : ∀ id, x.IsListed id → ∃ task, x.tasks[id]? = some task ∧ task.live = true ∧
    (∀ outcome, .finished id outcome ∉ x.journal) ∧ .cancelled id ∉ x.journal
  /-- Whoever waits for `ready` holds no notification. -/
  heeded : ∀ id ∈ x.queue.ready.waiters, x.isNoticed id = false

/-- The task is on exactly the lists that go with its job: `ready` for one that listens, `space` for
a producer, and for a consumer `ready` and the list of its own handle. A consumer has a deadline
then, which is still to come unless it gives itself no time at all; checked settings give it some. -/
def RestsWhereItShould (x : Executor) (id : TaskId) (task : Task) : Prop :=
  match task.job with
  | .receive | .awaitReady => x.Lists id True False fun _ => False
  | .push _ | .submit _ | .stop => x.Lists id False True fun _ => False
  | .consume consumer => x.Lists id True False (fun handle => handle = consumer.handle) ∧
      ∃ deadline, task.deadline = some deadline ∧
        (0 < consumer.pollInterval → x.clock < deadline)

/-- Who is on a list is live. -/
theorem Placed.live_of_listed {task? : Option Task} (h : x.Placed id task?)
    (listed : x.IsListed id) : ∃ task, task? = some task ∧ task.live = true := by
  have hoff : ¬ x.Off id := by
    intro off
    rcases listed with hready | hspace | ⟨handle, hidle⟩
    · exact off.ready_iff.mp hready
    · exact off.space_iff.mp hspace
    · exact (off.idle_iff handle).mp hidle
  cases h with
  | absent off => exact absurd off hoff
  | ended _ _ _ off => exact absurd off hoff
  | active _ _ _ off => exact absurd off hoff
  | listening live => exact ⟨_, rfl, live⟩
  | queueing live => exact ⟨_, rfl, live⟩
  | idling idles => exact ⟨_, rfl, idles.live⟩

theorem Orderly.listsKept (hx : x.Orderly) (told : x.Chronicled) : x.ListsKept := by
  refine ⟨hx.permit_alone, hx.ready_nodup, hx.space_nodup, hx.idle_nodup, ?_, ?_⟩
  · intro id listed
    obtain ⟨task, htask, live⟩ := (hx.placed id).live_of_listed listed
    have hnot := told.not_mem_of_live htask live
    refine ⟨task, htask, live, fun outcome hmem => hnot ?_, fun hmem => hnot ?_⟩
    · exact List.mem_filterMap.mpr ⟨_, hmem, rfl⟩
    · exact List.mem_filterMap.mpr ⟨_, hmem, rfl⟩
  · intro id hid
    obtain ⟨task, htask, -, heeded⟩ := (hx.placed id).waiter hid
    rw [isNoticed_eq htask, heeded]

/-- An idle consumer that is not to run has not been called: it is on both its lists. -/
theorem Idles.still {consumer : Consumer} {deadline : Nat} (h : x.Idles id task consumer deadline)
    (still : ¬ x.IsRunnable id) :
    x.Lists id True False (fun handle => handle = consumer.handle) ∧
      (0 < consumer.pollInterval → x.clock < deadline) := by
  have hheeded : task.noticed = false := by
    rw [← Bool.not_eq_true]
    exact fun told => still (h.called (.inl told))
  have huntriggered : x.isTriggered consumer.handle = false := by
    rw [← Bool.not_eq_true]
    exact fun triggered => still (h.called (.inr triggered))
  refine ⟨⟨h.lists.ready_iff.trans (iff_true_intro hheeded), h.lists.space_iff, fun handle => ?_⟩,
    fun pos => ?_⟩
  · rw [h.lists.idle_iff]
    exact ⟨And.left, fun heq => ⟨heq, heq ▸ huntriggered⟩⟩
  · by_contra hdue
    rcases h.due (Nat.le_of_not_lt hdue) with runnable | hzero
    · exact still runnable
    · omega

/-- A live task that is not to run is on the lists that go with its job. -/
theorem Placed.restsWhereItShould (h : x.Placed id (some task)) (live : task.live = true)
    (still : ¬ x.IsRunnable id) : x.RestsWhereItShould id task := by
  unfold RestsWhereItShould
  cases h with
  | ended dead =>
    rw [live] at dead
    cases dead
  | active _ _ _ _ runnable => exact absurd runnable still
  | listening _ _ _ listens lists =>
    cases hjob : task.job with
    | receive => exact lists
    | awaitReady => exact lists
    | push => simp [hjob, Job.listens] at listens
    | submit => simp [hjob, Job.listens] at listens
    | stop => simp [hjob, Job.listens] at listens
    | consume => simp [hjob, Job.listens] at listens
  | queueing _ _ _ produces lists =>
    cases hjob : task.job with
    | push => exact lists
    | submit => exact lists
    | stop => exact lists
    | receive => simp [hjob, Job.message?] at produces
    | awaitReady => simp [hjob, Job.message?] at produces
    | consume => simp [hjob, Job.message?] at produces
  | idling idles =>
    obtain ⟨hlists, hdue⟩ := idles.still still
    rw [idles.job]
    exact ⟨hlists, _, idles.waits, hdue⟩

theorem still_of_rest (rest : x.atRest = true) : ¬ x.IsRunnable id := by
  obtain ⟨hfree, hwoken⟩ : x.running = none ∧ x.woken = [] := by simpa [atRest] using rest
  simp [IsRunnable, hfree, hwoken]

/-- **Everybody waits where they should**, whichever of the woken tasks runs next: a permit is kept
only while nobody waits for `ready`, nobody is on a list twice, and only live tasks are on lists. And
when no task is left to run, every live task is on exactly the lists that go with its job. -/
theorem waiter_lists_kept (h : x.ReachableInAnyOrder) :
    x.ListsKept ∧ (x.atRest = true → ∀ id task, x.tasks[id]? = some task → task.live = true →
      x.RestsWhereItShould id task) := by
  have horderly := h.orderly
  refine ⟨horderly.listsKept h.chronicled, fun rest id task htask live => ?_⟩
  have hplaced := horderly.placed id
  rw [htask] at hplaced
  exact hplaced.restsWhereItShould live (still_of_rest rest)

/-- A task that only wants to be told gets the notification of an item that then fills the queue to
its ceiling, one receiver is cancelled and the consumer `w` is shut down; those that were woken run
last come first. What is left waits, each where it should: on `ready` a receiver, two consumers and
a task that wants to be told, the consumers on the lists of their handles as well, and a producer on
`space`. -/
theorem waiter_lists_kept_reversed :
    let c : Conditions := ⟨.ofSlotBytes 16, false⟩
    let start := ofQueue ⟨"work", ⟨#[none, none], 0, 0, some 2⟩, .quiet, [], 0, 0, 0⟩
    let consume (label : String) (shared : Option String) :=
      Command.spawn label (.consume shared 10 (fun _ _ => ⟨[], none⟩) false)
    let asleep := (start.step c 40 [.spawn "b" .awaitReady, .spawn "r" .receive,
      .spawn "s" .receive, consume "u" (some "h"), consume "v" none, consume "w" (some "k"),
      .spawn "d" .awaitReady]).2
    let called := (performAll c.memory [.submit (.tagged 7) none, .cancel "s",
      .spawn "p" (.submit (.tagged 8)), .trigger (.shared "k")] asleep).2
    let left := ({ called with woken := called.woken.reverse } : Executor).settle c 40
    left.ReachableInAnyOrder ∧ left.atRest = true ∧
      called.woken = [0, 7, 5] ∧ left.pending = ["r", "u", "v", "d", "p"] ∧
      left.queue.ready.waiters = [1, 3, 4, 6] ∧ left.queue.space = [7] ∧
      left.idle = [(.shared "h", 3), (.own 4, 4)] ∧ left.leavers = [0, 5, 2] ∧ left.ListsKept ∧
      ∀ id task, left.tasks[id]? = some task → task.live = true →
        left.RestsWhereItShould id task := by
  intro c start consume asleep called left
  have hmade : Queue.ofSettings c.memory ⟨"work", 2, some 2, 10⟩ = .ok start.queue := rfl
  have hasleep : asleep.Reachable :=
    Reachable.step c 40 _ ⟨start.queue, .ofSettings hmade, .refl⟩ rfl
  obtain ⟨q, hq, hcalled⟩ : called.Reachable := hasleep.performAll c.memory _ (by decide +kernel)
  have hleft : left.ReachableInAnyOrder :=
    ⟨q, hq, ((ReachesInAnyOrder.refl.extend hcalled).reorder (List.reverse_perm _)).extend
      (Reaches.refl.settle c 40)⟩
  have hrest : left.atRest = true := by decide +kernel
  obtain ⟨hkept, hwaits⟩ := waiter_lists_kept hleft
  exact ⟨hleft, hrest, by decide +kernel, by decide +kernel, by decide +kernel, by decide +kernel,
    by decide +kernel, by decide +kernel, hkept, hwaits hrest⟩

end Executor

end Handoff
