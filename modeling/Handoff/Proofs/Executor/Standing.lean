/-
Handoff.Proofs.Executor.Standing — where every task stands.

A task is on the lists that go with what it waits for, and on no other. One that runs or is woken is
on none, except a consumer: that one stays on the lists of what has not happened yet until it gets
to run. One that ended is nowhere. `Placed` says this of one task and `Orderly` of all, together
with what the lists themselves owe: nobody is on one twice, and a permit is kept only while nobody
waits for it.

An operation concerns one task, which it puts somewhere else, or those on one list, which it wakes.
All other tasks stand where they stood (`Alike`).

  §1 where a task stands        — `Lists`, `Placed`, `Orderly`
  §2 tasks that are left alone  — `Alike`
  §3 waking for the queue       — `Orderly.taken`, `Orderly.notifyReady`, `Orderly.push`
  §4 waking idle consumers      — `Orderly.trigger`, `Orderly.advance`
-/
import Handoff.Proofs.Executor.Move

namespace Handoff

/-- Whether the job is one that waits for `ready` alone. -/
def Job.listens : Job → Bool
  | .receive | .awaitReady => true
  | _ => false

/-- A producer neither listens nor consumes. -/
theorem Job.not_of_message {job : Job} {message : Message} (h : job.message? = some message) :
    job.listens = false ∧ ∀ consumer, job ≠ .consume consumer := by
  cases job with
  | push => exact ⟨rfl, fun _ h => by cases h⟩
  | submit => exact ⟨rfl, fun _ h => by cases h⟩
  | stop => exact ⟨rfl, fun _ h => by cases h⟩
  | receive => cases h
  | awaitReady => cases h
  | consume => cases h

namespace Executor

/-! ## §1 Where a task stands -/

/-- The task runs, or is to run. -/
def IsRunnable (x : Executor) (id : TaskId) : Prop := id ∈ x.woken ∨ x.running = some id

/-- On which lists a task is. -/
structure Lists (x : Executor) (id : TaskId) (ready space : Prop) (idle : HandleId → Prop) :
    Prop where
  ready_iff : id ∈ x.queue.ready.waiters ↔ ready
  space_iff : id ∈ x.queue.space ↔ space
  idle_iff : ∀ handle, (handle, id) ∈ x.idle ↔ idle handle

/-- The task is on no list. -/
abbrev Off (x : Executor) (id : TaskId) : Prop := x.Lists id False False fun _ => False

/-- A consumer waits, or has been called and not got to run yet. It is off `ready` once it is told,
off the list of its handle once that was triggered, and woken by either; and it is woken when its
time has come, unless it gives itself no time at all. -/
structure Idles (x : Executor) (id : TaskId) (task : Task) (consumer : Consumer) (deadline : Nat) :
    Prop where
  live : task.live = true
  job : task.job = .consume consumer
  waits : task.deadline = some deadline
  lists : x.Lists id (task.noticed = false) False fun handle =>
    handle = consumer.handle ∧ x.isTriggered handle = false
  called : task.noticed = true ∨ x.isTriggered consumer.handle = true → x.IsRunnable id
  due : deadline ≤ x.clock → x.IsRunnable id ∨ consumer.pollInterval = 0

/-- A task, or the absence of one, stands where it should. -/
inductive Placed (x : Executor) (id : TaskId) : Option Task → Prop where
  | absent (off : x.Off id) (still : ¬ x.IsRunnable id) : Placed x id none
  | ended {task : Task} (dead : task.live = false) (awake : task.deadline = none)
      (heeded : task.noticed = false) (off : x.Off id) (still : ¬ x.IsRunnable id) :
      Placed x id (some task)
  /-- It is to run and waits for nothing. -/
  | active {task : Task} (live : task.live = true) (awake : task.deadline = none)
      (told : task.noticed = true → task.job.listens = true) (off : x.Off id)
      (runnable : x.IsRunnable id) : Placed x id (some task)
  | listening {task : Task} (live : task.live = true) (awake : task.deadline = none)
      (heeded : task.noticed = false) (listens : task.job.listens = true)
      (lists : x.Lists id True False fun _ => False) (still : ¬ x.IsRunnable id) :
      Placed x id (some task)
  | queueing {task : Task} (live : task.live = true) (awake : task.deadline = none)
      (heeded : task.noticed = false) (produces : task.job.message?.isSome = true)
      (lists : x.Lists id False True fun _ => False) (still : ¬ x.IsRunnable id) :
      Placed x id (some task)
  | idling {task : Task} {consumer : Consumer} {deadline : Nat}
      (idles : x.Idles id task consumer deadline) : Placed x id (some task)

/-- All tasks stand where they should, and nobody is on a list twice. -/
structure Orderly (x : Executor) : Prop where
  ready_nodup : x.queue.ready.waiters.Nodup
  space_nodup : x.queue.space.Nodup
  idle_nodup : (x.idle.map (·.2)).Nodup
  woken_nodup : x.woken.Nodup
  running_fresh : ∀ id, x.running = some id → id ∉ x.woken
  permit_alone : x.queue.ready.permit = true → x.queue.ready.waiters = []
  placed : ∀ id, x.Placed id x.tasks[id]?

variable {x y : Executor} {id : TaskId}

/-! ## §2 Tasks that are left alone -/

/-- Nothing changes for a task. -/
structure Alike (x y : Executor) (id : TaskId) : Prop where
  task_eq : y.tasks[id]? = x.tasks[id]?
  runnable_iff : y.IsRunnable id ↔ x.IsRunnable id
  ready_iff : id ∈ y.queue.ready.waiters ↔ id ∈ x.queue.ready.waiters
  space_iff : id ∈ y.queue.space ↔ id ∈ x.queue.space
  idle_iff : ∀ handle, (handle, id) ∈ y.idle ↔ (handle, id) ∈ x.idle

theorem Lists.alike {ready space : Prop} {idle : HandleId → Prop}
    (h : x.Lists id ready space idle) (same : x.Alike y id) : y.Lists id ready space idle :=
  ⟨same.ready_iff.trans h.ready_iff, same.space_iff.trans h.space_iff,
    fun handle => (same.idle_iff handle).trans (h.idle_iff handle)⟩

/-- A task that is left alone stays where it is; for an idle consumer the time and the triggered
handles matter too. -/
theorem Placed.alike {task? : Option Task} (h : x.Placed id task?) (same : x.Alike y id)
    (now : (∃ task ∈ task?, task.deadline ≠ none) → y.triggered = x.triggered ∧ y.clock = x.clock) :
    y.Placed id task? := by
  cases h with
  | absent off still => exact .absent (off.alike same) (same.runnable_iff.not.mpr still)
  | ended dead awake heeded off still =>
    exact .ended dead awake heeded (off.alike same) (same.runnable_iff.not.mpr still)
  | active live awake told off runnable =>
    exact .active live awake told (off.alike same) (same.runnable_iff.mpr runnable)
  | listening live awake heeded listens lists still =>
    exact .listening live awake heeded listens (lists.alike same) (same.runnable_iff.not.mpr still)
  | queueing live awake heeded produces lists still =>
    exact .queueing live awake heeded produces (lists.alike same)
      (same.runnable_iff.not.mpr still)
  | idling idles =>
    obtain ⟨live, job, waits, lists, called, due⟩ := idles
    obtain ⟨htriggered, hclock⟩ := now ⟨_, rfl, by simp [waits]⟩
    have heq : y.isTriggered = x.isTriggered := by
      funext handle
      rw [isTriggered, isTriggered, htriggered]
    refine .idling ⟨live, job, waits, ?_, ?_, ?_⟩
    · rw [heq]
      exact lists.alike same
    · rw [heq]
      exact fun h => same.runnable_iff.mpr (called h)
    · rw [hclock]
      exact fun h => (due h).imp_left same.runnable_iff.mpr

/-- When one task is put elsewhere and all others are left alone, all stand where they should. -/
theorem Orderly.placed_of_others (hx : x.Orderly) (id : TaskId)
    (others : ∀ i, i ≠ id → x.Alike y i) (triggered : y.triggered = x.triggered)
    (clock : y.clock = x.clock) (own : y.Placed id y.tasks[id]?) (i : TaskId) :
    y.Placed i y.tasks[i]? := by
  by_cases h : i = id
  · rw [h]
    exact own
  · rw [(others i h).task_eq]
    exact (hx.placed i).alike (others i h) fun _ => ⟨triggered, clock⟩

/-! ## §3 Waking for the queue -/

/-- A task that waits for room is a producer that is not to run. -/
theorem Placed.queued {task? : Option Task} (h : x.Placed id task?) (hid : id ∈ x.queue.space) :
    ∃ task, task? = some task ∧ task.live = true ∧ task.deadline = none ∧ task.noticed = false ∧
      x.Lists id False True (fun _ => False) ∧ ¬ x.IsRunnable id := by
  cases h with
  | absent off => exact (off.space_iff.mp hid).elim
  | ended _ _ _ off => exact (off.space_iff.mp hid).elim
  | active _ _ _ off => exact (off.space_iff.mp hid).elim
  | listening _ _ _ _ lists => exact (lists.space_iff.mp hid).elim
  | queueing live awake heeded _ lists still => exact ⟨_, rfl, live, awake, heeded, lists, still⟩
  | idling idles => exact (idles.lists.space_iff.mp hid).elim

/-- A task that does not wait for its time waits for no handle. -/
theorem Placed.not_idle {task? : Option Task} (h : x.Placed id task?)
    (awake : ∀ task ∈ task?, task.deadline = none) (handle : HandleId) : (handle, id) ∉ x.idle := by
  cases h with
  | absent off => exact (off.idle_iff handle).mp
  | ended _ _ _ off => exact (off.idle_iff handle).mp
  | active _ _ _ off => exact (off.idle_iff handle).mp
  | listening _ _ _ _ lists => exact (lists.idle_iff handle).mp
  | queueing _ _ _ _ lists => exact (lists.idle_iff handle).mp
  | idling idles =>
    have hnone := awake _ rfl
    rw [idles.waits] at hnone
    cases hnone

/-- Only idle consumers wait for their time. -/
theorem Placed.awake_or_idles {task? : Option Task} (h : x.Placed id task?) :
    (∀ task ∈ task?, task.deadline = none) ∨
      ∃ task consumer deadline, task? = some task ∧ x.Idles id task consumer deadline := by
  cases h with
  | absent => exact .inl (fun _ h => by cases h)
  | ended _ awake => exact .inl (fun _ h => by cases h; exact awake)
  | active _ awake => exact .inl (fun _ h => by cases h; exact awake)
  | listening _ awake => exact .inl (fun _ h => by cases h; exact awake)
  | queueing _ awake => exact .inl (fun _ h => by cases h; exact awake)
  | idling idles => exact .inr ⟨_, _, _, rfl, idles⟩

/-- Taking messages wakes the producers that wait for room and leaves all others alone. -/
theorem Orderly.taken (hx : x.Orderly) (actor : Actor) (messages : List Message)
    (ring : Ring Message) : (x.taken actor messages ring).Orderly := by
  have hrun : ∀ i, (x.taken actor messages ring).IsRunnable i ↔
      x.IsRunnable i ∨ i ∈ x.queue.space := by
    intro i
    show (i ∈ x.queue.space.foldl enlist x.woken ∨ x.running = some i) ↔
      (i ∈ x.woken ∨ x.running = some i) ∨ i ∈ x.queue.space
    rw [mem_foldl_enlist]
    tauto
  have hspace : ∀ i, i ∉ (x.taken actor messages ring).queue.space := fun _ => List.not_mem_nil
  refine ⟨hx.ready_nodup, .nil, hx.idle_nodup, nodup_foldl_enlist hx.woken_nodup _, ?_,
    hx.permit_alone, fun i => ?_⟩
  · intro i hrunning hmem
    rcases mem_foldl_enlist.mp hmem with h | h
    · exact hx.running_fresh i hrunning h
    · obtain ⟨_, _, _, _, _, _, still⟩ := (hx.placed i).queued h
      exact still (.inr hrunning)
  · by_cases hi : i ∈ x.queue.space
    · obtain ⟨task, htask, live, awake, heeded, lists, -⟩ := (hx.placed i).queued hi
      show (x.taken actor messages ring).Placed i x.tasks[i]?
      rw [htask]
      exact .active live awake (fun h => absurd h (by simp [heeded]))
        ⟨lists.ready_iff, iff_false_intro (hspace i), lists.idle_iff⟩ ((hrun i).mpr (.inr hi))
    · exact (hx.placed i).alike ⟨rfl, (hrun i).trans (or_iff_left hi), Iff.rfl,
        iff_of_false (hspace i) hi, fun _ => Iff.rfl⟩ fun _ => ⟨rfl, rfl⟩

/-- Neither the messages nor the journal matter for where tasks stand. -/
theorem Orderly.of_same_tasks (hx : x.Orderly) {ring : Ring Message} {pushed popped grows : UInt64}
    {journal : List Event} :
    Orderly { x with queue := { x.queue with ring, pushed, popped, grows }, journal } :=
  ⟨hx.ready_nodup, hx.space_nodup, hx.idle_nodup, hx.woken_nodup, hx.running_fresh,
    hx.permit_alone, fun i => (hx.placed i).alike
      ⟨rfl, Iff.rfl, Iff.rfl, Iff.rfl, fun _ => Iff.rfl⟩ fun _ => ⟨rfl, rfl⟩⟩

/-- Spending the permit concerns no task. -/
theorem Orderly.spend (hx : x.Orderly) : (x.withReady x.queue.ready.spend).Orderly :=
  ⟨hx.ready_nodup, hx.space_nodup, hx.idle_nodup, hx.woken_nodup, hx.running_fresh,
    fun h => absurd h (by simp [withReady, Signal.spend]), fun i => (hx.placed i).alike
      ⟨rfl, Iff.rfl, Iff.rfl, Iff.rfl, fun _ => Iff.rfl⟩ fun _ => ⟨rfl, rfl⟩⟩

/-- Only a task that exists and has not ended is to run. -/
theorem Placed.live {task? : Option Task} (h : x.Placed id task?) (runnable : x.IsRunnable id) :
    ∃ task, task? = some task ∧ task.live = true := by
  cases h with
  | absent _ still => exact absurd runnable still
  | ended _ _ _ _ still => exact absurd runnable still
  | active live => exact ⟨_, rfl, live⟩
  | listening live => exact ⟨_, rfl, live⟩
  | queueing live => exact ⟨_, rfl, live⟩
  | idling idles => exact ⟨_, rfl, idles.live⟩

/-- A task that holds a notification is to run. -/
theorem Placed.runnable {task : Task} (h : x.Placed id (some task)) (told : task.noticed = true) :
    x.IsRunnable id := by
  cases h with
  | ended _ _ heeded => simp [heeded] at told
  | active _ _ _ _ runnable => exact runnable
  | listening _ _ heeded => simp [heeded] at told
  | queueing _ _ heeded => simp [heeded] at told
  | idling idles => exact idles.called (.inl told)

/-- A task that has not ended and is not to run waits for `ready`, unless it is a producer. -/
theorem Placed.waits {task : Task} (h : x.Placed id (some task)) (live : task.live = true)
    (still : ¬ x.IsRunnable id) (job : task.job.message? = none) :
    id ∈ x.queue.ready.waiters := by
  cases h with
  | ended dead => simp [dead] at live
  | active _ _ _ _ runnable => exact absurd runnable still
  | listening _ _ _ _ lists => exact lists.ready_iff.mpr trivial
  | queueing _ _ _ produces => simp [job] at produces
  | idling idles =>
    rw [idles.lists.ready_iff, ← Bool.not_eq_true]
    exact fun told => still (idles.called (.inl told))

/-- A task that waits for `ready` holds no notification. -/
theorem Placed.waiter {task? : Option Task} (h : x.Placed id task?)
    (hid : id ∈ x.queue.ready.waiters) :
    ∃ task, task? = some task ∧ task.live = true ∧ task.noticed = false := by
  cases h with
  | absent off => exact (off.ready_iff.mp hid).elim
  | ended _ _ _ off => exact (off.ready_iff.mp hid).elim
  | active _ _ _ off => exact (off.ready_iff.mp hid).elim
  | listening live _ heeded => exact ⟨_, rfl, live, heeded⟩
  | queueing _ _ _ _ lists => exact (lists.ready_iff.mp hid).elim
  | idling idles => exact ⟨_, rfl, idles.live, idles.lists.ready_iff.mp hid⟩

/-- The task that `ready` chooses holds the notification then and is to run. -/
theorem Placed.chosen {rest : List TaskId} {task? : Option Task} (h : x.Placed id task?)
    (hwaiters : x.queue.ready.waiters = id :: rest) (hid : id ∉ rest) :
    ((x.withReady ⟨rest, x.queue.ready.permit⟩).notice id).Placed id
      (task?.map fun t => { t with noticed := true }) := by
  have hwaits : id ∈ x.queue.ready.waiters := by
    rw [hwaiters]
    exact List.mem_cons_self
  have hrun : ((x.withReady ⟨rest, x.queue.ready.permit⟩).notice id).IsRunnable id := by
    rw [notice_eq]
    exact .inl (mem_enlist.mpr (.inr rfl))
  rw [notice_eq] at hrun ⊢
  cases h with
  | absent off => exact (off.ready_iff.mp hwaits).elim
  | ended _ _ _ off => exact (off.ready_iff.mp hwaits).elim
  | active _ _ _ off => exact (off.ready_iff.mp hwaits).elim
  | listening live awake heeded listens lists =>
    exact .active live awake (fun _ => listens)
      ⟨iff_false_intro hid, lists.space_iff, lists.idle_iff⟩ hrun
  | queueing _ _ _ _ lists => exact (lists.ready_iff.mp hwaits).elim
  | idling idles =>
    exact .idling ⟨idles.live, idles.job, idles.waits,
      ⟨iff_of_false hid (by simp), idles.lists.space_iff, idles.lists.idle_iff⟩,
      fun _ => hrun, fun _ => .inl hrun⟩

/-- A notification concerns the oldest waiter of `ready` alone, or nobody. -/
theorem Orderly.notifyReady (hx : x.Orderly)
    (hrunning : ∀ i, x.running = some i → i ∉ x.queue.ready.waiters) : x.notifyReady.Orderly := by
  cases hwaiters : x.queue.ready.waiters with
  | nil =>
    rw [notifyReady_nil hwaiters]
    refine ⟨.nil, hx.space_nodup, hx.idle_nodup, hx.woken_nodup, hx.running_fresh, fun _ => rfl,
      fun i => (hx.placed i).alike ⟨rfl, Iff.rfl, ?_, Iff.rfl, fun _ => Iff.rfl⟩
        fun _ => ⟨rfl, rfl⟩⟩
    rw [hwaiters]
    rfl
  | cons id rest =>
    have hnodup := hx.ready_nodup
    rw [hwaiters, List.nodup_cons] at hnodup
    have hfresh : x.running ≠ some id := by
      intro h
      exact hrunning id h (by rw [hwaiters]; exact List.mem_cons_self)
    have hchosen := (hx.placed id).chosen hwaiters hnodup.1
    rw [notifyReady_cons hwaiters]
    rw [notice_eq] at hchosen ⊢
    refine ⟨hnodup.2, hx.space_nodup, hx.idle_nodup, nodup_enlist hx.woken_nodup id, ?_, ?_,
      hx.placed_of_others id (fun i hi => ⟨?_, ?_, ?_, Iff.rfl, fun _ => Iff.rfl⟩) rfl rfl ?_⟩
    · intro i hi hmem
      rcases mem_enlist.mp hmem with h | rfl
      · exact hx.running_fresh i hi h
      · exact hfresh hi
    · intro hpermit
      have hnone := hx.permit_alone hpermit
      rw [hwaiters] at hnone
      cases hnone
    · exact List.getElem?_modify_ne _ _ (Ne.symm hi)
    · exact or_congr_left (mem_enlist.trans (or_iff_left hi))
    · rw [hwaiters, List.mem_cons]
      exact (or_iff_right hi).symm
    · have htask : (x.tasks.modify id fun t => { t with noticed := true })[id]? =
          x.tasks[id]?.map fun t => { t with noticed := true } := List.getElem?_modify_eq ..
      show Placed _ id (x.tasks.modify id _)[id]?
      rw [htask]
      exact hchosen

/-- An accepted push notifies `ready` and does nothing else to the tasks. -/
theorem Orderly.push {memory : Memory} {actor : Actor} {message : Message} (hx : x.Orderly)
    (hrunning : ∀ i, x.running = some i → i ∉ x.queue.ready.waiters)
    (h : x.push memory actor message = .ok y) : y.Orderly := by
  obtain ⟨placement, ring, -, rfl⟩ := push_ok h
  have hstored : (x.stored actor message placement ring).Orderly := hx.of_same_tasks
  exact hstored.notifyReady hrunning

/-! ## §4 Waking idle consumers -/

theorem isTriggered_trigger (x : Executor) (handle other : HandleId) :
    (x.trigger handle).isTriggered other = true ↔ x.isTriggered other = true ∨ other = handle := by
  rw [trigger_eq]
  unfold isTriggered
  split
  · next h =>
    rw [List.contains_iff_mem] at h ⊢
    constructor
    · exact .inl
    · rintro (h' | rfl)
      · exact h'
      · exact h
  · simp [or_comm]

/-- The executor that has woken idle consumers, because of a trigger or because time has passed. -/
def roused (x : Executor) (ids : List TaskId) (idle : List (HandleId × TaskId))
    (triggered : List HandleId) (clock : Nat) : Executor :=
  { x with woken := ids.foldl enlist x.woken, idle, triggered, clock }

theorem isRunnable_roused {ids : List TaskId} {idle : List (HandleId × TaskId)}
    {triggered : List HandleId} {clock : Nat} :
    (x.roused ids idle triggered clock).IsRunnable id ↔ x.IsRunnable id ∨ id ∈ ids := by
  unfold IsRunnable roused
  rw [mem_foldl_enlist]
  tauto

/-- It is enough to look at the idle consumers when only such are woken. -/
theorem Orderly.roused (hx : x.Orderly) {ids : List TaskId} {idle : List (HandleId × TaskId)}
    {triggered : List HandleId} {clock : Nat} (hidle : idle.Sublist x.idle)
    (fresh : ∀ i, x.running = some i → i ∉ ids)
    (asleep : ∀ i ∈ ids, ∃ task ∈ x.tasks[i]?, task.deadline ≠ none)
    (idles : ∀ i task consumer deadline, x.tasks[i]? = some task →
      x.Idles i task consumer deadline →
        (x.roused ids idle triggered clock).Idles i task consumer deadline) :
    (x.roused ids idle triggered clock).Orderly := by
  refine ⟨hx.ready_nodup, hx.space_nodup, hx.idle_nodup.sublist (hidle.map _),
    nodup_foldl_enlist hx.woken_nodup _, fun i hi hmem => ?_, hx.permit_alone, fun i => ?_⟩
  · rcases mem_foldl_enlist.mp hmem with h | h
    · exact hx.running_fresh i hi h
    · exact fresh i hi h
  · have hplaced := hx.placed i
    show (x.roused ids idle triggered clock).Placed i x.tasks[i]?
    rcases hplaced.awake_or_idles with awake | ⟨task, consumer, deadline, htask, hidles⟩
    · have hnot : i ∉ ids := by
        intro hmem
        obtain ⟨task, htask, hwaits⟩ := asleep i hmem
        exact hwaits (awake task htask)
      refine hplaced.alike ⟨rfl, isRunnable_roused.trans (or_iff_left hnot), Iff.rfl, Iff.rfl,
        fun handle => ?_⟩ ?_
      · exact iff_of_false (fun h => hplaced.not_idle awake handle (hidle.subset h))
          (hplaced.not_idle awake handle)
      · rintro ⟨task, htask, hwaits⟩
        exact absurd (awake task htask) hwaits
    · rw [htask]
      exact .idling (idles i task consumer deadline htask hidles)

theorem trigger_roused (x : Executor) (handle : HandleId) :
    x.trigger handle = x.roused ((x.idle.filter fun entry => entry.1 == handle).map (·.2))
      (x.idle.filter fun entry => entry.1 != handle)
      (if x.isTriggered handle then x.triggered else handle :: x.triggered) x.clock :=
  trigger_eq x handle

/-- A trigger concerns the idle consumers with this handle. -/
theorem Orderly.trigger (hx : x.Orderly) (handle : HandleId)
    (hrunning : ∀ i, x.running = some i → (handle, i) ∉ x.idle) : (x.trigger handle).Orderly := by
  have hmem : ∀ i, i ∈ (x.idle.filter fun entry => entry.1 == handle).map (·.2) ↔
      (handle, i) ∈ x.idle := by
    intro i
    simp
  have htriggered := isTriggered_trigger x handle
  rw [trigger_roused] at htriggered ⊢
  refine hx.roused List.filter_sublist ?_ ?_ ?_
  · intro i hi
    rw [hmem]
    exact hrunning i hi
  · intro i hi
    rw [hmem] at hi
    by_contra hawake
    push Not at hawake
    exact (hx.placed i).not_idle hawake handle hi
  · intro i task consumer deadline _ ⟨live, job, waits, lists, called, due⟩
    refine ⟨live, job, waits, ⟨lists.ready_iff, lists.space_iff, fun other => ?_⟩, fun h => ?_,
      fun h => (due h).imp_left fun h => isRunnable_roused.mpr (.inl h)⟩
    · rw [← Bool.not_eq_true, htriggered]
      show (other, i) ∈ x.idle.filter (fun entry => entry.1 != handle) ↔ _
      rw [List.mem_filter, lists.idle_iff, bne_iff_ne]
      simp only [← Bool.not_eq_true]
      tauto
    · rw [htriggered] at h
      rw [isRunnable_roused, hmem, lists.idle_iff]
      cases hbefore : x.isTriggered consumer.handle with
      | true => exact .inl (called (.inr hbefore))
      | false =>
        rcases h with h | h | rfl
        · exact .inl (called (.inl h))
        · rw [hbefore] at h
          cases h
        · exact .inr ⟨rfl, hbefore⟩

theorem mem_due {i : TaskId} :
    i ∈ x.due ↔ ∃ task deadline, x.tasks[i]? = some task ∧ task.deadline = some deadline ∧
      task.live = true ∧ deadline ≤ x.clock := by
  unfold due
  rw [List.mem_filter, List.mem_range]
  constructor
  · rintro ⟨-, h⟩
    cases htask : x.tasks[i]? with
    | none => simp [htask] at h
    | some task =>
      cases hdeadline : task.deadline with
      | none => simp [htask, hdeadline] at h
      | some deadline =>
        simp only [htask, hdeadline, Bool.and_eq_true, decide_eq_true_eq] at h
        exact ⟨task, deadline, rfl, hdeadline, h⟩
  · rintro ⟨task, deadline, htask, hdeadline, hlive, hdue⟩
    refine ⟨(List.getElem?_eq_some_iff.mp htask).1, ?_⟩
    simp [htask, hdeadline, hlive, hdue]

theorem advance_roused (x : Executor) (millis : Nat) :
    x.advance millis = x.roused ({ x with clock := x.clock + millis } : Executor).due x.idle
      x.triggered (x.clock + millis) := by
  unfold Executor.advance
  rw [wakeAll_eq]
  rfl

/-- The passing of time concerns the idle consumers whose time has come. -/
theorem Orderly.advance (hx : x.Orderly) (millis : Nat) (free : x.running = none) :
    (x.advance millis).Orderly := by
  rw [advance_roused]
  refine hx.roused (List.Sublist.refl _) ?_ ?_ ?_
  · intro i hi
    rw [free] at hi
    cases hi
  · intro i hi
    obtain ⟨task, deadline, htask, hdeadline, -⟩ := mem_due.mp hi
    exact ⟨task, htask, by simp [hdeadline]⟩
  · intro i task consumer deadline htask idles
    refine ⟨idles.live, idles.job, idles.waits, ⟨idles.lists.ready_iff, idles.lists.space_iff,
      idles.lists.idle_iff⟩, fun h => isRunnable_roused.mpr (.inl (idles.called h)), fun h => ?_⟩
    exact .inl (isRunnable_roused.mpr (.inr (mem_due.mpr
      ⟨task, deadline, htask, idles.waits, idles.live, h⟩)))

end Executor

end Handoff
