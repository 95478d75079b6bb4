/-
Handoff.Proofs.Executor.Wakeups — no receiver is left waiting while there are messages.

A push notifies one task, so while somebody waits for `ready` there is a notification for every
queued message. It is held by a task until that task acts on it, and it is spent on one message,
except by a consumer: that one lets go of its notification first and then takes messages until it
finds none. It has therefore one message to its credit while it runs (`Roams`). A permit stands for
messages too, but only while nobody waits, and then nothing is owed.

This holds as long as notifications are only given to tasks that look at the queue. A task that
waits for one notification and ends takes one away for nothing, and so does a consumer whose handle
was triggered if it sees its notification before the trigger: it spends it and ends. Each such turn
(`wastes`) leaves at most one message that nobody is told of, so their number is kept with the run
(`ReachesWasting`).

  §1 covered messages   — `Covered`
  §2 moves              — `Attended`, `Attended.move`
  §3 wasted turns       — `wastes`, `ReachesWasting`, `ReachesWasting.minded`
  §4 undisturbed runs   — `Reachable.attended`, `queued_le_notified`
-/
import Handoff.Proofs.Executor.Lasting
import Handoff.Proofs.Executor.Order

namespace Handoff.Executor

variable {x y : Executor} {id : TaskId} {task : Task}

/-! ## §1 Covered messages -/

/-- The number of tasks that hold a notification. -/
def told (x : Executor) : Nat := x.tasks.countP (·.noticed)

/-- While somebody waits for `ready`, there is a notification for all queued messages but `spare`.
-/
def Covered (x : Executor) (spare : Nat) : Prop :=
  x.queue.ready.waiters ≠ [] → x.queue.count ≤ x.told + spare

theorem countP_modify {α : Type} {p : α → Bool} {f : α → α} {l : List α} {i : Nat} {a : α}
    (h : l[i]? = some a) :
    (l.modify i f).countP p + (p a).toNat = l.countP p + (p (f a)).toNat := by
  induction l generalizing i with
  | nil => cases h
  | cons b rest ih =>
    cases i with
    | zero =>
      cases h
      rw [List.modify_zero_cons, List.countP_cons, List.countP_cons]
      cases p a <;> cases p (f a) <;> simp
    | succ i =>
      have hrest := ih (i := i) h
      rw [List.modify_succ_cons, List.countP_cons, List.countP_cons]
      omega

/-- What is covered stays so when the messages grow less or the notifications more. -/
theorem Covered.of_le {m n : Nat} (hx : x.Covered m)
    (waiters : y.queue.ready.waiters ≠ [] → x.queue.ready.waiters ≠ [])
    (le : y.queue.count + x.told + m ≤ x.queue.count + y.told + n) : y.Covered n := by
  intro hy
  have hcount := hx (waiters hy)
  omega

theorem Covered.mono {m n : Nat} (hx : x.Covered m) (le : m ≤ n) : x.Covered n :=
  hx.of_le (fun h => h) (by omega)

theorem covered_of_empty (h : x.queue.ring.Holds []) (n : Nat) : x.Covered n := by
  intro _
  have hcount : x.queue.count = 0 := h.count_eq
  omega

/-- A stored message is one more to cover. -/
theorem Covered.stored {memory : Memory} {actor : Actor} {message : Message}
    {placement : Placement} {ring : Ring Message} {items : List Message} {n : Nat}
    (hx : x.Covered n) (hitems : x.queue.ring.Holds items)
    (hring : x.queue.ring.push memory message = .ok (placement, ring)) :
    (x.stored actor message placement ring).Covered (n + 1) := by
  refine hx.of_le (fun h => h) ?_
  have hbefore : x.queue.count = items.length := hitems.count_eq
  have hafter : (x.stored actor message placement ring).queue.count = items.length + 1 := by
    have hcount := (hitems.push hring).1.count_eq
    rwa [List.length_append, List.length_singleton] at hcount
  have htold : (x.stored actor message placement ring).told = x.told := rfl
  omega

/-- A notification covers a message, if somebody waits. -/
theorem Covered.notifyReady {n : Nat} (hx : x.Covered (n + 1)) (orderly : x.Orderly) :
    x.notifyReady.Covered n := by
  intro hwaits
  have hcount : x.notifyReady.queue.count = x.queue.count :=
    notifyReady_keeps (·.queue.count) x (fun _ _ _ => rfl)
  cases hwaiters : x.queue.ready.waiters with
  | nil =>
    rw [notifyReady_nil hwaiters] at hwaits
    exact absurd rfl hwaits
  | cons id rest =>
    obtain ⟨task, htask, -, hheeded⟩ := (orderly.placed id).waiter (by simp [hwaiters])
    have htold : x.notifyReady.told = x.told + 1 := by
      have hmodify :=
        countP_modify (p := (·.noticed)) (f := fun t => { t with noticed := true }) htask
      rw [hheeded] at hmodify
      rw [notifyReady_cons hwaiters, notice_eq]
      exact hmodify
    have hbefore := hx (by simp [hwaiters])
    omega

theorem Covered.push {memory : Memory} {actor : Actor} {message : Message} {items : List Message}
    {n : Nat} (hx : x.Covered n) (orderly : x.Orderly) (hitems : x.queue.ring.Holds items)
    (accepted : x.push memory actor message = .ok y) : y.Covered n := by
  obtain ⟨placement, ring, hring, rfl⟩ := push_ok accepted
  exact (hx.stored hitems hring).notifyReady orderly.of_same_tasks

/-- Messages that are taken need no cover. -/
theorem Covered.taken {messages : List Message} {ring : Ring Message} {n : Nat}
    (hx : x.Covered (n + messages.length)) (actor : Actor)
    (leaves : x.queue.ring.Leaves messages ring) :
    (x.taken actor messages ring).Covered n := by
  refine hx.of_le (fun h => h) ?_
  obtain ⟨others, hall, hothers⟩ := leaves.holds
  have hbefore : x.queue.count = (messages ++ others).length := hall.count_eq
  have hafter : (x.taken actor messages ring).queue.count = others.length := hothers.count_eq
  have htold : (x.taken actor messages ring).told = x.told := rfl
  rw [List.length_append] at hbefore
  omega

/-- A task that lets go of its notification leaves one message without cover. -/
theorem Covered.change {m n : Nat} {f : Task → Task} (hx : x.Covered m)
    (htask : x.tasks[id]? = some task) (tasks : y.tasks = x.tasks.modify id f)
    (count : y.queue.count = x.queue.count)
    (waiters : y.queue.ready.waiters ⊆ x.queue.ready.waiters)
    (le : m + task.noticed.toNat ≤ n + (f task).noticed.toNat) : y.Covered n := by
  refine hx.of_le (fun hy hnil => ?_) ?_
  · rw [hnil] at waiters
    exact hy (List.subset_nil.mp waiters)
  · have htold : y.told + task.noticed.toNat = x.told + (f task).noticed.toNat := by
      unfold told
      rw [tasks]
      exact countP_modify htask
    omega

theorem Covered.finish {n : Nat} (hx : x.Covered n) (htask : x.tasks[id]? = some task)
    (outcome : Outcome) : (x.finish id outcome).Covered n :=
  hx.change htask rfl rfl (List.Subset.refl _) (Nat.le_refl _)

/-! ## §2 Moves -/

/-- A consumer runs that waits for nothing and may take a message. -/
def Roams (x : Executor) : Prop :=
  ∃ id task consumer, x.Runs id task ∧ task.job = .consume consumer ∧ task.deadline = none ∧
    x.isTriggered consumer.handle = false

/-- All messages but `spare` are covered, and but for one more if a consumer roams. -/
def Attended (x : Executor) (spare : Nat) : Prop :=
  x.Covered spare ∨ x.Roams ∧ x.Covered (spare + 1)

variable {n : Nat}

/-- Only a running consumer that waits for nothing and was not shut down has a message to its
credit. -/
theorem Attended.covered (hx : x.Attended n) (quiet : ∀ id task consumer, x.Runs id task →
    task.job = .consume consumer → task.deadline = none →
      x.isTriggered consumer.handle = true) : x.Covered n := by
  rcases hx with h | ⟨⟨id, task, consumer, runs, job, awake, untriggered⟩, -⟩
  · exact h
  · rw [quiet id task consumer runs job awake] at untriggered
    cases untriggered

theorem Attended.of_free (hx : x.Attended n) (free : x.running = none) : x.Covered n := by
  refine hx.covered fun id task consumer runs _ _ => ?_
  have hrunning := runs.running_eq
  rw [free] at hrunning
  cases hrunning

theorem Attended.of_runs (hx : x.Attended n) (runs : x.Runs id task)
    (busy : ∀ consumer, task.job = .consume consumer → task.deadline = none →
      x.isTriggered consumer.handle = true) : x.Covered n := by
  refine hx.covered fun other rival consumer hruns job awake => ?_
  obtain ⟨-, rfl⟩ := runs.unique hruns
  exact busy consumer job awake

/-- Another task than a consumer has no credit. -/
theorem Attended.of_job (hx : x.Attended n) (runs : x.Runs id task)
    (job : ∀ consumer, task.job ≠ .consume consumer) : x.Covered n :=
  hx.of_runs runs fun consumer heq => absurd heq (job consumer)

theorem Attended.spare (hx : x.Attended n) : x.Covered (n + 1) := by
  rcases hx with h | ⟨-, h⟩
  · exact h.mono (by omega)
  · exact h

theorem Attended.mono {m : Nat} (hx : x.Attended m) (le : m ≤ n) : x.Attended n :=
  hx.imp (fun h => h.mono le) fun h => ⟨h.1, h.2.mono (by omega)⟩

theorem job_ne_awaitReady (bare : Job.awaitReady ∉ x.jobs) (runs : x.Runs id task) :
    task.job ≠ .awaitReady := by
  intro hjob
  refine bare (List.mem_map.mpr ⟨task, List.mem_of_getElem? runs.task_eq, ?_⟩)
  rw [hjob]
  rfl

theorem bare_of_lasts (bare : Job.awaitReady ∉ y.jobs) (h : x.Lasts y) :
    Job.awaitReady ∉ x.jobs :=
  fun hmem => bare (h.jobs_prefix.subset hmem)

theorem Covered.add (hx : x.Covered n) (label : String) (duty : Duty) :
    (x.add label duty).Covered n := by
  rw [Executor.add, wake_eq]
  refine hx.of_le (fun h => h) ?_
  have htold : List.countP (·.noticed)
      (x.tasks ++ [⟨label, jobOf x.tasks.length duty, true, false, none⟩]) = x.told := by
    rw [List.countP_append]
    rfl
  show x.queue.count + x.told + n ≤ x.queue.count + List.countP (·.noticed) (x.tasks ++ _) + n
  omega

theorem Covered.cancel (hx : x.Covered n) (orderly : x.Orderly) (htask : x.tasks[id]? = some task)
    (free : x.running = none) : (x.cancel id).Covered n := by
  have hgone : (x.gone id).Covered (n + task.noticed.toNat) :=
    hx.change htask rfl rfl List.erase_subset (Nat.le_refl _)
  rw [cancel_eq orderly.ready_nodup, isNoticed_eq htask]
  cases hnoticed : task.noticed with
  | false =>
    rw [hnoticed] at hgone
    exact hgone
  | true =>
    rw [hnoticed] at hgone
    exact hgone.notifyReady (orderly.gone htask free)

/-- A trigger wakes idle consumers and gives no notification by `ready`. -/
theorem Covered.trigger (hx : x.Covered n) (handle : HandleId) : (x.trigger handle).Covered n := by
  rw [trigger_eq]
  exact hx

/-- A consumer that stops waiting roams, or has passed its notification on; or its handle was
triggered, and it spends the notification that it has seen first. -/
theorem Attended.stopWaiting {consumer : Consumer} {deadline : Nat} (readyFirst : Bool)
    (hx : x.Attended n) (orderly : x.Orderly) (runs : x.Runs id task)
    (job : task.job = .consume consumer) (waited : task.deadline = some deadline) :
    (x.stopWaiting readyFirst id consumer deadline).Attended n ∨
    (readyFirst = true ∧ task.noticed = true ∧ x.isTriggered consumer.handle = true) ∧
      (x.stopWaiting readyFirst id consumer deadline).Attended (n + 1) := by
  have hcovered := hx.of_runs runs fun _ _ awake => by rw [waited] at awake; cases awake
  have hforget : (x.detached id).Covered (n + task.noticed.toNat) :=
    hcovered.change runs.task_eq rfl rfl List.erase_subset (Nat.le_refl _)
  rcases stopWaiting_cases readyFirst runs.task_eq consumer deadline with ⟨h, seen⟩ | ⟨h, told, -⟩
  · rw [h]
    cases hnoticed : task.noticed with
    | false =>
      rw [hnoticed] at hforget
      exact .inl (.inl hforget)
    | true =>
      rw [hnoticed] at hforget
      cases htriggered : x.isTriggered consumer.handle with
      | false =>
        exact .inl (.inr ⟨⟨id, _, consumer,
          ⟨runs.running_eq, tasks_detached runs.task_eq⟩, job, rfl, htriggered⟩, hforget⟩)
      | true =>
        rcases seen hnoticed with hfirst | ⟨huntriggered, -⟩
        · exact .inr ⟨⟨hfirst, rfl, rfl⟩, .inl hforget⟩
        · rw [htriggered] at huntriggered
          cases huntriggered
  · rw [told] at hforget
    rw [h]
    exact .inl (.inl (hforget.notifyReady (orderly.detached runs (orderly.live_of_runs runs)).1))

/-- Messages that a handler pushes are covered like any other. -/
theorem Covered.handle {memory : Memory} {consumer : Consumer} {item : WorkItem}
    {items : List Message} (hx : x.Covered n) (orderly : x.Orderly) (awake : x.Awake id task)
    (hitems : x.queue.ring.Holds items) : (x.handle memory id consumer item).Covered n := by
  let P (y : Executor) : Prop := y.Orderly ∧ y.Awake id task ∧
    (∃ items, y.queue.ring.Holds items) ∧ y.Covered n
  have hacted : P (actAll memory id consumer (consumer.react item).actions x).2 := by
    refine actAll_induction consumer ?_ ?_ _ ⟨orderly, awake, ⟨items, hitems⟩, hx⟩
    · rintro y z message ⟨hy, hawake, ⟨queued, hqueued⟩, hcovered⟩ accepted
      obtain ⟨⟨placement, hring⟩, -⟩ := ring_push accepted
      exact ⟨hy.push hawake.not_waiter accepted, hawake.push accepted,
        ⟨_, (hqueued.push hring).1⟩, hcovered.push hy hqueued accepted⟩
    · rintro y handle ⟨hy, hawake, ⟨queued, hqueued⟩, hcovered⟩
      exact ⟨hy.trigger handle (hawake.not_idle handle), hawake.trigger handle,
        ⟨queued, by rw [trigger_eq]; exact hqueued⟩, hcovered.trigger handle⟩
  obtain ⟨-, hawake, -, hcovered⟩ := hacted
  -- The tally changes the job of the task, not what it was told.
  exact hcovered.change hawake.runs.task_eq rfl rfl (List.Subset.refl _) (Nat.le_refl _)

/-- Every move but that of a consumer that stops waiting keeps the messages attended, as long as no
bare waiter is there. -/
theorem Attended.move {items : List Message} (hx : x.Attended n) (orderly : x.Orderly)
    (hitems : x.queue.ring.Holds items) (still : ¬ x.Stirs) (h : x.Move y)
    (bare : Job.awaitReady ∉ y.jobs) : y.Attended n := by
  have hbare := bare_of_lasts bare h.lasts
  -- A caller acts between two polls, where nobody roams.
  cases h with
  | callerPush free accepted => exact .inl ((hx.of_free free).push orderly hitems accepted)
  | callerTake free _ leaves =>
    exact .inl (((hx.of_free free).mono (Nat.le_add_right n _)).taken _ leaves)
  | add label duty free => exact .inl ((hx.of_free free).add label duty)
  | cancel free found _ => exact .inl ((hx.of_free free).cancel orderly found free)
  | callerTrigger handle free => exact .inl ((hx.of_free free).trigger handle)
  | advance millis free =>
    rw [advance_roused]
    exact .inl (hx.of_free free)
  | start free _ => exact .inl (hx.of_free free)
  | @vanish id running absent =>
    obtain ⟨task, htask, -⟩ := (orderly.placed id).live (.inr running)
    rw [absent] at htask
    cases htask
  | @receive id task message ring runs job leaves =>
    have hcovered := hx.of_job runs (by simp [job])
    have hheed : (x.heed id).Covered (n + 1) :=
      hcovered.change runs.task_eq rfl rfl (List.Subset.refl _) (by cases task.noticed <;> simp)
    have htaken : ((x.heed id).taken (.task id) [message] ring).Covered n := hheed.taken _ leaves
    exact .inl (htaken.finish (tasks_heed runs.task_eq) _)
  | receiveAgain _ _ empty _ => exact .inl (covered_of_empty (by exact empty) n)
  | receiveWait _ _ empty _ => exact .inl (covered_of_empty (by exact empty) n)
  | ready runs job _ => exact absurd job (job_ne_awaitReady hbare runs)
  | readyAtOnce runs job _ _ => exact absurd job (job_ne_awaitReady hbare runs)
  | readyWait runs job _ _ => exact absurd job (job_ne_awaitReady hbare runs)
  | deliver runs job accepted =>
    obtain ⟨-, hconsumes⟩ := Job.not_of_message job
    have hawake := orderly.awake_of_job runs hconsumes
    have hcovered := (hx.of_job runs hconsumes).push orderly hitems accepted
    exact .inl (hcovered.finish (hawake.push accepted).runs.task_eq _)
  | queueUp runs job _ _ => exact .inl (hx.of_job runs (Job.not_of_message job).2)
  | giveUp runs job _ _ =>
    exact .inl ((hx.of_job runs (Job.not_of_message job).2).finish runs.task_eq _)
  | stopWaiting _ runs job waited => exact absurd ⟨_, _, _, _, runs, job, waited⟩ still
  -- A consumer that ends because its handle was triggered did not roam.
  | shutDown runs job _ triggered =>
    have hcovered := hx.of_runs runs fun other hother _ => by
      rw [job, Job.consume.injEq] at hother
      rwa [← hother]
    exact .inl (hcovered.finish runs.task_eq _)
  -- The message that a consumer takes is the one that it had to its credit.
  | takeStop runs _ _ _ leaves =>
    exact .inl ((hx.spare.taken _ leaves).finish runs.task_eq _)
  | handle runs job awake _ leaves =>
    obtain ⟨others, -, hothers⟩ := leaves.holds
    exact .inl ((hx.spare.taken _ leaves).handle (orderly.taken _ _ _)
      ((orderly.awake runs awake).taken _ _ _) hothers)
  | consumeAgain _ _ _ _ empty _ => exact .inl (covered_of_empty empty n)
  | consumeWait _ _ _ _ empty _ => exact .inl (covered_of_empty (by exact empty) n)

/-! ## §3 Wasted turns -/

/-- Whether the task is a consumer that waited, was told of a message, and was shut down. -/
def isTorn (x : Executor) (task : Task) : Bool :=
  match task.job with
  | .consume consumer => task.deadline.isSome && task.noticed && x.isTriggered consumer.handle
  | _ => false

/-- Whether the next turn wastes a notification: a consumer runs that was told of a message and shut
down, and it sees the notification first. It spends it, and ends without looking at the queue. -/
def wastes (c : Conditions) (x : Executor) : Bool :=
  c.readyFirst && (x.running.bind fun id => x.tasks[id]?).any x.isTorn

theorem wastes_of_torn {c : Conditions} {consumer : Consumer} {deadline : Nat}
    (first : c.readyFirst = true) (runs : x.Runs id task) (job : task.job = .consume consumer)
    (waited : task.deadline = some deadline) (told : task.noticed = true)
    (triggered : x.isTriggered consumer.handle = true) : x.wastes c = true := by
  have htorn : x.isTorn task = true := by simp [isTorn, job, waited, told, triggered]
  rw [wastes, first, runs.running_eq, Option.bind_some, runs.task_eq, Option.any_some, htorn]
  rfl

/-- No consumer's handle was triggered. -/
def Unshut (x : Executor) : Prop :=
  ∀ task ∈ x.tasks, ∀ consumer, task.job = .consume consumer →
    x.isTriggered consumer.handle = false

theorem unshut_of_nil (untriggered : x.triggered = []) : x.Unshut := by
  intro task _ consumer _
  rw [isTriggered, untriggered]
  rfl

/-- What consumers there are keep their handles, and a handle that was triggered stays so. -/
theorem Unshut.of_lasts (hy : y.Unshut) (h : x.Lasts y) : x.Unshut := by
  intro task hmem consumer job
  obtain ⟨id, htask⟩ := List.mem_iff_getElem?.mp hmem
  obtain ⟨later, hlater, hcore⟩ := h.job_core htask
  obtain ⟨other, hother, hhandle, -⟩ := Job.core_eq_consume (hcore.trans (congrArg Job.core job))
  have huntriggered := hy later (List.mem_of_getElem? hlater) other hother
  rw [hhandle] at huntriggered
  rw [← Bool.not_eq_true] at huntriggered ⊢
  exact fun htriggered => huntriggered (h.isTriggered htriggered)

/-- Where no consumer was shut down nothing is wasted. -/
theorem Unshut.not_wastes (hx : x.Unshut) (c : Conditions) : x.wastes c = false := by
  have htorn : ∀ task ∈ x.tasks, x.isTorn task = false := by
    intro task hmem
    cases hjob : task.job with
    | consume consumer => simp [isTorn, hjob, hx task hmem consumer hjob]
    | receive => simp [isTorn, hjob]
    | awaitReady => simp [isTorn, hjob]
    | push => simp [isTorn, hjob]
    | submit => simp [isTorn, hjob]
    | stop => simp [isTorn, hjob]
  unfold wastes
  cases hrunning : x.running.bind fun id => x.tasks[id]? with
  | none => simp
  | some task =>
    obtain ⟨id, -, htask⟩ := Option.bind_eq_some_iff.mp hrunning
    simp [htorn task (List.mem_of_getElem? htask)]

/-- Some run leads from `x` to the other executor, in which so many turns waste a notification. -/
inductive ReachesWasting (x : Executor) : Nat → Executor → Prop where
  | refl : ReachesWasting x 0 x
  | perform {n : Nat} {y : Executor} (memory : Memory) (command : Command) :
      ReachesWasting x n y → y.running = none → ReachesWasting x n (y.perform memory command).2
  | turn {n : Nat} {y : Executor} (c : Conditions) :
      ReachesWasting x n y → ReachesWasting x (n + (y.wastes c).toNat) (y.turn c)

theorem ReachesWasting.thrifty {y : Executor} {n : Nat} (h : x.ReachesWasting n y) (c : Conditions)
    (spent : y.wastes c = false) : x.ReachesWasting n (y.turn c) := by
  have hturn := h.turn c
  rwa [spent] at hturn

theorem ReachesWasting.wasteful {y : Executor} {n : Nat} (h : x.ReachesWasting n y) (c : Conditions)
    (spent : y.wastes c = true) : x.ReachesWasting (n + 1) (y.turn c) := by
  have hturn := h.turn c
  rwa [spent] at hturn

/-- The wasted turns of every run can be counted. -/
theorem Reaches.wasting (h : x.Reaches y) : ∃ n, x.ReachesWasting n y := by
  induction h with
  | refl => exact ⟨0, .refl⟩
  | perform memory command _ free ih =>
    obtain ⟨n, hn⟩ := ih
    exact ⟨n, hn.perform memory command free⟩
  | turn c _ ih =>
    obtain ⟨n, hn⟩ := ih
    exact ⟨_, hn.turn c⟩

theorem ReachesWasting.reaches (h : x.ReachesWasting n y) : x.Reaches y := by
  induction h with
  | refl => exact .refl
  | perform memory command _ free ih => exact ih.perform memory command free
  | turn c _ ih => exact ih.turn c

/-- What a run from an executor in order comes to, with so many turns wasted. -/
structure Minded (x : Executor) (n : Nat) : Prop where
  orderly : x.Orderly
  holds : ∃ items, x.queue.ring.Holds items
  attended : Job.awaitReady ∉ x.jobs → x.Attended n

theorem Minded.move (hx : x.Minded n) (still : ¬ x.Stirs) (h : x.Move y) : y.Minded n := by
  obtain ⟨items, hitems⟩ := hx.holds
  exact ⟨hx.orderly.move h, h.holds hx.holds, fun bare =>
    (hx.attended (bare_of_lasts bare h.lasts)).move hx.orderly hitems still h bare⟩

theorem Minded.callerMoves (hx : x.Minded n) (h : x.CallerMoves y) : y.Minded n := by
  induction h with
  | refl => exact hx
  | tail _ move ih => exact ih.move (not_stirs_of_free move.1) move.2

theorem Minded.mono {m : Nat} (hx : x.Minded m) (le : m ≤ n) : x.Minded n :=
  ⟨hx.orderly, hx.holds, fun bare => (hx.attended bare).mono le⟩

/-- A turn keeps what it finds, but for one message if it wastes a notification. -/
theorem Minded.turn (hx : x.Minded n) (c : Conditions) :
    (x.turn c).Minded (n + (x.wastes c).toNat) := by
  obtain ⟨items, hitems⟩ := hx.holds
  rcases turn_cases c hitems with h | ⟨still, h⟩ |
    ⟨id, task, consumer, deadline, runs, job, waited, still, h⟩
  · rw [h]
    exact hx.mono (Nat.le_add_right ..)
  · exact (hx.move still h).mono (Nat.le_add_right ..)
  · have hstop : x.Move (x.stopWaiting c.readyFirst id consumer deadline) :=
      .stopWaiting c.readyFirst runs job waited
    refine Minded.move ⟨hx.orderly.move hstop, hstop.holds hx.holds, fun bare => ?_⟩ still h
    rcases (hx.attended (bare_of_lasts bare hstop.lasts)).stopWaiting c.readyFirst hx.orderly runs
      job waited with hkept | ⟨⟨first, told, triggered⟩, hlost⟩
    · exact hkept.mono (Nat.le_add_right ..)
    · rw [wastes_of_torn first runs job waited told triggered]
      exact hlost

theorem ReachesWasting.minded (h : x.ReachesWasting n y) (hx : x.Minded 0) : y.Minded n := by
  induction h with
  | refl => exact hx
  | perform memory command _ free ih =>
    obtain ⟨items, hitems⟩ := ih.holds
    exact ih.callerMoves (perform_moves memory hitems free command).1
  | turn c _ ih => exact ih.turn c

theorem Queue.Fresh.minded {q : Queue Message} (h : q.Fresh) : (ofQueue q).Minded 0 :=
  ⟨Queue.Fresh.orderly h, ⟨[], holds_ofQueue h⟩, fun _ =>
    .inl (covered_of_empty (holds_ofQueue h) 0)⟩

/-! ## §4 Undisturbed runs -/

/-- No bare waiter was added and no handle triggered. -/
structure Undisturbed (x : Executor) : Prop where
  no_awaitReady : Job.awaitReady ∉ x.jobs
  untriggered : x.triggered = []

/-- Where no consumer was shut down no turn was wasted. -/
theorem ReachesWasting.eq_zero (h : x.ReachesWasting n y) (hx : ∃ items, x.queue.ring.Holds items)
    (unshut : y.Unshut) : n = 0 := by
  induction h with
  | refl => rfl
  | perform memory command run free ih =>
    obtain ⟨items, hitems⟩ := (run.reaches.moves hx).holds hx
    exact ih (unshut.of_lasts (perform_moves memory hitems free command).1.moves.lasts)
  | turn c run ih =>
    obtain ⟨items, hitems⟩ := (run.reaches.moves hx).holds hx
    have hsame := unshut.of_lasts (turn_moves c hitems).lasts
    rw [ih hsame, hsame.not_wastes c]
    rfl

theorem Reachable.attended_of_unshut (h : x.Reachable) (bare : Job.awaitReady ∉ x.jobs)
    (unshut : x.Unshut) : x.Attended 0 := by
  obtain ⟨q, hq, run⟩ := h
  obtain ⟨n, hwasting⟩ := run.wasting
  have hzero := hwasting.eq_zero ⟨[], holds_ofQueue hq⟩ unshut
  rw [hzero] at hwasting
  exact (hwasting.minded (Queue.Fresh.minded hq)).attended bare

theorem Reachable.attended (h : x.Reachable) (undisturbed : x.Undisturbed) : x.Attended 0 :=
  h.attended_of_unshut undisturbed.no_awaitReady (unshut_of_nil undisturbed.untriggered)

/-- Between two polls the tasks that hold a notification are among the woken ones. -/
theorem Orderly.told_le (hx : x.Orderly) (free : x.running = none) :
    x.told ≤ (x.woken.filter x.isNoticed).length := by
  have hmap : x.tasks.map (·.noticed) = (List.range x.tasks.length).map x.isNoticed := by
    refine List.ext_getElem? fun i => ?_
    rw [List.getElem?_map, List.getElem?_map]
    cases htask : x.tasks[i]? with
    | none => rw [List.getElem?_eq_none (by simpa using htask)]; rfl
    | some task =>
      rw [List.getElem?_range (List.getElem?_eq_some_iff.mp htask).1]
      exact congrArg some (isNoticed_eq htask).symm
  have htold : x.told = ((List.range x.tasks.length).filter x.isNoticed).length := by
    have hcount := congrArg (List.countP id) hmap
    rw [List.countP_map, List.countP_map] at hcount
    rw [← List.countP_eq_length_filter]
    exact hcount
  rw [htold]
  refine List.Nodup.length_le_of_subset (List.nodup_range.filter _) fun id hid => ?_
  obtain ⟨-, hnoticed⟩ := List.mem_filter.mp hid
  refine List.mem_filter.mpr ⟨?_, hnoticed⟩
  have hplaced := hx.placed id
  cases htask : x.tasks[id]? with
  | none => simp [isNoticed, htask] at hnoticed
  | some task =>
    rw [isNoticed_eq htask] at hnoticed
    rw [htask] at hplaced
    rcases hplaced.runnable hnoticed with h | h
    · exact h
    · rw [free] at h
      cases h

theorem not_mem_jobs_of_bare (bare : ∀ task ∈ x.tasks, task.job ≠ .awaitReady) :
    Job.awaitReady ∉ x.jobs := by
  intro hmem
  obtain ⟨task, htask, hcore⟩ := List.mem_map.mp hmem
  refine bare task htask ?_
  cases hjob : task.job with
  | awaitReady => rfl
  | receive => simp [hjob, Job.core] at hcore
  | push => simp [hjob, Job.core] at hcore
  | submit => simp [hjob, Job.core] at hcore
  | stop => simp [hjob, Job.core] at hcore
  | consume => simp [hjob, Job.core] at hcore

theorem undisturbed_of_bare (bare : ∀ task ∈ x.tasks, task.job ≠ .awaitReady)
    (untriggered : x.triggered = []) : x.Undisturbed :=
  ⟨not_mem_jobs_of_bare bare, untriggered⟩

/-- At rest every task that has not ended and is no producer waits for `ready`. -/
theorem Orderly.waits_of_rest (hx : x.Orderly) (rest : x.atRest = true)
    (htask : x.tasks[id]? = some task) (live : task.live = true)
    (job : task.job.message? = none) : id ∈ x.queue.ready.waiters := by
  obtain ⟨hfree, hwoken⟩ : x.running = none ∧ x.woken = [] := by simpa [atRest] using rest
  have hplaced := hx.placed id
  rw [htask] at hplaced
  refine hplaced.waits live ?_ job
  unfold IsRunnable
  simp [hfree, hwoken]

theorem Reachable.count_le (h : x.Reachable) (undisturbed : x.Undisturbed)
    (free : x.running = none) (waits : x.queue.ready.waiters ≠ []) :
    x.queue.count ≤ (x.woken.filter x.isNoticed).length := by
  have hcount := (h.attended undisturbed).of_free free waits
  have htold := h.orderly.told_le free
  omega

/-- **No wake-up for receivers is lost**, as long as no bare waiter was added and no handle
triggered: between two polls, while somebody waits for `ready`, there are no more messages than
woken tasks that hold a notification; and at rest, while a receiver or consumer has not ended, there
is no message. -/
theorem queued_le_notified (h : x.Reachable) (bare : ∀ task ∈ x.tasks, task.job ≠ .awaitReady)
    (untriggered : x.triggered = []) :
    (x.running = none → ∀ id ∈ x.queue.ready.waiters, x.isNoticed id = false ∧
      x.queue.count ≤ (x.woken.filter x.isNoticed).length) ∧
    (x.atRest = true → (∃ task ∈ x.tasks, task.live = true ∧
      (task.job = .receive ∨ ∃ consumer, task.job = .consume consumer)) →
        x.queue.toList = []) := by
  have hundisturbed := undisturbed_of_bare bare untriggered
  constructor
  · intro free id hid
    obtain ⟨task, htask, -, hheeded⟩ := (h.orderly.placed id).waiter hid
    exact ⟨(isNoticed_eq htask).trans hheeded,
      h.count_le hundisturbed free (List.ne_nil_of_mem hid)⟩
  · rintro hrest ⟨task, hmem, hlive, hjob⟩
    obtain ⟨id, htask⟩ := List.mem_iff_getElem?.mp hmem
    obtain ⟨hfree, hwoken⟩ : x.running = none ∧ x.woken = [] := by simpa [atRest] using hrest
    have hmessage : task.job.message? = none := by
      rcases hjob with hjob | ⟨consumer, hjob⟩
      · rw [hjob]
        rfl
      · rw [hjob]
        rfl
    have hwaits := h.orderly.waits_of_rest hrest htask hlive hmessage
    have hcount := h.count_le hundisturbed hfree (List.ne_nil_of_mem hwaits)
    rw [hwoken] at hcount
    have hlength : x.queue.toList.length ≤ 0 := by
      rw [← h.holds.count_eq]
      exact hcount
    exact List.length_eq_zero_iff.mp (Nat.le_zero.mp hlength)

/-- Three consumers wait; a stop message comes, and the consumer that was told of it is cancelled
before it runs. The next one is told then and takes the message. -/
theorem queued_le_notified_cancelled :
    let c : Conditions := ⟨.ofSlotBytes 16, true⟩
    let start := ofQueue ⟨"work", ⟨#[none, none], 0, 0, none⟩, .quiet, [], 0, 0, 0⟩
    let consume := Duty.consume none 100 (fun _ _ => ⟨[], none⟩) false
    let waiting := (start.step c 9 [.spawn "a" consume, .spawn "b" consume, .spawn "c" consume]).2
    let told := (performAll c.memory [.stop, .cancel "a"] waiting).2
    let rested := told.settle c 9
    (told.queue.ready.waiters = [2] ∧ told.queue.count = 1 ∧
      told.queue.count ≤ (told.woken.filter told.isNoticed).length) ∧
    (rested.atRest = true ∧ rested.pending = ["c"] ∧ rested.queue.toList = []) := by
  intro c start consume waiting told rested
  have hmade : Queue.withCapacity c.memory 2 = .ok start.queue := rfl
  have hwaiting : waiting.Reachable :=
    Reachable.step c 9 _ ⟨start.queue, .withCapacity hmade, .refl⟩ rfl
  have htold : told.Reachable := hwaiting.performAll _ _ (by decide +kernel)
  have hrested : rested.Reachable := htold.settle c 9
  have hbare : ∀ x : Executor, (x.tasks.any (·.job.listens)) = false →
      ∀ task ∈ x.tasks, task.job ≠ .awaitReady := by
    -- A bare waiter would listen.
    intro x hnone task hmem hjob
    refine List.any_eq_false.mp hnone task hmem ?_
    rw [hjob]
    rfl
  have hconsumer : ∃ task ∈ rested.tasks, task.live = true ∧
      (task.job = .receive ∨ ∃ consumer, task.job = .consume consumer) := by
    have hlast : (rested.tasks[2]?.any fun task => task.live && !task.job.listens &&
        task.job.message?.isNone) = true := by decide +kernel
    cases htask : rested.tasks[2]? with
    | none =>
      rw [htask] at hlast
      cases hlast
    | some task =>
      rw [htask, Option.any_some, Bool.and_eq_true, Bool.and_eq_true] at hlast
      obtain ⟨⟨hlive, hlistens⟩, hmessage⟩ := hlast
      refine ⟨task, List.mem_of_getElem? htask, hlive, .inr ?_⟩
      cases hjob : task.job with
      | consume consumer => exact ⟨consumer, rfl⟩
      | receive => rw [hjob] at hlistens; cases hlistens
      | awaitReady => rw [hjob] at hlistens; cases hlistens
      | push => rw [hjob] at hmessage; cases hmessage
      | submit => rw [hjob] at hmessage; cases hmessage
      | stop => rw [hjob] at hmessage; cases hmessage
  have hwaits : told.queue.ready.waiters = [2] := by decide +kernel
  obtain ⟨hbound, -⟩ :=
    queued_le_notified htold (hbare told (by decide +kernel)) (by decide +kernel)
  obtain ⟨-, hcount⟩ := hbound (by decide +kernel) 2 (by simp [hwaits])
  have hrest : rested.atRest = true := by decide +kernel
  obtain ⟨-, hempty⟩ :=
    queued_le_notified hrested (hbare rested (by decide +kernel)) (by decide +kernel)
  exact ⟨⟨hwaits, by decide +kernel, hcount⟩, hrest, by decide +kernel, hempty hrest hconsumer⟩

end Handoff.Executor
