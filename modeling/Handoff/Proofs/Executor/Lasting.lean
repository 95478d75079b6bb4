/-
Handoff.Proofs.Executor.Lasting — what a run does not take back.

Tasks are never removed, only ended, and none changes what it does: a consumer counts its items, and
that is all (`Job.core`). A handle that was triggered stays so. What is said of the tasks and
handles at the end of a run, that none of some kind is among them, is therefore true of the whole
run.

  §1 what lasts   — `Job.core`, `Aspect`, `Lasts`
  §2 moves        — `Move.lasts`, `Moves.lasts`
-/
import Handoff.Proofs.Executor.Move

namespace Handoff

/-! ## §1 What lasts -/

/-- The job of a task but for the items that a consumer has counted. -/
def Job.core : Job → Job
  | .consume consumer => .consume (.fresh consumer.handle consumer.pollInterval consumer.handler)
  | job => job

/-- A consumer that counts an item does the same job. -/
theorem Job.core_tally (consumer : Consumer) (complaint : Option Error) :
    (Job.consume (consumer.tally complaint)).core = (Job.consume consumer).core := by
  cases complaint with
  | none => rfl
  | some error => rfl

/-- A job that is a consumer's but for what was counted is a consumer's, with the same handle and
the same interval. -/
theorem Job.core_eq_consume {job : Job} {consumer : Consumer}
    (h : job.core = (Job.consume consumer).core) :
    ∃ other : Consumer, job = .consume other ∧ other.handle = consumer.handle ∧
      other.pollInterval = consumer.pollInterval := by
  cases job with
  | consume other =>
    simp only [core, Consumer.fresh, Job.consume.injEq, Consumer.mk.injEq] at h
    exact ⟨other, rfl, h.1, h.2.1⟩
  | receive => cases h
  | awaitReady => cases h
  | push => cases h
  | submit => cases h
  | stop => cases h

namespace Executor

/-- What the tasks do, in order of creation. -/
def jobs (x : Executor) : List Job := x.tasks.map (·.job.core)

/-- The tasks and the triggered handles of one executor are still there in another. -/
structure Lasts (x y : Executor) : Prop where
  jobs_prefix : x.jobs <+: y.jobs
  triggered_suffix : x.triggered <:+ y.triggered

theorem map_modify_of_eq {α β : Type} (g : α → β) {f : α → α} {l : List α} {i : Nat}
    (h : ∀ a, l[i]? = some a → g (f a) = g a) : (l.modify i f).map g = l.map g := by
  refine List.ext_getElem? fun j => ?_
  rw [List.getElem?_map, List.getElem?_map]
  by_cases hij : i = j
  · subst hij
    rw [List.getElem?_modify_eq]
    cases hget : l[i]? with
    | none => rfl
    | some a => exact congrArg some (h a hget)
  · rw [List.getElem?_modify_ne _ _ hij]

theorem map_modify_of_getElem? {α β : Type} (g : α → β) (f : α → α) {l : List α} {i : Nat} {a : α}
    (h : l[i]? = some a) : (l.modify i f).map g = (l.map g).set i (g (f a)) := by
  rw [List.modify_eq_set_getElem?, h, ← List.map_set]
  rfl

/-- What is said of some tasks, and whether they have not ended, after one of the tasks has. -/
theorem map_end {β : Type} {g : Task → Option (β × Bool)}
    (dead : ∀ t : Task, g { t with live := false } = (g t).map fun b => (b.1, false))
    {tasks : List Task} {id : TaskId} {b? : Option (β × Bool)} (h : (tasks.map g)[id]? = some b?) :
    (tasks.modify id fun t => { t with live := false }).map g =
      (tasks.map g).set id (b?.map fun b => (b.1, false)) := by
  rw [List.getElem?_map, Option.map_eq_some_iff] at h
  obtain ⟨task, htask, rfl⟩ := h
  rw [map_modify_of_getElem? _ _ htask, dead]

theorem map_end_of_none {β : Type} {g : Task → Option (β × Bool)}
    (dead : ∀ t : Task, g { t with live := false } = (g t).map fun b => (b.1, false))
    {tasks : List Task} {id : TaskId} (h : (tasks.map g)[id]? = some none) :
    (tasks.modify id fun t => { t with live := false }).map g = tasks.map g := by
  obtain ⟨hlt, hnone⟩ := List.getElem?_eq_some_iff.mp h
  rw [map_end dead h, Option.map_none, ← hnone, List.set_getElem_self]

/-- Something about tasks that shows neither what they were told nor when they look again. -/
def Aspect {β : Type} (g : Task → β) : Prop :=
  ∀ (t : Task) (noticed : Bool) (deadline : Option Nat), g { t with noticed, deadline } = g t

namespace Aspect

variable {β : Type} {g : Task → β} {x y : Executor} {id : TaskId}

theorem notifyReady (hg : Aspect g) (x : Executor) : x.notifyReady.tasks.map g = x.tasks.map g := by
  cases hwaiters : x.queue.ready.waiters with
  | nil =>
    rw [notifyReady_nil hwaiters]
    rfl
  | cons id rest =>
    rw [notifyReady_cons hwaiters, notice_eq]
    exact map_modify_of_eq g fun t _ => hg t true t.deadline

theorem push (hg : Aspect g) {memory : Memory} {actor : Actor} {message : Message}
    (accepted : x.push memory actor message = .ok y) : y.tasks.map g = x.tasks.map g := by
  obtain ⟨placement, ring, -, rfl⟩ := push_ok accepted
  exact hg.notifyReady _

theorem heed (hg : Aspect g) (x : Executor) (id : TaskId) :
    (x.heed id).tasks.map g = x.tasks.map g :=
  map_modify_of_eq g fun t _ => hg t false t.deadline

theorem detached (hg : Aspect g) (x : Executor) (id : TaskId) :
    (x.detached id).tasks.map g = x.tasks.map g :=
  map_modify_of_eq g fun t _ => hg t false none

theorem withdraw (hg : Aspect g) (x : Executor) (id : TaskId) :
    (x.withdraw id).tasks.map g = x.tasks.map g :=
  withdraw_induction (P := fun y => y.tasks.map g = x.tasks.map g) id (hg.detached x id)
    ((hg.notifyReady _).trans (hg.detached x id))

theorem stopWaiting (hg : Aspect g) (readyFirst : Bool) {task : Task}
    (htask : x.tasks[id]? = some task) (consumer : Consumer) (deadline : Nat) :
    (x.stopWaiting readyFirst id consumer deadline).tasks.map g = x.tasks.map g :=
  stopWaiting_induction (P := fun y => y.tasks.map g = x.tasks.map g) readyFirst htask consumer
    deadline (hg.detached x id) ((hg.notifyReady _).trans (hg.detached x id))

theorem awaitAny (hg : Aspect g) (x : Executor) (id : TaskId) (consumer : Consumer) :
    (x.awaitAny id consumer).tasks.map g = x.tasks.map g :=
  map_modify_of_eq g fun t _ => hg t t.noticed _

/-- What a handler does shows in no task but its consumer's. -/
theorem actAll (hg : Aspect g) (memory : Memory) (consumer : Consumer) (actions : List Action)
    (x : Executor) :
    (Executor.actAll memory id consumer actions x).2.tasks.map g = x.tasks.map g :=
  actAll_induction (P := fun y => y.tasks.map g = x.tasks.map g) consumer
    (fun hy accepted => (hg.push accepted).trans hy)
    (fun handle hy => by rw [tasks_trigger]; exact hy) actions rfl

end Aspect

namespace Lasts

variable {x y : Executor} {id : TaskId}

theorem of_jobs (jobs : y.jobs = x.jobs) (triggered : y.triggered = x.triggered) : x.Lasts y :=
  ⟨by simp [jobs], by simp [triggered]⟩

theorem refl (x : Executor) : x.Lasts x := of_jobs rfl rfl

theorem trans {z : Executor} (hxy : x.Lasts y) (hyz : y.Lasts z) : x.Lasts z :=
  ⟨hxy.jobs_prefix.trans hyz.jobs_prefix, hxy.triggered_suffix.trans hyz.triggered_suffix⟩

/-- A handle that was triggered stays so. -/
theorem isTriggered (h : x.Lasts y) {handle : HandleId}
    (triggered : x.isTriggered handle = true) : y.isTriggered handle = true := by
  unfold Executor.isTriggered at triggered ⊢
  rw [List.contains_iff_mem] at triggered ⊢
  exact h.triggered_suffix.subset triggered

/-- A task keeps what it does. -/
theorem job_core (h : x.Lasts y) {task : Task} (htask : x.tasks[id]? = some task) :
    ∃ later, y.tasks[id]? = some later ∧ later.job.core = task.job.core := by
  have hbefore : x.jobs[id]? = some task.job.core := by
    rw [jobs, List.getElem?_map, htask]
    rfl
  have hafter : y.jobs[id]? = some task.job.core := by
    obtain ⟨later, hlater⟩ := h.jobs_prefix
    rw [← hlater, List.getElem?_append_left (List.getElem?_eq_some_iff.mp hbefore).1, hbefore]
  rwa [jobs, List.getElem?_map, Option.map_eq_some_iff] at hafter

/-- A change of one task that leaves it its job. -/
theorem of_modify {f : Task → Task}
    (tasks : y.tasks = x.tasks.modify id f) (triggered : y.triggered = x.triggered)
    (job : ∀ task, x.tasks[id]? = some task → (f task).job.core = task.job.core) : x.Lasts y := by
  refine of_jobs ?_ triggered
  unfold jobs
  rw [tasks]
  exact map_modify_of_eq _ job

theorem notifyReady (x : Executor) : x.Lasts x.notifyReady :=
  of_jobs (Aspect.notifyReady (fun _ _ _ => rfl) x)
    (notifyReady_keeps Executor.triggered x fun _ _ _ => rfl)

theorem push {memory : Memory} {actor : Actor} {message : Message}
    (accepted : x.push memory actor message = .ok y) : x.Lasts y := by
  obtain ⟨placement, ring, -, rfl⟩ := push_ok accepted
  have hstored : x.Lasts (x.stored actor message placement ring) := of_jobs rfl rfl
  exact hstored.trans (notifyReady _)

theorem detached (x : Executor) (id : TaskId) : x.Lasts (x.detached id) :=
  of_modify rfl rfl fun _ _ => rfl

theorem withdraw (x : Executor) (id : TaskId) : x.Lasts (x.withdraw id) :=
  withdraw_induction id (detached x id) ((detached x id).trans (notifyReady _))

theorem cancel (x : Executor) (id : TaskId) : x.Lasts (x.cancel id) :=
  (withdraw x id).trans (of_modify rfl rfl fun _ _ => rfl)

theorem stopWaiting (readyFirst : Bool) {task : Task} (h : x.tasks[id]? = some task)
    (consumer : Consumer) (deadline : Nat) :
    x.Lasts (x.stopWaiting readyFirst id consumer deadline) :=
  stopWaiting_induction readyFirst h consumer deadline (detached x id)
    ((detached x id).trans (notifyReady _))

theorem finish (x : Executor) (id : TaskId) (outcome : Outcome) :
    x.Lasts (x.finish id outcome) := of_modify rfl rfl fun _ _ => rfl

theorem trigger (x : Executor) (handle : HandleId) : x.Lasts (x.trigger handle) := by
  rw [trigger_eq]
  refine ⟨List.prefix_rfl, ?_⟩
  show x.triggered <:+ if x.isTriggered handle then x.triggered else handle :: x.triggered
  split
  · exact List.suffix_rfl
  · exact List.suffix_cons handle x.triggered

theorem add (x : Executor) (label : String) (duty : Duty) : x.Lasts (x.add label duty) := by
  rw [Executor.add, wake_eq]
  refine ⟨?_, List.suffix_rfl⟩
  show x.tasks.map _ <+: (x.tasks ++ _).map _
  rw [List.map_append]
  exact List.prefix_append _ _

theorem advance (x : Executor) (millis : Nat) : x.Lasts (x.advance millis) := by
  rw [Executor.advance, wakeAll_eq]
  exact of_jobs rfl rfl

/-- A consumer keeps its job while its handler acts, and after it has answered. -/
theorem handle {memory : Memory} {task : Task} {consumer : Consumer} {item : WorkItem}
    (htask : x.tasks[id]? = some task) (job : task.job = .consume consumer) :
    x.Lasts (x.handle memory id consumer item) := by
  let P (y : Executor) : Prop :=
    x.Lasts y ∧ ∃ task, y.tasks[id]? = some task ∧ task.job = .consume consumer
  have hacted : P (actAll memory id consumer (consumer.react item).actions x).2 := by
    refine actAll_induction consumer ?_ ?_ _ ⟨refl x, task, htask, job⟩
    · rintro y z message ⟨hy, t, ht, htjob⟩ accepted
      refine ⟨hy.trans (push accepted), ?_⟩
      obtain ⟨placement, ring, -, rfl⟩ := push_ok accepted
      obtain ⟨noticed, hz⟩ := tasks_notifyReady
        (show (y.stored (.task id) message placement ring).tasks[id]? = some t from ht)
      exact ⟨_, hz, htjob⟩
    · rintro y handle ⟨hy, t, ht, htjob⟩
      refine ⟨hy.trans (trigger y handle), t, ?_, htjob⟩
      rw [tasks_trigger]
      exact ht
  obtain ⟨hlasts, t, ht, htjob⟩ := hacted
  refine hlasts.trans (of_modify rfl rfl fun t' ht' => ?_)
  rw [ht, Option.some.injEq] at ht'
  subst ht'
  rw [htjob]
  exact Job.core_tally consumer _

end Lasts

/-! ## §2 Moves -/

theorem Move.lasts {x y : Executor} (h : x.Move y) : x.Lasts y := by
  cases h with
  | callerPush _ accepted => exact .push accepted
  | callerTake => exact .of_jobs rfl rfl
  | add label duty => exact .add x label duty
  | cancel => exact .cancel x _
  | callerTrigger handle => exact .trigger x handle
  | advance millis => exact .advance x millis
  | start => exact .of_jobs rfl rfl
  | vanish => exact .of_jobs rfl rfl
  | @receive id task message ring _ _ _ =>
    have hheed : x.Lasts ((x.heed id).taken (.task id) [message] ring) :=
      .of_modify rfl rfl fun _ _ => rfl
    exact hheed.trans (.finish _ _ _)
  | receiveAgain => exact .of_modify rfl rfl fun _ _ => rfl
  | receiveWait => exact .of_modify rfl rfl fun _ _ => rfl
  | @ready id task _ _ _ =>
    have hheed : x.Lasts (x.heed id) := .of_modify rfl rfl fun _ _ => rfl
    exact hheed.trans (.finish _ _ _)
  | readyAtOnce => exact .of_modify rfl rfl fun _ _ => rfl
  | readyWait => exact .of_jobs rfl rfl
  | deliver _ _ accepted => exact (Lasts.push accepted).trans (.finish _ _ _)
  | queueUp => exact .of_jobs rfl rfl
  | giveUp => exact .finish x _ _
  | stopWaiting readyFirst runs => exact .stopWaiting readyFirst runs.task_eq _ _
  | shutDown => exact .finish x _ _
  | takeStop => exact .of_modify rfl rfl fun _ _ => rfl
  | @handle memory id task consumer item ring runs job _ _ _ =>
    have htaken : x.Lasts (x.taken (.task id) [.data item] ring) := .of_jobs rfl rfl
    exact htaken.trans (.handle runs.task_eq job)
  | consumeAgain => exact .of_jobs rfl rfl
  | consumeWait => exact .of_modify rfl rfl fun _ _ => rfl

theorem Moves.lasts {x y : Executor} (h : x.Moves y) : x.Lasts y := by
  induction h with
  | refl => exact .refl x
  | tail _ move ih => exact ih.trans move.lasts

end Executor

end Handoff
