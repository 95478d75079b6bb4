/-
Handoff.Proofs.Executor.Order — in every run all tasks stand where they should.

A task that runs and is on no list (`Awake`) may be changed, may end, or may be put on a list and
come to rest. A consumer that was idle is such a task once it has been taken off its lists. With the
lemmas on waking these are all the moves there are (`Orderly.move`).

  §1 the task that runs    — `Awake`, `Orderly.update`
  §2 coming to rest        — `Orderly.finish`, `Orderly.awaitReady`, `Orderly.awaitAny`
  §3 tasks come and go     — `Orderly.stopWaiting`, `Orderly.cancel`, `Orderly.add`
  §4 runs                  — `Reachable.orderly`
-/
import Handoff.Proofs.Executor.Standing

namespace Handoff.Executor

/-! ## §1 The task that runs -/

/-- A task runs and waits for nothing. -/
structure Awake (x : Executor) (id : TaskId) (task : Task) : Prop where
  runs : x.Runs id task
  live : task.live = true
  awake : task.deadline = none
  told : task.noticed = true → task.job.listens = true
  off : x.Off id

variable {x y : Executor} {id : TaskId} {task : Task}

/-- Only an idle consumer can run and still be on lists. -/
theorem Orderly.awake_or_idles (hx : x.Orderly) (runs : x.Runs id task) :
    x.Awake id task ∨ ∃ consumer deadline, x.Idles id task consumer deadline := by
  have hplaced := hx.placed id
  have hrun : x.IsRunnable id := .inr runs.running_eq
  rw [runs.task_eq] at hplaced
  cases hplaced with
  | ended _ _ _ _ still => exact absurd hrun still
  | active live awake told off => exact .inl ⟨runs, live, awake, told, off⟩
  | listening _ _ _ _ _ still => exact absurd hrun still
  | queueing _ _ _ _ _ still => exact absurd hrun still
  | idling idles => exact .inr ⟨_, _, idles⟩

theorem Orderly.awake (hx : x.Orderly) (runs : x.Runs id task) (awake : task.deadline = none) :
    x.Awake id task := by
  rcases hx.awake_or_idles runs with h | ⟨_, _, idles⟩
  · exact h
  · have hwaits := idles.waits
    rw [awake] at hwaits
    cases hwaits

theorem Orderly.awake_of_job (hx : x.Orderly) (runs : x.Runs id task)
    (job : ∀ consumer, task.job ≠ .consume consumer) : x.Awake id task := by
  rcases hx.awake_or_idles runs with h | ⟨consumer, _, idles⟩
  · exact h
  · exact absurd idles.job (job consumer)

theorem Orderly.live_of_runs (hx : x.Orderly) (runs : x.Runs id task) : task.live = true := by
  obtain ⟨_, htask, live⟩ := (hx.placed id).live (.inr runs.running_eq)
  rw [runs.task_eq, Option.some.injEq] at htask
  rwa [htask]

/-- Only a task that listens can hold a notification while it runs. -/
theorem Awake.heeded (h : x.Awake id task) (job : task.job.listens = false) :
    task.noticed = false := by
  rw [← Bool.not_eq_true] at job ⊢
  exact fun hnoticed => job (h.told hnoticed)

theorem Awake.not_waiter (h : x.Awake id task) (i : TaskId) (hi : x.running = some i) :
    i ∉ x.queue.ready.waiters := by
  rw [h.runs.running_eq, Option.some.injEq] at hi
  subst hi
  exact h.off.ready_iff.mp

theorem Awake.not_idle (h : x.Awake id task) (handle : HandleId) (i : TaskId)
    (hi : x.running = some i) : (handle, i) ∉ x.idle := by
  rw [h.runs.running_eq, Option.some.injEq] at hi
  subst hi
  exact (h.off.idle_iff handle).mp

/-- A task that runs can be changed, as long as it stays one that waits for nothing. -/
theorem Orderly.update (hx : x.Orderly) (h : x.Awake id task) (f : Task → Task)
    (live : (f task).live = true) (awake : (f task).deadline = none)
    (told : (f task).noticed = true → (f task).job.listens = true) :
    (x.updateTask id f).Orderly ∧ (x.updateTask id f).Awake id (f task) := by
  have htask : (x.updateTask id f).tasks[id]? = some (f task) := by
    unfold updateTask
    rw [List.getElem?_modify_eq, h.runs.task_eq]
    rfl
  have hoff : (x.updateTask id f).Off id := ⟨h.off.ready_iff, h.off.space_iff, h.off.idle_iff⟩
  refine ⟨⟨hx.ready_nodup, hx.space_nodup, hx.idle_nodup, hx.woken_nodup, hx.running_fresh,
    hx.permit_alone, hx.placed_of_others id (fun i hi => ⟨?_, Iff.rfl, Iff.rfl, Iff.rfl,
      fun _ => Iff.rfl⟩) rfl rfl ?_⟩, ⟨⟨h.runs.running_eq, htask⟩, live, awake, told, hoff⟩⟩
  · exact List.getElem?_modify_ne _ _ (Ne.symm hi)
  · rw [htask]
    exact .active live awake told hoff (.inr h.runs.running_eq)

theorem Orderly.heed (hx : x.Orderly) (h : x.Awake id task) :
    (x.heed id).Orderly ∧ (x.heed id).Awake id { task with noticed := false } :=
  hx.update h (fun t => { t with noticed := false }) h.live h.awake (fun h => by cases h)

/-- When the running task comes to rest the others are to run as before. -/
theorem isRunnable_of_rest {i : TaskId} (running : x.running = some id) (hi : i ≠ id)
    (woken : y.woken = x.woken) (rest : y.running = none) : y.IsRunnable i ↔ x.IsRunnable i := by
  unfold IsRunnable
  rw [woken, rest, running]
  simp [Ne.symm hi]

theorem Orderly.not_isRunnable_of_rest (hx : x.Orderly) (running : x.running = some id)
    (woken : y.woken = x.woken) (rest : y.running = none) : ¬ y.IsRunnable id := by
  unfold IsRunnable
  rw [woken, rest]
  simp [hx.running_fresh id running]

theorem Orderly.finish (hx : x.Orderly) (h : x.Awake id task) (heeded : task.noticed = false)
    (outcome : Outcome) : (x.finish id outcome).Orderly := by
  refine ⟨hx.ready_nodup, hx.space_nodup, hx.idle_nodup, hx.woken_nodup, ?_, hx.permit_alone,
    hx.placed_of_others id (fun i hi => ⟨?_, isRunnable_of_rest h.runs.running_eq hi rfl rfl,
      Iff.rfl, Iff.rfl, fun _ => Iff.rfl⟩) rfl rfl ?_⟩
  · intro i hi
    cases hi
  · exact List.getElem?_modify_ne _ _ (Ne.symm hi)
  · have htask : (x.finish id outcome).tasks[id]? = some { task with live := false } := by
      show (x.tasks.modify id _)[id]? = _
      rw [List.getElem?_modify_eq, h.runs.task_eq]
      rfl
    rw [htask]
    exact .ended rfl h.awake heeded ⟨h.off.ready_iff, h.off.space_iff, h.off.idle_iff⟩
      (hx.not_isRunnable_of_rest h.runs.running_eq rfl rfl)

theorem mem_concat_of_ne {ids : List TaskId} {i : TaskId} (hi : i ≠ id) :
    i ∈ ids ++ [id] ↔ i ∈ ids := by
  simp [hi]

theorem Orderly.awaitReady (hx : x.Orderly) (h : x.Awake id task) (heeded : task.noticed = false)
    (listens : task.job.listens = true) (permit : x.queue.ready.permit = false) :
    (x.awaitReady id).Orderly := by
  refine ⟨nodup_concat hx.ready_nodup h.off.ready_iff.mp, hx.space_nodup, hx.idle_nodup,
    hx.woken_nodup, ?_, ?_, hx.placed_of_others id (fun i hi =>
      ⟨rfl, isRunnable_of_rest h.runs.running_eq hi rfl rfl, mem_concat_of_ne hi, Iff.rfl,
        fun _ => Iff.rfl⟩) rfl rfl ?_⟩
  · intro i hi
    cases hi
  · intro hpermit
    have hsame : (x.awaitReady id).queue.ready.permit = x.queue.ready.permit := rfl
    rw [hsame, permit] at hpermit
    cases hpermit
  · show Placed _ id x.tasks[id]?
    rw [h.runs.task_eq]
    exact .listening h.live h.awake heeded listens
      ⟨iff_true_intro (List.mem_append_right _ List.mem_cons_self), h.off.space_iff,
        h.off.idle_iff⟩ (hx.not_isRunnable_of_rest h.runs.running_eq rfl rfl)

theorem Orderly.awaitSpace (hx : x.Orderly) (h : x.Awake id task) (heeded : task.noticed = false)
    (produces : task.job.message?.isSome = true) : (x.awaitSpace id).Orderly := by
  refine ⟨hx.ready_nodup, nodup_concat hx.space_nodup h.off.space_iff.mp, hx.idle_nodup,
    hx.woken_nodup, ?_, hx.permit_alone, hx.placed_of_others id (fun i hi =>
      ⟨rfl, isRunnable_of_rest h.runs.running_eq hi rfl rfl, Iff.rfl, mem_concat_of_ne hi,
        fun _ => Iff.rfl⟩) rfl rfl ?_⟩
  · intro i hi
    cases hi
  · show Placed _ id x.tasks[id]?
    rw [h.runs.task_eq]
    exact .queueing h.live h.awake heeded produces
      ⟨h.off.ready_iff, iff_true_intro (List.mem_append_right _ List.mem_cons_self),
        h.off.idle_iff⟩ (hx.not_isRunnable_of_rest h.runs.running_eq rfl rfl)

theorem Orderly.awaitAny {consumer : Consumer} (hx : x.Orderly) (h : x.Awake id task)
    (job : task.job = .consume consumer) (triggered : x.isTriggered consumer.handle = false)
    (permit : x.queue.ready.permit = false) : (x.awaitAny id consumer).Orderly := by
  have heeded : task.noticed = false := h.heeded (by rw [job]; rfl)
  have hfresh : id ∉ x.idle.map (·.2) := by
    simp only [List.mem_map, Prod.exists, exists_eq_right, not_exists]
    exact fun handle => (h.off.idle_iff handle).mp
  have htask : (x.awaitAny id consumer).tasks[id]? =
      some { task with deadline := some (x.clock + consumer.pollInterval) } := by
    show (x.tasks.modify id _)[id]? = _
    rw [List.getElem?_modify_eq, h.runs.task_eq]
    rfl
  refine ⟨nodup_concat hx.ready_nodup h.off.ready_iff.mp, hx.space_nodup, ?_, hx.woken_nodup, ?_,
    ?_, hx.placed_of_others id (fun i hi => ⟨List.getElem?_modify_ne _ _ (Ne.symm hi),
      isRunnable_of_rest h.runs.running_eq hi rfl rfl, mem_concat_of_ne hi, Iff.rfl, ?_⟩)
      rfl rfl ?_⟩
  · show (List.map _ (x.idle ++ [(consumer.handle, id)])).Nodup
    rw [List.map_append]
    exact nodup_concat hx.idle_nodup hfresh
  · intro i hi
    cases hi
  · intro hpermit
    have hsame : (x.awaitAny id consumer).queue.ready.permit = x.queue.ready.permit := rfl
    rw [hsame, permit] at hpermit
    cases hpermit
  · intro handle
    show (handle, i) ∈ x.idle ++ [(consumer.handle, id)] ↔ _
    simp [hi]
  · have still : ¬ (x.awaitAny id consumer).IsRunnable id :=
      hx.not_isRunnable_of_rest h.runs.running_eq rfl rfl
    have htriggered : (x.awaitAny id consumer).isTriggered = x.isTriggered := rfl
    rw [htask]
    refine .idling ⟨h.live, job, rfl, ⟨?_, h.off.space_iff, fun handle => ?_⟩, ?_, ?_⟩
    · exact iff_of_true (List.mem_append_right _ List.mem_cons_self) heeded
    · show (handle, id) ∈ x.idle ++ [(consumer.handle, id)] ↔ _
      rw [List.mem_append, h.off.idle_iff, htriggered]
      simp only [false_or, List.mem_singleton, Prod.mk.injEq, and_true]
      exact ⟨fun heq => ⟨heq, heq ▸ triggered⟩, And.left⟩
    · rintro (hnoticed | htrig)
      · exact absurd hnoticed (by simp [heeded])
      · rw [htriggered, triggered] at htrig
        cases htrig
    · intro hdue
      have hclock : (x.awaitAny id consumer).clock = x.clock := rfl
      exact .inr (by omega)

/-! ## §3 Tasks come and go -/

theorem Alike.trans {z : Executor} (hxy : x.Alike y id) (hyz : y.Alike z id) : x.Alike z id :=
  ⟨hyz.task_eq.trans hxy.task_eq, hyz.runnable_iff.trans hxy.runnable_iff,
    hyz.ready_iff.trans hxy.ready_iff, hyz.space_iff.trans hxy.space_iff,
    fun handle => (hyz.idle_iff handle).trans (hxy.idle_iff handle)⟩

theorem alike_detached (x : Executor) {i : TaskId} (hi : i ≠ id) : x.Alike (x.detached id) i := by
  refine ⟨List.getElem?_modify_ne _ _ (Ne.symm hi), Iff.rfl, List.mem_erase_of_ne hi,
    List.mem_erase_of_ne hi, fun handle => ?_⟩
  show (handle, i) ∈ x.idle.filter _ ↔ _
  simp [hi]

theorem Orderly.off_detached (hx : x.Orderly) (id : TaskId) : (x.detached id).Off id := by
  refine ⟨iff_false_intro hx.ready_nodup.not_mem_erase,
    iff_false_intro hx.space_nodup.not_mem_erase, fun handle => iff_false_intro ?_⟩
  show (handle, id) ∉ x.idle.filter _
  simp

/-- A running task that is taken off all lists waits for nothing then. -/
theorem Orderly.detached (hx : x.Orderly) (runs : x.Runs id task) (live : task.live = true) :
    (x.detached id).Orderly ∧
      (x.detached id).Awake id { task with noticed := false, deadline := none } := by
  have htask := tasks_detached runs.task_eq
  have hoff := hx.off_detached id
  have htold : false = true → task.job.listens = true := fun h => by cases h
  refine ⟨⟨hx.ready_nodup.erase id, hx.space_nodup.erase id,
    hx.idle_nodup.sublist (List.filter_sublist.map _), hx.woken_nodup, hx.running_fresh, ?_,
    hx.placed_of_others id (fun i hi => x.alike_detached hi) rfl rfl ?_⟩,
    ⟨⟨runs.running_eq, htask⟩, live, rfl, htold, hoff⟩⟩
  · intro hpermit
    show x.queue.ready.waiters.erase id = []
    rw [hx.permit_alone hpermit]
    rfl
  · rw [htask]
    exact .active live rfl htold hoff (.inr runs.running_eq)

/-- A consumer that stops waiting runs on, and is on no list. -/
theorem Orderly.stopWaiting (readyFirst : Bool) (hx : x.Orderly) (runs : x.Runs id task)
    (live : task.live = true) (consumer : Consumer) (deadline : Nat) :
    (x.stopWaiting readyFirst id consumer deadline).Orderly := by
  obtain ⟨hdetached, hawake⟩ := hx.detached runs live
  exact stopWaiting_induction readyFirst runs.task_eq consumer deadline hdetached
    (hdetached.notifyReady hawake.not_waiter)

/-- The executor without a task that was cancelled, before anybody is told. -/
def gone (x : Executor) (id : TaskId) : Executor :=
  { x.detached id with
    tasks := x.tasks.modify id fun t =>
      { t with live := false, noticed := false, deadline := none }
    woken := x.woken.erase id
    journal := .cancelled id :: x.journal }

theorem erase_enlist {woken : List TaskId} {chosen : TaskId} (h : chosen ≠ id) :
    (enlist woken chosen).erase id = enlist (woken.erase id) chosen := by
  unfold enlist
  by_cases hmem : chosen ∈ woken
  · have herase : chosen ∈ woken.erase id := (List.mem_erase_of_ne h).mpr hmem
    rw [if_pos (List.contains_iff_mem.mpr hmem), if_pos (List.contains_iff_mem.mpr herase)]
  · have herase : chosen ∉ woken.erase id := (List.mem_erase_of_ne h).not.mpr hmem
    rw [if_neg (List.contains_iff_mem.not.mpr hmem), if_neg (List.contains_iff_mem.not.mpr herase),
      List.erase_append]
    split
    · rfl
    · next hid => rw [List.erase_of_not_mem hid, List.erase_of_not_mem (by simp [h.symm])]

/-- A cancelled task is taken away, and passes on a notification that it has. -/
theorem cancel_eq (hnodup : x.queue.ready.waiters.Nodup) :
    x.cancel id = if x.isNoticed id then (x.gone id).notifyReady else x.gone id := by
  unfold cancel
  rw [withdraw_eq]
  split
  · cases hwaiters : (x.detached id).queue.ready.waiters with
    | nil =>
      rw [notifyReady_nil hwaiters, notifyReady_nil (x := x.gone id) hwaiters]
      simp [updateTask, record, gone, withReady, detached, List.modify_modify_eq, Function.comp_def]
    | cons chosen rest =>
      -- The task has left the list, so it does not pass its notification to itself.
      have hne : chosen ≠ id := by
        rintro rfl
        refine hnodup.not_mem_erase (a := chosen) ?_
        show chosen ∈ (x.detached chosen).queue.ready.waiters
        rw [hwaiters]
        exact List.mem_cons_self
      rw [notifyReady_cons hwaiters, notifyReady_cons (x := x.gone id) hwaiters, notice_eq,
        notice_eq]
      simp only [updateTask, record, gone, withReady, detached]
      rw [erase_enlist hne, List.modify_modify_ne _ _ _ hne, List.modify_modify_eq]
      rfl
  · simp [updateTask, record, gone, detached, List.modify_modify_eq, Function.comp_def]

theorem Orderly.gone (hx : x.Orderly) (htask : x.tasks[id]? = some task)
    (free : x.running = none) : (x.gone id).Orderly := by
  have hgone : (x.gone id).tasks[id]? =
      some { task with live := false, noticed := false, deadline := none } := by
    show (x.tasks.modify id _)[id]? = _
    rw [List.getElem?_modify_eq, htask]
    rfl
  have hoff := hx.off_detached id
  refine ⟨hx.ready_nodup.erase id, hx.space_nodup.erase id,
    hx.idle_nodup.sublist (List.filter_sublist.map _), hx.woken_nodup.erase id, ?_, ?_,
    hx.placed_of_others id (fun i hi => (x.alike_detached hi).trans
      ⟨?_, ?_, Iff.rfl, Iff.rfl, fun _ => Iff.rfl⟩) rfl rfl ?_⟩
  · intro i hi
    rw [show (x.gone id).running = x.running from rfl, free] at hi
    cases hi
  · intro hpermit
    show x.queue.ready.waiters.erase id = []
    rw [hx.permit_alone hpermit]
    rfl
  · show (x.tasks.modify id _)[i]? = (x.tasks.modify id _)[i]?
    rw [List.getElem?_modify_ne _ _ (Ne.symm hi), List.getElem?_modify_ne _ _ (Ne.symm hi)]
  · exact or_congr_left (List.mem_erase_of_ne hi)
  · rw [hgone]
    refine .ended rfl rfl rfl ⟨hoff.ready_iff, hoff.space_iff, hoff.idle_iff⟩ ?_
    rintro (h | h)
    · exact hx.woken_nodup.not_mem_erase h
    · rw [show (x.gone id).running = x.running from rfl, free] at h
      cases h

theorem Orderly.cancel (hx : x.Orderly) (htask : x.tasks[id]? = some task)
    (free : x.running = none) : (x.cancel id).Orderly := by
  have hgone := hx.gone htask free
  rw [cancel_eq hx.ready_nodup]
  split
  · refine hgone.notifyReady fun i hi => ?_
    rw [show (x.gone id).running = x.running from rfl, free] at hi
    cases hi
  · exact hgone

theorem Orderly.add (hx : x.Orderly) (label : String) (duty : Duty) (free : x.running = none) :
    (x.add label duty).Orderly := by
  rw [Executor.add, wake_eq]
  have habsent := hx.placed x.tasks.length
  have hnone : x.tasks[x.tasks.length]? = none := List.getElem?_eq_none (Nat.le_refl _)
  rw [hnone] at habsent
  cases habsent with
  | absent off still =>
    refine ⟨hx.ready_nodup, hx.space_nodup, hx.idle_nodup, nodup_enlist hx.woken_nodup _, ?_,
      hx.permit_alone, hx.placed_of_others x.tasks.length
        (fun i hi => ⟨?_, ?_, Iff.rfl, Iff.rfl, fun _ => Iff.rfl⟩) rfl rfl ?_⟩
    · intro i hi
      rw [free] at hi
      cases hi
    · show (x.tasks ++ _)[i]? = x.tasks[i]?
      rcases Nat.lt_or_gt_of_ne hi with hlt | hgt
      · rw [List.getElem?_append_left hlt]
      · rw [List.getElem?_eq_none (show x.tasks.length ≤ i by omega)]
        refine List.getElem?_eq_none ?_
        rw [List.length_append, List.length_singleton]
        omega
    · exact or_congr_left (mem_enlist.trans (or_iff_left hi))
    · show Placed _ _ (x.tasks ++ _)[x.tasks.length]?
      rw [List.getElem?_concat_length]
      exact .active rfl rfl (fun h => by cases h) ⟨off.ready_iff, off.space_iff, off.idle_iff⟩
        (.inl (mem_enlist.mpr (.inr rfl)))

theorem Orderly.start {rest : List TaskId} (hx : x.Orderly) (free : x.running = none)
    (first : x.woken = id :: rest) :
    Orderly { x with running := some id, woken := rest } := by
  have hnodup := hx.woken_nodup
  rw [first, List.nodup_cons] at hnodup
  refine ⟨hx.ready_nodup, hx.space_nodup, hx.idle_nodup, hnodup.2, ?_, hx.permit_alone,
    fun i => (hx.placed i).alike ⟨rfl, ?_, Iff.rfl, Iff.rfl, fun _ => Iff.rfl⟩
      fun _ => ⟨rfl, rfl⟩⟩
  · intro i hi
    rw [Option.some.injEq] at hi
    subst hi
    exact hnodup.1
  · unfold IsRunnable
    rw [first, free]
    simp [or_comm, eq_comm]

/-! ## §4 Runs -/

theorem Awake.taken (h : x.Awake id task) (actor : Actor) (messages : List Message)
    (ring : Ring Message) : (x.taken actor messages ring).Awake id task :=
  ⟨⟨h.runs.running_eq, h.runs.task_eq⟩, h.live, h.awake, h.told,
    ⟨h.off.ready_iff, iff_false_intro List.not_mem_nil, h.off.idle_iff⟩⟩

theorem Awake.spend (h : x.Awake id task) :
    (x.withReady x.queue.ready.spend).Awake id task :=
  ⟨⟨h.runs.running_eq, h.runs.task_eq⟩, h.live, h.awake, h.told,
    ⟨h.off.ready_iff, h.off.space_iff, h.off.idle_iff⟩⟩

/-- A notification is for somebody who waits, and so not for a task that runs. -/
theorem Awake.notifyReady (h : x.Awake id task) : x.notifyReady.Awake id task := by
  have hrunning : x.notifyReady.running = some id := by
    rw [notifyReady_keeps running _ (fun _ _ _ => rfl)]
    exact h.runs.running_eq
  have hspace : id ∈ x.notifyReady.queue.space ↔ False := by
    rw [notifyReady_keeps (·.queue.space) _ (fun _ _ _ => rfl)]
    exact h.off.space_iff
  have hidle : ∀ handle, (handle, id) ∈ x.notifyReady.idle ↔ False := by
    rw [notifyReady_keeps idle _ (fun _ _ _ => rfl)]
    exact h.off.idle_iff
  have hothers : x.notifyReady.tasks[id]? = some task ∧
      id ∉ x.notifyReady.queue.ready.waiters := by
    cases hwaiters : x.queue.ready.waiters with
    | nil =>
      rw [notifyReady_nil hwaiters]
      exact ⟨h.runs.task_eq, List.not_mem_nil⟩
    | cons chosen rest =>
      have hnot : id ∉ chosen :: rest := by
        rw [← hwaiters]
        exact h.off.ready_iff.mp
      rw [List.mem_cons, not_or] at hnot
      rw [notifyReady_cons hwaiters, notice_eq]
      refine ⟨?_, hnot.2⟩
      show (x.tasks.modify chosen _)[id]? = _
      rw [List.getElem?_modify_ne _ _ (Ne.symm hnot.1)]
      exact h.runs.task_eq
  exact ⟨⟨hrunning, hothers.1⟩, h.live, h.awake, h.told,
    ⟨iff_false_intro hothers.2, hspace, hidle⟩⟩

theorem Awake.push {memory : Memory} {actor : Actor} {message : Message} (h : x.Awake id task)
    (accepted : x.push memory actor message = .ok y) : y.Awake id task := by
  obtain ⟨placement, ring, -, rfl⟩ := push_ok accepted
  have hstored : (x.stored actor message placement ring).Awake id task :=
    ⟨⟨h.runs.running_eq, h.runs.task_eq⟩, h.live, h.awake, h.told,
      ⟨h.off.ready_iff, h.off.space_iff, h.off.idle_iff⟩⟩
  exact hstored.notifyReady

theorem Awake.trigger (h : x.Awake id task) (handle : HandleId) :
    (x.trigger handle).Awake id task := by
  rw [trigger_eq]
  refine ⟨⟨h.runs.running_eq, h.runs.task_eq⟩, h.live, h.awake, h.told,
    ⟨h.off.ready_iff, h.off.space_iff, fun other => iff_false_intro fun hmem => ?_⟩⟩
  exact (h.off.idle_iff other).mp (List.mem_of_mem_filter hmem)

/-- A consumer whose handler has answered goes on to run. -/
theorem Orderly.handle {memory : Memory} {consumer : Consumer} {item : WorkItem}
    (hx : x.Orderly) (h : x.Awake id task) (job : task.job = .consume consumer) :
    (x.handle memory id consumer item).Orderly := by
  have heeded : task.noticed = false := h.heeded (by rw [job]; rfl)
  -- The consumer is on no list while its handler acts, so nothing that the handler does wakes it.
  let P (y : Executor) : Prop := y.Orderly ∧ y.Awake id task
  have hacted : P (actAll memory id consumer (consumer.react item).actions x).2 := by
    refine actAll_induction consumer ?_ ?_ _ ⟨hx, h⟩
    · exact fun hy accepted => ⟨hy.1.push hy.2.not_waiter accepted, hy.2.push accepted⟩
    · exact fun handle hy => ⟨hy.1.trigger handle (hy.2.not_idle handle), hy.2.trigger handle⟩
  obtain ⟨hupdated, -⟩ := hacted.1.update hacted.2
    (fun t => { t with job := .consume (consumer.tally (consumer.react item).complaint) })
    h.live h.awake (fun hnoticed => absurd hnoticed (by simp [heeded]))
  exact hupdated.of_same_tasks

/-- Every move keeps the tasks in order. -/
theorem Orderly.move (hx : x.Orderly) (h : x.Move y) : y.Orderly := by
  have hfree : ∀ {z : Executor} {P : TaskId → Prop}, z.running = none →
      ∀ i, z.running = some i → P i := by
    intro z P free i hi
    rw [free] at hi
    cases hi
  cases h with
  | callerPush free accepted => exact hx.push (hfree free) accepted
  | callerTake free _ _ => exact hx.taken _ _ _
  | add label duty free => exact hx.add label duty free
  | cancel free found _ => exact hx.cancel found free
  | callerTrigger handle free => exact hx.trigger handle (hfree free)
  | advance millis free => exact hx.advance millis free
  | start free first => exact hx.start free first
  | @vanish id running absent =>
    obtain ⟨task, htask, -⟩ := (hx.placed id).live (.inr running)
    rw [absent] at htask
    cases htask
  | @receive id task message ring runs job _ =>
    have hawake := hx.awake_of_job runs (by simp [job])
    obtain ⟨hheed, hheeded⟩ := hx.heed hawake
    exact (hheed.taken _ _ _).finish (hheeded.taken _ _ _) rfl _
  | receiveAgain runs job _ _ =>
    exact (hx.heed (hx.awake_of_job runs (by simp [job]))).1.spend
  | receiveWait runs job _ permit =>
    obtain ⟨hheed, hheeded⟩ := hx.heed (hx.awake_of_job runs (by simp [job]))
    exact hheed.awaitReady hheeded rfl (by rw [job]; rfl) permit
  | ready runs job _ =>
    obtain ⟨hheed, hheeded⟩ := hx.heed (hx.awake_of_job runs (by simp [job]))
    exact hheed.finish hheeded rfl _
  | readyAtOnce runs job noticed _ =>
    have hawake := hx.awake_of_job runs (by simp [job])
    exact hx.spend.finish hawake.spend noticed _
  | readyWait runs job noticed permit =>
    exact hx.awaitReady (hx.awake_of_job runs (by simp [job])) noticed (by rw [job]; rfl) permit
  | deliver runs job accepted =>
    obtain ⟨hlistens, hconsumes⟩ := Job.not_of_message job
    have hawake := hx.awake_of_job runs hconsumes
    exact (hx.push hawake.not_waiter accepted).finish (hawake.push accepted)
      (hawake.heeded hlistens) _
  | queueUp runs job _ _ =>
    obtain ⟨hlistens, hconsumes⟩ := Job.not_of_message job
    have hawake := hx.awake_of_job runs hconsumes
    exact hx.awaitSpace hawake (hawake.heeded hlistens) (by rw [job]; rfl)
  | giveUp runs job _ _ =>
    obtain ⟨hlistens, hconsumes⟩ := Job.not_of_message job
    have hawake := hx.awake_of_job runs hconsumes
    exact hx.finish hawake (hawake.heeded hlistens) _
  | @stopWaiting id task consumer deadline readyFirst runs _ _ =>
    exact hx.stopWaiting readyFirst runs (hx.live_of_runs runs) consumer deadline
  | shutDown runs job awake _ =>
    have hawake := hx.awake runs awake
    exact hx.finish hawake (hawake.heeded (by rw [job]; rfl)) _
  | takeStop runs job awake _ _ =>
    have hawake := hx.awake runs awake
    exact (hx.taken _ _ _).finish (hawake.taken _ _ _) (hawake.heeded (by rw [job]; rfl)) _
  | handle runs job awake _ _ =>
    have hawake := hx.awake runs awake
    exact (hx.taken _ _ _).handle (hawake.taken _ _ _) job
  | consumeAgain => exact hx.spend
  | consumeWait runs job awake triggered _ permit =>
    exact hx.awaitAny (hx.awake runs awake) job triggered permit

theorem Queue.Fresh.orderly {q : Queue Message} (h : q.Fresh) : (ofQueue q).Orderly := by
  obtain ⟨_, _, _, ring, _, hq⟩ := h.create
  rw [hq]
  have hoff : ∀ i, (ofQueue (.ofRing q.name ring)).Off i := fun i =>
    ⟨iff_false_intro List.not_mem_nil, iff_false_intro List.not_mem_nil,
      fun _ => iff_false_intro List.not_mem_nil⟩
  refine ⟨.nil, .nil, .nil, .nil, fun i hi => (by cases hi), fun _ => rfl,
    fun i => .absent (hoff i) ?_⟩
  rintro (h | h)
  · cases h
  · cases h

/-- In every run all tasks stand where they should. -/
theorem Reachable.orderly (h : x.Reachable) : x.Orderly :=
  h.induction (fun _ hq => Queue.Fresh.orderly hq) fun _ _ _ hy hmove => hy.move hmove

end Handoff.Executor
