/-
Handoff.Proofs.Executor.Frame — which parts of an executor its operations change.

Waking only adds to `woken`, and taking messages off the queue has one form whether it is one
message or all of them (`taken`). A push stores the message (`stored`) and then notifies `ready`
like any other notification. With these forms a proof about an operation is a proof about the few
fields that the form names; everything else is unchanged by the look of it.

  §1 waking                 — `enlist`, `wakeAll_eq`
  §2 notifying              — `notifyReady_nil`, `notifyReady_cons`
  §3 storing and taking     — `stored`, `taken`, `push_ok`, `pop_cons`, `drain_cons`
  §4 going away             — `detached`, `withdraw_induction`, `stopWaiting_cases`
  §5 handles and handlers   — `trigger_eq`, `actAll_induction`
-/
import Handoff.Executor.Command
import Handoff.Proofs.Ring.Representation

namespace Handoff.Executor

/-! ## §1 Waking -/

/-- The tasks to run when one more is woken. -/
def enlist (woken : List TaskId) (id : TaskId) : List TaskId :=
  if woken.contains id then woken else woken ++ [id]

theorem mem_enlist {woken : List TaskId} {id i : TaskId} :
    i ∈ enlist woken id ↔ i ∈ woken ∨ i = id := by
  unfold enlist
  split
  · next h =>
    have hmem : id ∈ woken := List.contains_iff_mem.mp h
    constructor
    · exact .inl
    · rintro (hi | rfl)
      · exact hi
      · exact hmem
  · simp

theorem nodup_concat {ids : List TaskId} {id : TaskId} (h : ids.Nodup) (hid : id ∉ ids) :
    (ids ++ [id]).Nodup := by
  rw [List.nodup_append]
  refine ⟨h, by simp, fun i hi j hj => ?_⟩
  rw [List.mem_singleton] at hj
  subst hj
  exact fun heq => hid (heq ▸ hi)

theorem nodup_enlist {woken : List TaskId} (h : woken.Nodup) (id : TaskId) :
    (enlist woken id).Nodup := by
  unfold enlist
  split
  · exact h
  · next hid => exact nodup_concat h fun hmem => hid (List.contains_iff_mem.mpr hmem)

theorem mem_foldl_enlist {ids woken : List TaskId} {i : TaskId} :
    i ∈ ids.foldl enlist woken ↔ i ∈ woken ∨ i ∈ ids := by
  induction ids generalizing woken with
  | nil => simp
  | cons id rest ih => rw [List.foldl_cons, ih, mem_enlist, List.mem_cons, or_assoc]

theorem nodup_foldl_enlist {woken : List TaskId} (h : woken.Nodup) (ids : List TaskId) :
    (ids.foldl enlist woken).Nodup := by
  induction ids generalizing woken with
  | nil => exact h
  | cons id rest ih => exact ih (nodup_enlist h id)

theorem wake_eq (x : Executor) (id : TaskId) :
    x.wake id = { x with woken := enlist x.woken id } := by
  unfold wake enlist
  split <;> rfl

theorem wakeAll_eq (x : Executor) (ids : List TaskId) :
    x.wakeAll ids = { x with woken := ids.foldl enlist x.woken } := by
  unfold wakeAll
  induction ids generalizing x with
  | nil => rfl
  | cons id rest ih => rw [List.foldl_cons, ih, wake_eq, List.foldl_cons]

/-! ## §2 Notifying -/

theorem notice_eq (x : Executor) (id : TaskId) :
    x.notice id = { x with
      tasks := x.tasks.modify id fun t => { t with noticed := true }
      woken := enlist x.woken id } := by
  rw [notice, wake_eq]
  rfl

/-- Without a waiter the notification is kept as the permit. -/
theorem notifyReady_nil {x : Executor} (h : x.queue.ready.waiters = []) :
    x.notifyReady = x.withReady ⟨[], true⟩ := by
  unfold notifyReady Signal.notifyOne
  rw [h]
  rfl

/-- The oldest waiter gets the notification and waits no longer. -/
theorem notifyReady_cons {x : Executor} {id : TaskId} {rest : List TaskId}
    (h : x.queue.ready.waiters = id :: rest) :
    x.notifyReady = (x.withReady ⟨rest, x.queue.ready.permit⟩).notice id := by
  unfold notifyReady Signal.notifyOne
  rw [h]
  rfl

/-- A notification changes the signal `ready`, the tasks and their order, and nothing else. -/
theorem notifyReady_keeps {β : Type} (f : Executor → β) (x : Executor)
    (hf : ∀ ready tasks woken, f { x.withReady ready with tasks, woken } = f x) :
    f x.notifyReady = f x := by
  cases h : x.queue.ready.waiters with
  | nil =>
    rw [notifyReady_nil h]
    exact hf _ x.tasks x.woken
  | cons id rest =>
    rw [notifyReady_cons h, notice_eq]
    exact hf _ _ _

theorem awaitReadyOr_permit {x : Executor} (h : x.queue.ready.permit = true)
    (onPermit wait : Executor → Executor) :
    x.awaitReadyOr onPermit wait = onPermit (x.withReady x.queue.ready.spend) := if_pos h

theorem awaitReadyOr_wait {x : Executor} (h : x.queue.ready.permit = false)
    (onPermit wait : Executor → Executor) : x.awaitReadyOr onPermit wait = wait x := by
  rw [awaitReadyOr, h, if_neg (by simp)]

/-! ## §3 Storing and taking -/

/-- The executor whose ring took in a message, before anybody is told. -/
def stored (x : Executor) (actor : Actor) (message : Message) (placement : Placement)
    (ring : Ring Message) : Executor :=
  { x with
    queue := { x.queue with
      ring
      pushed := x.queue.pushed + 1
      grows := x.queue.grows + Queue.growthOf placement }
    journal := .accepted actor message :: x.journal }

/-- The executor after messages left its ring: the producers that wait for room are woken. -/
def taken (x : Executor) (actor : Actor) (messages : List Message) (ring : Ring Message) :
    Executor :=
  { x with
    queue := { x.queue with
      ring
      space := []
      popped := x.queue.popped + UInt64.ofNat messages.length }
    woken := x.queue.space.foldl enlist x.woken
    journal := (messages.map (Event.removed actor)).reverse ++ x.journal }

theorem push_ok {memory : Memory} {x y : Executor} {actor : Actor} {message : Message}
    (h : x.push memory actor message = .ok y) :
    ∃ placement ring, x.queue.ring.push memory message = .ok (placement, ring) ∧
      y = (x.stored actor message placement ring).notifyReady := by
  unfold push Queue.push at h
  cases hring : x.queue.ring.push memory message with
  | error rejection => simp [hring] at h
  | ok stored =>
    obtain ⟨placement, ring⟩ := stored
    simp only [hring, Except.ok.injEq] at h
    exact ⟨placement, ring, rfl, h.symm⟩

/-- A push that is accepted is one that the ring accepts, and the task that runs goes on. -/
theorem ring_push {memory : Memory} {x y : Executor} {actor : Actor} {message : Message}
    (h : x.push memory actor message = .ok y) :
    (∃ placement, x.queue.ring.push memory message = .ok (placement, y.queue.ring)) ∧
      y.running = x.running := by
  obtain ⟨placement, ring, hring, rfl⟩ := push_ok h
  refine ⟨⟨placement, ?_⟩, notifyReady_keeps running _ (fun _ _ _ => rfl)⟩
  rw [notifyReady_keeps (·.queue.ring) _ (fun _ _ _ => rfl)]
  exact hring

theorem push_error {memory : Memory} {x : Executor} {actor : Actor} {message : Message}
    {rejection : Rejection Message} (h : x.push memory actor message = .error rejection) :
    x.queue.ring.push memory message = .error rejection := by
  unfold push Queue.push at h
  cases hring : x.queue.ring.push memory message with
  | error other =>
    simp only [hring, Except.error.injEq] at h
    rw [h]
  | ok stored => simp [hring] at h

theorem pop_nil {x : Executor} (h : x.queue.ring.Holds []) (actor : Actor) :
    x.pop actor = (none, x) := by
  unfold pop Queue.pop
  rw [h.pop_nil]

theorem pop_cons {x : Executor} {message : Message} {rest : List Message}
    (h : x.queue.ring.Holds (message :: rest)) (actor : Actor) :
    x.pop actor = (some message, x.taken actor [message] x.queue.ring.pop.2) := by
  have hring : x.queue.ring.pop = (some message, x.queue.ring.pop.2) := by rw [← h.pop_cons.1]
  unfold pop Queue.pop
  rw [hring]
  simp only [wakeAll_eq]
  rfl

theorem foldl_record (x : Executor) (actor : Actor) (messages : List Message) :
    messages.foldl (fun (y : Executor) message => y.record (.removed actor message)) x =
      { x with journal := (messages.map (Event.removed actor)).reverse ++ x.journal } := by
  induction messages generalizing x with
  | nil => rfl
  | cons message rest ih =>
    rw [List.foldl_cons, ih]
    simp [record]

theorem drain_nil {x : Executor} (h : x.queue.ring.Holds []) (actor : Actor) :
    x.drain actor = ([], x) := by
  have hring : x.queue.ring.drain = ([], x.queue.ring) := by
    unfold Ring.drain
    rw [h.count_eq]
    rfl
  unfold drain Queue.drain
  rw [hring]
  rfl

theorem drain_cons {x : Executor} {message : Message} {rest : List Message}
    (h : x.queue.ring.Holds (message :: rest)) (actor : Actor) :
    x.drain actor =
      (message :: rest, x.taken actor (message :: rest) x.queue.ring.drain.2) := by
  have hring : x.queue.ring.drain = (message :: rest, x.queue.ring.drain.2) := by
    rw [← h.drain.1]
  unfold drain Queue.drain
  rw [hring]
  simp only [wakeAll_eq, foldl_record]
  rfl

/-! ## §4 Going away -/

/-- The executor without a task on its lists; what the task was told is forgotten. -/
def detached (x : Executor) (id : TaskId) : Executor :=
  { x with
    queue := { x.queue with
      ready := x.queue.ready.leave id
      space := x.queue.space.erase id }
    idle := x.idle.filter fun entry => entry.2 != id
    tasks := x.tasks.modify id fun t => { t with noticed := false, deadline := none } }

/-- A task that goes away with a notification passes it on. -/
theorem withdraw_eq (x : Executor) (id : TaskId) :
    x.withdraw id = if x.isNoticed id then (x.detached id).notifyReady else x.detached id := rfl

/-- What is true of the executor without the task on its lists, whether or not somebody is told of
a message then, is true after the task has gone away. -/
theorem withdraw_induction {P : Executor → Prop} {x : Executor} (id : TaskId)
    (hdetached : P (x.detached id)) (hnotified : P (x.detached id).notifyReady) :
    P (x.withdraw id) := by
  rw [withdraw_eq]
  split
  · exact hnotified
  · exact hdetached

/-- Going away changes neither the messages nor who runs. -/
theorem withdraw_keeps {β : Type} (f : Executor → β) (x : Executor) (id : TaskId)
    (hdetached : f (x.detached id) = f x)
    (hf : ∀ (y : Executor) ready tasks woken, f { y.withReady ready with tasks, woken } = f y) :
    f (x.withdraw id) = f x :=
  withdraw_induction (P := fun y => f y = f x) id hdetached
    ((notifyReady_keeps f _ (hf _)).trans hdetached)

theorem running_cancel (x : Executor) (id : TaskId) : (x.cancel id).running = x.running :=
  withdraw_keeps running x id rfl (fun _ _ _ _ => rfl)

theorem ring_cancel (x : Executor) (id : TaskId) :
    (x.cancel id).queue.ring = x.queue.ring :=
  withdraw_keeps (·.queue.ring) x id rfl (fun _ _ _ _ => rfl)

theorem isNoticed_eq {x : Executor} {id : TaskId} {task : Task} (h : x.tasks[id]? = some task) :
    x.isNoticed id = task.noticed := by
  rw [isNoticed, h]

theorem tasks_detached {x : Executor} {id : TaskId} {task : Task}
    (h : x.tasks[id]? = some task) :
    (x.detached id).tasks[id]? = some { task with noticed := false, deadline := none } := by
  show (x.tasks.modify id _)[id]? = _
  rw [List.getElem?_modify_eq, h]
  rfl

theorem tasks_heed {x : Executor} {id : TaskId} {task : Task} (h : x.tasks[id]? = some task) :
    (x.heed id).tasks[id]? = some { task with noticed := false } := by
  rw [heed, updateTask]
  simp [h]

/-- A notification changes of a task at most whether it holds one. -/
theorem tasks_notifyReady {x : Executor} {id : TaskId} {task : Task}
    (h : x.tasks[id]? = some task) :
    ∃ noticed, x.notifyReady.tasks[id]? = some { task with noticed } := by
  cases hw : x.queue.ready.waiters with
  | nil =>
    rw [notifyReady_nil hw]
    exact ⟨task.noticed, h⟩
  | cons chosen rest =>
    rw [notifyReady_cons hw, notice_eq]
    by_cases heq : chosen = id
    · subst heq
      exact ⟨true, by simp [withReady, h]⟩
    · exact ⟨task.noticed, by simp [withReady, heq, h]⟩

/-- A push changes of a task at most whether it holds a notification. -/
theorem tasks_push {memory : Memory} {x y : Executor} {actor : Actor} {message : Message}
    {id : TaskId} {task : Task} (accepted : x.push memory actor message = .ok y)
    (h : x.tasks[id]? = some task) : ∃ noticed, y.tasks[id]? = some { task with noticed } := by
  obtain ⟨placement, ring, -, rfl⟩ := push_ok accepted
  exact tasks_notifyReady h

/-- A consumer that stops waiting goes away from its lists. A notification that it has is passed on
if it does not see it first. -/
theorem stopWaiting_cases (readyFirst : Bool) {x : Executor} {id : TaskId} {task : Task}
    (h : x.tasks[id]? = some task) (consumer : Consumer) (deadline : Nat) :
    (x.stopWaiting readyFirst id consumer deadline = x.detached id ∧
      (task.noticed = true → readyFirst = true ∨
        x.isTriggered consumer.handle = false ∧ x.clock < deadline)) ∨
    (x.stopWaiting readyFirst id consumer deadline = (x.detached id).notifyReady ∧
      task.noticed = true ∧ readyFirst = false ∧
        (x.isTriggered consumer.handle = true ∨ deadline ≤ x.clock)) := by
  have hheed : (x.heed id).withdraw id = x.detached id := by
    rw [withdraw_eq, isNoticed_eq (tasks_heed h), if_neg (by simp), detached, detached, heed,
      updateTask]
    simp [List.modify_modify_eq, Function.comp_def]
  unfold stopWaiting
  rw [isNoticed_eq h, hheed, withdraw_eq, isNoticed_eq h]
  cases hnoticed : task.noticed with
  | false => exact .inl ⟨by simp, fun hfalse => by cases hfalse⟩
  | true =>
    cases readyFirst with
    | true => exact .inl ⟨by simp, fun _ => .inl rfl⟩
    | false =>
      cases htrig : x.isTriggered consumer.handle with
      | true => exact .inr ⟨by simp, rfl, rfl, .inl rfl⟩
      | false =>
        by_cases hdue : deadline ≤ x.clock
        · exact .inr ⟨by simp [hdue], rfl, rfl, .inr hdue⟩
        · exact .inl ⟨by simp [hdue], fun _ => .inr ⟨rfl, by omega⟩⟩

/-- A consumer that stops waiting goes away like any task. -/
theorem stopWaiting_induction {P : Executor → Prop} (readyFirst : Bool) {x : Executor}
    {id : TaskId} {task : Task} (h : x.tasks[id]? = some task) (consumer : Consumer)
    (deadline : Nat) (hdetached : P (x.detached id)) (hnotified : P (x.detached id).notifyReady) :
    P (x.stopWaiting readyFirst id consumer deadline) := by
  rcases stopWaiting_cases readyFirst h consumer deadline with ⟨h, -⟩ | ⟨h, -⟩
  · rw [h]
    exact hdetached
  · rw [h]
    exact hnotified

/-- A consumer that stops waiting changes lists, its own task and at most one other. -/
theorem stopWaiting_keeps {β : Type} (f : Executor → β) (readyFirst : Bool) {x : Executor}
    {id : TaskId} {task : Task} (h : x.tasks[id]? = some task) (consumer : Consumer)
    (deadline : Nat) (hdetached : f (x.detached id) = f x)
    (hf : ∀ (y : Executor) ready tasks woken, f { y.withReady ready with tasks, woken } = f y) :
    f (x.stopWaiting readyFirst id consumer deadline) = f x :=
  stopWaiting_induction (P := fun y => f y = f x) readyFirst h consumer deadline hdetached
    ((notifyReady_keeps f _ (hf _)).trans hdetached)

/-! ## §5 Handles and handlers -/

theorem trigger_eq (x : Executor) (handle : HandleId) :
    x.trigger handle = { x with
      triggered := if x.isTriggered handle then x.triggered else handle :: x.triggered
      idle := x.idle.filter fun entry => entry.1 != handle
      woken := ((x.idle.filter fun entry => entry.1 == handle).map (·.2)).foldl enlist
        x.woken } := by
  unfold trigger
  rw [wakeAll_eq]

theorem tasks_trigger (x : Executor) (handle : HandleId) : (x.trigger handle).tasks = x.tasks := by
  rw [trigger_eq]

theorem running_trigger (x : Executor) (handle : HandleId) :
    (x.trigger handle).running = x.running := by
  rw [trigger_eq]

/-- What is kept by every trigger, and by every push of a message that one of the actions pushes, is
kept by a handler. -/
theorem actAll_induction_of_mem {P : Executor → Prop} {memory : Memory} {id : TaskId}
    (consumer : Consumer) (actions : List Action)
    (hpush : ∀ {y z : Executor} {message : Message},
      message = .stop ∨ (∃ item, message = .data item ∧ .submit item ∈ actions) → P y →
        y.push memory (.task id) message = .ok z → P z)
    (htrigger : ∀ {y : Executor} (handle : HandleId), P y → P (y.trigger handle))
    {x : Executor} (hx : P x) : P (actAll memory id consumer actions x).2 := by
  induction actions generalizing x with
  | nil => exact hx
  | cons action rest ih =>
    have hpushed : ∀ message,
        message = .stop ∨ (∃ item, message = .data item ∧ .submit item ∈ action :: rest) →
          P (act.pushed memory x id message).2 := by
      intro message hmessage
      unfold act.pushed
      cases h : x.push memory (.task id) message with
      | ok y => exact hpush hmessage hx h
      | error rejection => exact hx
    have hact : P (x.act memory id consumer action).2 := by
      cases action with
      | shutDown handle => exact htrigger _ hx
      | stop => exact hpushed .stop (.inl rfl)
      | submit item => exact hpushed (.data item) (.inr ⟨item, rfl, List.mem_cons_self⟩)
    refine ih (fun hmessage => hpush (hmessage.imp_right ?_)) hact
    rintro ⟨item, rfl, hmem⟩
    exact ⟨item, rfl, List.mem_cons_of_mem _ hmem⟩

/-- What every push and every trigger keeps is kept by a handler. -/
theorem actAll_induction {P : Executor → Prop} {memory : Memory} {id : TaskId}
    (consumer : Consumer)
    (hpush : ∀ {y z : Executor} {message : Message}, P y →
      y.push memory (.task id) message = .ok z → P z)
    (htrigger : ∀ {y : Executor} (handle : HandleId), P y → P (y.trigger handle))
    (actions : List Action) {x : Executor} (hx : P x) :
    P (actAll memory id consumer actions x).2 :=
  actAll_induction_of_mem consumer actions (fun _ => hpush) htrigger hx

end Handoff.Executor
