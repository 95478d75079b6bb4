/-
Handoff.Proofs.Executor.Rest — the tasks come to rest.

Tasks wake each other all the time: a push wakes a receiver, a removal wakes every producer that
waits for room, a consumer that stops waiting passes its notification on, and time wakes consumers
that are to look again. Most of these turns lead to nothing. They come to an end all the same,
because three stores are drawn on, and what a turn adds to one it takes from a greater one:

* the `stock`: the tasks that have not ended, the items that producers still hold, and those that
  are queued. Whoever takes a message, pushes one or ends draws on it, and nothing adds to it. A
  handler may push stop messages, but none of them is worth anything: each ends the task that takes
  it;
* the `overdue`: the idle consumers whose time has come. Such a consumer may pass a notification on
  when it stops waiting, but then it is overdue no more, and its next deadline is still to come;
* the `bustle`: the tasks that are woken or run, and the permit. Any other turn draws on it: a task
  starts, spends the permit, or comes to rest.

So the three together weigh less after every turn (`Lowers`), and their weight bounds the turns to
come. Of the consumers it is asked that they be tame: their handlers push no items, and their poll
intervals are not zero, as those of checked settings are not. What the memory refuses, and which of
two reasons to go on a consumer sees first, may change from turn to turn.

  §1 the stores      — `stock`, `overdue`, `bustle`, `weight`
  §2 drawing         — `Lowers`, `Lowers.weight_lt`
  §3 the stock       — `stock_finish`, `stock_push`, `stock_taken`, `stock_handle`
  §4 turns           — `deadlines`, `Move.lowers`, `lowers_of_idle`, `Reachable.lowers`
  §5 rest            — `turns`, `Reachable.poll_ends`, `comes_to_rest`
-/
import Mathlib.Data.List.Perm.Subperm
import Handoff.Proofs.Executor.Tame
import Handoff.Proofs.Executor.Wakeups

namespace Handoff

/-! ## §1 The stores -/

/-- Whether the task is a producer that still holds an item. -/
def Task.sends (t : Task) : Bool := t.live && t.job.message?.any fun message => !message.isStop

/-- Whether the task is an idle consumer that is to look again by now. -/
def Task.isDue (clock : Nat) (t : Task) : Bool := t.deadline.any fun deadline => deadline ≤ clock

namespace Executor

variable {x y z : Executor} {id : TaskId} {task : Task}

/-- The tasks that have not ended, the items that producers hold, and those that are queued. -/
def stock (x : Executor) : Nat :=
  x.tasks.countP (·.live) + x.tasks.countP Task.sends +
    x.queue.toList.countP fun message => !message.isStop

/-- The idle consumers whose time has come. -/
def overdue (x : Executor) : Nat := x.tasks.countP (Task.isDue x.clock)

/-- What is to be done before all tasks wait: a woken task starts, looks whether there is a permit,
and comes to rest. -/
def bustle (x : Executor) : Nat :=
  3 * x.woken.length + 2 * x.running.toList.length + x.queue.ready.permit.toNat

/-- What one of the overdue is worth: more than all bustle can be. -/
def overdueWorth (x : Executor) : Nat := 3 * x.tasks.length + 4

/-- A bound of the turns to come. -/
def weight (x : Executor) : Nat :=
  x.stock * ((x.tasks.length + 1) * x.overdueWorth) + x.overdue * x.overdueWorth + x.bustle

theorem overdue_le (x : Executor) : x.overdue ≤ x.tasks.length := List.countP_le_length

/-- Only tasks that exist are woken, and none twice. -/
theorem Orderly.bustle_lt (hx : x.Orderly) : x.bustle < x.overdueWorth := by
  have hsubset : x.woken ⊆ List.range x.tasks.length := by
    intro id hid
    obtain ⟨task, htask, -⟩ := (hx.placed id).live (.inl hid)
    exact List.mem_range.mpr (List.getElem?_eq_some_iff.mp htask).1
  have hwoken : x.woken.length ≤ x.tasks.length := by
    simpa using (List.subperm_of_subset hx.woken_nodup hsubset).length_le
  have hrunning : x.running.toList.length ≤ 1 := by cases x.running <;> simp
  have hpermit := Bool.toNat_le x.queue.ready.permit
  unfold bustle overdueWorth
  omega

/-! ## §2 Drawing -/

/-- Something is drawn from one store, and nothing is added to those before it. -/
inductive Lowers (x y : Executor) : Prop where
  | draws (stock : y.stock < x.stock)
  | lapses (stock : y.stock ≤ x.stock) (overdue : y.overdue < x.overdue)
  | calms (stock : y.stock ≤ x.stock) (overdue : y.overdue ≤ x.overdue)
      (bustle : y.bustle < x.bustle)

namespace Lowers

/-- What is lower is lower than anything that has no less. -/
theorem of_le (h : z.Lowers y) (stock : z.stock ≤ x.stock) (overdue : z.overdue ≤ x.overdue)
    (bustle : z.bustle ≤ x.bustle) : x.Lowers y := by
  cases h with
  | draws less => exact .draws (by omega)
  | lapses le less => exact .lapses (by omega) (by omega)
  | calms le le' less => exact .calms (by omega) (by omega) (by omega)

/-- Where one is overdue no more, any bustle may follow. -/
theorem of_lapse (h : z.Lowers y) (stock : z.stock ≤ x.stock) (overdue : z.overdue < x.overdue) :
    x.Lowers y := by
  cases h with
  | draws less => exact .draws (by omega)
  | lapses le less => exact .lapses (by omega) (by omega)
  | calms le le' less => exact .lapses (by omega) (by omega)

/-- A task comes to rest. -/
theorem of_rest (running : x.running = some id) (stock : y.stock ≤ x.stock)
    (overdue : y.overdue ≤ x.overdue) (rests : y.running = none) (woken : y.woken = x.woken)
    (permit : y.queue.ready.permit = x.queue.ready.permit) : x.Lowers y := by
  refine .calms stock overdue ?_
  simp only [bustle, running, rests, woken, permit, Option.toList_some, Option.toList_none,
    List.length_singleton, List.length_nil]
  omega

/-- A task spends the permit. -/
theorem of_spend (stock : y.stock ≤ x.stock) (overdue : y.overdue ≤ x.overdue)
    (running : y.running = x.running) (woken : y.woken = x.woken)
    (permit : x.queue.ready.permit = true) (spent : y.queue.ready.permit = false) :
    x.Lowers y := by
  refine .calms stock overdue ?_
  simp only [bustle, running, woken, permit, spent, Bool.toNat_true, Bool.toNat_false]
  omega

/-- What was drawn from a store outweighs all that was added to those after it. -/
theorem weight_lt (h : x.Lowers y) (same : y.tasks.length = x.tasks.length)
    (hy : y.Orderly) : y.weight < x.weight := by
  have hoverdue := y.overdue_le
  have hbustle := hy.bustle_lt
  unfold weight
  unfold overdueWorth at hbustle ⊢
  rw [same] at hoverdue hbustle ⊢
  generalize 3 * x.tasks.length + 4 = m at *
  have hwhole : (x.tasks.length + 1) * m = x.tasks.length * m + m := Nat.succ_mul _ _
  have hpart : y.overdue * m ≤ x.tasks.length * m := Nat.mul_le_mul_right m hoverdue
  generalize (x.tasks.length + 1) * m = n at *
  cases h with
  | draws less =>
    have hstock : y.stock * n + n ≤ x.stock * n := by
      rw [← Nat.succ_mul]
      exact Nat.mul_le_mul_right n less
    omega
  | lapses le less =>
    have hstock : y.stock * n ≤ x.stock * n := Nat.mul_le_mul_right n le
    have hlapse : y.overdue * m + m ≤ x.overdue * m := by
      rw [← Nat.succ_mul]
      exact Nat.mul_le_mul_right m less
    omega
  | calms le le' less =>
    have hstock : y.stock * n ≤ x.stock * n := Nat.mul_le_mul_right n le
    have hsame : y.overdue * m ≤ x.overdue * m := Nat.mul_le_mul_right m le'
    omega

end Lowers

/-! ## §3 The stock -/

/-- Whether a task has not ended, and whether it is a producer that holds an item: all that the stock
knows of it. -/
def liveAndSends (t : Task) : Bool × Bool := (t.live, t.sends)

theorem aspect_liveAndSends : Aspect liveAndSends := fun _ _ _ => rfl

theorem stock_of_liveAndSends (same : y.tasks.map liveAndSends = x.tasks.map liveAndSends)
    (ring : y.queue.ring = x.queue.ring) : y.stock = x.stock := by
  have hlive : y.tasks.countP (·.live) = x.tasks.countP (·.live) := by
    simpa [List.countP_map, Function.comp_def, liveAndSends] using congrArg (List.countP (·.1)) same
  have hsends : y.tasks.countP Task.sends = x.tasks.countP Task.sends := by
    simpa [List.countP_map, Function.comp_def, liveAndSends] using congrArg (List.countP (·.2)) same
  rw [stock, stock, hlive, hsends, Queue.toList, Queue.toList, ring]

theorem stock_notifyReady (x : Executor) : x.notifyReady.stock = x.stock :=
  stock_of_liveAndSends (aspect_liveAndSends.notifyReady x)
    (notifyReady_keeps (·.queue.ring) x fun _ _ _ => rfl)

theorem stock_heed (x : Executor) (id : TaskId) : (x.heed id).stock = x.stock :=
  stock_of_liveAndSends (aspect_liveAndSends.heed x id) rfl

/-- A task that ends is worth one, and one more if it still held an item. -/
theorem stock_finish (htask : x.tasks[id]? = some task) (live : task.live = true)
    (outcome : Outcome) : (x.finish id outcome).stock + 1 + task.sends.toNat = x.stock := by
  have hlive := countP_modify (p := (·.live)) (f := fun t => { t with live := false }) htask
  have hsends := countP_modify (p := Task.sends) (f := fun t => { t with live := false }) htask
  have hdead : Task.sends { task with live := false } = false := rfl
  simp only [live, hdead, Bool.toNat_true, Bool.toNat_false] at hlive hsends
  simp only [stock, finish, updateTask, record, rest]
  omega

/-- A queued message is worth one if it is an item. -/
theorem stock_push {memory : Memory} {actor : Actor} {message : Message} {items : List Message}
    (hitems : x.queue.ring.Holds items) (accepted : x.push memory actor message = .ok y) :
    y.stock = x.stock + (!message.isStop).toNat := by
  obtain ⟨placement, ring, hring, rfl⟩ := push_ok accepted
  have hlist : ring.toList = x.queue.ring.toList ++ [message] := by
    rw [(hitems.push hring).1.toList_eq, hitems.toList_eq]
  rw [stock_notifyReady]
  simp only [stock, stored, Queue.toList, hlist, List.countP_append, List.countP_singleton]
  cases message.isStop <;> simp +arith

theorem stock_taken {messages : List Message} {ring : Ring Message} (actor : Actor)
    (leaves : x.queue.ring.Leaves messages ring) :
    (x.taken actor messages ring).stock + messages.countP (fun message => !message.isStop) =
      x.stock := by
  obtain ⟨others, hall, hothers⟩ := leaves.holds
  simp only [stock, taken, Queue.toList, hall.toList_eq, hothers.toList_eq, List.countP_append]
  omega

/-- No more tasks satisfy what one of them may have stopped to satisfy. -/
theorem countP_modify_le {p : Task → Bool} {f : Task → Task} (tasks : List Task) (id : TaskId)
    (h : ∀ t, p (f t) = true → p t = true) : (tasks.modify id f).countP p ≤ tasks.countP p := by
  cases htask : tasks[id]? with
  | none => exact Nat.le_of_eq (by rw [List.modify_eq_self (List.getElem?_eq_none_iff.mp htask)])
  | some task =>
    have hcount := countP_modify (p := p) (f := f) htask
    have hone : (p (f task)).toNat ≤ (p task).toNat := by
      cases hp : p (f task) with
      | false => simp
      | true => simp [h task hp]
    omega

/-- A handled item is lost to the stock, if its handler pushes none. -/
theorem stock_handle {memory : Memory} {consumer : Consumer} {item : WorkItem}
    {ring : Ring Message} (tame : consumer.handler.Tame consumer.pollInterval)
    (leaves : x.queue.ring.Leaves [.data item] ring) :
    ((x.taken (.task id) [.data item] ring).handle memory id consumer item).stock < x.stock := by
  have htaken := stock_taken (.task id) leaves
  simp only [List.countP_singleton, Message.isStop, Bool.not_false, if_true] at htaken
  let P (y : Executor) : Prop := (∃ items, y.queue.ring.Holds items) ∧ y.stock + 1 = x.stock
  have hacted : P (actAll memory id consumer (consumer.react item).actions
      (x.taken (.task id) [.data item] ring)).2 := by
    refine actAll_induction_of_mem consumer _ ?_ ?_ ?_
    · rintro y z message hmessage ⟨⟨items, hitems⟩, hstock⟩ accepted
      obtain ⟨⟨placement, hring⟩, -⟩ := ring_push accepted
      refine ⟨⟨_, (hitems.push hring).1⟩, ?_⟩
      rcases hmessage with rfl | ⟨pushed, rfl, hmem⟩
      · rw [stock_push hitems accepted]
        exact hstock
      · exact absurd hmem (tame.pushes_none _ _ _)
    · rintro y handle ⟨⟨items, hitems⟩, hstock⟩
      refine ⟨⟨items, by rw [trigger_eq]; exact hitems⟩, ?_⟩
      have hsame : (y.trigger handle).stock = y.stock :=
        stock_of_liveAndSends (by rw [tasks_trigger]) (by rw [trigger_eq])
      rw [hsame]
      exact hstock
    · obtain ⟨others, -, hothers⟩ := leaves.holds
      exact ⟨⟨others, hothers⟩, htaken⟩
  obtain ⟨-, hstock⟩ := hacted
  show (((actAll memory id consumer (consumer.react item).actions
    (x.taken (.task id) [.data item] ring)).2.updateTask id fun t =>
      { t with job := .consume (consumer.tally (consumer.react item).complaint) }).record _).stock <
    x.stock
  generalize (actAll memory id consumer (consumer.react item).actions
    (x.taken (.task id) [.data item] ring)).2 = acted at hstock
  -- The consumer has counted the item; it is a live task as before, and no producer.
  have hlive := countP_modify_le (p := (·.live))
    (f := fun t => { t with job := .consume (consumer.tally (consumer.react item).complaint) })
    acted.tasks id fun t h => h
  have hsends := countP_modify_le (p := Task.sends)
    (f := fun t => { t with job := .consume (consumer.tally (consumer.react item).complaint) })
    acted.tasks id fun t h => by simp [Task.sends, Job.message?] at h
  simp only [stock, record, updateTask] at hstock ⊢
  omega

/-! ## §4 Turns -/

/-- When the tasks are to look again, in order of creation. -/
def deadlines (x : Executor) : List (Option Nat) := x.tasks.map (·.deadline)

theorem deadlines_notifyReady (x : Executor) : x.notifyReady.deadlines = x.deadlines := by
  cases hwaiters : x.queue.ready.waiters with
  | nil =>
    rw [notifyReady_nil hwaiters]
    rfl
  | cons id rest =>
    rw [notifyReady_cons hwaiters, notice_eq]
    exact map_modify_of_eq _ fun _ _ => rfl

theorem overdue_of_deadlines (deadlines : y.deadlines = x.deadlines) (clock : y.clock = x.clock) :
    y.overdue = x.overdue := by
  have hcount := congrArg
    (List.countP fun deadline? => deadline?.any fun deadline => deadline ≤ x.clock) deadlines
  rw [Executor.deadlines, Executor.deadlines, List.countP_map, List.countP_map] at hcount
  rw [overdue, overdue, clock]
  exact hcount

theorem overdue_heed (x : Executor) (id : TaskId) : (x.heed id).overdue = x.overdue :=
  overdue_of_deadlines (map_modify_of_eq _ fun _ _ => rfl) rfl

theorem overdue_notifyReady (x : Executor) : x.notifyReady.overdue = x.overdue :=
  overdue_of_deadlines (deadlines_notifyReady x) (notifyReady_keeps clock x fun _ _ _ => rfl)

/-- An idle consumer that goes away from its lists is overdue no more. -/
theorem overdue_detached (htask : x.tasks[id]? = some task) :
    (x.detached id).overdue + (task.isDue x.clock).toNat = x.overdue := by
  have hcount := countP_modify (p := Task.isDue x.clock)
    (f := fun t => { t with noticed := false, deadline := none }) htask
  have hnone : Task.isDue x.clock { task with noticed := false, deadline := none } = false := rfl
  rw [hnone] at hcount
  exact hcount

/-- The next deadline of an idle consumer is still to come. -/
theorem overdue_awaitAny {consumer : Consumer} (htask : x.tasks[id]? = some task)
    (sleeps : 0 < consumer.pollInterval) : (x.awaitAny id consumer).overdue ≤ x.overdue := by
  have hcount := countP_modify (p := Task.isDue x.clock)
    (f := fun t => { t with deadline := some (x.clock + consumer.pollInterval) }) htask
  have hlater : Task.isDue x.clock
      { task with deadline := some (x.clock + consumer.pollInterval) } = false := by
    simp only [Task.isDue, Option.any_some, decide_eq_false_iff_not]
    omega
  simp only [hlater, Bool.toNat_false] at hcount
  simp only [overdue, awaitAny, awaitReady, updateTask, withReady, rest]
  omega

/-- A task that is awake and goes through its loop draws on one of the stores. -/
theorem Move.lowers (hx : x.Orderly) (holds : x.queue.ring.Holds x.queue.toList) (tame : x.Tame)
    (running : x.running = some id) (awake : ¬ x.Stirs) (h : x.Move y) : x.Lowers y := by
  have busy : x.running ≠ none := by simp [running]
  have hfinish : ∀ {id : TaskId} {task : Task} (outcome : Outcome), x.Runs id task →
      x.Lowers (x.finish id outcome) := by
    intro id task outcome runs
    have hless := stock_finish runs.task_eq (hx.live_of_runs runs) outcome
    exact .draws (by omega)
  cases h with
  | callerPush free => exact absurd free busy
  | callerTake free => exact absurd free busy
  | add label duty free => exact absurd free busy
  | cancel free => exact absurd free busy
  | callerTrigger handle free => exact absurd free busy
  | advance millis free => exact absurd free busy
  | start free => exact absurd free busy
  | vanish => exact .of_rest running (Nat.le_refl _) (Nat.le_refl _) rfl rfl rfl
  | @receive id task message ring runs job leaves =>
    have hlive := hx.live_of_runs runs
    have hheed := x.stock_heed id
    have htaken := stock_taken (x := x.heed id) (.task id) leaves
    have hless := stock_finish (x := (x.heed id).taken (.task id) [message] ring)
      (tasks_heed runs.task_eq) hlive (.received message)
    exact .draws (by omega)
  | @receiveAgain id task runs _ _ permit =>
    have hheed := x.stock_heed id
    exact .of_spend (Nat.le_of_eq hheed) (Nat.le_of_eq (overdue_heed x id)) rfl rfl permit rfl
  | @receiveWait id task runs =>
    have hheed := x.stock_heed id
    exact .of_rest running (Nat.le_of_eq hheed) (Nat.le_of_eq (overdue_heed x id)) rfl rfl rfl
  | @ready id task runs =>
    have hlive := hx.live_of_runs runs
    have hheed := x.stock_heed id
    have hless := stock_finish (x := x.heed id) (tasks_heed runs.task_eq) hlive .ready
    exact .draws (by omega)
  | readyAtOnce runs =>
    have hless := stock_finish (x := x.withReady x.queue.ready.spend) runs.task_eq
      (hx.live_of_runs runs) .ready
    have hsame : (x.withReady x.queue.ready.spend).stock = x.stock := rfl
    exact .draws (by omega)
  | readyWait => exact .of_rest running (Nat.le_refl _) (Nat.le_refl _) rfl rfl rfl
  | @deliver memory id task message z runs job accepted =>
    -- The item has gone from the producer to the queue, and the producer has ended.
    have hlive := hx.live_of_runs runs
    have hpushed := stock_push holds accepted
    obtain ⟨noticed, htask⟩ := tasks_push accepted runs.task_eq
    have hless := stock_finish htask hlive .accepted
    have hheld : Task.sends { task with noticed } = !message.isStop := by
      simp [Task.sends, hlive, job]
    rw [hheld] at hless
    exact .draws (by omega)
  | queueUp => exact .of_rest running (Nat.le_refl _) (Nat.le_refl _) rfl rfl rfl
  | giveUp runs => exact hfinish _ runs
  | stopWaiting readyFirst runs job waited => exact absurd ⟨_, _, _, _, runs, job, waited⟩ awake
  | shutDown runs => exact hfinish _ runs
  | @takeStop id task consumer ring runs job _ _ leaves =>
    have htaken := stock_taken (.task id) leaves
    have hless := stock_finish (x := x.taken (.task id) [.stop] ring) runs.task_eq
      (hx.live_of_runs runs) (.reported (consumer.report .stopMessage))
    exact .draws (by omega)
  | handle runs job _ _ leaves =>
    exact .draws (stock_handle (tame.of_runs hx runs job) leaves)
  | consumeAgain _ _ _ _ _ permit =>
    exact .of_spend (Nat.le_refl _) (Nat.le_refl _) rfl rfl permit rfl
  | @consumeWait id task consumer runs job =>
    have hlater := overdue_awaitAny runs.task_eq (tame.of_runs hx runs job).sleeps
    have hsame : (x.awaitAny id consumer).stock = x.stock :=
      stock_of_liveAndSends (aspect_liveAndSends.awaitAny x id consumer) rfl
    exact .of_rest running (Nat.le_of_eq hsame) hlater rfl rfl rfl

/-- A turn of an idle consumer draws on one of the stores. If it passes a notification on and goes
on working, it was overdue; if it passes one on because its handle was triggered, it ends. -/
theorem lowers_of_idle (hx : x.Orderly) (holds : x.queue.ring.Holds x.queue.toList)
    (tame : x.Tame) (c : Conditions) {consumer : Consumer} {deadline : Nat}
    (runs : x.Runs id task) (job : task.job = .consume consumer)
    (waited : task.deadline = some deadline)
    (awake : ¬ (x.stopWaiting c.readyFirst id consumer deadline).Stirs)
    (move : (x.stopWaiting c.readyFirst id consumer deadline).Move (x.poll c id)) :
    x.Lowers (x.poll c id) := by
  have hlowers : (x.stopWaiting c.readyFirst id consumer deadline).Lowers (x.poll c id) := by
    have hstop : x.Move (x.stopWaiting c.readyFirst id consumer deadline) :=
      .stopWaiting c.readyFirst runs job waited
    obtain ⟨_, hruns⟩ := runs_stopWaiting c.readyFirst runs consumer deadline
    have hring := ring_stopWaiting c.readyFirst runs.task_eq consumer deadline
    refine move.lowers (hx.move hstop) ?_ (tame.moves hx (.single hstop)
      (hstop.length_eq runs.running_eq)) hruns.running_eq awake
    rw [Queue.toList, hring]
    exact holds
  have hdetached : (x.detached id).stock = x.stock :=
    stock_of_liveAndSends (aspect_liveAndSends.detached x id) rfl
  have hoverdue := overdue_detached runs.task_eq
  rcases stopWaiting_cases c.readyFirst runs.task_eq consumer deadline with
    ⟨heq, -⟩ | ⟨heq, -, -, htriggered | hdue⟩
  · rw [heq] at hlowers
    exact hlowers.of_le (Nat.le_of_eq hdetached) (by omega) (Nat.le_refl _)
  · have hpoll : x.poll c id = (x.stopWaiting c.readyFirst id consumer deadline).finish id
        (.reported (consumer.report .shutdown)) := by
      have hstill : (x.stopWaiting c.readyFirst id consumer deadline).isTriggered consumer.handle =
          true := by
        rw [stopWaiting_keeps (·.isTriggered consumer.handle) c.readyFirst runs.task_eq consumer
          deadline rfl fun _ _ _ _ => rfl]
        exact htriggered
      rw [poll_of_idle c runs job waited, pollActive, if_pos hstill]
    have hlive := hx.live_of_runs runs
    obtain ⟨_, hruns⟩ := runs_stopWaiting c.readyFirst runs consumer deadline
    have hless := stock_finish hruns.task_eq hlive (.reported (consumer.report .shutdown))
    have hsame : (x.stopWaiting c.readyFirst id consumer deadline).stock = x.stock := by
      rw [heq, stock_notifyReady, hdetached]
    rw [hpoll]
    exact .draws (by omega)
  · have hisDue : task.isDue x.clock = true := by simp [Task.isDue, waited, hdue]
    rw [heq] at hlowers
    refine hlowers.of_lapse ?_ ?_
    · exact Nat.le_of_eq ((stock_notifyReady _).trans hdetached)
    · rw [hisDue, Bool.toNat_true] at hoverdue
      rw [overdue_notifyReady]
      omega

/-- Every turn draws on one of the stores, unless nothing is left to do. -/
theorem Reachable.lowers (h : x.Reachable) (tame : x.Tame) (busy : x.atRest = false)
    (c : Conditions) : x.Lowers (x.turn c) := by
  unfold turn
  cases hrunning : x.running with
  | none =>
    cases hwoken : x.woken with
    | nil => simp [atRest, hrunning, hwoken] at busy
    | cons id rest =>
      refine .calms (Nat.le_refl _) (Nat.le_refl _) ?_
      simp only [bustle, hrunning, hwoken, Option.toList_some, Option.toList_none,
        List.length_cons, List.length_nil]
      omega
  | some id =>
    rcases poll_cases c h.holds hrunning with
      ⟨awake, hmove⟩ | ⟨task, consumer, deadline, runs, job, waited, awake, hmove⟩
    · exact hmove.lowers h.orderly h.holds tame hrunning awake
    · exact lowers_of_idle h.orderly h.holds tame c runs job waited awake hmove

theorem Reachable.weight_turn_lt (h : x.Reachable) (tame : x.Tame) (busy : x.atRest = false)
    (c : Conditions) : (x.turn c).weight < x.weight :=
  (h.lowers tame busy c).weight_lt (length_turn c h.holds) (h.after_turn c).orderly

/-! ## §5 Rest -/

/-- One turn after the other, each under its own conditions. -/
def turns : List Conditions → Executor → Executor
  | [], x => x
  | c :: cs, x => turns cs (x.turn c)

theorem turns_of_atRest (cs : List Conditions) (rest : x.atRest = true) : turns cs x = x := by
  induction cs with
  | nil => rfl
  | cons c cs ih => rw [turns, turn_of_atRest c rest, ih]

/-- Turns that are all made under the same conditions settle an executor. -/
theorem turns_replicate (c : Conditions) (patience : Nat) (x : Executor) :
    turns (List.replicate patience c) x = x.settle c patience := by
  induction patience generalizing x with
  | zero => rfl
  | succ patience ih =>
    cases hrest : x.atRest with
    | true => rw [turns_of_atRest _ hrest, settle_of_atRest c _ hrest]
    | false => rw [List.replicate_succ, turns, ih, settle, hrest, if_neg (by simp)]

/-- As many turns as the weight says bring the tasks to rest. -/
theorem Reachable.atRest_turns (h : x.Reachable) (tame : x.Tame) (cs : List Conditions)
    (enough : x.weight ≤ cs.length) : (turns cs x).atRest = true := by
  induction cs generalizing x with
  | nil =>
    cases hrest : x.atRest with
    | true => exact hrest
    | false =>
      have hless := h.weight_turn_lt tame hrest ⟨.ofSlotBytes 0, true⟩
      rw [List.length_nil] at enough
      omega
  | cons c cs ih =>
    cases hrest : x.atRest with
    | true => rwa [turns_of_atRest _ hrest]
    | false =>
      have hless := h.weight_turn_lt tame hrest c
      rw [List.length_cons] at enough
      exact ih (h.after_turn c) (tame.turn h c) (by omega)

/-- A consumer whose handler has answered goes on. -/
theorem running_handle (memory : Memory) (x : Executor) (id : TaskId) (consumer : Consumer)
    (item : WorkItem) : (x.handle memory id consumer item).running = x.running := by
  refine actAll_induction (P := fun y => y.running = x.running) consumer ?_ ?_ _ rfl
  · exact fun hy accepted => (ring_push accepted).2.trans hy
  · exact fun handle hy => (running_trigger _ handle).trans hy

/-- The turns of a task are its own until it comes to rest. -/
theorem Move.running_eq (running : x.running = some id) (h : x.Move y) :
    y.running = none ∨ y.running = some id := by
  have busy : x.running ≠ none := by simp [running]
  cases h with
  | callerPush free => exact absurd free busy
  | callerTake free => exact absurd free busy
  | add label duty free => exact absurd free busy
  | cancel free => exact absurd free busy
  | callerTrigger handle free => exact absurd free busy
  | advance millis free => exact absurd free busy
  | start free => exact absurd free busy
  | vanish => exact .inl rfl
  | receive => exact .inl rfl
  | receiveAgain => exact .inr running
  | receiveWait => exact .inl rfl
  | ready => exact .inl rfl
  | readyAtOnce => exact .inl rfl
  | readyWait => exact .inl rfl
  | deliver => exact .inl rfl
  | queueUp => exact .inl rfl
  | giveUp => exact .inl rfl
  | stopWaiting readyFirst runs =>
    refine .inr ((stopWaiting_keeps Executor.running readyFirst runs.task_eq _ _ rfl ?_).trans
      running)
    exact fun _ _ _ _ => rfl
  | shutDown => exact .inl rfl
  | takeStop => exact .inl rfl
  | @handle memory own task consumer item ring =>
    exact .inr ((running_handle memory _ own consumer item).trans running)
  | consumeAgain => exact .inr running
  | consumeWait => exact .inl rfl

theorem running_turn (c : Conditions) {items : List Message} (hx : x.queue.ring.Holds items)
    (running : x.running = some id) :
    (x.turn c).running = none ∨ (x.turn c).running = some id := by
  have hturn : x.turn c = x.poll c id := by
    unfold turn
    rw [running]
  rw [hturn]
  rcases poll_cases c hx running with ⟨-, hmove⟩ | ⟨task, consumer, deadline, runs, -, -, -, hmove⟩
  · exact hmove.running_eq running
  · obtain ⟨_, hruns⟩ := runs_stopWaiting c.readyFirst runs consumer deadline
    exact hmove.running_eq hruns.running_eq

/-- A poll ends: the task that runs comes to rest after finitely many turns, all of them its own. -/
theorem Reachable.poll_ends (h : x.Reachable) (tame : x.Tame) (running : x.running = some id)
    (cs : List Conditions) (enough : x.weight ≤ cs.length) :
    ∃ n ≤ x.weight, (∀ k < n, (turns (cs.take k) x).running = some id) ∧
      (turns (cs.take n) x).running = none := by
  have busy : x.atRest = false := by simp [atRest, running]
  induction cs generalizing x with
  | nil =>
    have hless := h.weight_turn_lt tame busy ⟨.ofSlotBytes 0, true⟩
    rw [List.length_nil] at enough
    omega
  | cons c cs ih =>
    have hless := h.weight_turn_lt tame busy c
    rw [List.length_cons] at enough
    rcases running_turn c h.holds running with hrests | hruns
    · refine ⟨1, by omega, fun k hk => ?_, hrests⟩
      rw [Nat.lt_one_iff.mp hk]
      exact running
    · obtain ⟨n, hn, howns, hrests⟩ := ih (h.after_turn c) (tame.turn h c) hruns (by omega)
        (by simp [atRest, hruns])
      refine ⟨n + 1, by omega, fun k hk => ?_, hrests⟩
      cases k with
      | zero => exact running
      | succ k => exact howns k (by omega)

/-- **The tasks come to rest**: if no handler pushes items and every consumer has a poll interval that
is not zero, a run comes to rest after no more turns than its weight, under whatever conditions each
of them is made, and every poll on the way comes to its end. The same is true after any commands that
a caller makes between two polls, and so of every step that has the patience for it. -/
theorem comes_to_rest (h : x.Reachable) (tame : x.Tame) :
    (∀ cs : List Conditions, x.weight ≤ cs.length → (turns cs x).atRest = true) ∧
    (∀ (id : TaskId) (cs : List Conditions), x.running = some id → x.weight ≤ cs.length →
      ∃ n ≤ x.weight, (∀ k < n, (turns (cs.take k) x).running = some id) ∧
        (turns (cs.take n) x).running = none) ∧
    (∀ (memory : Memory) (commands : List Command) (cs : List Conditions), x.running = none →
      (∀ command ∈ commands, command.Tame) →
        (performAll memory commands x).2.weight ≤ cs.length →
          (turns cs (performAll memory commands x).2).atRest = true) ∧
    (∀ (c : Conditions) (patience : Nat) (commands : List Command), x.running = none →
      (∀ command ∈ commands, command.Tame) →
        (performAll c.memory commands x).2.weight ≤ patience →
          (x.step c patience commands).2.atRest = true) := by
  have hcommands : ∀ (memory : Memory) (commands : List Command) (cs : List Conditions),
      x.running = none → (∀ command ∈ commands, command.Tame) →
        (performAll memory commands x).2.weight ≤ cs.length →
          (turns cs (performAll memory commands x).2).atRest = true :=
    fun memory commands cs free htame => (h.performAll memory commands free).atRest_turns
      (tame.performAll memory commands h free htame) cs
  refine ⟨h.atRest_turns tame, fun id cs running => h.poll_ends tame running cs, hcommands,
    fun c patience commands free htame enough => ?_⟩
  have hrest := hcommands c.memory commands (List.replicate patience c) free htame
    (by rwa [List.length_replicate])
  rw [turns_replicate] at hrest
  exact hrest

/-- Two consumers wait, of which one pushes a stop message and triggers its handle; then three items
come while a receiver and a task that only wants to be told wait behind them, and the time of both
consumers is up. -/
theorem comes_to_rest_due :
    let c : Conditions := ⟨.ofSlotBytes 16, false⟩
    let start := ofQueue ⟨"work", ⟨#[none, none], 0, 0, some 3⟩, .quiet, [], 0, 0, 0⟩
    let handler := Script.handler ⟨[1], [1], [], [2]⟩
    let waiting := (start.step c 20 [.spawn "v" (.consume none 5 handler false),
      .spawn "w" (.consume none 5 handler false), .spawn "r" .receive]).2
    let commands : List Command := [.spawn "n" .awaitReady, .spawn "p" (.submit (.tagged 1)),
      .submit (.tagged 2) none, .submit (.tagged 3) none, .advance 5]
    (performAll c.memory commands waiting).2.weight = 962 ∧
    (waiting.step c 962 commands).2.atRest = true := by
  intro c start handler waiting commands
  have hmade : Queue.ofSettings c.memory ⟨"work", 2, some 3, 100⟩ = .ok start.queue := rfl
  have hstart : start.Reachable := ⟨start.queue, .ofSettings hmade, .refl⟩
  have htame : Handler.Tame handler 5 := Script.tame rfl (by decide)
  have hwaiting : waiting.Tame := by
    refine Tame.step hstart (fun task hmem => absurd hmem List.not_mem_nil) rfl c 20 ?_
    simp [Command.Tame, Duty.Tame, htame]
  have hweight : (performAll c.memory commands waiting).2.weight = 962 := by decide +kernel
  obtain ⟨-, -, -, hstep⟩ := comes_to_rest (hstart.step c 20 _ rfl) hwaiting
  refine ⟨hweight, hstep c 962 commands (by decide +kernel) ?_ (Nat.le_of_eq hweight)⟩
  simp [commands, Command.Tame, Duty.Tame]

end Executor

end Handoff
