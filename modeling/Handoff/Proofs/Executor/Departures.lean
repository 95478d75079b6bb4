/-
Handoff.Proofs.Executor.Departures — what consumers that are shut down leave behind.

A consumer that waits can be told of a message and have its handle triggered before it gets to run.
It then goes away without looking at the queue. If it sees the trigger first, it leaves `ready` like
any waiter and its notification is passed on. If it sees the notification first, it has spent it:
nobody else is told of the message, which stays queued although a receiver may wait for one.

`queued_le_wasted` says that this is the only way in which messages are left behind: at rest, while
a receiver or consumer has not ended, there are no more messages than turns that wasted a
notification, and none if no turn did. `stranded_receiver` is a run in which a message is left
behind.

  §1 receivers at rest     — `Orderly.waiters_of_rest`
  §2 messages left behind  — `queued_le_wasted`, `stranded_receiver`
-/
import Handoff.Proofs.Executor.Wakeups

namespace Handoff.Executor

variable {x : Executor}

/-! ## §1 Receivers at rest -/

/-- At rest a receiver or consumer that has not ended waits for `ready`. -/
theorem Orderly.waiters_of_rest (hx : x.Orderly) (rest : x.atRest = true)
    (waiting : ∃ task ∈ x.tasks, task.live = true ∧
      (task.job = .receive ∨ ∃ consumer, task.job = .consume consumer)) :
    x.queue.ready.waiters ≠ [] := by
  obtain ⟨task, hmem, live, takes⟩ := waiting
  obtain ⟨id, htask⟩ := List.mem_iff_getElem?.mp hmem
  have hmessage : task.job.message? = none := by
    rcases takes with job | ⟨consumer, job⟩
    · rw [job]
      rfl
    · rw [job]
      rfl
  exact List.ne_nil_of_mem (hx.waits_of_rest rest htask live hmessage)

/-- At rest nobody holds a notification. -/
theorem Orderly.told_of_rest (hx : x.Orderly) (rest : x.atRest = true) : x.told = 0 := by
  obtain ⟨hfree, hwoken⟩ : x.running = none ∧ x.woken = [] := by simpa [atRest] using rest
  have htold := hx.told_le hfree
  rw [hwoken] at htold
  exact Nat.le_zero.mp htold

/-- Whether a job waits for one notification and no more. -/
def isBare : Job → Bool
  | .awaitReady => true
  | _ => false

theorem bare_of_any (h : x.tasks.any (isBare ·.job) = false) :
    ∀ task ∈ x.tasks, task.job ≠ .awaitReady := by
  intro task hmem job
  refine List.any_eq_false.mp h task hmem ?_
  rw [job]
  rfl

/-- Whether a task is a receiver that has not ended. -/
def isReceiver (task : Task) : Bool :=
  match task.job with
  | .receive => task.live
  | _ => false

theorem waiting_of_any (h : x.tasks.any isReceiver = true) :
    ∃ task ∈ x.tasks, task.live = true ∧
      (task.job = .receive ∨ ∃ consumer, task.job = .consume consumer) := by
  obtain ⟨task, hmem, hreceiver⟩ := List.any_eq_true.mp h
  unfold isReceiver at hreceiver
  split at hreceiver
  · next job => exact ⟨task, hmem, hreceiver, .inl job⟩
  · cases hreceiver

/-! ## §2 Messages left behind -/

/-- **Only wasted notifications leave messages behind**: at rest, while a receiver or consumer has
not ended, there are no more messages than turns in which a consumer that was told of a message and
shut down saw the notification first; and so none if there was no such turn. -/
theorem queued_le_wasted {q : Queue Message} (fresh : q.Fresh) {n : Nat}
    (run : (ofQueue q).ReachesWasting n x) (bare : ∀ task ∈ x.tasks, task.job ≠ .awaitReady)
    (rest : x.atRest = true)
    (waiting : ∃ task ∈ x.tasks, task.live = true ∧
      (task.job = .receive ∨ ∃ consumer, task.job = .consume consumer)) :
    x.queue.toList.length ≤ n := by
  have hminded := run.minded (Queue.Fresh.minded fresh)
  obtain ⟨hfree, -⟩ : x.running = none ∧ x.woken = [] := by simpa [atRest] using rest
  have hcovered : x.Covered n :=
    (hminded.attended (not_mem_jobs_of_bare bare)).of_free hfree
  have hcount := hcovered (hminded.orderly.waiters_of_rest rest waiting)
  have htold := hminded.orderly.told_of_rest rest
  have hlength : x.queue.count = x.queue.toList.length :=
    (Ring.Holds.of_exists hminded.holds).count_eq
  omega

/-- A consumer is told of a message and shut down, and sees the notification first: the message is
left behind, and the receiver that waits behind the consumer goes on waiting. -/
theorem queued_le_wasted_one :
    let c : Conditions := ⟨.ofSlotBytes 16, true⟩
    let start := ofQueue ⟨"work", ⟨#[none, none], 0, 0, none⟩, .quiet, [], 0, 0, 0⟩
    let consume := Command.spawn "w" (.consume (some "h") 100 (fun _ _ => ⟨[], none⟩) false)
    let added := ((start.perform c.memory consume).2.perform c.memory (.spawn "r" .receive)).2
    let waiting := (((added.turn c).turn c).turn c).turn c
    let told := ((waiting.perform c.memory .stop).2.perform c.memory (.trigger (.shared "h"))).2
    let left := (told.turn c).turn c
    start.ReachesWasting 1 left ∧ left.atRest = true ∧ left.pending = ["r"] ∧
      left.queue.toList = [.stop] ∧ left.queue.toList.length ≤ 1 := by
  intro c start consume added waiting told left
  have hmade : Queue.withCapacity c.memory 2 = .ok start.queue := rfl
  have hadded : start.ReachesWasting 0 added :=
    (ReachesWasting.refl.perform c.memory consume rfl).perform c.memory (.spawn "r" .receive) rfl
  have hwaiting : start.ReachesWasting 0 waiting :=
    (((hadded.thrifty c (by decide +kernel)).thrifty c (by decide +kernel)).thrifty c
      (by decide +kernel)).thrifty c (by decide +kernel)
  have htold : start.ReachesWasting 0 told :=
    (hwaiting.perform c.memory .stop (by decide +kernel)).perform c.memory
      (.trigger (.shared "h")) (by decide +kernel)
  have hleft : start.ReachesWasting 1 left :=
    (htold.thrifty c (by decide +kernel)).wasteful c (by decide +kernel)
  have hrest : left.atRest = true := by decide +kernel
  exact ⟨hleft, hrest, by decide +kernel, by decide +kernel,
    queued_le_wasted (.withCapacity hmade) hleft (bare_of_any (by decide +kernel)) hrest
      (waiting_of_any (by decide +kernel))⟩

/-- **A receiver can be left waiting for a message that is queued**: of forty consumers that are
shut down together the first was told of the message. If any of them sees its notification before
the trigger of their handle, the receiver behind them is not told. -/
theorem stranded_receiver :
    let c : Conditions := ⟨.ofSlotBytes 32, true⟩
    let start := ofQueue ⟨"work", ⟨#[none, none, none, none], 0, 0, none⟩, .quiet, [], 0, 0, 0⟩
    let consume := Command.spawn "w" (.consume (some "h") 100 (fun _ _ => ⟨[], none⟩) false)
    let waiting := (start.step c 200 (List.replicate 40 consume ++ [.spawn "r" .receive])).2
    let left := (waiting.step c 200 [.submit (.tagged 7) none, .trigger (.shared "h")]).2
    left.Reachable ∧ (∀ task ∈ left.tasks, task.job ≠ .awaitReady) ∧ left.atRest = true ∧
      (∃ task ∈ left.tasks, task.live = true ∧
        (task.job = .receive ∨ ∃ consumer, task.job = .consume consumer)) ∧
      left.queue.toList = [.data (.tagged 7)] := by
  intro c start consume waiting left
  have hmade : Queue.withCapacity c.memory 4 = .ok start.queue := rfl
  have hwaiting : waiting.Reachable :=
    Reachable.step c 200 _ ⟨start.queue, .withCapacity hmade, .refl⟩ rfl
  have hleft : left.Reachable := hwaiting.step c 200 _ (by decide +kernel)
  exact ⟨hleft, bare_of_any (by decide +kernel), by decide +kernel,
    waiting_of_any (by decide +kernel), by decide +kernel⟩

end Handoff.Executor
