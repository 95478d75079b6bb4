/-
Handoff.Proofs.Executor.Flow — what happens to the messages of an executor.

For the queue as a store of messages it does not matter who acts and why. `Flow x y` has only four
cases: a message is accepted, messages are taken, a producer lines up because the queue is full and
at its ceiling, or nothing happens to the messages at all. Every move is a number of these, so what
they keep is kept by every run.

  §1 accepted and removed   — `accepted`, `removed`, `traffic`
  §2 the four cases         — `Still`, `Flow`
  §3 moves                  — `Move.flows`, `Reaches.flows`, `Reachable.flow_induction`
-/
import Handoff.Proofs.Executor.Move

namespace Handoff

/-! ## §1 Accepted and removed -/

/-- The message that was accepted. -/
def Event.accepted? : Event → Option Message
  | .accepted _ message => some message
  | _ => none

/-- The message that was removed. -/
def Event.removed? : Event → Option Message
  | .removed _ message => some message
  | _ => none

/-- Whether the event is about a message that came or went. -/
def Event.isTraffic : Event → Bool
  | .accepted .. | .removed .. => true
  | .handled .. | .finished .. | .cancelled .. => false

namespace Executor

/-- The part of the journal that is about messages that came or went, newest first. -/
def traffic (x : Executor) : List Event := x.journal.filter Event.isTraffic

/-- The messages that were accepted, whoever pushed them, in the order in which they were. -/
def accepted (x : Executor) : List Message := (x.journal.filterMap Event.accepted?).reverse

/-- The messages that were removed, whoever took them, in the order in which they were. -/
def removed (x : Executor) : List Message := (x.journal.filterMap Event.removed?).reverse

theorem accepted_stored (x : Executor) (actor : Actor) (message : Message) (placement : Placement)
    (ring : Ring Message) :
    (x.stored actor message placement ring).accepted = x.accepted ++ [message] :=
  List.reverse_cons

theorem accepted_taken (x : Executor) (actor : Actor) (messages : List Message)
    (ring : Ring Message) : (x.taken actor messages ring).accepted = x.accepted := by
  have h : (messages.map (Event.removed actor)).filterMap Event.accepted? = [] := by
    simp [List.filterMap_map, Function.comp_def, Event.accepted?]
  unfold accepted taken
  rw [List.filterMap_append, List.filterMap_reverse, h]
  rfl

theorem removed_taken (x : Executor) (actor : Actor) (messages : List Message)
    (ring : Ring Message) : (x.taken actor messages ring).removed = x.removed ++ messages := by
  have h : (messages.map (Event.removed actor)).filterMap Event.removed? = messages := by
    simp [List.filterMap_map, Function.comp_def, Event.removed?]
  unfold removed taken
  rw [List.filterMap_append, List.filterMap_reverse, h, List.reverse_append, List.reverse_reverse]

/-- What only the events about messages tell can be read off them alone. -/
theorem filterMap_traffic {β : Type} {f : Event → Option β}
    (hf : ∀ e : Event, e.isTraffic = false → f e = none) (x : Executor) :
    x.traffic.filterMap f = x.journal.filterMap f := by
  unfold traffic
  rw [List.filterMap_filter]
  refine List.filterMap_congr fun e _ => ?_
  cases htraffic : e.isTraffic with
  | true => exact if_pos rfl
  | false => exact (if_neg (by simp)).trans (hf e htraffic).symm

theorem accepted_eq_traffic (x : Executor) :
    x.accepted = (x.traffic.filterMap Event.accepted?).reverse := by
  rw [filterMap_traffic (fun e he => by cases e <;> first | rfl | cases he), accepted]

theorem removed_eq_traffic (x : Executor) :
    x.removed = (x.traffic.filterMap Event.removed?).reverse := by
  rw [filterMap_traffic (fun e he => by cases e <;> first | rfl | cases he), removed]

/-! ## §2 The four cases -/

/-- Nothing happens to the messages, and no producer lines up. -/
structure Still (x y : Executor) : Prop where
  ring_eq : y.queue.ring = x.queue.ring
  stats_eq : y.queue.stats = x.queue.stats
  traffic_eq : y.traffic = x.traffic
  space_subset : y.queue.space ⊆ x.queue.space

/-- One thing that happens to the messages of an executor, or nothing. -/
inductive Flow (x : Executor) : Executor → Prop where
  | still {y : Executor} (still : x.Still y) : Flow x y
  | accept {memory : Memory} {actor : Actor} {message : Message} {y : Executor}
      (accepted : x.push memory actor message = .ok y) : Flow x y
  | take {messages : List Message} {ring : Ring Message} (actor : Actor) (some : messages ≠ [])
      (leaves : x.queue.ring.Leaves messages ring) : Flow x (x.taken actor messages ring)
  | lineUp {memory : Memory} {actor : Actor} {message : Message} {rejection : Rejection Message}
      (id : TaskId) (rejected : x.push memory actor message = .error rejection)
      (full : rejection.isFull = true) : Flow x (x.awaitSpace id)

/-- Any number of them. -/
abbrev Flows : Executor → Executor → Prop := Relation.ReflTransGen Flow

namespace Still

theorem flows {x y : Executor} (h : x.Still y) : x.Flows y := .single (.still h)

theorem accepted_eq {x y : Executor} (h : x.Still y) : y.accepted = x.accepted := by
  rw [accepted_eq_traffic, h.traffic_eq, ← accepted_eq_traffic]

theorem removed_eq {x y : Executor} (h : x.Still y) : y.removed = x.removed := by
  rw [removed_eq_traffic, h.traffic_eq, ← removed_eq_traffic]

/-- What has the same messages, figures and waiting producers is still. -/
theorem of_eq {x y : Executor} (hring : y.queue.ring = x.queue.ring)
    (hstats : y.queue.stats = x.queue.stats) (hjournal : y.journal = x.journal)
    (hspace : y.queue.space = x.queue.space) : x.Still y := by
  refine ⟨hring, hstats, ?_, ?_⟩
  · unfold traffic
    rw [hjournal]
  · rw [hspace]
    exact List.Subset.refl _

theorem notifyReady (x : Executor) : x.Still x.notifyReady :=
  of_eq (notifyReady_keeps (·.queue.ring) x (fun _ _ _ => rfl))
    (notifyReady_keeps (·.queue.stats) x (fun _ _ _ => rfl))
    (notifyReady_keeps journal x (fun _ _ _ => rfl))
    (notifyReady_keeps (·.queue.space) x (fun _ _ _ => rfl))

theorem detached (x : Executor) (id : TaskId) : x.Still (x.detached id) :=
  ⟨rfl, rfl, rfl, List.erase_subset⟩

theorem trans {x y z : Executor} (hxy : x.Still y) (hyz : y.Still z) : x.Still z :=
  ⟨hyz.ring_eq.trans hxy.ring_eq, hyz.stats_eq.trans hxy.stats_eq,
    hyz.traffic_eq.trans hxy.traffic_eq, List.Subset.trans hyz.space_subset hxy.space_subset⟩

theorem withdraw (x : Executor) (id : TaskId) : x.Still (x.withdraw id) :=
  withdraw_induction id (detached x id) ((detached x id).trans (notifyReady _))

theorem trigger (x : Executor) (handle : HandleId) : x.Still (x.trigger handle) := by
  rw [trigger_eq]
  exact of_eq rfl rfl rfl rfl

theorem stopWaiting (readyFirst : Bool) {x : Executor} {id : TaskId} {task : Task}
    (h : x.tasks[id]? = some task) (consumer : Consumer) (deadline : Nat) :
    x.Still (x.stopWaiting readyFirst id consumer deadline) :=
  stopWaiting_induction readyFirst h consumer deadline (detached x id)
    ((detached x id).trans (notifyReady _))

theorem finish (x : Executor) (id : TaskId) (outcome : Outcome) :
    x.Still (x.finish id outcome) :=
  ⟨rfl, rfl, rfl, List.Subset.refl _⟩

end Still

/-! ## §3 Moves -/

/-- Every move is a number of flows. -/
theorem Move.flows {x y : Executor} (h : x.Move y) : x.Flows y := by
  cases h with
  | callerPush _ accepted => exact .single (.accept accepted)
  | callerTake _ some leaves => exact .single (.take .caller some leaves)
  | add label duty =>
    refine Still.flows ?_
    rw [Executor.add, wake_eq]
    exact .of_eq rfl rfl rfl rfl
  | @cancel id =>
    refine Still.flows ((Still.withdraw x id).trans ?_)
    exact ⟨rfl, rfl, rfl, List.Subset.refl _⟩
  | callerTrigger handle => exact (Still.trigger x handle).flows
  | advance millis =>
    refine Still.flows ?_
    rw [Executor.advance, wakeAll_eq]
    exact .of_eq rfl rfl rfl rfl
  | start => exact Still.flows (.of_eq rfl rfl rfl rfl)
  | vanish => exact Still.flows (.of_eq rfl rfl rfl rfl)
  | @receive id task message ring _ _ leaves =>
    have hheed : x.Still (x.heed id) := .of_eq rfl rfl rfl rfl
    exact .tail (.tail hheed.flows (.take (.task id) (by simp) leaves))
      (.still (Still.finish _ id _))
  | receiveAgain => exact Still.flows (.of_eq rfl rfl rfl rfl)
  | receiveWait => exact Still.flows (.of_eq rfl rfl rfl rfl)
  | @ready id =>
    have hheed : x.Still (x.heed id) := .of_eq rfl rfl rfl rfl
    exact (hheed.trans (Still.finish _ id _)).flows
  | @readyAtOnce id =>
    have hspend : x.Still (x.withReady x.queue.ready.spend) := .of_eq rfl rfl rfl rfl
    exact (hspend.trans (Still.finish _ id _)).flows
  | readyWait => exact Still.flows (.of_eq rfl rfl rfl rfl)
  | deliver _ _ accepted => exact .tail (.single (.accept accepted)) (.still (Still.finish _ _ _))
  | @queueUp memory id task message rejection _ _ rejected full =>
    exact .single (.lineUp id rejected full)
  | giveUp => exact (Still.finish _ _ _).flows
  | @stopWaiting id task consumer deadline readyFirst runs =>
    exact (Still.stopWaiting readyFirst runs.task_eq consumer deadline).flows
  | shutDown => exact (Still.finish _ _ _).flows
  | takeStop _ _ _ _ leaves =>
    exact .tail (.single (.take _ (by simp) leaves)) (.still (Still.finish _ _ _))
  | @handle memory id task consumer item ring _ _ _ _ leaves =>
    have htaken : x.Flows (x.taken (.task id) [.data item] ring) :=
      .single (.take _ (by simp) leaves)
    have hacted : x.Flows (actAll memory id consumer (consumer.react item).actions
        (x.taken (.task id) [.data item] ring)).2 :=
      actAll_induction consumer (fun hy accepted => hy.tail (.accept accepted))
        (fun handle hy => hy.tail (.still (Still.trigger _ handle))) _ htaken
    exact hacted.tail (.still ⟨rfl, rfl, rfl, List.Subset.refl _⟩)
  | consumeAgain => exact Still.flows (.of_eq rfl rfl rfl rfl)
  | consumeWait => exact Still.flows (.of_eq rfl rfl rfl rfl)

/-- A run that starts with a new queue is a number of flows. -/
theorem Reaches.flows {q : Queue Message} (hq : q.Fresh) {x : Executor}
    (h : (ofQueue q).Reaches x) : (ofQueue q).Flows x := by
  have hmoves := h.moves ⟨[], holds_ofQueue hq⟩
  clear h
  induction hmoves with
  | refl => exact .refl
  | tail _ move ih => exact ih.trans move.flows

/-- What holds at the start and is kept by each of the four cases holds of every reachable
executor. -/
theorem Reachable.flow_induction {P : Executor → Prop} {x : Executor} (h : x.Reachable)
    (start : ∀ q : Queue Message, q.Fresh → P (ofQueue q))
    (flow : ∀ y z : Executor, P y → y.Flow z → P z) : P x := by
  refine h.induction start fun y z _ hy hmove => ?_
  have hflows := hmove.flows
  clear hmove
  induction hflows with
  | refl => exact hy
  | tail _ hflow ih => exact flow _ _ ih hflow

end Executor

end Handoff
