/-
Handoff.Proofs.Executor.Unseen — calls that nobody notices.

Some calls change nothing: those that only look, those that take from an empty queue, and pushes that
are rejected. `added_unseen` compares two runs: one with any number of such calls added, between the
steps or within them, and one without. All other calls get the same answers in both, and both lead to
the same executor, which is to say the same slots and cursors, counters, permit, waiting tasks and
journal.

The runs are taken literally where that could matter. A push overwrites the queue and has nothing to
fall back on if it fails (`overwrite`). All calls go through a lock, which a look at the oldest
message leaves poisoned if the message panics while it is copied.

  §1 pushing in place          — `pushInPlace`, `submitManyInPlace`, `overwrite`
  §2 what happens in a run     — `Call`, `Stimulus`, `respond`, `respondAll`
  §3 what an executor ignores  — `ignores`, `isPadded`
  §4 two runs                  — `added_unseen`
-/
import Handoff.Proofs.Executor.Move
import Handoff.Proofs.Queue.Refusal
import Handoff.Queue.Lock

namespace Handoff

namespace Executor

/-! ## §1 Pushing in place -/

/-- What is done to the queue of an executor. -/
def onQueue {ε β : Type} (m : InPlace (Queue Message) ε β) : InPlace Executor ε β :=
  ExceptT.mk fun x => ((m.runOn x.queue).1, { x with queue := (m.runOn x.queue).2 })

@[simp] theorem runOn_onQueue {ε β : Type} (m : InPlace (Queue Message) ε β) (x : Executor) :
    (onQueue m).runOn x = ((m.runOn x.queue).1, { x with queue := (m.runOn x.queue).2 }) := rfl

/-- Pushes a message and notifies `ready`. -/
def pushInPlace (memory : Memory) (actor : Actor) (message : Message) :
    InPlace Executor (Rejection Message) Unit := do
  let chosen ← onQueue (Queue.pushInPlace memory message)
  modify fun x => (x.record (.accepted actor message)).noticeChosen chosen

/-- A push in place leaves the executor that the push returns, or the one that was there. -/
theorem pushInPlace_eq (memory : Memory) {x : Executor} {items : List Message}
    (h : x.queue.ring.Holds items) (actor : Actor) (message : Message) :
    (pushInPlace memory actor message).runOn x = match x.push memory actor message with
      | .ok y => (.ok (), y)
      | .error rejection => (.error rejection, x) := by
  have hqueue := Queue.pushInPlace_eq memory h message
  unfold pushInPlace push
  cases hpush : x.queue.push memory message with
  | error rejection =>
    rw [hpush] at hqueue
    simp only [InPlace.runOn_bind, runOn_onQueue, hqueue]
  | ok stored =>
    rw [hpush] at hqueue
    simp only [InPlace.runOn_bind, runOn_onQueue, InPlace.runOn_modify, hqueue]

/-- Pushes a message from outside; the error is returned if that fails. -/
def submitInPlace (memory : Memory) (x : Executor) (message : Message) :
    Option Error × Executor :=
  match (pushInPlace memory .caller message).runOn x with
  | (.ok (), y) => (none, y)
  | (.error rejection, y) => (some rejection.error, y)

theorem submitInPlace_eq (memory : Memory) {x : Executor} {items : List Message}
    (h : x.queue.ring.Holds items) (message : Message) :
    x.submitInPlace memory message = x.submit memory message := by
  unfold submitInPlace submit
  rw [pushInPlace_eq memory h]
  cases x.push memory .caller message <;> rfl

/-- A push from outside, accepted or not, leaves a ring that holds messages. -/
theorem holds_submit (memory : Memory) {x : Executor} {items : List Message}
    (h : x.queue.ring.Holds items) (message : Message) :
    ∃ later, (x.submit memory message).2.queue.ring.Holds later := by
  unfold submit
  cases hpush : x.push memory .caller message with
  | error rejection => exact ⟨items, h⟩
  | ok y =>
    obtain ⟨⟨_, hring⟩, -⟩ := ring_push hpush
    exact ⟨_, (h.push hring).1⟩

/-- Pushes items in place, tagged from `first` on, until one fails or `count` were accepted; `done`
were accepted before. -/
def submitManyInPlace (memory : Memory) (first : UInt64) (done : Nat) :
    Nat → Executor → Reply × Executor
  | 0, x => (.submitted done none, x)
  | count + 1, x =>
    match x.submitInPlace memory (.data (.tagged (first + UInt64.ofNat done))) with
    | (some error, y) => (.submitted done (some error), y)
    | (none, y) => submitManyInPlace memory first (done + 1) count y

theorem submitManyInPlace_eq (memory : Memory) (first : UInt64) (done count : Nat) {x : Executor}
    {items : List Message} (h : x.queue.ring.Holds items) :
    submitManyInPlace memory first done count x = submitMany memory first done count x := by
  induction count generalizing done x items with
  | zero => rfl
  | succ count ih =>
    let message : Message := .data (.tagged (first + UInt64.ofNat done))
    obtain ⟨later, hlater⟩ := holds_submit memory h message
    unfold submitManyInPlace submitMany
    rw [submitInPlace_eq memory h]
    cases hsubmit : x.submit memory message with
    | mk error y =>
      rw [hsubmit] at hlater
      cases error with
      | some error => rfl
      | none => exact ih (done + 1) hlater

/-- Does a command; a message is pushed in place. -/
def overwrite (memory : Memory) (x : Executor) : Command → Reply × Executor
  | .submit item limit =>
    let (error, y) := x.submitInPlace
      (match limit with
        | some slots => memory.limitedTo slots
        | none => memory) (.data item)
    (replyOf error, y)
  | .submitMany first count => submitManyInPlace memory first 0 count x
  | .push message =>
    match (pushInPlace memory .caller message).runOn x with
    | (.ok (), y) => (.accepted, y)
    | (.error rejection, y) => (.rejected rejection, y)
  | .stop =>
    let (error, y) := x.submitInPlace memory .stop
    (replyOf error, y)
  | command => x.perform memory command

theorem overwrite_eq (memory : Memory) {x : Executor} {items : List Message}
    (h : x.queue.ring.Holds items) (command : Command) :
    x.overwrite memory command = x.perform memory command := by
  cases command with
  | submit item limit =>
    cases limit <;> simp only [overwrite, perform, submitInPlace_eq _ h]
  | push message =>
    simp only [overwrite, perform, pushInPlace_eq memory h]
    cases x.push memory .caller message <;> rfl
  | stop => simp only [overwrite, perform, submitInPlace_eq _ h]
  | submitMany first count => exact submitManyInPlace_eq memory first 0 count h
  | pop | peek | drain | stats | look | inspect | share | spawn | cancel | trigger | isTriggered
  | advance => rfl

/-! ## §2 What happens in a run -/

/-- Something that a caller does. -/
inductive Call where
  | command (command : Command)
  /-- Looks at the oldest message and copies it, which may panic. -/
  | peekWith (copy : Message → Except String Message)

/-- What happens to an executor from outside. -/
inductive Stimulus where
  /-- A caller does something; slots are asked of `memory`. -/
  | call (memory : Memory) (call : Call)
  /-- The woken tasks run, for at most `patience` turns. -/
  | settle (c : Conditions) (patience : Nat)

/-- What comes back. -/
inductive Response where
  | reply (reply : Reply)
  | panicked (text : String)
  | settled
  deriving DecidableEq, Repr

/-- What comes back from an executor behind a lock, and what is then behind it. -/
def respond (l : Lock Executor) : Stimulus → Response × Lock Executor
  | .call memory (.command command) =>
    let (reply, x) := l.enter.overwrite memory command
    (.reply reply, l.leave x)
  | .call _ (.peekWith copy) =>
    match l.enter.queue.peekWith copy with
    | .ok message => (.reply (.message message), l)
    | .error text => (.panicked text, l.poison)
  | .settle c patience => (.settled, l.leave (l.enter.settle c patience))

/-- Whether a lock is poisoned makes no difference. -/
theorem respond_congr {l m : Lock Executor} (h : l.content = m.content) (stimulus : Stimulus) :
    (respond l stimulus).1 = (respond m stimulus).1 ∧
      (respond l stimulus).2.content = (respond m stimulus).2.content := by
  cases stimulus with
  | call memory call =>
    cases call with
    | command command => simp [respond, h]
    | peekWith copy =>
      simp only [respond, Lock.enter_eq, h]
      split <;> simp [h]
  | settle c patience => simp [respond, h]

/-- A stimulus of a script. -/
structure Line where
  stimulus : Stimulus
  /-- Whether it is missing in the script that this one is compared with. -/
  added : Bool

/-- What comes back from one stimulus after the other, without what comes back from the added ones,
and what is behind the lock at the end. -/
def respondAll : List Line → Lock Executor → List Response × Lock Executor
  | [], l => ([], l)
  | line :: rest, l =>
    let (response, next) := respond l line.stimulus
    let (others, last) := respondAll rest next
    (if line.added then others else response :: others, last)

end Executor

/-! ## §3 What an executor ignores -/

/-- Whether the reply says that nothing was accepted of what was to be pushed. -/
def Reply.isRefusal : Reply → Bool
  | .rejected _ | .failed _ | .submitted 0 _ => true
  | _ => false

namespace Executor

/-- Whether there is nothing for a command to do: it looks, takes from an empty queue, or pushes
something of which nothing is accepted. -/
def ignoresCommand (memory : Memory) (x : Executor) : Command → Bool
  | .peek | .stats | .look | .inspect _ | .share | .isTriggered _ => true
  | .pop | .drain => x.queue.isEmpty
  | command => (x.perform memory command).1.isRefusal

/-- Whether there is nothing for a stimulus to do. A look is nothing to do, whether or not it ends
with a copy; neither is time in which no task has anything to do. -/
def ignores (x : Executor) : Stimulus → Bool
  | .call memory (.command command) => x.ignoresCommand memory command
  | .call _ (.peekWith _) => true
  | .settle .. => x.atRest

/-- Whether a stimulus can come now: callers act between two polls only. -/
def isTimely (x : Executor) : Stimulus → Bool
  | .call .. => x.running.isNone
  | .settle .. => true

/-- Whether a script can be followed, and all that is added to it is ignored when it comes. -/
def isPadded : List Line → Lock Executor → Bool
  | [], _ => true
  | line :: rest, l =>
    l.content.isTimely line.stimulus && (!line.added || l.content.ignores line.stimulus) &&
      isPadded rest (respond l line.stimulus).2

theorem submit_of_error {memory : Memory} {x y : Executor} {message : Message} {error : Error}
    (h : x.submit memory message = (some error, y)) : y = x := by
  unfold submit at h
  cases hpush : x.push memory .caller message with
  | error rejection =>
    rw [hpush] at h
    exact (congrArg Prod.snd h).symm
  | ok stored =>
    rw [hpush] at h
    cases h

/-- Items that are pushed one after the other are counted, and where none was accepted nothing was
changed. -/
theorem submitMany_reply (memory : Memory) (first : UInt64) (count done : Nat) (x : Executor) :
    ∃ accepted error, (submitMany memory first done count x).1 = .submitted accepted error ∧
      done ≤ accepted ∧ (accepted = done → (submitMany memory first done count x).2 = x) := by
  induction count generalizing done x with
  | zero => exact ⟨done, none, rfl, Nat.le_refl done, fun _ => rfl⟩
  | succ count ih =>
    unfold submitMany
    cases hsubmit : x.submit memory (.data (.tagged (first + UInt64.ofNat done))) with
    | mk error y =>
      cases error with
      | some error => exact ⟨done, error, rfl, Nat.le_refl done, fun _ => submit_of_error hsubmit⟩
      | none =>
        obtain ⟨accepted, error, hreply, hle, -⟩ := ih (done + 1) y
        exact ⟨accepted, error, hreply, Nat.le_of_succ_le hle,
          fun heq => absurd hle (by rw [heq]; exact Nat.not_succ_le_self done)⟩

/-- A command whose reply is a refusal changes nothing. -/
theorem perform_of_refusal {memory : Memory} {x : Executor} {command : Command}
    (h : (x.perform memory command).1.isRefusal = true) :
    (x.perform memory command).2 = x := by
  have hsubmit : ∀ (memory : Memory) (message : Message),
      (replyOf (x.submit memory message).1).isRefusal = true →
        (x.submit memory message).2 = x := by
    intro memory message hrefusal
    cases hreply : x.submit memory message with
    | mk error y =>
      rw [hreply] at hrefusal
      cases error with
      | some error => exact submit_of_error hreply
      | none => cases hrefusal
  cases command with
  | submit item limit => exact hsubmit _ _ h
  | stop => exact hsubmit _ _ h
  | push message =>
    simp only [perform] at h ⊢
    cases hpush : x.push memory .caller message with
    | ok y =>
      rw [hpush] at h
      cases h
    | error rejection => rfl
  | submitMany first count =>
    obtain ⟨accepted, error, hreply, -, hnone⟩ := submitMany_reply memory first count 0 x
    simp only [perform, hreply] at h
    cases accepted with
    | zero => exact hnone rfl
    | succ accepted => cases h
  | cancel label =>
    simp only [perform] at h
    split at h <;> cases h
  | pop | peek | drain | stats | look | inspect | share | spawn | trigger | isTriggered | advance =>
    cases h

theorem pop_of_isEmpty {x : Executor} (h : x.queue.isEmpty = true) (actor : Actor) :
    x.pop actor = (none, x) := by
  have hring : x.queue.ring.pop = (none, x.queue.ring) := if_pos h
  unfold pop Queue.pop
  rw [hring]

theorem drain_of_isEmpty {x : Executor} (h : x.queue.isEmpty = true) (actor : Actor) :
    x.drain actor = ([], x) := by
  have hcount : x.queue.ring.count = 0 := by
    have hcursors : x.queue.ring.readIndex = x.queue.ring.writeIndex := beq_iff_eq.mp h
    rw [Ring.count, hcursors, Nat.add_sub_cancel_left, Nat.mod_self]
  have hring : x.queue.ring.drain = ([], x.queue.ring) := by
    rw [Ring.drain, hcount]
    rfl
  unfold drain Queue.drain
  rw [hring]
  rfl

theorem perform_of_ignores {memory : Memory} {x : Executor} {command : Command}
    (h : x.ignoresCommand memory command = true) : (x.perform memory command).2 = x := by
  cases command with
  | peek | stats | look | inspect | share | isTriggered => rfl
  | pop => simp [perform, pop_of_isEmpty h]
  | drain => simp [perform, drain_of_isEmpty h]
  | submit | submitMany | push | stop | spawn | cancel | trigger | advance =>
    exact perform_of_refusal h

/-- What an executor ignores leaves it as it is. -/
theorem content_respond_of_ignores {l : Lock Executor} {items : List Message}
    (hx : l.content.queue.ring.Holds items) {stimulus : Stimulus}
    (h : l.content.ignores stimulus = true) : (respond l stimulus).2.content = l.content := by
  cases stimulus with
  | call memory call =>
    cases call with
    | command command => simpa [respond, overwrite_eq memory hx] using perform_of_ignores h
    | peekWith copy =>
      simp only [respond]
      split <;> rfl
  | settle c patience => simpa [respond] using settle_of_atRest c patience h

/-! ## §4 Two runs -/

/-- What is behind the lock stays reachable. -/
theorem reachable_respond {l : Lock Executor} (h : l.content.Reachable) {stimulus : Stimulus}
    (timely : l.content.isTimely stimulus = true) :
    (respond l stimulus).2.content.Reachable := by
  cases stimulus with
  | call memory call =>
    cases call with
    | command command =>
      have hreach := (h.perform memory command (Option.isNone_iff_eq_none.mp timely)).1
      simpa [respond, overwrite_eq memory h.holds] using hreach
    | peekWith copy =>
      simp only [respond]
      split <;> exact h
  | settle c patience => simpa [respond] using h.settle c patience

/-- The lines of a step: its commands, and then time for the woken tasks. -/
def stepLines (c : Conditions) (patience : Nat) (commands : List Command) : List Line :=
  commands.map (fun command => ⟨.call c.memory (.command command), false⟩) ++
    [⟨.settle c patience, false⟩]

/-- A step is a script. -/
theorem respondAll_stepLines (c : Conditions) (patience : Nat) (commands : List Command)
    {l : Lock Executor} (h : l.content.Reachable) (free : l.content.running = none) :
    respondAll (stepLines c patience commands) l =
      ((l.content.step c patience commands).1.map .reply ++ [.settled],
        l.leave (l.content.step c patience commands).2) := by
  induction commands generalizing l with
  | nil => simp [stepLines, respondAll, respond, step, performAll]
  | cons command rest ih =>
    obtain ⟨hreach, hfree⟩ := h.perform c.memory command free
    have hrest := ih (l := l.leave (l.content.perform c.memory command).2) hreach hfree
    simp only [stepLines, List.map_cons, List.cons_append, respondAll, respond, Lock.enter_eq,
      overwrite_eq c.memory h.holds] at hrest ⊢
    rw [hrest]
    simp [step, performAll, Lock.leave]

/-- **Calls that change nothing are not noticed**: in a run to which any number of looks, pops and
drains of an empty queue and rejected pushes are added, all other calls are answered as in the run
without them, and both runs end with the same executor, though perhaps not with the same state of the
lock. The run without them can be followed, too. -/
theorem added_unseen {l : Lock Executor} {script : List Line} (reached : l.content.Reachable)
    (padded : isPadded script l = true) :
    let original := script.filter fun line => !line.added
    isPadded original l = true ∧ (respondAll script l).1 = (respondAll original l).1 ∧
      (respondAll script l).2.content = (respondAll original l).2.content := by
  intro original
  suffices h : ∀ m : Lock Executor, l.content = m.content →
      isPadded original m = true ∧ (respondAll script l).1 = (respondAll original m).1 ∧
        (respondAll script l).2.content = (respondAll original m).2.content from h l rfl
  induction script generalizing l with
  | nil => exact fun m hm => ⟨rfl, rfl, hm⟩
  | cons line rest ih =>
    intro m hm
    simp only [isPadded, Bool.and_eq_true, Bool.or_eq_true, Bool.not_eq_true'] at padded
    obtain ⟨⟨timely, ignored⟩, hrest⟩ := padded
    have hnext := ih (reachable_respond reached timely) hrest
    cases hadded : line.added with
    | true =>
      have hsame := content_respond_of_ignores reached.holds (ignored.resolve_left (by simp [hadded]))
      have horiginal : original = rest.filter fun line => !line.added := by
        simp [original, hadded]
      obtain ⟨hpadded, hresponses, hlast⟩ := hnext m (hsame.trans hm)
      rw [horiginal]
      exact ⟨hpadded, by simpa [respondAll, hadded] using hresponses, hlast⟩
    | false =>
      obtain ⟨hresponse, hcontent⟩ := respond_congr hm line.stimulus
      have horiginal : original = line :: rest.filter fun line => !line.added := by
        simp [original, hadded]
      obtain ⟨hpadded, hresponses, hlast⟩ := hnext _ hcontent
      rw [horiginal]
      refine ⟨?_, ?_, by simpa [respondAll] using hlast⟩
      · simp [isPadded, hadded, ← hm, timely, hpadded]
      · simp [respondAll, hadded, hresponse, hresponses]

/-- A consumer waits while somebody looks at the empty queue. Two items are pushed; between them a
growth is refused, and after them a copy of the first panics and a stop is rejected at the ceiling.
The consumer handles both items as if nothing else had happened, and the lock stays poisoned. -/
theorem added_unseen_poisoned :
    let memory := Memory.ofSlotBytes 32
    let c : Conditions := ⟨memory, true⟩
    let l : Lock Executor := ⟨ofQueue ⟨"work", ⟨#[none, none], 0, 0, some 3⟩, .quiet, [], 0, 0, 0⟩,
      false⟩
    let kept (stimulus : Stimulus) : Line := ⟨stimulus, false⟩
    let added (stimulus : Stimulus) : Line := ⟨stimulus, true⟩
    let command (command : Command) : Stimulus := .call memory (.command command)
    let script : List Line :=
      [kept (command (.spawn "w" (.consume none 100 (Script.handler ⟨[], [], [], [2]⟩) false))),
        kept (.settle c 20), added (command .pop), added (command .drain), added (.settle c 20),
        kept (command (.submit (.tagged 1) none)), added (command (.submit (.tagged 7) (some 2))),
        kept (command (.submit (.tagged 2) none)),
        added (.call memory (.peekWith fun _ => .error "no copy")), added (command .stop),
        kept (.settle c 20), added (command .stats)]
    isPadded script l = true ∧
      (respondAll script l).1 =
        [.reply .spawned, .settled, .reply .accepted, .reply .accepted, .settled] ∧
      (respondAll script l).2.poisoned = true ∧
      (respondAll script l).2.content =
        (respondAll (script.filter fun line => !line.added) l).2.content := by
  intro memory c l kept added command script
  have hmade : Queue.ofSettings memory ⟨"work", 2, some 3, 100⟩ = .ok l.content.queue := rfl
  have hreach : l.content.Reachable := ⟨l.content.queue, .ofSettings hmade, .refl⟩
  have hpadded : isPadded script l = true := by decide +kernel
  refine ⟨hpadded, ?_, ?_, (added_unseen hreach hpadded).2.2⟩
  all_goals decide +kernel

end Executor

end Handoff
