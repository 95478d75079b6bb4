/-
Handoff.Proofs.Executor.Precedence — producers that wait for room do not overtake each other.

Every removal wakes all producers that wait for room, however many slots it freed, and those that
find none line up again at the end. Still they keep their order. They are woken in one piece and in
order, so between an earlier and a later one of them only producers run, and a producer frees no
slot: if the earlier one found the queue full, so do all up to the later one, and they line up
behind it in the order in which they waited before (`Lined`).

This depends on when a caller may act. A caller that took a message while the later producer is
woken and the earlier one waits again would let the later one through. So a caller acts only while
all tasks rest, with as many commands at once as it likes (`Continues`). Tasks of any kind may run
in between, and newcomers may take the slots that were freed.

Two more things are needed, and both come from the ceiling. A producer that waits has found the
queue at its ceiling, and a queue that is there once stays there: it can not fail to grow later,
which would end the earlier producer without its message being accepted (`Ring.Capped`).

  §1 the ceiling lasts   — `Flow.capped`, `Reachable.capped`
  §2 in line             — `Lined`, `Lined.turn`
  §3 the caller's turn   — `Abreast`, `Abreast.callerMoves`
  §4 what was accepted   — `Precedes`, `Settled`
  §5 continuations       — `Continues`, `producers_keep_order`
-/
import Handoff.Proofs.Executor.Ceiling
import Handoff.Proofs.Executor.Errands
import Handoff.Proofs.Executor.Shifts
import Handoff.Proofs.Ring.Refusal

namespace Handoff

/-! ## §1 The ceiling lasts -/

namespace Executor

variable {x y : Executor}

/-- A capped queue stays capped. -/
theorem Flow.capped {items : List Message} (h : x.Flow y) (hx : x.queue.ring.Holds items)
    (capped : x.queue.ring.Capped) : y.queue.ring.Capped := by
  cases h with
  | still hstill =>
    rw [hstill.ring_eq]
    exact capped
  | accept accepted =>
    obtain ⟨⟨placement, hring⟩, -⟩ := ring_push accepted
    exact hx.capped_push capped hring
  | take actor _ leaves =>
    exact ⟨leaves.maxCapacity_eq.trans (leaves.capacity_eq ▸ capped.ceiling),
      leaves.capacity_eq.symm ▸ capped.doubles⟩
  | lineUp => exact capped

/-- Where producers wait for room, the queue is capped. -/
theorem Reachable.capped (h : x.Reachable) (waiting : x.queue.space ≠ []) :
    x.queue.ring.Capped := by
  let P (y : Executor) : Prop := y.Uncrowded ∧ (y.queue.space ≠ [] → y.queue.ring.Capped)
  have hx : P x := by
    refine h.flow_induction ?_ fun y z ⟨hy, hcapped⟩ hflow => ⟨hy.flow hflow, fun hspace => ?_⟩
    · intro q hq
      have hfresh : (ofQueue q).queue.space = [] := by
        obtain ⟨_, _, _, ring, _, hq⟩ := hq.create
        rw [hq]
        rfl
      exact ⟨Reachable.uncrowded ⟨q, hq, .refl⟩, fun hspace => absurd hfresh hspace⟩
    · obtain ⟨items, hitems⟩ := hy.holds
      by_cases hbefore : y.queue.space = []
      · -- Somebody has just lined up.
        cases hflow with
        | still hstill =>
          have hsub := hstill.space_subset
          rw [hbefore] at hsub
          exact absurd (List.subset_nil.mp hsub) hspace
        | accept accepted =>
          obtain ⟨placement, ring, -, rfl⟩ := push_ok accepted
          rw [space_notifyReady] at hspace
          exact absurd hbefore hspace
        | take => exact absurd rfl hspace
        | lineUp id rejected full => exact hitems.capped (push_error rejected) full
      · exact hflow.capped hitems (hcapped hbefore)
  exact hx.2 waiting

theorem Moves.capped (h : x.Moves y) (hx : x.Uncrowded) (capped : x.queue.ring.Capped) :
    y.queue.ring.Capped := by
  let P (z : Executor) : Prop := z.Uncrowded ∧ z.queue.ring.Capped
  have hy : P y := by
    induction h with
    | refl => exact ⟨hx, capped⟩
    | tail _ hmove ih =>
      have hflows := hmove.flows
      clear hmove
      induction hflows with
      | refl => exact ih
      | tail _ hflow ih =>
        obtain ⟨items, hitems⟩ := ih.1.holds
        exact ⟨ih.1.flow hflow, hflow.capped hitems ih.2⟩
  exact hy.2

variable {p q id : TaskId}

/-- A producer that runs where the queue is capped delivers its message, or lines up. -/
theorem turn_capped {items : List Message} (hx : x.queue.ring.Holds items)
    (capped : x.queue.ring.Capped) {message : Message} (running : x.running = some id)
    (pushes : x.Pushes id message) (c : Conditions) :
    (∃ y, x.push c.memory (.task id) message = .ok y ∧ x.turn c = y.finish id .accepted) ∨
      x.turn c = x.awaitSpace id := by
  obtain ⟨task, htask, job⟩ := pushes
  rw [turn_push c ⟨running, htask⟩ job]
  unfold pollPush
  cases hpush : x.push c.memory (.task id) message with
  | ok y => exact .inl ⟨y, rfl, rfl⟩
  | error rejection => exact .inr (if_pos (hx.isFull_of_capped capped (push_error hpush)))

/-- Where producers wait for room, a producer that runs lines up. -/
theorem Uncrowded.turn_eq (hx : x.Uncrowded) (capped : x.queue.ring.Capped)
    (waiting : x.queue.space ≠ []) (running : x.running = some id) (produces : x.Produces id)
    (c : Conditions) : x.turn c = x.awaitSpace id := by
  obtain ⟨items, hitems⟩ := hx.holds
  obtain ⟨message, pushes⟩ := produces
  rcases turn_capped hitems capped running pushes c with ⟨y, hpush, -⟩ | hturn
  · obtain ⟨⟨placement, hring⟩, -⟩ := ring_push hpush
    obtain ⟨hmax, hlast⟩ := hx.full waiting
    unfold Queue.count at hlast
    rw [hitems.count_eq] at hlast
    obtain ⟨rejection, hrejected⟩ :
        ∃ rejection, x.queue.ring.push c.memory message = .error rejection :=
      hitems.push_full hmax hlast
    rw [hrejected] at hring
    cases hring
  · exact hturn

/-! ## §2 In line -/

/-- Two producers wait for room or were woken together, one before the other and with nobody but
producers between them. -/
def Abreast (x : Executor) (p q : TaskId) : Prop :=
  Leads x.Produces p q x.queue.space ∨ Leads x.Produces p q x.woken

/-- Two producers in their order, neither of which has delivered its message. -/
inductive Lined (x : Executor) (p q : TaskId) : Prop where
  | abreast (h : x.Abreast p q)
  /-- The first of them tries its push. -/
  | tries (running : x.running = some p) (next : Heads x.Produces q x.woken)
  /-- The first of them waits again; nobody but producers runs up to the second one. -/
  | waits (mem : p ∈ x.queue.space) (busy : ∀ id, x.running = some id → x.Produces id)
      (next : x.running = some q ∨ Heads x.Produces q x.woken)

/-- Neither of them is cancelled. -/
def Spares (x : Executor) (p q : TaskId) : Prop :=
  .cancelled p ∉ x.journal ∧ .cancelled q ∉ x.journal

/-- Two that stand together stay so, unless the first of them starts to run. -/
theorem Abreast.move (h : x.Abreast p q) (hx : x.Orderly) (move : x.Move y)
    (spares : y.Spares p q) (still : x.running ≠ none ∨ y.running = none) : y.Abreast p q := by
  have hkeeps : ∀ {ids : List TaskId}, Leads x.Produces p q ids → Leads y.Produces p q ids :=
    fun hleads => hleads.mono fun _ => move.lasts.produces
  unfold Abreast
  cases move.shift hx with
  | wake more woken space =>
    rw [woken, space]
    exact h.imp hkeeps fun h => hkeeps (h.append more)
  | release more woken space =>
    rw [woken]
    rcases h with hspace | hwoken
    · exact .inr (hkeeps ((hspace.prepend x.woken).append more))
    · exact .inr (hkeeps ((hwoken.append x.queue.space).append more))
  | lineUp id woken space =>
    rw [woken, space]
    exact h.imp (fun h => hkeeps (h.append [id])) hkeeps
  | start id rest free running =>
    rcases still with hbusy | hrests
    · exact absurd free hbusy
    · rw [running] at hrests
      cases hrests
  | leave id more free cancelled woken space =>
    have hp : p ≠ id := fun heq => spares.1 (heq ▸ cancelled)
    have hq : q ≠ id := fun heq => spares.2 (heq ▸ cancelled)
    rw [woken, space]
    exact h.imp (fun h => hkeeps (h.filter hp hq)) fun h => hkeeps ((h.filter hp hq).append more)

theorem Spares.of_append (h : y.Spares p q) (journal : ∃ since, y.journal = since ++ x.journal) :
    x.Spares p q := by
  obtain ⟨since, hsince⟩ := journal
  unfold Spares at h
  rw [hsince, List.mem_append, List.mem_append, not_or, not_or] at h
  exact ⟨h.1.2, h.2.2⟩

/-- A poll of another task leaves two that stand together so. -/
theorem Abreast.turn {items : List Message} (h : x.Abreast p q) (hx : x.Orderly)
    (holds : x.queue.ring.Holds items) (running : x.running = some id) (c : Conditions)
    (spares : (x.turn c).Spares p q) : (x.turn c).Abreast p q := by
  have busy : x.running ≠ none := by simp [running]
  rcases turn_cases c holds with
    hsame | ⟨-, hmove⟩ | ⟨own, task, consumer, deadline, runs, job, waited, -, hmove⟩
  · rwa [hsame]
  · exact h.move hx hmove spares (.inl busy)
  · have hstop : x.Move _ := .stopWaiting c.readyFirst runs job waited
    obtain ⟨_, hruns⟩ := runs_stopWaiting c.readyFirst runs consumer deadline
    have hspared := spares.of_append (hmove.entry (hx.move hstop)).journal_append
    exact (h.move hx hstop hspared (.inl busy)).move (hx.move hstop) hmove spares
      (.inl (by simp [hruns.running_eq]))

/-- While no task runs, a turn starts the task that was woken first. -/
theorem Lined.start (h : x.Lined p q) (produces : x.Produces q) (free : x.running = none)
    (c : Conditions) : (x.turn c).Lined p q := by
  unfold Executor.turn
  rw [free]
  cases hwoken : x.woken with
  | nil => exact h
  | cons first rest =>
    cases h with
    | abreast h =>
      rcases h with hspace | hleads
      · exact .abreast (.inl hspace)
      · rw [hwoken] at hleads
        rcases hleads.first with ⟨rfl, hnext⟩ | hrest
        · exact .tries rfl hnext
        · exact .abreast (.inr hrest)
    | tries running =>
      rw [free] at running
      cases running
    | waits mem _ next =>
      rcases next with running | hheads
      · rw [free] at running
        cases running
      · rw [hwoken] at hheads
        rcases hheads.first with rfl | ⟨hfirst, hrest⟩
        · exact .waits mem (by rintro _ ⟨⟩; exact produces) (.inl rfl)
        · exact .waits mem (by rintro _ ⟨⟩; exact hfirst) (.inr hrest)

/-- A turn keeps two producers in line until the first of them has delivered its message; then the
second one is still to run. -/
theorem Lined.turn (h : x.Lined p q) (reached : x.Reachable) (capped : x.queue.ring.Capped)
    {message : Message} (pushes : x.Pushes p message) (produces : x.Produces q) (c : Conditions)
    (spares : (x.turn c).Spares p q) : (x.turn c).Lined p q ∨
      .accepted (.task p) message ∈ (x.turn c).journal ∧ q ∈ (x.turn c).woken := by
  cases hrunning : x.running with
  | none => exact .inl (h.start produces hrunning c)
  | some id =>
    cases h with
    | abreast h => exact .inl (.abreast (h.turn reached.orderly reached.holds hrunning c spares))
    | tries running next =>
      rcases turn_capped reached.holds capped running pushes c with ⟨y, hpush, hturn⟩ | hturn
      · obtain ⟨more, hwoken, -⟩ := Shift.push hpush
        rw [hturn]
        refine .inr ⟨?_, ?_⟩
        · show _ ∈ Event.finished p .accepted :: y.journal
          rw [(push_entry hpush).1]
          simp
        · show q ∈ y.woken
          rw [hwoken]
          exact List.mem_append_left _ next.mem
      · rw [hturn]
        refine .inl (.waits ?_ (fun _ hnone => by cases hnone) (.inr next))
        exact List.mem_append_right _ List.mem_cons_self
    | waits mem busy next =>
      have hturn := reached.uncrowded.turn_eq capped (List.ne_nil_of_mem mem) hrunning
        (busy id hrunning) c
      rw [hturn]
      rcases next with running | hheads
      · -- The second producer lines up behind the first.
        rw [hrunning, Option.some.injEq] at running
        subst running
        exact .inl (.abreast (.inl (leads_concat mem fun r hr => reached.orderly.produces hr)))
      · exact .inl (.waits (List.mem_append_left _ mem) (fun _ hnone => by cases hnone)
          (.inr hheads))

/-! ## §3 The caller's turn -/

/-- At rest both wait for room. -/
theorem Lined.abreast_of_rest (h : x.Lined p q) (rest : x.atRest = true) : x.Abreast p q := by
  obtain ⟨hfree, hwoken⟩ : x.running = none ∧ x.woken = [] := by simpa [atRest] using rest
  cases h with
  | abreast h => exact h
  | tries running =>
    rw [hfree] at running
    cases running
  | waits _ _ next =>
    rcases next with running | hheads
    · rw [hfree] at running
      cases running
    · have hmem := hheads.mem
      rw [hwoken] at hmem
      cases hmem

/-- A caller that acts between two polls leaves two that stand together so. -/
theorem Abreast.callerMoves (h : x.Abreast p q) (hx : x.Registered) (moves : x.CallerMoves y)
    (free : y.running = none) (spares : y.Spares p q) : y.Abreast p q := by
  induction moves with
  | refl => exact h
  | tail run last ih =>
    have horderly := (Moves.registered hx (CallerMoves.moves run)).orderly
    have hspared := spares.of_append (last.2.entry horderly).journal_append
    exact (ih last.1 hspared).move horderly last.2 spares (.inr free)

/-! ## §4 What was accepted -/

/-- Whenever a message of `q` was accepted, the message of `p` had been accepted before. The journal
has the newest event first. -/
def Precedes (x : Executor) (p : TaskId) (message : Message) (q : TaskId) : Prop :=
  ∀ later other earlier, x.journal = later ++ .accepted (.task q) other :: earlier →
    .accepted (.task p) message ∈ earlier

/-- The message of `p` was accepted, and before any message of `q`. -/
structure Settled (x : Executor) (p : TaskId) (message : Message) (q : TaskId) : Prop where
  accepted : .accepted (.task p) message ∈ x.journal
  precedes : x.Precedes p message q

/-- What is settled stays so. -/
theorem Settled.append {message : Message} (h : x.Settled p message q)
    (journal : ∃ since, y.journal = since ++ x.journal) : y.Settled p message q := by
  obtain ⟨since, hsince⟩ := journal
  refine ⟨?_, fun later other earlier hsplit => ?_⟩
  · rw [hsince]
    exact List.mem_append_right _ h.accepted
  · rw [hsince, List.append_eq_append_iff] at hsplit
    rcases hsplit with ⟨more, -, hold⟩ | ⟨more, -, hnew⟩
    · exact h.precedes more other earlier hold
    · cases more with
      | nil => exact h.precedes [] other earlier hnew.symm
      | cons first rest =>
        rw [List.cons_append, List.cons.injEq] at hnew
        rw [hnew.2]
        exact List.mem_append_right _ h.accepted

/-- Nothing is written of a producer that waits for room or is to run. -/
theorem Reachable.own_eq_nil (h : x.Reachable) (produces : x.Produces id)
    (waiting : id ∈ x.queue.space ∨ x.IsRunnable id) : x.own id = [] := by
  obtain ⟨message, task, htask, job⟩ := produces
  have live : task.live = true := by
    have hplaced := h.orderly.placed id
    rcases waiting with hspace | hrun
    · obtain ⟨_, hsame, live, -⟩ := hplaced.queued hspace
      rw [htask, Option.some.injEq] at hsame
      rwa [hsame]
    · obtain ⟨_, hsame, live⟩ := hplaced.live hrun
      rw [htask, Option.some.injEq] at hsame
      rwa [hsame]
  have hsender := senders_getElem? htask
  rw [Task.sender?_of_job job, live] at hsender
  obtain ⟨errand, -, hlive, hown⟩ := h.tracked.errands id task.job true message hsender job
  rw [Errand.live_eq_true] at hlive
  rw [hown, hlive]
  rfl

theorem Reachable.not_accepted (h : x.Reachable) (produces : x.Produces id)
    (waiting : id ∈ x.queue.space ∨ x.IsRunnable id) (message : Message) :
    .accepted (.task id) message ∉ x.journal := by
  intro hmem
  have hown : Event.accepted (.task id) message ∈ x.own id := mem_own.mpr ⟨hmem, rfl⟩
  rw [h.own_eq_nil produces waiting] at hown
  cases hown

theorem Reachable.precedes (h : x.Reachable) (produces : x.Produces q)
    (waiting : q ∈ x.queue.space ∨ x.IsRunnable q) (message : Message) :
    x.Precedes p message q := by
  intro later other earlier hsplit
  refine absurd ?_ (h.not_accepted produces waiting other)
  rw [hsplit]
  simp

/-- The second in line waits for room or is to run. -/
theorem Lined.waiting (h : x.Lined p q) : q ∈ x.queue.space ∨ x.IsRunnable q := by
  cases h with
  | abreast h =>
    rcases h with ⟨before, rest, hspace, hnext⟩ | ⟨before, rest, hwoken, hnext⟩
    · exact .inl (by simp [hspace, hnext.mem])
    · exact .inr (.inl (by simp [hwoken, hnext.mem]))
  | tries _ next => exact .inr (.inl next.mem)
  | waits _ _ next =>
    rcases next with running | hheads
    · exact .inr (.inr running)
    · exact .inr (.inl hheads.mem)

/-- Two in line that are on the same list are there in their order. -/
theorem Lined.sublist (h : x.Lined p q) (hx : x.Orderly) :
    (p ∈ x.queue.space → q ∈ x.queue.space → [p, q].Sublist x.queue.space) ∧
      (p ∈ x.woken → q ∈ x.woken → [p, q].Sublist x.woken) := by
  have hapart : ∀ {id : TaskId}, id ∈ x.queue.space → id ∈ x.woken → False :=
    fun hspace hwoken => hx.not_isRunnable hspace (.inl hwoken)
  cases h with
  | abreast h =>
    rcases h with hspace | hwoken
    · exact ⟨fun _ _ => hspace.sublist,
        fun hp _ => (hapart (hspace.sublist.subset (by simp)) hp).elim⟩
    · exact ⟨fun hp _ => (hapart hp (hwoken.sublist.subset (by simp))).elim,
        fun _ _ => hwoken.sublist⟩
  | tries running =>
    exact ⟨fun hp _ => (hx.not_isRunnable hp (.inr running)).elim,
      fun hp _ => (hx.running_fresh p running hp).elim⟩
  | waits mem _ next =>
    refine ⟨fun _ hq => (hx.not_isRunnable hq ?_).elim, fun hp _ => (hapart mem hp).elim⟩
    exact next.elim .inr fun hheads => .inl hheads.mem

/-! ## §5 Continuations -/

/-- Commands that are made one after the other, each with its own memory. -/
def performEach (x : Executor) (calls : List (Memory × Command)) : Executor :=
  calls.foldl (fun y call => (y.perform call.1 call.2).2) x

/-- A run goes on: tasks run, under any conditions, and while all of them rest a caller acts, with
any number of commands at once. -/
inductive Continues (x : Executor) : Executor → Prop where
  | refl : Continues x x
  | calls {y : Executor} (calls : List (Memory × Command)) (before : Continues x y)
      (rest : y.atRest = true) : Continues x (y.performEach calls)
  | turn {y : Executor} (c : Conditions) (before : Continues x y) : Continues x (y.turn c)

/-- A step is one way to go on. -/
theorem Continues.step (h : x.Continues y) (rest : y.atRest = true) (c : Conditions)
    (patience : Nat) (commands : List Command) : x.Continues (y.step c patience commands).2 := by
  have hcalls : ∀ (commands : List Command) (y : Executor),
      y.performEach (commands.map (c.memory, ·)) = (performAll c.memory commands y).2 := by
    intro commands
    induction commands with
    | nil => exact fun _ => rfl
    | cons command rest ih => exact fun y => ih _
  have hturns : ∀ (patience : Nat) (z : Executor), x.Continues z →
      x.Continues (z.settle c patience) := by
    intro patience
    induction patience with
    | zero => exact fun _ hz => hz
    | succ patience ih =>
      intro z hz
      unfold settle
      split
      · exact hz
      · exact ih _ (hz.turn c)
  have hbatch := h.calls (commands.map (c.memory, ·)) rest
  rw [hcalls] at hbatch
  exact hturns patience _ hbatch

theorem Reachable.performEach (h : x.Reachable) (free : x.running = none)
    (calls : List (Memory × Command)) :
    (x.performEach calls).Reachable ∧ x.CallerMoves (x.performEach calls) ∧
      (x.performEach calls).running = none := by
  induction calls generalizing x with
  | nil => exact ⟨h, .refl, free⟩
  | cons call rest ih =>
    obtain ⟨hfirst, hfree⟩ := perform_moves call.1 h.holds free call.2
    obtain ⟨hreached, hmoves, hlast⟩ := ih (h.perform call.1 call.2 free).1 hfree
    exact ⟨hreached, hfirst.trans hmoves, hlast⟩

/-- What a continuation keeps: two producers stay in line until the first has delivered. -/
theorem Continues.lined (h : x.Continues y) (reached : x.Reachable)
    (capped : x.queue.ring.Capped) {message : Message} (pushes : x.Pushes p message)
    (produces : x.Produces q) (lined : x.Lined p q) :
    y.Reachable ∧ x.Moves y ∧ (y.Spares p q → y.Lined p q ∨ y.Settled p message q) := by
  induction h with
  | refl => exact ⟨reached, .refl, fun _ => .inl lined⟩
  | @calls y calls _ rest ih =>
    obtain ⟨hy, hmoves, hkept⟩ := ih
    obtain ⟨hfree, -⟩ : y.running = none ∧ y.woken = [] := by simpa [atRest] using rest
    obtain ⟨hreached, hcalls, hlast⟩ := hy.performEach hfree calls
    refine ⟨hreached, hmoves.trans hcalls.moves, fun spares => ?_⟩
    have hsince := hy.registered.journal_append hcalls.moves
    rcases hkept (spares.of_append hsince) with hlined | hsettled
    · exact .inl (.abreast
        ((hlined.abreast_of_rest rest).callerMoves hy.registered hcalls hlast spares))
    · exact .inr (hsettled.append hsince)
  | @turn y c _ ih =>
    obtain ⟨hy, hmoves, hkept⟩ := ih
    have hturn := turn_moves c hy.holds
    refine ⟨hy.after_turn c, hmoves.trans hturn, fun spares => ?_⟩
    have hsince := hy.registered.journal_append hturn
    rcases hkept (spares.of_append hsince) with hlined | hsettled
    · rcases hlined.turn hy (hmoves.capped reached.uncrowded capped)
        (hmoves.lasts.pushes pushes) (hmoves.lasts.produces produces) c spares with
        hnext | ⟨haccepted, hwoken⟩
      · exact .inl hnext
      · have hproduces := (Moves.lasts (hmoves.trans hturn)).produces produces
        exact .inr ⟨haccepted,
          (hy.after_turn c).precedes hproduces (.inr (.inl hwoken)) message⟩
    · exact .inr (hsettled.append hsince)

/-- **Producers that wait at the ceiling do not overtake each other.** Of two that wait for room,
whether or not other tasks run just then, the message of the later one is not accepted before that
of the earlier one, however the run goes on, as long as neither is cancelled; and whenever both wait
for room, or both are woken, they stand in the same order. -/
theorem producers_keep_order (h : x.Reachable) (ahead : [p, q].Sublist x.queue.space)
    (continues : x.Continues y) (kept : .cancelled p ∉ y.journal)
    (keptToo : .cancelled q ∉ y.journal) :
    (∃ task message, x.tasks[p]? = some task ∧ task.job.message? = some message ∧
      y.Precedes p message q) ∧
    (p ∈ y.queue.space → q ∈ y.queue.space → [p, q].Sublist y.queue.space) ∧
    (p ∈ y.woken → q ∈ y.woken → [p, q].Sublist y.woken) := by
  have horderly := h.orderly
  have hp : p ∈ x.queue.space := ahead.subset (by simp)
  have hq : q ∈ x.queue.space := ahead.subset (by simp)
  have hlined : x.Lined p q :=
    .abreast (.inl (leads_of_sublist ahead fun r hr => horderly.produces hr))
  have hcapped := h.capped (List.ne_nil_of_mem hp)
  obtain ⟨message, task, htask, job⟩ := horderly.produces hp
  obtain ⟨hy, hmoves, hkept⟩ := continues.lined h hcapped ⟨task, htask, job⟩
    (horderly.produces hq) hlined
  refine ⟨⟨task, message, htask, job, ?_⟩, ?_⟩
  · rcases hkept ⟨kept, keptToo⟩ with hlined | hsettled
    · exact hy.precedes (hmoves.lasts.produces (horderly.produces hq)) hlined.waiting message
    · exact hsettled.precedes
  · rcases hkept ⟨kept, keptToo⟩ with hlined | hsettled
    · exact hlined.sublist hy.orderly
    · -- A producer whose message was accepted is on no list.
      have hended : ¬ (p ∈ y.queue.space ∨ y.IsRunnable p) := fun hwaits =>
        hy.not_accepted (hmoves.lasts.produces ⟨message, task, htask, job⟩) hwaits message
          hsettled.accepted
      exact ⟨fun hp _ => (hended (.inl hp)).elim, fun hp _ => (hended (.inr (.inl hp))).elim⟩

/-- Two producers wait behind two others. A message is taken, and a caller takes the slot before
they run; then a consumer starts that takes everything and pushes something itself each time, while
a newcomer waits. -/
theorem producers_keep_order_retried :
    let c : Conditions := ⟨.ofSlotBytes 16, true⟩
    let start := ofQueue ⟨"work", ⟨#[none, none], 0, 0, some 3⟩, .quiet, [], 0, 0, 0⟩
    let waiting := (start.step c 40 [.spawn "a" (.submit (.tagged 1)),
      .spawn "b" (.submit (.tagged 2)), .spawn "p" (.submit (.tagged 3)),
      .spawn "q" (.submit (.tagged 4))]).2
    let stolen := (waiting.step c 40 [.pop, .submit (.tagged 5) none]).2
    let served := (stolen.step c 40 [.spawn "n" (.submit (.tagged 6)),
      .spawn "w" (.consume none 100 (Script.handler ⟨[], [], [(1, 7), (2, 8)], []⟩) false)]).2
    waiting.queue.space = [2, 3] ∧ stolen.queue.space = [2, 3] ∧
    served.Precedes 2 (.data (.tagged 3)) 3 ∧
    .accepted (.task 3) (.data (.tagged 4)) ∈ served.journal := by
  intro c start waiting stolen served
  have hmade : Queue.ofSettings c.memory ⟨"work", 2, some 3, 100⟩ = .ok start.queue := rfl
  have hwaiting : waiting.Reachable :=
    Reachable.step c 40 _ ⟨start.queue, .ofSettings hmade, .refl⟩ rfl
  have hspace : waiting.queue.space = [2, 3] := by decide +kernel
  have hstolen : waiting.Continues stolen :=
    Continues.refl.step (by decide +kernel) c 40 _
  have hserved : waiting.Continues served := hstolen.step (by decide +kernel) c 40 _
  obtain ⟨⟨task, message, htask, hmessage, hprecedes⟩, -⟩ :=
    producers_keep_order hwaiting (show [2, 3].Sublist _ by rw [hspace]) hserved
      (by decide +kernel) (by decide +kernel)
  have hthird : waiting.tasks[2]?.bind (·.job.message?) = some (.data (.tagged 3)) := by
    decide +kernel
  rw [htask, Option.bind_some, hmessage, Option.some.injEq] at hthird
  rw [hthird] at hprecedes
  exact ⟨hspace, by decide +kernel, hprecedes, by decide +kernel⟩

end Executor

end Handoff
