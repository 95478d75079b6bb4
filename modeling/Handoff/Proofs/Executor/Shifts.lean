/-
Handoff.Proofs.Executor.Shifts — what moves do to the order of those who wait for room.

Two lists have to do with it: `space`, on which producers wait for room, and `woken`, from which
tasks are started. Nothing is ever put between two entries of either. A task joins a list at its
end; a removal moves all of `space`, in its order, to the end of `woken`; only the first of `woken`
is started; and a task that is cancelled leaves the others where they are. `Shift` says this of one
move.

That the whole of `space` arrives in one piece is what matters most, and it is not for `woken` alone
to see: a task that was among the woken already would keep its place there. But those who wait for
room are not to run (`Orderly.wakes_all`).

  §1 places in a list   — `Leads`, `Heads`
  §2 producers          — `Pushes`, `Produces`
  §3 shifts             — `Shift`, `Move.shift`
-/
import Handoff.Proofs.Executor.Cancellation
import Handoff.Proofs.Executor.Lasting

namespace Handoff

/-- What a task has counted does not matter for what it pushes. -/
theorem Job.message?_core (job : Job) : job.core.message? = job.message? := by
  cases job <;> rfl

namespace Executor

/-! ## §1 Places in a list -/

/-- In the list, `q` comes after nothing but tasks of a kind. -/
def Heads (P : TaskId → Prop) (q : TaskId) (ids : List TaskId) : Prop :=
  ∃ between after, ids = between ++ q :: after ∧ ∀ r ∈ between, P r

/-- In the list, `q` comes after `p`, and between them are only tasks of a kind. -/
def Leads (P : TaskId → Prop) (p q : TaskId) (ids : List TaskId) : Prop :=
  ∃ before rest, ids = before ++ p :: rest ∧ Heads P q rest

variable {P : TaskId → Prop} {p q id : TaskId} {ids : List TaskId}

theorem Heads.append (h : Heads P q ids) (more : List TaskId) : Heads P q (ids ++ more) := by
  obtain ⟨between, after, rfl, hbetween⟩ := h
  exact ⟨between, after ++ more, by simp, hbetween⟩

theorem Heads.mem (h : Heads P q ids) : q ∈ ids := by
  obtain ⟨between, after, rfl, -⟩ := h
  simp

theorem Heads.filter (h : Heads P q ids) (hq : q ≠ id) : Heads P q (ids.filter (· != id)) := by
  obtain ⟨between, after, rfl, hbetween⟩ := h
  refine ⟨between.filter (· != id), after.filter (· != id), ?_, fun r hr => ?_⟩
  · rw [List.filter_append, List.filter_cons_of_pos (by simpa using hq)]
  · exact hbetween r (List.mem_of_mem_filter hr)

theorem Heads.mono {Q : TaskId → Prop} (h : Heads P q ids) (hPQ : ∀ r, P r → Q r) :
    Heads Q q ids := by
  obtain ⟨between, after, rfl, hbetween⟩ := h
  exact ⟨between, after, rfl, fun r hr => hPQ r (hbetween r hr)⟩

/-- The first of the list is the task, or one of the kind that it comes after. -/
theorem Heads.first {rest : List TaskId} (h : Heads P q (id :: rest)) :
    id = q ∨ P id ∧ Heads P q rest := by
  obtain ⟨between, after, heq, hbetween⟩ := h
  cases between with
  | nil =>
    rw [List.nil_append, List.cons.injEq] at heq
    exact .inl heq.1
  | cons first others =>
    rw [List.cons_append, List.cons.injEq] at heq
    obtain ⟨rfl, rfl⟩ := heq
    obtain ⟨hfirst, hothers⟩ := List.forall_mem_cons.mp hbetween
    exact .inr ⟨hfirst, others, after, rfl, hothers⟩

theorem Leads.append (h : Leads P p q ids) (more : List TaskId) : Leads P p q (ids ++ more) := by
  obtain ⟨before, rest, rfl, hrest⟩ := h
  exact ⟨before, rest ++ more, by simp, hrest.append more⟩

theorem Leads.prepend (h : Leads P p q ids) (more : List TaskId) : Leads P p q (more ++ ids) := by
  obtain ⟨before, rest, rfl, hrest⟩ := h
  exact ⟨more ++ before, rest, by simp, hrest⟩

theorem Leads.filter (h : Leads P p q ids) (hp : p ≠ id) (hq : q ≠ id) :
    Leads P p q (ids.filter (· != id)) := by
  obtain ⟨before, rest, rfl, hrest⟩ := h
  refine ⟨before.filter (· != id), rest.filter (· != id), ?_, hrest.filter hq⟩
  rw [List.filter_append, List.filter_cons_of_pos (by simpa using hp)]

theorem Leads.mono {Q : TaskId → Prop} (h : Leads P p q ids) (hPQ : ∀ r, P r → Q r) :
    Leads Q p q ids := by
  obtain ⟨before, rest, rfl, hrest⟩ := h
  exact ⟨before, rest, rfl, hrest.mono hPQ⟩

/-- The first of the list is the leading task, or comes before it. -/
theorem Leads.first {rest : List TaskId} (h : Leads P p q (id :: rest)) :
    id = p ∧ Heads P q rest ∨ Leads P p q rest := by
  obtain ⟨before, others, heq, hothers⟩ := h
  cases before with
  | nil =>
    rw [List.nil_append, List.cons.injEq] at heq
    obtain ⟨rfl, rfl⟩ := heq
    exact .inl ⟨rfl, hothers⟩
  | cons first later =>
    rw [List.cons_append, List.cons.injEq] at heq
    obtain ⟨rfl, rfl⟩ := heq
    exact .inr ⟨later, others, rfl, hothers⟩

theorem Leads.sublist (h : Leads P p q ids) : [p, q].Sublist ids := by
  obtain ⟨before, rest, rfl, hrest⟩ := h
  have htail : [q].Sublist rest := List.singleton_sublist.mpr hrest.mem
  exact (htail.cons_cons p).trans (List.sublist_append_right ..)

/-- In a list of one kind it is enough to come later. -/
theorem leads_of_sublist (h : [p, q].Sublist ids) (hall : ∀ r ∈ ids, P r) : Leads P p q ids := by
  induction ids with
  | nil => cases h
  | cons id rest ih =>
    obtain ⟨-, hrest⟩ := List.forall_mem_cons.mp hall
    cases h with
    | cons _ hlater => exact (ih hlater hrest).prepend [id]
    | cons_cons _ hq =>
      obtain ⟨between, after, rfl⟩ := List.append_of_mem (List.singleton_sublist.mp hq)
      exact ⟨[], _, rfl, between, after, rfl, fun r hr => hrest r (List.mem_append_left _ hr)⟩

/-- Who comes last comes after all others. -/
theorem leads_concat (h : p ∈ ids) (hall : ∀ r ∈ ids, P r) : Leads P p q (ids ++ [q]) := by
  obtain ⟨before, after, rfl⟩ := List.append_of_mem h
  refine ⟨before, after ++ [q], by simp, after, [], rfl, fun r hr => hall r ?_⟩
  exact List.mem_append_right _ (List.mem_cons_of_mem p hr)

/-! ## §2 Producers -/

/-- The task pushes the message. -/
def Pushes (x : Executor) (id : TaskId) (message : Message) : Prop :=
  ∃ task, x.tasks[id]? = some task ∧ task.job.message? = some message

/-- The task is a producer. -/
def Produces (x : Executor) (id : TaskId) : Prop := ∃ message, x.Pushes id message

variable {x y : Executor}

/-- A producer stays one, with its message. -/
theorem Lasts.pushes (h : x.Lasts y) {message : Message} (pushes : x.Pushes id message) :
    y.Pushes id message := by
  obtain ⟨task, htask, job⟩ := pushes
  obtain ⟨later, hlater, hcore⟩ := h.job_core htask
  refine ⟨later, hlater, ?_⟩
  rw [← Job.message?_core, hcore, Job.message?_core, job]

theorem Lasts.produces (h : x.Lasts y) (produces : x.Produces id) : y.Produces id :=
  produces.imp fun _ pushes => h.pushes pushes

/-- Who waits for room is not to run. -/
theorem Orderly.not_isRunnable (hx : x.Orderly) (h : id ∈ x.queue.space) : ¬ x.IsRunnable id := by
  obtain ⟨_, _, _, _, _, _, still⟩ := (hx.placed id).queued h
  exact still

/-- Who waits for room is a producer. -/
theorem Orderly.produces (hx : x.Orderly) (h : id ∈ x.queue.space) : x.Produces id := by
  obtain ⟨task, htask, -, -, -, lists, -⟩ := (hx.placed id).queued h
  have hplaced := hx.placed id
  rw [htask] at hplaced
  cases hplaced with
  | ended _ _ _ off => exact (off.space_iff.mp h).elim
  | active _ _ _ off => exact (off.space_iff.mp h).elim
  | listening _ _ _ _ others => exact (others.space_iff.mp h).elim
  | idling idles => exact (idles.lists.space_iff.mp h).elim
  | queueing _ _ _ produces =>
    obtain ⟨message, hmessage⟩ := Option.isSome_iff_exists.mp produces
    exact ⟨message, task, htask, hmessage⟩

/-! ## §3 Shifts -/

/-- What one move does to the lists `woken` and `space`. -/
inductive Shift (x y : Executor) : Prop where
  /-- Some tasks are woken, or none. -/
  | wake (more : List TaskId) (woken : y.woken = x.woken ++ more)
      (space : y.queue.space = x.queue.space)
  /-- All that wait for room are woken, and then others, or none. -/
  | release (more : List TaskId) (woken : y.woken = x.woken ++ x.queue.space ++ more)
      (space : y.queue.space = [])
  /-- A task begins to wait for room. -/
  | lineUp (id : TaskId) (woken : y.woken = x.woken)
      (space : y.queue.space = x.queue.space ++ [id])
  /-- The task that was woken first starts to run. -/
  | start (id : TaskId) (rest : List TaskId) (free : x.running = none)
      (running : y.running = some id) (first : x.woken = id :: rest) (woken : y.woken = rest)
      (space : y.queue.space = x.queue.space)
  /-- A task is cancelled, and another one may be told. -/
  | leave (id : TaskId) (more : List TaskId) (free : x.running = none)
      (cancelled : .cancelled id ∈ y.journal) (woken : y.woken = x.woken.filter (· != id) ++ more)
      (space : y.queue.space = x.queue.space.filter (· != id))

theorem enlist_append (woken : List TaskId) (id : TaskId) :
    ∃ more, enlist woken id = woken ++ more := by
  unfold enlist
  split
  · exact ⟨[], (List.append_nil _).symm⟩
  · exact ⟨[id], rfl⟩

theorem foldl_enlist_append (ids woken : List TaskId) :
    ∃ more, ids.foldl enlist woken = woken ++ more := by
  induction ids generalizing woken with
  | nil => exact ⟨[], (List.append_nil _).symm⟩
  | cons id rest ih =>
    obtain ⟨first, hfirst⟩ := enlist_append woken id
    obtain ⟨more, hmore⟩ := ih (enlist woken id)
    exact ⟨first ++ more, by rw [List.foldl_cons, hmore, hfirst, List.append_assoc]⟩

/-- Tasks that are not to run are woken in one piece. -/
theorem foldl_enlist_of_fresh {ids woken : List TaskId} (nodup : ids.Nodup)
    (fresh : ∀ id ∈ ids, id ∉ woken) : ids.foldl enlist woken = woken ++ ids := by
  induction ids generalizing woken with
  | nil => exact (List.append_nil _).symm
  | cons id rest ih =>
    obtain ⟨hid, hrest⟩ := List.nodup_cons.mp nodup
    obtain ⟨hfirst, hothers⟩ := List.forall_mem_cons.mp fresh
    have henlist : enlist woken id = woken ++ [id] :=
      if_neg (List.contains_iff_mem.not.mpr hfirst)
    rw [List.foldl_cons, henlist, ih hrest]
    · simp
    · intro other hother hmem
      rcases List.mem_append.mp hmem with hold | hnew
      · exact hothers other hother hold
      · exact hid (List.mem_singleton.mp hnew ▸ hother)

/-- A removal wakes all that wait for room, in their order, behind those that were woken. -/
theorem Orderly.wakes_all (hx : x.Orderly) :
    x.queue.space.foldl enlist x.woken = x.woken ++ x.queue.space :=
  foldl_enlist_of_fresh hx.space_nodup fun _ hid hmem => hx.not_isRunnable hid (.inl hmem)

namespace Shift

theorem of_eq (woken : y.woken = x.woken) (space : y.queue.space = x.queue.space) : x.Shift y :=
  .wake [] (woken.trans (List.append_nil _).symm) space

theorem notifyReady (x : Executor) : ∃ more, x.notifyReady.woken = x.woken ++ more ∧
    x.notifyReady.queue.space = x.queue.space := by
  cases hwaiters : x.queue.ready.waiters with
  | nil =>
    rw [notifyReady_nil hwaiters]
    exact ⟨[], (List.append_nil _).symm, rfl⟩
  | cons id rest =>
    rw [notifyReady_cons hwaiters, notice_eq]
    obtain ⟨more, hmore⟩ := enlist_append x.woken id
    exact ⟨more, hmore, rfl⟩

theorem push {memory : Memory} {actor : Actor} {message : Message}
    (accepted : x.push memory actor message = .ok y) :
    ∃ more, y.woken = x.woken ++ more ∧ y.queue.space = x.queue.space := by
  obtain ⟨placement, ring, -, rfl⟩ := push_ok accepted
  exact notifyReady (x.stored actor message placement ring)

theorem trigger (x : Executor) (handle : HandleId) :
    ∃ more, (x.trigger handle).woken = x.woken ++ more ∧
      (x.trigger handle).queue.space = x.queue.space := by
  rw [trigger_eq]
  obtain ⟨more, hmore⟩ := foldl_enlist_append
    ((x.idle.filter fun entry => entry.1 == handle).map (·.2)) x.woken
  exact ⟨more, hmore, rfl⟩

theorem cancel (hx : x.Orderly) (free : x.running = none) (id : TaskId) :
    x.Shift (x.cancel id) := by
  have htakes := hx.takesAway id
  have hjournal : Event.cancelled id ∈ (x.cancel id).journal := by
    rw [htakes.journal_eq]
    exact List.mem_cons_self
  cases htakes.passesOn with
  | nothing _ _ woken _ =>
    exact .leave id [] free hjournal (woken.trans (List.append_nil _).symm) htakes.space_eq
  | @handed oldest _ _ _ _ woken _ _ =>
    obtain ⟨more, hmore⟩ := enlist_append (x.woken.filter (· != id)) oldest
    exact .leave id more free hjournal (woken.trans hmore) htakes.space_eq
  | kept _ _ _ woken _ =>
    exact .leave id [] free hjournal (woken.trans (List.append_nil _).symm) htakes.space_eq

/-- What a handler does wakes tasks, after those that its consumer's removal has woken. -/
theorem handle (hx : x.Orderly) (memory : Memory) (id : TaskId) (consumer : Consumer)
    (item : WorkItem) (messages : List Message) (ring : Ring Message) :
    x.Shift ((x.taken (.task id) messages ring).handle memory id consumer item) := by
  let P (y : Executor) : Prop :=
    ∃ more, y.woken = x.woken ++ x.queue.space ++ more ∧ y.queue.space = []
  have hacted : P (actAll memory id consumer (consumer.react item).actions
      (x.taken (.task id) messages ring)).2 := by
    refine actAll_induction consumer ?_ ?_ _ ⟨[], ?_, rfl⟩
    · rintro y z message ⟨more, hwoken, hspace⟩ accepted
      obtain ⟨later, hlater, hsame⟩ := push accepted
      exact ⟨more ++ later, by rw [hlater, hwoken, List.append_assoc], hsame.trans hspace⟩
    · rintro y handle ⟨more, hwoken, hspace⟩
      obtain ⟨later, hlater, hsame⟩ := trigger y handle
      exact ⟨more ++ later, by rw [hlater, hwoken, List.append_assoc], hsame.trans hspace⟩
    · rw [List.append_nil]
      exact hx.wakes_all
  obtain ⟨more, hwoken, hspace⟩ := hacted
  exact .release more hwoken hspace

end Shift

/-- Every move is a shift. -/
theorem Move.shift (hx : x.Orderly) (h : x.Move y) : x.Shift y := by
  have hwake : (∃ more, y.woken = x.woken ++ more ∧ y.queue.space = x.queue.space) →
      x.Shift y := fun ⟨more, woken, space⟩ => .wake more woken space
  have htaken : y.woken = x.queue.space.foldl enlist x.woken → y.queue.space = [] → x.Shift y :=
    fun woken space => .release [] (by rw [woken, hx.wakes_all, List.append_nil]) space
  cases h with
  | callerPush _ accepted => exact hwake (Shift.push accepted)
  | callerTake => exact htaken rfl rfl
  | add label duty =>
    refine hwake ?_
    rw [Executor.add, wake_eq]
    obtain ⟨more, hmore⟩ := enlist_append x.woken x.tasks.length
    exact ⟨more, hmore, rfl⟩
  | @cancel id _ free => exact .cancel hx free id
  | callerTrigger handle => exact hwake (Shift.trigger x handle)
  | advance millis =>
    refine hwake ?_
    rw [advance_roused]
    obtain ⟨more, hmore⟩ := foldl_enlist_append _ x.woken
    exact ⟨more, hmore, rfl⟩
  | start free first => exact .start _ _ free rfl first rfl rfl
  | vanish => exact .of_eq rfl rfl
  | receive => exact htaken rfl rfl
  | receiveAgain => exact .of_eq rfl rfl
  | receiveWait => exact .of_eq rfl rfl
  | ready => exact .of_eq rfl rfl
  | readyAtOnce => exact .of_eq rfl rfl
  | readyWait => exact .of_eq rfl rfl
  | deliver _ _ accepted =>
    obtain ⟨more, woken, space⟩ := Shift.push accepted
    exact .wake more woken space
  | @queueUp memory id => exact .lineUp id rfl rfl
  | giveUp => exact .of_eq rfl rfl
  | @stopWaiting id task consumer deadline readyFirst runs =>
    -- A task that runs does not wait for room, so the list stays as it is.
    have hspace : id ∉ x.queue.space := fun hmem => hx.not_isRunnable hmem (.inr runs.running_eq)
    have herase : x.queue.space.erase id = x.queue.space := List.erase_of_not_mem hspace
    refine stopWaiting_induction readyFirst runs.task_eq consumer deadline
      (.of_eq rfl herase) ?_
    obtain ⟨more, hmore, hsame⟩ := Shift.notifyReady (x.detached id)
    exact .wake more hmore (hsame.trans herase)
  | shutDown => exact .of_eq rfl rfl
  | takeStop => exact htaken rfl rfl
  | @handle memory id task consumer item ring =>
    exact .handle hx memory id consumer item [.data item] ring
  | consumeAgain => exact .of_eq rfl rfl
  | consumeWait => exact .of_eq rfl rfl

end Executor

end Handoff
