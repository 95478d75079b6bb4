/-
Handoff.Proofs.Executor.Lives — the life of every consumer.

The events of one consumer form a `Life`: it begins when the consumer is made, goes on deed by deed,
and is over with the first deed after which the consumer no longer works. In every run the journal
holds the life of every consumer (`Reachable.registered`). What is to be said of the events of a
consumer is therefore proved by induction on its deeds, and the executor does not come into it.

  §1 extracts   — `extract`, `own`, `answers`, `takenBy`, `outcomesOf`
  §2 lives      — `Life`
  §3 runs       — `Registered`, `Reachable.registered`
  §4 accounts   — `Consumer.Counted`, `Life.counted`, `Life.taken_eq`, `Life.outcomes_eq`
-/
import Handoff.Proofs.Executor.Entries
import Handoff.Proofs.Executor.Flow

namespace Handoff

/-! ## §1 Extracts -/

/-- What some events say, oldest first; they are given newest first. -/
def extract {β : Type} (f : Event → Option β) (events : List Event) : List β :=
  (events.filterMap f).reverse

theorem extract_append {β : Type} (f : Event → Option β) (new old : List Event) :
    extract f (new ++ old) = extract f old ++ extract f new := by
  rw [extract, List.filterMap_append, List.reverse_append]
  rfl

theorem extract_singleton {β : Type} (f : Event → Option β) (e : Event) :
    extract f [e] = (f e).toList := by
  unfold extract
  cases h : f e with
  | none => rw [List.filterMap_cons_none h]; rfl
  | some b => rw [List.filterMap_cons_some h]; rfl

theorem mem_extract {β : Type} {f : Event → Option β} {events : List Event} {b : β} :
    b ∈ extract f events ↔ ∃ e ∈ events, f e = some b := by
  rw [extract, List.mem_reverse, List.mem_filterMap]

theorem extract_eq_nil {β : Type} {f : Event → Option β} {events : List Event}
    (h : ∀ e ∈ events, f e = none) : extract f events = [] := by
  rw [extract, List.filterMap_eq_nil_iff.mpr h]
  rfl

/-- The item that a handler answered to, and its complaint. -/
def Event.answer? : Event → Option (WorkItem × Option Error)
  | .handled _ item _ complaint => some (item, complaint)
  | _ => none

/-- How a task finished. -/
def Event.outcome? : Event → Option Outcome
  | .finished _ outcome => some outcome
  | _ => none

namespace Executor

/-- The events of one task, newest first. -/
def own (x : Executor) (id : TaskId) : List Event :=
  x.journal.filter fun e => e.actor = .task id

/-- What the handler of a consumer answered, in the order of its calls. -/
def answers (x : Executor) (id : TaskId) : List (WorkItem × Option Error) :=
  extract Event.answer? (x.own id)

/-- The messages that a task took, in the order in which it took them. -/
def takenBy (x : Executor) (id : TaskId) : List Message := extract Event.removed? (x.own id)

/-- How a task finished, if it did. -/
def outcomesOf (x : Executor) (id : TaskId) : List Outcome := extract Event.outcome? (x.own id)

variable {x y : Executor} {id : TaskId}

theorem mem_own {e : Event} : e ∈ x.own id ↔ e ∈ x.journal ∧ e.actor = .task id := by
  simp [own]

theorem mem_takenBy {message : Message} :
    message ∈ x.takenBy id ↔ .removed (.task id) message ∈ x.journal := by
  rw [takenBy, mem_extract]
  constructor
  · rintro ⟨e, he, hremoved⟩
    obtain ⟨hjournal, hactor⟩ := mem_own.mp he
    cases e with
    | removed actor taken =>
      cases hremoved
      cases hactor
      exact hjournal
    | accepted => cases hremoved
    | handled => cases hremoved
    | finished => cases hremoved
    | cancelled => cases hremoved
  · exact fun h => ⟨_, mem_own.mpr ⟨h, rfl⟩, rfl⟩

theorem own_append {events : List Event} (journal : y.journal = events ++ x.journal) :
    y.own id = (events.filter fun e => e.actor = .task id) ++ x.own id := by
  rw [own, journal, List.filter_append]
  rfl

/-- Events in which a task has no part leave its own as they are. -/
theorem own_of_others {events : List Event} (journal : y.journal = events ++ x.journal)
    (others : ∀ e ∈ events, e.actor ≠ .task id) : y.own id = x.own id := by
  have hnone : (events.filter fun e => e.actor = .task id) = [] := by
    simpa using others
  rw [own_append journal, hnone]
  rfl

theorem own_of_all {events : List Event} (journal : y.journal = events ++ x.journal)
    (all : ∀ e ∈ events, e.actor = .task id) : y.own id = events ++ x.own id := by
  have hall : (events.filter fun e => e.actor = .task id) = events := by
    simpa using all
  rw [own_append journal, hall]

end Executor

/-! ## §2 Lives -/

/-- The events of a consumer from its beginning, newest first, with what it has counted and how it
stands after them. -/
inductive Life (id : TaskId) : List Event → Consumer → Fate → Prop where
  | hired (handle : HandleId) (pollInterval : Nat) (handler : Handler) :
      Life id [] (.fresh handle pollInterval handler) .working
  | deed {own : List Event} {consumer : Consumer} (before : Life id own consumer .working)
      (d : Deed) : Life id (d.events id consumer ++ own) (d.after consumer) d.fate

/-! ## §3 Runs -/

namespace Executor

variable {x y : Executor} {id : TaskId}

/-- The journal holds the life of every consumer. -/
structure Registered (x : Executor) : Prop where
  orderly : x.Orderly
  /-- It tells of no task that is not there. -/
  known : ∀ e ∈ x.journal, ∀ id, e.actor = .task id → id < x.workers.length
  lives : ∀ id consumer live, x.workers[id]? = some (some (consumer, live)) →
    ∃ fate : Fate, Life id (x.own id) consumer fate ∧ fate.live = live ∧
      (fate = .ended .shutdown → x.isTriggered consumer.handle = true)

/-- A task that is not yet there has no events. -/
theorem Registered.own_eq_nil (hx : x.Registered) (absent : x.workers.length ≤ id) :
    x.own id = [] := by
  rw [List.eq_nil_iff_forall_not_mem]
  intro e he
  obtain ⟨hjournal, hactor⟩ := mem_own.mp he
  exact Nat.not_lt_of_le absent (hx.known e hjournal _ hactor)

theorem lt_length_of_getElem? {α : Type} {l : List α} {i : Nat} {a : α} (h : l[i]? = some a) :
    i < l.length := (List.getElem?_eq_some_iff.mp h).1

theorem Entry.known (h : x.Entry y)
    (hx : ∀ e ∈ x.journal, ∀ id, e.actor = .task id → id < x.workers.length) :
    ∀ e ∈ y.journal, ∀ id, e.actor = .task id → id < y.workers.length := by
  intro e he id hid
  cases h with
  | aside events journal others workers triggered =>
    rw [journal] at he
    rw [workers]
    rcases List.mem_append.mp he with hnew | hold
    · exact lt_length_of_getElem? ((others e hnew).2 id hid)
    · exact hx e hold id hid
  | trigger handle free eq =>
    rw [eq, journal_trigger] at he
    rw [eq, workers_trigger]
    exact hx e he id hid
  | joined worker? fresh journal workers triggered =>
    rw [journal] at he
    rw [workers, List.length_append]
    exact Nat.lt_add_right _ (hx e he id hid)
  | deed who consumer d worker fits journal workers triggered =>
    rw [journal] at he
    rw [workers, List.length_set]
    rcases List.mem_append.mp he with hnew | hold
    · rw [d.actor_of_mem hnew, Actor.task.injEq] at hid
      exact hid ▸ lt_length_of_getElem? worker
    · exact hx e hold id hid

/-- What a move is for one consumer: nothing, its beginning, or a deed of its own. -/
inductive Turned (x y : Executor) (id : TaskId) (consumer : Consumer) (live : Bool) : Prop where
  | same (worker : x.workers[id]? = some (some (consumer, live))) (own : y.own id = x.own id)
  | hired (first : id = x.workers.length) (live : live = true)
      (fresh : consumer = .fresh consumer.handle consumer.pollInterval consumer.handler)
      (own : y.own id = x.own id)
  | deed (before : Consumer) (d : Deed) (worker : x.workers[id]? = some (some (before, true)))
      (fits : d.Fits (x.isTriggered before.handle))
      (own : y.own id = d.events id before ++ x.own id)
      (after : consumer = d.after before) (live : live = d.fate.live)

theorem Entry.turned {consumer : Consumer} {live : Bool} (h : x.Entry y)
    (worker : y.workers[id]? = some (some (consumer, live))) : x.Turned y id consumer live := by
  cases h with
  | aside events journal others workers triggered =>
    rw [workers] at worker
    refine .same worker (own_of_others journal fun e he hactor => ?_)
    have hnone := (others e he).2 id hactor
    rw [worker] at hnone
    cases hnone
  | trigger handle free eq =>
    rw [eq, workers_trigger] at worker
    refine .same worker ?_
    rw [eq, own, journal_trigger]
    rfl
  | joined worker? fresh journal workers triggered =>
    have hown : y.own id = x.own id := by
      rw [own, journal]
      rfl
    rw [workers] at worker
    rcases Nat.lt_trichotomy id x.workers.length with hlt | rfl | hgt
    · rw [List.getElem?_append_left hlt] at worker
      exact .same worker hown
    · rw [List.getElem?_concat_length, Option.some.injEq] at worker
      obtain ⟨hlive, hfresh⟩ := fresh consumer live worker
      exact .hired rfl hlive hfresh hown
    · rw [List.getElem?_eq_none (by rw [List.length_append]; exact hgt)] at worker
      cases worker
  | deed who before d hworker fits journal workers triggered =>
    rw [workers] at worker
    by_cases heq : who = id
    · subst heq
      rw [List.getElem?_set_self (lt_length_of_getElem? hworker), Option.some.injEq,
        Option.some.injEq, Prod.mk.injEq] at worker
      obtain ⟨hafter, hlive⟩ := worker
      exact .deed before d hworker fits (own_of_all journal fun e he => d.actor_of_mem he)
        hafter.symm hlive.symm
    · rw [List.getElem?_set_ne heq] at worker
      refine .same worker (own_of_others journal fun e he hactor => heq ?_)
      rwa [d.actor_of_mem he, Actor.task.injEq] at hactor

theorem Registered.move (hx : x.Registered) (h : x.Move y) : y.Registered := by
  have hentry := h.entry hx.orderly
  refine ⟨hx.orderly.move h, hentry.known hx.known, fun id consumer live worker => ?_⟩
  cases hentry.turned worker with
  | same worker own =>
    obtain ⟨fate, hlife, hlive, hended⟩ := hx.lives id consumer live worker
    rw [own]
    exact ⟨fate, hlife, hlive, fun hfate => h.lasts.isTriggered (hended hfate)⟩
  | hired first live fresh own =>
    subst first
    rw [own, hx.own_eq_nil (Nat.le_refl _), fresh, live]
    exact ⟨.working, .hired _ _ _, rfl, fun hfate => by cases hfate⟩
  | deed before d worker fits own after live =>
    -- Who does something has not ended, so the life so far is one of a consumer at work.
    obtain ⟨fate, hlife, hlive, -⟩ := hx.lives id before true worker
    rw [Fate.live_eq_true] at hlive
    subst hlive
    rw [own, after, live]
    refine ⟨d.fate, .deed hlife d, rfl, fun hfate => ?_⟩
    rw [d.handle_after]
    exact h.lasts.isTriggered (d.triggered_of_shutdown fits hfate)

theorem Queue.Fresh.registered {q : Queue Message} (h : q.Fresh) : (ofQueue q).Registered := by
  refine ⟨Queue.Fresh.orderly h, fun e he => ?_, fun id consumer live worker => ?_⟩
  · cases he
  · cases worker

/-- In every run the journal holds the life of every consumer. -/
theorem Reachable.registered (h : x.Reachable) : x.Registered :=
  h.induction (fun _ hq => Queue.Fresh.registered hq) fun _ _ _ hy hmove => hy.move hmove

end Executor

/-! ## §4 Accounts -/

/-- What a consumer that stands so has taken besides items. -/
def Fate.stops : Fate → List Message
  | .ended .stopMessage => [.stop]
  | .working | .cancelled | .ended .shutdown => []

theorem Fate.item?_stops (fate : Fate) : fate.stops.filterMap Message.item? = [] := by
  unfold stops
  split <;> rfl

/-- How a consumer that stands so has finished. -/
def Fate.outcomes (consumer : Consumer) : Fate → List Outcome
  | .ended reason => [.reported (consumer.report reason)]
  | .working | .cancelled => []

namespace Deed

/-- What the handler answered in it. -/
def answers (consumer : Consumer) : Deed → List (WorkItem × Option Error)
  | .handle item _ _ => [(item, (consumer.react item).complaint)]
  | .takeStop | .shutDown | .cancelled => []

variable (d : Deed) (id : TaskId) (consumer : Consumer)

/-- The pushes of a handler say nothing under the other headings. -/
theorem extract_handle {β : Type} (f : Event → Option β)
    (pushes : ∀ message, f (.accepted (.task id) message) = none) (item : WorkItem)
    (results : List (Option Error)) (pushed : List Message) :
    extract f ((Deed.handle item results pushed).events id consumer) =
      (f (.removed (.task id) (.data item))).toList ++
        (f (.handled id item results (consumer.react item).complaint)).toList := by
  have hpushed : extract f (pushed.map (Event.accepted (.task id))) = [] := by
    simp [extract, List.filterMap_map, pushes]
  show extract f ([_] ++ (_ ++ [_])) = _
  rw [extract_append, extract_append, extract_singleton, extract_singleton, hpushed,
    List.append_nil]

theorem extract_answer : extract Event.answer? (d.events id consumer) = d.answers consumer := by
  cases d with
  | handle item results pushed => exact extract_handle id consumer _ (fun _ => rfl) item results _
  | takeStop => rfl
  | shutDown => rfl
  | cancelled => rfl

theorem extract_removed : extract Event.removed? (d.events id consumer) =
    (d.answers consumer).map (.data ·.1) ++ d.fate.stops := by
  cases d with
  | handle item results pushed => exact extract_handle id consumer _ (fun _ => rfl) item results _
  | takeStop => rfl
  | shutDown => rfl
  | cancelled => rfl

theorem extract_outcome : extract Event.outcome? (d.events id consumer) =
    d.fate.outcomes (d.after consumer) := by
  cases d with
  | handle item results pushed => exact extract_handle id consumer _ (fun _ => rfl) item results _
  | takeStop => rfl
  | shutDown => rfl
  | cancelled => rfl

end Deed

/-- What a consumer has counted of its handler's answers: all of them, and in words, which wrap, those
that accept the item and those that refuse it. -/
structure Consumer.Counted (c : Consumer) (answers : List (WorkItem × Option Error)) : Prop where
  calls_eq : c.calls = answers.length
  processed_eq : c.processed = UInt64.ofNat (answers.countP (·.2.isNone))
  failed_eq : c.failed = UInt64.ofNat (answers.countP (·.2.isSome))

namespace Consumer.Counted

variable {c : Consumer} {answers : List (WorkItem × Option Error)}

theorem fresh (handle : HandleId) (pollInterval : Nat) (handler : Handler) :
    (Consumer.fresh handle pollInterval handler).Counted [] := ⟨rfl, rfl, rfl⟩

theorem tally (h : c.Counted answers) (item : WorkItem) (complaint : Option Error) :
    (c.tally complaint).Counted (answers ++ [(item, complaint)]) := by
  obtain ⟨hcalls, hprocessed, hfailed⟩ := h
  cases complaint with
  | none => constructor <;> simp [Consumer.tally, hcalls, hprocessed, hfailed]
  | some error => constructor <;> simp [Consumer.tally, hcalls, hprocessed, hfailed]

/-- Every answer is of one of the two kinds. -/
theorem countP_add (answers : List (WorkItem × Option Error)) :
    answers.countP (·.2.isNone) + answers.countP (·.2.isSome) = answers.length := by
  have hnot : (fun answer : WorkItem × Option Error => answer.2.isSome) =
      fun answer => decide ¬ answer.2.isNone = true := by
    funext ⟨item, complaint⟩
    cases complaint <;> rfl
  rw [hnot]
  exact (List.length_eq_countP_add_countP _).symm

theorem add_eq (h : c.Counted answers) : c.processed + c.failed = UInt64.ofNat c.calls := by
  rw [h.processed_eq, h.failed_eq, h.calls_eq, ← countP_add answers, UInt64.ofNat_add]

/-- The counters are exact as long as the calls themselves are a word. -/
theorem exact (h : c.Counted answers) (fits : c.calls < wordLimit) :
    c.processed.toNat = answers.countP (·.2.isNone) ∧
      c.failed.toNat = answers.countP (·.2.isSome) ∧
      c.processed.toNat + c.failed.toNat = c.calls := by
  have hadd := countP_add answers
  rw [h.calls_eq] at fits
  have hword : ∀ n ≤ answers.length, (UInt64.ofNat n).toNat = n := fun n hn =>
    UInt64.toNat_ofNat_of_lt' (Nat.lt_of_le_of_lt hn fits)
  have hprocessed : c.processed.toNat = answers.countP (·.2.isNone) := by
    rw [h.processed_eq, hword _ List.countP_le_length]
  have hfailed : c.failed.toNat = answers.countP (·.2.isSome) := by
    rw [h.failed_eq, hword _ List.countP_le_length]
  exact ⟨hprocessed, hfailed, by rw [hprocessed, hfailed, h.calls_eq, hadd]⟩

end Consumer.Counted

namespace Life

variable {id : TaskId} {own : List Event} {consumer : Consumer} {fate : Fate}

/-- A consumer has counted all answers of its handler. -/
theorem counted (h : Life id own consumer fate) :
    consumer.Counted (extract Event.answer? own) := by
  induction h with
  | hired handle pollInterval handler => exact .fresh handle pollInterval handler
  | deed before d ih =>
    rw [extract_append, d.extract_answer]
    cases d with
    | handle item results pushed => exact ih.tally item _
    | takeStop | shutDown | cancelled =>
      rw [Deed.answers, List.append_nil]
      exact ih

/-- The n-th answer is what the handler says at its n-th call. -/
theorem answered (h : Life id own consumer fate) {n : Nat} {item : WorkItem}
    {complaint : Option Error}
    (hn : (extract Event.answer? own)[n]? = some (item, complaint)) :
    complaint = (consumer.handler n item).complaint := by
  induction h with
  | hired => cases hn
  | @deed own consumer before d ih =>
    rw [extract_append, d.extract_answer] at hn
    rw [d.handler_after]
    rcases Nat.lt_or_ge n (extract Event.answer? own).length with hlt | hge
    · rw [List.getElem?_append_left hlt] at hn
      exact ih hn
    · rw [List.getElem?_append_right hge] at hn
      cases d with
      | handle next results pushed =>
        obtain ⟨hlast, hanswer⟩ := List.getElem?_eq_some_iff.mp hn
        have hcalls : n = consumer.calls := by
          rw [before.counted.calls_eq]
          simp only [Deed.answers, List.length_singleton] at hlast
          omega
        simp only [Deed.answers, List.getElem_singleton, Prod.mk.injEq] at hanswer
        obtain ⟨rfl, rfl⟩ := hanswer
        rw [hcalls]
        rfl
      | takeStop => cases hn
      | shutDown => cases hn
      | cancelled => cases hn

/-- A consumer takes the items that its handler answers to, and at most a stop message, as the
last. -/
theorem taken_eq (h : Life id own consumer fate) : extract Event.removed? own =
    (extract Event.answer? own).map (.data ·.1) ++ fate.stops := by
  induction h with
  | hired => rfl
  | deed before d ih =>
    rw [extract_append, extract_append, ih, d.extract_removed, d.extract_answer, List.map_append]
    simp [Fate.stops]

theorem outcomes_eq (h : Life id own consumer fate) :
    extract Event.outcome? own = fate.outcomes consumer := by
  induction h with
  | hired => rfl
  | deed before d ih =>
    rw [extract_append, ih, d.extract_outcome]
    rfl

theorem cancelled_iff (h : Life id own consumer fate) :
    .cancelled id ∈ own ↔ fate = .cancelled := by
  induction h with
  | hired => simp
  | @deed own consumer before d ih =>
    have hown : Event.cancelled id ∉ own := fun hmem => by cases ih.mp hmem
    rw [List.mem_append, or_iff_left hown]
    cases d <;> simp [Deed.events, Deed.fate]

/-- A consumer whose last event is an answer of its handler works on, whatever the answer. -/
theorem working_of_handled {item : WorkItem} {results : List (Option Error)}
    {complaint : Option Error} {earlier : List Event}
    (h : Life id (.handled id item results complaint :: earlier) consumer fate) :
    fate = .working := by
  generalize hown : Event.handled id item results complaint :: earlier = own at h
  cases h with
  | hired => rfl
  | deed before d =>
    cases d with
    | handle => rfl
    | takeStop => cases hown
    | shutDown => cases hown
    | cancelled => cases hown

end Life

end Handoff
