/-
Handoff.Signal — how one task tells another that there is something to do.

A signal keeps the tasks that wait for it, oldest first, and at most one permit. A notification goes
to the oldest waiter; without one it is kept as the permit, and the next task that would wait takes
the permit and goes on at once. A permit can thus stand for several notifications, but never for
none.
-/

namespace Handoff

/-- The number of a task, in order of creation. -/
abbrev TaskId := Nat

/-- The tasks that wait for a notification, oldest first, and whether one is kept. -/
structure Signal where
  waiters : List TaskId
  permit : Bool
  deriving DecidableEq, Repr

namespace Signal

/-- A signal that no task waits for. -/
def quiet : Signal := ⟨[], false⟩

/-- The signal with `task` as its newest waiter. -/
def enroll (s : Signal) (task : TaskId) : Signal := { s with waiters := s.waiters ++ [task] }

/-- The signal without `task` among its waiters. -/
def leave (s : Signal) (task : TaskId) : Signal := { s with waiters := s.waiters.erase task }

/-- The signal without its permit. -/
def spend (s : Signal) : Signal := { s with permit := false }

/-- Notifies the oldest waiter, which is then no waiter any more, or keeps the permit. -/
def notifyOne (s : Signal) : Option TaskId × Signal :=
  match s.waiters with
  | [] => (none, { s with permit := true })
  | task :: rest => (some task, { s with waiters := rest })

end Signal

end Handoff
