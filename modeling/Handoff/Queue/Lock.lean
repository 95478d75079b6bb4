/-
Handoff.Queue.Lock — the lock around what is shared.

One holder at a time uses what is behind a lock. A holder that panics leaves the lock poisoned, and
whoever takes it afterwards is told so. The content is whole all the same: what a holder writes it
has written before anything can panic. So a poisoned lock is entered like any other, and it stays
poisoned.
-/

namespace Handoff

/-- Something behind a lock. -/
structure Lock (σ : Type) where
  content : σ
  /-- Whether a holder panicked while it held the lock. -/
  poisoned : Bool

namespace Lock

variable {σ : Type}

/-- Takes the lock; from a poisoned one the content comes as an error. -/
def take (l : Lock σ) : Except σ σ := if l.poisoned then .error l.content else .ok l.content

/-- The content, from a poisoned lock too. -/
def enter (l : Lock σ) : σ :=
  match l.take with
  | .ok content => content
  | .error content => content

/-- The lock when its holder has left another content behind. -/
def leave (l : Lock σ) (content : σ) : Lock σ := { l with content }

/-- The lock when its holder has panicked before it wrote anything. -/
def poison (l : Lock σ) : Lock σ := { l with poisoned := true }

@[simp] theorem enter_eq (l : Lock σ) : l.enter = l.content := by
  unfold enter take
  cases l.poisoned <;> rfl

@[simp] theorem content_leave (l : Lock σ) (content : σ) : (l.leave content).content = content := rfl

@[simp] theorem content_poison (l : Lock σ) : l.poison.content = l.content := rfl

end Lock

end Handoff
