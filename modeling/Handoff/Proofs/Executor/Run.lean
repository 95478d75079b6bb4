/-
Handoff.Proofs.Executor.Run — which executors a run can come to.

A run starts with a queue that was just made and no task. It goes on by commands of a caller, made
between two polls, and by turns. Nothing is fixed about their order: a caller may act whether or not
tasks are left to run, so a batch of commands is a run, and so is every state that a step passes
through on its way to rest. Each command and each turn brings its own memory, and each turn its own
choice of what a consumer sees first, so the refusals and choices of a run form no pattern.

  §1 runs        — `Queue.Fresh`, `Executor.Reaches`, `Executor.Reachable`
  §2 the start   — `Queue.Fresh.create`
-/
import Handoff.Executor.Command

namespace Handoff

/-! ## §1 Runs -/

/-- The queue was just made. -/
inductive Queue.Fresh {α : Type} (q : Queue α) : Prop where
  | ofSettings {memory : Memory} {settings : QueueSettings}
      (made : Queue.ofSettings memory settings = .ok q) : Queue.Fresh q
  | withCapacity {memory : Memory} {initial : Nat}
      (made : Queue.withCapacity memory initial = .ok q) : Queue.Fresh q

namespace Executor

/-- Some run leads from `x` to the other executor. -/
inductive Reaches (x : Executor) : Executor → Prop where
  | refl : Reaches x x
  | perform {y : Executor} (memory : Memory) (command : Command) :
      Reaches x y → y.running = none → Reaches x (y.perform memory command).2
  | turn {y : Executor} (c : Conditions) : Reaches x y → Reaches x (y.turn c)

/-- Some run that starts without tasks leads to the executor. -/
def Reachable (x : Executor) : Prop := ∃ q : Queue Message, q.Fresh ∧ (ofQueue q).Reaches x

end Executor

/-! ## §2 The start -/

/-- A queue that was just made is an empty ring of the capacity and ceiling asked for. -/
theorem Queue.Fresh.create {α : Type} {q : Queue α} (h : q.Fresh) :
    ∃ memory initial max? ring, Ring.create memory initial max? = .ok ring ∧
      q = .ofRing q.name ring := by
  cases h with
  | ofSettings made =>
    obtain ⟨-, ring, hring, rfl⟩ := Queue.ofSettings_ok made
    exact ⟨_, _, _, ring, hring, rfl⟩
  | @withCapacity memory initial made =>
    unfold Queue.withCapacity at made
    cases hring : Ring.withCapacity (α := α) memory initial with
    | error e => simp [hring] at made
    | ok ring =>
      simp only [hring, Except.ok.injEq] at made
      subst made
      exact ⟨memory, initial, none, ring, hring, rfl⟩

end Handoff
