import Mathlib.Logic.Function.Basic

/-!
Data guarded by exclusive locks. A thread writes the data of a lock only while
it owns the lock. Whatever the other threads do, a lock one thread owns stays
owned by it and its data stays as that thread last saw it.
-/

namespace EbpfInjection.GuardedMemory

universe u v w
variable {Lock : Type u} {Thread : Type v} {Data : Type w}

structure Memory (Lock : Type u) (Thread : Type v) (Data : Type w) where
  owner : Lock → Option Thread
  data : Lock → Data

inductive Access (Lock : Type u) (Data : Type w) where
  | acquire (lock : Lock)
  | release (lock : Lock)
  | write (lock : Lock) (value : Data)

section Access
variable [DecidableEq Lock] [DecidableEq Thread]

/-- An acquisition waits for the lock to be free; a thread that plays by the
rules releases and writes only what it owns. -/
def access (thread : Thread) (memory : Memory Lock Thread Data) :
    Access Lock Data → Option (Memory Lock Thread Data)
  | .acquire lock =>
      if memory.owner lock = none then
        some { memory with owner := Function.update memory.owner lock (some thread) }
      else none
  | .release lock =>
      if memory.owner lock = some thread then
        some { memory with owner := Function.update memory.owner lock none }
      else none
  | .write lock value =>
      if memory.owner lock = some thread then
        some { memory with data := Function.update memory.data lock value }
      else none

/-- Interference neither takes nor gives a lock of another thread, and leaves
the data behind that thread's locks alone. -/
theorem access_frame (thread other : Thread) (different : other ≠ thread)
    (before after : Memory Lock Thread Data) (action : Access Lock Data)
    (taken : access other before action = some after) (lock : Lock) :
    (after.owner lock = some thread ↔ before.owner lock = some thread) ∧
      (before.owner lock = some thread → after.data lock = before.data lock) := by
  cases action with
  | acquire target =>
      simp only [access] at taken
      split at taken
      · rename_i free
        cases taken
        by_cases same : lock = target
        · subst same
          simp [free, different]
        · simp [Function.update_of_ne same]
      · cases taken
  | release target =>
      simp only [access] at taken
      split at taken
      · rename_i owned
        cases taken
        by_cases same : lock = target
        · subst same
          simp [owned, different]
        · simp [Function.update_of_ne same]
      · cases taken
  | write target value =>
      simp only [access] at taken
      split at taken
      · rename_i owned
        cases taken
        constructor
        · rfl
        · intro mine
          -- the writer owns what it writes, so it is another lock
          have apart : lock ≠ target := by
            rintro rfl
            exact different (Option.some.inj (owned.symm.trans mine))
          exact Function.update_of_ne apart _ _
      · cases taken

end Access
end EbpfInjection.GuardedMemory
