import EbpfInjection.TransitionSystem
import Mathlib.Algebra.Ring.Nat

/-!
Amortised bounds for executable transition systems. Every step of a history has
a weight. A potential that rises by no more than what a step is credited, less
what it costs, bounds the cost of a whole history by its credit; steps that earn
nothing and make the potential fall come to an end. What every step adds to
exactly is known exactly of a whole history.
-/

namespace EbpfInjection.BoundedWork
open TransitionSystem

universe u v
variable {State : Type u} {Action : Type v}

def tally (step : State → Action → Option State) (weight : State → Action → Nat) :
    State → List Action → Nat
  | _, [] => 0
  | state, action :: rest =>
      weight state action +
        match step state action with
        | none => 0
        | some next => tally step weight next rest

section Rules
variable (step : State → Action → Option State)

theorem tally_cons (weight : State → Action → Nat) {state next : State} {action : Action}
    (rest : List Action) (taken : step state action = some next) :
    tally step weight state (action :: rest) =
      weight state action + tally step weight next rest := by
  rw [tally, taken]

theorem tally_mul (factor : Nat) (weight : State → Action → Nat) (state : State)
    (history : List Action) :
    tally step (fun state action => factor * weight state action) state history =
      factor * tally step weight state history := by
  induction history generalizing state with
  | nil => rfl
  | cons action rest ih =>
      simp only [tally, Nat.mul_add]
      cases step state action with
      | none => rfl
      | some next => simp only [ih next]

/-- The accounting rule: what every step of a guarded history pays, the history
pays as a whole. -/
theorem amortized (invariant : State → Prop) (guard : State → Action → Prop)
    (potential : State → Int) (cost credit : State → Action → Nat)
    (kept : ∀ state action next, invariant state → guard state action →
      step state action = some next → invariant next)
    (paid : ∀ state action next, invariant state → guard state action →
      step state action = some next →
        potential next + cost state action ≤ potential state + credit state action)
    {state final : State} {history : List Action} (start : invariant state)
    (met : Along step guard state history) (replay : run step state history = some final) :
    potential final + tally step cost state history ≤
      potential state + tally step credit state history := by
  induction history generalizing state with
  | nil =>
      cases replay
      simp [tally]
  | cons action rest ih =>
      obtain ⟨next, taken, tail⟩ := (run_cons_iff step state final action rest).mp replay
      have first := paid state action next start met.1 taken
      have later := ih (kept state action next start met.1 taken) (met.2 next taken) tail
      rw [tally_cons step cost rest taken, tally_cons step credit rest taken]
      push_cast
      omega

/-- A history of steps that each make the potential fall is no longer than it. -/
theorem falling_length (invariant : State → Prop) (guard : State → Action → Prop)
    (potential : State → Nat)
    (kept : ∀ state action next, invariant state → guard state action →
      step state action = some next → invariant next)
    (falls : ∀ state action next, invariant state → guard state action →
      step state action = some next → potential next < potential state)
    {state final : State} {history : List Action} (start : invariant state)
    (met : Along step guard state history) (replay : run step state history = some final) :
    potential final + history.length ≤ potential state := by
  induction history generalizing state with
  | nil =>
      cases replay
      exact Nat.le_refl _
  | cons action rest ih =>
      obtain ⟨next, taken, tail⟩ := (run_cons_iff step state final action rest).mp replay
      have first := falls state action next start met.1 taken
      have later := ih (kept state action next start met.1 taken) (met.2 next taken) tail
      rw [List.length_cons]
      omega

/-- A relation of the state to a count that every step carries over, raising the
count by its cost, holds after a history with the costs added up. -/
theorem counted_invariant (cost : Action → Nat) (holds : State → Nat → Prop)
    (kept : ∀ state action next count, holds state count → step state action = some next →
      holds next (count + cost action))
    {state final : State} {history : List Action} {count : Nat} (start : holds state count)
    (replay : run step state history = some final) :
    holds final (count + (history.map cost).sum) := by
  induction history generalizing state count with
  | nil =>
      cases replay
      exact start
  | cons action rest ih =>
      obtain ⟨next, taken, tail⟩ := (run_cons_iff step state final action rest).mp replay
      have later := ih (kept state action next count start taken) tail
      rwa [List.map_cons, List.sum_cons, ← Nat.add_assoc]

end Rules
end EbpfInjection.BoundedWork
