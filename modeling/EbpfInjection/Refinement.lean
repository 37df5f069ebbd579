import EbpfInjection.TransitionSystem

/-!
Refinement between executable transition systems. A step stands for a list of
abstract actions: none while an operation prepares or cleans up, one where it
takes effect. A run that is matched step by step is then an abstract run of the
actions in the order in which they take effect.
-/

namespace EbpfInjection.Refinement
open TransitionSystem

universe u v w x
variable {State : Type u} {Action : Type v} {Abstract : Type w} {Event : Type x}

def eventsOf (step : State → Action → Option State) (effect : State → Action → List Event) :
    State → List Action → List Event
  | _, [] => []
  | state, action :: rest =>
      effect state action ++
        match step state action with
        | none => []
        | some next => eventsOf step effect next rest

section Events
variable (step : State → Action → Option State) (effect : State → Action → List Event)

theorem events_of_cons {state next : State} {action : Action} (rest : List Action)
    (taken : step state action = some next) :
    eventsOf step effect state (action :: rest) =
      effect state action ++ eventsOf step effect next rest := by
  rw [eventsOf, taken]

theorem events_of_append {state middle : State} {first : List Action} (second : List Action)
    (replay : run step state first = some middle) :
    eventsOf step effect state (first ++ second) =
      eventsOf step effect state first ++ eventsOf step effect middle second := by
  induction first generalizing state with
  | nil =>
      cases replay
      rfl
  | cons action rest ih =>
      obtain ⟨next, taken, tail⟩ := (run_cons_iff step state middle action rest).mp replay
      rw [List.cons_append, events_of_cons step effect _ taken, events_of_cons step effect _ taken,
        ih tail, List.append_assoc]

end Events

/-- A forward simulation of the guarded steps. -/
structure Simulation (step : State → Action → Option State) (guard : State → Action → Prop)
    (abstractStep : Abstract → Event → Option Abstract) where
  effect : State → Action → List Event
  related : State → Abstract → Prop
  matched : ∀ state action next abstract, related state abstract → guard state action →
    step state action = some next →
      ∃ later, run abstractStep abstract (effect state action) = some later ∧ related next later

namespace Simulation
variable {step : State → Action → Option State} {guard : State → Action → Prop}
  {abstractStep : Abstract → Event → Option Abstract}
  (simulation : Simulation step guard abstractStep)

/-- A guarded run is an abstract run of its events. -/
theorem run_matched {state final : State} {abstract : Abstract} {history : List Action}
    (start : simulation.related state abstract) (met : Along step guard state history)
    (replay : run step state history = some final) :
    ∃ later, run abstractStep abstract (eventsOf step simulation.effect state history) =
        some later ∧ simulation.related final later := by
  induction history generalizing state abstract with
  | nil =>
      cases replay
      exact ⟨abstract, rfl, start⟩
  | cons action rest ih =>
      obtain ⟨next, taken, tail⟩ := (run_cons_iff step state final action rest).mp replay
      obtain ⟨middle, first, related⟩ :=
        simulation.matched state action next abstract start met.1 taken
      obtain ⟨later, second, ended⟩ := ih related (met.2 next taken) tail
      refine ⟨later, ?_, ended⟩
      rw [events_of_cons step simulation.effect rest taken]
      exact run_trans abstractStep first second

end Simulation

/-- Two systems in lockstep: a view of the states that commutes with every step
commutes with every run. -/
theorem run_view (step : State → Action → Option State)
    (viewStep : Abstract → Action → Option Abstract) (view : State → Abstract)
    (commutes : ∀ state action, viewStep (view state) action = (step state action).map view)
    (state : State) (history : List Action) :
    run viewStep (view state) history = (run step state history).map view := by
  induction history generalizing state with
  | nil => rfl
  | cons action rest ih =>
      rw [run, run, commutes]
      cases step state action with
      | none => rfl
      | some next => exact ih next

end EbpfInjection.Refinement
