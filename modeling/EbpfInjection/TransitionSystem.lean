import Mathlib.Logic.Basic

/-!
Executable labelled transition systems. A step is a partial function, so a
finite history is a list of actions and replaying it is a computation. The
rules below turn what one step preserves into what every history preserves,
with an optional condition on each step taken.
-/

namespace EbpfInjection.TransitionSystem

universe u v w
variable {State : Type u} {Action : Type v}

/-- Replays a history. `none` means that some action was not enabled. -/
def run (step : State → Action → Option State) : State → List Action → Option State
  | state, [] => some state
  | state, action :: rest => (step state action).bind fun next => run step next rest

/-- `holds` is met by every action of the history in the state it is taken in. -/
def Along (step : State → Action → Option State) (holds : State → Action → Prop) :
    State → List Action → Prop
  | _, [] => True
  | state, action :: rest =>
      holds state action ∧ ∀ next, step state action = some next → Along step holds next rest

instance decidableAlong (step : State → Action → Option State) (holds : State → Action → Prop)
    [∀ state action, Decidable (holds state action)] :
    (state : State) → (history : List Action) → Decidable (Along step holds state history)
  | _, [] => isTrue trivial
  | state, action :: rest =>
      match taken : step state action with
      | none => decidable_of_iff (holds state action) (by simp [Along, taken])
      | some next =>
          have := decidableAlong step holds next rest
          decidable_of_iff (holds state action ∧ Along step holds next rest)
            (by simp [Along, taken])

def Throughout (step : State → Action → Option State) (holds : State → Prop) :
    State → List Action → Prop
  | state, [] => holds state
  | state, action :: rest =>
      holds state ∧ ∀ next, step state action = some next → Throughout step holds next rest

section Replay
variable (step : State → Action → Option State)

@[simp] theorem run_nil (state : State) : run step state [] = some state := rfl

theorem run_cons_iff (state final : State) (action : Action) (rest : List Action) :
    run step state (action :: rest) = some final ↔
      ∃ next, step state action = some next ∧ run step next rest = some final := by
  simp [run, Option.bind_eq_some_iff]

theorem run_append (state : State) (first second : List Action) :
    run step state (first ++ second) =
      (run step state first).bind fun middle => run step middle second := by
  induction first generalizing state with
  | nil => rfl
  | cons action rest ih =>
      simp only [List.cons_append, run, Option.bind_assoc]
      exact congrArg _ (funext fun next => ih next)

theorem run_trans {state middle final : State} {first second : List Action}
    (front : run step state first = some middle) (back : run step middle second = some final) :
    run step state (first ++ second) = some final := by
  rw [run_append, front]
  exact back

/-- The induction rule over a history whose steps all meet `guard`. -/
theorem guarded_invariant (invariant : State → Prop) (guard : State → Action → Prop)
    (kept : ∀ state action next, invariant state → guard state action →
      step state action = some next → invariant next)
    {state final : State} {history : List Action} (start : invariant state)
    (met : Along step guard state history) (replay : run step state history = some final) :
    invariant final := by
  induction history generalizing state with
  | nil =>
      cases replay
      exact start
  | cons action rest ih =>
      obtain ⟨next, taken, tail⟩ := (run_cons_iff step state final action rest).mp replay
      exact ih (kept state action next start met.1 taken) (met.2 next taken) tail

theorem along_trivial (state : State) (history : List Action) :
    Along step (fun _ _ => True) state history := by
  induction history generalizing state with
  | nil => trivial
  | cons action rest ih => exact ⟨trivial, fun next _ => ih next⟩

theorem along_of_forall (holds : Action → Prop) (state : State) (history : List Action)
    (all : ∀ action ∈ history, holds action) :
    Along step (fun _ action => holds action) state history := by
  induction history generalizing state with
  | nil => trivial
  | cons action rest ih =>
      have tail : ∀ later ∈ rest, holds later :=
        fun later member => all later (List.mem_cons_of_mem action member)
      exact ⟨all action List.mem_cons_self, fun next _ => ih next tail⟩

theorem along_front (holds : State → Action → Prop) {state : State} {early late : List Action}
    (met : Along step holds state (early ++ late)) : Along step holds state early := by
  induction early generalizing state with
  | nil => trivial
  | cons action rest ih => exact ⟨met.1, fun next taken => ih (met.2 next taken)⟩

theorem along_at (holds : State → Action → Prop) {state middle : State}
    {early late : List Action} {action : Action}
    (met : Along step holds state (early ++ action :: late))
    (replay : run step state early = some middle) : holds middle action := by
  induction early generalizing state with
  | nil =>
      cases replay
      exact met.1
  | cons first rest ih =>
      obtain ⟨next, taken, tail⟩ := (run_cons_iff step state middle first rest).mp replay
      exact ih (met.2 next taken) tail

theorem run_invariant (invariant : State → Prop)
    (kept : ∀ state action next, invariant state → step state action = some next → invariant next)
    {state final : State} {history : List Action} (start : invariant state)
    (replay : run step state history = some final) : invariant final :=
  guarded_invariant step invariant (fun _ _ => True)
    (fun state action next held _ taken => kept state action next held taken)
    start (along_trivial step state history) replay

/-- A property of the single steps follows along the whole history once the
invariant implies it wherever the guard is met. -/
theorem along_of_invariant (invariant : State → Prop) (guard holds : State → Action → Prop)
    (kept : ∀ state action next, invariant state → guard state action →
      step state action = some next → invariant next)
    (implied : ∀ state action, invariant state → guard state action → holds state action)
    {state : State} {history : List Action} (start : invariant state)
    (met : Along step guard state history) : Along step holds state history := by
  induction history generalizing state with
  | nil => trivial
  | cons action rest ih =>
      constructor
      · exact implied state action start met.1
      · intro next taken
        exact ih (kept state action next start met.1 taken) (met.2 next taken)

theorem throughout_of_invariant (invariant holds : State → Prop) (guard : State → Action → Prop)
    (kept : ∀ state action next, invariant state → guard state action →
      step state action = some next → invariant next)
    (implied : ∀ state, invariant state → holds state)
    {state : State} {history : List Action} (start : invariant state)
    (met : Along step guard state history) : Throughout step holds state history := by
  induction history generalizing state with
  | nil => exact implied state start
  | cons action rest ih =>
      constructor
      · exact implied state start
      · intro next taken
        exact ih (kept state action next start met.1 taken) (met.2 next taken)

theorem throughout_final (holds : State → Prop) {state final : State} {history : List Action}
    (always : Throughout step holds state history)
    (replay : run step state history = some final) : holds final := by
  induction history generalizing state with
  | nil =>
      cases replay
      exact always
  | cons action rest ih =>
      obtain ⟨next, taken, tail⟩ := (run_cons_iff step state final action rest).mp replay
      exact ih (always.2 next taken) tail

/-- When a step from an invariant state keeps `holds` exactly under `guard`,
the histories that keep it at every point are exactly the guarded ones. -/
theorem throughout_iff_along (invariant holds : State → Prop) (guard : State → Action → Prop)
    (exact : ∀ state action, invariant state →
      (guard state action ↔ ∀ next, step state action = some next → holds next))
    (kept : ∀ state action next, invariant state → step state action = some next →
      holds next → invariant next)
    (enough : ∀ state, invariant state → holds state)
    {state : State} (history : List Action) (start : invariant state) :
    Throughout step holds state history ↔ Along step guard state history := by
  induction history generalizing state with
  | nil => simp [Throughout, Along, enough state start]
  | cons action rest ih =>
      have first : ∀ next tail, Throughout step holds next tail → holds next := by
        intro next tail always
        cases tail with
        | nil => exact always
        | cons _ _ => exact always.1
      constructor
      · intro always
        have met := (exact state action start).mpr fun next taken =>
          first next rest (always.2 next taken)
        refine ⟨met, ?_⟩
        intro next taken
        have held := (exact state action start).mp met next taken
        exact (ih (kept state action next start taken held)).mp (always.2 next taken)
      · intro met
        refine ⟨enough state start, ?_⟩
        intro next taken
        have held := (exact state action start).mp met.1 next taken
        exact (ih (kept state action next start taken held)).mpr (met.2 next taken)

end Replay
end EbpfInjection.TransitionSystem
