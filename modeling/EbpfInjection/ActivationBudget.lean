import EbpfInjection.BoundedWork
import EbpfInjection.PacedInjection

/-!
How much the guest does for what it is sent. Each message asks for one pass of
the handler and one activation, however the steps interleave and whatever is
overwritten or merged. Only a pass of the handler without an interrupt of the
device can add to that: the line is shared, and the status register still shows
the last message. Work is measured in accesses to the device and to the driver's
globals; the time a report spends on zone locks and free lists is not bounded by
what the guest is sent, and counts as one access here.
-/

namespace EbpfInjection.ActivationBudget
open LittleEndian InjectionMessage ProgramSetup FreePageReport InjectionMachine LatestMessage
open PacedInjection TransitionSystem BoundedWork

/-- The handler is entered though the device has no interrupt outstanding. -/
def Unprompted (state : State) : Action → Prop
  | .handle => state.handler = .idle ∧ state.irq = false
  | .inject _ | .raise _ | .report _ | .work _ => False

instance (state : State) : (action : Action) → Decidable (Unprompted state action)
  | .handle => inferInstanceAs (Decidable (_ ∧ _))
  | .inject _ | .raise _ | .report _ | .work _ => isFalse id

def unprompted (state : State) (action : Action) : Nat := if Unprompted state action then 1 else 0

def interrupts (_ : State) : Action → Nat
  | .inject _ | .raise _ => 1
  | .handle | .report _ | .work _ => 0

/-- Accesses of handler and worker to the device and the globals, one for each
step. All that a report does before its first write is one of them. -/
def driverAccesses (_ : State) : Action → Nat
  | .handle | .report _ | .work _ => 1
  | .inject _ | .raise _ => 0

structure LineFresh (state : State) : Prop where
  raised : state.fresh = true → state.irq = true
  unseen : state.handler = .idle → state.irq = true → state.fresh = true

theorem boot_line_fresh (words : Nat → Word) : LineFresh (boot words) := ⟨nofun, nofun⟩

theorem moves_line_fresh (text : HelperFixup.KernelText) (state next : State) (action : Action)
    (line : LineFresh state) (moves : Moves text state action next) : LineFresh next := by
  rcases line with ⟨raised, unseen⟩
  cases moves with
  | inject | raise => exact ⟨fun _ => rfl, fun _ _ => rfl⟩
  | enter => exact ⟨nofun, nofun⟩
  | acknowledge => exact ⟨id, fun _ => id⟩
  | setType | ignore | schedule | startReport | writeReport | endReport => exact ⟨raised, nofun⟩
  | start | readType | refused | readHeader | readWord | died | failed | built | run =>
      exact ⟨raised, unseen⟩

/-- A pass that is prompted takes the interrupt it is for. -/
theorem enter_fresh (state : State) (line : LineFresh state) (at_handler : state.handler = .idle)
    (prompted : ¬ Unprompted state .handle) : state.fresh = true := by
  apply line.unseen at_handler
  cases irq : state.irq with
  | true => rfl
  | false => exact absurd ⟨at_handler, irq⟩ prompted

/-! Activations asked for: by a message not yet seen, with the handler, pending
or with the worker. -/
section Activations

def carriesInjection (irqStatus : Word) : Nat := (injectionOf irqStatus).isSome.toNat

def handlerActivation : Handler → Nat
  | .dispatch irqStatus _ => carriesInjection irqStatus
  | .schedule _ _ => 1
  | .idle | .reporting _ _ _ | .ack _ _ => 0

def unseenActivation (fresh : Bool) (status : Word) : Nat :=
  if fresh then carriesInjection status else 0

def asked (state : State) : Nat :=
  unseenActivation state.fresh state.status + handlerActivation state.handler +
    state.pending.toNat + withWorker state.worker

theorem carries_le_one (irqStatus : Word) : carriesInjection irqStatus ≤ 1 := Bool.toNat_le _

theorem moves_asked (text : HelperFixup.KernelText) (state next : State) (action : Action)
    (line : LineFresh state) (moves : Moves text state action next) :
    next.runs.length + asked next + state.sent.length ≤
      state.runs.length + asked state + next.sent.length + unprompted state action := by
  cases moves with
  | inject message =>
      have one := carries_le_one (BitVec.ofNat 32 message.type.code)
      simp only [asked, inject, unseenActivation, if_true, List.length_append,
        List.length_singleton]
      omega
  | raise status other =>
      simp only [asked, unseenActivation, carriesInjection, other, Option.isSome_none,
        Bool.toNat_false, if_true]
      omega
  | enter at_handler =>
      have one := carries_le_one state.status
      by_cases prompted : Unprompted state .handle
      · simp only [asked, unseenActivation, handlerActivation, at_handler, unprompted, prompted,
          if_true, Bool.false_eq_true, if_false]
        omega
      · -- the interrupt taken is the one that asked
        have fresh := enter_fresh state line at_handler prompted
        simp only [asked, unseenActivation, handlerActivation, at_handler, fresh, if_true,
          Bool.false_eq_true, if_false]
        omega
  | setType irqStatus seen type at_handler found =>
      simp only [asked, handlerActivation, at_handler, carriesInjection, found, Option.isSome_some,
        Bool.toNat_true]
      omega
  | schedule irqStatus seen at_handler =>
      simp only [asked, handlerActivation, at_handler, Bool.toNat_true]
      omega
  | ignore irqStatus seen at_handler | startReport scan irqStatus seen at_handler
  | writeReport irqStatus seen offset value todo at_handler
  | endReport irqStatus seen at_handler | acknowledge irqStatus seen at_handler =>
      simp only [asked, handlerActivation, at_handler]
      omega
  | start answers at_worker queued =>
      simp only [asked, at_worker, queued, withWorker, Bool.toNat_true, Bool.toNat_false]
      omega
  | run answers built at_worker =>
      simp only [asked, at_worker, withWorker, List.length_append, List.length_singleton]
      omega
  | readType answers at_worker | refused answers _ _ at_worker
  | readHeader answers _ _ at_worker | readWord answers _ at_worker
  | died answers _ _ at_worker | failed answers _ _ at_worker
  | built answers _ _ _ at_worker =>
      simp only [asked, at_worker, withWorker]
      omega

def surplus (state : State) : Int := state.runs.length + asked state - state.sent.length

/-- In every run the activations, and those still asked for, are no more than
the messages and the passes of the handler without an interrupt of the device. -/
theorem activations_bounded (text : HelperFixup.KernelText) (words : Nat → Word)
    (history : List Action) (state : State)
    (replay : run (step text) (boot words) history = some state) :
    state.runs.length + asked state ≤
      state.sent.length + tally (step text) unprompted (boot words) history := by
  have paid := amortized (step text) LineFresh (fun _ _ => True) surplus (fun _ _ => 0) unprompted
    (fun before action after line _ taken =>
      moves_line_fresh text before after action line (step_moves text before after action taken))
    (by
      intro before action after line _ taken
      have moved := moves_asked text before after action line
        (step_moves text before after action taken)
      simp only [surplus]
      omega)
    (boot_line_fresh words) (along_trivial _ _ history) replay
  have start : surplus (boot words) = 0 := rfl
  simp only [surplus] at paid start
  omega

/-- One message; once it is done, the handler is called for another device of
the line, and the program runs a second time. -/
def sharedLineHistory : List Action :=
  [.inject exitMessage] ++ List.replicate 4 .handle ++ List.replicate 7 (.work served) ++
    List.replicate 4 .handle ++ List.replicate 7 (.work served)

theorem shared_line_bounded :
    ∃ state, run (step ⟨0, 0, 0, 0⟩) (boot fun _ => 0#32) sharedLineHistory = some state ∧
      state.runs.length = 2 ∧ state.sent.length = 1 ∧
      state.runs.length + asked state ≤ state.sent.length +
        tally (step ⟨0, 0, 0, 0⟩) unprompted (boot fun _ => 0#32) sharedLineHistory := by
  have reached : (run (step ⟨0, 0, 0, 0⟩) (boot fun _ => 0#32) sharedLineHistory).any
      (fun state => state.runs.length = 2 ∧ state.sent.length = 1) = true := by decide
  obtain ⟨state, replay, checked⟩ := (Option.any_eq_true _ _).mp reached
  obtain ⟨twice, one⟩ := of_decide_eq_true checked
  exact ⟨state, replay, twice, one, activations_bounded _ _ sharedLineHistory state replay⟩

end Activations

/-! Accesses the driver still has to make for what it has been asked. -/
section Steps

def activationAccesses : Nat := 16382 + 5

/-- At most: the status, the switch, `schedule_work` with its activation, and the
acknowledgement. A report has fewer accesses, its locks and walk as one. -/
def passAccesses : Nat := activationAccesses + 4

def handlerOwes : Handler → Nat
  | .idle => 0
  | .dispatch _ _ => activationAccesses + 3
  | .schedule _ _ => activationAccesses + 2
  | .reporting _ _ todo => todo.length + 2
  | .ack _ _ => 1

def workerOwes : Worker → Nat
  | .idle | .dead => 0
  | .entered => activationAccesses - 1
  | .typed _ _ => activationAccesses - 2
  | .copying copy => copy.jmax - copy.cells.length + 2
  | .running _ => 1

def owed (state : State) : Nat :=
  state.fresh.toNat * passAccesses + handlerOwes state.handler +
    state.pending.toNat * activationAccesses + workerOwes state.worker

theorem jmax_bound (copy : Copy) : copy.jmax ≤ 16382 := by
  have field := (MsgHeader.ofWord copy.header.value).payloadLen.isLt
  unfold Copy.jmax Copy.size
  omega

theorem moves_owed (text : HelperFixup.KernelText) (state next : State) (action : Action)
    (line : LineFresh state) (moves : Moves text state action next) :
    owed next + driverAccesses state action ≤
      owed state + passAccesses * (interrupts state action + unprompted state action) := by
  cases moves with
  | inject message =>
      have quiet : unprompted state (.inject message) = 0 := rfl
      simp only [owed, inject, driverAccesses, interrupts, quiet, Bool.toNat_true]
      omega
  | raise status other =>
      have quiet : unprompted state (.raise status) = 0 := rfl
      simp only [owed, driverAccesses, interrupts, quiet, Bool.toNat_true]
      omega
  | enter at_handler =>
      by_cases prompted : Unprompted state .handle
      · simp only [owed, handlerOwes, at_handler, driverAccesses, interrupts, unprompted, prompted,
          if_true, Bool.toNat_false, passAccesses]
        omega
      · have fresh := enter_fresh state line at_handler prompted
        simp only [owed, handlerOwes, at_handler, driverAccesses, fresh, Bool.toNat_true,
          Bool.toNat_false, passAccesses]
        omega
  | schedule irqStatus seen at_handler =>
      simp only [owed, handlerOwes, at_handler, driverAccesses, Bool.toNat_true]
      omega
  | startReport scan irqStatus seen at_handler =>
      simp only [owed, handlerOwes, at_handler, driverAccesses, deviceWrites, List.length_cons,
        List.length_nil, activationAccesses]
      omega
  | acknowledge irqStatus seen at_handler =>
      simp only [owed, handlerOwes, at_handler, driverAccesses]
      omega
  | setType irqStatus seen type at_handler found | ignore irqStatus seen at_handler other
  | writeReport irqStatus seen offset value todo at_handler
  | endReport irqStatus seen at_handler =>
      simp only [owed, handlerOwes, at_handler, driverAccesses, List.length_cons, List.length_nil]
      omega
  | start answers at_worker queued =>
      simp only [owed, workerOwes, at_worker, queued, driverAccesses, Bool.toNat_true,
        Bool.toNat_false, activationAccesses]
      omega
  | readHeader answers programType typedAt at_worker =>
      have bound := jmax_bound
        ⟨programType, typedAt, state.buffer newdevBuf, [], state.sent.length⟩
      simp only [owed, workerOwes, at_worker, driverAccesses, List.length_nil, activationAccesses]
      omega
  | readWord answers copy at_worker more =>
      have same : Copy.jmax { copy with
          cells := copy.cells ++ [state.buffer (payloadOffset copy.cells.length)]
          readAt := state.sent.length } = copy.jmax := rfl
      simp only [owed, workerOwes, at_worker, driverAccesses, same, List.length_append,
        List.length_singleton]
      omega
  | readType answers at_worker | refused answers _ _ at_worker | died answers _ _ at_worker
  | failed answers _ _ at_worker | built answers _ _ _ at_worker | run answers _ at_worker =>
      simp only [owed, workerOwes, at_worker, driverAccesses, activationAccesses]
      omega

/-- In every run the accesses of handler and worker, those made and those still
owed, are bounded by the interrupts and the passes without one. -/
theorem driver_accesses_bounded (text : HelperFixup.KernelText) (words : Nat → Word)
    (history : List Action) (state : State)
    (replay : run (step text) (boot words) history = some state) :
    owed state + tally (step text) driverAccesses (boot words) history ≤
      passAccesses * tally (step text)
        (fun state action => interrupts state action + unprompted state action)
        (boot words) history := by
  have paid := amortized (step text) LineFresh (fun _ _ => True) (fun state => owed state)
    driverAccesses
    (fun state action => passAccesses * (interrupts state action + unprompted state action))
    (fun before action after line _ taken =>
      moves_line_fresh text before after action line (step_moves text before after action taken))
    (by
      intro before action after line _ taken
      exact_mod_cast moves_owed text before after action line
        (step_moves text before after action taken))
    (boot_line_fresh words) (along_trivial _ _ history) replay
  rw [tally_mul] at paid
  have start : owed (boot words) = 0 := by simp [owed, boot, handlerOwes, workerOwes]
  omega

theorem shared_line_accesses :
    ∃ state, run (step ⟨0, 0, 0, 0⟩) (boot fun _ => 0#32) sharedLineHistory = some state ∧
      owed state + tally (step ⟨0, 0, 0, 0⟩) driverAccesses (boot fun _ => 0#32) sharedLineHistory ≤
        passAccesses * tally (step ⟨0, 0, 0, 0⟩)
          (fun state action => interrupts state action + unprompted state action)
          (boot fun _ => 0#32) sharedLineHistory := by
  have reached : (run (step ⟨0, 0, 0, 0⟩) (boot fun _ => 0#32) sharedLineHistory).isSome = true :=
    by decide
  obtain ⟨state, replay⟩ := Option.isSome_iff_exists.mp reached
  exact ⟨state, replay, driver_accesses_bounded _ _ sharedLineHistory state replay⟩

end Steps

end EbpfInjection.ActivationBudget
