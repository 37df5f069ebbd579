import EbpfInjection.InjectionMachine
import EbpfInjection.ResourceLedger

/-!
`pci_probe` and `pci_remove` around the machine of handler and work item. The
interrupt is enabled in the middle of the probe and disabled at the start of
the remove; the work item is not waited for. The device, the globals and a
queued work item outlive a remove, so a later probe finds them as they were
left. The PCI core takes the positive value of a failed probe for success.
-/

namespace EbpfInjection.DriverLifetime
open InjectionMessage HelperFixup ResourceLedger InjectionMachine TransitionSystem

inductive Resource where
  | chrdev
  | device
  | region
  | mapping (number : Nat)
  | irq
  | memory (number : Nat)
  deriving DecidableEq

/-- The steps of `pci_probe` behind `register_chrdev`. -/
inductive ProbeStep where
  | enableDevice
  | requestRegion
  | iomap
  | requestIrq
  | initWork
  | resetType
  | allocMigrationBuffer
  | allocCtx
  deriving DecidableEq

/-- The steps of `pci_remove` behind `free_irq`. -/
inductive RemoveStep where
  | iounmap
  | disableDevice
  | releaseRegion
  | unregisterChrdev
  | freeCtx
  | freeMigrationBuffer
  deriving DecidableEq

/-- `completed` is false after a probe that took the error exit. -/
inductive Phase where
  | unbound
  | probing (next : ProbeStep)
  | bound (completed : Bool)
  | removing (completed : Bool) (next : RemoveStep)
  deriving DecidableEq

/-- `workInit` says that `INIT_WORK` ran in the current probe. The pointers are
globals, and a release leaves them as they are. -/
structure State where
  phase : Phase
  bufmmio : Option Nat
  migrationBuffer : Option Nat
  ctx : Option Nat
  nextNumber : Nat
  irqRequested : Bool
  workInit : Bool
  events : List (Event Resource)
  machine : InjectionMachine.State

def load (words : Nat → LittleEndian.Word) : State :=
  { phase := .unbound
    bufmmio := none
    migrationBuffer := none
    ctx := none
    nextNumber := 0
    irqRequested := false
    workInit := false
    events := []
    machine := boot words }

namespace State

def acquire (state : State) (resource : Resource) : State :=
  { state with events := state.events ++ [.acquire resource] }

def release (state : State) (resource : Resource) : State :=
  { state with events := state.events ++ [.release resource] }

def kfree (state : State) : Option Nat → State
  | none => state
  | some number => state.release (.memory number)

def holds (state : State) (resource : Resource) : Bool :=
  heldAfter nothing state.events resource

end State

def probeStep (answer : Bool) (state : State) : ProbeStep → State
  | .enableDevice =>
      if answer then { state.acquire .device with phase := .probing .requestRegion }
      else { state with phase := .bound false }
  | .requestRegion =>
      if answer then { state.acquire .region with phase := .probing .iomap }
      else { state with phase := .bound false }
  | .iomap =>
      -- the result is not checked
      if answer then
        { state.acquire (.mapping state.nextNumber) with
          bufmmio := some state.nextNumber
          nextNumber := state.nextNumber + 1
          phase := .probing .requestIrq }
      else { state with bufmmio := none, phase := .probing .requestIrq }
  | .requestIrq =>
      if answer then
        { state.acquire .irq with irqRequested := true, phase := .probing .initWork }
      else { state with phase := .bound false }
  | .initWork => { state with workInit := true, phase := .probing .resetType }
  | .resetType =>
      { state with
        machine := { state.machine with programType := 0#8 }
        phase := .probing .allocMigrationBuffer }
  | .allocMigrationBuffer =>
      -- a failure is only logged
      if answer then
        { state.acquire (.memory state.nextNumber) with
          migrationBuffer := some state.nextNumber
          nextNumber := state.nextNumber + 1
          phase := .probing .allocCtx }
      else { state with migrationBuffer := none, phase := .probing .allocCtx }
  | .allocCtx =>
      if answer then
        { state.acquire (.memory state.nextNumber) with
          ctx := some state.nextNumber
          nextNumber := state.nextNumber + 1
          phase := .bound true }
      else { state with ctx := none, phase := .bound true }

def removeStep (completed : Bool) (state : State) : RemoveStep → State
  | .iounmap =>
      let unmapped :=
        match state.bufmmio with
        | none => state
        | some number => state.release (.mapping number)
      { unmapped with phase := .removing completed .disableDevice }
  | .disableDevice => { state.release .device with phase := .removing completed .releaseRegion }
  | .releaseRegion => { state.release .region with phase := .removing completed .unregisterChrdev }
  | .unregisterChrdev => { state.release .chrdev with phase := .removing completed .freeCtx }
  | .freeCtx =>
      { state.kfree state.ctx with phase := .removing completed .freeMigrationBuffer }
  | .freeMigrationBuffer => { state.kfree state.migrationBuffer with phase := .unbound }

theorem remove_step_machine (completed : Bool) (state : State)
    (next : RemoveStep) : (removeStep completed state next).machine = state.machine := by
  cases next with
  | iounmap => cases at_pointer : state.bufmmio <;> simp [removeStep, at_pointer, State.release]
  | freeCtx =>
      cases at_pointer : state.ctx <;> simp [removeStep, at_pointer, State.kfree, State.release]
  | freeMigrationBuffer =>
      cases at_pointer : state.migrationBuffer <;>
        simp [removeStep, at_pointer, State.kfree, State.release]
  | disableDevice | releaseRegion | unregisterChrdev => rfl

inductive Action where
  | probe (answer : Bool)
  | remove
  | machine (action : InjectionMachine.Action)

def probe (answer : Bool) (state : State) : Option State :=
  match state.phase with
  | .unbound =>
      let registered := if answer then state.acquire .chrdev else state
      some { registered with workInit := false, phase := .probing .enableDevice }
  | .probing next => some (probeStep answer state next)
  | _ => none

/-- `free_irq` waits for a running handler. -/
def remove (state : State) : Option State :=
  match state.phase with
  | .bound completed =>
      if state.machine.handler = .idle then
        some { state.release .irq with
          irqRequested := false
          phase := .removing completed .iounmap }
      else none
  | .removing completed next => some (removeStep completed state next)
  | _ => none

def Enterable (state : State) : InjectionMachine.Action → Prop
  | .handle => state.machine.handler = .idle → state.irqRequested = true
  | _ => True

instance (state : State) : (action : InjectionMachine.Action) → Decidable (Enterable state action)
  | .handle => inferInstanceAs (Decidable (_ → _))
  | .inject _ | .raise _ | .report _ | .work _ => isTrue trivial

def step (text : KernelText) (state : State) : Action → Option State
  | .probe answer => probe answer state
  | .remove => remove state
  | .machine action =>
      if Enterable state action then
        (InjectionMachine.step text state.machine action).map fun machine => { state with machine }
      else none

end EbpfInjection.DriverLifetime
