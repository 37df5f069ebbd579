import EbpfInjection.DriverLifetime
import EbpfInjection.LatestMessage

/-!
Interrupts and activations between the steps of probe and remove. Each of them
relies on a global that a certain step of the probe sets up; nothing but the
order of the events makes sure that this step has been taken and its result has
not been undone.
-/

namespace EbpfInjection.LiveState
open InjectionMessage HelperFixup ResourceLedger InjectionMachine DriverLifetime LatestMessage
open TransitionSystem

/-- How far the current probe has come. A probe that failed, and a remove that
has unmapped the buffer, count as none. -/
def progress : Phase → Nat
  | .probing .enableDevice => 1
  | .probing .requestRegion => 2
  | .probing .iomap => 3
  | .probing .requestIrq => 4
  | .probing .initWork => 5
  | .probing .resetType => 6
  | .probing .allocMigrationBuffer => 7
  | .probing .allocCtx => 8
  | .bound true => 9
  | .removing true .iounmap => 10
  | _ => 0

def live (state : DriverLifetime.State) (pointer : Option Nat) (kind : Nat → Resource) : Bool :=
  pointer.any fun number => state.holds (kind number)

def TypeNamed (state : DriverLifetime.State) : Prop :=
  (prognameFromIdx (getProgTypeFromIrq state.machine.programType)).isSome = true

def ScheduleSafe (workInit : Bool) : Handler → Prop
  | .schedule _ _ => workInit = true
  | _ => True

def StepSafe (state : DriverLifetime.State) : DriverLifetime.Action → Prop
  | .machine .handle => ScheduleSafe state.workInit state.machine.handler
  | .machine (.report _) => live state state.migrationBuffer .memory = true
  | _ => True

/-- While `execute_work` runs it has its mapping, its context and a type with a
program name. -/
def StateSafe (state : DriverLifetime.State) : Prop :=
  state.machine.worker ≠ .idle →
    live state state.bufmmio .mapping = true ∧ live state state.ctx .memory = true ∧
      (∃ type : InjectionType, state.machine.programType.toNat = type.code) ∧ TypeNamed state

def DispatchOrderly (phase : Phase) : Handler → Prop
  | .dispatch irqStatus _ => (injectionOf irqStatus).isSome = true →
      7 ≤ progress phase ∧ progress phase ≤ 9
  | _ => True

def RemoveOrderly (machine : InjectionMachine.State) : Phase → Prop
  | .removing _ .iounmap => machine.pending = false ∧ machine.worker = .idle
  | _ => True

/-- The condition on the steps. An injection interrupt is handled only once the
probe has reset `program_type`; a report starts only once `migration_buffer`
was allocated; an activation starts only once the probe is complete, with a
mapping and a context; the remove unmaps only when no work is left. -/
def Orderly (state : DriverLifetime.State) : DriverLifetime.Action → Prop
  | .machine .handle => DispatchOrderly state.phase state.machine.handler
  | .machine (.report _) => 8 ≤ progress state.phase ∧ progress state.phase ≤ 9 ∧
      state.migrationBuffer.isSome = true
  | .machine (.work _) => state.machine.worker = .idle →
      9 ≤ progress state.phase ∧ state.bufmmio.isSome = true ∧ state.ctx.isSome = true
  | .remove => RemoveOrderly state.machine state.phase
  | _ => True

section Decidability

instance (workInit : Bool) : (handler : Handler) → Decidable (ScheduleSafe workInit handler)
  | .schedule _ _ => inferInstanceAs (Decidable (workInit = true))
  | .idle | .dispatch _ _ | .reporting _ _ _ | .ack _ _ => isTrue trivial

instance (phase : Phase) : (handler : Handler) → Decidable (DispatchOrderly phase handler)
  | .dispatch _ _ => inferInstanceAs (Decidable (_ → _ ∧ _))
  | .idle | .schedule _ _ | .reporting _ _ _ | .ack _ _ => isTrue trivial

instance (machine : InjectionMachine.State) : (phase : Phase) →
    Decidable (RemoveOrderly machine phase)
  | .removing _ .iounmap => inferInstanceAs (Decidable (_ ∧ _))
  | .removing _ .disableDevice | .removing _ .releaseRegion | .removing _ .unregisterChrdev
  | .removing _ .freeCtx | .removing _ .freeMigrationBuffer | .unbound | .probing _ | .bound _ =>
      isTrue trivial

instance (state : DriverLifetime.State) : (action : DriverLifetime.Action) →
    Decidable (StepSafe state action)
  | .machine .handle =>
      inferInstanceAs (Decidable (ScheduleSafe state.workInit state.machine.handler))
  | .machine (.report _) =>
      inferInstanceAs (Decidable (live state state.migrationBuffer .memory = true))
  | .machine (.inject _) | .machine (.raise _) | .machine (.work _) | .probe _ | .remove =>
      isTrue trivial

instance (state : DriverLifetime.State) : (action : DriverLifetime.Action) →
    Decidable (Orderly state action)
  | .machine .handle =>
      inferInstanceAs (Decidable (DispatchOrderly state.phase state.machine.handler))
  | .machine (.report _) => inferInstanceAs (Decidable (_ ∧ _ ∧ _))
  | .machine (.work _) => inferInstanceAs (Decidable (_ → _ ∧ _ ∧ _))
  | .remove => inferInstanceAs (Decidable (RemoveOrderly state.machine state.phase))
  | .machine (.inject _) | .machine (.raise _) | .probe _ => isTrue trivial

end Decidability

structure Equipped (state : DriverLifetime.State) : Prop where
  init : 6 ≤ progress state.phase → state.workInit = true
  mapping : 4 ≤ progress state.phase → ∀ number, state.bufmmio = some number →
    state.holds (.mapping number) = true
  buffer : 8 ≤ progress state.phase → ∀ number, state.migrationBuffer = some number →
    state.holds (.memory number) = true
  ctx : 9 ≤ progress state.phase → ∀ number, state.ctx = some number →
    state.holds (.memory number) = true

structure Due (state : DriverLifetime.State) : Prop where
  scheduling : ∀ irqStatus seen, state.machine.handler = .schedule irqStatus seen →
    7 ≤ progress state.phase ∧ progress state.phase ≤ 9 ∧ TypeNamed state
  queued : state.machine.pending = true → 7 ≤ progress state.phase ∧ TypeNamed state
  running : state.machine.worker ≠ .idle → 9 ≤ progress state.phase ∧ TypeNamed state ∧
    state.bufmmio.isSome = true ∧ state.ctx.isSome = true

structure Sound (state : DriverLifetime.State) : Prop where
  equipped : Equipped state
  due : Due state

def Resting (machine : InjectionMachine.State) : Prop :=
  (∀ irqStatus seen, machine.handler ≠ .schedule irqStatus seen) ∧ machine.pending = false ∧
    machine.worker = .idle

theorem resting_due (state : DriverLifetime.State) (resting : Resting state.machine) :
    Due state := by
  rcases resting with ⟨handler, notPending, notRunning⟩
  exact ⟨fun irqStatus seen same => absurd same (handler irqStatus seen),
    fun queued => absurd (notPending.symm.trans queued) (by decide),
    fun busy => absurd notRunning busy⟩

theorem early_resting (state : DriverLifetime.State) (due : Due state)
    (early : progress state.phase < 7) : Resting state.machine := by
  refine ⟨?_, ?_, ?_⟩
  · intro irqStatus seen same
    have far := due.scheduling irqStatus seen same
    omega
  · by_contra queued
    have far := due.queued (by simpa using queued)
    omega
  · by_contra busy
    have far := due.running busy
    omega

theorem none_equipped (state : DriverLifetime.State) (gone : progress state.phase < 4) :
    Equipped state :=
  ⟨fun far => by omega, fun far => by omega, fun far => by omega, fun far => by omega⟩

theorem load_sound (words : Nat → LittleEndian.Word) : Sound (load words) :=
  ⟨none_equipped _ (by simp [load, progress]), resting_due _ ⟨nofun, rfl, rfl⟩⟩

theorem probe_equipped (state : DriverLifetime.State) (answer : Bool) (next : ProbeStep)
    (phase : state.phase = .probing next) (equipped : Equipped state) :
    Equipped (probeStep answer state next) := by
  rcases equipped with ⟨init, mapping, buffer, ctx⟩
  rw [phase] at init mapping buffer ctx
  have gained : ∀ resource, (state.acquire resource).holds resource = true :=
    fun resource => held_acquired nothing state.events resource
  have kept : ∀ acquired resource, state.holds resource = true →
      (state.acquire acquired).holds resource = true :=
    fun acquired resource => held_kept_acquire nothing state.events acquired resource
  cases next with
  | enableDevice | requestRegion =>
      cases answer <;> exact none_equipped _ (by simp [probeStep, progress])
  | iomap =>
      cases answer with
      | false =>
          constructor
          · simp [probeStep, progress]
          · rintro _ number ⟨⟩
          · simp [probeStep, progress]
          · simp [probeStep, progress]
      | true =>
          constructor
          · simp [probeStep, progress]
          · rintro _ number ⟨⟩
            exact gained _
          · simp [probeStep, progress]
          · simp [probeStep, progress]
  | requestIrq =>
      cases answer with
      | false => exact none_equipped _ (by simp [probeStep, progress])
      | true =>
          constructor
          · simp [probeStep, progress]
          · intro _ number same
            exact kept .irq _ (mapping (by decide) number same)
          · simp [probeStep, progress]
          · simp [probeStep, progress]
  | initWork =>
      constructor
      · intro _
        rfl
      · exact fun _ => mapping (by decide)
      · simp [probeStep, progress]
      · simp [probeStep, progress]
  | resetType =>
      constructor
      · exact fun _ => init (by decide)
      · exact fun _ => mapping (by decide)
      · simp [probeStep, progress]
      · simp [probeStep, progress]
  | allocMigrationBuffer =>
      cases answer with
      | false =>
          constructor
          · exact fun _ => init (by decide)
          · exact fun _ => mapping (by decide)
          · rintro _ number ⟨⟩
          · simp [probeStep, progress]
      | true =>
          constructor
          · exact fun _ => init (by decide)
          · intro _ number same
            exact kept _ _ (mapping (by decide) number same)
          · rintro _ number ⟨⟩
            exact gained _
          · simp [probeStep, progress]
  | allocCtx =>
      cases answer with
      | false =>
          constructor
          · exact fun _ => init (by decide)
          · exact fun _ => mapping (by decide)
          · exact fun _ => buffer (by decide)
          · rintro _ number ⟨⟩
      | true =>
          constructor
          · exact fun _ => init (by decide)
          · intro _ number same
            exact kept _ _ (mapping (by decide) number same)
          · intro _ number same
            exact kept _ _ (buffer (by decide) number same)
          · rintro _ number ⟨⟩
            exact gained _

/-- The probe goes on under work that is scheduled or queued. -/
theorem due_advances (state next : DriverLifetime.State) (machine : next.machine = state.machine)
    (before : progress state.phase < 9)
    (after : 7 ≤ progress next.phase ∧ progress next.phase ≤ 9) (due : Due state) : Due next := by
  have named : TypeNamed state → TypeNamed next := by
    rw [TypeNamed, TypeNamed, machine]
    exact id
  constructor
  · intro irqStatus seen same
    rw [machine] at same
    exact ⟨after.1, after.2, named (due.scheduling irqStatus seen same).2.2⟩
  · intro queued
    rw [machine] at queued
    exact ⟨after.1, named (due.queued queued).2⟩
  · intro busy
    -- an activation runs only behind the last step of the probe
    rw [machine] at busy
    have far := (due.running busy).1
    omega

theorem probe_due (state : DriverLifetime.State) (answer : Bool) (next : ProbeStep)
    (phase : state.phase = .probing next) (due : Due state) :
    Due (probeStep answer state next) := by
  have resting := early_resting state due
  have advances := due_advances state (probeStep answer state next)
  rw [phase] at resting advances
  cases next with
  | enableDevice | requestRegion | iomap | requestIrq =>
      cases answer <;> exact resting_due _ (resting (by decide))
  | initWork | resetType => exact resting_due _ (resting (by decide))
  | allocMigrationBuffer | allocCtx =>
      apply advances
      · cases answer <;> rfl
      · decide
      · cases answer <;> constructor <;> simp [probeStep, progress]
      · exact due

theorem probe_sound (state next : DriverLifetime.State) (answer : Bool) (sound : Sound state)
    (taken : probe answer state = some next) : Sound next := by
  unfold probe at taken
  cases phase : state.phase with
  | unbound =>
      simp only [phase, Option.some.injEq] at taken
      subst taken
      have resting := early_resting state sound.due (by rw [phase]; decide)
      exact ⟨none_equipped _ (by simp [progress]),
        resting_due _ (by cases answer <;> exact resting)⟩
  | probing step =>
      simp only [phase, Option.some.injEq] at taken
      subst taken
      exact ⟨probe_equipped state answer step phase sound.equipped,
        probe_due state answer step phase sound.due⟩
  | bound => simp [phase] at taken
  | removing => simp [phase] at taken

theorem remove_step_progress (completed : Bool) (state : DriverLifetime.State)
    (next : RemoveStep) : progress (removeStep completed state next).phase = 0 := by
  cases next <;> cases completed <;> rfl

theorem freed_irq_sound (state : DriverLifetime.State) (completed : Bool)
    (phase : state.phase = .bound completed) (idle : state.machine.handler = .idle)
    (sound : Sound state) :
    Sound { state.release .irq with
      irqRequested := false
      phase := .removing completed .iounmap } := by
  have resting := early_resting state sound.due
  rcases sound with ⟨⟨init, mapping, buffer, ctx⟩, ⟨scheduling, queued, running⟩⟩
  have kept := fun (resource : Resource) (other : resource ≠ .irq) =>
    held_kept_release nothing state.events .irq resource other
  rw [phase] at init mapping buffer ctx queued running resting
  cases completed with
  | false => exact ⟨none_equipped _ (by simp [progress]), resting_due _ (resting (by decide))⟩
  | true =>
      constructor
      · constructor
        · exact fun _ => init (by decide)
        · intro _ number same
          exact kept (.mapping number) nofun (mapping (by decide) number same)
        · intro _ number same
          exact kept (.memory number) nofun (buffer (by decide) number same)
        · intro _ number same
          exact kept (.memory number) nofun (ctx (by decide) number same)
      · constructor
        · intro irqStatus seen same
          cases idle.symm.trans same
        · intro due
          exact ⟨by simp [progress], (queued due).2⟩
        · intro busy
          exact ⟨by simp [progress], (running busy).2⟩

/-- An orderly remove tears down nothing while work is left. -/
theorem removing_resting (state : DriverLifetime.State) (completed : Bool) (next : RemoveStep)
    (phase : state.phase = .removing completed next) (orderly : Orderly state .remove)
    (due : Due state) : Resting state.machine := by
  cases next with
  | iounmap =>
      simp only [Orderly, RemoveOrderly, phase] at orderly
      have notScheduling : ∀ irqStatus seen, state.machine.handler ≠ .schedule irqStatus seen := by
        intro irqStatus seen same
        have far := due.scheduling irqStatus seen same
        rw [phase] at far
        cases completed <;> simp [progress] at far
      exact ⟨notScheduling, orderly.1, orderly.2⟩
  | disableDevice | releaseRegion | unregisterChrdev | freeCtx | freeMigrationBuffer =>
      apply early_resting state due
      rw [phase]
      cases completed <;> decide

theorem remove_sound (state next : DriverLifetime.State) (sound : Sound state)
    (orderly : Orderly state .remove) (taken : remove state = some next) : Sound next := by
  unfold remove at taken
  cases phase : state.phase with
  | bound completed =>
      simp only [phase] at taken
      split at taken
      · rename_i idle
        exact Option.some.inj taken ▸ freed_irq_sound state completed phase idle sound
      · cases taken
  | removing completed step =>
      simp only [phase, Option.some.injEq] at taken
      subst taken
      have gone := remove_step_progress completed state step
      refine ⟨none_equipped _ (by omega), resting_due _ ?_⟩
      rw [remove_step_machine]
      exact removing_resting state completed step phase orderly sound.due
  | unbound => simp [phase] at taken
  | probing => simp [phase] at taken

theorem machine_due (text : KernelText) (state : DriverLifetime.State)
    (action : InjectionMachine.Action) (machine : InjectionMachine.State)
    (orderly : Orderly state (.machine action))
    (moves : Moves text state.machine action machine) (due : Due state) :
    Due { state with machine } := by
  rcases due with ⟨scheduling, queued, running⟩
  cases moves with
  | inject | raise => exact ⟨scheduling, queued, running⟩
  | enter | ignore | startReport | writeReport | endReport | acknowledge =>
      exact ⟨nofun, queued, running⟩
  | setType irqStatus seen type at_handler asked =>
      simp only [Orderly, DispatchOrderly, at_handler, asked, Option.isSome_some, true_implies]
        at orderly
      exact ⟨fun _ _ _ => ⟨orderly.1, orderly.2, code_named type⟩,
        fun due => ⟨(queued due).1, code_named type⟩,
        fun busy => ⟨(running busy).1, code_named type, (running busy).2.2⟩⟩
  | schedule irqStatus seen at_handler =>
      have far := scheduling irqStatus seen at_handler
      exact ⟨nofun, fun _ => ⟨far.1, far.2.2⟩, running⟩
  | start answers at_worker pending =>
      obtain ⟨far, mapped, context⟩ := orderly at_worker
      exact ⟨scheduling, nofun, fun _ => ⟨far, (queued pending).2, mapped, context⟩⟩
  | run answers built at_worker =>
      exact ⟨scheduling, queued, fun busy => absurd rfl busy⟩
  | readType _ at_worker | refused _ _ _ at_worker | readHeader _ _ _ at_worker
  | readWord _ _ at_worker | died _ _ _ at_worker | failed _ _ _ at_worker
  | built _ _ _ _ at_worker =>
      exact ⟨scheduling, queued, fun _ => running (by rw [at_worker]; nofun)⟩

theorem step_sound (text : KernelText) (state next : DriverLifetime.State)
    (action : DriverLifetime.Action) (sound : Sound state) (orderly : Orderly state action)
    (taken : DriverLifetime.step text state action = some next) : Sound next := by
  cases action with
  | probe answer => exact probe_sound state next answer sound taken
  | remove => exact remove_sound state next sound orderly taken
  | machine action =>
      simp only [DriverLifetime.step] at taken
      split at taken
      · obtain ⟨machine, moved, rfl⟩ := Option.map_eq_some_iff.mp taken
        have moves := step_moves text state.machine machine action moved
        rcases sound.equipped with ⟨init, mapping, buffer, ctx⟩
        exact ⟨⟨init, mapping, buffer, ctx⟩,
          machine_due text state action machine orderly moves sound.due⟩
      · cases taken

theorem live_of_held (state : DriverLifetime.State) (pointer : Option Nat) (kind : Nat → Resource)
    (present : pointer.isSome = true)
    (held : ∀ number, pointer = some number → state.holds (kind number) = true) :
    live state pointer kind = true := by
  obtain ⟨number, rfl⟩ := Option.isSome_iff_exists.mp present
  exact held number rfl

theorem sound_step_safe (state : DriverLifetime.State) (action : DriverLifetime.Action)
    (sound : Sound state) (orderly : Orderly state action) : StepSafe state action := by
  cases action with
  | probe | remove => trivial
  | machine action =>
      cases action with
      | handle =>
          unfold StepSafe ScheduleSafe
          cases at_handler : state.machine.handler with
          | schedule irqStatus seen =>
              have far := (sound.due.scheduling irqStatus seen at_handler).1
              exact sound.equipped.init (by omega)
          | idle | dispatch | reporting | ack => trivial
      | report scan =>
          rcases orderly with ⟨far, -, allocated⟩
          exact live_of_held state _ _ allocated (sound.equipped.buffer far)
      | inject | raise | work => trivial

theorem sound_state_safe (state : DriverLifetime.State) (sound : Sound state) :
    StateSafe state := by
  intro busy
  obtain ⟨far, named, mapped, context⟩ := sound.due.running busy
  have typed := (progname_exists_iff _).mp named
  exact ⟨live_of_held state _ _ mapped (sound.equipped.mapping (by omega)),
    live_of_held state _ _ context (sound.equipped.ctx far), typed, named⟩

/-- Over any number of probes and removes: in an orderly run the handler only
schedules initialised work and only reports into an allocated buffer, and a
running activation always has its mapping, its context and a program name. -/
theorem orderly_run_safe (text : KernelText) (words : Nat → LittleEndian.Word)
    (history : List DriverLifetime.Action)
    (orderly : Along (DriverLifetime.step text) Orderly (load words) history) :
    Along (DriverLifetime.step text) StepSafe (load words) history ∧
      Throughout (DriverLifetime.step text) StateSafe (load words) history := by
  have kept : ∀ state action next, Sound state → Orderly state action →
      DriverLifetime.step text state action = some next → Sound next :=
    fun state action next sound meets taken => step_sound text state next action sound meets taken
  have start := load_sound words
  constructor
  · exact along_of_invariant _ Sound Orderly StepSafe kept sound_step_safe start orderly
  · exact throughout_of_invariant _ Sound StateSafe Orderly kept sound_state_safe start orderly

def cycleHistory : List DriverLifetime.Action :=
  List.replicate 9 (.probe true) ++
    ([.raise (BitVec.ofNat 32 firstRoundMigrationStart), .handle, .report ⟨0#64, 0#32, 0⟩] ++
      List.replicate 7 .handle ++ [.inject exitMessage] ++ List.replicate 4 .handle ++
      List.replicate 7 (.work served) : List InjectionMachine.Action).map .machine ++
    List.replicate 7 .remove

set_option maxRecDepth 4000 in
theorem two_cycles_safe :
    (run (DriverLifetime.step ⟨0, 0, 0, 0⟩) (load fun _ => 0#32)
        (cycleHistory ++ cycleHistory)).isSome = true ∧
      Along (DriverLifetime.step ⟨0, 0, 0, 0⟩) StepSafe (load fun _ => 0#32)
        (cycleHistory ++ cycleHistory) ∧
      Throughout (DriverLifetime.step ⟨0, 0, 0, 0⟩) StateSafe (load fun _ => 0#32)
        (cycleHistory ++ cycleHistory) :=
  ⟨by decide, orderly_run_safe ⟨0, 0, 0, 0⟩ (fun _ => 0#32) (cycleHistory ++ cycleHistory)
    (by decide)⟩

def earlyHistory : List DriverLifetime.Action :=
  List.replicate 5 (.probe true) ++
    ([.inject exitMessage] ++ List.replicate 3 .handle : List InjectionMachine.Action).map .machine

theorem early_interrupt_unsafe :
    (run (DriverLifetime.step ⟨0, 0, 0, 0⟩) (load fun _ => 0#32) earlyHistory).isSome = true ∧
      ¬ Along (DriverLifetime.step ⟨0, 0, 0, 0⟩) StepSafe (load fun _ => 0#32) earlyHistory :=
  ⟨by decide, by decide⟩

end EbpfInjection.LiveState
