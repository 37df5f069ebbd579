import EbpfInjection.LatestMessage
import EbpfInjection.DriverLifetime

/-!
What `pci_probe` returns and what is left after `pci_remove`. The error label of
the probe releases nothing, three of its requests are not checked at all, and
the remove never frees the program that injections have installed meanwhile.
-/

namespace EbpfInjection.ResourceBalance
open HelperFixup ResourceLedger ProgramSetup InjectionMachine DriverLifetime LatestMessage
open TransitionSystem

def probeResult (completed : Bool) : Int := if completed then 0 else 1

/-- A run together with what it takes to judge it: whether a request of the
last probe was refused, whether a remove has followed a successful probe and no
probe since, and how far the two ledgers, the numbering of the programs and the
deaths had come when the last probe began. -/
structure Tracked where
  driver : DriverLifetime.State
  failed : Bool
  removed : Bool
  eventsFrom : Nat
  programsFrom : Nat
  numbersFrom : Nat
  oopsedFrom : Bool

def Tracked.guest (tracked : Tracked) : Guest := tracked.driver.machine.guest

def requests : Phase → Bool
  | .unbound => true
  | .probing .initWork | .probing .resetType => false
  | .probing _ => true
  | .bound _ | .removing _ _ => false

def load (words : Nat → LittleEndian.Word) : Tracked :=
  { driver := DriverLifetime.load words
    failed := false
    removed := false
    eventsFrom := 0
    programsFrom := 0
    numbersFrom := 0
    oopsedFrom := false }

def observe (tracked : Tracked) : DriverLifetime.Action → Tracked
  | .probe answer =>
      if tracked.driver.phase = .unbound then
        { tracked with
          failed := !answer
          removed := false
          eventsFrom := tracked.driver.events.length
          programsFrom := (allocations tracked.guest.events).length
          numbersFrom := tracked.guest.nextProg
          oopsedFrom := tracked.guest.oopsed }
      else
        { tracked with
          failed := tracked.failed || (requests tracked.driver.phase && !answer) }
  | .remove =>
      { tracked with
        removed := decide (tracked.driver.phase = .removing true .freeMigrationBuffer) }
  | .machine _ => tracked

def step (text : KernelText) (tracked : Tracked) (action : DriverLifetime.Action) :
    Option Tracked :=
  (DriverLifetime.step text tracked.driver action).map fun driver =>
    { observe tracked action with driver }

theorem tracked_run (text : KernelText) (tracked : Tracked)
    (history : List DriverLifetime.Action) :
    (run (step text) tracked history).map Tracked.driver =
      run (DriverLifetime.step text) tracked.driver history := by
  induction history generalizing tracked with
  | nil => rfl
  | cons action rest ih =>
      simp only [run, step]
      cases DriverLifetime.step text tracked.driver action with
      | none => rfl
      | some driver => exact ih { observe tracked action with driver }

/-- When a probe with a refused request returns, its result is negative and
nothing it acquired is held. -/
def ProbeClean (next : Tracked) : DriverLifetime.Action → Prop
  | .probe _ => ∀ completed, next.driver.phase = .bound completed → next.failed = true →
      probeResult completed < 0 ∧
        ∀ resource, .acquire resource ∈ next.driver.events.drop next.eventsFrom →
          next.driver.holds resource = false
  | .remove | .machine _ => True

/-- From the return of the remove after a successful probe to the next probe,
what was acquired since the former has been released. -/
def RemoveClean (next : Tracked) : Prop :=
  next.removed = true →
    Balanced next.driver.events next.eventsFrom ∧
      Balanced (allocations next.guest.events) next.programsFrom

def StepClean (text : KernelText) (tracked : Tracked) (action : DriverLifetime.Action) : Prop :=
  ∀ next, step text tracked action = some next → ProbeClean next action ∧ RemoveClean next

/-- The setup that is about to start frees no dangling pointer. -/
def FreesLive (guest : Guest) (answers : Answers) : Worker → Prop
  | .typed _ _ => answers.insns = true →
      ∀ number ∈ guest.bpfInjectedProg, (guest.progs number).isSome = true
  | _ => True

def NothingInstalled (tracked : Tracked) : Prop :=
  tracked.guest.oopsed = tracked.oopsedFrom ∧
    ∀ number ∈ tracked.guest.bpfInjectedProg, tracked.numbersFrom ≤ number →
      tracked.guest.progs number = none

def AtRest (machine : InjectionMachine.State) : Prop :=
  machine.pending = false ∧ (machine.worker = .idle ∨ machine.worker = .dead)

/-- The condition on the steps. Every request of a probe is served; a setup
starts with a pointer that is NULL or live; the last step of a remove finds
the work at rest and nothing installed. -/
def Tidy (tracked : Tracked) : DriverLifetime.Action → Prop
  | .probe answer => requests tracked.driver.phase = true → answer = true
  | .remove => tracked.driver.phase = .removing true .freeMigrationBuffer →
      AtRest tracked.driver.machine ∧ NothingInstalled tracked
  | .machine (.work answers) => FreesLive tracked.guest answers tracked.driver.machine.worker
  | .machine _ => True

section Decidability

instance (guest : Guest) (answers : Answers) : (worker : Worker) →
    Decidable (FreesLive guest answers worker)
  | .typed _ _ => inferInstanceAs (Decidable (_ → ∀ number ∈ guest.bpfInjectedProg, _))
  | .idle | .entered | .copying _ | .running _ | .dead => isTrue trivial

instance (tracked : Tracked) : Decidable (NothingInstalled tracked) :=
  inferInstanceAs (Decidable (_ ∧ ∀ number ∈ tracked.guest.bpfInjectedProg, _))

instance (machine : InjectionMachine.State) : Decidable (AtRest machine) :=
  inferInstanceAs (Decidable (_ ∧ (_ ∨ _)))

instance (tracked : Tracked) : (action : DriverLifetime.Action) → Decidable (Tidy tracked action)
  | .probe _ => inferInstanceAs (Decidable (_ → _))
  | .remove => inferInstanceAs (Decidable (_ → AtRest _ ∧ NothingInstalled tracked))
  | .machine (.work answers) =>
      inferInstanceAs (Decidable (FreesLive tracked.guest answers tracked.driver.machine.worker))
  | .machine (.inject _) | .machine (.raise _) | .machine .handle | .machine (.report _) =>
      isTrue trivial

end Decidability

/-! The programs: who is allocated, and since when. -/
section Programs

def Live (guest : Guest) (pointer : Option Nat) : Prop :=
  ∃ number, pointer = some number ∧ (guest.progs number).isSome = true

structure Programs (guest : Guest) (mark numbers : Nat) : Prop where
  account : Account (allocations guest.events) mark (Live guest)
  numbered : ∀ pointer, .acquire pointer ∈ allocations guest.events →
    ∃ number < guest.nextProg, pointer = some number
  since : ∀ number, .acquire (some number) ∈ (allocations guest.events).drop mark →
    numbers ≤ number
  kept : numbers ≤ guest.nextProg

variable (guest : Guest) (mark numbers : Nat)

theorem live_numbered (programs : Programs guest mark numbers) (number : Nat)
    (live : (guest.progs number).isSome = true) : number < guest.nextProg := by
  have held := (programs.account.books.exact (some number)).mpr ⟨number, rfl, live⟩
  rcases held_was_acquired nothing _ _ held with before | acquired
  · cases before
  · obtain ⟨_, below, ⟨⟩⟩ := programs.numbered _ acquired
    exact below

theorem programs_alloc (prog : BpfProg) (programs : Programs guest mark numbers) :
    Programs (guest.bpfProgAlloc prog) mark numbers := by
  -- numbers are given out in order, so the next one is nowhere in the ledger
  have unused : .acquire (some guest.nextProg) ∉ allocations guest.events := by
    intro acquired
    obtain ⟨_, below, ⟨⟩⟩ := programs.numbered _ acquired
    exact Nat.lt_irrefl _ below
  have grown : allocations (guest.bpfProgAlloc prog).events =
      allocations guest.events ++ [.acquire (some guest.nextProg)] := allocations_append ..
  have bound := programs.account.bound
  constructor
  · rw [grown]
    apply account_acquire _ mark (Live guest) _ _ programs.account
    · rintro ⟨_, ⟨⟩, live⟩
      exact Nat.lt_irrefl _ (live_numbered guest mark numbers programs _ live)
    · exact fun member => unused (List.mem_of_mem_drop member)
    · by_contra held
      rcases held_was_acquired nothing _ _ (by simpa using held) with before | acquired
      · cases before
      · exact unused (List.mem_of_mem_take acquired)
    · intro other
      cases other with
      | none => simp [Live]
      | some number =>
          by_cases same : number = guest.nextProg <;> simp [Live, Guest.bpfProgAlloc, same]
  · rw [grown]
    intro pointer member
    rcases List.mem_append.mp member with earlier | last
    · obtain ⟨number, below, rfl⟩ := programs.numbered pointer earlier
      exact ⟨number, Nat.lt_succ_of_lt below, rfl⟩
    · cases List.mem_singleton.mp last
      exact ⟨guest.nextProg, Nat.lt_succ_self _, rfl⟩
  · rw [grown, List.drop_append_of_le_length bound]
    intro number member
    rcases List.mem_append.mp member with earlier | last
    · exact programs.since number earlier
    · cases List.mem_singleton.mp last
      exact programs.kept
  · exact Nat.le_succ_of_le programs.kept

theorem alloc_live (prog : BpfProg) :
    ((guest.bpfProgAlloc prog).progs guest.nextProg).isSome = true := by
  simp [Guest.bpfProgAlloc]

theorem alloc_only_live (prog : BpfProg)
    (none_live : ∀ number, ¬ (guest.progs number).isSome = true) (number : Nat)
    (live : ((guest.bpfProgAlloc prog).progs number).isSome = true) :
    number = guest.nextProg := by
  by_contra other
  simp only [Guest.bpfProgAlloc, Function.update_of_ne other] at live
  exact none_live number live

theorem programs_free (number : Nat) (live : (guest.progs number).isSome = true)
    (programs : Programs guest mark numbers) :
    Programs (guest.bpfProgFree number) mark numbers := by
  have grown : allocations (guest.bpfProgFree number).events =
      allocations guest.events ++ [.release (some number)] := allocations_append ..
  constructor
  · rw [grown]
    apply account_release _ mark (Live guest) _ _ programs.account
    · exact ⟨number, rfl, live⟩
    · intro other
      cases other with
      | none => simp [Live]
      | some pointer => by_cases same : pointer = number <;> simp [Live, Guest.bpfProgFree, same]
  · rw [grown]
    intro pointer member
    exact programs.numbered pointer (by simpa using member)
  · rw [grown, List.drop_append_of_le_length programs.account.bound]
    intro pointer member
    exact programs.since pointer (by simpa using member)
  · exact programs.kept

theorem programs_run (programs : Programs guest mark numbers) :
    Programs guest.bpfProgRun mark numbers := by
  have same : allocations guest.bpfProgRun.events = allocations guest.events :=
    (allocations_append ..).trans (List.append_nil _)
  rcases programs with ⟨account, numbered, since, kept⟩
  exact ⟨same ▸ account, same ▸ numbered, same ▸ since, kept⟩

theorem programs_pointer (pointer : Option Nat) (programs : Programs guest mark numbers) :
    Programs { guest with bpfInjectedProg := pointer } mark numbers :=
  ⟨programs.account, programs.numbered, programs.since, programs.kept⟩

theorem programs_open (programs : Programs guest mark numbers) :
    Programs guest (allocations guest.events).length guest.nextProg := by
  constructor
  · exact account_open _ _ programs.account.books
  · exact programs.numbered
  · simp
  · exact Nat.le_refl _

end Programs

/-! The worker and the pointer. -/
section Injected

/-- Until an activation dies, the only live program is the one the pointer
refers to, and none is live while a copy is under way. -/
structure Injected (machine : InjectionMachine.State) (mark numbers : Nat) (oopsed : Bool) :
    Prop where
  programs : Programs machine.guest mark numbers
  sole : machine.worker ≠ .dead → ∀ number, (machine.guest.progs number).isSome = true →
    machine.guest.bpfInjectedProg = some number ∧ ∀ copy, machine.worker ≠ .copying copy
  died : machine.guest.oopsed = true ↔ machine.worker = .dead
  earlier : oopsed = true → machine.guest.oopsed = true ∧ machine.guest.nextProg = numbers

variable (machine : InjectionMachine.State) (mark numbers : Nat) (oopsed : Bool)

theorem injected_same (next : InjectionMachine.State) (guest : next.guest = machine.guest)
    (worker : next.worker = machine.worker) (injected : Injected machine mark numbers oopsed) :
    Injected next mark numbers oopsed := by
  rcases injected with ⟨programs, sole, died, earlier⟩
  rw [← guest] at programs sole died earlier
  rw [← worker] at sole died
  exact ⟨programs, sole, died, earlier⟩

theorem injected_moves (next : InjectionMachine.State) (guest : next.guest = machine.guest)
    (alive : machine.worker ≠ .dead) (alive' : next.worker ≠ .dead)
    (outside : ∀ copy, next.worker ≠ .copying copy)
    (injected : Injected machine mark numbers oopsed) : Injected next mark numbers oopsed := by
  rcases injected with ⟨programs, sole, died, earlier⟩
  constructor
  · exact guest ▸ programs
  · intro _ number live
    rw [guest] at live ⊢
    exact ⟨(sole alive number live).1, outside⟩
  · rw [guest]
    exact iff_of_false (mt died.mp alive) alive'
  · exact guest ▸ earlier

theorem injected_copies (next : InjectionMachine.State) (guest : next.guest = machine.guest)
    (copy copy' : Copy) (at_worker : machine.worker = .copying copy)
    (at_worker' : next.worker = .copying copy')
    (injected : Injected machine mark numbers oopsed) : Injected next mark numbers oopsed := by
  rcases injected with ⟨programs, sole, died, earlier⟩
  constructor
  · exact guest ▸ programs
  · intro _ number live
    rw [guest] at live
    exact absurd at_worker ((sole (by rw [at_worker]; simp) number live).2 copy)
  · rw [guest, died, at_worker, at_worker']
    simp
  · exact guest ▸ earlier

/-- The setup frees the previous program before it starts to copy. -/
theorem injected_frees (next : InjectionMachine.State)
    (guest : next.guest = machine.guest.freePrevious) (copy : Copy)
    (alive : machine.worker ≠ .dead) (at_worker : next.worker = .copying copy)
    (frees : ∀ number ∈ machine.guest.bpfInjectedProg, (machine.guest.progs number).isSome = true)
    (injected : Injected machine mark numbers oopsed) : Injected next mark numbers oopsed := by
  rcases injected with ⟨programs, sole, died, earlier⟩
  constructor
  · rw [guest, Guest.freePrevious]
    cases pointed : machine.guest.bpfInjectedProg with
    | none => exact programs
    | some pointer => exact programs_free _ mark numbers pointer (frees pointer pointed) programs
  · intro _ number live
    exfalso
    rw [guest, Guest.freePrevious] at live
    cases pointed : machine.guest.bpfInjectedProg with
    | none =>
        rw [pointed] at live
        cases pointed.symm.trans (sole alive number live).1
    | some pointer =>
        simp only [pointed, Guest.bpfProgFree] at live
        by_cases same : number = pointer
        · simp [same] at live
        · rw [Function.update_of_ne same] at live
          exact same (Option.some.inj (pointed.symm.trans (sole alive number live).1)).symm
  · rw [guest, free_previous_oopsed, died, at_worker]
    exact iff_of_false alive (by simp)
  · rw [guest, free_previous_oopsed, free_previous_next]
    exact earlier

theorem injected_runs (next : InjectionMachine.State)
    (guest : next.guest = machine.guest.bpfProgRun) (alive : machine.worker ≠ .dead)
    (at_worker : next.worker = .idle) (injected : Injected machine mark numbers oopsed) :
    Injected next mark numbers oopsed := by
  rcases injected with ⟨programs, sole, died, earlier⟩
  constructor
  · rw [guest]
    exact programs_run _ mark numbers programs
  · intro _ number live
    rw [guest] at live ⊢
    exact ⟨(sole alive number live).1, by simp [at_worker]⟩
  · rw [guest, at_worker]
    exact iff_of_false (mt died.mp alive) (by simp)
  · rw [guest]
    exact earlier

/-- Fixup, allocation and installation, with nothing live before them. -/
theorem injected_builds (text : KernelText) (answers : Answers) (copy : Copy)
    (at_worker : machine.worker = .copying copy)
    (injected : Injected machine mark numbers oopsed) :
    Injected (build text answers copy machine) mark numbers oopsed := by
  rcases injected with ⟨programs, sole, died, earlier⟩
  have alive : machine.worker ≠ .dead := by simp [at_worker]
  have none_live : ∀ number, ¬ (machine.guest.progs number).isSome = true :=
    fun number live => (sole alive number live).2 copy at_worker
  have unopened : ¬ oopsed = true := fun before => alive (died.mp (earlier before).1)
  have effect := setup_copied_effect text answers copy.programId copy.insns machine.guest
  have only_new := fun prog => alloc_only_live machine.guest prog none_live
  unfold build
  generalize setupCopied text answers copy.programId copy.insns machine.guest = result at effect
  cases effect with
  | unknownHelper =>
      simp only [einval]
      exact injected_moves machine mark numbers oopsed _ rfl alive (by simp) (by simp)
        ⟨programs, sole, died, earlier⟩
  | noProg =>
      constructor
      · exact programs_pointer _ mark numbers none programs
      · intro _ number live
        exact absurd live (none_live number)
      · exact iff_of_false (mt died.mp alive) (by simp)
      · exact fun before => absurd before unopened
  | noRuntime =>
      -- the program just allocated is the one freed, so none is live and the pointer is NULL
      have freed := fun prog => programs_free _ mark numbers _ (alloc_live machine.guest prog)
        (programs_alloc _ mark numbers prog programs)
      constructor
      · exact programs_pointer _ mark numbers none (freed _)
      · intro _ number live
        exfalso
        by_cases same : number = machine.guest.nextProg
        · subst same
          simp [Guest.bpfProgFree] at live
        · simp only [Option.isSome_none, Bool.false_eq_true, and_false, if_false,
            Guest.bpfProgFree, Function.update_of_ne same] at live
          exact same (only_new _ number live)
      · exact iff_of_false (mt died.mp alive) (by simp)
      · exact fun before => absurd before unopened
  | built =>
      constructor
      · exact programs_pointer _ mark numbers _ (programs_alloc _ mark numbers _ programs)
      · intro _ number live
        exact ⟨congrArg some (only_new _ number live).symm, by simp⟩
      · exact iff_of_false (mt died.mp alive) (by simp)
      · exact fun before => absurd before unopened
  | noName prog =>
      -- dead with a program that no pointer refers to: `sole` promises nothing from here on
      have allocated := programs_alloc _ mark numbers prog programs
      constructor
      · exact ⟨allocated.account, allocated.numbered, allocated.since, allocated.kept⟩
      · exact fun moving => absurd rfl moving
      · exact iff_of_true rfl rfl
      · exact fun before => absurd before unopened

theorem injected_works (text : KernelText) (answers : Answers) (next : InjectionMachine.State)
    (taken : work text answers machine = some next)
    (frees : FreesLive machine.guest answers machine.worker)
    (injected : Injected machine mark numbers oopsed) : Injected next mark numbers oopsed := by
  unfold work at taken
  cases at_worker : machine.worker with
  | idle =>
      simp only [at_worker] at taken
      split at taken
      · cases taken
        exact injected_moves machine mark numbers oopsed _ rfl (by simp [at_worker]) (by simp)
          (by simp) injected
      · cases taken
  | entered =>
      simp only [at_worker, Option.some.injEq] at taken
      subst taken
      exact injected_moves machine mark numbers oopsed _ rfl (by simp [at_worker]) (by simp)
        (by simp) injected
  | typed programType typedAt =>
      simp only [at_worker] at taken frees
      split at taken
      · rename_i copied
        -- the one step that frees before anything is allocated
        cases taken
        exact injected_frees machine mark numbers oopsed _ rfl _ (by simp [at_worker]) rfl
          (frees copied) injected
      · cases taken
        exact injected_moves machine mark numbers oopsed _ rfl (by simp [at_worker]) (by simp)
          (by simp) injected
  | copying copy =>
      simp only [at_worker] at taken
      split at taken
      · cases taken
        exact injected_copies machine mark numbers oopsed _ rfl copy _ at_worker rfl injected
      · cases taken
        exact injected_builds machine mark numbers oopsed text answers copy at_worker injected
  | running built =>
      simp only [at_worker, Option.some.injEq] at taken
      subst taken
      exact injected_runs machine mark numbers oopsed _ rfl (by simp [at_worker]) rfl injected
  | dead => simp [at_worker] at taken

theorem injected_steps (text : KernelText) (action : InjectionMachine.Action)
    (next : InjectionMachine.State)
    (taken : InjectionMachine.step text machine action = some next)
    (frees : ∀ answers, action = .work answers → FreesLive machine.guest answers machine.worker)
    (injected : Injected machine mark numbers oopsed) : Injected next mark numbers oopsed := by
  have moves := step_moves text machine next action taken
  cases action with
  | work answers =>
      exact injected_works machine mark numbers oopsed text answers next taken (frees answers rfl)
        injected
  | inject | raise | handle | report =>
      apply injected_same machine mark numbers oopsed next
      · cases moves <;> rfl
      · cases moves <;> rfl
      · exact injected

theorem injected_open (injected : Injected machine mark numbers oopsed) :
    Injected machine (allocations machine.guest.events).length machine.guest.nextProg
      machine.guest.oopsed :=
  ⟨programs_open _ mark numbers injected.programs, injected.sole, injected.died,
    fun died => ⟨died, rfl⟩⟩

/-- With nothing installed, all programs allocated behind the mark are freed. -/
theorem injected_balanced (injected : Injected machine mark numbers oopsed)
    (quiet : machine.guest.oopsed = oopsed)
    (gone : ∀ number ∈ machine.guest.bpfInjectedProg, numbers ≤ number →
      machine.guest.progs number = none) :
    Balanced (allocations machine.guest.events) mark := by
  rcases injected with ⟨programs, sole, died, earlier⟩
  apply account_balanced _ mark _ programs.account
  rintro pointer acquired ⟨number, rfl, live⟩
  have late := programs.since number acquired
  by_cases dead : machine.worker = .dead
  · -- the death is older than the mark, and so are all programs
    have before := earlier (quiet ▸ died.mpr dead)
    have below := live_numbered _ mark numbers programs number live
    omega
  · rw [gone number (sole dead number live).1 late] at live
    cases live

end Injected

/-! The resources of probe and remove. -/
section Requested

/-- What is held in each phase of a probe whose requests are all served, and of
the remove after it. -/
def holdings (driver : DriverLifetime.State) : List Resource :=
  let mappings := driver.bufmmio.toList.map Resource.mapping
  let buffers := driver.migrationBuffer.toList.map Resource.memory
  let contexts := driver.ctx.toList.map Resource.memory
  match driver.phase with
  | .unbound | .bound false | .removing false _ => []
  | .probing .enableDevice => [.chrdev]
  | .probing .requestRegion => [.device, .chrdev]
  | .probing .iomap => [.region, .device, .chrdev]
  | .probing .requestIrq => mappings ++ [.region, .device, .chrdev]
  | .probing .initWork | .probing .resetType | .probing .allocMigrationBuffer =>
      .irq :: (mappings ++ [.region, .device, .chrdev])
  | .probing .allocCtx => buffers ++ .irq :: (mappings ++ [.region, .device, .chrdev])
  | .bound true => contexts ++ (buffers ++ .irq :: (mappings ++ [.region, .device, .chrdev]))
  | .removing true .iounmap => contexts ++ (buffers ++ (mappings ++ [.region, .device, .chrdev]))
  | .removing true .disableDevice => contexts ++ (buffers ++ [.region, .device, .chrdev])
  | .removing true .releaseRegion => contexts ++ (buffers ++ [.region, .chrdev])
  | .removing true .unregisterChrdev => contexts ++ (buffers ++ [.chrdev])
  | .removing true .freeCtx => contexts ++ buffers
  | .removing true .freeMigrationBuffer => buffers

def Growing : Phase → Prop
  | .probing _ | .bound _ => True
  | .unbound | .removing _ _ => False

def Served : Phase → Prop
  | .bound completed | .removing completed _ => completed = true
  | .unbound | .probing _ => True

structure Numbered (bufmmio migrationBuffer ctx : Option Nat) (nextNumber : Nat) : Prop where
  mapping : ∀ number ∈ bufmmio, number < nextNumber
  buffer : ∀ number ∈ migrationBuffer, number < nextNumber
  context : ∀ number ∈ ctx, number < nextNumber
  apart : ∀ number ∈ ctx, migrationBuffer ≠ some number

section Numbers
variable (bufmmio migrationBuffer ctx : Option Nat) (number : Nat)
  (numbered : Numbered bufmmio migrationBuffer ctx number)
include numbered

theorem numbered_grow : Numbered bufmmio migrationBuffer ctx (number + 1) := by
  rcases numbered with ⟨mapping, buffer, context, apart⟩
  constructor
  · exact fun pointer member => Nat.lt_succ_of_lt (mapping pointer member)
  · exact fun pointer member => Nat.lt_succ_of_lt (buffer pointer member)
  · exact fun pointer member => Nat.lt_succ_of_lt (context pointer member)
  · exact apart

theorem fresh_buffer : migrationBuffer ≠ some number :=
  fun same => Nat.lt_irrefl number (numbered.buffer number same)

theorem numbered_mapping : Numbered (some number) migrationBuffer ctx (number + 1) := by
  rcases numbered_grow bufmmio migrationBuffer ctx number numbered with ⟨_, buffer, context, apart⟩
  exact ⟨by simp, buffer, context, apart⟩

theorem numbered_buffer : Numbered bufmmio (some number) ctx (number + 1) := by
  rcases numbered_grow bufmmio migrationBuffer ctx number numbered with ⟨mapping, _, context, _⟩
  refine ⟨mapping, by simp, context, ?_⟩
  rintro pointer member ⟨⟩
  exact Nat.lt_irrefl _ (numbered.context _ member)

theorem numbered_context : Numbered bufmmio migrationBuffer (some number) (number + 1) := by
  have unused := fresh_buffer bufmmio migrationBuffer ctx number numbered
  rcases numbered_grow bufmmio migrationBuffer ctx number numbered with ⟨mapping, buffer, _, _⟩
  exact ⟨mapping, buffer, by simp, by simpa using unused⟩

end Numbers

structure Requested (driver : DriverLifetime.State) (mark : Nat) : Prop where
  holding : Holding driver.events mark (holdings driver) (Growing driver.phase)
  numbered : Numbered driver.bufmmio driver.migrationBuffer driver.ctx driver.nextNumber
  served : Served driver.phase

variable (driver : DriverLifetime.State) (mark : Nat)

/-- Every served step of the probe adds what it acquires. -/
theorem probe_step_requested (next : ProbeStep) (phase : driver.phase = .probing next)
    (requested : Requested driver mark) : Requested (probeStep true driver next) mark := by
  rcases requested with ⟨holding, numbered, served⟩
  simp only [holdings, phase, Growing] at holding
  cases next with
  | enableDevice =>
      constructor
      · exact holding_acquire _ mark _ .device holding (by simp)
      · exact numbered
      · trivial
  | requestRegion =>
      constructor
      · exact holding_acquire _ mark _ .region holding (by simp)
      · exact numbered
      · trivial
  | iomap =>
      constructor
      · exact holding_acquire _ mark _ (.mapping driver.nextNumber) holding (by simp)
      · exact numbered_mapping _ _ _ _ numbered
      · trivial
  | requestIrq =>
      constructor
      · exact holding_acquire _ mark _ .irq holding (by simp)
      · exact numbered
      · trivial
  | initWork | resetType => exact ⟨holding, numbered, trivial⟩
  | allocMigrationBuffer =>
      constructor
      · exact holding_acquire _ mark _ (.memory driver.nextNumber) holding (by simp)
      · exact numbered_buffer _ _ _ _ numbered
      · trivial
  | allocCtx =>
      have unused := fresh_buffer _ _ _ _ numbered
      constructor
      · exact holding_acquire _ mark _ (.memory driver.nextNumber) holding (by simpa using unused)
      · exact numbered_context _ _ _ _ numbered
      · rfl

theorem remove_step_requested (next : RemoveStep) (phase : driver.phase = .removing true next)
    (requested : Requested driver mark) : Requested (removeStep true driver next) mark := by
  rcases driver with ⟨_, bufmmio, migrationBuffer, ctx, nextNumber, irqRequested, workInit,
    events, machine⟩
  rcases requested with ⟨holding, numbered, served⟩
  dsimp only at phase
  subst phase
  let contexts := ctx.toList.map Resource.memory
  let buffers := migrationBuffer.toList.map Resource.memory
  cases next with
  | iounmap =>
      cases bufmmio with
      | none => exact ⟨holding, numbered, rfl⟩
      | some number =>
          constructor
          · apply holding_release _ mark _ _ (contexts ++ buffers) [.region, .device, .chrdev] _
              (.mapping number) holding
            · simp [holdings, contexts, buffers]
            · simp [removeStep, holdings, State.release, contexts, buffers]
            · simp [contexts, buffers]
          · exact numbered
          · rfl
  | disableDevice =>
      constructor
      · apply holding_release _ mark _ _ (contexts ++ buffers ++ [.region]) [.chrdev] _ .device holding
        · simp [holdings, contexts, buffers]
        · simp [removeStep, holdings, State.release, contexts, buffers]
        · simp [contexts, buffers]
      · exact numbered
      · rfl
  | releaseRegion =>
      constructor
      · apply holding_release _ mark _ _ (contexts ++ buffers) [.chrdev] _ .region holding
        · simp [holdings, contexts, buffers]
        · simp [removeStep, holdings, State.release, contexts, buffers]
        · simp [contexts, buffers]
      · exact numbered
      · rfl
  | unregisterChrdev =>
      constructor
      · apply holding_release _ mark _ _ (contexts ++ buffers) [] _ .chrdev holding
        · simp [holdings, contexts, buffers]
        · simp [removeStep, holdings, State.release, contexts, buffers]
        · simp [contexts, buffers]
      · exact numbered
      · rfl
  | freeCtx =>
      cases ctx with
      | none => exact ⟨holding, numbered, rfl⟩
      | some number =>
          have apart := numbered.apart number rfl
          constructor
          · apply holding_release _ mark _ _ [] buffers _ (.memory number) holding
            · rfl
            · rfl
            · simpa [buffers] using apart
          · exact numbered
          · rfl
  | freeMigrationBuffer =>
      cases migrationBuffer with
      | none => exact ⟨holding, numbered, trivial⟩
      | some number =>
          constructor
          · apply holding_release _ mark _ _ [] [] _ (.memory number) holding
            · rfl
            · rfl
            · simp
          · exact numbered
          · trivial

theorem free_irq_requested (phase : driver.phase = .bound true)
    (requested : Requested driver mark) :
    Requested
      { driver.release .irq with irqRequested := false, phase := .removing true .iounmap }
      mark := by
  rcases requested with ⟨holding, numbered, served⟩
  constructor
  · apply holding_release _ mark _ _
      (driver.ctx.toList.map .memory ++ driver.migrationBuffer.toList.map .memory)
      (driver.bufmmio.toList.map .mapping ++ [.region, .device, .chrdev]) _ .irq holding
    · simp [holdings, phase]
    · simp [holdings, State.release]
    · simp
  · exact numbered
  · rfl

theorem register_requested (phase : driver.phase = .unbound)
    (requested : Requested driver mark) :
    Requested
      { driver.acquire .chrdev with workInit := false, phase := .probing .enableDevice }
      driver.events.length := by
  rcases requested with ⟨holding, numbered, served⟩
  have books := holding.account.books
  simp only [holdings, phase] at books
  constructor
  · exact holding_acquire _ _ _ .chrdev (holding_open driver.events True books) (by simp)
  · exact numbered
  · trivial

end Requested

/-! Without an interrupt and with the work at rest nothing moves. -/
section Rest

def Silent (driver : DriverLifetime.State) : Prop :=
  driver.irqRequested = false ∧ driver.machine.handler = .idle

def Unrequested : Phase → Prop
  | .unbound | .removing _ _ => True
  | .probing _ | .bound _ => False

variable (text : KernelText) (driver next : DriverLifetime.State)
  (action : InjectionMachine.Action)

theorem silent_moves (taken : DriverLifetime.step text driver (.machine action) = some next)
    (silent : Silent driver) : Silent next ∧ next.phase = driver.phase := by
  simp only [DriverLifetime.step] at taken
  split at taken
  · rename_i enterable
    obtain ⟨machine, stepped, rfl⟩ := Option.map_eq_some_iff.mp taken
    have idle := silent.2
    refine ⟨⟨silent.1, ?_⟩, rfl⟩
    cases step_moves text driver.machine machine action stepped with
    | enter at_handler => cases silent.1.symm.trans (enterable at_handler)
    | setType _ _ _ at_handler | ignore _ _ at_handler | schedule _ _ at_handler
    | startReport _ _ _ at_handler | writeReport _ _ _ _ _ at_handler | endReport _ _ at_handler
    | acknowledge _ _ at_handler => cases idle.symm.trans at_handler
    | inject | raise | start | readType | refused | readHeader | readWord | died | failed | built
    | run => exact idle
  · cases taken

theorem rest_moves (taken : DriverLifetime.step text driver (.machine action) = some next)
    (silent : Silent driver) (rest : AtRest driver.machine) :
    AtRest next.machine ∧ next.machine.guest = driver.machine.guest := by
  simp only [DriverLifetime.step] at taken
  split at taken
  · rename_i enterable
    obtain ⟨machine, stepped, rfl⟩ := Option.map_eq_some_iff.mp taken
    have still : ∀ worker : Worker, driver.machine.worker = worker → worker = .idle ∨ worker = .dead :=
      fun worker same => same ▸ rest.2
    cases step_moves text driver.machine machine action stepped with
    | inject | raise => exact ⟨rest, rfl⟩
    | enter at_handler => cases silent.1.symm.trans (enterable at_handler)
    | setType _ _ _ at_handler | ignore _ _ at_handler | schedule _ _ at_handler
    | startReport _ _ _ at_handler | writeReport _ _ _ _ _ at_handler | endReport _ _ at_handler
    | acknowledge _ _ at_handler => cases silent.2.symm.trans at_handler
    | start _ _ queued => cases rest.1.symm.trans queued
    | readType _ at_worker | refused _ _ _ at_worker | readHeader _ _ _ at_worker
    | readWord _ _ at_worker | died _ _ _ at_worker | failed _ _ _ at_worker
    | built _ _ _ _ at_worker | run _ _ at_worker => simpa using still _ at_worker
  · cases taken

end Rest

theorem nothing_installed_same (before after : Tracked) (guest : after.guest = before.guest)
    (numbers : after.numbersFrom = before.numbersFrom)
    (oopsed : after.oopsedFrom = before.oopsedFrom) (nothing : NothingInstalled before) :
    NothingInstalled after := by
  rw [NothingInstalled, guest, numbers, oopsed]
  exact nothing

structure Emptied (tracked : Tracked) : Prop where
  phase : tracked.driver.phase = .unbound
  rest : AtRest tracked.driver.machine
  nothing : NothingInstalled tracked

structure Tended (tracked : Tracked) : Prop where
  requested : Requested tracked.driver tracked.eventsFrom
  injected : Injected tracked.driver.machine tracked.programsFrom tracked.numbersFrom
    tracked.oopsedFrom
  unfailed : tracked.failed = false
  silent : Unrequested tracked.driver.phase → Silent tracked.driver
  emptied : tracked.removed = true → Emptied tracked

theorem load_tended (words : Nat → LittleEndian.Word) : Tended (load words) := by
  have books : Books ([] : List (Event Resource)) (· ∈ ([] : List Resource)) :=
    ⟨trivial, by simp [heldAfter, nothing]⟩
  have none_live : Books ([] : List (Event (Option Nat))) (Live .boot) :=
    ⟨trivial, by simp [heldAfter, nothing, Live, Guest.boot]⟩
  constructor
  · constructor
    · exact holding_open [] _ books
    · constructor <;> simp [load, DriverLifetime.load]
    · trivial
  · constructor
    · constructor
      · exact account_open [] _ none_live
      · simp [load, DriverLifetime.load, boot, Guest.boot, allocations]
      · simp [load, DriverLifetime.load, boot, Guest.boot, allocations]
      · exact Nat.le_refl _
    · simp [load, DriverLifetime.load, boot, Guest.boot]
    · simp [load, DriverLifetime.load, boot, Guest.boot]
    · simp [load]
  · rfl
  · exact fun _ => ⟨rfl, rfl⟩
  · intro removed
    exact absurd removed Bool.false_ne_true

theorem probe_step_busy (answer : Bool) (driver : DriverLifetime.State) (next : ProbeStep) :
    ¬ Unrequested (probeStep answer driver next).phase := by
  cases next <;> cases answer <;> exact id

theorem probe_tended (text : KernelText) (tracked next : Tracked) (answer : Bool)
    (tended : Tended tracked) (tidy : Tidy tracked (.probe answer))
    (taken : step text tracked (.probe answer) = some next) : Tended next := by
  obtain ⟨driver, probed, rfl⟩ := Option.map_eq_some_iff.mp taken
  rcases tended with ⟨requested, injected, unfailed, _, emptied⟩
  simp only [DriverLifetime.step, probe] at probed
  cases phase : tracked.driver.phase with
  | unbound =>
      have served : answer = true := tidy (by rw [phase]; rfl)
      subst served
      simp only [phase, if_true, Option.some.injEq] at probed
      subst probed
      simp only [observe, phase, if_true]
      exact ⟨register_requested tracked.driver _ phase requested,
        injected_open _ _ _ _ injected, rfl, False.elim,
        fun removed => absurd removed Bool.false_ne_true⟩
  | probing next =>
      simp only [phase, Option.some.injEq] at probed
      -- two steps make no request, and their answer is not looked at
      have served : probeStep answer tracked.driver next = probeStep true tracked.driver next := by
        cases next with
        | initWork | resetType => rfl
        | enableDevice | requestRegion | iomap | requestIrq | allocMigrationBuffer | allocCtx =>
            rw [tidy (by rw [phase]; rfl)]
      subst probed
      simp only [observe, phase, reduceCtorEq, if_false]
      constructor
      · exact served ▸ probe_step_requested tracked.driver _ next phase requested
      · apply injected_same tracked.driver.machine _ _ _ _ _ _ injected
        · cases next <;> cases answer <;> rfl
        · cases next <;> cases answer <;> rfl
      · simp only [unfailed, Bool.false_or, Bool.and_eq_false_iff]
        by_cases asks : requests (.probing next) = true
        · rw [tidy (by rw [phase]; exact asks)]
          exact .inr rfl
        · exact .inl (by simpa using asks)
      · exact fun unrequested => absurd unrequested (probe_step_busy answer tracked.driver next)
      · intro removed
        cases phase.symm.trans (emptied removed).phase
  | bound completed => simp [phase] at probed
  | removing completed next => simp [phase] at probed

theorem remove_step_silent (completed : Bool) (driver : DriverLifetime.State) (next : RemoveStep)
    (silent : Silent driver) : Silent (removeStep completed driver next) := by
  refine ⟨?_, remove_step_machine completed driver next ▸ silent.2⟩
  rw [← silent.1]
  cases next with
  | iounmap => cases at_pointer : driver.bufmmio <;> simp [removeStep, at_pointer, State.release]
  | freeCtx =>
      cases at_pointer : driver.ctx <;> simp [removeStep, at_pointer, State.kfree, State.release]
  | freeMigrationBuffer =>
      cases at_pointer : driver.migrationBuffer <;>
        simp [removeStep, at_pointer, State.kfree, State.release]
  | disableDevice | releaseRegion | unregisterChrdev => rfl

theorem remove_tended (text : KernelText) (tracked next : Tracked) (tended : Tended tracked)
    (tidy : Tidy tracked .remove) (taken : step text tracked .remove = some next) :
    Tended next := by
  obtain ⟨driver, removed, rfl⟩ := Option.map_eq_some_iff.mp taken
  rcases tended with ⟨requested, injected, unfailed, silent, _⟩
  have served := requested.served
  simp only [DriverLifetime.step, remove] at removed
  cases phase : tracked.driver.phase with
  | bound completed =>
      rw [phase] at served
      cases served
      simp only [phase] at removed
      split at removed
      · rename_i idle
        cases removed
        refine ⟨free_irq_requested tracked.driver _ phase requested, injected, unfailed,
          fun _ => ⟨rfl, idle⟩, ?_⟩
        simp [observe, phase]
      · cases removed
  | removing completed next =>
      rw [phase] at served
      cases served
      simp only [phase, Option.some.injEq] at removed
      subst removed
      constructor
      · exact remove_step_requested tracked.driver _ next phase requested
      · rw [remove_step_machine]
        exact injected
      · exact unfailed
      · exact fun _ => remove_step_silent true tracked.driver next (silent (phase ▸ trivial))
      · intro last
        have ending := of_decide_eq_true last
        cases phase.symm.trans ending
        obtain ⟨rest, nothing⟩ := tidy phase
        refine ⟨rfl, ?_, ?_⟩
        · rw [remove_step_machine]
          exact rest
        · exact nothing_installed_same tracked _
            (congrArg InjectionMachine.State.guest (remove_step_machine ..)) rfl rfl nothing
  | unbound => simp [phase] at removed
  | probing next => simp [phase] at removed

theorem machine_tended (text : KernelText) (tracked next : Tracked)
    (action : InjectionMachine.Action) (tended : Tended tracked)
    (tidy : Tidy tracked (.machine action))
    (taken : step text tracked (.machine action) = some next) : Tended next := by
  obtain ⟨driver, moved, rfl⟩ := Option.map_eq_some_iff.mp taken
  rcases tended with ⟨⟨holding, numbered, served⟩, injected, unfailed, silent, emptied⟩
  have quiet := silent_moves text tracked.driver driver action moved
  have still := rest_moves text tracked.driver driver action moved
  simp only [DriverLifetime.step] at moved
  split at moved
  · obtain ⟨machine, stepped, rfl⟩ := Option.map_eq_some_iff.mp moved
    constructor
    · exact ⟨holding, numbered, served⟩
    · apply injected_steps tracked.driver.machine _ _ _ text action machine stepped _ injected
      rintro answers rfl
      exact tidy
    · exact unfailed
    · exact fun unrequested => (quiet (silent unrequested)).1
    · intro removed
      obtain ⟨phase, rest, nothing⟩ := emptied removed
      obtain ⟨rest', guest⟩ := still (silent (phase ▸ trivial)) rest
      exact ⟨phase, rest', nothing_installed_same tracked _ guest rfl rfl nothing⟩
  · cases moved

theorem step_tended (text : KernelText) (tracked next : Tracked) (action : DriverLifetime.Action)
    (tended : Tended tracked) (tidy : Tidy tracked action)
    (taken : step text tracked action = some next) : Tended next := by
  cases action with
  | probe answer => exact probe_tended text tracked next answer tended tidy taken
  | remove => exact remove_tended text tracked next tended tidy taken
  | machine action => exact machine_tended text tracked next action tended tidy taken

theorem tended_balanced (tracked : Tracked) (tended : Tended tracked) : RemoveClean tracked := by
  intro removed
  obtain ⟨phase, _, nothing⟩ := tended.emptied removed
  constructor
  · apply account_balanced _ _ _ tended.requested.holding.account
    intro resource _
    simp [holdings, phase]
  · exact injected_balanced _ _ _ _ tended.injected nothing.1 nothing.2

theorem tended_clean (text : KernelText) (tracked : Tracked) (action : DriverLifetime.Action)
    (tended : Tended tracked) (tidy : Tidy tracked action) : StepClean text tracked action := by
  intro next taken
  have after := step_tended text tracked next action tended tidy taken
  refine ⟨?_, tended_balanced next after⟩
  cases action with
  | probe answer =>
      intro completed _ failed
      rw [after.unfailed] at failed
      cases failed
  | remove | machine => trivial

/-- Over any number of probes, injections and removes: in a tidy run no probe
returns with a failure, and from the end of each remove to the next probe all
that its probe and the injections since have acquired is released. -/
theorem tidy_run_clean (text : KernelText) (words : Nat → LittleEndian.Word)
    (history : List DriverLifetime.Action)
    (tidy : Along (step text) Tidy (load words) history) :
    Along (step text) (StepClean text) (load words) history :=
  along_of_invariant _ Tended Tidy (StepClean text)
    (fun tracked action next tended meets taken =>
      step_tended text tracked next action tended meets taken)
    (tended_clean text) (load_tended words) tidy

/-- No probe with a refused request returns as it should: the result is 0 or 1. -/
theorem refused_request_unclean (next : Tracked) (answer completed : Bool)
    (returned : next.driver.phase = .bound completed) (refused : next.failed = true) :
    ¬ ProbeClean next (.probe answer) := by
  intro clean
  have negative := (clean completed returned refused).1
  cases completed <;> simp [probeResult] at negative

def injection (answers : Answers) : List DriverLifetime.Action :=
  ([.inject exitMessage] ++ List.replicate 4 .handle ++ List.replicate 7 (.work answers) :
    List InjectionMachine.Action).map .machine

/-- Two injections, of which the second is refused its program; a message after
the remove, and a second probe. -/
def refusedHistory : List DriverLifetime.Action :=
  List.replicate 9 (.probe true) ++ injection served ++ injection ⟨true, false, true⟩ ++
    List.replicate 7 .remove ++ [.machine (.inject exitMessage)] ++
    List.replicate 9 (.probe true) ++ List.replicate 7 .remove

set_option maxRecDepth 8000 in
theorem refused_history_clean :
    (run (step ⟨0, 0, 0, 0⟩) (load fun _ => 0#32) refusedHistory).isSome = true ∧
      Along (step ⟨0, 0, 0, 0⟩) (StepClean ⟨0, 0, 0, 0⟩) (load fun _ => 0#32) refusedHistory :=
  ⟨by decide, tidy_run_clean ⟨0, 0, 0, 0⟩ (fun _ => 0#32) refusedHistory (by decide)⟩

def failedHistory : List DriverLifetime.Action :=
  [.probe true, .probe true] ++ [.probe false]

def installedHistory : List DriverLifetime.Action :=
  (List.replicate 9 (.probe true) ++ injection served ++ List.replicate 6 .remove) ++ [.remove]

/-- The work is still queued when the device is removed. -/
def lateHistory : List DriverLifetime.Action :=
  (List.replicate 9 (.probe true) ++ (injection served).take 5 ++ List.replicate 7 .remove ++
    ((injection served).drop 5).take 5) ++ [.machine (.work served)]

set_option maxRecDepth 8000 in
theorem probe_and_remove_unbalanced :
    ¬ Along (step ⟨0, 0, 0, 0⟩) (StepClean ⟨0, 0, 0, 0⟩) (load fun _ => 0#32) failedHistory ∧
      ¬ Along (step ⟨0, 0, 0, 0⟩) (StepClean ⟨0, 0, 0, 0⟩) (load fun _ => 0#32)
        installedHistory ∧
      ¬ Along (step ⟨0, 0, 0, 0⟩) (StepClean ⟨0, 0, 0, 0⟩) (load fun _ => 0#32) lateHistory := by
  refine ⟨?_, ?_, ?_⟩
  · intro clean
    have returned := (along_at _ _ clean rfl _ rfl).1 false rfl rfl
    exact absurd returned.1 (by decide)
  · intro clean
    have removed := (along_at _ _ clean rfl _ rfl).2 rfl
    exact absurd (removed.2.once (some 0) (by decide)) (by decide)
  · intro clean
    have removed := (along_at _ _ clean rfl _ rfl).2 rfl
    exact absurd (removed.2.once (some 0) (by decide)) (by decide)

end EbpfInjection.ResourceBalance
