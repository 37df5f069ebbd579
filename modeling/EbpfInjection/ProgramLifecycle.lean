import EbpfInjection.ProgramSetup
import EbpfInjection.TransitionSystem

/-!
The injected program over histories of activations. A history is any sequence
of activations of `execute_work`, each with its own device buffer, its own
`program_type` and its own answers from the allocators. The worker that dies
on a NULL dereference never starts the work item again.
-/

namespace EbpfInjection.ProgramLifecycle
open LittleEndian InjectionMessage HelperFixup ResourceLedger ProgramSetup TransitionSystem

structure Activation where
  mmio : Nat → Word
  programType : Byte
  answers : Answers

def Activation.exit (activation : Activation) : SetupExit :=
  setupExit activation.answers (bufferInsns activation.mmio)
    (prognameFromIdx (getProgTypeFromIrq activation.programType))

def activate (text : KernelText) (guest : Guest) (activation : Activation) : Option Guest :=
  if guest.oopsed then none
  else some (executeWork text activation.answers activation.mmio activation.programType guest)

/-- The allocated programs are exactly the one `bpf_injected_prog` points to,
and every free and every run so far was applied to an allocated program. -/
structure Balanced (guest : Guest) : Prop where
  safe : Safe nothing guest.events
  owned : ∀ pointer, heldAfter nothing guest.events (some pointer) = true ↔
    guest.bpfInjectedProg = some pointer

def SetupServed (activation : Activation) : Prop :=
  activation.answers.insns = true ∧ HelpersKnown (bufferInsns activation.mmio) ∧
    activation.answers.prog = true ∧
    (prognameFromIdx (getProgTypeFromIrq activation.programType)).isSome ∧
    activation.answers.runtime = true

/-- The activations that do no harm: a served setup, or one refused before it
touched anything while a program is installed. -/
def Harmless (guest : Guest) (activation : Activation) : Prop :=
  SetupServed activation ∨
    (activation.answers.insns = false ∧ guest.bpfInjectedProg ≠ none)

def ownedBy (slot : Option Nat) : Option Nat → Bool
  | none => false
  | some pointer => decide (slot = some pointer)

theorem exit_built_iff (activation : Activation) :
    activation.exit = .built ↔ SetupServed activation := by
  unfold Activation.exit setupExit SetupServed
  cases prognameFromIdx (getProgTypeFromIrq activation.programType) <;> grind

theorem exit_no_insns_iff (activation : Activation) :
    activation.exit = .noInsns ↔ activation.answers.insns = false := by
  unfold Activation.exit setupExit
  grind

theorem harmless_iff (guest : Guest) (activation : Activation) :
    Harmless guest activation ↔ activation.exit = .built ∨
      (activation.exit = .noInsns ∧ guest.bpfInjectedProg ≠ none) := by
  rw [exit_built_iff, exit_no_insns_iff, Harmless]

/-- From a slot that owns the only allocation, exactly the built exit and the
refusal with an occupied slot end the same way. -/
theorem exit_owned_iff (slot : Option Nat) (fresh : Nat) (unused : slot ≠ some fresh)
    (exit : SetupExit) :
    (Safe (ownedBy slot) (exitEvents slot fresh exit) ∧
      ∀ pointer, heldAfter (ownedBy slot) (exitEvents slot fresh exit) (some pointer) = true ↔
        exitPointer slot fresh exit = some pointer) ↔
      exit = .built ∨ (exit = .noInsns ∧ slot ≠ none) := by
  cases exit with
  | noInsns =>
      cases slot <;> simp [exitEvents, exitPointer, Safe, Allowed, heldAfter, apply, ownedBy]
  | unknownHelper =>
      cases slot <;>
        simp [exitEvents, releasePrevious, Safe, Allowed, apply, ownedBy]
  | noProg =>
      cases slot <;> simp [exitEvents, releasePrevious, Safe, Allowed, apply, ownedBy]
  | noName =>
      -- the fresh program is allocated and nothing points to it
      cases slot with
      | none =>
          simp only [exitEvents, releasePrevious, exitPointer, heldAfter, apply, List.nil_append]
          simp only [reduceCtorEq, false_and, or_self, iff_false, not_and]
          intro _ owned
          simpa using owned fresh
      | some pointer =>
          simp only [exitEvents, releasePrevious, exitPointer, heldAfter, apply,
            List.singleton_append]
          simp only [reduceCtorEq, false_and, or_self, iff_false, not_and]
          intro _ owned
          have lost := (owned fresh).mp (by simp)
          exact unused lost
  | noRuntime =>
      cases slot <;> simp [exitEvents, releasePrevious, Safe, Allowed, apply, ownedBy]
  | built =>
      cases slot with
      | none =>
          simp only [exitEvents, releasePrevious, exitPointer, Safe, Allowed, heldAfter, apply,
            ownedBy, List.nil_append, Function.update_self, Option.some.injEq]
          simp [Function.update_apply, ownedBy, eq_comm]
      | some pointer =>
          have other : fresh ≠ pointer := fun same => unused (congrArg some same.symm)
          simp only [exitEvents, releasePrevious, exitPointer, Safe, Allowed, heldAfter, apply,
            List.singleton_append, Function.update_self]
          simp only [Function.update_apply, ownedBy, Option.some.injEq, reduceCtorEq]
          grind

structure Sound (guest : Guest) : Prop where
  balanced : Balanced guest
  nullFree : heldAfter nothing guest.events none = false
  fresh : ∀ pointer, guest.bpfInjectedProg = some pointer → pointer < guest.nextProg
  alive : guest.oopsed = false

theorem boot_sound : Sound Guest.boot where
  balanced := ⟨trivial, fun _ => by simp [Guest.boot, heldAfter, nothing]⟩
  nullFree := rfl
  fresh := nofun
  alive := rfl

theorem held_owned (guest : Guest) (sound : Sound guest) :
    heldAfter nothing guest.events = ownedBy guest.bpfInjectedProg := by
  funext resource
  cases resource with
  | none => exact sound.nullFree
  | some pointer =>
      have exact := sound.balanced.owned pointer
      by_cases owns : guest.bpfInjectedProg = some pointer
      · rw [exact.mpr owns]
        simp [ownedBy, owns]
      · have absent := mt exact.mp owns
        simp only [Bool.not_eq_true] at absent
        simp [ownedBy, owns, absent]

theorem null_never_held (slot : Option Nat) (fresh : Nat) (exit : SetupExit) :
    heldAfter (ownedBy slot) (exitEvents slot fresh exit) none = false := by
  cases exit <;> cases slot <;>
    simp [exitEvents, releasePrevious, heldAfter, apply, ownedBy]

theorem activate_exit (text : KernelText) (guest next : Guest) (activation : Activation)
    (taken : activate text guest activation = some next) :
    ExitEffect guest activation.exit next := by
  unfold activate at taken
  split at taken
  · cases taken
  · cases taken
    exact execute_work_exit text activation.answers activation.mmio activation.programType guest

/-- One activation keeps the balance exactly when it is harmless. -/
theorem activate_balanced_iff (text : KernelText) (guest next : Guest) (activation : Activation)
    (sound : Sound guest) (taken : activate text guest activation = some next) :
    Balanced next ↔ Harmless guest activation := by
  obtain ⟨events, pointer, -, -⟩ := activate_exit text guest next activation taken
  have unused : guest.bpfInjectedProg ≠ some guest.nextProg :=
    fun same => Nat.lt_irrefl _ (sound.fresh guest.nextProg same)
  rw [harmless_iff, ← exit_owned_iff guest.bpfInjectedProg guest.nextProg unused,
    ← held_owned guest sound, ← held_after_append, ← events, ← pointer]
  constructor
  · intro balanced
    have parts := balanced.safe
    rw [events, safe_append] at parts
    exact ⟨parts.2, balanced.owned⟩
  · rintro ⟨safe, owned⟩
    refine ⟨?_, owned⟩
    rw [events, safe_append]
    exact ⟨sound.balanced.safe, safe⟩

theorem activate_sound (text : KernelText) (guest next : Guest) (activation : Activation)
    (sound : Sound guest) (taken : activate text guest activation = some next)
    (balanced : Balanced next) : Sound next := by
  have harmless := (harmless_iff guest activation).mp
    ((activate_balanced_iff text guest next activation sound taken).mp balanced)
  obtain ⟨events, pointer, count, oopsed⟩ := activate_exit text guest next activation taken
  refine ⟨balanced, ?_, ?_, ?_⟩
  · rw [events, held_after_append, held_owned guest sound, null_never_held]
  · intro installed same
    rw [pointer] at same
    rw [count]
    rcases harmless with built | ⟨refused, -⟩
    · rw [built] at same ⊢
      cases same
      simp
    · rw [refused] at same
      have bound := sound.fresh installed same
      omega
  · have alive : ¬ next.oopsed = true := by
      rw [oopsed, sound.alive]
      rintro (dead | unnamed)
      · cases dead
      · rcases harmless with built | ⟨refused, -⟩
        · rw [built] at unnamed
          cases unnamed
        · rw [refused] at unnamed
          cases unnamed
    simpa using alive

/-- Over any history of activations the allocated programs are exactly the
installed one, and every free and every run hits an allocated program, if and
only if every activation is harmless. -/
theorem lifecycle_balanced_iff (text : KernelText) (history : List Activation) :
    Throughout (activate text) Balanced Guest.boot history ↔
      Along (activate text) Harmless Guest.boot history := by
  refine throughout_iff_along (activate text) Sound Balanced Harmless ?_
    (fun guest activation next sound taken balanced =>
      activate_sound text guest next activation sound taken balanced)
    (fun guest sound => sound.balanced) history boot_sound
  intro guest activation sound
  constructor
  · intro harmless next taken
    exact (activate_balanced_iff text guest next activation sound taken).mpr harmless
  · intro kept
    have enabled : activate text guest activation = some (executeWork text activation.answers
        activation.mmio activation.programType guest) := by
      simp [activate, sound.alive]
    exact (activate_balanced_iff text guest _ activation sound enabled).mp (kept _ enabled)

def oneInsnBuffer (low imm : Word) : Nat → Word := fun offset =>
  if offset = newdevBuf then 0x00080101#32
  else if offset = newdevBuf + headerOffset then low
  else if offset = newdevBuf + headerOffset + 4 then imm
  else 0#32

def staleRun : List Activation :=
  [⟨oneInsnBuffer 0x95#32 0#32, 1#8, ⟨true, true, true⟩⟩,
   ⟨oneInsnBuffer 0x85#32 0#32, 1#8, ⟨true, true, true⟩⟩]

theorem stale_run_unbalanced :
    ¬ Throughout (activate ⟨0, 0, 0, 0⟩) Balanced Guest.boot staleRun := by
  intro always
  have replay : run (activate ⟨0, 0, 0, 0⟩) Guest.boot staleRun = some _ := rfl
  have unsafeEvents : ¬ Safe nothing
      [.acquire (some 0), .use (some 0), .release (some 0), .use (some 0)] := by decide
  exact unsafeEvents (throughout_final _ Balanced always replay).safe

end EbpfInjection.ProgramLifecycle
