import EbpfInjection.ProgramSetup

/-!
What `bpf_programs_setup` reports and what it leaves in `bpf_injected_prog`.
The previous program is freed before the new instructions are looked at, and
the variable `ret` is not set again after the fixup until the program exists.
-/

namespace EbpfInjection.SetupOutcome
open LittleEndian InjectionMessage HelperFixup ResourceLedger ProgramSetup

def NewlyBuilt (text : KernelText) (name : String) (insns : List BpfInsn) (guest after : Guest) :
    Prop :=
  ∃ pointer, after.bpfInjectedProg = some pointer ∧ guest.nextProg ≤ pointer ∧
    pointer < after.nextProg ∧
    after.progs pointer = some (buildProg name (insns.map (resolveCall text)))

def Kept (guest after : Guest) : Prop :=
  after.bpfInjectedProg = guest.bpfInjectedProg ∧
    ∀ pointer ∈ guest.bpfInjectedProg,
      (guest.progs pointer).isSome = true ∧ after.progs pointer = guest.progs pointer

/-- The call frees nothing twice, says whether it installed a program, and keeps
the one it found where it did not. -/
structure AtomicSetup (text : KernelText) (name : String) (insns : List BpfInsn) (guest : Guest)
    (ret : Int) (after : Guest) : Prop where
  freedOnce : after.doubleFrees = guest.doubleFrees
  reported : ret = 0 ↔ NewlyBuilt text name insns guest after
  kept : ¬ NewlyBuilt text name insns guest after → ret < 0 ∧ Kept guest after

def NullOrLive (guest : Guest) : Prop :=
  ∀ pointer ∈ guest.bpfInjectedProg, (guest.progs pointer).isSome = true

/-- With the pointer NULL or live, either the copy is refused or every request
is served; or a helper is unknown and there is nothing to free. -/
def CleanExit (answers : Answers) (insns : List BpfInsn) (guest : Guest) : Prop :=
  (answers.insns = false ∧ NullOrLive guest) ∨
    (answers.insns = true ∧ ¬ HelpersKnown insns ∧ guest.bpfInjectedProg = none) ∨
    (answers.insns = true ∧ HelpersKnown insns ∧ answers.prog = true ∧ answers.runtime = true ∧
      NullOrLive guest)

theorem not_built_of_next (text : KernelText) (name : String) (insns : List BpfInsn)
    (guest after : Guest) (same : after.nextProg = guest.nextProg) :
    ¬ NewlyBuilt text name insns guest after := by
  rintro ⟨pointer, _, fresh, below, _⟩
  omega

theorem not_built_of_null (text : KernelText) (name : String) (insns : List BpfInsn)
    (guest after : Guest) (null : after.bpfInjectedProg = none) :
    ¬ NewlyBuilt text name insns guest after := by
  rintro ⟨pointer, pointed, _⟩
  rw [null] at pointed
  cases pointed

/-- A failure that reports 0 is not atomic, whatever it leaves. -/
theorem silent_failure (text : KernelText) (name : String) (insns : List BpfInsn)
    (guest after : Guest) (unbuilt : ¬ NewlyBuilt text name insns guest after) :
    ¬ AtomicSetup text name insns guest 0 after :=
  fun atomic => unbuilt (atomic.reported.mp rfl)

theorem reported_failure (text : KernelText) (name : String) (insns : List BpfInsn)
    (guest after : Guest) (ret : Int) (negative : ret < 0)
    (unbuilt : ¬ NewlyBuilt text name insns guest after) :
    AtomicSetup text name insns guest ret after ↔
      after.doubleFrees = guest.doubleFrees ∧ Kept guest after := by
  constructor
  · intro atomic
    exact ⟨atomic.freedOnce, (atomic.kept unbuilt).2⟩
  · rintro ⟨once, kept⟩
    exact ⟨once, iff_of_false (by omega) unbuilt, fun _ => ⟨negative, kept⟩⟩

theorem kept_refl_iff (guest : Guest) : Kept guest guest ↔ NullOrLive guest := by
  simp [Kept, NullOrLive]

/-- Once the previous program is freed, only NULL is kept. -/
theorem kept_freed_iff (guest : Guest) :
    guest.freePrevious.doubleFrees = guest.doubleFrees ∧ Kept guest guest.freePrevious ↔
      guest.bpfInjectedProg = none := by
  cases pointed : guest.bpfInjectedProg with
  | none => simp [Kept, Guest.freePrevious, pointed]
  | some pointer =>
      simp only [Kept, Guest.freePrevious, pointed, Guest.bpfProgFree, Option.mem_def,
        Option.some.injEq, forall_eq', Function.update_self, true_and, reduceCtorEq, iff_false]
      rintro ⟨_, live, same⟩
      rw [← same] at live
      cases live

inductive SetupResult (text : KernelText) (answers : Answers) (insns : List BpfInsn)
    (name : String) (guest : Guest) : Int → Guest → Prop where
  | refused (refusal : answers.insns = false) :
      SetupResult text answers insns name guest (-enomem) guest
  | unknown (copied : answers.insns = true) (unknown : ¬ HelpersKnown insns) :
      SetupResult text answers insns name guest (-einval) guest.freePrevious
  | unserved (copied : answers.insns = true) (known : HelpersKnown insns)
      (missing : ¬ (answers.prog = true ∧ answers.runtime = true)) (after : Guest)
      (null : after.bpfInjectedProg = none) : SetupResult text answers insns name guest 0 after
  | served (copied : answers.insns = true) (known : HelpersKnown insns)
      (allocated : answers.prog = true) (selected : answers.runtime = true) (after : Guest)
      (freed : after.doubleFrees = guest.freePrevious.doubleFrees)
      (built : NewlyBuilt text name insns guest after) :
      SetupResult text answers insns name guest 0 after

theorem setup_refused (text : KernelText) (answers : Answers) (ioread32 : Nat → Word)
    (programId : Nat) (guest : Guest) (refused : answers.insns = false) :
    bpfProgramsSetup text answers ioread32 programId guest = .ok (-enomem, guest) := by
  simp [bpfProgramsSetup, refused]

theorem setup_result (text : KernelText) (answers : Answers) (ioread32 : Nat → Word)
    (programId : Nat) (guest : Guest) (name : String)
    (named : prognameFromIdx programId = some name) :
    ∃ ret after, bpfProgramsSetup text answers ioread32 programId guest = .ok (ret, after) ∧
      SetupResult text answers (bufferInsns ioread32) name guest ret after := by
  cases copied : answers.insns with
  | false => exact ⟨_, _, setup_refused text answers ioread32 programId guest copied, .refused copied⟩
  | true =>
      have effect := setup_copied_effect text answers programId (bufferInsns ioread32)
        guest.freePrevious
      rw [bpfProgramsSetup, if_pos copied]
      generalize setupCopied text answers programId (bufferInsns ioread32) guest.freePrevious =
        result at effect ⊢
      cases effect with
      | unknownHelper unknown => exact ⟨_, _, rfl, .unknown copied unknown⟩
      | noProg known refused =>
          exact ⟨_, _, rfl, .unserved copied known (by simp [refused]) _ rfl⟩
      | noRuntime _ known _ _ refused =>
          exact ⟨_, _, rfl, .unserved copied known (by simp [refused]) _ rfl⟩
      | built _ known named' allocated selected =>
          cases named.symm.trans named'
          refine ⟨_, _, rfl, .served copied known allocated selected _ rfl ?_⟩
          exact ⟨guest.nextProg, by simp, Nat.le_refl _, by simp [Guest.bpfProgAlloc],
            by simp [Guest.bpfProgAlloc]⟩
      | noName _ _ unnamed => cases named.symm.trans unnamed

/-- The setup returns, and it reports and applies failure atomically exactly
at a clean exit. -/
theorem setup_atomic_iff (text : KernelText) (answers : Answers) (ioread32 : Nat → Word)
    (programId : Nat) (guest : Guest) (name : String)
    (named : prognameFromIdx programId = some name) :
    ∃ ret after, bpfProgramsSetup text answers ioread32 programId guest = .ok (ret, after) ∧
      (AtomicSetup text name (bufferInsns ioread32) guest ret after ↔
        CleanExit answers (bufferInsns ioread32) guest) := by
  obtain ⟨ret, after, returned, result⟩ :=
    setup_result text answers ioread32 programId guest name named
  refine ⟨ret, after, returned, ?_⟩
  cases result with
  | refused refusal =>
      rw [reported_failure text name _ guest guest _ (by simp [enomem])
        (not_built_of_next text name _ guest guest rfl), kept_refl_iff]
      simp [CleanExit, refusal]
  | unknown copied unknown =>
      rw [reported_failure text name _ guest _ _ (by simp [einval])
        (not_built_of_next text name _ guest _ (free_previous_next guest)), kept_freed_iff]
      simp [CleanExit, copied, unknown]
  | unserved copied known missing _ null =>
      apply iff_of_false
      · exact silent_failure text name _ guest after
          (not_built_of_null text name _ guest after null)
      · rintro (⟨refused, -⟩ | ⟨-, unknown, -⟩ | ⟨-, -, allocated, selected, -⟩)
        · cases copied.symm.trans refused
        · exact unknown known
        · exact missing ⟨allocated, selected⟩
  | served copied known allocated selected _ freed built =>
      have once := free_previous_once_iff guest
      rw [← freed] at once
      constructor
      · intro atomic
        exact .inr (.inr ⟨copied, known, allocated, selected, once.mp atomic.freedOnce⟩)
      · rintro (⟨refused, -⟩ | ⟨-, unknown, -⟩ | ⟨-, -, -, -, live⟩)
        · cases copied.symm.trans refused
        · exact absurd known unknown
        · exact ⟨once.mpr live, iff_of_true rfl built, fun unbuilt => absurd built unbuilt⟩

theorem second_setup_atomic :
    let text : KernelText := ⟨0x4000#64, 0x2000#64, 0x3000#64, 0x5000#64⟩
    let guest : Guest := { Guest.boot.bpfProgAlloc (buildProg "test" []) with
      bpfInjectedProg := some 0 }
    let ioread32 : Nat → Word := fun offset =>
      if offset = newdevBuf then 0x00080101#32 else if offset = 20 then 0x95#32 else 0#32
    ∃ ret after, bpfProgramsSetup text ⟨true, true, true⟩ ioread32 1 guest = .ok (ret, after) ∧
      (bufferInsns ioread32).length = 1 ∧
      AtomicSetup text "test" (bufferInsns ioread32) guest ret after := by
  intro text guest ioread32
  obtain ⟨ret, after, returned, atomic⟩ :=
    setup_atomic_iff text ⟨true, true, true⟩ ioread32 1 guest "test" rfl
  have served : CleanExit ⟨true, true, true⟩ (bufferInsns ioread32) guest :=
    .inr (.inr ⟨rfl, by decide, rfl, rfl, fun _ pointed => by cases pointed; rfl⟩)
  exact ⟨ret, after, returned, by decide, atomic.mpr served⟩

/-- `bpf_prog_alloc` fails while a program is installed: the setup returns 0,
the pointer is NULL and the old program is gone. -/
theorem refused_program_reported_served :
    let text : KernelText := ⟨0x4000#64, 0x2000#64, 0x3000#64, 0x5000#64⟩
    let guest : Guest := { Guest.boot.bpfProgAlloc (buildProg "test" []) with
      bpfInjectedProg := some 0 }
    ∃ after, bpfProgramsSetup text ⟨true, false, true⟩ (fun _ => 0#32) 1 guest = .ok (0, after) ∧
      after.bpfInjectedProg = none ∧ after.progs 0 = none ∧
      ¬ AtomicSetup text "test" (bufferInsns fun _ => 0#32) guest 0 after := by
  intro text guest
  refine ⟨{ guest.freePrevious with bpfInjectedProg := none }, rfl, rfl, rfl, ?_⟩
  exact silent_failure text "test" _ guest _ (not_built_of_null text "test" _ guest _ rfl)

end EbpfInjection.SetupOutcome
