import EbpfInjection.HelperFixup
import EbpfInjection.ResourceLedger

/-!
One activation of the work item without interference: `execute_work`,
`bpf_programs_setup` and `bpf_my_prog_alloc` of `driver.c`. Programs live in a
heap of numbered allocations, and the ledger records every `bpf_prog_alloc`,
`bpf_prog_free` and `BPF_PROG_RUN` with the pointer it is applied to. The
kernel's answers to the allocation requests are inputs.
-/

namespace EbpfInjection.ProgramSetup
open LittleEndian InjectionMessage HelperFixup ResourceLedger

def bpfObjNameLen : Nat := 16
def maxBpfStack : Nat := 512

structure BpfProg where
  len : Nat
  insnsi : List BpfInsn
  refcnt : Nat
  gplCompatible : Bool
  name : String
  stackDepth : Nat
  deriving DecidableEq

/-- Results of the requests one activation makes: `kmalloc` for the copied
instructions, `bpf_prog_alloc`, and `bpf_prog_select_runtime` (true unless it
reports a negative error; it returns the program it was given either way). -/
structure Answers where
  insns : Bool
  prog : Bool
  runtime : Bool
  deriving DecidableEq

/-- A pointer is the number of an allocation, and `none` is NULL. `oopsed`
records that the activation died on a NULL dereference, and `doubleFrees` counts
the frees of programs that were not live. Nothing holds the kernel to what the
model does after one of these. -/
structure Guest where
  progs : Nat → Option BpfProg
  nextProg : Nat
  bpfInjectedProg : Option Nat
  events : List (Event (Option Nat))
  oopsed : Bool
  doubleFrees : Nat

namespace Guest

def boot : Guest :=
  { progs := fun _ => none
    nextProg := 0
    bpfInjectedProg := none
    events := []
    oopsed := false
    doubleFrees := 0 }

def bpfProgAlloc (guest : Guest) (prog : BpfProg) : Guest :=
  { guest with
    progs := Function.update guest.progs guest.nextProg (some prog)
    nextProg := guest.nextProg + 1
    events := guest.events ++ [.acquire (some guest.nextProg)] }

def bpfProgFree (guest : Guest) (pointer : Nat) : Guest :=
  { guest with
    progs := Function.update guest.progs pointer none
    events := guest.events ++ [.release (some pointer)]
    doubleFrees := guest.doubleFrees + if (guest.progs pointer).isSome then 0 else 1 }

def bpfProgRun (guest : Guest) : Guest :=
  { guest with events := guest.events ++ [.use guest.bpfInjectedProg] }

/-- `if (bpf_injected_prog != NULL) bpf_prog_free(bpf_injected_prog);`. The
pointer itself keeps its value. -/
def freePrevious (guest : Guest) : Guest :=
  match guest.bpfInjectedProg with
  | none => guest
  | some pointer => guest.bpfProgFree pointer

end Guest

/-- `strlcpy(name, "hv-", ..)` and `strlcat(name, progname, ..)`, cut to the
field's size less the terminator. -/
def progObjName (progname : String) : String :=
  String.ofList (("hv-" ++ progname).toList.take (bpfObjNameLen - 1))

def buildProg (progname : String) (insns : List BpfInsn) : BpfProg :=
  { len := insns.length
    insnsi := insns.take insns.length
    refcnt := 1
    gplCompatible := true
    name := progObjName progname
    stackDepth := maxBpfStack }

/-- The new program or NULL. A NULL name is only dereferenced by `strlcat`,
after the allocation; that activation ends there. -/
def bpfMyProgAlloc (answers : Answers) (progname : Option String) (insns : List BpfInsn)
    (guest : Guest) : Except Guest (Option Nat × Guest) :=
  if answers.prog then
    match progname with
    | none =>
        let partly := { buildProg "" insns with stackDepth := 0 }
        .error { guest.bpfProgAlloc partly with oopsed := true }
    | some name =>
        let pointer := guest.nextProg
        let filled := guest.bpfProgAlloc (buildProg name insns)
        if answers.runtime then .ok (some pointer, filled)
        else .ok (none, filled.bpfProgFree pointer)
  else .ok (none, guest)

def programSize (ioread32 : Nat → Word) : Nat :=
  (MsgHeader.ofWord (ioread32 newdevBuf)).payloadLen.toNat / 8

def copyWords (readl : Nat → Word) (size : Nat) : List Word :=
  (List.range (size * 8 / 4)).map fun j => readl (newdevBuf + headerOffset + j * 4)

theorem copy_words_read (readl : Nat → Word) (size : Nat) (value : Nat → Word)
    (reads : ∀ j < size * 8 / 4, readl (newdevBuf + headerOffset + j * 4) = value j) :
    copyWords readl size = (List.range (size * 8 / 4)).map value := by
  apply List.map_congr_left
  intro j member
  exact reads j (List.mem_range.mp member)

def bufferInsns (ioread32 : Nat → Word) : List BpfInsn :=
  insnsOfWords (copyWords ioread32 (programSize ioread32))

/-- `bpf_programs_setup` from the fixup on, with the instructions copied. -/
def setupCopied (text : KernelText) (answers : Answers) (programId : Nat) (insns : List BpfInsn)
    (guest : Guest) : Except Guest (Int × Guest) :=
  let fixed := bpfhvHelperCallsFixup text insns
  if fixed.2 = 0 then
    match bpfMyProgAlloc answers (prognameFromIdx programId) fixed.1 guest with
    | .error dead => .error dead
    | .ok (prog, after) =>
        let installed := { after with bpfInjectedProg := prog }
        -- `ret` still holds the fixup's 0 when the allocation gave NULL
        if prog.isNone then .ok (fixed.2, installed) else .ok (0, installed)
  else .ok (fixed.2, guest)

def bpfProgramsSetup (text : KernelText) (answers : Answers) (ioread32 : Nat → Word)
    (programId : Nat) (guest : Guest) : Except Guest (Int × Guest) :=
  if answers.insns then
    setupCopied text answers programId (bufferInsns ioread32) guest.freePrevious
  else .ok (-enomem, guest)

/-- The result of the setup is only logged; `BPF_PROG_RUN` follows either way. -/
def executeWork (text : KernelText) (answers : Answers) (ioread32 : Nat → Word)
    (programType : Byte) (guest : Guest) : Guest :=
  match bpfProgramsSetup text answers ioread32 (getProgTypeFromIrq programType) guest with
  | .error dead => dead
  | .ok (_, after) => after.bpfProgRun

@[simp] theorem build_prog_insns (name : String) (insns : List BpfInsn) :
    (buildProg name insns).insnsi = insns :=
  List.take_length

@[simp] theorem free_previous_next (guest : Guest) :
    guest.freePrevious.nextProg = guest.nextProg := by
  unfold Guest.freePrevious
  cases guest.bpfInjectedProg <;> rfl

theorem free_previous_gone (guest : Guest) :
    guest.freePrevious.bpfInjectedProg.bind guest.freePrevious.progs = none := by
  cases pointed : guest.bpfInjectedProg <;> simp [Guest.freePrevious, pointed, Guest.bpfProgFree]

/-- The previous program is freed twice unless the pointer is NULL or live. -/
theorem free_previous_once_iff (guest : Guest) :
    guest.freePrevious.doubleFrees = guest.doubleFrees ↔
      ∀ pointer ∈ guest.bpfInjectedProg, (guest.progs pointer).isSome = true := by
  cases pointed : guest.bpfInjectedProg with
  | none => simp [Guest.freePrevious, pointed]
  | some pointer =>
      cases live : guest.progs pointer <;>
        simp [Guest.freePrevious, pointed, Guest.bpfProgFree, live]

theorem setup_installs (text : KernelText) (ioread32 : Nat → Word) (programType : Byte)
    (guest : Guest) (name : String)
    (named : prognameFromIdx (getProgTypeFromIrq programType) = some name)
    (known : HelpersKnown (bufferInsns ioread32)) :
    ∃ after, bpfProgramsSetup text ⟨true, true, true⟩ ioread32 (getProgTypeFromIrq programType)
        guest = .ok (0, after) ∧
      after.bpfInjectedProg = some guest.nextProg ∧
      after.progs guest.nextProg =
        some (buildProg name ((bufferInsns ioread32).map (resolveCall text))) := by
  let prog := buildProg name ((bufferInsns ioread32).map (resolveCall text))
  refine ⟨{ guest.freePrevious.bpfProgAlloc prog with bpfInjectedProg := some guest.nextProg },
    ?_, rfl, ?_⟩
  · simp [bpfProgramsSetup, setupCopied, fixup_accepts text _ known, bpfMyProgAlloc, named, prog]
  · simp [Guest.bpfProgAlloc, prog]

section Copied
variable (text : KernelText) (answers : Answers) (programId : Nat) (insns : List BpfInsn)
  (guest : Guest)

/-- What the setup does to the guest once the instructions are copied: the
fixup fails, `bpf_prog_alloc` gives NULL, the runtime is refused, the program is
installed, or the activation dies on a missing name. -/
inductive SetupEffect : Except Guest (Int × Guest) → Prop where
  | unknownHelper (unknown : ¬ HelpersKnown insns) : SetupEffect (.ok (-einval, guest))
  | noProg (known : HelpersKnown insns) (refused : answers.prog = false) :
      SetupEffect (.ok (0, { guest with bpfInjectedProg := none }))
  | noRuntime (name : String) (known : HelpersKnown insns)
      (named : prognameFromIdx programId = some name) (allocated : answers.prog = true)
      (refused : answers.runtime = false) :
      SetupEffect
        (.ok (0,
          { (guest.bpfProgAlloc (buildProg name (insns.map (resolveCall text)))).bpfProgFree
              guest.nextProg with
            bpfInjectedProg := none }))
  | built (name : String) (known : HelpersKnown insns)
      (named : prognameFromIdx programId = some name) (allocated : answers.prog = true)
      (selected : answers.runtime = true) :
      SetupEffect
        (.ok (0,
          { guest.bpfProgAlloc (buildProg name (insns.map (resolveCall text))) with
            bpfInjectedProg := some guest.nextProg }))
  | noName (partly : BpfProg) (known : HelpersKnown insns)
      (unnamed : prognameFromIdx programId = none) (allocated : answers.prog = true) :
      SetupEffect (.error { guest.bpfProgAlloc partly with oopsed := true })

theorem setup_copied_effect :
    SetupEffect text answers programId insns guest
      (setupCopied text answers programId insns guest) := by
  by_cases known : HelpersKnown insns
  · simp only [setupCopied, fixup_accepts text insns known, bpfMyProgAlloc, if_true]
    cases allocated : answers.prog with
    | false => exact .noProg known allocated
    | true =>
        cases named : prognameFromIdx programId with
        | none => exact .noName _ known named allocated
        | some name =>
            cases selected : answers.runtime with
            | false => exact .noRuntime name known named allocated selected
            | true => exact .built name known named allocated selected
  · simp only [setupCopied, fixup_rejects text insns known]
    exact .unknownHelper known

/-- The setup reports 0 and leaves a pointer only when it built the program. -/
theorem setup_copied_built (after : Guest)
    (done : setupCopied text answers programId insns guest = .ok (0, after))
    (pointed : after.bpfInjectedProg.isSome = true) :
    ∃ name, prognameFromIdx programId = some name ∧ HelpersKnown insns ∧
      after.bpfInjectedProg.bind after.progs =
        some (buildProg name (insns.map (resolveCall text))) := by
  have effect := setup_copied_effect text answers programId insns guest
  rw [done] at effect
  cases effect with
  | noProg | noRuntime => cases pointed
  | built name known named => exact ⟨name, named, known, by simp [Guest.bpfProgAlloc]⟩

theorem setup_copied_unbuilt (ret : Int) (after : Guest)
    (done : setupCopied text answers programId insns guest = .ok (ret, after))
    (unbuilt : ¬ (ret = 0 ∧ after.bpfInjectedProg.isSome = true)) :
    after = guest ∨ after.bpfInjectedProg = none := by
  have effect := setup_copied_effect text answers programId insns guest
  rw [done] at effect
  cases effect with
  | unknownHelper => exact .inl rfl
  | noProg | noRuntime => exact .inr rfl
  | built => exact absurd ⟨rfl, rfl⟩ unbuilt

theorem setup_copied_died (dead : Guest)
    (died : setupCopied text answers programId insns guest = .error dead) :
    prognameFromIdx programId = none := by
  have effect := setup_copied_effect text answers programId insns guest
  rw [died] at effect
  cases effect with
  | noName partly known unnamed => exact unnamed

end Copied

/-! Everything an activation can do is one of six exits. -/
inductive SetupExit where
  | noInsns
  | unknownHelper
  | noProg
  | noName
  | noRuntime
  | built
  deriving DecidableEq

def setupExit (answers : Answers) (insns : List BpfInsn) (progname : Option String) : SetupExit :=
  if answers.insns = false then .noInsns
  else if ¬ HelpersKnown insns then .unknownHelper
  else if answers.prog = false then .noProg
  else if progname = none then .noName
  else if answers.runtime = false then .noRuntime
  else .built

def releasePrevious : Option Nat → List (Event (Option Nat))
  | none => []
  | some pointer => [.release (some pointer)]

def exitEvents (injected : Option Nat) (fresh : Nat) : SetupExit → List (Event (Option Nat))
  | .noInsns => [.use injected]
  | .unknownHelper => releasePrevious injected ++ [.use injected]
  | .noProg => releasePrevious injected ++ [.use none]
  | .noName => releasePrevious injected ++ [.acquire (some fresh)]
  | .noRuntime =>
      releasePrevious injected ++ [.acquire (some fresh), .release (some fresh), .use none]
  | .built => releasePrevious injected ++ [.acquire (some fresh), .use (some fresh)]

def exitPointer (injected : Option Nat) (fresh : Nat) : SetupExit → Option Nat
  | .noInsns | .unknownHelper | .noName => injected
  | .noProg | .noRuntime => none
  | .built => some fresh

theorem free_previous_events (guest : Guest) :
    guest.freePrevious.events = guest.events ++ releasePrevious guest.bpfInjectedProg := by
  unfold Guest.freePrevious
  cases pointer : guest.bpfInjectedProg <;> simp [releasePrevious, Guest.bpfProgFree]

@[simp] theorem free_previous_pointer (guest : Guest) :
    guest.freePrevious.bpfInjectedProg = guest.bpfInjectedProg := by
  unfold Guest.freePrevious
  cases pointer : guest.bpfInjectedProg <;> simp [Guest.bpfProgFree, pointer]

@[simp] theorem free_previous_oopsed (guest : Guest) :
    guest.freePrevious.oopsed = guest.oopsed := by
  unfold Guest.freePrevious
  cases guest.bpfInjectedProg <;> rfl

def ExitEffect (guest : Guest) (exit : SetupExit) (after : Guest) : Prop :=
  after.events = guest.events ++ exitEvents guest.bpfInjectedProg guest.nextProg exit ∧
    after.bpfInjectedProg = exitPointer guest.bpfInjectedProg guest.nextProg exit ∧
    after.nextProg = guest.nextProg +
      (if exit = .noName ∨ exit = .noRuntime ∨ exit = .built then 1 else 0) ∧
    (after.oopsed = true ↔ guest.oopsed = true ∨ exit = .noName)

/-- The exit decides what one activation does to the pointer and the ledger. -/
theorem execute_work_exit (text : KernelText) (answers : Answers) (ioread32 : Nat → Word)
    (programType : Byte) (guest : Guest) :
    ExitEffect guest
      (setupExit answers (bufferInsns ioread32)
        (prognameFromIdx (getProgTypeFromIrq programType)))
      (executeWork text answers ioread32 programType guest) := by
  unfold executeWork bpfProgramsSetup setupCopied setupExit
  generalize bufferInsns ioread32 = insns
  generalize prognameFromIdx (getProgTypeFromIrq programType) = progname
  by_cases copied : answers.insns = true
  · by_cases known : HelpersKnown insns
    · by_cases allocated : answers.prog = true
      · cases progname with
        | none =>
            simp [copied, known, allocated, fixup_accepts, bpfMyProgAlloc, ExitEffect,
              Guest.bpfProgAlloc, free_previous_events, exitEvents, exitPointer]
        | some name =>
            by_cases selected : answers.runtime = true <;>
              simp [copied, known, allocated, selected, fixup_accepts, bpfMyProgAlloc, ExitEffect,
                Guest.bpfProgAlloc, Guest.bpfProgFree, Guest.bpfProgRun, free_previous_events,
                exitEvents, exitPointer]
      · simp [copied, known, allocated, fixup_accepts, bpfMyProgAlloc, ExitEffect,
          Guest.bpfProgRun, free_previous_events, exitEvents, exitPointer]
    · have failed : ¬ (bpfhvHelperCallsFixup text insns).2 = 0 :=
        fun ok => known ((fixup_ret_iff text insns).mp ok)
      simp [copied, known, failed, ExitEffect, Guest.bpfProgRun, free_previous_events,
        exitEvents, exitPointer]
  · simp [copied, ExitEffect, Guest.bpfProgRun, exitEvents, exitPointer]

end EbpfInjection.ProgramSetup
