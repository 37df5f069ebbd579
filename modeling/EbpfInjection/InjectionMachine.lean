import EbpfInjection.FreePageReport
import EbpfInjection.ProgramSetup
import EbpfInjection.TransitionSystem

/-!
The device, `irq_handler` and the work item as steps of one machine. The
device keeps one message buffer, one status register and one interrupt line;
every access of the driver to the device or to a global is a step of its own.
The device is not part of the driver: a host message replaces header and
payload, sets the status register and raises the interrupt in one step, and
`LOWER_IRQ` keeps an interrupt raised after the status was read. The handler
may also run without an interrupt of this device, since the line is shared.
-/

namespace EbpfInjection.InjectionMachine
open LittleEndian InjectionMessage HelperFixup ProgramSetup FreePageReport TransitionSystem

/-- A message of the host; its payload has at least the announced bytes. -/
structure Message where
  version : Byte
  type : InjectionType
  payloadLen : BitVec 16
  payload : List Word
  covered : payloadLen.toNat ≤ 4 * payload.length

namespace Message

def header (message : Message) : MsgHeader :=
  ⟨message.version, BitVec.ofNat 8 message.type.code, message.payloadLen⟩

def programType (message : Message) : Byte := BitVec.ofNat 8 message.type.code

def size (message : Message) : Nat := message.payloadLen.toNat / 8

def insns (message : Message) : List BpfInsn :=
  insnsOfWords (message.payload.take (message.size * 8 / 4))

def program (text : KernelText) (message : Message) : BpfProg :=
  buildProg ((prognameFromIdx (getProgTypeFromIrq message.programType)).getD "")
    (message.insns.map (resolveCall text))

end Message

/-! Buffer words, with who wrote them last. -/
inductive Origin where
  | reset
  | host
  | report
  deriving DecidableEq

structure Cell where
  value : Word
  origin : Origin
  deriving DecidableEq

def payloadOffset (j : Nat) : Nat := newdevBuf + headerOffset + j * 4

/-- The buffer once a message is stored. Words behind the payload stay. -/
def storeMessage (message : Message) (buffer : Nat → Cell) : Nat → Cell := fun offset =>
  if offset = newdevBuf then ⟨message.header.toWord, .host⟩
  else if offset < newdevBuf + headerOffset then buffer offset
  else
    match message.payload[(offset - (newdevBuf + headerOffset)) / 4]? with
    | some value => ⟨value, .host⟩
    | none => buffer offset

/-- Position in `irq_handler`, with the status it read and the number of
messages sent when it read it. -/
inductive Handler where
  | idle
  | dispatch (status : Word) (seen : Nat)
  | schedule (status : Word) (seen : Nat)
  | reporting (status : Word) (seen : Nat) (todo : List (Nat × Word))
  | ack (status : Word) (seen : Nat)
  deriving DecidableEq

/-- What `bpf_programs_setup` has read: `program_type`, the header and payload
words so far. `typedAt` and `readAt` count the messages sent when the handler
read the status behind `program_type`, and at the last read of the buffer. -/
structure Copy where
  programType : Byte
  typedAt : Nat
  header : Cell
  cells : List Cell
  readAt : Nat
  deriving DecidableEq

namespace Copy

def programId (copy : Copy) : Nat := getProgTypeFromIrq copy.programType

def size (copy : Copy) : Nat := (MsgHeader.ofWord copy.header.value).payloadLen.toNat / 8

def jmax (copy : Copy) : Nat := copy.size * 8 / 4

def insns (copy : Copy) : List BpfInsn := insnsOfWords (copy.cells.map Cell.value)

end Copy

/-- Position in `execute_work`. A worker that dereferenced NULL is `dead`. -/
inductive Worker where
  | idle
  | entered
  | typed (programType : Byte) (typedAt : Nat)
  | copying (copy : Copy)
  | running (built : Bool)
  | dead
  deriving DecidableEq

structure Install where
  copy : Copy
  prog : Option BpfProg
  deriving DecidableEq

structure Run where
  built : Bool
  prog : Option BpfProg
  deriving DecidableEq

/-- `fresh` says that the interrupt was raised after the last status read.
`sent`, `acknowledged`, `installs` and `runs` record the history. -/
structure State where
  buffer : Nat → Cell
  status : Word
  irq : Bool
  fresh : Bool
  sent : List Message
  programType : Byte
  typedAt : Nat
  handler : Handler
  pending : Bool
  worker : Worker
  guest : Guest
  acknowledged : Nat
  installs : List Install
  runs : List Run

def boot (words : Nat → Word) : State :=
  { buffer := fun offset => ⟨words offset, .reset⟩
    status := 0#32
    irq := false
    fresh := false
    sent := []
    programType := 0#8
    typedAt := 0
    handler := .idle
    pending := false
    worker := .idle
    guest := Guest.boot
    acknowledged := 0
    installs := []
    runs := [] }

/-- The program `bpf_injected_prog` points to, if it is allocated. -/
def State.injected (state : State) : Option BpfProg :=
  state.guest.bpfInjectedProg.bind state.guest.progs

def inject (message : Message) (state : State) : State :=
  { state with
    buffer := storeMessage message state.buffer
    status := BitVec.ofNat 32 message.type.code
    irq := true
    fresh := true
    sent := state.sent ++ [message] }

def injectionOf (irqStatus : Word) : Option InjectionType :=
  if irqStatus.toNat = programInjection then some .injection
  else if irqStatus.toNat = programMemoryInfo then some .memoryInfo
  else if irqStatus.toNat = programSetMaximumOrder then some .setMaximumOrder
  else none

def handle (state : State) : Option State :=
  match state.handler with
  | .idle =>
      some { state with fresh := false, handler := .dispatch state.status state.sent.length }
  | .dispatch irqStatus seen =>
      match injectionOf irqStatus with
      | some type =>
          some { state with
            programType := BitVec.ofNat 8 type.code
            typedAt := seen
            handler := .schedule irqStatus seen }
      | none =>
          if irqStatus.toNat = firstRoundMigrationStart then none
          else some { state with handler := .ack irqStatus seen }
  | .schedule irqStatus seen => some { state with pending := true, handler := .ack irqStatus seen }
  | .reporting irqStatus seen [] => some { state with handler := .ack irqStatus seen }
  | .reporting irqStatus seen ((offset, value) :: todo) =>
      some { state with
        buffer :=
          if newdevBuf ≤ offset then Function.update state.buffer offset ⟨value, .report⟩
          else state.buffer
        handler := .reporting irqStatus seen todo }
  | .ack _ seen =>
      some { state with irq := state.fresh, acknowledged := seen, handler := .idle }

structure Scan where
  bufferPhys : BitVec 64
  elapsed : Word
  count : Nat

def startReport (scan : Scan) (state : State) : Option State :=
  match state.handler with
  | .dispatch irqStatus seen =>
      if irqStatus.toNat = firstRoundMigrationStart then
        some { state with
          handler := .reporting irqStatus seen
            (deviceWrites scan.bufferPhys scan.elapsed scan.count) }
      else none
  | _ => none

def build (text : KernelText) (answers : Answers) (copy : Copy) (state : State) : State :=
  match setupCopied text answers copy.programId copy.insns state.guest with
  | .error guest => { state with guest, worker := .dead }
  | .ok (ret, guest) =>
      if ret = 0 ∧ guest.bpfInjectedProg.isSome then
        { state with
          guest
          worker := .running true
          installs := state.installs ++ [⟨copy, guest.bpfInjectedProg.bind guest.progs⟩] }
      else { state with guest, worker := .running false }

/-- One step of the worker. It clears the pending mark before `execute_work`. -/
def work (text : KernelText) (answers : Answers) (state : State) : Option State :=
  match state.worker with
  | .idle =>
      if state.pending then some { state with pending := false, worker := .entered } else none
  | .entered => some { state with worker := .typed state.programType state.typedAt }
  | .typed programType typedAt =>
      if answers.insns then
        some { state with
          guest := state.guest.freePrevious
          worker := .copying
            ⟨programType, typedAt, state.buffer newdevBuf, [], state.sent.length⟩ }
      else some { state with worker := .running false }
  | .copying copy =>
      if copy.cells.length < copy.jmax then
        some { state with
          worker := .copying { copy with
            cells := copy.cells ++ [state.buffer (payloadOffset copy.cells.length)]
            readAt := state.sent.length } }
      else some (build text answers copy state)
  | .running built =>
      some { state with
        guest := state.guest.bpfProgRun
        worker := .idle
        runs := state.runs ++ [⟨built, state.injected⟩] }
  | .dead => none

/-- `raise` is an interrupt of the device other than for a host message. -/
inductive Action where
  | inject (message : Message)
  | raise (status : Word)
  | handle
  | report (scan : Scan)
  | work (answers : Answers)

def step (text : KernelText) (state : State) : Action → Option State
  | .inject message => some (inject message state)
  | .raise status =>
      if (injectionOf status).isNone then
        some { state with status, irq := true, fresh := true }
      else none
  | .handle => handle state
  | .report scan => startReport scan state
  | .work answers => work text answers state

inductive Moves (text : KernelText) (state : State) : Action → State → Prop where
  | inject (message : Message) : Moves text state (.inject message) (inject message state)
  | raise (status : Word) (other : injectionOf status = none) :
      Moves text state (.raise status) { state with status, irq := true, fresh := true }
  | enter (at_handler : state.handler = .idle) :
      Moves text state .handle
        { state with fresh := false, handler := .dispatch state.status state.sent.length }
  | setType (irqStatus : Word) (seen : Nat) (type : InjectionType)
      (at_handler : state.handler = .dispatch irqStatus seen)
      (asked : injectionOf irqStatus = some type) :
      Moves text state .handle
        { state with
          programType := BitVec.ofNat 8 type.code
          typedAt := seen
          handler := .schedule irqStatus seen }
  | ignore (irqStatus : Word) (seen : Nat) (at_handler : state.handler = .dispatch irqStatus seen)
      (other : injectionOf irqStatus = none) :
      Moves text state .handle { state with handler := .ack irqStatus seen }
  | schedule (irqStatus : Word) (seen : Nat)
      (at_handler : state.handler = .schedule irqStatus seen) :
      Moves text state .handle { state with pending := true, handler := .ack irqStatus seen }
  | startReport (scan : Scan) (irqStatus : Word) (seen : Nat)
      (at_handler : state.handler = .dispatch irqStatus seen) :
      Moves text state (.report scan)
        { state with
          handler := .reporting irqStatus seen
            (deviceWrites scan.bufferPhys scan.elapsed scan.count) }
  | writeReport (irqStatus : Word) (seen offset : Nat) (value : Word) (todo : List (Nat × Word))
      (at_handler : state.handler = .reporting irqStatus seen ((offset, value) :: todo)) :
      Moves text state .handle
        { state with
          buffer :=
            if newdevBuf ≤ offset then Function.update state.buffer offset ⟨value, .report⟩
            else state.buffer
          handler := .reporting irqStatus seen todo }
  | endReport (irqStatus : Word) (seen : Nat)
      (at_handler : state.handler = .reporting irqStatus seen []) :
      Moves text state .handle { state with handler := .ack irqStatus seen }
  | acknowledge (irqStatus : Word) (seen : Nat)
      (at_handler : state.handler = .ack irqStatus seen) :
      Moves text state .handle
        { state with irq := state.fresh, acknowledged := seen, handler := .idle }
  | start (answers : Answers) (at_worker : state.worker = .idle) (queued : state.pending = true) :
      Moves text state (.work answers) { state with pending := false, worker := .entered }
  | readType (answers : Answers) (at_worker : state.worker = .entered) :
      Moves text state (.work answers)
        { state with worker := .typed state.programType state.typedAt }
  | refused (answers : Answers) (programType : Byte) (typedAt : Nat)
      (at_worker : state.worker = .typed programType typedAt) :
      Moves text state (.work answers) { state with worker := .running false }
  | readHeader (answers : Answers) (programType : Byte) (typedAt : Nat)
      (at_worker : state.worker = .typed programType typedAt) :
      Moves text state (.work answers)
        { state with
          guest := state.guest.freePrevious
          worker := .copying
            ⟨programType, typedAt, state.buffer newdevBuf, [], state.sent.length⟩ }
  | readWord (answers : Answers) (copy : Copy) (at_worker : state.worker = .copying copy)
      (more : copy.cells.length < copy.jmax) :
      Moves text state (.work answers)
        { state with
          worker := .copying { copy with
            cells := copy.cells ++ [state.buffer (payloadOffset copy.cells.length)]
            readAt := state.sent.length } }
  | died (answers : Answers) (copy : Copy) (guest : Guest)
      (at_worker : state.worker = .copying copy) (complete : ¬ copy.cells.length < copy.jmax)
      (unnamed : prognameFromIdx copy.programId = none) :
      Moves text state (.work answers) { state with guest, worker := .dead }
  | failed (answers : Answers) (copy : Copy) (guest : Guest)
      (at_worker : state.worker = .copying copy) (complete : ¬ copy.cells.length < copy.jmax)
      (left : guest = state.guest ∨ guest.bpfInjectedProg = none) :
      Moves text state (.work answers) { state with guest, worker := .running false }
  | built (answers : Answers) (copy : Copy) (guest : Guest) (name : String)
      (at_worker : state.worker = .copying copy) (complete : ¬ copy.cells.length < copy.jmax)
      (named : prognameFromIdx copy.programId = some name)
      (installed : guest.bpfInjectedProg.bind guest.progs =
        some (buildProg name (copy.insns.map (resolveCall text))))
      (known : HelpersKnown copy.insns) :
      Moves text state (.work answers)
        { state with
          guest
          worker := .running true
          installs := state.installs ++
            [⟨copy, some (buildProg name (copy.insns.map (resolveCall text)))⟩] }
  | run (answers : Answers) (built : Bool) (at_worker : state.worker = .running built) :
      Moves text state (.work answers)
        { state with
          guest := state.guest.bpfProgRun
          worker := .idle
          runs := state.runs ++ [⟨built, state.injected⟩] }

section Inversion
variable (text : KernelText) (state next : State)

theorem handle_moves (taken : handle state = some next) : Moves text state .handle next := by
  unfold handle at taken
  cases at_handler : state.handler with
  | idle =>
      simp only [at_handler, Option.some.injEq] at taken
      exact taken ▸ .enter at_handler
  | dispatch irqStatus seen =>
      simp only [at_handler] at taken
      cases asked : injectionOf irqStatus with
      | some type =>
          simp only [asked, Option.some.injEq] at taken
          exact taken ▸ .setType irqStatus seen type at_handler asked
      | none =>
          simp only [asked] at taken
          split at taken
          · cases taken
          · exact Option.some.inj taken ▸ .ignore irqStatus seen at_handler asked
  | schedule irqStatus seen =>
      simp only [at_handler, Option.some.injEq] at taken
      exact taken ▸ .schedule irqStatus seen at_handler
  | reporting irqStatus seen todo =>
      cases todo with
      | nil =>
          simp only [at_handler, Option.some.injEq] at taken
          exact taken ▸ .endReport irqStatus seen at_handler
      | cons write todo =>
          simp only [at_handler, Option.some.injEq] at taken
          exact taken ▸ .writeReport irqStatus seen write.1 write.2 todo at_handler
  | ack irqStatus seen =>
      simp only [at_handler, Option.some.injEq] at taken
      exact taken ▸ .acknowledge irqStatus seen at_handler

theorem build_moves (answers : Answers) (copy : Copy) (at_worker : state.worker = .copying copy)
    (complete : ¬ copy.cells.length < copy.jmax) :
    Moves text state (.work answers) (build text answers copy state) := by
  unfold build
  cases done : setupCopied text answers copy.programId copy.insns state.guest with
  | error guest =>
      exact .died answers copy guest at_worker complete (setup_copied_died _ _ _ _ _ _ done)
  | ok result =>
      rcases result with ⟨ret, guest⟩
      simp only
      split
      · rename_i success
        rcases success with ⟨rfl, pointed⟩
        obtain ⟨name, named, known, installed⟩ := setup_copied_built _ _ _ _ _ _ done pointed
        rw [installed]
        exact .built answers copy guest name at_worker complete named installed known
      · rename_i failure
        exact .failed answers copy guest at_worker complete
          (setup_copied_unbuilt _ _ _ _ _ ret guest done failure)

theorem work_moves (answers : Answers) (taken : work text answers state = some next) :
    Moves text state (.work answers) next := by
  unfold work at taken
  cases at_worker : state.worker with
  | idle =>
      simp only [at_worker] at taken
      split at taken
      · rename_i queued
        exact Option.some.inj taken ▸ .start answers at_worker queued
      · cases taken
  | entered =>
      simp only [at_worker, Option.some.injEq] at taken
      exact taken ▸ .readType answers at_worker
  | typed programType typedAt =>
      simp only [at_worker] at taken
      split at taken
      · exact Option.some.inj taken ▸ .readHeader answers programType typedAt at_worker
      · exact Option.some.inj taken ▸ .refused answers programType typedAt at_worker
  | copying copy =>
      simp only [at_worker] at taken
      split at taken
      · rename_i more
        exact Option.some.inj taken ▸ .readWord answers copy at_worker more
      · rename_i complete
        exact Option.some.inj taken ▸ build_moves text state answers copy at_worker complete
  | running built =>
      simp only [at_worker, Option.some.injEq] at taken
      exact taken ▸ .run answers built at_worker
  | dead => simp [at_worker] at taken

theorem step_moves (action : Action) (taken : step text state action = some next) :
    Moves text state action next := by
  cases action with
  | inject message => exact Option.some.inj taken ▸ .inject message
  | raise status =>
      simp only [step] at taken
      split at taken
      · rename_i other
        exact Option.some.inj taken ▸ .raise status (Option.isNone_iff_eq_none.mp other)
      · cases taken
  | handle => exact handle_moves text state next taken
  | report scan =>
      simp only [step, startReport] at taken
      split at taken
      · rename_i irqStatus seen at_handler
        split at taken
        · exact Option.some.inj taken ▸ .startReport scan irqStatus seen at_handler
        · cases taken
      · cases taken
  | work answers => exact work_moves text state next answers taken

end Inversion

/-! Without interference the worker's small steps are `execute_work`. -/
section Adequacy
variable (text : KernelText) (answers : Answers)

def State.mmio (state : State) : Nat → Word := fun offset => (state.buffer offset).value

theorem copy_run (missing : Nat) (state : State) (copy : Copy)
    (at_worker : state.worker = .copying copy) (recent : copy.readAt = state.sent.length)
    (left : copy.cells.length + missing = copy.jmax) :
    run (step text) state (List.replicate missing (.work answers)) =
      some { state with
        worker := .copying { copy with
          cells := copy.cells ++ (List.range missing).map fun i =>
            state.buffer (payloadOffset (copy.cells.length + i)) } } := by
  induction missing generalizing state copy with
  | zero => simp [← at_worker]
  | succ missing ih =>
      have more : copy.cells.length < copy.jmax := by omega
      rw [List.replicate_succ, run]
      simp only [step, work, at_worker, more, if_true, Option.bind_some]
      rw [ih _ _ rfl rfl (by
        simpa [Copy.jmax, Copy.size, Nat.add_assoc, Nat.add_comm 1] using left)]
      simp [List.range_succ_eq_map, Function.comp_def, recent, Nat.add_assoc, Nat.add_comm 1]

theorem build_ok (copy : Copy) (state : State) (ret : Int) (after : Guest)
    (done : setupCopied text answers copy.programId copy.insns state.guest = .ok (ret, after)) :
    ∃ built, (build text answers copy state).worker = .running built ∧
      (build text answers copy state).guest = after := by
  unfold build
  rw [done]
  by_cases success : ret = 0 ∧ after.bpfInjectedProg.isSome = true
  · exact ⟨true, by simp [success]⟩
  · exact ⟨false, by simp [success]⟩

/-- The result of a setup as `execute_work` goes on from it. -/
theorem finish_run (state : State) (copy : Copy) (at_worker : state.worker = .copying copy)
    (complete : ¬ copy.cells.length < copy.jmax) :
    ∃ steps final, run (step text) state (List.replicate steps (.work answers)) = some final ∧
      (final.worker = .idle ∨ final.worker = .dead) ∧
      final.guest =
        match setupCopied text answers copy.programId copy.insns state.guest with
        | .error dead => dead
        | .ok (_, after) => after.bpfProgRun := by
  cases done : setupCopied text answers copy.programId copy.insns state.guest with
  | error dead =>
      refine ⟨1, { state with guest := dead, worker := .dead }, ?_, .inr rfl, rfl⟩
      simp [run, step, work, at_worker, complete, build, done]
  | ok result =>
      obtain ⟨built, running, left⟩ := build_ok text answers copy state result.1 result.2 done
      let middle := build text answers copy state
      refine ⟨2, { middle with
        guest := middle.guest.bpfProgRun
        worker := .idle
        runs := middle.runs ++ [⟨built, middle.injected⟩] }, ?_, .inl rfl, ?_⟩
      · simp [run, List.replicate, step, work, at_worker, complete, running, middle]
      · exact congrArg Guest.bpfProgRun left

/-- An activation with no step of the others in between ends, and leaves what
`execute_work` computes on the buffer and `program_type` it found. -/
theorem activation_exact (state : State) (at_worker : state.worker = .entered) :
    ∃ steps final, run (step text) state (List.replicate steps (.work answers)) = some final ∧
      (final.worker = .idle ∨ final.worker = .dead) ∧
      final.guest = executeWork text answers state.mmio state.programType state.guest := by
  unfold executeWork bpfProgramsSetup
  by_cases allocated : answers.insns = true
  · -- type and header, then every word, then the rest of the setup and the run
    let copy : Copy := ⟨state.programType, state.typedAt, state.buffer newdevBuf, [],
      state.sent.length⟩
    let header : State := { state with guest := state.guest.freePrevious, worker := .copying copy }
    let full : Copy := { copy with
      cells := (List.range copy.jmax).map fun i => state.buffer (payloadOffset i) }
    have size : full.cells.length = full.jmax := by simp [full, Copy.jmax, Copy.size]
    have decoded : full.insns = bufferInsns state.mmio := by
      simp [full, Copy.insns, bufferInsns, copyWords, programSize, Copy.jmax, Copy.size,
        State.mmio, payloadOffset, copy, Function.comp_def]
    have first : run (step text) state (List.replicate 2 (.work answers)) = some header := by
      simp [run, List.replicate, step, work, at_worker, allocated, header, copy]
    have second := copy_run text answers copy.jmax header copy rfl rfl (by simp [copy])
    obtain ⟨steps, final, third, ended, left⟩ := finish_run text answers
      { header with worker := .copying full } full rfl (by omega)
    refine ⟨2 + (copy.jmax + steps), final, ?_, ended, ?_⟩
    · rw [List.replicate_add, List.replicate_add]
      refine run_trans _ first (run_trans _ second ?_)
      simpa [full, header, copy] using third
    · rw [left, decoded, if_pos allocated]
      rfl
  · refine ⟨3, _, by simp [run, List.replicate, step, work, at_worker, allocated]; rfl, ?_, ?_⟩
    · simp
    · simp [allocated]

end Adequacy

def callMessage : Message :=
  { version := 1#8
    type := .injection
    payloadLen := 16#16
    payload := [0x85#32, 0x4b8f0000#32, 0x95#32, 0#32]
    covered := by decide }

def loadedText : KernelText := ⟨0x1000#64, 0x1400#64, 0x1800#64, 0x1c00#64⟩

def enteredHistory : List Action :=
  [.inject callMessage] ++ List.replicate 4 .handle ++
    List.replicate 9 (.work ⟨true, true, true⟩) ++ [.inject callMessage] ++
    List.replicate 4 .handle ++ [.work ⟨true, true, true⟩]

theorem second_activation_exact :
    ∃ entered steps final,
      run (step loadedText) (boot fun _ => 0#32) enteredHistory = some entered ∧
      entered.injected = some (callMessage.program loadedText) ∧
      run (step loadedText) entered (List.replicate steps (.work ⟨true, true, true⟩)) =
        some final ∧
      (final.worker = .idle ∨ final.worker = .dead) ∧
      final.guest.events = [.acquire (some 0), .use (some 0), .release (some 0),
        .acquire (some 1), .use (some 1)] ∧
      final.injected = some (buildProg "test"
        [⟨0x85#8, 0#4, 0#4, 0#16, 0x400#32⟩, ⟨0x95#8, 0#4, 0#4, 0#16, 0#32⟩]) := by
  obtain ⟨entered, reached⟩ : ∃ entered,
      run (step loadedText) (boot fun _ => 0#32) enteredHistory = some entered := ⟨_, rfl⟩
  have before : entered.worker = .entered ∧
      entered.injected = some (callMessage.program loadedText) := by
    cases reached
    exact ⟨rfl, rfl⟩
  obtain ⟨steps, final, replay, ended, left⟩ :=
    activation_exact loadedText ⟨true, true, true⟩ entered before.1
  refine ⟨entered, steps, final, reached, before.2, replay, ended, ?_⟩
  rw [State.injected, left]
  cases reached
  exact ⟨rfl, rfl⟩

end EbpfInjection.InjectionMachine
