import EbpfInjection.HelperExecution
import EbpfInjection.InjectionRoundTrip
import EbpfInjection.PacedInjection

/-!
From the host's object file to the guest's interpreter. The tool's bytes, the
device's buffer, the copy, the fixup and the runtime together run the program
that the object holds, as its author meant it; over the interleavings of the
paced protocol each execution does so for its own message.
-/

namespace EbpfInjection.InjectedExecution
open LittleEndian InjectionMessage HelperFixup HelperWhitelist HelperExecution ResourceLedger
open ProgramSetup SectionSelection InjectionRoundTrip TransitionSystem

/-- The built program means what the instructions it was built from mean. -/
theorem built_preserved (text : KernelText) (name : String) (insns : List BpfInsn)
    (fits : ∀ entry ∈ helperTable text, Fits text entry.2) (known : HelpersKnown insns)
    (kept : WideLoadsKept text insns) :
    RunsPreserved text insns (buildProg name (insns.map (resolveCall text))).insnsi := by
  intro Regs Env interpreter config history
  rw [build_prog_insns]
  exact kernel_runs interpreter text insns fits known kept config history

theorem work_runs_installed (text : KernelText) (ioread32 : Nat → Word) (programType : Byte)
    (guest : Guest) (name : String)
    (named : prognameFromIdx (getProgTypeFromIrq programType) = some name)
    (known : HelpersKnown (bufferInsns ioread32)) :
    let after := executeWork text ⟨true, true, true⟩ ioread32 programType guest
    after.events.getLast? = some (.use after.bpfInjectedProg) ∧
      after.bpfInjectedProg = some guest.nextProg ∧
      after.progs guest.nextProg =
        some (buildProg name ((bufferInsns ioread32).map (resolveCall text))) := by
  obtain ⟨installed, done, pointer, content⟩ :=
    setup_installs text ioread32 programType guest name named known
  simp only [executeWork, done, Guest.bpfProgRun]
  exact ⟨by simp, pointer, content⟩

/-- Whatever the object's one loadable section holds, the activation for the
tool's message runs a program all of whose runs are runs of these instructions
as meant. -/
theorem object_executes (text : KernelText) (object : ElfObject) (sectionName : String)
    (type : InjectionType) (mallocOk : Nat → Bool) (insns : List BpfInsn) (entry : Section)
    (fits : ∀ entry ∈ helperTable text, Fits text entry.2)
    (only : object.loadable = [entry]) (content : entry.bytes = insnBytes insns)
    (sized : insns.length ≤ 8191) (allocated : ∀ i, mallocOk i = true)
    (known : HelpersKnown insns) (kept : WideLoadsKept text insns) :
    ∃ header payload : List Byte,
      injectProgram (some object.handle) sectionName (BitVec.ofNat 8 type.code) mallocOk true =
        .ok (some ⟨header.map some, some payload⟩) ∧
      ∀ memory : Nat → Byte, Holds memory newdevBuf (header ++ payload) → ∀ guest : Guest,
        let after := executeWork text ⟨true, true, true⟩ (load32 memory)
          (BitVec.ofNat 8 type.code) guest
        ∃ pointer prog, after.events.getLast? = some (.use (some pointer)) ∧
          after.progs pointer = some prog ∧ RunsPreserved text insns prog.insnsi := by
  refine ⟨(insnHeader type insns).bytes, insnBytes insns,
    single_section_sent object sectionName type mallocOk insns entry only content sized allocated,
    ?_⟩
  intro memory stored guest after
  obtain ⟨-, decoded⟩ := stored_message_decodes memory type insns sized stored
  obtain ⟨name, named⟩ := type_named type
  obtain ⟨ran, pointer, installed⟩ := work_runs_installed text (load32 memory)
    (BitVec.ofNat 8 type.code) guest name named (by rwa [decoded])
  rw [pointer] at ran
  rw [decoded] at installed
  exact ⟨guest.nextProg, _, ran, installed, built_preserved text name insns fits known kept⟩

theorem no_wide_loads_kept (text : KernelText) (insns : List BpfInsn)
    (plain : ∀ insn ∈ insns, insn.code ≠ bpfWideLoadCode) : WideLoadsKept text insns := by
  intro i low high found wide
  exact absurd wide (plain low (List.mem_of_getElem? found))

theorem test_object_executes :
    ∃ header payload : List Byte,
      injectProgram (some testObject.handle) "test" (BitVec.ofNat 8 InjectionType.injection.code)
          (fun _ => true) true = .ok (some ⟨header.map some, some payload⟩) ∧
      ∀ memory : Nat → Byte, Holds memory newdevBuf (header ++ payload) → ∀ guest : Guest,
        let after := executeWork nearText ⟨true, true, true⟩ (load32 memory)
          (BitVec.ofNat 8 InjectionType.injection.code) guest
        ∃ pointer prog, after.events.getLast? = some (.use (some pointer)) ∧
          after.progs pointer = some prog ∧ RunsPreserved nearText testInsns prog.insnsi :=
  object_executes nearText testObject "test" .injection (fun _ => true) testInsns
    ⟨"test", shtProgbits, insnBytes testInsns⟩ near_text_fits rfl rfl (by decide) (fun _ => rfl)
    (by decide) (no_wide_loads_kept nearText testInsns (by decide))

/-! The same over the interleavings of messages, handler and worker. -/
section Paced
open InjectionMachine LatestMessage PacedInjection

/-- Each execution so far whose setup succeeded ran a program that, if its wide
loads were kept, means what the instructions of the message with its number mean. -/
def ExecutesAsSent (text : KernelText) (sent : List Message) (runs : List Run) : Prop :=
  ∀ (i : Nat) (activation : Run), runs[i]? = some activation → activation.built = true →
    ∃ message prog, sent[i]? = some message ∧ activation.prog = some prog ∧
      (WideLoadsKept text message.insns → RunsPreserved text message.insns prog.insnsi)

theorem in_order_executes (text : KernelText) (sent : List Message) (runs : List Run)
    (fits : ∀ entry ∈ helperTable text, Fits text entry.2) (ran : RanInOrder text sent runs) :
    ExecutesAsSent text sent runs := by
  intro i activation present built
  obtain ⟨message, found, own⟩ := ran i activation present
  obtain ⟨known, installed⟩ := own built
  exact ⟨message, message.program text, found, installed,
    built_preserved text _ message.insns fits known⟩

def sectionInsns (entry : Section) : List BpfInsn := insnsOfWords (words entry.bytes)

structure ToolRun where
  object : ElfObject
  sectionName : String
  type : InjectionType
  mallocOk : Nat → Bool

def ToolRun.result (tool : ToolRun) : Except Fault (Option Sent) :=
  injectProgram (some tool.object.handle) tool.sectionName (BitVec.ofNat 8 tool.type.code)
    tool.mallocOk true

/-- The message is what the tool sent; the rest of its last word is open. -/
def Carries (tool : ToolRun) (message : Message) : Prop :=
  ∃ payload, tool.result = .ok (some ⟨message.header.bytes.map some, some payload⟩) ∧
    payload <+: message.payload.flatMap wordBytes

theorem prefix_insns (bytes : List Byte) (values : List Word)
    (stored : bytes <+: values.flatMap wordBytes) :
    insnsOfWords (values.take (bytes.length / 8 * 8 / 4)) = insnsOfWords (words bytes) := by
  have covered : words bytes = values.take (bytes.length / 4) := by
    rw [List.prefix_iff_eq_take.mp stored, words_take, words_of_words, List.length_take]
    congr 2
    have bound := stored.length_le
    omega
  have halves : bytes.length / 8 * 8 / 4 / 2 = bytes.length / 4 / 2 := by omega
  rw [covered, insns_of_words_take, insns_of_words_take, halves]

/-- Whatever the tool is asked for, its message carries the last loadable section. -/
theorem carried_insns (tool : ToolRun) (message : Message) (carried : Carries tool message) :
    ∃ last, tool.object.loadable.getLast? = some last ∧ message.insns = sectionInsns last := by
  obtain ⟨payload, sent, stored⟩ := carried
  obtain ⟨last, found, fits, rfl, headed⟩ := sent_last _ _ _ _ _ _ sent
  refine ⟨last, found, ?_⟩
  have header := MsgHeader.bytes_injective _ _ headed
  have length : message.payloadLen.toNat = last.bytes.length := by
    have field : message.payloadLen = BitVec.ofNat 16 last.bytes.length :=
      congrArg MsgHeader.payloadLen header
    rw [field, BitVec.toNat_ofNat, Nat.mod_eq_of_lt fits]
  rw [Message.insns, Message.size, length, prefix_insns last.bytes message.payload stored,
    sectionInsns]

def ExecutesObjects (text : KernelText) (tools : List ToolRun) (runs : List Run) : Prop :=
  ∀ (i : Nat) (activation : Run), runs[i]? = some activation → activation.built = true →
    ∃ tool last prog, tools[i]? = some tool ∧ tool.object.loadable.getLast? = some last ∧
      activation.prog = some prog ∧
      (WideLoadsKept text (sectionInsns last) →
        RunsPreserved text (sectionInsns last) prog.insnsi)

theorem as_sent_executes_objects (text : KernelText) (tools : List ToolRun)
    (sent : List Message) (runs : List Run) (carried : List.Forall₂ Carries tools sent)
    (executed : ExecutesAsSent text sent runs) : ExecutesObjects text tools runs := by
  intro i activation present built
  obtain ⟨message, prog, found, installed, meant⟩ := executed i activation present built
  obtain ⟨inside, rfl⟩ := List.getElem?_eq_some_iff.mp found
  have counted := carried.length_eq
  obtain ⟨last, loadable, insns⟩ :=
    carried_insns _ _ (carried.get (by omega) inside)
  rw [List.get_eq_getElem] at insns
  rw [insns] at meant
  exact ⟨_, last, prog, List.getElem?_eq_getElem (by omega), loadable, installed, meant⟩

def exitTool : ToolRun :=
  { object :=
      { sections := [⟨"test", shtProgbits, [0x95#8, 0#8, 0#8, 0#8, 0#8, 0#8, 0#8, 0#8]⟩] }
    sectionName := "test"
    type := .injection
    mallocOk := fun _ => true }

def moveTool : ToolRun :=
  { object :=
      { sections := [⟨"license", shtProgbits, [0x47#8, 0x50#8, 0x4c#8, 0#8]⟩,
          ⟨"get_memory_info", shtProgbits, [0xb7#8, 0#8, 0#8, 0#8, 7#8, 0#8, 0#8, 0#8]⟩] }
    sectionName := "get_memory_info"
    type := .memoryInfo
    mallocOk := fun _ => true }

end Paced

end EbpfInjection.InjectedExecution
