import EbpfInjection.SectionSelection
import EbpfInjection.ProgramSetup

/-!
The host tool composed with the driver. The device stores the four header
bytes at `NEWDEV_BUF` and the payload right behind them; the driver reads them
back as little-endian words. The length changes its unit twice on the way,
from bytes to instructions to words.
-/

namespace EbpfInjection.InjectionRoundTrip
open LittleEndian InjectionMessage HelperFixup ProgramSetup SectionSelection

/-- Equal up to the immediate, and equal altogether unless it is a helper call. -/
def ImmediateReplaced (before after : BpfInsn) : Prop :=
  after = { before with imm := after.imm } ∧ (isHelperCall before = false → after = before)

theorem resolve_call_replaced (text : KernelText) (insn : BpfInsn) :
    ImmediateReplaced insn (resolveCall text insn) := by
  unfold ImmediateReplaced resolveCall
  by_cases call : isHelperCall insn = true
  · cases found : helperFunc text insn.imm <;> simp [call]
  · simp [call]

theorem resolved_replaced (text : KernelText) (insns : List BpfInsn) :
    List.Forall₂ ImmediateReplaced insns (insns.map (resolveCall text)) := by
  induction insns with
  | nil => exact .nil
  | cons insn rest ih => exact .cons (resolve_call_replaced text insn) ih

def insnHeader (type : InjectionType) (insns : List BpfInsn) : MsgHeader :=
  { version := BitVec.ofNat 8 defaultVersion
    type := BitVec.ofNat 8 type.code
    payloadLen := BitVec.ofNat 16 (8 * insns.length) }

theorem insn_header_length (type : InjectionType) (insns : List BpfInsn)
    (sized : insns.length ≤ 8191) :
    (insnHeader type insns).payloadLen.toNat = 8 * insns.length := by
  simp only [insnHeader, BitVec.toNat_ofNat]
  omega

theorem single_section_sent (object : ElfObject) (sectionName : String) (type : InjectionType)
    (mallocOk : Nat → Bool) (insns : List BpfInsn) (entry : Section)
    (only : object.loadable = [entry]) (content : entry.bytes = insnBytes insns)
    (sized : insns.length ≤ 8191) (allocated : ∀ i, mallocOk i = true) :
    injectProgram (some object.handle) sectionName (BitVec.ofNat 8 type.code) mallocOk true =
      .ok (some ⟨(insnHeader type insns).bytes.map some, some (insnBytes insns)⟩) := by
  have length : entry.bytes.length = 8 * insns.length := by
    rw [content, insn_bytes_length]
  have fits : entry.bytes.length < 2 ^ 16 := by omega
  have copied : AllCopied mallocOk 1 object.counted := by
    apply all_copied_of_fits mallocOk allocated
    intro other member
    rw [← ElfObject.loadable, only, List.mem_singleton] at member
    rw [member]
    exact fits
  rw [injectProgram, prepare_scan, scan_copied mallocOk 1 object.counted _ copied,
    ← ElfObject.loadable, only]
  simp only [Msg.withLast, List.getLast?_singleton, Except.map, if_true, sendMsg,
    with_payload_bytes _ entry.bytes fits]
  simp [Msg.withPayload, insnHeader, MsgHeader.bytes, content, insn_bytes_length]

theorem copy_words_exact (memory : Nat → Byte) (insns : List BpfInsn)
    (stored : Holds memory (newdevBuf + headerOffset) (insnBytes insns)) :
    copyWords (load32 memory) insns.length = words (insnBytes insns) := by
  rw [← loads_exact memory _ _ stored, insn_bytes_length, copyWords]
  simp only [Nat.mul_comm]

/-- The driver decodes the stored message to the instructions it was made of. -/
theorem stored_message_decodes (memory : Nat → Byte) (type : InjectionType)
    (insns : List BpfInsn) (sized : insns.length ≤ 8191)
    (stored : Holds memory newdevBuf ((insnHeader type insns).bytes ++ insnBytes insns)) :
    programSize (load32 memory) = insns.length ∧ bufferInsns (load32 memory) = insns := by
  obtain ⟨front, back⟩ := (holds_append memory newdevBuf _ _).mp stored
  have size : programSize (load32 memory) = insns.length := by
    rw [programSize, MsgHeader.load_header memory newdevBuf _ front, MsgHeader.of_word_to_word,
      insn_header_length type insns sized]
    omega
  refine ⟨size, ?_⟩
  rw [bufferInsns, size, copy_words_exact memory insns back, insns_of_words_exact]

def testInsns : List BpfInsn :=
  [⟨0x85#8, 0#4, 0#4, 0#16, BitVec.ofNat 32 bpfhvFuncTestHelper⟩, ⟨0x95#8, 0#4, 0#4, 0#16, 0#32⟩]

def testObject : ElfObject :=
  { sections := [⟨"test", shtProgbits, insnBytes testInsns⟩] }

end EbpfInjection.InjectionRoundTrip
