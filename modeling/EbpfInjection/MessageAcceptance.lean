import EbpfInjection.SetupOutcome

/-!
Which messages `bpf_programs_setup` accepts. Of the header it uses the length
alone, rounded down to whole instructions; version and type are not compared
with anything, nor is the length with the size of the mapped region.
-/

namespace EbpfInjection.MessageAcceptance
open LittleEndian InjectionMessage HelperFixup ResourceLedger ProgramSetup SetupOutcome

/-- A header a strict guest would take, with `mapped` bytes of BAR 1 mapped. -/
def WellFormed (header : MsgHeader) (programType : Byte) (mapped : Nat) : Prop :=
  header.version.toNat = defaultVersion ∧ header.type = programType ∧
    header.payloadLen.toNat ≠ 0 ∧ header.payloadLen.toNat % 8 = 0 ∧
    newdevBuf + headerOffset + header.payloadLen.toNat ≤ mapped

instance (header : MsgHeader) (programType : Byte) (mapped : Nat) :
    Decidable (WellFormed header programType mapped) :=
  inferInstanceAs (Decidable (_ ∧ _ ∧ _ ∧ _ ∧ _))

def readOffsets (answers : Answers) (ioread32 : Nat → Word) : List Nat :=
  newdevBuf ::
    if answers.insns then
      (List.range (programSize ioread32 * 8 / 4)).map fun j => newdevBuf + headerOffset + j * 4
    else []

def ReadsMapped (answers : Answers) (ioread32 : Nat → Word) (mapped : Nat) : Prop :=
  ∀ offset ∈ readOffsets answers ioread32, offset + 4 ≤ mapped

instance (answers : Answers) (ioread32 : Nat → Word) (mapped : Nat) :
    Decidable (ReadsMapped answers ioread32 mapped) :=
  inferInstanceAs (Decidable (∀ offset ∈ readOffsets answers ioread32, _))

/-- Only well-formed messages are installed, only mapped words are read, and
any other message is refused before anything is touched. -/
def StrictAcceptance (text : KernelText) (answers : Answers) (ioread32 : Nat → Word)
    (programType : Byte) (mapped : Nat) (guest : Guest) : Prop :=
  ∀ name ret after, prognameFromIdx (getProgTypeFromIrq programType) = some name →
    bpfProgramsSetup text answers ioread32 (getProgTypeFromIrq programType) guest =
      .ok (ret, after) →
    let formed := WellFormed (MsgHeader.ofWord (ioread32 newdevBuf)) programType mapped
    (NewlyBuilt text name (bufferInsns ioread32) guest after → formed) ∧
      ReadsMapped answers ioread32 mapped ∧ (¬ formed → ret < 0 ∧ after = guest)

theorem setup_of_buffer (text : KernelText) (answers : Answers) (ioread32 ioread32' : Nat → Word)
    (programId : Nat) (guest : Guest)
    (same : answers.insns = true → bufferInsns ioread32' = bufferInsns ioread32) :
    bpfProgramsSetup text answers ioread32' programId guest =
      bpfProgramsSetup text answers ioread32 programId guest := by
  unfold bpfProgramsSetup
  split
  · rename_i copied
    rw [same copied]
  · rfl

/-- Devices that agree on the words read give the same result. -/
theorem setup_reads (text : KernelText) (answers : Answers) (ioread32 ioread32' : Nat → Word)
    (programId : Nat) (guest : Guest)
    (same : ∀ offset ∈ readOffsets answers ioread32, ioread32' offset = ioread32 offset) :
    bpfProgramsSetup text answers ioread32' programId guest =
      bpfProgramsSetup text answers ioread32 programId guest := by
  apply setup_of_buffer
  intro copied
  have size : programSize ioread32' = programSize ioread32 := by
    rw [programSize, programSize, same newdevBuf List.mem_cons_self]
  rw [bufferInsns, bufferInsns, size]
  congr 1
  apply copy_words_read
  intro j below
  apply same
  rw [readOffsets, if_pos copied]
  exact List.mem_cons_of_mem _ (List.mem_map.mpr ⟨j, List.mem_range.mpr below, rfl⟩)

theorem setup_header (text : KernelText) (answers : Answers) (ioread32 : Nat → Word)
    (programId : Nat) (guest : Guest) (header : MsgHeader)
    (sized : header.payloadLen.toNat / 8 = programSize ioread32) :
    bpfProgramsSetup text answers (Function.update ioread32 newdevBuf header.toWord) programId
        guest = bpfProgramsSetup text answers ioread32 programId guest := by
  apply setup_of_buffer
  intro _
  have size : programSize (Function.update ioread32 newdevBuf header.toWord) =
      programSize ioread32 := by
    rw [programSize, Function.update_self, MsgHeader.of_word_to_word, sized]
  rw [bufferInsns, bufferInsns, size]
  congr 1
  apply copy_words_read
  intro j _
  exact Function.update_of_ne (by simp only [newdevBuf, headerOffset]; omega) ..

/-- The last word of the loop decides, or the header when there is none. -/
theorem reads_mapped_iff (answers : Answers) (ioread32 : Nat → Word) (mapped : Nat) :
    ReadsMapped answers ioread32 mapped ↔
      newdevBuf + headerOffset + (if answers.insns then 8 * programSize ioread32 else 0) ≤
        mapped := by
  generalize sized : programSize ioread32 = size
  cases copied : answers.insns with
  | false =>
      simp [ReadsMapped, readOffsets, copied, headerOffset]
  | true =>
      simp only [ReadsMapped, readOffsets, copied, sized, if_true, List.forall_mem_cons,
        List.forall_mem_map, List.mem_range, newdevBuf, headerOffset]
      constructor
      · rintro ⟨head, words⟩
        by_cases empty : size = 0
        · omega
        · have last := words (size * 8 / 4 - 1) (by omega)
          omega
      · intro enough
        constructor
        · omega
        · intro j below
          omega

theorem setup_copied_events (text : KernelText) (answers : Answers) (programId : Nat)
    (insns : List BpfInsn) (guest after : Guest) (ret : Int)
    (done : setupCopied text answers programId insns guest = .ok (ret, after)) :
    ∃ later, after.events = guest.events ++ later := by
  have effect := setup_copied_effect text answers programId insns guest
  rw [done] at effect
  cases effect with
  | unknownHelper | noProg => exact ⟨[], (List.append_nil _).symm⟩
  | noRuntime => exact ⟨_, List.append_assoc ..⟩
  | built => exact ⟨_, rfl⟩

structure LengthOnly (text : KernelText) (answers : Answers) (ioread32 : Nat → Word)
    (programId : Nat) (name : String) (guest : Guest) (ret : Int) (after : Guest) : Prop where
  returned : bpfProgramsSetup text answers ioread32 programId guest = .ok (ret, after)
  installed : NewlyBuilt text name (bufferInsns ioread32) guest after ↔
    answers.insns = true ∧ HelpersKnown (bufferInsns ioread32) ∧ answers.prog = true ∧
      answers.runtime = true
  refused : answers.insns = false → ret = -enomem ∧ after = guest
  released : answers.insns = true →
    ∃ later, after.events = guest.events ++ releasePrevious guest.bpfInjectedProg ++ later
  anyHeader : ∀ header : MsgHeader, header.payloadLen.toNat / 8 = programSize ioread32 →
    bpfProgramsSetup text answers (Function.update ioread32 newdevBuf header.toWord) programId
      guest = .ok (ret, after)
  reads : ∀ ioread32', (∀ offset ∈ readOffsets answers ioread32,
      ioread32' offset = ioread32 offset) →
    bpfProgramsSetup text answers ioread32' programId guest = .ok (ret, after)
  mapped : ∀ mapped, ReadsMapped answers ioread32 mapped ↔
    newdevBuf + headerOffset + (if answers.insns then 8 * programSize ioread32 else 0) ≤ mapped

theorem result_installs_iff (text : KernelText) (answers : Answers) (insns : List BpfInsn)
    (name : String) (guest after : Guest) (ret : Int)
    (result : SetupResult text answers insns name guest ret after) :
    NewlyBuilt text name insns guest after ↔
      answers.insns = true ∧ HelpersKnown insns ∧ answers.prog = true ∧
        answers.runtime = true := by
  cases result with
  | refused refusal =>
      exact iff_of_false (not_built_of_next text name insns guest guest rfl) (by simp [refusal])
  | unknown copied unknown =>
      exact iff_of_false (not_built_of_next text name insns guest _ (free_previous_next guest))
        fun all => unknown all.2.1
  | unserved copied known missing _ null =>
      exact iff_of_false (not_built_of_null text name insns guest after null)
        fun all => missing all.2.2
  | served copied known allocated selected _ _ built =>
      exact iff_of_true built ⟨copied, known, allocated, selected⟩

/-- Whatever the header word, the interrupt's type and the mapped length are:
the setup is decided by the length in whole instructions, the helper calls and
the kernel's answers. -/
theorem setup_length_only (text : KernelText) (answers : Answers) (ioread32 : Nat → Word)
    (type : InjectionType) (guest : Guest) :
    ∃ name ret after,
      prognameFromIdx (getProgTypeFromIrq (BitVec.ofNat 8 type.code)) = some name ∧
      LengthOnly text answers ioread32 (getProgTypeFromIrq (BitVec.ofNat 8 type.code)) name guest
        ret after := by
  generalize identified : getProgTypeFromIrq (BitVec.ofNat 8 type.code) = programId
  obtain ⟨name, named⟩ := type_named type
  rw [identified] at named
  obtain ⟨ret, after, returned, result⟩ :=
    setup_result text answers ioread32 programId guest name named
  refine ⟨name, ret, after, named, ?_⟩
  constructor
  · exact returned
  · exact result_installs_iff text answers _ name guest after ret result
  · intro refusal
    rw [setup_refused text answers ioread32 programId guest refusal] at returned
    cases returned
    exact ⟨rfl, rfl⟩
  · intro copied
    rw [bpfProgramsSetup, if_pos copied] at returned
    obtain ⟨later, grown⟩ := setup_copied_events text answers programId _ _ after ret returned
    rw [free_previous_events] at grown
    exact ⟨later, grown⟩
  · intro header sized
    rw [setup_header text answers ioread32 programId guest header sized, returned]
  · intro ioread32' same
    rw [setup_reads text answers ioread32 ioread32' programId guest same, returned]
  · exact reads_mapped_iff answers ioread32

/-- Version 7, type 9 and a length of one and a half instructions, with 20
bytes mapped: the message is installed from words behind the region. -/
theorem malformed_message_installed :
    let text : KernelText := ⟨0x4000#64, 0x2000#64, 0x3000#64, 0x5000#64⟩
    let ioread32 : Nat → Word := fun offset =>
      if offset = newdevBuf then MsgHeader.toWord ⟨7#8, 9#8, 12#16⟩ else 0#32
    ¬ WellFormed (MsgHeader.ofWord (ioread32 newdevBuf)) 1#8 20 ∧
      ¬ ReadsMapped ⟨true, true, true⟩ ioread32 20 ∧
      (∃ ret after, bpfProgramsSetup text ⟨true, true, true⟩ ioread32 (getProgTypeFromIrq 1#8)
          .boot = .ok (ret, after) ∧
        NewlyBuilt text "test" (bufferInsns ioread32) .boot after) ∧
      ¬ StrictAcceptance text ⟨true, true, true⟩ ioread32 1#8 20 .boot := by
  intro text ioread32
  have malformed : ¬ WellFormed (MsgHeader.ofWord (ioread32 newdevBuf)) 1#8 20 := by decide
  have unmapped : ¬ ReadsMapped ⟨true, true, true⟩ ioread32 20 := by decide
  obtain ⟨ret, after, returned, result⟩ := setup_result text ⟨true, true, true⟩ ioread32
    (getProgTypeFromIrq 1#8) .boot "test" rfl
  have known : HelpersKnown (bufferInsns ioread32) := by decide
  have installed : NewlyBuilt text "test" (bufferInsns ioread32) .boot after :=
    (result_installs_iff _ _ _ _ _ _ _ result).mpr ⟨rfl, known, rfl, rfl⟩
  refine ⟨malformed, unmapped, ⟨ret, after, returned, installed⟩, ?_⟩
  intro strict
  exact malformed ((strict "test" ret after rfl returned).1 installed)

end EbpfInjection.MessageAcceptance
