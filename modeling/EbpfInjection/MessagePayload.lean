import EbpfInjection.SectionSelection

/-!
Length, allocation and content of the message for an arbitrary file: which
sections the loop copies, what becomes of the message when one does not fit,
and what `main` sends when nothing was copied at all.
-/

namespace EbpfInjection.MessagePayload
open LittleEndian InjectionMessage SectionSelection

def copiedData (elf : Elf) (i : Nat) : Option (List Byte) := do
  let scn ← elf.getscn i
  let shdr ← scn.shdr
  let _ ← scn.strptr
  if shdr.shType = shtProgbits ∧ shdr.shSize ≠ 0 ∧ scn.moreData = false then scn.data else none

def copies : Option Elf → List (Nat × List Byte)
  | none => []
  | some elf =>
      match elf.shnum with
      | none => []
      | some shnum =>
          (List.range' 1 (shnum - 1)).filterMap fun i => (copiedData elf i).map fun data => (i, data)

/-- The allocation succeeds and gives space for all bytes; a copy of no bytes
needs neither. -/
def CopyFits (mallocOk : Nat → Bool) (copy : Nat × List Byte) : Prop :=
  copy.2 = [] ∨ copy.2.length < 2 ^ 16 ∧ mallocOk copy.1 = true

def AllFit (mallocOk : Nat → Bool) (copied : List (Nat × List Byte)) : Prop :=
  ∀ copy ∈ copied, CopyFits mallocOk copy

def LengthAgrees (mymsg : Msg) : Prop :=
  ∃ payloadLen payload, mymsg.payloadLen = some payloadLen ∧ mymsg.payload = some payload ∧
    payloadLen.toNat = payload.length

/-- No copy goes past its allocation, and a message that `main` sends has a
length that agrees with its payload. -/
def LengthContract (elf : Option Elf) (sectionName : String) (headerType : Byte)
    (mallocOk : Nat → Bool) (connected : Bool) : Prop :=
  ∃ mymsg, prepareBpfInjectionMessage elf sectionName headerType mallocOk = .ok mymsg ∧
    (injectProgram elf sectionName headerType mallocOk connected = .ok (some (sendMsg mymsg)) →
      LengthAgrees mymsg)

theorem visit_copied (elf : Elf) (mallocOk : Nat → Bool) (mymsg : Msg) (i : Nat) :
    visitSection elf mallocOk mymsg i =
      match copiedData elf i with
      | none => .ok mymsg
      | some data => copySection (mallocOk i) data mymsg := by
  unfold visitSection copiedData
  cases elf.getscn i with
  | none => rfl
  | some scn =>
      rcases scn with ⟨shdr, strptr, data, moreData⟩
      cases shdr with
      | none => rfl
      | some shdr =>
          by_cases progbits : shdr.shType = shtProgbits <;> cases strptr <;>
            by_cases empty : shdr.shSize = 0 <;> cases data <;> cases moreData <;>
            simp [progbits, empty]

theorem prepare_copies (elf : Option Elf) (sectionName : String) (headerType : Byte)
    (mallocOk : Nat → Bool) :
    prepareBpfInjectionMessage elf sectionName headerType mallocOk =
      (copies elf).foldlM (fun mymsg copy => copySection (mallocOk copy.1) copy.2 mymsg)
        ⟨BitVec.ofNat 8 defaultVersion, headerType, none, none⟩ := by
  cases elf with
  | none => rfl
  | some elf =>
      cases counted : elf.shnum with
      | none => simp only [prepareBpfInjectionMessage, copies, counted]; rfl
      | some shnum =>
          simp only [prepareBpfInjectionMessage, copies, counted, List.foldlM_filterMap]
          congr 1
          funext mymsg i
          rw [visit_copied]
          cases copiedData elf i <;> rfl

theorem copy_agrees (mallocOk : Nat → Bool) (copy : Nat × List Byte) (mymsg : Msg)
    (fits : CopyFits mallocOk copy) :
    ∃ after, copySection (mallocOk copy.1) copy.2 mymsg = .ok after ∧ LengthAgrees after := by
  rcases copy with ⟨i, data⟩
  rcases fits with empty | ⟨sized, allocated⟩
  · dsimp only at empty ⊢
    subst empty
    exact ⟨mymsg.withPayload [], by simp [copySection, Msg.withPayload], 0#16, [], rfl, rfl, rfl⟩
  · dsimp only at sized allocated ⊢
    refine ⟨mymsg.withPayload data, by rw [allocated, copy_section_fits data mymsg sized],
      BitVec.ofNat 16 data.length, data, rfl, rfl, ?_⟩
    rw [BitVec.toNat_ofNat, Nat.mod_eq_of_lt sized]

theorem copy_past (mallocOk : Nat → Bool) (copy : Nat × List Byte) (mymsg : Msg)
    (bad : ¬ CopyFits mallocOk copy) :
    ∃ fault, copySection (mallocOk copy.1) copy.2 mymsg = .error fault := by
  rcases not_or.mp bad with ⟨nonempty, short⟩
  exact copy_section_faults (mallocOk copy.1) copy.2 mymsg
    (List.length_pos_of_ne_nil nonempty) short

/-- With all copies in place the message agrees, once there was one. -/
theorem copies_agree (mallocOk : Nat → Bool) (copied : List (Nat × List Byte)) (mymsg : Msg)
    (fit : AllFit mallocOk copied) :
    ∃ after, copied.foldlM (fun mymsg copy => copySection (mallocOk copy.1) copy.2 mymsg) mymsg =
        .ok after ∧
      (copied = [] → after = mymsg) ∧ (LengthAgrees mymsg ∨ copied ≠ [] → LengthAgrees after) := by
  induction copied generalizing mymsg with
  | nil => exact ⟨mymsg, rfl, fun _ => rfl, by simp⟩
  | cons copy rest ih =>
      obtain ⟨middle, first, agrees⟩ := copy_agrees mallocOk copy mymsg (fit copy List.mem_cons_self)
      obtain ⟨after, later, _, kept⟩ := ih middle fun other member =>
        fit other (List.mem_cons_of_mem copy member)
      have both : (copy :: rest).foldlM
          (fun mymsg copy => copySection (mallocOk copy.1) copy.2 mymsg) mymsg = .ok after := by
        rw [List.foldlM_cons, first]
        exact later
      exact ⟨after, both, fun empty => absurd empty (List.cons_ne_nil copy rest),
        fun _ => kept (.inl agrees)⟩

theorem copies_fault (mallocOk : Nat → Bool) (copied : List (Nat × List Byte)) (mymsg : Msg)
    (bad : ¬ AllFit mallocOk copied) :
    ∃ fault, copied.foldlM (fun mymsg copy => copySection (mallocOk copy.1) copy.2 mymsg) mymsg =
      .error fault := by
  induction copied generalizing mymsg with
  | nil => exact absurd (by simp [AllFit]) bad
  | cons copy rest ih =>
      by_cases fits : CopyFits mallocOk copy
      · obtain ⟨middle, first, _⟩ := copy_agrees mallocOk copy mymsg fits
        obtain ⟨fault, failed⟩ := ih middle fun tail => bad (List.forall_mem_cons.mpr ⟨fits, tail⟩)
        use fault
        rw [List.foldlM_cons, first]
        exact failed
      · obtain ⟨fault, failed⟩ := copy_past mallocOk copy mymsg fits
        use fault
        rw [List.foldlM_cons, failed]
        rfl

theorem unassigned_disagrees (version headerType : Byte) :
    ¬ LengthAgrees ⟨version, headerType, none, none⟩ := by
  rintro ⟨_, _, ⟨⟩, _⟩

/-- Length, allocation and content agree exactly when every section the loop
copies fits 16 bits and its allocation, and, if there is a connection, the loop
copies a section at all. -/
theorem length_contract_iff (elf : Option Elf) (sectionName : String) (headerType : Byte)
    (mallocOk : Nat → Bool) (connected : Bool) :
    LengthContract elf sectionName headerType mallocOk connected ↔
      AllFit mallocOk (copies elf) ∧ (connected = true → copies elf ≠ []) := by
  unfold LengthContract injectProgram
  rw [prepare_copies]
  by_cases fit : AllFit mallocOk (copies elf)
  · obtain ⟨after, prepared, untouched, agrees⟩ := copies_agree mallocOk (copies elf)
      ⟨BitVec.ofNat 8 defaultVersion, headerType, none, none⟩ fit
    rw [prepared]
    cases connected with
    | false => simp [fit, Except.map]
    | true =>
        simp only [Except.ok.injEq, exists_eq_left', Except.map, if_true, forall_const, fit,
          true_and]
        constructor
        · intro sent empty
          rw [untouched empty] at sent
          exact unassigned_disagrees _ _ sent
        · intro copied
          exact agrees (.inr copied)
  · obtain ⟨fault, failed⟩ := copies_fault mallocOk (copies elf)
      ⟨BitVec.ofNat 8 defaultVersion, headerType, none, none⟩ fit
    rw [failed]
    simp [fit]

def zeroSection (size : Nat) : Elf :=
  { shnum := some 2
    getscn := fun _ => some ⟨some ⟨shtProgbits, size⟩, some "test", some (List.replicate size 0#8),
      false⟩ }

theorem zero_section_past (size : Nat) (headerType : Byte) (large : 2 ^ 16 ≤ size) :
    prepareBpfInjectionMessage (some (zeroSection size)) "test" headerType (fun _ => true) =
      .error (.copyPastAllocation (size % 2 ^ 16) size) := by
  have nonempty : size ≠ 0 := by omega
  have short : ¬ size ≤ size % 65536 := by omega
  simp [prepareBpfInjectionMessage, zeroSection, visitSection, copySection, nonempty, short, bind,
    Except.bind]

/-- When the file cannot be opened the message is sent with neither field
assigned, and 65536 bytes are copied into an allocation of none. -/
theorem length_contract_broken :
    ¬ LengthContract none "test" 1#8 (fun _ => true) true ∧
      prepareBpfInjectionMessage (some (zeroSection 65536)) "test" 1#8 (fun _ => true) =
        .error (.copyPastAllocation 0 65536) ∧
      ¬ LengthContract (some (zeroSection 65536)) "test" 1#8 (fun _ => true) true := by
  have past := zero_section_past 65536 1#8 (by omega)
  refine ⟨?_, past, ?_⟩
  · rintro ⟨mymsg, ⟨⟩, agrees⟩
    exact unassigned_disagrees _ _ (agrees rfl)
  · rintro ⟨mymsg, prepared, _⟩
    rw [past] at prepared
    cases prepared

end EbpfInjection.MessagePayload
