import EbpfInjection.InjectionMessage

/-!
The host tool: `prepare_bpf_injection_message` of `bpf_injection_msg.h` and the
two sends of `main` in `injectProgram.c`. Every libelf accessor may fail, and
uninitialised fields stay visible as `none`. A copy past the allocation ends
the run with a fault, since nothing can be said of the process after it.
-/

namespace EbpfInjection.SectionSelection
open LittleEndian InjectionMessage

def shtProgbits : Nat := 1

structure Shdr where
  shType : Nat
  shSize : Nat

/-- A section as the accessors show it: `gelf_getshdr`, `elf_strptr`, the first
`elf_getdata` and whether a second one gives more data. -/
structure Scn where
  shdr : Option Shdr
  strptr : Option String
  data : Option (List Byte)
  moreData : Bool

structure Elf where
  shnum : Option Nat
  getscn : Nat → Option Scn

/-- `struct bpf_injection_msg_t` with the fields that may never be assigned.
The payload is the content of the block it points to. -/
structure Msg where
  version : Byte
  type : Byte
  payloadLen : Option (BitVec 16)
  payload : Option (List Byte)

inductive Fault where
  | copyPastAllocation (allocated copied : Nat)
  deriving DecidableEq

/-- `payload_len` takes the low 16 bits of `d_size`; `malloc` is asked for that
many bytes and `memcpy` copies all of `d_size`. -/
def copySection (mallocOk : Bool) (data : List Byte) (mymsg : Msg) : Except Fault Msg :=
  let payloadLen := BitVec.ofNat 16 data.length
  let allocated := if mallocOk then payloadLen.toNat else 0
  if data.length ≤ allocated then
    .ok { mymsg with payloadLen := some payloadLen, payload := some data }
  else .error (.copyPastAllocation allocated data.length)

/-- One pass of the loop. `strcmp(shname, section_name)` only decides whether
two lines are printed, so the name of the section is not looked at here. -/
def visitSection (elf : Elf) (mallocOk : Nat → Bool) (mymsg : Msg) (i : Nat) : Except Fault Msg :=
  match elf.getscn i with
  | none => .ok mymsg
  | some scn =>
      match scn.shdr with
      | none => .ok mymsg
      | some shdr =>
          if shdr.shType ≠ shtProgbits then .ok mymsg
          else if scn.strptr = none ∨ shdr.shSize = 0 then .ok mymsg
          else
            match scn.data with
            | none => .ok mymsg
            | some data =>
                if scn.moreData then .ok mymsg else copySection (mallocOk i) data mymsg

/-- `elf` is NULL when `open` or `elf_begin` failed; both failures are printed
and `gelf_getehdr` then fails too. -/
def prepareBpfInjectionMessage (elf : Option Elf) (_sectionName : String) (headerType : Byte)
    (mallocOk : Nat → Bool) : Except Fault Msg :=
  let mymsg : Msg :=
    { version := BitVec.ofNat 8 defaultVersion
      type := headerType
      payloadLen := none
      payload := none }
  match elf with
  | none => .ok mymsg
  | some handle =>
      match handle.shnum with
      | none => .ok mymsg
      | some shnum => (List.range' 1 (shnum - 1)).foldlM (visitSection handle mallocOk) mymsg

def Msg.payloadBytes (mymsg : Msg) : Option (List Byte) :=
  match mymsg.payloadLen, mymsg.payload with
  | some payloadLen, some block => some (block.take payloadLen.toNat)
  | _, _ => none

structure Sent where
  header : List (Option Byte)
  payload : Option (List Byte)

def sendMsg (mymsg : Msg) : Sent :=
  { header :=
      [some mymsg.version, some mymsg.type,
        mymsg.payloadLen.map (byteOf · 0), mymsg.payloadLen.map (byteOf · 1)]
    payload := mymsg.payloadBytes }

/-- `main`: without a connection the tool exits, with one it sends. -/
def injectProgram (elf : Option Elf) (sectionName : String) (headerType : Byte)
    (mallocOk : Nat → Bool) (connected : Bool) : Except Fault (Option Sent) :=
  (prepareBpfInjectionMessage elf sectionName headerType mallocOk).map fun mymsg =>
    if connected then some (sendMsg mymsg) else none

/-! What a well-formed object holds, and how libelf presents it. -/
section Object

structure Section where
  name : String
  shType : Nat
  bytes : List Byte

/-- The sections after the null section, in file order. -/
structure ElfObject where
  sections : List Section

/-- `e_shnum`. From `SHN_LORESERVE` on the number stands elsewhere, where the
tool does not look, and the field is 0. -/
def ElfObject.shnum (object : ElfObject) : Nat :=
  let number := object.sections.length + 1
  if number < 0xff00 then number else 0

def ElfObject.counted (object : ElfObject) : List Section :=
  object.sections.take (object.shnum - 1)

def Section.scn (entry : Section) : Scn :=
  { shdr := some ⟨entry.shType, entry.bytes.length⟩
    strptr := some entry.name
    data := some entry.bytes
    moreData := false }

def nullScn : Scn := ⟨some ⟨0, 0⟩, some "", none, false⟩

def ElfObject.handle (object : ElfObject) : Elf :=
  { shnum := some object.shnum
    getscn := fun i =>
      match i with
      | 0 => some nullScn
      | i + 1 => object.sections[i]?.map Section.scn }

def Section.loadable (entry : Section) : Bool :=
  entry.shType == shtProgbits && !entry.bytes.isEmpty

def ElfObject.loadable (object : ElfObject) : List Section :=
  object.counted.filter Section.loadable

def ElfObject.wanted (object : ElfObject) (sectionName : String) : List Section :=
  object.sections.filter fun entry => entry.loadable && entry.name == sectionName

def AllCopied (mallocOk : Nat → Bool) : Nat → List Section → Prop
  | _, [] => True
  | index, entry :: rest =>
      (entry.loadable = true → entry.bytes.length < 2 ^ 16 ∧ mallocOk index = true) ∧
        AllCopied mallocOk (index + 1) rest

def Msg.withPayload (mymsg : Msg) (bytes : List Byte) : Msg :=
  { mymsg with payloadLen := some (BitVec.ofNat 16 bytes.length), payload := some bytes }

def Msg.withLast (mymsg : Msg) (copied : List Section) : Msg :=
  match copied.getLast? with
  | none => mymsg
  | some entry => mymsg.withPayload entry.bytes

def scanSections (mallocOk : Nat → Bool) : Nat → List Section → Msg → Except Fault Msg
  | _, [], mymsg => .ok mymsg
  | index, entry :: rest, mymsg =>
      if entry.loadable then
        match copySection (mallocOk index) entry.bytes mymsg with
        | .error fault => .error fault
        | .ok copied => scanSections mallocOk (index + 1) rest copied
      else scanSections mallocOk (index + 1) rest mymsg

theorem visit_section_scn (elf : Elf) (mallocOk : Nat → Bool) (mymsg : Msg) (i : Nat)
    (entry : Section) (found : elf.getscn i = some entry.scn) :
    visitSection elf mallocOk mymsg i =
      if entry.loadable then copySection (mallocOk i) entry.bytes mymsg else .ok mymsg := by
  simp only [visitSection, found, Section.scn, Section.loadable]
  by_cases progbits : entry.shType = shtProgbits <;> by_cases empty : entry.bytes = [] <;>
    simp [progbits, empty]

theorem loop_scan (elf : Elf) (mallocOk : Nat → Bool) (index : Nat) (sections : List Section)
    (mymsg : Msg)
    (found : ∀ j entry, sections[j]? = some entry → elf.getscn (index + j) = some entry.scn) :
    (List.range' index sections.length).foldlM (visitSection elf mallocOk) mymsg =
      scanSections mallocOk index sections mymsg := by
  induction sections generalizing index mymsg with
  | nil => rfl
  | cons entry rest ih =>
      have here := visit_section_scn elf mallocOk mymsg index entry (found 0 entry rfl)
      have tail : ∀ later, (List.range' (index + 1) rest.length).foldlM
          (visitSection elf mallocOk) later = scanSections mallocOk (index + 1) rest later := by
        intro later
        apply ih
        intro j candidate member
        have shifted := found (j + 1) candidate (by simpa using member)
        rwa [show index + (j + 1) = index + 1 + j by omega] at shifted
      simp only [List.length_cons, List.range'_succ, List.foldlM_cons, here, scanSections]
      split
      · cases copySection (mallocOk index) entry.bytes mymsg with
        | error fault => rfl
        | ok copied => exact tail copied
      · exact tail mymsg

theorem counted_length (object : ElfObject) : object.counted.length = object.shnum - 1 := by
  simp only [ElfObject.counted, ElfObject.shnum, List.length_take]
  split <;> omega

/-- On an object the tool is the recursion over the sections counted. -/
theorem prepare_scan (object : ElfObject) (sectionName : String) (headerType : Byte)
    (mallocOk : Nat → Bool) :
    prepareBpfInjectionMessage (some object.handle) sectionName headerType mallocOk =
      scanSections mallocOk 1 object.counted
        ⟨BitVec.ofNat 8 defaultVersion, headerType, none, none⟩ := by
  have looped := loop_scan object.handle mallocOk 1 object.counted
    ⟨BitVec.ofNat 8 defaultVersion, headerType, none, none⟩ (by
      intro j entry member
      obtain ⟨inside, _⟩ := List.getElem?_eq_some_iff.mp member
      rw [ElfObject.counted, List.getElem?_take_of_lt (by rwa [← counted_length])] at member
      simp [ElfObject.handle, Nat.add_comm 1 j, member])
  rwa [counted_length] at looped

theorem loadable_nonempty (entry : Section) (loadable : entry.loadable = true) :
    0 < entry.bytes.length := by
  simp only [Section.loadable, Bool.and_eq_true, Bool.not_eq_true', List.isEmpty_eq_false_iff]
    at loadable
  exact List.length_pos_iff.mpr loadable.2

theorem copy_section_fits (bytes : List Byte) (mymsg : Msg) (fits : bytes.length < 2 ^ 16) :
    copySection true bytes mymsg = .ok (mymsg.withPayload bytes) := by
  have whole : (BitVec.ofNat 16 bytes.length).toNat = bytes.length := by
    rw [BitVec.toNat_ofNat, Nat.mod_eq_of_lt fits]
  simp [copySection, whole, Msg.withPayload]

theorem copy_section_faults (mallocOk : Bool) (bytes : List Byte) (mymsg : Msg)
    (nonempty : 0 < bytes.length) (bad : ¬ (bytes.length < 2 ^ 16 ∧ mallocOk = true)) :
    ∃ fault, copySection mallocOk bytes mymsg = .error fault := by
  have short : ¬ bytes.length ≤
      (if mallocOk then (BitVec.ofNat 16 bytes.length).toNat else 0) := by
    cases mallocOk with
    | false =>
        simp only [Bool.false_eq_true, if_false]
        omega
    | true =>
        -- only the 16-bit field is allocated
        have large : 2 ^ 16 ≤ bytes.length := by simpa using bad
        simp only [if_true, BitVec.toNat_ofNat]
        omega
  simp only [copySection, if_neg short]
  exact ⟨_, rfl⟩

theorem with_last_cons (mymsg : Msg) (entry : Section) (copied : List Section) :
    mymsg.withLast (entry :: copied) = (mymsg.withPayload entry.bytes).withLast copied := by
  unfold Msg.withLast
  cases copied with
  | nil => rfl
  | cons next rest => simp [List.getLast?_eq_some_getLast, Msg.withPayload]

theorem scan_copied (mallocOk : Nat → Bool) (index : Nat) (sections : List Section) (mymsg : Msg)
    (copied : AllCopied mallocOk index sections) :
    scanSections mallocOk index sections mymsg =
      .ok (mymsg.withLast (sections.filter Section.loadable)) := by
  induction sections generalizing index mymsg with
  | nil => rfl
  | cons entry rest ih =>
      rcases copied with ⟨head, tail⟩
      by_cases loadable : entry.loadable = true
      · obtain ⟨fits, allocated⟩ := head loadable
        simp only [scanSections, loadable, if_true, allocated,
          copy_section_fits entry.bytes mymsg fits, ih (index + 1) _ tail,
          List.filter_cons_of_pos, with_last_cons]
      · simp only [scanSections, loadable, Bool.false_eq_true, if_false, not_false_eq_true,
          List.filter_cons_of_neg, ih (index + 1) mymsg tail]

theorem scan_faults (mallocOk : Nat → Bool) (index : Nat) (sections : List Section) (mymsg : Msg)
    (bad : ¬ AllCopied mallocOk index sections) :
    ∃ fault, scanSections mallocOk index sections mymsg = .error fault := by
  induction sections generalizing index mymsg with
  | nil => exact absurd trivial bad
  | cons entry rest ih =>
      simp only [AllCopied, not_and] at bad
      by_cases loadable : entry.loadable = true
      · by_cases fine : entry.bytes.length < 2 ^ 16 ∧ mallocOk index = true
        · -- this section is copied, the fault is a later one's
          rcases ih (index + 1) (mymsg.withPayload entry.bytes) (bad fun _ => fine)
            with ⟨fault, failed⟩
          refine ⟨fault, ?_⟩
          simp only [scanSections, loadable, if_true, fine.2,
            copy_section_fits entry.bytes mymsg fine.1, failed]
        · obtain ⟨fault, failed⟩ := copy_section_faults (mallocOk index) entry.bytes mymsg
            (loadable_nonempty entry loadable) fine
          exact ⟨fault, by simp only [scanSections, loadable, if_true, failed]⟩
      · obtain ⟨fault, failed⟩ := ih (index + 1) mymsg (bad fun taken => absurd taken loadable)
        exact ⟨fault, by simp [scanSections, loadable, failed]⟩

/-- The payload is exactly the bytes of a non-empty `SHT_PROGBITS` section with
the wanted name, and without one the tool ends and sends nothing. -/
def SelectsSection (object : ElfObject) (sectionName : String) (headerType : Byte)
    (mallocOk : Nat → Bool) : Prop :=
  if object.wanted sectionName = [] then
    injectProgram (some object.handle) sectionName headerType mallocOk true = .ok none
  else
    ∃ mymsg, prepareBpfInjectionMessage (some object.handle) sectionName headerType mallocOk =
        .ok mymsg ∧
      ∃ entry ∈ object.wanted sectionName, mymsg.payloadBytes = some entry.bytes

def LastIsWanted (object : ElfObject) (sectionName : String) (mallocOk : Nat → Bool) : Prop :=
  AllCopied mallocOk 1 object.counted ∧
    ∃ last, object.loadable.getLast? = some last ∧
      ∃ entry ∈ object.wanted sectionName, entry.bytes = last.bytes

theorem all_copied_fits (mallocOk : Nat → Bool) (index : Nat) (sections : List Section)
    (copied : AllCopied mallocOk index sections) (entry : Section)
    (member : entry ∈ sections.filter Section.loadable) : entry.bytes.length < 2 ^ 16 := by
  induction sections generalizing index with
  | nil => cases member
  | cons first rest ih =>
      obtain ⟨inside, loadable⟩ := List.mem_filter.mp member
      rcases List.mem_cons.mp inside with rfl | later
      · exact (copied.1 loadable).1
      · exact ih (index + 1) copied.2 (List.mem_filter.mpr ⟨later, loadable⟩)

theorem all_copied_of_fits (mallocOk : Nat → Bool) (allocated : ∀ i, mallocOk i = true)
    (index : Nat) (sections : List Section)
    (fits : ∀ entry ∈ sections.filter Section.loadable, entry.bytes.length < 2 ^ 16) :
    AllCopied mallocOk index sections := by
  induction sections generalizing index with
  | nil => trivial
  | cons first rest ih =>
      constructor
      · intro loadable
        exact ⟨fits first (List.mem_filter.mpr ⟨List.mem_cons_self, loadable⟩), allocated index⟩
      · apply ih
        intro entry member
        obtain ⟨later, loadable⟩ := List.mem_filter.mp member
        exact fits entry (List.mem_filter.mpr ⟨List.mem_cons_of_mem first later, loadable⟩)

theorem with_payload_bytes (mymsg : Msg) (bytes : List Byte) (fits : bytes.length < 2 ^ 16) :
    (mymsg.withPayload bytes).payloadBytes = some bytes := by
  have whole : (BitVec.ofNat 16 bytes.length).toNat = bytes.length := by
    rw [BitVec.toNat_ofNat, Nat.mod_eq_of_lt fits]
  simp only [Msg.withPayload, Msg.payloadBytes, whole, List.take_length]

theorem sent_last (object : ElfObject) (sectionName : String) (headerType : Byte)
    (mallocOk : Nat → Bool) (header payload : List Byte)
    (sent : injectProgram (some object.handle) sectionName headerType mallocOk true =
      .ok (some ⟨header.map some, some payload⟩)) :
    ∃ last, object.loadable.getLast? = some last ∧ last.bytes.length < 2 ^ 16 ∧
      payload = last.bytes ∧
      header = MsgHeader.bytes
        ⟨BitVec.ofNat 8 defaultVersion, headerType, BitVec.ofNat 16 last.bytes.length⟩ := by
  rw [injectProgram, prepare_scan] at sent
  by_cases copied : AllCopied mallocOk 1 object.counted
  · rw [scan_copied mallocOk 1 object.counted _ copied, ← ElfObject.loadable] at sent
    cases found : object.loadable.getLast? with
    | none => simp [Except.map, sendMsg, Msg.withLast, found, Msg.payloadBytes] at sent
    | some last =>
        have fits := all_copied_fits mallocOk 1 object.counted copied last
          (List.mem_of_getLast? found)
        simp only [Except.map, if_true, Msg.withLast, found, sendMsg,
          with_payload_bytes _ last.bytes fits, Except.ok.injEq, Option.some.injEq,
          Sent.mk.injEq] at sent
        obtain ⟨headed, content⟩ := sent
        refine ⟨last, rfl, fits, content.symm, ?_⟩
        apply List.map_injective_iff.mpr fun _ _ => Option.some.inj
        rw [← headed]
        rfl
  · obtain ⟨fault, failed⟩ := scan_faults mallocOk 1 object.counted _ copied
    rw [failed] at sent
    cases sent

/-- The tool selects by position: it sends the wanted section exactly when the
last loadable section counted has the wanted bytes. -/
theorem selects_section_iff (object : ElfObject) (sectionName : String) (headerType : Byte)
    (mallocOk : Nat → Bool) :
    SelectsSection object sectionName headerType mallocOk ↔
      LastIsWanted object sectionName mallocOk := by
  unfold SelectsSection LastIsWanted injectProgram
  rw [prepare_scan]
  by_cases copied : AllCopied mallocOk 1 object.counted
  · rw [scan_copied mallocOk 1 object.counted _ copied, ← ElfObject.loadable]
    by_cases unwanted : object.wanted sectionName = []
    · simp [unwanted, Except.map]
    · simp only [unwanted, if_false, copied, true_and, Except.ok.injEq, exists_eq_left']
      cases found : object.loadable.getLast? with
      | none => simp [Msg.withLast, found, Msg.payloadBytes]
      | some last =>
          have member : last ∈ object.loadable := List.mem_of_getLast? found
          have fits := all_copied_fits mallocOk 1 object.counted copied last member
          simp only [Msg.withLast, found, with_payload_bytes _ last.bytes fits, Option.some.injEq,
            exists_eq_left']
          constructor
          · rintro ⟨entry, wanted, same⟩
            exact ⟨entry, wanted, same.symm⟩
          · rintro ⟨entry, wanted, same⟩
            exact ⟨entry, wanted, same.symm⟩
  · obtain ⟨fault, failed⟩ := scan_faults mallocOk 1 object.counted
      ⟨BitVec.ofNat 8 defaultVersion, headerType, none, none⟩ copied
    rw [failed]
    simp [copied, Except.map]

def licensedObject : ElfObject :=
  { sections := [⟨"test", shtProgbits, [0x95#8, 0#8, 0#8, 0#8, 0#8, 0#8, 0#8, 0#8]⟩,
      ⟨"license", shtProgbits, [0x47#8, 0x50#8, 0x4c#8, 0#8]⟩] }

theorem licensed_object_missed :
    ¬ SelectsSection licensedObject "test" (BitVec.ofNat 8 programInjection) fun _ => true := by
  rintro ⟨mymsg, ⟨⟩, entry, wanted, same⟩
  have only : entry = ⟨"test", shtProgbits, [0x95#8, 0#8, 0#8, 0#8, 0#8, 0#8, 0#8, 0#8]⟩ := by
    simpa [ElfObject.wanted, licensedObject, Section.loadable] using wanted
  subst only
  exact absurd same (by decide)

end Object

end EbpfInjection.SectionSelection
