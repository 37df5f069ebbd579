import EbpfInjection.FreePageReport
import EbpfInjection.MappedWords
import EbpfInjection.ProgramSetup

/-!
`mywrite` of `driver.c`, which writes a message into the device, against the
copy loop of `bpf_programs_setup`, which reads one. The writer counts bytes and
the reader instructions and words. The header is stored before the length is
looked at, so that a message that is not written leaves its header behind.
-/

namespace EbpfInjection.MessageWriter
open LittleEndian InjectionMessage ProgramSetup FreePageReport MappedWords

structure BpfInjectionMsg where
  header : MsgHeader
  payload : Nat → Byte

namespace BpfInjectionMsg

def payloadLen (mymsg : BpfInjectionMsg) : Nat := mymsg.header.payloadLen.toNat

def payloadWords (mymsg : BpfInjectionMsg) : List Word :=
  (List.range (mymsg.payloadLen / 4)).map fun j => load32 mymsg.payload (4 * j)

end BpfInjectionMsg

universe u
section Writer
variable {Device : Type u} (region : Region Device) (mymsg : BpfInjectionMsg) (mmioOffset : Int)

def mywriteLoop (off : Nat) (ret : Int) (device : Device) : Int × Device :=
  if off < mymsg.payloadLen then
    mywriteLoop (off + 4) (ret + 4)
      (region.iowrite32 (load32 mymsg.payload off) (mmioOffset + off + 4) device)
  else (ret, device)
termination_by mymsg.payloadLen - off

def mywrite (device : Device) : Int × Device :=
  let headed := region.iowrite32 mymsg.header.toWord mmioOffset device
  if mymsg.payloadLen % 4 = 0 then mywriteLoop region mymsg mmioOffset 0 0 headed
  else (0, headed)

end Writer

structure Written {Device : Type u} (region : Region Device) (mymsg : BpfInjectionMsg)
    (mmioOffset : Int) (before after : Device) : Prop where
  stores : after =
    region.storeWords mmioOffset (mymsg.header.toWord :: mymsg.payloadWords) before
  header : region.ioread32 after mmioOffset = mymsg.header.toWord
  payload : ∀ j < mymsg.payloadLen / 4,
    region.ioread32 after (mmioOffset + 4 + 4 * j) = load32 mymsg.payload (4 * j)
  others : ∀ offset, offset + 4 ≤ mmioOffset ∨ mmioOffset + 4 + mymsg.payloadLen ≤ offset →
    region.ioread32 after offset = region.ioread32 before offset

structure Recovered (mymsg : BpfInjectionMsg) (ioread32 : Nat → Word) : Prop where
  length : (MsgHeader.ofWord (ioread32 newdevBuf)).payloadLen = mymsg.header.payloadLen
  count : (bufferInsns ioread32).length = mymsg.payloadLen / 8
  insns : Holds mymsg.payload 0 (insnBytes (bufferInsns ioread32))

/-- A message is written whole, for the setup to read, or not at all. -/
structure WholeOrNothing {Device : Type u} (region : Region Device) (mymsg : BpfInjectionMsg)
    (mmioOffset : Int) (before : Device) (ret : Int) (after : Device) : Prop where
  whole : mymsg.payloadLen % 4 = 0 →
    ret = mymsg.payloadLen ∧ Written region mymsg mmioOffset before after ∧
      (mmioOffset = newdevBuf → Recovered mymsg fun offset => region.ioread32 after offset)
  nothing : mymsg.payloadLen % 4 ≠ 0 →
    ret = 0 ∧ ∀ offset, region.ioread32 after offset = region.ioread32 before offset

section Writes
variable {Device : Type u} (region : Region Device) (mymsg : BpfInjectionMsg) (mmioOffset : Int)

theorem mywrite_loop_stores (count off : Nat) (ret : Int) (device : Device)
    (left : off + 4 * count = mymsg.payloadLen) :
    mywriteLoop region mymsg mmioOffset off ret device =
      (ret + 4 * count, region.storeWords (mmioOffset + off + 4)
        ((List.range count).map fun j => load32 mymsg.payload (off + 4 * j)) device) := by
  induction count generalizing off ret device with
  | zero =>
      have ended : ¬ off < mymsg.payloadLen := by omega
      rw [mywriteLoop, if_neg ended]
      simp [Region.storeWords]
  | succ count ih =>
      have more : off < mymsg.payloadLen := by omega
      rw [mywriteLoop, if_pos more, ih (off + 4) _ _ (by omega)]
      have counted : ret + 4 + 4 * (count : Int) = ret + 4 * (count + 1 : Nat) := by omega
      have place : mmioOffset + (off + 4 : Nat) + 4 = mmioOffset + off + 4 + 4 := by omega
      have later : (fun j => load32 mymsg.payload (off + 4 + 4 * j)) =
          (fun j => load32 mymsg.payload (off + 4 * j)) ∘ Nat.succ := by
        funext j
        simp only [Function.comp_apply, Nat.succ_eq_add_one]
        congr 1
        omega
      rw [counted, place, later, List.range_succ_eq_map, List.map_cons, List.map_map,
        Region.storeWords]
      rfl

theorem mywrite_stores (before : Device) (whole : mymsg.payloadLen % 4 = 0) :
    mywrite region mymsg mmioOffset before =
      ((mymsg.payloadLen : Int),
        region.storeWords mmioOffset (mymsg.header.toWord :: mymsg.payloadWords) before) := by
  have length : 0 + 4 * (mymsg.payloadLen / 4) = mymsg.payloadLen := by omega
  have bytes : (0 : Int) + 4 * (mymsg.payloadLen / 4 : Nat) = mymsg.payloadLen := by omega
  rw [mywrite, if_pos whole, mywrite_loop_stores region mymsg mmioOffset _ 0 0 _ length, bytes]
  simp [Region.storeWords, BpfInjectionMsg.payloadWords]

theorem run_written (before : Device) (whole : mymsg.payloadLen % 4 = 0) :
    Written region mymsg mmioOffset before
      (region.storeWords mmioOffset (mymsg.header.toWord :: mymsg.payloadWords) before) := by
  have size : (mymsg.header.toWord :: mymsg.payloadWords).length = mymsg.payloadLen / 4 + 1 := by
    simp [BpfInjectionMsg.payloadWords]
  have read := region.stored_words_read mmioOffset (mymsg.header.toWord :: mymsg.payloadWords) before
  constructor
  · rfl
  · simpa using read 0 mymsg.header.toWord rfl
  · intro j inside
    have found : (mymsg.header.toWord :: mymsg.payloadWords)[j + 1]? =
        some (load32 mymsg.payload (4 * j)) := by
      simp [BpfInjectionMsg.payloadWords, inside]
    have place : mmioOffset + 4 + 4 * (j : Int) = mmioOffset + 4 * (j + 1 : Nat) := by omega
    rw [place]
    exact read (j + 1) _ found
  · intro offset outside
    apply region.stored_words_apart
    rw [size]
    omega

end Writes

/-- The copy loop stops at the last whole instruction, so it reads stored words
only. -/
theorem stored_recovered (mymsg : BpfInjectionMsg) (ioread32 : Nat → Word)
    (header : ioread32 newdevBuf = mymsg.header.toWord)
    (payload : ∀ j < mymsg.payloadLen / 4,
      ioread32 (newdevBuf + headerOffset + j * 4) = load32 mymsg.payload (4 * j)) :
    Recovered mymsg ioread32 := by
  have size : programSize ioread32 = mymsg.payloadLen / 8 := by
    rw [programSize, header, MsgHeader.of_word_to_word, BpfInjectionMsg.payloadLen]
  have copied : copyWords ioread32 (programSize ioread32) =
      (List.range (mymsg.payloadLen / 8 * 8 / 4)).map fun j => load32 mymsg.payload (0 + 4 * j) := by
    rw [size]
    apply copy_words_read
    intro j below
    rw [payload j (by omega), Nat.zero_add]
  have length : (copyWords ioread32 (programSize ioread32)).length = mymsg.payloadLen / 8 * 2 := by
    rw [copied, List.length_map, List.length_range]
    omega
  constructor
  · rw [header, MsgHeader.of_word_to_word]
  · rw [bufferInsns, insns_of_words_length, length]
    omega
  · rw [bufferInsns, insn_bytes_of_words _ (by omega), copied]
    exact holds_loads mymsg.payload 0 _

theorem written_recovered {Device : Type u} (region : Region Device) (mymsg : BpfInjectionMsg)
    (before after : Device) (written : Written region mymsg newdevBuf before after) :
    Recovered mymsg fun offset => region.ioread32 after offset := by
  apply stored_recovered
  · exact written.header
  · intro j inside
    have place : ((newdevBuf + headerOffset + j * 4 : Nat) : Int) = newdevBuf + 4 + 4 * j := by
      simp only [headerOffset]
      omega
    rw [place]
    exact written.payload j inside

/-- The message is written whole or not at all exactly when its length is in
whole words, or its header is what the device shows at the offset already. -/
theorem mywrite_whole_iff {Device : Type u} (region : Region Device) (mymsg : BpfInjectionMsg)
    (mmioOffset : Int) (before : Device) :
    WholeOrNothing region mymsg mmioOffset before (mywrite region mymsg mmioOffset before).1
        (mywrite region mymsg mmioOffset before).2 ↔
      mymsg.payloadLen % 4 = 0 ∨
        region.ioread32 before mmioOffset = mymsg.header.toWord := by
  by_cases whole : mymsg.payloadLen % 4 = 0
  · have written := run_written region mymsg mmioOffset before whole
    rw [mywrite_stores region mymsg mmioOffset before whole]
    apply iff_of_true
    · constructor
      · intro _
        refine ⟨rfl, written, ?_⟩
        rintro rfl
        exact written_recovered region mymsg before _ written
      · exact absurd whole
    · exact .inl whole
  · simp only [mywrite, whole, if_false, false_or]
    constructor
    · intro ⟨_, nothing⟩
      rw [← (nothing whole).2 mmioOffset]
      exact region.read_back mymsg.header.toWord mmioOffset before
    · intro shown
      constructor
      · exact fun aligned => absurd aligned whole
      · intro _
        rw [← shown]
        exact ⟨rfl, region.read_idle mmioOffset before⟩

theorem refused_mixed {Device : Type u} (region : Region Device) (mymsg : BpfInjectionMsg)
    (before : Device) (broken : mymsg.payloadLen % 4 ≠ 0) :
    let after := (mywrite region mymsg newdevBuf before).2
    programSize (fun offset => region.ioread32 after offset) = mymsg.payloadLen / 8 ∧
      ∀ size, copyWords (fun offset => region.ioread32 after offset) size =
        copyWords (fun offset => region.ioread32 before offset) size := by
  intro after
  have stored : after = region.iowrite32 mymsg.header.toWord newdevBuf before := by
    simp only [after, mywrite, if_neg broken]
  constructor
  · rw [programSize, stored, region.read_back, MsgHeader.of_word_to_word, BpfInjectionMsg.payloadLen]
  · intro size
    apply copy_words_read
    intro j _
    rw [stored]
    apply region.read_apart
    simp only [headerOffset]
    omega

theorem refused_header_stored :
    let mymsg : BpfInjectionMsg := ⟨⟨1#8, 1#8, 6#16⟩, fun _ => 0#8⟩
    let before : Int → Byte := fun _ => 0#8
    let written := mywrite byteRegion mymsg newdevBuf before
    written.1 = 0 ∧ byteRegion.ioread32 before newdevBuf = 0#32 ∧
      byteRegion.ioread32 written.2 newdevBuf = mymsg.header.toWord ∧
      ¬ WholeOrNothing byteRegion mymsg newdevBuf before written.1 written.2 := by
  intro mymsg before written
  have stored : byteRegion.ioread32 written.2 newdevBuf = mymsg.header.toWord := by decide
  refine ⟨by decide, by decide, stored, ?_⟩
  intro ⟨_, nothing⟩
  have unchanged := (nothing (by decide)).2 newdevBuf
  exact absurd (stored.symm.trans unchanged) (by decide)

/-! `write_guest_free_pages` stores its report without `mywrite`. -/
section Report

theorem payload_words_held (mymsg : BpfInjectionMsg) (values : List Word)
    (sized : mymsg.payloadLen = 4 * values.length)
    (held : Holds mymsg.payload 0 (values.flatMap wordBytes)) : mymsg.payloadWords = values := by
  have loads := loads_exact mymsg.payload 0 _ held
  rw [words_bytes_length, words_of_words, ← sized] at loads
  rw [BpfInjectionMsg.payloadWords]
  simpa only [Nat.zero_add] using loads

/-- The report's stores are those of `mywrite` for a message with the same
words, and the doorbell. -/
theorem report_stores_message {Device : Type u} (region : Region Device) (mymsg : BpfInjectionMsg)
    (bufferPhys : BitVec 64) (elapsed : Word) (count : Nat) (before : Device)
    (header : mymsg.header =
      ⟨BitVec.ofNat 8 defaultVersion, BitVec.ofNat 8 firstRoundMigration, BitVec.ofNat 16 (3 * 4)⟩)
    (held : Holds mymsg.payload 0
      ([(reportWords bufferPhys count).highAddr, (reportWords bufferPhys count).lowAddr,
        (reportWords bufferPhys count).half].flatMap wordBytes)) :
    (deviceWrites bufferPhys elapsed count).foldl
        (fun device write => region.iowrite32 write.2 write.1 device) before =
      region.iowrite32 elapsed newdevRegDoorbell (mywrite region mymsg newdevBuf before).2 := by
  have length : mymsg.payloadLen = 12 := by
    rw [BpfInjectionMsg.payloadLen, header]
    rfl
  have words := payload_words_held mymsg
    [(reportWords bufferPhys count).highAddr, (reportWords bufferPhys count).lowAddr,
      (reportWords bufferPhys count).half] length held
  rw [mywrite_stores region mymsg newdevBuf before (by omega), words, header]
  simp only [deviceWrites, List.foldl_cons, List.foldl_nil, Region.storeWords]
  rfl

theorem two_blocks_message :
    let words := reportWords 0x80000000#64 4
    let mymsg : BpfInjectionMsg :=
      ⟨⟨1#8, 20#8, 12#16⟩, fun i =>
        ([words.highAddr, words.lowAddr, words.half].flatMap wordBytes).getD i 0#8⟩
    (deviceWrites 0x80000000#64 7#32 4).foldl
        (fun device write => byteRegion.iowrite32 write.2 write.1 device) (fun _ => 0#8) =
      byteRegion.iowrite32 7#32 newdevRegDoorbell
        (mywrite byteRegion mymsg newdevBuf fun _ => 0#8).2 :=
  report_stores_message byteRegion _ 0x80000000#64 7#32 4 (fun _ => 0#8) rfl
    (by simp [wordBytes, Holds])

end Report

/-! `prepare_bpf_message`, which makes the message `mywrite` is meant to write. -/
section Prepared

/-- The type asked for is not looked at, and the field takes the low 16 bits of
the size. -/
def prepareBpfMessage (path : Nat → Byte) (_type size : Int) : BpfInjectionMsg :=
  { header := ⟨BitVec.ofNat 8 defaultVersion, BitVec.ofNat 8 programInjection, BitVec.ofInt 16 size⟩
    payload := path }

theorem prepared_length (path : Nat → Byte) (type size : Int) :
    ((prepareBpfMessage path type size).payloadLen : Int) = size % 65536 := by
  rw [BpfInjectionMsg.payloadLen, prepareBpfMessage, BitVec.toNat_ofInt]
  exact Int.toNat_of_nonneg (Int.emod_nonneg size (by decide))

/-- Written into the device, a prepared message of whole words shows the header
of a program injection, whatever type was asked for, and the setup reads a first
part of its payload: all its instructions exactly when the size fits the length
field. -/
theorem prepared_read_back_iff {Device : Type u} (region : Region Device) (path : Nat → Byte)
    (type size : Int) (before : Device) (aligned : size % 4 = 0) :
    let after := (mywrite region (prepareBpfMessage path type size) newdevBuf before).2
    let mmio : Nat → Word := fun offset => region.ioread32 after offset
    MsgHeader.ofWord (mmio newdevBuf) =
        ⟨BitVec.ofNat 8 defaultVersion, BitVec.ofNat 8 programInjection, BitVec.ofInt 16 size⟩ ∧
      Holds path 0 (insnBytes (bufferInsns mmio)) ∧
      (((bufferInsns mmio).length : Int) = size / 8 ↔ 0 ≤ size ∧ size < 65536) := by
  intro after mmio
  let mymsg := prepareBpfMessage path type size
  have length : (mymsg.payloadLen : Int) = size % 65536 := prepared_length path type size
  have whole : mymsg.payloadLen % 4 = 0 := by omega
  have written : Written region mymsg newdevBuf before after := by
    simp only [after, mywrite_stores region mymsg newdevBuf before whole, mymsg]
    exact run_written region mymsg newdevBuf before whole
  have recovered : Recovered mymsg mmio := written_recovered region mymsg before after written
  refine ⟨?_, recovered.insns, ?_⟩
  · have header : mmio newdevBuf = mymsg.header.toWord := written.header
    rw [header, MsgHeader.of_word_to_word]
    rfl
  · rw [recovered.count]
    omega

theorem long_program_cut :
    let after := (mywrite byteRegion (prepareBpfMessage (fun _ => 0x95#8) programMemoryInfo 65544)
      newdevBuf fun _ => 0#8).2
    let mmio : Nat → Word := fun offset => byteRegion.ioread32 after offset
    MsgHeader.ofWord (mmio newdevBuf) = ⟨1#8, BitVec.ofNat 8 programInjection, 8#16⟩ ∧
      ((bufferInsns mmio).length : Int) ≠ 65544 / 8 := by
  intro after mmio
  have read_back := prepared_read_back_iff byteRegion (fun _ => 0x95#8) programMemoryInfo 65544
    (fun _ => 0#8) rfl
  exact ⟨read_back.1, mt read_back.2.2.mp (by decide)⟩

end Prepared

end EbpfInjection.MessageWriter
