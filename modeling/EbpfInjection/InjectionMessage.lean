import EbpfInjection.LittleEndian

/-!
The injection message of `bpf_injection_msg.h`, of which the host and the
driver keep separate copies, and the eight-byte eBPF instruction it carries.
A header is four bytes: version, type and the payload length in bytes, low
byte first. Offsets are those of the device's buffer region.
-/

namespace EbpfInjection.InjectionMessage
open LittleEndian

/-! Type and version defines, as both header files have them. -/
def programInjection : Nat := 1
def programMemoryInfo : Nat := 3
def programSetMaximumOrder : Nat := 4
def firstRoundMigrationStart : Nat := 5
def firstRoundMigration : Nat := 20
def defaultVersion : Nat := 1

/-! Register and buffer offsets of `driver.c`. -/
def newdevRegDoorbell : Nat := 8
def newdevBuf : Nat := 16
def headerOffset : Nat := 4

structure MsgHeader where
  version : Byte
  type : Byte
  payloadLen : BitVec 16
  deriving DecidableEq

namespace MsgHeader

def bytes (header : MsgHeader) : List Byte :=
  [header.version, header.type, byteOf header.payloadLen 0, byteOf header.payloadLen 1]

/-- `*(u32 *)&header`. -/
def toWord (header : MsgHeader) : Word :=
  word header.version header.type (byteOf header.payloadLen 0) (byteOf header.payloadLen 1)

/-- `(struct bpf_injection_msg_header *)&word`. -/
def ofWord (value : Word) : MsgHeader :=
  { version := value.extractLsb' 0 8
    type := value.extractLsb' 8 8
    payloadLen := value.extractLsb' 16 16 }

@[simp] theorem of_word_to_word (header : MsgHeader) : ofWord header.toWord = header := by
  rcases header with ⟨version, type, payloadLen⟩
  have versionBound := version.isLt
  have typeBound := type.isLt
  have lengthBound := payloadLen.isLt
  simp only [ofWord, toWord, mk.injEq]
  refine ⟨?_, ?_, ?_⟩ <;>
    (apply BitVec.eq_of_toNat_eq; simp only [field_to_nat, word_to_nat, byte_of_to_nat]; omega)

theorem words_bytes (header : MsgHeader) : words header.bytes = [header.toWord] := rfl

theorem bytes_injective (header other : MsgHeader) (same : header.bytes = other.bytes) :
    header = other := by
  have loaded : [header.toWord] = [other.toWord] := by
    rw [← words_bytes header, ← words_bytes other, same]
  rw [← of_word_to_word header, List.singleton_inj.mp loaded, of_word_to_word]

theorem load_header (memory : Nat → Byte) (base : Nat) (header : MsgHeader)
    (held : Holds memory base header.bytes) : load32 memory base = header.toWord := by
  rcases held with ⟨h0, h1, h2, h3, -⟩
  rw [load32, h0, h1, h2, h3, toWord]

end MsgHeader

structure BpfInsn where
  code : Byte
  dstReg : BitVec 4
  srcReg : BitVec 4
  off : BitVec 16
  imm : Word
  deriving DecidableEq

namespace BpfInsn

def bytes (insn : BpfInsn) : List Byte :=
  [insn.code, nibbles insn.dstReg insn.srcReg, byteOf insn.off 0, byteOf insn.off 1] ++
    wordBytes insn.imm

def ofWords (low high : Word) : BpfInsn :=
  { code := low.extractLsb' 0 8
    dstReg := low.extractLsb' 8 4
    srcReg := low.extractLsb' 12 4
    off := low.extractLsb' 16 16
    imm := high }

def lowWord (insn : BpfInsn) : Word :=
  word insn.code (nibbles insn.dstReg insn.srcReg) (byteOf insn.off 0) (byteOf insn.off 1)

theorem of_words_exact (insn : BpfInsn) : ofWords insn.lowWord insn.imm = insn := by
  rcases insn with ⟨code, dstReg, srcReg, off, imm⟩
  have codeBound := code.isLt
  have dstBound := dstReg.isLt
  have srcBound := srcReg.isLt
  have offBound := off.isLt
  simp only [ofWords, lowWord, mk.injEq, and_true]
  refine ⟨?_, ?_, ?_, ?_⟩ <;>
    (apply BitVec.eq_of_toNat_eq
     simp only [field_to_nat, word_to_nat, nibbles_to_nat, byte_of_to_nat]
     omega)

theorem words_bytes (insn : BpfInsn) (rest : List Byte) :
    words (insn.bytes ++ rest) = insn.lowWord :: insn.imm :: words rest := by
  simp only [bytes, List.cons_append, List.nil_append, words, words_word_bytes, lowWord]

theorem bytes_of_words (low high : Word) :
    (ofWords low high).bytes = wordBytes low ++ wordBytes high := by
  have registers : nibbles (low.extractLsb' 8 4) (low.extractLsb' 12 4) = byteOf low 1 := by
    apply BitVec.eq_of_toNat_eq
    simp only [nibbles_to_nat, field_to_nat, byte_of_to_nat]
    omega
  have offLow : byteOf (low.extractLsb' 16 16) 0 = byteOf low 2 := by
    apply BitVec.eq_of_toNat_eq
    simp only [field_to_nat, byte_of_to_nat]
    omega
  have offHigh : byteOf (low.extractLsb' 16 16) 1 = byteOf low 3 := by
    apply BitVec.eq_of_toNat_eq
    simp only [field_to_nat, byte_of_to_nat]
    omega
  simp only [ofWords, bytes, registers, offLow, offHigh]
  rfl

theorem bytes_length (insn : BpfInsn) : insn.bytes.length = 8 := rfl

end BpfInsn

def insnsOfWords : List Word → List BpfInsn
  | low :: high :: rest => BpfInsn.ofWords low high :: insnsOfWords rest
  | _ => []

def insnBytes (insns : List BpfInsn) : List Byte := insns.flatMap BpfInsn.bytes

theorem insn_bytes_length (insns : List BpfInsn) :
    (insnBytes insns).length = 8 * insns.length := by
  induction insns with
  | nil => rfl
  | cons insn rest ih =>
      simp only [insnBytes, List.flatMap_cons, List.length_append, BpfInsn.bytes_length,
        List.length_cons] at ih ⊢
      omega

theorem insns_of_words_exact (insns : List BpfInsn) :
    insnsOfWords (words (insnBytes insns)) = insns := by
  induction insns with
  | nil => rfl
  | cons insn rest ih =>
      simp only [insnBytes, List.flatMap_cons, BpfInsn.words_bytes, insnsOfWords,
        BpfInsn.of_words_exact] at ih ⊢
      rw [ih]

theorem insns_of_words_length (copied : List Word) :
    (insnsOfWords copied).length = copied.length / 2 := by
  fun_induction insnsOfWords copied with
  | case1 low high rest ih =>
      simp only [List.length_cons, ih]
      omega
  | case2 copied short =>
      match copied, short with
      | [], _ | [_], _ => simp
      | low :: high :: rest, short => exact (short low high rest rfl).elim

theorem insns_of_words_take (copied : List Word) (count : Nat) :
    insnsOfWords (copied.take count) = (insnsOfWords copied).take (count / 2) := by
  fun_induction insnsOfWords copied generalizing count with
  | case1 low high rest ih =>
      match count with
      | 0 | 1 => rfl
      | count + 2 =>
          have later : (count + 2) / 2 = count / 2 + 1 := by omega
          simp only [List.take_succ_cons, insnsOfWords, ih count, later]
  | case2 copied short =>
      match copied, short with
      | [], _ => simp [insnsOfWords]
      | [_], _ => cases count <;> simp [insnsOfWords]
      | low :: high :: rest, short => exact (short low high rest rfl).elim

theorem insn_bytes_of_words (copied : List Word) (whole : copied.length % 2 = 0) :
    insnBytes (insnsOfWords copied) = copied.flatMap wordBytes := by
  fun_induction insnsOfWords copied with
  | case1 low high rest ih =>
      have later := ih (by simp only [List.length_cons] at whole; omega)
      rw [insnBytes] at later ⊢
      rw [List.flatMap_cons, later, BpfInsn.bytes_of_words, List.flatMap_cons, List.flatMap_cons,
        List.append_assoc]
  | case2 copied short =>
      match copied, short with
      | [], _ => rfl
      | [_], _ => simp at whole
      | low :: high :: rest, short => exact (short low high rest rfl).elim

/-! The host asks for one of three programs. `program_type` is the byte the
interrupt handler leaves for the work item. -/
inductive InjectionType where
  | injection
  | memoryInfo
  | setMaximumOrder
  deriving DecidableEq

def InjectionType.code : InjectionType → Nat
  | .injection => programInjection
  | .memoryInfo => programMemoryInfo
  | .setMaximumOrder => programSetMaximumOrder

/-! Program indices of `driver.h`. -/
def bpfhvProgNone : Nat := 0
def bpfhvProgTest : Nat := 1
def bpfhvProgGetMemoryInfo : Nat := 2
def bpfhvProgSetMaximumPageOrder : Nat := 3

def getProgTypeFromIrq (programType : Byte) : Nat :=
  if programType.toNat = programInjection then bpfhvProgTest
  else if programType.toNat = programMemoryInfo then bpfhvProgGetMemoryInfo
  else if programType.toNat = programSetMaximumOrder then bpfhvProgSetMaximumPageOrder
  else bpfhvProgNone

/-- `none` is the NULL that an index without a name gives. -/
def prognameFromIdx (progIdx : Nat) : Option String :=
  if progIdx = bpfhvProgTest then some "test"
  else if progIdx = bpfhvProgGetMemoryInfo then some "get_memory_info"
  else if progIdx = bpfhvProgSetMaximumPageOrder then some "set_max_page_order"
  else none

/-- A program name exists exactly for the three injection types. -/
theorem progname_exists_iff (programType : Byte) :
    (prognameFromIdx (getProgTypeFromIrq programType)).isSome ↔
      ∃ type : InjectionType, programType.toNat = type.code := by
  unfold getProgTypeFromIrq
  constructor
  · intro named
    split at named
    · exact ⟨.injection, by assumption⟩
    · split at named
      · exact ⟨.memoryInfo, by assumption⟩
      · split at named
        · exact ⟨.setMaximumOrder, by assumption⟩
        · cases named
  · rintro ⟨type, same⟩
    rw [same]
    cases type <;> decide

theorem type_named (type : InjectionType) :
    ∃ name, prognameFromIdx (getProgTypeFromIrq (BitVec.ofNat 8 type.code)) = some name := by
  cases type <;> exact ⟨_, rfl⟩

theorem code_named (type : InjectionType) :
    (prognameFromIdx (getProgTypeFromIrq (BitVec.ofNat 8 type.code))).isSome = true :=
  Option.isSome_iff_exists.mpr (type_named type)

end EbpfInjection.InjectionMessage
