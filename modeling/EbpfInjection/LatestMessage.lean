import EbpfInjection.InjectionMachine

/-!
Runs of the machine in which every interrupt is for a host message. The last
message then stands in the buffer and its type in the status register, whatever
the handler and the worker do. A copy read from one stored message is a part
of that message, and a complete one is the message's program.
-/

namespace EbpfInjection.LatestMessage
open LittleEndian InjectionMessage HelperFixup ProgramSetup InjectionMachine TransitionSystem

/-- Messages, handler and worker only. -/
def Injecting : Action → Prop
  | .raise _ | .report _ => False
  | .inject _ | .handle | .work _ => True

@[simp] theorem injection_of_code (type : InjectionType) :
    injectionOf (BitVec.ofNat 32 type.code) = some type := by
  cases type <;> rfl

structure StoredAs (message : Message) (buffer : Nat → Cell) : Prop where
  header : buffer newdevBuf = ⟨message.header.toWord, .host⟩
  payload : ∀ j value, message.payload[j]? = some value →
    buffer (payloadOffset j) = ⟨value, .host⟩

theorem payload_offset_index (j : Nat) :
    payloadOffset j ≠ newdevBuf ∧ ¬ payloadOffset j < newdevBuf + headerOffset ∧
      (payloadOffset j - (newdevBuf + headerOffset)) / 4 = j := by
  unfold payloadOffset newdevBuf headerOffset
  omega

theorem store_message_stored (message : Message) (buffer : Nat → Cell) :
    StoredAs message (storeMessage message buffer) := by
  constructor
  · simp [storeMessage]
  · intro j value found
    obtain ⟨apart, behind, index⟩ := payload_offset_index j
    simp [storeMessage, apart, behind, index, found]

structure PartOf (message : Message) (copy : Copy) : Prop where
  type : copy.programType = message.programType
  header : copy.header.value = message.header.toWord
  words : copy.cells.map Cell.value = message.payload.take copy.cells.length
  bound : copy.cells.length ≤ copy.jmax

section PartOf
variable (message : Message) (copy : Copy)

theorem part_of_size (part : PartOf message copy) : copy.size = message.size := by
  rw [Copy.size, part.header, MsgHeader.of_word_to_word]
  rfl

theorem announced_covered : message.size * 8 / 4 ≤ message.payload.length := by
  have covered := message.covered
  unfold Message.size
  omega

theorem part_of_start (buffer : Nat → Cell) (stored : StoredAs message buffer)
    (typedAt readAt : Nat) :
    PartOf message ⟨message.programType, typedAt, buffer newdevBuf, [], readAt⟩ :=
  { type := rfl
    header := by rw [stored.header]
    words := by simp
    bound := Nat.zero_le _ }

theorem part_of_read (buffer : Nat → Cell) (stored : StoredAs message buffer) (readAt : Nat)
    (part : PartOf message copy) (more : copy.cells.length < copy.jmax) :
    PartOf message { copy with
      cells := copy.cells ++ [buffer (payloadOffset copy.cells.length)]
      readAt } := by
  have inside : copy.cells.length < message.payload.length := by
    have covered := announced_covered message
    rw [Copy.jmax, part_of_size message copy part] at more
    omega
  have cell := stored.payload _ _ (List.getElem?_eq_getElem inside)
  refine { part with words := ?_, bound := ?_ }
  · rw [List.length_append, List.length_singleton, List.take_succ_eq_append_getElem inside,
      List.map_append, part.words, cell]
    rfl
  · rw [List.length_append, List.length_singleton]
    exact more

/-- A complete copy decodes to what the message carries. -/
theorem part_of_complete (part : PartOf message copy)
    (complete : ¬ copy.cells.length < copy.jmax) : copy.insns = message.insns := by
  have bound := part.bound
  have count : copy.cells.length = message.size * 8 / 4 := by
    rw [← part_of_size message copy part]
    exact Nat.le_antisymm bound (Nat.le_of_not_lt complete)
  rw [Copy.insns, part.words, count, Message.insns]

theorem part_of_program (text : KernelText) (name : String) (part : PartOf message copy)
    (complete : ¬ copy.cells.length < copy.jmax)
    (named : prognameFromIdx copy.programId = some name) :
    buildProg name (copy.insns.map (resolveCall text)) = message.program text := by
  rw [Copy.programId, part.type] at named
  rw [Message.program, named, part_of_complete message copy part complete]
  rfl

end PartOf

structure Latest (state : State) : Prop where
  stored : ∀ message, state.sent.getLast? = some message →
    StoredAs message state.buffer ∧ state.status = BitVec.ofNat 32 message.type.code
  silent : state.sent = [] → injectionOf state.status = none
  noReport : ∀ irqStatus seen todo, state.handler ≠ .reporting irqStatus seen todo

theorem latest_asked (state : State) (latest : Latest state) (type : InjectionType)
    (asked : injectionOf state.status = some type) :
    ∃ message, state.sent.getLast? = some message ∧ message.type = type := by
  cases last : state.sent.getLast? with
  | none =>
      rw [latest.silent (List.getLast?_eq_none_iff.mp last)] at asked
      cases asked
  | some message =>
      rw [(latest.stored message last).2, injection_of_code] at asked
      exact ⟨message, rfl, Option.some.inj asked⟩

theorem boot_latest (words : Nat → Word) : Latest (boot words) where
  stored := nofun
  silent := fun _ => rfl
  noReport := nofun

theorem moves_latest (text : KernelText) (state next : State) (action : Action)
    (latest : Latest state) (injecting : Injecting action)
    (moves : Moves text state action next) : Latest next := by
  cases moves with
  | inject message =>
      constructor
      · intro last found
        have same : message = last := by simpa [inject] using found
        subst same
        exact ⟨store_message_stored message state.buffer, rfl⟩
      · simp [inject]
      · exact latest.noReport
  | raise status other => exact injecting.elim
  | startReport scan irqStatus seen at_handler => exact injecting.elim
  | writeReport irqStatus seen offset value todo at_handler =>
      exact absurd at_handler (latest.noReport irqStatus seen _)
  | endReport irqStatus seen at_handler =>
      exact absurd at_handler (latest.noReport irqStatus seen _)
  | enter | setType | ignore | schedule | acknowledge => exact ⟨latest.stored, latest.silent, nofun⟩
  | start | readType | refused | readHeader | readWord | died | failed | built | run =>
      exact ⟨latest.stored, latest.silent, latest.noReport⟩

/-! Two messages of one instruction each: the test program with an `exit`, and
the memory-info program with a move before it. -/
def exitMessage : Message :=
  { version := 1#8
    type := .injection
    payloadLen := 8#16
    payload := [0x95#32, 0#32]
    covered := by decide }

def moveMessage : Message :=
  { version := 1#8
    type := .memoryInfo
    payloadLen := 8#16
    payload := [0xb7#32, 7#32]
    covered := by decide }

def served : Answers := ⟨true, true, true⟩

end EbpfInjection.LatestMessage
