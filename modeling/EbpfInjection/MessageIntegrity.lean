import EbpfInjection.LatestMessage

/-!
Where an installed program comes from. The type travels through `program_type`,
set when the interrupt is handled; header and instructions are read later, word
by word. The counts a copy carries tell whether a message arrived in between.
-/

namespace EbpfInjection.MessageIntegrity
open LittleEndian InjectionMessage HelperFixup ProgramSetup InjectionMachine LatestMessage
open TransitionSystem

def lastOf (sent : List Message) (count : Nat) : Option Message := (sent.take count).getLast?

def typeAt (sent : List Message) (count : Nat) : Byte :=
  ((lastOf sent count).map Message.programType).getD 0#8

theorem last_of_all (sent : List Message) : lastOf sent sent.length = sent.getLast? := by
  rw [lastOf, List.take_length]

theorem last_of_append (sent : List Message) (message : Message) (count : Nat)
    (bound : count ≤ sent.length) : lastOf (sent ++ [message]) count = lastOf sent count := by
  rw [lastOf, List.take_append_of_le_length bound, lastOf]

theorem last_of_mem (sent : List Message) (count : Nat) (message : Message)
    (found : lastOf sent count = some message) : message ∈ sent :=
  List.mem_of_mem_take (List.mem_of_getLast? found)

def TypeTraced (sent : List Message) (programType : Byte) (typedAt : Nat) : Prop :=
  typedAt ≤ sent.length ∧ programType = typeAt sent typedAt

def HandlerTraced (sent : List Message) : Handler → Prop
  | .dispatch irqStatus seen => seen ≤ sent.length ∧
      ∀ type, injectionOf irqStatus = some type →
        ∃ message, lastOf sent seen = some message ∧ message.type = type
  | _ => True

structure CopyTraced (sent : List Message) (copy : Copy) : Prop where
  type : copy.programType = typeAt sent copy.typedAt
  order : copy.typedAt ≤ copy.readAt
  past : copy.readAt ≤ sent.length
  part : copy.typedAt = copy.readAt →
    ∀ message, lastOf sent copy.typedAt = some message → PartOf message copy

def WorkerTraced (sent : List Message) : Worker → Prop
  | .typed programType typedAt => TypeTraced sent programType typedAt
  | .copying copy => CopyTraced sent copy
  | _ => True

def InstallTraced (text : KernelText) (sent : List Message) (install : Install) : Prop :=
  CopyTraced sent install.copy ∧ ¬ install.copy.cells.length < install.copy.jmax ∧
    ∃ name, prognameFromIdx install.copy.programId = some name ∧
      install.prog = some (buildProg name (install.copy.insns.map (resolveCall text)))

structure Traced (text : KernelText) (state : State) : Prop where
  latest : Latest state
  type : TypeTraced state.sent state.programType state.typedAt
  handler : HandlerTraced state.sent state.handler
  worker : WorkerTraced state.sent state.worker
  installs : ∀ install ∈ state.installs, InstallTraced text state.sent install

section Arrival
variable (sent : List Message) (message : Message)

theorem type_traced_append (programType : Byte) (typedAt : Nat)
    (traced : TypeTraced sent programType typedAt) :
    TypeTraced (sent ++ [message]) programType typedAt := by
  rcases traced with ⟨bound, same⟩
  constructor
  · simp only [List.length_append]
    omega
  · rw [same, typeAt, typeAt, last_of_append sent message typedAt bound]

theorem copy_traced_append (copy : Copy) (traced : CopyTraced sent copy) :
    CopyTraced (sent ++ [message]) copy := by
  have bound := Nat.le_trans traced.order traced.past
  have typed := type_traced_append sent message _ _ ⟨bound, traced.type⟩
  refine ⟨typed.2, traced.order, ?_, ?_⟩
  · have past := traced.past
    simp only [List.length_append]
    omega
  · intro same last found
    rw [last_of_append sent message _ bound] at found
    exact traced.part same last found

theorem handler_traced_append (handler : Handler) (traced : HandlerTraced sent handler) :
    HandlerTraced (sent ++ [message]) handler := by
  cases handler with
  | dispatch irqStatus seen =>
      rcases traced with ⟨bound, source⟩
      constructor
      · simp only [List.length_append]
        omega
      · intro type asked
        rw [last_of_append sent message seen bound]
        exact source type asked
  | idle | schedule | reporting | ack => trivial

theorem worker_traced_append (worker : Worker) (traced : WorkerTraced sent worker) :
    WorkerTraced (sent ++ [message]) worker := by
  cases worker with
  | typed programType typedAt => exact type_traced_append sent message _ _ traced
  | copying copy => exact copy_traced_append sent message copy traced
  | idle | entered | running | dead => trivial

theorem install_traced_append (text : KernelText) (install : Install)
    (traced : InstallTraced text sent install) :
    InstallTraced text (sent ++ [message]) install :=
  ⟨copy_traced_append sent message install.copy traced.1, traced.2⟩

end Arrival

theorem boot_traced (text : KernelText) (words : Nat → Word) : Traced text (boot words) where
  latest := boot_latest words
  type := ⟨Nat.le_refl _, rfl⟩
  handler := trivial
  worker := trivial
  installs := nofun

/-- The first read of the buffer after a read of `program_type`. -/
theorem header_traced (state : State) (latest : Latest state) (programType : Byte) (typedAt : Nat)
    (traced : TypeTraced state.sent programType typedAt) :
    CopyTraced state.sent
      ⟨programType, typedAt, state.buffer newdevBuf, [], state.sent.length⟩ := by
  refine ⟨traced.2, traced.1, Nat.le_refl _, ?_⟩
  intro same message found
  have shown : typedAt = state.sent.length := same
  have type : programType = message.programType := by
    rw [traced.2, typeAt, show lastOf state.sent typedAt = some message from found]
    rfl
  rw [shown, last_of_all] at found
  rw [type]
  exact part_of_start message state.buffer (latest.stored message found).1 typedAt _

/-- One more word keeps a copy traced: if no message arrived up to now, none
had arrived at the reads before. -/
theorem word_traced (state : State) (latest : Latest state) (copy : Copy)
    (more : copy.cells.length < copy.jmax) (traced : CopyTraced state.sent copy) :
    CopyTraced state.sent { copy with
      cells := copy.cells ++ [state.buffer (payloadOffset copy.cells.length)]
      readAt := state.sent.length } := by
  refine ⟨traced.type, Nat.le_trans traced.order traced.past, Nat.le_refl _, ?_⟩
  intro same message found
  have shown : copy.typedAt = state.sent.length := same
  -- the count only grows, so the read before was undisturbed too
  have before : copy.typedAt = copy.readAt :=
    Nat.le_antisymm traced.order (shown ▸ traced.past)
  have part := traced.part before message found
  rw [show lastOf state.sent copy.typedAt = some message ↔
    state.sent.getLast? = some message by rw [shown, last_of_all]] at found
  exact part_of_read message copy state.buffer (latest.stored message found).1 _ part more

theorem moves_traced (text : KernelText) (state next : State) (action : Action)
    (traced : Traced text state) (injecting : Injecting action)
    (moves : Moves text state action next) : Traced text next := by
  have latest := moves_latest text state next action traced.latest injecting moves
  rcases traced with ⟨latestBefore, type, handler, worker, installs⟩
  cases moves with
  | inject message =>
      constructor
      · exact latest
      · exact type_traced_append _ message _ _ type
      · exact handler_traced_append _ message _ handler
      · exact worker_traced_append _ message _ worker
      · intro install member
        exact install_traced_append _ message text install (installs install member)
  | raise status other => exact injecting.elim
  | enter at_handler =>
      refine ⟨latest, type, ⟨Nat.le_refl _, ?_⟩, worker, installs⟩
      intro asked found
      rw [last_of_all]
      exact latest_asked state latestBefore asked found
  | setType irqStatus seen asked at_handler found =>
      rw [at_handler] at handler
      obtain ⟨message, last, same⟩ := handler.2 asked found
      refine ⟨latest, ⟨handler.1, ?_⟩, trivial, worker, installs⟩
      simp [typeAt, last, Message.programType, same]
  | startReport scan irqStatus seen at_handler => exact injecting.elim
  | writeReport irqStatus seen offset value todo at_handler =>
      exact absurd at_handler (latestBefore.noReport irqStatus seen _)
  | endReport irqStatus seen at_handler =>
      exact absurd at_handler (latestBefore.noReport irqStatus seen _)
  | ignore | schedule | acknowledge => exact ⟨latest, type, trivial, worker, installs⟩
  | start | refused | died | failed | run => exact ⟨latest, type, handler, trivial, installs⟩
  | readType answers at_worker => exact ⟨latest, type, handler, type, installs⟩
  | readHeader answers programType typedAt at_worker =>
      rw [at_worker] at worker
      exact ⟨latest, type, handler, header_traced state latestBefore _ _ worker, installs⟩
  | readWord answers copy at_worker more =>
      rw [at_worker] at worker
      exact ⟨latest, type, handler, word_traced state latestBefore copy more worker, installs⟩
  | built answers copy guest name at_worker complete named installed =>
      rw [at_worker] at worker
      refine ⟨latest, type, handler, trivial, ?_⟩
      intro install member
      rcases List.mem_append.mp member with old | new
      · exact installs install old
      · rw [List.mem_singleton.mp new]
        exact ⟨worker, complete, name, named, rfl⟩

theorem run_traced (text : KernelText) (words : Nat → Word) (history : List Action) (state : State)
    (injecting : ∀ action ∈ history, Injecting action)
    (replay : run (step text) (boot words) history = some state) : Traced text state :=
  guarded_invariant (step text) (Traced text) (fun _ action => Injecting action)
    (fun before action after traced meets taken =>
      moves_traced text before after action traced meets
        (step_moves text before after action taken))
    (boot_traced text words) (along_of_forall (step text) Injecting _ history injecting) replay

/-- No host message arrived from the handler's read of the status register,
which set the `program_type` of this copy, to the copy's last read. -/
def Undisturbed (copy : Copy) : Prop := copy.typedAt = copy.readAt

def FromMessage (message : Message) (copy : Copy) : Prop :=
  copy.size = message.size ∧ copy.insns = message.insns ∧
    copy.programId = getProgTypeFromIrq message.programType

instance (copy : Copy) : Decidable (Undisturbed copy) := inferInstanceAs (Decidable (_ = _))

instance (message : Message) (copy : Copy) : Decidable (FromMessage message copy) :=
  inferInstanceAs (Decidable (_ ∧ _ ∧ _))

/-- In every interleaving, a program installed from an undisturbed copy is the
program of one message the host sent. -/
theorem undisturbed_from_message (text : KernelText) (words : Nat → Word) (history : List Action)
    (state : State)
    (injecting : ∀ action ∈ history, Injecting action)
    (replay : run (step text) (boot words) history = some state) (install : Install)
    (installed : install ∈ state.installs) (undisturbed : Undisturbed install.copy) :
    ∃ message ∈ state.sent, FromMessage message install.copy ∧
      install.prog = some (message.program text) := by
  have traced := run_traced text words history state injecting replay
  obtain ⟨copied, complete, name, named, filled⟩ := traced.installs install installed
  cases found : lastOf state.sent install.copy.typedAt with
  | none =>
      -- before the first message `program_type` has no name
      have unset : install.copy.programType = 0#8 := by simp [copied.type, typeAt, found]
      rw [Copy.programId, unset] at named
      cases named
  | some message =>
      have part := copied.part undisturbed message found
      have same : FromMessage message install.copy := by
        refine ⟨part_of_size message install.copy part,
          part_of_complete message install.copy part complete, ?_⟩
        rw [Copy.programId, part.type]
      refine ⟨message, last_of_mem _ _ message found, same, ?_⟩
      rw [filled, part_of_program message install.copy text name part complete named]

def plainHistory : List Action :=
  [.inject exitMessage, .handle, .handle, .handle, .handle] ++ List.replicate 7 (.work served)

theorem plain_install_from_message :
    ∃ state install, run (step ⟨0, 0, 0, 0⟩) (boot fun _ => 0#32) plainHistory = some state ∧
      install ∈ state.installs ∧ Undisturbed install.copy ∧
      ∃ message ∈ state.sent, FromMessage message install.copy ∧
        install.prog = some (message.program ⟨0, 0, 0, 0⟩) := by
  have reached : (run (step ⟨0, 0, 0, 0⟩) (boot fun _ => 0#32) plainHistory).any (fun state =>
      state.installs.any fun install => Undisturbed install.copy) = true := by decide
  obtain ⟨state, replay, checked⟩ := (Option.any_eq_true _ _).mp reached
  obtain ⟨install, installed, undisturbed⟩ := List.any_eq_true.mp checked
  have quiet := of_decide_eq_true undisturbed
  exact ⟨state, install, replay, installed, quiet,
    undisturbed_from_message _ _ plainHistory state (by simp [plainHistory, Injecting]) replay
      install installed quiet⟩

/-- The second message arrives between the header and the payload reads. -/
def overtakenHistory : List Action :=
  [.inject exitMessage, .handle, .handle, .handle, .handle] ++ List.replicate 3 (.work served) ++
    [.inject moveMessage] ++ List.replicate 3 (.work served)

theorem overtaken_install_mixed :
    ∃ state, (∀ action ∈ overtakenHistory, Injecting action) ∧
      run (step ⟨0, 0, 0, 0⟩) (boot fun _ => 0#32) overtakenHistory = some state ∧
      ∃ install ∈ state.installs, ∀ message ∈ state.sent, ¬ FromMessage message install.copy := by
  have reached : (run (step ⟨0, 0, 0, 0⟩) (boot fun _ => 0#32) overtakenHistory).any (fun state =>
      state.installs.any fun install =>
        state.sent.all fun message => ¬ FromMessage message install.copy) = true := by decide
  obtain ⟨state, replay, checked⟩ := (Option.any_eq_true _ _).mp reached
  refine ⟨state, by simp [overtakenHistory, Injecting], replay, ?_⟩
  simpa using checked

end EbpfInjection.MessageIntegrity
