import EbpfInjection.LatestMessage

/-!
One activation for each message. The buffer, `program_type` and the pending mark
hold one message; the host that waits until the worker has read a message
before it sends the next one finds them executed one by one, in order. An
acknowledgement alone does not say that the message has been read.
-/

namespace EbpfInjection.PacedInjection
open LittleEndian InjectionMessage HelperFixup ProgramSetup InjectionMachine LatestMessage
open TransitionSystem

/-- The handler runs for an outstanding interrupt, which is for a message. -/
def Prompted (state : State) : Action → Prop
  | .handle => state.handler = .idle → state.irq = true
  | .raise _ | .report _ => False
  | .inject _ | .work _ => True

def Acknowledged (state : State) (action : Action) : Prop :=
  Prompted state action ∧ ∀ message, action = .inject message → state.irq = false

def Reading : Worker → Prop
  | .entered | .typed _ _ => True
  | .copying copy => copy.cells.length < copy.jmax
  | .idle | .running _ | .dead => False

/-- Every message is sent only after the previous one was acknowledged and read:
no activation is due, and none is still reading. -/
def Paced (state : State) : Action → Prop
  | .inject _ => state.irq = false ∧ state.pending = false ∧ ¬ Reading state.worker
  | action => Prompted state action

section Decidability

instance (state : State) : (action : Action) → Decidable (Prompted state action)
  | .handle => inferInstanceAs (Decidable (state.handler = .idle → state.irq = true))
  | .raise _ | .report _ => isFalse id
  | .inject _ | .work _ => isTrue trivial

instance (state : State) : (action : Action) → Decidable (Acknowledged state action)
  | .inject message => decidable_of_iff (state.irq = false) (by simp [Acknowledged, Prompted])
  | .raise _ | .report _ => isFalse fun acknowledged => acknowledged.1
  | .handle => decidable_of_iff (Prompted state .handle) (by simp [Acknowledged])
  | .work answers => isTrue ⟨trivial, nofun⟩

instance : (worker : Worker) → Decidable (Reading worker)
  | .entered | .typed _ _ => isTrue trivial
  | .copying copy => inferInstanceAs (Decidable (copy.cells.length < copy.jmax))
  | .idle | .running _ | .dead => isFalse id

instance (state : State) : (action : Action) → Decidable (Paced state action)
  | .inject _ => inferInstanceAs (Decidable (_ ∧ _ ∧ ¬ _))
  | .raise status => inferInstanceAs (Decidable (Prompted state (.raise status)))
  | .report scan => inferInstanceAs (Decidable (Prompted state (.report scan)))
  | .handle => inferInstanceAs (Decidable (Prompted state .handle))
  | .work answers => inferInstanceAs (Decidable (Prompted state (.work answers)))

end Decidability

/-! Every message sent is in one of four places: run, with the worker, pending,
or with the handler. -/

def withWorker : Worker → Nat
  | .idle => 0
  | _ => 1

def withHandler (irq : Bool) : Handler → Nat
  | .idle => if irq then 1 else 0
  | .dispatch _ _ | .schedule _ _ => 1
  | .reporting _ _ _ | .ack _ _ => 0

def BuiltFrom (text : KernelText) (message : Message) (prog : Option BpfProg) : Prop :=
  HelpersKnown message.insns ∧ prog = some (message.program text)

def RanInOrder (text : KernelText) (sent : List Message) (runs : List Run) : Prop :=
  ∀ (i : Nat) (activation : Run), runs[i]? = some activation →
    ∃ message : Message, sent[i]? = some message ∧
      (activation.built = true → BuiltFrom text message activation.prog)

def WorkerHolds (text : KernelText) (state : State) : Prop :=
  match state.worker with
  | .idle | .entered => True
  | .typed programType _ => ∃ message, state.sent[state.runs.length]? = some message ∧
      programType = message.programType
  | .copying copy => ∃ message, state.sent[state.runs.length]? = some message ∧
      PartOf message copy
  | .running built => ∃ message, state.sent[state.runs.length]? = some message ∧
      (built = true → BuiltFrom text message state.injected)
  | .dead => False

def HandlerHolds (state : State) : Prop :=
  match state.handler with
  | .idle => state.acknowledged + (if state.irq then 1 else 0) = state.sent.length
  | .dispatch irqStatus seen => state.irq = true ∧ state.fresh = false ∧
      seen = state.sent.length ∧ state.acknowledged + 1 = state.sent.length ∧
      ∀ last, state.sent.getLast? = some last → irqStatus = BitVec.ofNat 32 last.type.code
  | .schedule _ seen | .ack _ seen => state.irq = true ∧ state.fresh = false ∧
      seen = state.sent.length ∧ state.acknowledged + 1 = state.sent.length ∧
      ∀ last, state.sent.getLast? = some last → state.programType = last.programType
  | .reporting _ _ _ => False

structure Counted (text : KernelText) (state : State) : Prop where
  latest : Latest state
  ran : RanInOrder text state.sent state.runs
  count : state.runs.length + withWorker state.worker + (if state.pending then 1 else 0) +
    withHandler state.irq state.handler = state.sent.length
  reading : Reading state.worker → state.runs.length + 1 = state.sent.length
  single : withHandler state.irq state.handler = 1 → state.pending = false
  type : withHandler state.irq state.handler = 0 →
    ∀ last, state.sent.getLast? = some last → state.programType = last.programType
  worker : WorkerHolds text state
  handler : HandlerHolds state

theorem boot_counted (text : KernelText) (words : Nat → Word) : Counted text (boot words) where
  latest := boot_latest words
  ran := nofun
  count := rfl
  reading := nofun
  single := nofun
  type := nofun
  worker := trivial
  handler := rfl

section Steps
variable (text : KernelText) (state next : State)

theorem reading_last (sent : List Message) (count : Nat) (message : Message)
    (due : count + 1 = sent.length) :
    sent[count]? = some message ↔ sent.getLast? = some message := by
  rw [List.getLast?_eq_getElem?, ← due, Nat.add_sub_cancel]

theorem paced_injecting (action : Action) (paced : Paced state action) : Injecting action := by
  cases action with
  | raise | report => exact paced.elim
  | inject | handle | work => trivial

theorem ran_in_order_run (sent : List Message) (runs : List Run) (activation : Run)
    (message : Message) (found : sent[runs.length]? = some message)
    (own : activation.built = true → BuiltFrom text message activation.prog)
    (ran : RanInOrder text sent runs) : RanInOrder text sent (runs ++ [activation]) := by
  intro i other present
  by_cases earlier : i < runs.length
  · rw [List.getElem?_append_left earlier] at present
    exact ran i other present
  · rw [List.getElem?_append_right (Nat.le_of_not_lt earlier), List.getElem?_singleton] at present
    split at present
    · rename_i zero
      have last : i = runs.length := by omega
      cases present
      exact ⟨message, last ▸ found, own⟩
    · cases present

theorem found_append (sent : List Message) (message found : Message) (i : Nat)
    (present : sent[i]? = some found) : (sent ++ [message])[i]? = some found := by
  obtain ⟨inside, -⟩ := List.getElem?_eq_some_iff.mp present
  rwa [List.getElem?_append_left inside]

/-- A new message is behind the one the worker has. -/
theorem worker_holds_inject (message : Message) (notReading : ¬ Reading state.worker)
    (worker : WorkerHolds text state) : WorkerHolds text (inject message state) := by
  unfold WorkerHolds at worker ⊢
  simp only [inject]
  cases at_worker : state.worker with
  | typed =>
      rw [at_worker] at notReading
      exact absurd trivial notReading
  | copying copy =>
      simp only [at_worker] at worker
      rcases worker with ⟨own, found, part⟩
      exact ⟨own, found_append _ message own _ found, part⟩
  | running built =>
      simp only [at_worker] at worker
      rcases worker with ⟨own, found, program⟩
      exact ⟨own, found_append _ message own _ found, program⟩
  | dead => simp [at_worker] at worker
  | idle | entered => trivial

theorem inject_counted (message : Message) (counted : Counted text state)
    (paced : Paced state (.inject message)) (latest : Latest (inject message state)) :
    Counted text (inject message state) := by
  rcases paced with ⟨noIrq, notPending, notReading⟩
  rcases counted with ⟨-, ran, count, -, -, -, worker, handler⟩
  unfold HandlerHolds at handler
  cases at_handler : state.handler with
  | idle =>
      simp only [at_handler, noIrq, Bool.false_eq_true, if_false] at handler
      simp only [at_handler, noIrq, notPending, withHandler, Bool.false_eq_true, if_false] at count
      constructor
      · exact latest
      · intro i activation present
        rcases ran i activation present with ⟨own, found, program⟩
        exact ⟨own, found_append _ message own i found, program⟩
      · simp only [inject, at_handler, notPending, withHandler, if_true, Bool.false_eq_true,
          if_false, List.length_append, List.length_singleton]
        omega
      · intro reading
        exact absurd reading notReading
      · intro _
        exact notPending
      · simp [inject, at_handler, withHandler]
      · exact worker_holds_inject text state message notReading worker
      · unfold HandlerHolds
        simp only [inject, at_handler, if_true, List.length_append, List.length_singleton]
        omega
  | dispatch | schedule | ack =>
      simp only [at_handler, noIrq, Bool.false_eq_true, false_and] at handler
  | reporting => simp only [at_handler] at handler

/-- A message stays with the handler until `schedule_work`. -/
theorem handle_counted (counted : Counted text state) (paced : Paced state .handle)
    (latest : Latest next) (moves : Moves text state .handle next) : Counted text next := by
  rcases counted with ⟨latestBefore, ran, count, reading, single, type, worker, handler⟩
  unfold HandlerHolds at handler
  cases moves with
  | enter at_handler =>
      have irq : state.irq = true := paced at_handler
      have notPending := single (by simp [at_handler, irq, withHandler])
      simp only [at_handler, irq, if_true] at handler
      simp only [at_handler, irq, withHandler, if_true] at count
      have status : ∀ last, state.sent.getLast? = some last →
          state.status = BitVec.ofNat 32 last.type.code :=
        fun last shown => (latestBefore.stored last shown).2
      exact ⟨latest, ran, count, reading, fun _ => notPending, nofun, worker,
        irq, rfl, rfl, handler, status⟩
  | setType irqStatus seen found at_handler asked =>
      simp only [at_handler] at handler
      rcases handler with ⟨irq, old, seenAll, due, status⟩
      have notPending := single (by rw [at_handler]; rfl)
      simp only [at_handler, withHandler] at count
      have typed : ∀ last, state.sent.getLast? = some last →
          BitVec.ofNat 8 found.code = last.programType := by
        intro last shown
        rw [status last shown, injection_of_code] at asked
        rw [Message.programType, Option.some.inj asked]
      exact ⟨latest, ran, count, reading, fun _ => notPending, nofun, worker,
        irq, old, seenAll, due, typed⟩
  | ignore irqStatus seen at_handler other =>
      -- the status read is that of a message, so one of the injection cases is taken
      simp only [at_handler] at handler
      rcases handler with ⟨irq, old, seenAll, due, status⟩
      have nonempty : state.sent ≠ [] := fun empty => by simp [empty] at due
      have shown := List.getLast?_eq_some_getLast nonempty
      rw [status _ shown, injection_of_code] at other
      cases other
  | schedule irqStatus seen at_handler =>
      simp only [at_handler] at handler
      have notPending := single (by rw [at_handler]; rfl)
      simp only [at_handler, notPending, withHandler, Bool.false_eq_true, if_false] at count
      have moved : state.runs.length + withWorker state.worker + 1 + 0 = state.sent.length := by
        omega
      exact ⟨latest, ran, moved, reading, nofun, fun _ => handler.2.2.2.2, worker, handler⟩
  | writeReport irqStatus seen offset value todo at_handler =>
      exact absurd at_handler (latestBefore.noReport irqStatus seen _)
  | endReport irqStatus seen at_handler =>
      exact absurd at_handler (latestBefore.noReport irqStatus seen _)
  | acknowledge irqStatus seen at_handler =>
      simp only [at_handler] at handler
      rcases handler with ⟨irq, old, seenAll, due, status⟩
      simp only [at_handler, withHandler] at count
      constructor
      · exact latest
      · exact ran
      · simpa [old, withHandler] using count
      · exact reading
      · simp [old, withHandler]
      · exact fun _ => status
      · exact worker
      · simp [HandlerHolds, old, seenAll]

theorem with_handler_cases (irq : Bool) (handler : Handler) :
    withHandler irq handler = 0 ∨ withHandler irq handler = 1 := by
  cases handler <;> cases irq <;> simp [withHandler]

theorem work_counted (answers : Answers) (counted : Counted text state) (latest : Latest next)
    (moves : Moves text state (.work answers) next) : Counted text next := by
  rcases counted with ⟨latestBefore, ran, count, reading, single, type, worker, handler⟩
  unfold WorkerHolds at worker
  have last : Reading state.worker → ∀ message, state.sent[state.runs.length]? = some message ↔
      state.sent.getLast? = some message :=
    fun due message => reading_last state.sent _ message (reading due)
  cases moves with
  | start _ at_worker queued =>
      have scheduled : withHandler state.irq state.handler = 0 := by
        rcases with_handler_cases state.irq state.handler with none | waiting
        · exact none
        · rw [single waiting] at queued
          cases queued
      simp only [at_worker, queued, scheduled, withWorker, if_true] at count
      have due : state.runs.length + 1 = state.sent.length := by simpa using count
      refine ⟨latest, ran, ?_, fun _ => due, fun _ => rfl, type, trivial, handler⟩
      simp only [scheduled, withWorker, Bool.false_eq_true, if_false]
      omega
  | readType _ at_worker =>
      rw [at_worker] at count reading last
      have due := reading trivial
      -- the last message is with the worker, so none is with the handler
      have scheduled : withHandler state.irq state.handler = 0 := by
        simp only [withWorker] at count
        omega
      have nonempty : state.sent ≠ [] := fun empty => by simp [empty] at due
      have shown := List.getLast?_eq_some_getLast nonempty
      exact ⟨latest, ran, count, fun _ => due, single, type,
        ⟨_, (last trivial _).mpr shown, type scheduled _ shown⟩, handler⟩
  | refused _ programType typedAt at_worker =>
      rw [at_worker] at count
      simp only [at_worker] at worker
      rcases worker with ⟨message, found, -⟩
      exact ⟨latest, ran, count, False.elim, single, type, ⟨message, found, nofun⟩, handler⟩
  | readHeader _ programType typedAt at_worker =>
      rw [at_worker] at count reading last
      simp only [at_worker] at worker
      rcases worker with ⟨message, found, typed⟩
      have stored := (latestBefore.stored message ((last trivial message).mp found)).1
      subst typed
      exact ⟨latest, ran, count, fun _ => reading trivial, single, type,
        ⟨message, found, part_of_start message state.buffer stored typedAt _⟩, handler⟩
  | readWord _ copy at_worker more =>
      rw [at_worker] at count reading last
      simp only [at_worker] at worker
      rcases worker with ⟨message, found, part⟩
      have stored := (latestBefore.stored message ((last more message).mp found)).1
      exact ⟨latest, ran, count, fun _ => reading more, single, type,
        ⟨message, found, part_of_read message copy state.buffer stored _ part more⟩, handler⟩
  | died _ copy guest at_worker complete unnamed =>
      -- a message's type has a name, so the setup does not dereference NULL
      simp only [at_worker] at worker
      rcases worker with ⟨message, -, part⟩
      obtain ⟨name, named⟩ := type_named message.type
      rw [Copy.programId, part.type, Message.programType, named] at unnamed
      cases unnamed
  | failed _ copy guest at_worker complete =>
      rw [at_worker] at count
      simp only [at_worker] at worker
      rcases worker with ⟨message, found, -⟩
      exact ⟨latest, ran, count, False.elim, single, type, ⟨message, found, nofun⟩, handler⟩
  | built _ copy guest name at_worker complete named installed known =>
      rw [at_worker] at count
      simp only [at_worker] at worker
      rcases worker with ⟨message, found, part⟩
      rw [part_of_program message copy text name part complete named] at installed
      rw [part_of_complete message copy part complete] at known
      exact ⟨latest, ran, count, False.elim, single, type,
        ⟨message, found, fun _ => ⟨known, installed⟩⟩, handler⟩
  | run _ built at_worker =>
      rw [at_worker] at count
      simp only [at_worker] at worker
      rcases worker with ⟨message, found, program⟩
      refine ⟨latest, ran_in_order_run text state.sent state.runs _ message found program ran, ?_,
        False.elim, single, type, trivial, handler⟩
      simp only [withWorker, List.length_append, List.length_singleton] at count ⊢
      omega

end Steps

theorem step_counted (text : KernelText) (state next : State) (action : Action)
    (counted : Counted text state) (paced : Paced state action)
    (taken : step text state action = some next) : Counted text next := by
  have moves := step_moves text state next action taken
  have latest := moves_latest text state next action counted.latest
    (paced_injecting state action paced) moves
  cases action with
  | inject message =>
      cases moves
      exact inject_counted text state message counted paced latest
  | raise | report => exact paced.elim
  | handle => exact handle_counted text state next counted paced latest moves
  | work answers => exact work_counted text state next answers counted latest moves

theorem run_counted (text : KernelText) (words : Nat → Word) (history : List Action)
    (state : State) (paced : Along (step text) Paced (boot words) history)
    (replay : run (step text) (boot words) history = some state) : Counted text state :=
  guarded_invariant (step text) (Counted text) Paced
    (fun before action after counted meets taken =>
      step_counted text before after action counted meets taken)
    (boot_counted text words) paced replay

/-- Acknowledged messages are no more than the activations once the work rests. -/
theorem rested_acknowledged (text : KernelText) (state : State) (counted : Counted text state)
    (notPending : state.pending = false) (notRunning : state.worker = .idle) :
    state.acknowledged ≤ state.runs.length := by
  have count := counted.count
  have handler := counted.handler
  simp only [notPending, notRunning, withWorker, Bool.false_eq_true, if_false] at count
  unfold HandlerHolds at handler
  cases at_handler : state.handler with
  | idle | dispatch | schedule | ack =>
      simp only [at_handler, withHandler] at handler count
      omega
  | reporting => simp only [at_handler] at handler

/-- The acknowledged messages have had their activations: the one with the number
of the message executed its program, unless its setup failed. -/
def AcknowledgedRan (text : KernelText) (state : State) : Prop :=
  ∀ i < state.acknowledged, ∃ (message : Message) (activation : Run),
    state.sent[i]? = some message ∧ state.runs[i]? = some activation ∧
      (activation.built = true → BuiltFrom text message activation.prog)

theorem in_order_acknowledged (text : KernelText) (state : State)
    (ran : RanInOrder text state.sent state.runs)
    (enough : state.acknowledged ≤ state.runs.length) : AcknowledgedRan text state := by
  intro i below
  have present := List.getElem?_eq_getElem (Nat.lt_of_lt_of_le below enough)
  obtain ⟨message, found, own⟩ := ran i _ present
  exact ⟨message, _, found, present, own⟩

/-- When the host waits until a message was read before it sends the next, the
activations are for the messages one by one: whatever setups fail, each one
that succeeds runs the program of its own message, and when the work is neither
pending nor running every acknowledged message has had its own activation. -/
theorem paced_runs_in_order (text : KernelText) (words : Nat → Word) (history : List Action)
    (state : State) (paced : Along (step text) Paced (boot words) history)
    (replay : run (step text) (boot words) history = some state) :
    RanInOrder text state.sent state.runs ∧
      (state.pending = false → state.worker = .idle → AcknowledgedRan text state) := by
  have counted := run_counted text words history state paced replay
  refine ⟨counted.ran, ?_⟩
  intro notPending notRunning
  exact in_order_acknowledged text state counted.ran
    (rested_acknowledged text state counted notPending notRunning)

/-- Two messages; the setup for the second gets no memory. -/
def pacedHistory : List Action :=
  [.inject exitMessage] ++ List.replicate 4 .handle ++ List.replicate 7 (.work served) ++
    [.inject moveMessage] ++ List.replicate 4 .handle ++
    List.replicate 4 (.work ⟨false, true, true⟩)

theorem paced_history_in_order :
    ∃ state, run (step ⟨0, 0, 0, 0⟩) (boot fun _ => 0#32) pacedHistory = some state ∧
      state.acknowledged = 2 ∧ RanInOrder ⟨0, 0, 0, 0⟩ state.sent state.runs ∧
      AcknowledgedRan ⟨0, 0, 0, 0⟩ state := by
  have reached : (run (step ⟨0, 0, 0, 0⟩) (boot fun _ => 0#32) pacedHistory).any (fun state =>
      state.pending = false ∧ state.worker = .idle ∧ state.acknowledged = 2) = true := by decide
  obtain ⟨state, replay, checked⟩ := (Option.any_eq_true _ _).mp reached
  obtain ⟨notPending, notRunning, two⟩ := of_decide_eq_true checked
  obtain ⟨ordered, rested⟩ := paced_runs_in_order ⟨0, 0, 0, 0⟩ (fun _ => 0#32) pacedHistory state
    (by decide) replay
  exact ⟨state, replay, two, ordered, rested notPending notRunning⟩

/-- Both messages are acknowledged before the worker starts. -/
def hastyHistory : List Action :=
  [.inject exitMessage] ++ List.replicate 4 .handle ++ [.inject moveMessage] ++
    List.replicate 4 .handle ++ List.replicate 7 (.work served)

theorem hasty_message_lost :
    ∃ state, Along (step ⟨0, 0, 0, 0⟩) Acknowledged (boot fun _ => 0#32) hastyHistory ∧
      run (step ⟨0, 0, 0, 0⟩) (boot fun _ => 0#32) hastyHistory = some state ∧
      state.pending = false ∧ state.worker = .idle ∧
      (∀ activation ∈ state.runs, activation.built = true) ∧
      ∃ message ∈ state.sent.take state.acknowledged, ∀ activation ∈ state.runs,
        activation.prog ≠ some (message.program ⟨0, 0, 0, 0⟩) := by
  have reached : (run (step ⟨0, 0, 0, 0⟩) (boot fun _ => 0#32) hastyHistory).any (fun state =>
      state.pending = false ∧ state.worker = .idle ∧
        (∀ activation ∈ state.runs, activation.built = true) ∧
        ∃ message ∈ state.sent.take state.acknowledged, ∀ activation ∈ state.runs,
          activation.prog ≠ some (message.program ⟨0, 0, 0, 0⟩)) = true := by decide
  obtain ⟨state, replay, checked⟩ := (Option.any_eq_true _ _).mp reached
  exact ⟨state, by decide, replay, of_decide_eq_true checked⟩

end EbpfInjection.PacedInjection
