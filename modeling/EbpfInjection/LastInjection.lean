import EbpfInjection.LatestMessage

/-!
Messages overwrite each other, interrupts merge and a second request for queued
work is dropped. What survives is the last message: from its arrival on either
the interrupt, the handler, the pending mark or the worker still owes it an
activation, or the last activation was made for it.
-/

namespace EbpfInjection.LastInjection
open LittleEndian InjectionMessage HelperFixup ProgramSetup InjectionMachine LatestMessage
open TransitionSystem

def WorkerServes (text : KernelText) (last : Message) (state : State) : Prop :=
  match state.worker with
  | .idle => ∀ activation, state.runs.getLast? = some activation → activation.built = true →
      state.injected = some (last.program text)
  | .entered => True
  | .typed programType _ => programType = last.programType
  | .copying copy => PartOf last copy
  | .running built => built = true → state.injected = some (last.program text)
  | .dead => True

def Served (text : KernelText) (last : Message) (state : State) : Prop :=
  state.programType = last.programType ∧ (state.pending = true ∨ WorkerServes text last state)

def HandlerServes (text : KernelText) (last : Message) (state : State) : Prop :=
  match state.handler with
  | .dispatch irqStatus _ => irqStatus = BitVec.ofNat 32 last.type.code
  | .schedule _ _ => state.programType = last.programType
  | .ack _ _ => Served text last state
  | .idle | .reporting _ _ _ => True

structure Untouched (state : State) : Prop where
  notPending : state.pending = false
  notRunning : state.worker = .idle
  noRuns : state.runs = []
  handler : ∀ irqStatus seen, state.handler ≠ .schedule irqStatus seen
  ignored : ∀ irqStatus seen, state.handler = .dispatch irqStatus seen →
    injectionOf irqStatus = none

structure Serving (text : KernelText) (state : State) : Prop where
  latest : Latest state
  raised : state.fresh = true → state.irq = true
  handled : state.fresh = false → ∀ last, state.sent.getLast? = some last →
    HandlerServes text last state
  served : state.irq = false → ∀ last, state.sent.getLast? = some last → Served text last state

theorem boot_untouched (words : Nat → Word) : Untouched (boot words) :=
  ⟨rfl, rfl, rfl, nofun, nofun⟩

theorem boot_serving (text : KernelText) (words : Nat → Word) : Serving text (boot words) where
  latest := boot_latest words
  raised := nofun
  handled := nofun
  served := nofun

theorem work_frame (text : KernelText) (state next : State) (answers : Answers)
    (moves : Moves text state (.work answers) next) :
    next.sent = state.sent ∧ next.fresh = state.fresh ∧ next.irq = state.irq ∧
      next.handler = state.handler ∧ next.programType = state.programType := by
  cases moves <;> exact ⟨rfl, rfl, rfl, rfl, rfl⟩

theorem work_needs (text : KernelText) (state next : State) (answers : Answers)
    (moves : Moves text state (.work answers) next) :
    state.pending = true ∨ state.worker ≠ .idle := by
  cases moves <;> simp [*]

theorem moves_untouched (text : KernelText) (state next : State) (action : Action)
    (latest : Latest state) (injecting : Injecting action)
    (moves : Moves text state action next) (untouched : state.sent = [] → Untouched state)
    (unsent : next.sent = []) : Untouched next := by
  cases action with
  | inject message =>
      cases moves
      simp [inject] at unsent
  | raise status => exact injecting.elim
  | report scan => exact injecting.elim
  | work answers =>
      rw [(work_frame text state next answers moves).1] at unsent
      have quiet := untouched unsent
      rcases work_needs text state next answers moves with queued | running
      · rw [quiet.notPending] at queued
        cases queued
      · exact absurd quiet.notRunning running
  | handle =>
      cases moves with
      | enter at_handler =>
          obtain ⟨notPending, notRunning, noRuns, -, -⟩ := untouched unsent
          refine ⟨notPending, notRunning, noRuns, ?_, ?_⟩
          · rintro irqStatus seen ⟨⟩
          · rintro irqStatus seen ⟨⟩
            exact latest.silent unsent
      | setType irqStatus seen type at_handler asked =>
          rw [(untouched unsent).ignored irqStatus seen at_handler] at asked
          cases asked
      | schedule irqStatus seen at_handler =>
          exact absurd at_handler ((untouched unsent).handler irqStatus seen)
      | writeReport irqStatus seen offset value todo at_handler =>
          exact absurd at_handler (latest.noReport irqStatus seen _)
      | ignore | endReport | acknowledge =>
          obtain ⟨notPending, notRunning, noRuns, -, -⟩ := untouched unsent
          refine ⟨notPending, notRunning, noRuns, ?_, ?_⟩ <;> rintro irqStatus seen ⟨⟩

section Steps
variable (text : KernelText) (state next : State) (last : Message)

/-- A step of the worker goes on serving the message the buffer shows. -/
theorem work_served (answers : Answers) (latest : Latest state)
    (shown : state.sent.getLast? = some last) (moves : Moves text state (.work answers) next)
    (served : Served text last state) : Served text last next := by
  rcases served with ⟨type, owed⟩
  have stored := (latest.stored last shown).1
  cases moves with
  | start _ at_worker queued => exact ⟨type, .inr trivial⟩
  | readType _ at_worker => exact ⟨type, owed.imp_right fun _ => type⟩
  | refused _ programType typedAt at_worker => exact ⟨type, owed.imp_right fun _ => nofun⟩
  | readHeader _ programType typedAt at_worker =>
      refine ⟨type, owed.imp_right ?_⟩
      intro serves
      simp only [WorkerServes, at_worker] at serves
      subst serves
      exact part_of_start last state.buffer stored typedAt _
  | readWord _ copy at_worker more =>
      refine ⟨type, owed.imp_right ?_⟩
      intro serves
      simp only [WorkerServes, at_worker] at serves
      exact part_of_read last copy state.buffer stored _ serves more
  | died _ copy guest at_worker complete unnamed => exact ⟨type, owed.imp_right fun _ => trivial⟩
  | failed _ copy guest at_worker complete => exact ⟨type, owed.imp_right fun _ => nofun⟩
  | built _ copy guest name at_worker complete named installed =>
      refine ⟨type, owed.imp_right ?_⟩
      intro serves _
      simp only [WorkerServes, at_worker] at serves
      rw [← part_of_program last copy text name serves complete named]
      exact installed
  | run _ built at_worker =>
      refine ⟨type, owed.imp_right ?_⟩
      intro serves activation found success
      simp only [WorkerServes, at_worker] at serves
      have ran : activation = ⟨built, state.injected⟩ := by simpa using found.symm
      subst ran
      exact serves success

theorem work_handled (answers : Answers) (latest : Latest state)
    (shown : state.sent.getLast? = some last) (moves : Moves text state (.work answers) next)
    (serves : HandlerServes text last state) : HandlerServes text last next := by
  obtain ⟨-, -, -, handler, type⟩ := work_frame text state next answers moves
  unfold HandlerServes at serves ⊢
  rw [handler]
  cases at_handler : state.handler with
  | schedule irqStatus seen =>
      simp only [at_handler] at serves
      rwa [type]
  | ack irqStatus seen =>
      simp only [at_handler] at serves
      exact work_served text state next last answers latest shown moves serves
  | dispatch irqStatus seen => simpa only [at_handler] using serves
  | idle | reporting => trivial

end Steps

theorem moves_serving (text : KernelText) (state next : State) (action : Action)
    (serving : Serving text state) (injecting : Injecting action)
    (moves : Moves text state action next) : Serving text next := by
  have latest := moves_latest text state next action serving.latest injecting moves
  rcases serving with ⟨latestBefore, raised, handled, served⟩
  cases action with
  | inject message =>
      cases moves
      exact ⟨latest, fun _ => rfl, nofun, nofun⟩
  | raise status => exact injecting.elim
  | report scan => exact injecting.elim
  | work answers =>
      obtain ⟨sent, fresh, irq, -, -⟩ := work_frame text state next answers moves
      constructor
      · exact latest
      · rwa [fresh, irq]
      · intro old last shown
        rw [sent] at shown
        exact work_handled text state next last answers latestBefore shown moves
          (handled (fresh ▸ old) last shown)
      · intro noIrq last shown
        rw [sent] at shown
        exact work_served text state next last answers latestBefore shown moves
          (served (irq ▸ noIrq) last shown)
  | handle =>
      cases moves with
      | enter at_handler =>
          exact ⟨latest, nofun, fun _ last shown => (latestBefore.stored last shown).2, served⟩
      | setType irqStatus seen type at_handler asked =>
          have typed : state.fresh = false → ∀ last, state.sent.getLast? = some last →
              BitVec.ofNat 8 type.code = last.programType := by
            intro old last shown
            have status := handled old last shown
            simp only [HandlerServes, at_handler] at status
            rw [status, injection_of_code] at asked
            rw [Message.programType, Option.some.inj asked]
          refine ⟨latest, raised, typed, ?_⟩
          intro noIrq last shown
          have old : state.fresh = false := by
            cases fresh : state.fresh with
            | false => rfl
            | true =>
                rw [raised fresh] at noIrq
                cases noIrq
          exact ⟨typed old last shown, (served noIrq last shown).2⟩
      | ignore irqStatus seen at_handler other =>
          refine ⟨latest, raised, ?_, served⟩
          intro old last shown
          have status := handled old last shown
          simp only [HandlerServes, at_handler] at status
          rw [status, injection_of_code] at other
          cases other
      | schedule irqStatus seen at_handler =>
          have typed : state.fresh = false → ∀ last, state.sent.getLast? = some last →
              state.programType = last.programType := by
            intro old last shown
            simpa only [HandlerServes, at_handler] using handled old last shown
          exact ⟨latest, raised, fun old last shown => ⟨typed old last shown, .inl rfl⟩,
            fun noIrq last shown => ⟨(served noIrq last shown).1, .inl rfl⟩⟩
      | writeReport irqStatus seen offset value todo at_handler =>
          exact absurd at_handler (latestBefore.noReport irqStatus seen _)
      | endReport irqStatus seen at_handler =>
          exact absurd at_handler (latestBefore.noReport irqStatus seen _)
      | acknowledge irqStatus seen at_handler =>
          refine ⟨latest, id, fun _ _ _ => trivial, ?_⟩
          -- the line falls only if no message arrived since the status was read
          intro old last shown
          have owed := handled old last shown
          simp only [HandlerServes, at_handler] at owed
          exact owed

theorem run_serving (text : KernelText) (words : Nat → Word) (history : List Action)
    (state : State) (injecting : ∀ action ∈ history, Injecting action)
    (replay : run (step text) (boot words) history = some state) :
    Serving text state ∧ (state.sent = [] → Untouched state) := by
  refine guarded_invariant (step text)
    (fun state => Serving text state ∧ (state.sent = [] → Untouched state))
    (fun _ action => Injecting action) ?_ ⟨boot_serving text words, fun _ => boot_untouched words⟩
    (along_of_forall (step text) Injecting _ history injecting) replay
  rintro before action after ⟨serving, untouched⟩ meets taken
  have moves := step_moves text before after action taken
  exact ⟨moves_serving text before after action serving meets moves,
    moves_untouched text before after action serving.latest meets moves untouched⟩

/-- With no interrupt outstanding and the work neither pending nor running, if
the last activation built a program, the installed program is the one the last
message asks for: its instructions under its program id. -/
theorem last_injection_wins (text : KernelText) (words : Nat → Word) (history : List Action)
    (state : State) (injecting : ∀ action ∈ history, Injecting action)
    (replay : run (step text) (boot words) history = some state) (noIrq : state.irq = false)
    (notPending : state.pending = false) (notRunning : state.worker = .idle) (activation : Run)
    (mostRecent : state.runs.getLast? = some activation) (built : activation.built = true) :
    ∃ last, state.sent.getLast? = some last ∧ state.injected = some (last.program text) := by
  obtain ⟨serving, untouched⟩ := run_serving text words history state injecting replay
  cases shown : state.sent.getLast? with
  | none =>
      rw [(untouched (List.getLast?_eq_none_iff.mp shown)).noRuns] at mostRecent
      cases mostRecent
  | some last =>
      obtain ⟨-, owed⟩ := serving.served noIrq last shown
      rw [notPending] at owed
      have serves := owed.resolve_left nofun
      simp only [WorkerServes, notRunning] at serves
      exact ⟨last, rfl, serves activation mostRecent built⟩

def coalescedHistory : List Action :=
  [.inject exitMessage, .inject moveMessage] ++ List.replicate 4 .handle ++
    List.replicate 4 (.work served) ++ [.inject exitMessage] ++ List.replicate 4 .handle ++
    List.replicate 10 (.work served)

theorem coalesced_last_wins :
    ∃ state, run (step ⟨0, 0, 0, 0⟩) (boot fun _ => 0#32) coalescedHistory = some state ∧
      ∃ last, state.sent.getLast? = some last ∧
        state.injected = some (last.program ⟨0, 0, 0, 0⟩) := by
  have reached : (run (step ⟨0, 0, 0, 0⟩) (boot fun _ => 0#32) coalescedHistory).any (fun state =>
      state.irq = false ∧ state.pending = false ∧ state.worker = .idle ∧
        state.runs.getLast? = some ⟨true, some (exitMessage.program ⟨0, 0, 0, 0⟩)⟩) = true := by
    decide
  obtain ⟨state, replay, checked⟩ := (Option.any_eq_true _ _).mp reached
  obtain ⟨noIrq, notPending, notRunning, mostRecent⟩ := of_decide_eq_true checked
  exact ⟨state, replay, last_injection_wins _ _ coalescedHistory state
    (by simp [coalescedHistory, Injecting]) replay noIrq notPending notRunning _ mostRecent rfl⟩

end EbpfInjection.LastInjection
