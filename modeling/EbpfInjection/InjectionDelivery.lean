import EbpfInjection.ActivationBudget
import EbpfInjection.LastInjection

/-!
The last message is delivered. When its helpers are known and no further message
comes, the handler runs for its interrupts only and the worker gets what it asks
for, the guest comes to rest after a bounded number of steps, in whatever order
they are taken; then the last program executed is that of the last message, and
it is installed. Before it there may be messages overwritten, interrupts merged,
setups that failed, an activation halfway through an older message, but neither
reports nor other interrupts.
-/

namespace EbpfInjection.InjectionDelivery
open LittleEndian InjectionMessage HelperFixup ProgramSetup InjectionMachine LatestMessage
open ActivationBudget TransitionSystem BoundedWork

/-- Steps of the driver alone: the handler for an outstanding interrupt, and the
worker with every request granted. -/
def Serviced (state : State) : Action → Prop
  | .handle => state.handler = .idle → state.irq = true
  | .work answers => answers = served
  | .inject _ | .raise _ | .report _ => False

structure Quiet (state : State) : Prop where
  irq : state.irq = false
  handler : state.handler = .idle
  pending : state.pending = false
  worker : state.worker = .idle

def Delivered (text : KernelText) (last : Message) (state : State) : Prop :=
  state.injected = some (last.program text) ∧
    state.runs.getLast? = some ⟨true, some (last.program text)⟩

def TypeNamed (programType : Byte) : Prop :=
  (prognameFromIdx (getProgTypeFromIrq programType)).isSome = true

def WorkerNamed : Worker → Prop
  | .idle | .entered | .running _ => True
  | .typed programType _ => TypeNamed programType
  | .copying copy => TypeNamed copy.programType
  | .dead => False

def Due (state : State) : Prop :=
  state.pending = true ∨ state.worker = .entered ∨
    ∃ irqStatus seen, state.handler = .schedule irqStatus seen

structure Responsive (state : State) : Prop where
  latest : Latest state
  line : LineFresh state
  status : state.status.toNat ≠ firstRoundMigrationStart
  dispatch : ∀ irqStatus seen, state.handler = .dispatch irqStatus seen →
    irqStatus.toNat ≠ firstRoundMigrationStart
  type : Due state → TypeNamed state.programType
  worker : WorkerNamed state.worker

section Responsiveness
variable (text : KernelText) (state next : State)

theorem boot_responsive (words : Nat → Word) : Responsive (boot words) where
  latest := boot_latest words
  line := boot_line_fresh words
  status := by
    change (0#32).toNat ≠ firstRoundMigrationStart
    decide
  dispatch := nofun
  type := by
    rintro (queued | entered | ⟨irqStatus, seen, scheduled⟩)
    · cases queued
    · cases entered
    · cases scheduled
  worker := trivial

theorem code_not_start (type : InjectionType) :
    (BitVec.ofNat 32 type.code : Word).toNat ≠ firstRoundMigrationStart := by
  cases type <;> decide

theorem moves_responsive (action : Action) (responsive : Responsive state)
    (injecting : Injecting action) (moves : Moves text state action next) : Responsive next := by
  have latest := moves_latest text state next action responsive.latest injecting moves
  have line := moves_line_fresh text state next action responsive.line moves
  rcases responsive with ⟨latestBefore, -, status, dispatch, type, worker⟩
  cases moves with
  | inject message => exact ⟨latest, line, code_not_start message.type, dispatch, type, worker⟩
  | raise | startReport => exact injecting.elim
  | writeReport irqStatus seen offset value todo at_handler
  | endReport irqStatus seen at_handler =>
      exact absurd at_handler (latestBefore.noReport irqStatus seen _)
  | enter at_handler =>
      refine ⟨latest, line, status, ?_, ?_, worker⟩
      · rintro irqStatus seen ⟨⟩
        exact status
      · rintro (queued | entered | ⟨irqStatus, seen, ⟨⟩⟩)
        · exact type (.inl queued)
        · exact type (.inr (.inl entered))
  | setType irqStatus seen found at_handler asked =>
      exact ⟨latest, line, status, nofun, fun _ => code_named found, worker⟩
  | schedule irqStatus seen at_handler =>
      exact ⟨latest, line, status, nofun, fun _ => type (.inr (.inr ⟨_, _, at_handler⟩)), worker⟩
  | ignore | acknowledge =>
      refine ⟨latest, line, status, nofun, ?_, worker⟩
      rintro (queued | entered | ⟨irqStatus, seen, ⟨⟩⟩)
      · exact type (.inl queued)
      · exact type (.inr (.inl entered))
  | start answers at_worker queued =>
      exact ⟨latest, line, status, dispatch, fun _ => type (.inl queued), trivial⟩
  | readType answers at_worker =>
      have named := type (.inr (.inl at_worker))
      exact ⟨latest, line, status, dispatch, fun _ => named, named⟩
  | readHeader answers programType typedAt at_worker =>
      rw [at_worker] at worker
      refine ⟨latest, line, status, dispatch, ?_, worker⟩
      rintro (queued | ⟨⟨⟩⟩ | scheduled)
      · exact type (.inl queued)
      · exact type (.inr (.inr scheduled))
  | readWord answers copy at_worker more =>
      rw [at_worker] at worker
      refine ⟨latest, line, status, dispatch, ?_, worker⟩
      rintro (queued | ⟨⟨⟩⟩ | scheduled)
      · exact type (.inl queued)
      · exact type (.inr (.inr scheduled))
  | died answers copy guest at_worker complete unnamed =>
      -- the type was named when the work was scheduled
      rw [at_worker] at worker
      simp only [WorkerNamed, TypeNamed] at worker
      rw [Copy.programId] at unnamed
      simp [unnamed] at worker
  | refused | failed | built | run =>
      refine ⟨latest, line, status, dispatch, ?_, trivial⟩
      rintro (queued | ⟨⟨⟩⟩ | scheduled)
      · exact type (.inl queued)
      · exact type (.inr (.inr scheduled))

/-- As long as something is left to do, some step of the driver is enabled. -/
theorem responsive_steps (responsive : Responsive state) :
    Quiet state ∨ ∃ action next, Serviced state action ∧ step text state action = some next := by
  rcases responsive with ⟨latest, line, status, dispatch, type, worker⟩
  by_cases rested : state.handler = .idle ∧ state.irq = false
  · cases at_worker : state.worker with
    | idle =>
        cases queued : state.pending with
        | false => exact .inl ⟨rested.2, rested.1, queued, at_worker⟩
        | true => exact .inr ⟨.work served, _, rfl, by simp [step, work, at_worker, queued]; rfl⟩
    | entered | running => exact .inr ⟨.work served, _, rfl, by simp [step, work, at_worker]; rfl⟩
    | typed => exact .inr ⟨.work served, _, rfl, by simp [step, work, at_worker, served]; rfl⟩
    | copying copy =>
        by_cases more : copy.cells.length < copy.jmax <;>
          exact .inr ⟨.work served, _, rfl, by simp [step, work, at_worker, more]; rfl⟩
    | dead =>
        rw [at_worker] at worker
        exact worker.elim
  · right
    have serviced : Serviced state .handle := by
      intro idle
      cases irq : state.irq with
      | true => rfl
      | false => exact absurd ⟨idle, irq⟩ rested
    cases at_handler : state.handler with
    | idle | schedule | ack =>
        exact ⟨.handle, _, serviced, by simp [step, handle, at_handler]; rfl⟩
    | dispatch irqStatus seen =>
        have plain := dispatch irqStatus seen at_handler
        cases asked : injectionOf irqStatus with
        | some _ => exact ⟨.handle, _, serviced, by simp [step, handle, at_handler, asked]; rfl⟩
        | none =>
            exact ⟨.handle, _, serviced, by simp [step, handle, at_handler, asked, plain]; rfl⟩
    | reporting irqStatus seen todo => exact absurd at_handler (latest.noReport irqStatus seen todo)

end Responsiveness

/-! The way of the last message through the driver. -/
section Stages
variable (text : KernelText) (last : Message) (state next : State)

def WorkerDelivers : Prop :=
  match state.worker with
  | .idle => Delivered text last state
  | .entered => True
  | .typed programType _ => programType = last.programType
  | .copying copy => PartOf last copy
  | .running built => built = true ∧ state.injected = some (last.program text)
  | .dead => False

inductive Stage : Prop where
  | unseen (fresh : state.fresh = true)
  | read (seen : Nat) (taken : state.fresh = false)
      (at_handler : state.handler = .dispatch (BitVec.ofNat 32 last.type.code) seen)
  | typed (irqStatus : Word) (seen : Nat) (taken : state.fresh = false)
      (at_handler : state.handler = .schedule irqStatus seen)
      (type : state.programType = last.programType)
  | scheduled (taken : state.fresh = false)
      (at_handler : (∃ irqStatus seen, state.handler = .ack irqStatus seen) ∨
        state.handler = .idle ∧ state.irq = false)
      (type : state.programType = last.programType)
      (owes : state.pending = true ∨ WorkerDelivers text last state)

theorem handle_stage (responsive : Responsive state) (shown : state.sent.getLast? = some last)
    (serviced : Serviced state .handle) (moves : Moves text state .handle next)
    (stage : Stage text last state) : Stage text last next := by
  cases stage with
  | unseen fresh =>
      cases moves with
      | enter at_handler =>
          refine .read state.sent.length rfl ?_
          rw [(responsive.latest.stored last shown).2]
      | setType | ignore | schedule | writeReport | endReport | acknowledge => exact .unseen fresh
  | read seen taken at_handler =>
      cases moves with
      | setType irqStatus _ type at_dispatch asked =>
          cases at_handler.symm.trans at_dispatch
          rw [injection_of_code] at asked
          exact .typed _ seen taken rfl (by rw [Message.programType, Option.some.inj asked])
      | ignore irqStatus _ at_dispatch other =>
          cases at_handler.symm.trans at_dispatch
          rw [injection_of_code] at other
          cases other
      | enter other | schedule _ _ other | writeReport _ _ _ _ _ other | endReport _ _ other
      | acknowledge _ _ other =>
          cases at_handler.symm.trans other
  | typed irqStatus seen taken at_handler type =>
      cases moves with
      | schedule _ _ at_schedule =>
          exact .scheduled taken (.inl ⟨_, _, rfl⟩) type (.inl rfl)
      | enter other | setType _ _ _ other | ignore _ _ other | writeReport _ _ _ _ _ other
      | endReport _ _ other | acknowledge _ _ other =>
          cases at_handler.symm.trans other
  | scheduled taken at_handler type owes =>
      rcases at_handler with ⟨irqStatus, seen, at_ack⟩ | ⟨at_idle, noIrq⟩
      · cases moves with
        | acknowledge _ _ at_handler =>
            -- no message arrived since, so the line falls
            exact .scheduled taken (.inr ⟨rfl, taken⟩) type owes
        | enter other | setType _ _ _ other | ignore _ _ other | schedule _ _ other
        | writeReport _ _ _ _ _ other | endReport _ _ other =>
            cases at_ack.symm.trans other
      · have prompted := serviced at_idle
        rw [noIrq] at prompted
        cases prompted

theorem build_served (copy : Copy) (name : String)
    (named : prognameFromIdx copy.programId = some name) (known : HelpersKnown copy.insns) :
    (build text served copy state).worker = .running true := by
  simp [build, setupCopied, fixup_accepts text _ known, bpfMyProgAlloc, served, named]

theorem work_delivers (responsive : Responsive state) (shown : state.sent.getLast? = some last)
    (known : HelpersKnown last.insns) (taken : step text state (.work served) = some next)
    (delivers : WorkerDelivers text last state) (type : state.programType = last.programType) :
    next.pending = true ∨ WorkerDelivers text last next := by
  have stored := (responsive.latest.stored last shown).1
  unfold WorkerDelivers at delivers ⊢
  cases step_moves text state next (.work served) taken with
  | start _ at_worker queued => exact .inr trivial
  | readType _ at_worker => exact .inr type
  | refused _ programType typedAt at_worker =>
      simp [step, work, at_worker, served] at taken
  | readHeader _ programType typedAt at_worker =>
      simp only [at_worker] at delivers
      subst delivers
      exact .inr (part_of_start last state.buffer stored typedAt _)
  | readWord _ copy at_worker more =>
      simp only [at_worker] at delivers
      exact .inr (part_of_read last copy state.buffer stored _ delivers more)
  | died _ copy guest at_worker complete unnamed =>
      have worker := responsive.worker
      simp only [at_worker, WorkerNamed, TypeNamed] at worker
      rw [Copy.programId] at unnamed
      simp [unnamed] at worker
  | failed _ copy guest at_worker complete =>
      simp only [at_worker] at delivers
      obtain ⟨name, named⟩ := type_named last.type
      have same : prognameFromIdx copy.programId = some name := by
        rw [Copy.programId, delivers.type]
        exact named
      have success := build_served text state copy name same
        (by rwa [part_of_complete last copy delivers complete])
      simp only [step, work, at_worker, complete, if_false, Option.some.injEq] at taken
      rw [taken] at success
      cases success
  | built _ copy guest name at_worker complete named installed =>
      simp only [at_worker] at delivers
      rw [part_of_program last copy text name delivers complete named] at installed
      exact .inr ⟨rfl, installed⟩
  | run _ built at_worker =>
      simp only [at_worker] at delivers
      obtain ⟨rfl, installed⟩ := delivers
      exact .inr ⟨installed, by simp [installed]⟩

theorem work_stage (responsive : Responsive state) (shown : state.sent.getLast? = some last)
    (known : HelpersKnown last.insns) (taken : step text state (.work served) = some next)
    (stage : Stage text last state) : Stage text last next := by
  have moves := step_moves text state next (.work served) taken
  obtain ⟨-, fresh, irq, handler, programType⟩ :=
    LastInjection.work_frame text state next served moves
  cases stage with
  | unseen unread => exact .unseen (fresh ▸ unread)
  | read seen old at_handler => exact .read seen (fresh ▸ old) (handler ▸ at_handler)
  | typed irqStatus seen old at_handler type =>
      exact .typed irqStatus seen (fresh ▸ old) (handler ▸ at_handler) (programType ▸ type)
  | scheduled old at_handler type owes =>
      refine .scheduled (fresh ▸ old) (by rwa [handler, irq]) (programType ▸ type) ?_
      rcases owes with queued | delivers
      · -- the pending mark stays until the worker starts, and then it has the message
        cases moves with
        | start => exact .inr trivial
        | readType | refused | readHeader | readWord | died | failed | built | run =>
            exact .inl queued
      · exact work_delivers text last state next responsive shown known taken delivers type

structure Delivering : Prop where
  responsive : Responsive state
  shown : state.sent.getLast? = some last
  stage : Stage text last state

theorem step_delivering (action : Action) (known : HelpersKnown last.insns)
    (delivering : Delivering text last state) (serviced : Serviced state action)
    (taken : step text state action = some next) : Delivering text last next := by
  rcases delivering with ⟨responsive, shown, stage⟩
  have moves := step_moves text state next action taken
  cases action with
  | inject | raise | report => exact serviced.elim
  | handle =>
      refine ⟨moves_responsive text state next .handle responsive trivial moves, ?_,
        handle_stage text last state next responsive shown serviced moves stage⟩
      cases moves <;> exact shown
  | work answers =>
      cases serviced
      refine ⟨moves_responsive text state next (.work served) responsive trivial moves, ?_,
        work_stage text last state next responsive shown known taken stage⟩
      rw [(LastInjection.work_frame text state next served moves).1, shown]

/-- A guest at rest has delivered its last message. -/
theorem quiet_delivered (delivering : Delivering text last state) (quiet : Quiet state) :
    Delivered text last state := by
  cases delivering.stage with
  | unseen fresh =>
      have raised := delivering.responsive.line.raised fresh
      rw [quiet.irq] at raised
      cases raised
  | read seen old at_handler => cases quiet.handler.symm.trans at_handler
  | typed irqStatus seen old at_handler type => cases quiet.handler.symm.trans at_handler
  | scheduled old at_handler type owes =>
      rw [quiet.pending] at owes
      have delivers := owes.resolve_left nofun
      simpa only [WorkerDelivers, quiet.worker] using delivers

end Stages

theorem serviced_falls (text : KernelText) (state next : State) (action : Action)
    (line : LineFresh state) (serviced : Serviced state action)
    (taken : step text state action = some next) : owed next < owed state := by
  have moved := moves_owed text state next action line (step_moves text state next action taken)
  cases action with
  | inject | raise | report => exact serviced.elim
  | work answers =>
      have quiet : unprompted state (.work answers) = 0 := rfl
      simp only [driverAccesses, interrupts, quiet] at moved
      omega
  | handle =>
      have prompted : unprompted state .handle = 0 := by
        refine if_neg ?_
        rintro ⟨at_idle, noIrq⟩
        rw [serviced at_idle] at noIrq
        cases noIrq
      simp only [driverAccesses, interrupts, prompted] at moved
      omega

/-- Without reports the driver never owes more than four passes. -/
theorem owed_bound (state : State) (latest : Latest state) : owed state ≤ 4 * passAccesses := by
  have handler : handlerOwes state.handler ≤ passAccesses := by
    cases at_handler : state.handler with
    | reporting irqStatus seen todo =>
        exact absurd at_handler (latest.noReport irqStatus seen todo)
    | idle | dispatch | schedule | ack =>
        simp only [handlerOwes, passAccesses, activationAccesses]
        omega
  have worker : workerOwes state.worker ≤ activationAccesses := by
    cases at_worker : state.worker with
    | copying copy =>
        have bound := jmax_bound copy
        simp only [workerOwes, activationAccesses]
        omega
    | idle | entered | typed | running | dead =>
        simp only [workerOwes, activationAccesses]
        omega
  have fresh := Bool.toNat_le state.fresh
  have pending := Bool.toNat_le state.pending
  simp only [owed, passAccesses, activationAccesses] at *
  omega

theorem quiet_rests (text : KernelText) (state : State) (quiet : Quiet state) (action : Action)
    (serviced : Serviced state action) : step text state action = none := by
  cases action with
  | inject | raise | report => exact serviced.elim
  | handle =>
      have raised := serviced quiet.handler
      rw [quiet.irq] at raised
      cases raised
  | work answers => simp [step, work, quiet.worker, quiet.pending]

instance (state : State) : (action : Action) → Decidable (Serviced state action)
  | .handle => inferInstanceAs (Decidable (state.handler = .idle → state.irq = true))
  | .work answers => inferInstanceAs (Decidable (answers = served))
  | .inject _ | .raise _ | .report _ => isFalse id

def interruptedHistory : List Action :=
  [.inject exitMessage] ++ List.replicate 4 .handle ++ List.replicate 3 (.work served)

def remainingHistory : List Action :=
  List.replicate 4 (.work served) ++ List.replicate 4 .handle ++ List.replicate 7 (.work served)

end EbpfInjection.InjectionDelivery
