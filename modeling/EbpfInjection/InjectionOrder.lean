import EbpfInjection.MessageIntegrity
import EbpfInjection.Refinement

/-!
What the injection protocol is for: a mailbox. The host posts programs; the
guest takes one of those posted so far, never goes back to an older one, and
executes what it took before it takes the next. After a failed setup it executes
once more what it took last, or what is at a NULL or freed pointer. The machine
of messages, their interrupts and word-wise copies refines this as long as no
message arrives between the status read an activation is for and its last word.
-/

namespace EbpfInjection.InjectionOrder
open LittleEndian InjectionMessage HelperFixup ProgramSetup InjectionMachine LatestMessage
open MessageIntegrity TransitionSystem Refinement

/-! The mailbox by itself. -/
section Mailbox

/-- What was taken stands with the number of messages posted up to it, and every
execution with whether the setup before it succeeded. -/
structure Mailbox where
  posted : List Message
  taken : List (Nat × Option BpfProg)
  executed : List Run

def Mailbox.empty : Mailbox := ⟨[], [], []⟩

def ownPrograms (executed : List Run) : List (Option BpfProg) :=
  (executed.filter Run.built).map Run.prog

theorem own_programs_append (executed : List Run) (activation : Run) :
    ownPrograms (executed ++ [activation]) =
      if activation.built then ownPrograms executed ++ [activation.prog]
      else ownPrograms executed := by
  cases built : activation.built <;> simp [ownPrograms, built]

def Mailbox.programs (mailbox : Mailbox) : List (Option BpfProg) := mailbox.taken.map Prod.snd

def Mailbox.own (mailbox : Mailbox) : List (Option BpfProg) := ownPrograms mailbox.executed

inductive Event where
  | post (message : Message)
  | take (count : Nat) (prog : Option BpfProg)
  | execute (activation : Run)

/-- The program comes from the last of `count` messages, and from no older one
than any taken before. -/
def MayTake (text : KernelText) (mailbox : Mailbox) (count : Nat) (prog : Option BpfProg) : Prop :=
  (∀ earlier ∈ mailbox.taken, earlier.1 ≤ count) ∧ count ≤ mailbox.posted.length ∧
    prog.isSome = true ∧ prog = (lastOf mailbox.posted count).map (Message.program text) ∧
    mailbox.programs = mailbox.own

/-- An activation that took a program executes it; one that did not finds the
program executed last, or none. -/
def MayExecute (mailbox : Mailbox) (activation : Run) : Prop :=
  if activation.built then mailbox.programs = mailbox.own ++ [activation.prog]
  else mailbox.programs = mailbox.own ∧
    (activation.prog = none ∨ mailbox.own.getLast? = some activation.prog)

instance (mailbox : Mailbox) (activation : Run) : Decidable (MayExecute mailbox activation) := by
  unfold MayExecute
  infer_instance

instance (text : KernelText) (mailbox : Mailbox) (count : Nat) (prog : Option BpfProg) :
    Decidable (MayTake text mailbox count prog) :=
  inferInstanceAs (Decidable (_ ∧ _ ∧ _ ∧ _ ∧ _))

def Mailbox.step (text : KernelText) (mailbox : Mailbox) : Event → Option Mailbox
  | .post message => some { mailbox with posted := mailbox.posted ++ [message] }
  | .take count prog =>
      if MayTake text mailbox count prog then
        some { mailbox with taken := mailbox.taken ++ [(count, prog)] }
      else none
  | .execute activation =>
      if MayExecute mailbox activation then
        some { mailbox with executed := mailbox.executed ++ [activation] }
      else none

/-- Taken in the order of the messages, from messages, each executed once by the
activation that took it; every other execution repeats the one before, or is of
no program. -/
structure InOrder (text : KernelText) (mailbox : Mailbox) : Prop where
  forward : (mailbox.taken.map Prod.fst).Pairwise (· ≤ ·)
  source : ∀ entry ∈ mailbox.taken, entry.1 ≤ mailbox.posted.length ∧
    ∃ message, lastOf mailbox.posted entry.1 = some message ∧
      entry.2 = some (message.program text)
  once : mailbox.programs = mailbox.own ∨ ∃ prog, mailbox.programs = mailbox.own ++ [prog]
  repeated : ∀ (i : Nat) (activation : Run), mailbox.executed[i]? = some activation →
    activation.built = false → activation.prog = none ∨
      (ownPrograms (mailbox.executed.take i)).getLast? = some activation.prog

theorem empty_in_order (text : KernelText) : InOrder text Mailbox.empty where
  forward := .nil
  source := nofun
  once := .inl rfl
  repeated := nofun

/-- An execution that is allowed keeps the executions in order. -/
theorem execute_in_order (text : KernelText) (mailbox : Mailbox) (activation : Run)
    (ordered : InOrder text mailbox) (may : MayExecute mailbox activation) :
    InOrder text { mailbox with executed := mailbox.executed ++ [activation] } := by
  have own := own_programs_append mailbox.executed activation
  unfold MayExecute at may
  refine { ordered with once := ?_, repeated := ?_ }
  · left
    rw [Mailbox.own, own]
    cases built : activation.built with
    | true =>
        simp only [built, if_true] at may ⊢
        exact may
    | false =>
        simp only [built, Bool.false_eq_true, if_false] at may ⊢
        exact may.1
  · intro i other found failed
    rcases Nat.lt_or_ge i mailbox.executed.length with earlier | last
    · rw [List.getElem?_append_left earlier] at found
      rw [List.take_append_of_le_length (Nat.le_of_lt earlier)]
      exact ordered.repeated i other found failed
    · -- the last one is what was just allowed
      obtain ⟨inside, same⟩ := List.getElem?_eq_some_iff.mp found
      have at_end : i = mailbox.executed.length := by
        simp only [List.length_append, List.length_singleton] at inside
        omega
      subst at_end
      rw [List.getElem_append_right (Nat.le_refl _)] at same
      simp only [Nat.sub_self, List.getElem_cons_zero] at same
      subst same
      rw [List.take_left]
      simp only [failed, Bool.false_eq_true, if_false] at may
      exact may.2

theorem mailbox_step_in_order (text : KernelText) (mailbox next : Mailbox) (event : Event)
    (ordered : InOrder text mailbox) (moved : mailbox.step text event = some next) :
    InOrder text next := by
  cases event with
  | post message =>
      cases moved
      rcases ordered with ⟨forward, source, once, repeated⟩
      refine ⟨forward, ?_, once, repeated⟩
      intro entry member
      obtain ⟨bound, own, found, program⟩ := source entry member
      refine ⟨?_, own, ?_, program⟩
      · rw [List.length_append]
        exact Nat.le_add_right_of_le bound
      · rw [last_of_append mailbox.posted message entry.1 bound, found]
  | take count prog =>
      simp only [Mailbox.step] at moved
      split at moved
      · rename_i may
        obtain ⟨newest, bound, present, program, all⟩ := may
        rcases ordered with ⟨forward, source, once, repeated⟩
        cases moved
        constructor
        · rw [List.map_append, List.pairwise_append]
          refine ⟨forward, List.pairwise_singleton _ _, ?_⟩
          intro earlier member last same
          obtain ⟨entry, listed, rfl⟩ := List.mem_map.mp member
          rw [List.mem_singleton.mp same]
          exact newest entry listed
        · intro entry member
          rcases List.mem_append.mp member with earlier | last
          · exact source entry earlier
          · rw [List.mem_singleton.mp last]
            refine ⟨bound, ?_⟩
            cases found : lastOf mailbox.posted count with
            | none => simp [program, found] at present
            | some message => exact ⟨message, rfl, by simp [program, found]⟩
        · right
          exact ⟨prog, by simpa [Mailbox.programs, Mailbox.own] using all⟩
        · exact repeated
      · cases moved
  | execute activation =>
      simp only [Mailbox.step] at moved
      split at moved
      · rename_i may
        cases moved
        exact execute_in_order text mailbox activation ordered may
      · cases moved

end Mailbox

/-! The machine as a mailbox. -/
section Machine
variable (text : KernelText)

def toMailbox (state : State) : Mailbox :=
  { posted := state.sent
    taken := state.installs.map fun install => (install.copy.readAt, install.prog)
    executed := state.runs }

def effect (state : State) : Action → List Event
  | .inject message => [.post message]
  | .raise _ | .handle | .report _ => []
  | .work answers =>
      match state.worker with
      | .copying copy =>
          let next := build text answers copy state
          if copy.cells.length < copy.jmax then []
          else if next.worker = .running true then [.take copy.readAt next.injected]
          else []
      | .running built => [.execute ⟨built, state.injected⟩]
      | .idle | .entered | .typed _ _ | .dead => []

/-- No message arrived under a copy that is complete, that is, from the status
read behind its type to its last word. -/
def Integral (state : State) : Action → Prop
  | .inject _ | .handle => True
  | .raise _ | .report _ => False
  | .work _ =>
      match state.worker with
      | .copying copy => copy.cells.length < copy.jmax ∨ Undisturbed copy
      | .idle | .entered | .typed _ _ | .running _ | .dead => True

def Stale (state : State) : Prop :=
  state.injected = none ∨ (toMailbox state).own.getLast? = some state.injected

def WorkerHolds (state : State) : Prop :=
  let mailbox := toMailbox state
  match state.worker with
  | .copying copy => (∀ entry ∈ mailbox.taken, entry.1 ≤ copy.readAt) ∧
      mailbox.programs = mailbox.own ∧ state.injected = none
  | .running true => mailbox.programs = mailbox.own ++ [state.injected]
  | .running false | .idle | .entered | .typed _ _ => mailbox.programs = mailbox.own ∧ Stale state
  | .dead => True

structure Refines (state : State) (mailbox : Mailbox) : Prop where
  traced : Traced text state
  view : mailbox = toMailbox state
  newest : ∀ entry ∈ (toMailbox state).taken, entry.1 ≤ state.sent.length
  worker : WorkerHolds state

theorem boot_refines (words : Nat → Word) : Refines text (boot words) Mailbox.empty where
  traced := boot_traced text words
  view := rfl
  newest := nofun
  worker := ⟨rfl, .inl rfl⟩

theorem integral_injecting (state : State) (action : Action) (integral : Integral state action) :
    Injecting action := by
  cases action with
  | raise | report => exact integral.elim
  | inject | handle | work => trivial

section Steps
variable (state next : State)

theorem inject_refines (message : Message) (traced : Traced text (inject message state))
    (refines : Refines text state (toMailbox state)) :
    Refines text (inject message state) (toMailbox (inject message state)) := by
  refine ⟨traced, rfl, ?_, refines.worker⟩
  intro entry member
  have newest := refines.newest entry member
  simp only [inject, List.length_append]
  omega

theorem handle_refines (traced : Traced text next) (moves : Moves text state .handle next)
    (refines : Refines text state (toMailbox state)) : Refines text next (toMailbox state) := by
  rcases refines with ⟨-, -, newest, worker⟩
  cases moves <;> exact ⟨traced, rfl, newest, worker⟩

/-- A complete copy no message arrived under is the newest message so far. -/
theorem copy_taken (copy : Copy) (name : String) (traced : CopyTraced state.sent copy)
    (complete : ¬ copy.cells.length < copy.jmax) (undisturbed : Undisturbed copy)
    (named : prognameFromIdx copy.programId = some name) :
    some (buildProg name (copy.insns.map (resolveCall text))) =
      (lastOf state.sent copy.readAt).map (Message.program text) := by
  cases found : lastOf state.sent copy.typedAt with
  | none =>
      have unset : copy.programType = 0#8 := by simp [traced.type, typeAt, found]
      rw [Copy.programId, unset] at named
      cases named
  | some message =>
      have part := traced.part undisturbed message found
      rw [← undisturbed, found, part_of_program message copy text name part complete named]
      rfl

theorem work_refines (answers : Answers) (traced : Traced text next)
    (integral : Integral state (.work answers))
    (taken : step text state (.work answers) = some next)
    (refines : Refines text state (toMailbox state)) :
    ∃ later, run (Mailbox.step text) (toMailbox state) (effect text state (.work answers)) =
      some later ∧ Refines text next later := by
  rcases refines with ⟨tracedBefore, -, newest, worker⟩
  unfold WorkerHolds at worker
  unfold Integral at integral
  cases step_moves text state next (.work answers) taken with
  | start _ at_worker | readType _ at_worker | refused _ _ _ at_worker =>
      simp only [at_worker] at worker
      exact ⟨toMailbox state, by simp [effect, at_worker], traced, rfl, newest, worker⟩
  | readHeader _ _ _ at_worker =>
      simp only [at_worker] at worker
      exact ⟨toMailbox state, by simp [effect, at_worker], traced, rfl, newest, newest, worker.1,
        free_previous_gone state.guest⟩
  | readWord _ copy at_worker more =>
      simp only [at_worker] at worker
      exact ⟨toMailbox state, by simp [effect, at_worker, more], traced, rfl, newest, newest,
        worker.2⟩
  | died _ copy guest at_worker complete =>
      simp only [step, work, at_worker, complete, if_false, Option.some.injEq] at taken
      exact ⟨toMailbox state, by simp [effect, at_worker, complete, taken], traced, rfl, newest,
        trivial⟩
  | failed _ copy guest at_worker complete left =>
      simp only [at_worker] at worker
      simp only [step, work, at_worker, complete, if_false, Option.some.injEq] at taken
      refine ⟨toMailbox state, by simp [effect, at_worker, complete, taken], traced, rfl, newest,
        worker.2.1, .inl ?_⟩
      -- the old program was freed when the copy began
      rcases left with rfl | null
      · exact worker.2.2
      · simp [State.injected, null]
  | built _ copy guest name at_worker complete named installed =>
      have copied := tracedBefore.worker
      simp only [at_worker] at worker integral copied
      simp only [step, work, at_worker, complete, if_false, Option.some.injEq] at taken
      have program := copy_taken text state copy name copied complete
        (integral.resolve_left complete) named
      have may : MayTake text (toMailbox state) copy.readAt
          (some (buildProg name (copy.insns.map (resolveCall text)))) :=
        ⟨worker.1, copied.past, rfl, program, worker.2.1⟩
      have more : ∀ later, toMailbox { state with
          guest := later
          worker := .running true
          installs := state.installs ++
            [⟨copy, some (buildProg name (copy.insns.map (resolveCall text)))⟩] } =
          { toMailbox state with
            taken := (toMailbox state).taken ++
              [(copy.readAt, some (buildProg name (copy.insns.map (resolveCall text))))] } := by
        intro later
        simp [toMailbox]
      refine ⟨_, ?_, traced, rfl, ?_, ?_⟩
      · simp [effect, at_worker, complete, taken, State.injected, installed, run, Mailbox.step, may,
          more]
      · intro entry member
        rw [more] at member
        rcases List.mem_append.mp member with earlier | last
        · exact newest entry earlier
        · rw [List.mem_singleton.mp last]
          exact copied.past
      · have before : (toMailbox state).taken.map Prod.snd = (toMailbox state).own := worker.2.1
        simp only [WorkerHolds, more, Mailbox.programs, List.map_append, before, State.injected,
          installed]
        rfl
  | run _ built at_worker =>
      have own := own_programs_append state.runs ⟨built, state.injected⟩
      have may : MayExecute (toMailbox state) ⟨built, state.injected⟩ := by
        cases built <;> simpa [MayExecute, Stale, at_worker] using worker
      refine ⟨_, by simp [effect, at_worker, run, Mailbox.step, may]; rfl, traced, rfl, newest, ?_⟩
      cases built with
      | false =>
          simp only [at_worker] at worker
          simp only [Bool.false_eq_true, if_false] at own
          exact ⟨worker.1.trans own.symm, worker.2.imp_right fun last => (congrArg _ own).trans last⟩
      | true =>
          simp only [at_worker] at worker
          simp only [if_true] at own
          refine ⟨worker.trans own.symm, .inr ?_⟩
          exact (congrArg List.getLast? own).trans List.getLast?_concat

end Steps

def mailboxSimulation : Simulation (step text) Integral (Mailbox.step text) where
  effect := effect text
  related := Refines text
  matched := by
    intro state action next abstract refines integral taken
    have moves := step_moves text state next action taken
    have traced := moves_traced text state next action refines.traced
      (integral_injecting state action integral) moves
    have view := refines.view
    subst view
    cases action with
    | raise | report => exact integral.elim
    | inject message =>
        cases moves
        exact ⟨_, by simp [effect, run, Mailbox.step, toMailbox, inject],
          inject_refines text state message traced refines⟩
    | handle => exact ⟨_, rfl, handle_refines text state next traced moves refines⟩
    | work answers => exact work_refines text state next answers traced integral taken refines

end Machine

/-- In every interleaving of messages, handler and worker in which no message
arrives under a complete copy, the installed programs and all executions are
those of a mailbox: each program is a message's, later ones are of later messages
or of the same one, each is executed once by its own activation before the next
is installed, and an activation that installed nothing executes the last one
again, or none. -/
theorem injection_refines_mailbox (text : KernelText) (words : Nat → Word) (history : List Action)
    (state : State) (integral : Along (step text) Integral (boot words) history)
    (replay : run (step text) (boot words) history = some state) :
    run (Mailbox.step text) Mailbox.empty
        (eventsOf (step text) (effect text) (boot words) history) = some (toMailbox state) ∧
      InOrder text (toMailbox state) := by
  obtain ⟨mailbox, recorded, refines⟩ :=
    (mailboxSimulation text).run_matched (boot_refines text words) integral replay
  rw [refines.view] at recorded
  exact ⟨recorded, run_invariant (Mailbox.step text) (InOrder text)
    (fun before event after ordered moved =>
      mailbox_step_in_order text before after event ordered moved)
    (empty_in_order text) recorded⟩

instance (state : State) : (action : Action) → Decidable (Integral state action)
  | .inject _ | .handle => isTrue trivial
  | .raise _ | .report _ => isFalse id
  | .work _ =>
      match at_worker : state.worker with
      | .copying copy => decidable_of_iff (copy.cells.length < copy.jmax ∨ Undisturbed copy)
          (by simp [Integral, at_worker])
      | .idle | .entered | .typed _ _ | .running _ | .dead =>
          isTrue (by simp [Integral, at_worker])

/-- Four messages, of which the second is overwritten before it is read and the
setup for the fourth is refused its memory. -/
def skippingHistory : List Action :=
  [.inject exitMessage] ++ List.replicate 4 .handle ++ List.replicate 7 (.work served) ++
    [.inject exitMessage, .inject moveMessage] ++ List.replicate 4 .handle ++
    List.replicate 7 (.work served) ++ [.inject exitMessage] ++ List.replicate 4 .handle ++
    List.replicate 4 (.work ⟨false, true, true⟩)

theorem skipping_refines_mailbox :
    ∃ state, run (step ⟨0, 0, 0, 0⟩) (boot fun _ => 0#32) skippingHistory = some state ∧
      (toMailbox state).taken.map Prod.fst = [1, 3] ∧
      (toMailbox state).executed.map Run.built = [true, true, false] ∧
      run (Mailbox.step ⟨0, 0, 0, 0⟩) Mailbox.empty
          (eventsOf (step ⟨0, 0, 0, 0⟩) (effect ⟨0, 0, 0, 0⟩) (boot fun _ => 0#32)
            skippingHistory) = some (toMailbox state) ∧
      InOrder ⟨0, 0, 0, 0⟩ (toMailbox state) := by
  have reached : (run (step ⟨0, 0, 0, 0⟩) (boot fun _ => 0#32) skippingHistory).any (fun state =>
      (toMailbox state).taken.map Prod.fst = [1, 3] ∧
        (toMailbox state).executed.map Run.built = [true, true, false]) = true := by decide
  obtain ⟨state, replay, counts⟩ := (Option.any_eq_true _ _).mp reached
  obtain ⟨taken, executed⟩ := of_decide_eq_true counts
  exact ⟨state, replay, taken, executed,
    injection_refines_mailbox _ _ skippingHistory state (by decide) replay⟩

end EbpfInjection.InjectionOrder
