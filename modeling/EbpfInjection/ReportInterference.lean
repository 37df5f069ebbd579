import EbpfInjection.LatestMessage

/-!
The free-page report and the injections share the device buffer. The report is
written where the header and the first three payload words of a message stand;
what a message still owes the worker is everything the worker has not read.
-/

namespace EbpfInjection.ReportInterference
open LittleEndian InjectionMessage HelperFixup ProgramSetup FreePageReport InjectionMachine
open LatestMessage TransitionSystem

def HandlerAsked : Handler → Prop
  | .dispatch irqStatus _ => (injectionOf irqStatus).isSome = true
  | .schedule _ _ => True
  | _ => False

def WorkerAsked : Worker → Prop
  | .entered | .typed _ _ => True
  | _ => False

def WordLeft : Worker → Nat → Prop
  | .copying copy, offset =>
      ∃ j, j < copy.jmax ∧ copy.cells.length ≤ j ∧ offset = payloadOffset j
  | _, _ => False

/-- A message waits for its interrupt, for the work or for its header to be read. -/
def Awaited (state : State) : Prop :=
  (injectionOf state.status).isSome = true ∨ HandlerAsked state.handler ∨
    state.pending = true ∨ WorkerAsked state.worker

def StillToRead (state : State) (offset : Nat) : Prop :=
  Awaited state ∨ WordLeft state.worker offset

def reportOffsets : List Nat := [newdevBuf, payloadOffset 0, payloadOffset 1, payloadOffset 2]

def InReport : Handler → Prop
  | .reporting _ _ _ => True
  | _ => False

/-- A report starts only when none of its words is still to be read as part of
a message, and no message arrives while it is written. -/
def ReportsApart (state : State) : Action → Prop
  | .report _ => ∀ offset ∈ reportOffsets, ¬ StillToRead state offset
  | .inject _ => ¬ InReport state.handler
  | _ => True

section Decidability

instance : (handler : Handler) → Decidable (HandlerAsked handler)
  | .dispatch irqStatus _ => inferInstanceAs (Decidable ((injectionOf irqStatus).isSome = true))
  | .schedule _ _ => isTrue trivial
  | .idle | .reporting _ _ _ | .ack _ _ => isFalse id

instance : (worker : Worker) → Decidable (WorkerAsked worker)
  | .entered | .typed _ _ => isTrue trivial
  | .idle | .copying _ | .running _ | .dead => isFalse id

instance : (worker : Worker) → (offset : Nat) → Decidable (WordLeft worker offset)
  | .copying copy, offset => inferInstanceAs (Decidable
      (∃ j, j < copy.jmax ∧ copy.cells.length ≤ j ∧ offset = payloadOffset j))
  | .idle, _ | .entered, _ | .typed _ _, _ | .running _, _ | .dead, _ => isFalse id

instance (state : State) : Decidable (Awaited state) := inferInstanceAs (Decidable (_ ∨ _ ∨ _ ∨ _))

instance (state : State) (offset : Nat) : Decidable (StillToRead state offset) :=
  inferInstanceAs (Decidable (_ ∨ _))

instance : (handler : Handler) → Decidable (InReport handler)
  | .reporting _ _ _ => isTrue trivial
  | .idle | .dispatch _ _ | .schedule _ _ | .ack _ _ => isFalse id

instance (state : State) : (action : Action) → Decidable (ReportsApart state action)
  | .report _ => inferInstanceAs (Decidable (∀ offset ∈ reportOffsets, ¬ StillToRead state offset))
  | .inject _ => inferInstanceAs (Decidable (¬ InReport state.handler))
  | .raise _ | .handle | .work _ => isTrue trivial

end Decidability

section Back
variable (text : KernelText) (state next : State) (action : Action)

theorem awaited_back (moves : Moves text state action next)
    (noMessage : ∀ message, action ≠ .inject message) (awaited : Awaited next) :
    Awaited state := by
  unfold Awaited at awaited ⊢
  cases moves with
  | inject message => exact absurd rfl (noMessage message)
  | raise status other =>
      simp only [other, Option.isSome_none, Bool.false_eq_true, false_or] at awaited
      exact .inr awaited
  | enter at_handler =>
      -- the handler now asks for what the status register shows
      rcases awaited with shown | shown | queued | asked
      · exact .inl shown
      · exact .inl shown
      · exact .inr (.inr (.inl queued))
      · exact .inr (.inr (.inr asked))
  | setType irqStatus seen type at_handler asked =>
      right; left
      simp [at_handler, HandlerAsked, asked]
  | schedule irqStatus seen at_handler =>
      right; left
      simp [at_handler, HandlerAsked]
  | startReport | ignore | writeReport | endReport | acknowledge =>
      rcases awaited with shown | asked | owed
      · exact .inl shown
      · exact asked.elim
      · exact .inr (.inr owed)
  | start answers at_worker queued => exact .inr (.inr (.inl queued))
  | readType answers at_worker => exact .inr (.inr (.inr (by rw [at_worker]; trivial)))
  | refused answers programType typedAt at_worker
  | readHeader answers programType typedAt at_worker =>
      exact .inr (.inr (.inr (by rw [at_worker]; trivial)))
  | readWord | died | failed | built | run =>
      rcases awaited with shown | owed | queued | asked
      · exact .inl shown
      · exact .inr (.inl owed)
      · exact .inr (.inr (.inl queued))
      · exact asked.elim

theorem still_to_read_back (moves : Moves text state action next)
    (noMessage : ∀ message, action ≠ .inject message) (offset : Nat)
    (left : StillToRead next offset) : StillToRead state offset := by
  rcases left with awaited | left
  · exact .inl (awaited_back text state next action moves noMessage awaited)
  · cases moves with
    | inject message => exact absurd rfl (noMessage message)
    | start | readType | refused | died | failed | built | run => exact left.elim
    | readHeader answers programType typedAt at_worker =>
        exact .inl (.inr (.inr (.inr (by rw [at_worker]; trivial))))
    | readWord answers copy at_worker more =>
        rcases left with ⟨j, below, unread, same⟩
        simp only [List.length_append, List.length_singleton] at unread
        right
        rw [at_worker]
        exact ⟨j, below, by omega, same⟩
    | raise | enter | setType | ignore | schedule | startReport | writeReport | endReport
    | acknowledge => exact .inr left

end Back

/-! The frame of the report, in every run: its writes stay on four words. -/
section Frame

def InFrame (offset : Nat) : Prop := newdevBuf ≤ offset → offset ∈ reportOffsets

theorem device_writes_frame (scan : Scan) :
    ∀ write ∈ deviceWrites scan.bufferPhys scan.elapsed scan.count, InFrame write.1 := by
  simp [deviceWrites, InFrame, reportOffsets, payloadOffset, newdevBuf, headerOffset,
    newdevRegDoorbell]

def TodoFramed : Handler → Prop
  | .reporting _ _ todo => ∀ write ∈ todo, InFrame write.1
  | _ => True

structure Framed (state : State) : Prop where
  buffer : ∀ offset, (state.buffer offset).origin = .report → offset ∈ reportOffsets
  todo : TodoFramed state.handler

theorem store_message_report (message : Message) (buffer : Nat → Cell) (offset : Nat)
    (written : (storeMessage message buffer offset).origin = .report) :
    (buffer offset).origin = .report := by
  unfold storeMessage at written
  split at written
  · cases written
  · split at written
    · exact written
    · split at written
      · cases written
      · exact written

theorem moves_framed (text : KernelText) (state next : State) (action : Action)
    (framed : Framed state) (moves : Moves text state action next) : Framed next := by
  rcases framed with ⟨buffer, todo⟩
  cases moves with
  | inject message =>
      exact ⟨fun offset written =>
        buffer offset (store_message_report message state.buffer offset written), todo⟩
  | startReport scan irqStatus seen at_handler => exact ⟨buffer, device_writes_frame scan⟩
  | writeReport irqStatus seen offset value rest at_handler =>
      rw [at_handler] at todo
      constructor
      · intro other written
        dsimp only at written
        split at written
        · rename_i inside
          by_cases same : other = offset
          · rw [same]
            exact todo (offset, value) List.mem_cons_self inside
          · rw [Function.update_of_ne same] at written
            exact buffer other written
        · exact buffer other written
      · intro write member
        exact todo write (List.mem_cons_of_mem _ member)
  | enter | setType | ignore | schedule | endReport | acknowledge => exact ⟨buffer, trivial⟩
  | raise | start | readType | refused | readHeader | readWord | died | failed | built | run =>
      exact ⟨buffer, todo⟩

theorem boot_framed (words : Nat → Word) : Framed (boot words) where
  buffer := fun _ written => by cases written
  todo := trivial

theorem run_framed (text : KernelText) (words : Nat → Word) (history : List Action) (state : State)
    (replay : run (step text) (boot words) history = some state) : Framed state :=
  run_invariant (step text) Framed
    (fun before action after framed taken =>
      moves_framed text before after action framed (step_moves text before after action taken))
    (boot_framed words) replay

end Frame

/-! Reports apart from the injections. -/
section Apart

def HostOnly (copy : Copy) : Prop :=
  copy.header.origin ≠ .report ∧ ∀ cell ∈ copy.cells, cell.origin ≠ .report

def WordsClean (buffer : Nat → Cell) (count jmax : Nat) : Prop :=
  ∀ j, count ≤ j → j < jmax → (buffer (payloadOffset j)).origin ≠ .report

def BufferClean (buffer : Nat → Cell) : Prop :=
  (buffer newdevBuf).origin ≠ .report ∧
    WordsClean buffer 0 ((MsgHeader.ofWord (buffer newdevBuf).value).payloadLen.toNat / 8 * 8 / 4)

def WorkerClean (buffer : Nat → Cell) : Worker → Prop
  | .copying copy => HostOnly copy ∧ WordsClean buffer copy.cells.length copy.jmax
  | _ => True

def TodoApart (state : State) : Handler → Prop
  | .reporting _ _ todo =>
      ∀ write ∈ todo, newdevBuf ≤ write.1 → ¬ StillToRead state write.1
  | _ => True

structure Apart (state : State) : Prop where
  awaited : Awaited state → BufferClean state.buffer
  worker : WorkerClean state.buffer state.worker
  todo : TodoApart state state.handler
  installs : ∀ install ∈ state.installs, HostOnly install.copy

theorem stored_clean (message : Message) (buffer : Nat → Cell) :
    BufferClean (storeMessage message buffer) := by
  have stored := store_message_stored message buffer
  constructor
  · simp [stored.header]
  · intro j _ below
    rw [stored.header, MsgHeader.of_word_to_word] at below
    have inside : j < message.payload.length :=
      Nat.lt_of_lt_of_le below (announced_covered message)
    rw [stored.payload j _ (List.getElem?_eq_getElem inside)]
    nofun

theorem worker_clean_stored (message : Message) (buffer : Nat → Cell) (worker : Worker)
    (clean : WorkerClean buffer worker) : WorkerClean (storeMessage message buffer) worker := by
  cases worker with
  | copying copy =>
      constructor
      · exact clean.1
      · intro j unread below written
        exact clean.2 j unread below (store_message_report message buffer _ written)
  | idle | entered | typed | running | dead => trivial

theorem worker_clean_written (state : State) (offset : Nat) (cell : Cell)
    (apart : ¬ StillToRead state offset) (clean : WorkerClean state.buffer state.worker) :
    WorkerClean (Function.update state.buffer offset cell) state.worker := by
  cases at_worker : state.worker with
  | copying copy =>
      rw [at_worker] at clean
      constructor
      · exact clean.1
      · intro j unread below
        have other : payloadOffset j ≠ offset := by
          intro same
          apply apart
          right
          rw [at_worker]
          exact ⟨j, below, unread, same.symm⟩
        rw [Function.update_of_ne other]
        exact clean.2 j unread below
  | idle | entered | typed | running | dead => trivial

/-- Once a report word is to be written, no message waits for that word. -/
theorem write_apart (state : State) (irqStatus : Word) (seen offset : Nat) (value : Word)
    (rest : List (Nat × Word)) (todo : TodoApart state state.handler)
    (at_handler : state.handler = .reporting irqStatus seen ((offset, value) :: rest))
    (inside : newdevBuf ≤ offset) : ¬ StillToRead state offset := by
  rw [at_handler] at todo
  exact todo (offset, value) List.mem_cons_self inside

theorem todo_apart_back (text : KernelText) (state next : State) (action : Action)
    (moves : Moves text state action next) (noMessage : ∀ message, action ≠ .inject message)
    (handler : Handler) (apart : TodoApart state handler) : TodoApart next handler := by
  cases handler with
  | reporting irqStatus seen todo =>
      intro write member inside left
      exact apart write member inside
        (still_to_read_back text state next action moves noMessage write.1 left)
  | idle | dispatch | schedule | ack => trivial

theorem todo_apart_outside (state : State) (handler : Handler) (outside : ¬ InReport handler) :
    TodoApart state handler := by
  cases handler with
  | reporting => exact absurd trivial outside
  | idle | dispatch | schedule | ack => trivial

theorem word_read_clean (buffer : Nat → Cell) (copy : Copy) (readAt : Nat)
    (more : copy.cells.length < copy.jmax) (clean : WorkerClean buffer (.copying copy)) :
    WorkerClean buffer (.copying { copy with
      cells := copy.cells ++ [buffer (payloadOffset copy.cells.length)]
      readAt }) := by
  rcases clean with ⟨⟨header, cells⟩, words⟩
  have grown : ∀ cell ∈ copy.cells ++ [buffer (payloadOffset copy.cells.length)],
      cell.origin ≠ .report := by
    intro cell member
    rcases List.mem_append.mp member with old | new
    · exact cells cell old
    · rw [List.mem_singleton.mp new]
      exact words _ (Nat.le_refl _) more
  refine ⟨⟨header, grown⟩, ?_⟩
  intro j unread below
  simp only [List.length_append, List.length_singleton] at unread
  exact words j (by omega) below

theorem boot_apart (words : Nat → Word) : Apart (boot words) where
  awaited := by rintro (asked | asked | asked | asked) <;> cases asked
  worker := trivial
  todo := trivial
  installs := nofun

theorem moves_apart (text : KernelText) (state next : State) (action : Action)
    (apart : Apart state) (guard : ReportsApart state action)
    (moves : Moves text state action next) : Apart next := by
  rcases apart with ⟨awaited, worker, todo, installs⟩
  by_cases injecting : ∃ message, action = .inject message
  · rcases injecting with ⟨message, rfl⟩
    cases moves
    exact ⟨fun _ => stored_clean message state.buffer,
      worker_clean_stored message state.buffer state.worker worker,
      todo_apart_outside _ state.handler guard, installs⟩
  -- without a new message, a word waited for afterwards was waited for before
  have noMessage : ∀ message, action ≠ .inject message :=
    fun message same => injecting ⟨message, same⟩
  have back := awaited_back text state next action moves noMessage
  have left := todo_apart_back text state next action moves noMessage
  cases moves with
  | inject message => exact absurd rfl (noMessage message)
  | startReport scan irqStatus seen at_handler =>
      refine ⟨fun asked => awaited (back asked), worker, left (.reporting _ _ _) ?_, installs⟩
      intro write member inside
      exact guard write.1 (device_writes_frame scan write member inside)
  | writeReport irqStatus seen offset value rest at_handler =>
      have free := write_apart state irqStatus seen offset value rest todo at_handler
      rw [at_handler] at todo
      constructor
      · intro asked
        dsimp only
        split
        · rename_i inside
          exact absurd (.inl (back asked)) (free inside)
        · exact awaited (back asked)
      · dsimp only
        split
        · rename_i inside
          exact worker_clean_written state offset _ (free inside) worker
        · exact worker
      · apply left (.reporting _ _ _)
        intro write member
        exact todo write (List.mem_cons_of_mem _ member)
      · exact installs
  | raise status other =>
      exact ⟨fun asked => awaited (back asked), worker, left state.handler todo, installs⟩
  | enter | setType | ignore | schedule | endReport | acknowledge =>
      exact ⟨fun asked => awaited (back asked), worker, trivial, installs⟩
  | start | readType | refused | died | failed | run =>
      exact ⟨fun asked => awaited (back asked), trivial, left state.handler todo, installs⟩
  | readHeader answers programType typedAt at_worker =>
      -- the loop starts on a buffer the message alone has written
      have clean := awaited (.inr (.inr (.inr (by rw [at_worker]; trivial))))
      have nothingRead : ∀ cell ∈ ([] : List Cell), cell.origin ≠ .report :=
        fun cell member => absurd member List.not_mem_nil
      exact ⟨fun asked => awaited (back asked), ⟨⟨clean.1, nothingRead⟩, clean.2⟩,
        left state.handler todo, installs⟩
  | readWord answers copy at_worker more =>
      rw [at_worker] at worker
      exact ⟨fun asked => awaited (back asked), word_read_clean state.buffer copy _ more worker,
        left state.handler todo, installs⟩
  | built answers copy guest name at_worker complete named installed =>
      rw [at_worker] at worker
      refine ⟨fun asked => awaited (back asked), trivial, left state.handler todo, ?_⟩
      intro install member
      rcases List.mem_append.mp member with old | new
      · exact installs install old
      · rw [List.mem_singleton.mp new]
        exact worker.1

theorem run_apart (text : KernelText) (words : Nat → Word) (history : List Action) (state : State)
    (apart : Along (step text) ReportsApart (boot words) history)
    (replay : run (step text) (boot words) history = some state) : Apart state :=
  guarded_invariant (step text) Apart ReportsApart
    (fun before action after clean guard taken =>
      moves_apart text before after action clean guard (step_moves text before after action taken))
    (boot_apart words) apart replay

def SparesUnread (text : KernelText) (state : State) (action : Action) : Prop :=
  InReport state.handler → action = .handle → ∀ next, step text state action = some next →
    ∀ offset, StillToRead state offset → next.buffer offset = state.buffer offset

theorem apart_spares (text : KernelText) (state : State) (action : Action) (apart : Apart state) :
    SparesUnread text state action := by
  intro reporting handled next taken offset left
  subst handled
  cases step_moves text state next .handle taken with
  | writeReport irqStatus seen target value rest at_handler =>
      have free := write_apart state irqStatus seen target value rest apart.todo at_handler
      dsimp only
      split
      · rename_i inside
        have other : offset ≠ target := by
          rintro rfl
          exact free inside left
        exact Function.update_of_ne other _ _
      · rfl
  | endReport irqStatus seen at_handler => rfl
  | enter at_handler | setType _ _ _ at_handler | ignore _ _ at_handler
  | schedule _ _ at_handler | acknowledge _ _ at_handler =>
      simp [at_handler, InReport] at reporting

/-- Report words only ever stand in four words of the buffer. When reports keep
apart from the injections, handling one changes no word still to be read, and
no installed program contains a word of a report. -/
theorem report_spares_injections (text : KernelText) (words : Nat → Word) (history : List Action)
    (state : State) (replay : run (step text) (boot words) history = some state) :
    (∀ offset, (state.buffer offset).origin = .report → offset ∈ reportOffsets) ∧
      (Along (step text) ReportsApart (boot words) history →
        Along (step text) (SparesUnread text) (boot words) history ∧
          ∀ install ∈ state.installs, HostOnly install.copy) := by
  constructor
  · exact (run_framed text words history state replay).buffer
  intro apart
  constructor
  · exact along_of_invariant (step text) Apart ReportsApart (SparesUnread text)
      (fun before action after clean guard taken =>
        moves_apart text before after action clean guard
          (step_moves text before after action taken))
      (fun before action clean _ => apart_spares text before action clean) (boot_apart words) apart
  · exact (run_apart text words history state apart replay).installs

instance (copy : Copy) : Decidable (HostOnly copy) := inferInstanceAs (Decidable (_ ∧ _))

def startStatus : Word := BitVec.ofNat 32 firstRoundMigrationStart

def reportHistory : List Action :=
  [.raise startStatus, .handle, .report ⟨0x7f000000#64, 0#32, 4⟩] ++ List.replicate 7 .handle

theorem report_before_injection :
    ∃ state, run (step ⟨0, 0, 0, 0⟩) (boot fun _ => 0#32)
        (reportHistory ++ [.inject exitMessage] ++ List.replicate 4 .handle ++
          List.replicate 7 (.work served)) = some state ∧
      state.installs.length = 1 ∧ ∀ install ∈ state.installs, HostOnly install.copy := by
  have reached : (run (step ⟨0, 0, 0, 0⟩) (boot fun _ => 0#32)
      (reportHistory ++ [.inject exitMessage] ++ List.replicate 4 .handle ++
        List.replicate 7 (.work served))).any (fun state => state.installs.length = 1) = true := by
    decide
  obtain ⟨state, replay, one⟩ := (Option.any_eq_true _ _).mp reached
  have spared := report_spares_injections ⟨0, 0, 0, 0⟩ (fun _ => 0#32) _ state replay
  exact ⟨state, replay, of_decide_eq_true one, (spared.2 (by decide)).2⟩

/-- The report is handled while the work for the message is pending; what the
worker installs is the report. -/
theorem report_over_injection :
    ∃ state, run (step ⟨0, 0, 0, 0⟩) (boot fun _ => 0#32)
        ([.inject exitMessage] ++ List.replicate 4 .handle ++ reportHistory ++
          List.replicate 6 (.work served)) = some state ∧
      ∃ install ∈ state.installs, ¬ HostOnly install.copy := by
  have reached : (run (step ⟨0, 0, 0, 0⟩) (boot fun _ => 0#32)
      ([.inject exitMessage] ++ List.replicate 4 .handle ++ reportHistory ++
        List.replicate 6 (.work served))).any (fun state =>
          state.installs.any fun install => ¬ HostOnly install.copy) = true := by decide
  obtain ⟨state, replay, checked⟩ := (Option.any_eq_true _ _).mp reached
  exact ⟨state, replay, by simpa using checked⟩

end Apart

end EbpfInjection.ReportInterference
