import EbpfInjection.LatestMessage

/-!
What the device finds in its buffer when the doorbell of a free-page report
rings. The report is written word by word where the host stores its messages,
and nothing keeps the host from storing one in between.
-/

namespace EbpfInjection.ReportDoorbell
open LittleEndian InjectionMessage HelperFixup FreePageReport InjectionMachine LatestMessage
open TransitionSystem

def pendingWrites : Handler → List (Nat × Word)
  | .reporting _ _ todo => todo
  | .idle | .dispatch _ _ | .schedule _ _ | .ack _ _ => []

def flushFirst (todo : List (Nat × Word)) (buffer : Nat → Cell) : Nat → Cell :=
  match todo with
  | [] => buffer
  | (offset, value) :: _ =>
      if newdevBuf ≤ offset then Function.update buffer offset ⟨value, .report⟩ else buffer

def reportWrites (scan : Scan) : List (Nat × Word) :=
  deviceWrites scan.bufferPhys scan.elapsed scan.count

inductive Writes (state next : State) : Action → Prop where
  | store (message : Message)
      (pending : pendingWrites next.handler = pendingWrites state.handler)
      (buffer : next.buffer = storeMessage message state.buffer) :
      Writes state next (.inject message)
  | start (scan : Scan) (pending : pendingWrites next.handler = reportWrites scan)
      (buffer : next.buffer = state.buffer) : Writes state next (.report scan)
  | flush (pending : pendingWrites next.handler = (pendingWrites state.handler).tail)
      (buffer : next.buffer = flushFirst (pendingWrites state.handler) state.buffer) :
      Writes state next .handle
  | stay (action : Action) (noHandle : action ≠ .handle) (noReport : ∀ scan, action ≠ .report scan)
      (pending : pendingWrites next.handler = pendingWrites state.handler)
      (buffer : next.buffer = state.buffer) : Writes state next action

/-- Every step of the handler makes the first of the pending writes; the worker
and the other interrupts leave the buffer alone. -/
theorem step_writes (text : KernelText) (state next : State) (action : Action)
    (taken : step text state action = some next) : Writes state next action := by
  cases step_moves text state next action taken with
  | inject message => exact .store message rfl rfl
  | startReport scan => exact .start scan rfl rfl
  | enter at_handler | setType _ _ _ at_handler | ignore _ _ at_handler
  | schedule _ _ at_handler | writeReport _ _ _ _ _ at_handler | endReport _ _ at_handler
  | acknowledge _ _ at_handler =>
      apply Writes.flush <;> simp [pendingWrites, flushFirst, at_handler]
  | raise => exact .stay _ (by simp) (by simp) rfl rfl
  | start | readType | refused | readHeader | readWord | died | failed | built | run =>
      exact .stay _ (by simp) (by simp) rfl rfl

def Shows (writes : List (Nat × Word)) (buffer : Nat → Cell) : Prop :=
  ∀ write ∈ writes, newdevBuf ≤ write.1 → buffer write.1 = ⟨write.2, .report⟩

def Intact (writes : List (Nat × Word)) (state : State) : Prop :=
  ∃ made, writes = made ++ pendingWrites state.handler ∧ Shows made state.buffer

theorem flush_shows (made pending : List (Nat × Word)) (buffer : Nat → Cell)
    (apart : ((made ++ pending).map Prod.fst).Nodup) (shown : Shows made buffer) :
    ∃ more, made ++ pending = more ++ pending.tail ∧ Shows more (flushFirst pending buffer) := by
  cases pending with
  | nil => exact ⟨made, rfl, shown⟩
  | cons write rest =>
      rw [List.map_append, List.map_cons, List.nodup_append] at apart
      refine ⟨made ++ [write], by simp, ?_⟩
      intro other member above
      rcases List.mem_append.mp member with earlier | last
      · have different : other.1 ≠ write.1 :=
          apart.2.2 _ (List.mem_map_of_mem earlier) _ List.mem_cons_self
        have kept := shown other earlier above
        simp only [flushFirst]
        split
        · rwa [Function.update_of_ne different]
        · exact kept
      · rw [List.mem_singleton.mp last] at above ⊢
        simp [flushFirst, above]

/-- No message is stored from the first step of the handler on, which writes
the header of the report. -/
def NoneBehindHeader : List Action → Prop
  | [] => True
  | .handle :: rest => ∀ message, .inject message ∉ rest
  | _ :: rest => NoneBehindHeader rest

section Runs
variable (text : KernelText) (writes : List (Nat × Word)) (state next : State) (action : Action)

theorem intact_step (apart : (writes.map Prod.fst).Nodup) (intact : Intact writes state)
    (noMessage : ∀ message, action ≠ .inject message) (noReport : ∀ scan, action ≠ .report scan)
    (taken : step text state action = some next) : Intact writes next := by
  rcases intact with ⟨made, split, shown⟩
  cases step_writes text state next action taken with
  | store message => exact absurd rfl (noMessage message)
  | start scan => exact absurd rfl (noReport scan)
  | flush pending buffer =>
      obtain ⟨more, split', shown'⟩ := flush_shows made _ state.buffer (split ▸ apart) shown
      exact ⟨more, by rw [split, split', pending], buffer ▸ shown'⟩
  | stay _ _ _ pending buffer => exact ⟨made, by rw [split, pending], buffer ▸ shown⟩

def HeaderMade (state : State) : Prop := ∀ write ∈ pendingWrites state.handler, write.1 ≠ newdevBuf

def Spoiled (state : State) : Prop := HeaderMade state ∧ (state.buffer newdevBuf).origin = .host

theorem header_made_step (made : HeaderMade state) (noReport : ∀ scan, action ≠ .report scan)
    (taken : step text state action = some next) : HeaderMade next := by
  unfold HeaderMade at made ⊢
  cases step_writes text state next action taken with
  | start scan => exact absurd rfl (noReport scan)
  | flush pending =>
      rw [pending]
      exact fun write member => made write (List.mem_of_mem_tail member)
  | store message pending => rwa [pending]
  | stay _ _ _ pending => rwa [pending]

theorem flush_header (pending : List (Nat × Word)) (buffer : Nat → Cell)
    (made : ∀ write ∈ pending, write.1 ≠ newdevBuf) :
    flushFirst pending buffer newdevBuf = buffer newdevBuf := by
  cases pending with
  | nil => rfl
  | cons write rest =>
      have different := made write List.mem_cons_self
      simp only [flushFirst]
      split
      · exact Function.update_of_ne (Ne.symm different) _ _
      · rfl

theorem spoiled_step (spoiled : Spoiled state) (noReport : ∀ scan, action ≠ .report scan)
    (taken : step text state action = some next) : Spoiled next := by
  refine ⟨header_made_step text state next action spoiled.1 noReport taken, ?_⟩
  cases step_writes text state next action taken with
  | store message _ buffer => simp [buffer, storeMessage]
  | start scan => exact absurd rfl (noReport scan)
  | flush _ buffer =>
      rw [buffer, flush_header _ _ spoiled.1]
      exact spoiled.2
  | stay _ _ _ _ buffer =>
      rw [buffer]
      exact spoiled.2

end Runs

def Undisturbing (action : Action) : Prop :=
  (∀ message, action ≠ .inject message) ∧ ∀ scan, action ≠ .report scan

section Histories
variable (text : KernelText) (writes : List (Nat × Word))

theorem intact_run (apart : (writes.map Prod.fst).Nodup) (state final : State)
    (history : List Action) (intact : Intact writes state)
    (alone : ∀ action ∈ history, Undisturbing action)
    (replay : run (step text) state history = some final) : Intact writes final :=
  guarded_invariant (step text) (Intact writes) (fun _ action => Undisturbing action)
    (fun before action after held quiet =>
      intact_step text writes before after action apart held quiet.1 quiet.2)
    intact (along_of_forall (step text) Undisturbing state history alone) replay

theorem spoiled_run (state final : State) (history : List Action) (made : HeaderMade state)
    (message : Message) (stored : .inject message ∈ history)
    (sole : ∀ scan, .report scan ∉ history)
    (replay : run (step text) state history = some final) : Spoiled final := by
  induction history generalizing state with
  | nil => cases stored
  | cons action rest ih =>
      obtain ⟨next, taken, tail⟩ := (run_cons_iff (step text) state final action rest).mp replay
      have noReport : ∀ scan, action ≠ .report scan := by
        rintro scan rfl
        exact sole scan List.mem_cons_self
      have sole' : ∀ scan, .report scan ∉ rest :=
        fun scan member => sole scan (List.mem_cons_of_mem action member)
      have made' := header_made_step text state next action made noReport taken
      rcases List.mem_cons.mp stored with rfl | later
      · -- from the message on the header is the host's
        have spoiled : Spoiled next := by
          refine ⟨made', ?_⟩
          cases taken
          simp [inject, storeMessage]
        exact guarded_invariant (step text) Spoiled (fun _ action => ∀ scan, action ≠ .report scan)
          (fun before action after held => spoiled_step text before after action held)
          spoiled (along_of_forall (step text) _ next rest fun other member scan same =>
            sole' scan (same ▸ member)) tail
      · exact ih next made' later sole' tail

/-- Once all buffer words of a report are written they are intact exactly when no
message was stored behind its header. -/
theorem written_shows_iff (apart : (writes.map Prod.fst).Nodup) (header : Word)
    (rest : List (Nat × Word)) (first : writes = (newdevBuf, header) :: rest)
    (state final : State) (history : List Action) (pending : pendingWrites state.handler = writes)
    (sole : ∀ scan, .report scan ∉ history)
    (written : ∀ write ∈ pendingWrites final.handler, write.1 < newdevBuf)
    (replay : run (step text) state history = some final) :
    Shows writes final.buffer ↔ NoneBehindHeader history := by
  induction history generalizing state with
  | nil =>
      cases replay
      have early := written (newdevBuf, header) (by rw [pending, first]; exact List.mem_cons_self)
      exact absurd early (Nat.lt_irrefl _)
  | cons action later ih =>
      obtain ⟨next, taken, tail⟩ := (run_cons_iff (step text) state final action later).mp replay
      have sole' : ∀ scan, .report scan ∉ later :=
        fun scan member => sole scan (List.mem_cons_of_mem action member)
      cases step_writes text state next action taken with
      | store message pending' => exact ih next (pending'.trans pending) sole' tail
      | start scan => exact absurd List.mem_cons_self (sole scan)
      | stay action noHandle _ pending' =>
          have below := ih next (pending'.trans pending) sole' tail
          cases action with
          | handle => exact absurd rfl noHandle
          | inject | raise | report | work => exact below
      | flush pending' buffer =>
          have made : HeaderMade next := by
            rw [first, List.map_cons, List.nodup_cons] at apart
            intro write member same
            rw [pending', pending, first, List.tail_cons] at member
            exact apart.1 (List.mem_map.mpr ⟨write, member, same⟩)
          constructor
          · intro shown message stored
            have spoiled := spoiled_run text next final later made message stored sole' tail
            have cell := shown (newdevBuf, header) (by simp [first]) (Nat.le_refl _)
            rw [Spoiled, cell] at spoiled
            cases spoiled.2
          · intro quiet
            have intact : Intact writes next := by
              have start : Intact writes state := ⟨[], pending.symm, nofun⟩
              exact intact_step text writes state next .handle apart start nofun nofun taken
            obtain ⟨done, split, shown⟩ := intact_run text writes apart next final later intact
              (fun other member => ⟨fun message same => quiet message (same ▸ member),
                fun scan same => sole' scan (same ▸ member)⟩) tail
            intro write member above
            rcases List.mem_append.mp (split ▸ member) with early | left
            · exact shown write early above
            · exact absurd (written write left) (Nat.not_lt_of_le above)

end Histories

structure Received (scan : Scan) (mmio : Nat → Word) : Prop where
  header : MsgHeader.ofWord (mmio newdevBuf) =
    ⟨BitVec.ofNat 8 defaultVersion, BitVec.ofNat 8 firstRoundMigration, BitVec.ofNat 16 (3 * 4)⟩
  address : mmio (payloadOffset 0) ++ mmio (payloadOffset 1) = scan.bufferPhys
  pairs : mmio (payloadOffset 2) = BitVec.ofNat 32 (scan.count / 2)

theorem report_writes_layout (scan : Scan) :
    reportWrites scan =
      let words := reportWords scan.bufferPhys scan.count
      [(newdevBuf, words.header), (payloadOffset 0, words.highAddr),
        (payloadOffset 1, words.lowAddr), (payloadOffset 2, words.half),
        (newdevRegDoorbell, scan.elapsed)] :=
  rfl

theorem shows_received (scan : Scan) (state : State)
    (shown : Shows (reportWrites scan) state.buffer) : Received scan state.mmio := by
  rw [report_writes_layout] at shown
  simp only [Shows, List.forall_mem_cons] at shown
  rcases shown with ⟨header, high, low, half, -⟩
  constructor
  · rw [State.mmio, header (by decide)]
    exact MsgHeader.of_word_to_word _
  · simp only [State.mmio]
    rw [high (by decide), low (by decide)]
    exact address_words_append scan.bufferPhys
  · rw [State.mmio, half (by decide)]
    rfl

/-- A run from the start of a report, in any state, until all its words for the
buffer are written and before the next report starts. -/
structure ReportRun (text : KernelText) where
  scan : Scan
  ready : State
  started : State
  begun : step text ready (.report scan) = some started
  history : List Action
  sole : ∀ other, .report other ∉ history
  state : State
  replay : run (step text) started history = some state
  written : ∀ write ∈ pendingWrites state.handler, write.1 < newdevBuf

theorem ReportRun.shows_iff {text : KernelText} (report : ReportRun text) :
    Shows (reportWrites report.scan) report.state.buffer ↔ NoneBehindHeader report.history := by
  have pending : pendingWrites report.started.handler = reportWrites report.scan := by
    cases step_writes text report.ready report.started _ report.begun with
    | start _ pending => exact pending
    | stay _ _ noReport => exact absurd rfl (noReport report.scan)
  have apart : ((reportWrites report.scan).map Prod.fst).Nodup := by
    simp [report_writes_layout, payloadOffset, newdevBuf, headerOffset, newdevRegDoorbell]
  exact written_shows_iff text (reportWrites report.scan) apart _ _ rfl report.started report.state
    report.history pending report.sole report.written report.replay

/-- Whatever the worker and other interrupts do in between, from the doorbell of
a report up to the next one the device finds all words of it in the buffer
exactly when no host message was stored behind its header, and then they decode
to what the walk computed. -/
theorem doorbell_exact_iff (text : KernelText) (report : ReportRun text) :
    (Shows (reportWrites report.scan) report.state.buffer ↔ NoneBehindHeader report.history) ∧
      (NoneBehindHeader report.history → Received report.scan report.state.mmio) :=
  ⟨report.shows_iff, fun quiet => shows_received report.scan report.state
    (report.shows_iff.mpr quiet)⟩

def messageBefore : List Action := .inject exitMessage :: List.replicate 4 .handle

theorem report_behind_message (scan : Scan) :
    ∃ report : ReportRun ⟨0, 0, 0, 0⟩, report.scan = scan ∧ report.history = messageBefore := by
  obtain ⟨ready, reached⟩ : ∃ ready, run (step ⟨0, 0, 0, 0⟩) (boot fun _ => 0#32)
      [.raise (BitVec.ofNat 32 firstRoundMigrationStart), .handle] = some ready := ⟨_, rfl⟩
  obtain ⟨started, begun⟩ : ∃ started,
      step ⟨0, 0, 0, 0⟩ ready (.report scan) = some started := by
    cases reached
    exact ⟨_, rfl⟩
  obtain ⟨state, replay, left⟩ : ∃ state,
      run (step ⟨0, 0, 0, 0⟩) started messageBefore = some state ∧
        pendingWrites state.handler = [(newdevRegDoorbell, scan.elapsed)] := by
    cases reached
    cases begun
    exact ⟨_, rfl, rfl⟩
  have written : ∀ write ∈ pendingWrites state.handler, write.1 < newdevBuf := by
    rw [left]
    intro write member
    rw [List.mem_singleton.mp member]
    exact (by decide : newdevRegDoorbell < newdevBuf)
  exact ⟨⟨scan, ready, started, begun, messageBefore, by simp [messageBefore], state, replay,
    written⟩, rfl, rfl⟩

theorem message_before_quiet : NoneBehindHeader messageBefore := by
  simp [messageBefore, NoneBehindHeader, List.replicate]

theorem doorbell_after_message :
    ∃ report : ReportRun ⟨0, 0, 0, 0⟩, report.history = messageBefore ∧
      Received ⟨0x7f000000#64, 0#32, 4⟩ report.state.mmio := by
  obtain ⟨report, scanned, history⟩ := report_behind_message ⟨0x7f000000#64, 0#32, 4⟩
  refine ⟨report, history, ?_⟩
  rw [← scanned]
  exact (doorbell_exact_iff _ report).2 (history ▸ message_before_quiet)

end EbpfInjection.ReportDoorbell
