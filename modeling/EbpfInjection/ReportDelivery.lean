import EbpfInjection.ReportDoorbell
import EbpfInjection.ReportProgress

/-!
A report from the free lists to the device: the call computes its words among
the steps of other CPUs, the handler writes them among the steps of the host.
-/

namespace EbpfInjection.ReportDelivery
open LittleEndian InjectionMessage HelperFixup FreePageReport ReportBounds InjectionMachine
open ReportProgress ReportDoorbell TransitionSystem

section Walk
variable {layout : Layout}

/-- A walk that came to its end has stored the successors of all the blocks,
also where there was nothing to store and no buffer. -/
theorem finished_walk_filled (free : BuddyState layout) (allocated : Bool)
    (start : Nat → BitVec 64) (fuel : Nat) (enough : free.linkedBlocks.length < fuel)
    (report : FreePageReport.Report) (finished : writeGuestFreePages layout allocated free.links
      fuel free.zones ⟨start, 0⟩ = .ok report) : Filled report free.storedPairs := by
  rcases finished_has_room free allocated start fuel enough report finished with
    nothing | ⟨rfl, fits⟩
  · obtain ⟨after, stored, count⟩ := (walk_spends free allocated fuel enough).stored ⟨start, 0⟩
      (.inl nothing)
    have ended : after = report := Except.ok.inj (stored.symm.trans finished)
    have none_stored : free.storedPairs = [] :=
      List.length_eq_zero_iff.mp ((stored_length free).trans nothing)
    rw [ended, nothing] at count
    rw [none_stored]
    exact ⟨count, by simp [Report.pairs, count]⟩
  · rw [Nat.zero_add] at fits
    obtain ⟨stored, walked, filled⟩ := report_stores_successors free fuel start fits enough
    cases walked.symm.trans finished
    exact filled

end Walk

/-- From the end of the walk to the doorbell, in every interleaving, the buffer
describes the free lists as they are at that moment: each of them shifted by one
block. -/
theorem buffer_describes_lists (call : ZoneLocking.Call) (holders : Addr → Option Nat)
    (links : Addr → Addr → Addr) (irqEnabled : Bool) (history : List ZoneLocking.Action)
    (state : ZoneLocking.State) (report : Report) (todo : List (Nat × Word))
    (free : BuddyState call.layout)
    (replay : run (ZoneLocking.step call) (ZoneLocking.entry call holders links irqEnabled)
      history = some state)
    (writing : state.phase = .writing report todo) (zones : free.zones = call.topology.zones)
    (current : free.links = state.memory.data) :
    report.count = 2 * free.linkedBlocks.length ∧
      report.pairs = (visitedLists call.layout call.topology.zones).flatMap fun visit =>
        (free.shifted visit).map fun node =>
          (physAddr call.layout node, BitVec.ofNat 64 visit.order) := by
  have ok := ZoneLocking.run_phase call irqEnabled holders links history state replay
  obtain ⟨_, bound, walks⟩ := ZoneLocking.phase_snapshot call irqEnabled state ok report todo writing
  let fuel := max bound (free.linkedBlocks.length + 1)
  -- the walk among the other CPUs computed what the loops compute
  have same := walks fuel (Nat.le_max_left ..)
  rw [← zones, ← current] at same
  obtain ⟨count, pairs⟩ := finished_walk_filled free call.allocated call.start fuel
    (Nat.le_max_right ..) report same
  rw [count, stored_length, pairs, stored_shifted, zones]
  exact ⟨rfl, rfl⟩

theorem contended_lists_described :
    ∃ state report todo,
      run (ZoneLocking.step ZoneLocking.contendedCall) ZoneLocking.contendedEntry
        (ZoneLocking.contendedHistory.take 38) = some state ∧
      state.phase = .writing report todo ∧ todo.length = 4 ∧ report.count = 12 ∧
      report.pairs = [(0x8001000#64, 0#64), (0x8002000#64, 0#64), (0x3f000#64, 0#64),
        (0x44000#64, 1#64), (0xc001000#64, 0#64), (0x80000#64, 0#64)] := by
  obtain ⟨state, replay, ⟨report, todo, writing, left⟩, current⟩ : ∃ state,
      run (ZoneLocking.step ZoneLocking.contendedCall) ZoneLocking.contendedEntry
        (ZoneLocking.contendedHistory.take 38) = some state ∧
      (∃ report todo, state.phase = .writing report todo ∧ todo.length = 4) ∧
      contendedFree.links = state.memory.data := ⟨_, rfl, ⟨_, _, rfl, rfl⟩, rfl⟩
  have described := buffer_describes_lists ZoneLocking.contendedCall _ _ true _ state report todo
    contendedFree replay writing rfl current
  exact ⟨state, report, todo, replay, writing, left, described.1, described.2.trans (by decide)⟩

theorem blocks_bounded {call : ZoneLocking.Call} (lock : LastLock call) : lock.blocks < 2 ^ 32 := by
  have size : migrationBufferWords < 2 ^ 32 := by decide
  rcases lock.room with nothing | ⟨_, fits⟩
  · rw [LastLock.blocks, nothing]
    decide
  · rw [LastLock.blocks]
    omega

/-- The device learns where the buffer is and how many blocks were free when the
last zone was locked, whatever other CPUs did to the lists before and whatever
they, the worker and other interrupts do afterwards, as long as no message is
stored over the report. -/
theorem free_blocks_announced (call : ZoneLocking.Call) (lock : LastLock call)
    (late : List ZoneLocking.Action) (returned : ZoneLocking.State)
    (finished : run (ZoneLocking.step call) lock.state late = some returned)
    (ended : returned.phase = .returned) (text : KernelText) (report : ReportRun text)
    (same : reportWrites report.scan = returned.device)
    (quiet : NoneBehindHeader report.history) :
    let mmio := report.state.mmio
    mmio (payloadOffset 0) ++ mmio (payloadOffset 1) = call.bufferPhys ∧
      (mmio (payloadOffset 2)).toNat = lock.blocks := by
  have shown := report.shows_iff.mpr quiet
  rw [same, lock.returned_device late returned finished ended] at shown
  have received : Received ⟨call.bufferPhys, call.elapsed, 2 * lock.blocks⟩ report.state.mmio :=
    shows_received _ report.state shown
  refine ⟨received.address, ?_⟩
  have halved : 2 * lock.blocks / 2 = lock.blocks := by omega
  rw [received.pairs, BitVec.toNat_ofNat, halved, Nat.mod_eq_of_lt (blocks_bounded lock)]

theorem contended_blocks_announced :
    ∃ report : ReportRun ⟨0, 0, 0, 0⟩, report.history = messageBefore ∧
      report.state.mmio (payloadOffset 0) ++ report.state.mmio (payloadOffset 1) =
        0x7f000000#64 ∧
      (report.state.mmio (payloadOffset 2)).toNat = 6 := by
  obtain ⟨lock, returned, _, six, finished, ended⟩ := contended_lock
  obtain ⟨report, scanned, history⟩ := report_behind_message ⟨0x7f000000#64, 0#32, 12⟩
  have written := lock.returned_device contendedLate returned finished ended
  have announced := free_blocks_announced ZoneLocking.contendedCall lock contendedLate returned
    finished ended ⟨0, 0, 0, 0⟩ report (by rw [written, six, scanned]; rfl)
    (history ▸ message_before_quiet)
  exact ⟨report, history, announced.1, announced.2.trans six⟩

end EbpfInjection.ReportDelivery
