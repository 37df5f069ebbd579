import EbpfInjection.BoundedWork
import EbpfInjection.ReportBounds
import EbpfInjection.ZoneLocking

/-!
How long `write_guest_free_pages` keeps the zones locked, on a zone list and
zone spans that stay as they are: a change of a span would make it wait in the
`zone_span_seqbegin` loop, which has no steps here. Up to the last lock it waits
for one zone at a time, never for one it holds. From there on it waits for
nobody: the free lists as they then are fix the number of its own steps to the
return, whatever the other CPUs do in between.
-/

namespace EbpfInjection.ReportProgress
open LittleEndian InjectionMessage FreePageReport ReportBounds GuardedMemory CircularList
open ZoneLocking TransitionSystem BoundedWork

section Walk
variable (layout : Layout) (allocated : Bool) (links : Addr → Addr → Addr)

inductive EndsIn : Walk → Nat → Nat → Prop where
  | done (report : Report) : EndsIn ⟨.start [], report⟩ 0 report.count
  | step (before after : Walk) (left words : Nat)
      (taken : walkStep layout allocated links before = some after)
      (rest : EndsIn after left words) : EndsIn before (left + 1) words

theorem ends_in_reads (other : Addr → Addr → Addr) (walk : Walk) (left words : Nat)
    (ends : EndsIn layout allocated links walk left words)
    (agree : ∀ visit ∈ walk.cursor.visits, links visit.zone = other visit.zone) :
    EndsIn layout allocated other walk left words := by
  induction ends with
  | done report => exact .done report
  | step before after left words taken _ ih =>
      have same := walk_step_reads layout allocated links other before agree
      apply EndsIn.step before after left words (same.symm.trans taken)
      apply ih
      intro visit member
      exact agree visit (walk_step_visits layout allocated links before after taken visit member)

theorem ends_in_moves (walk : Walk) (left words : Nat)
    (ends : EndsIn layout allocated links walk left words) (unfinished : walk.cursor ≠ .start []) :
    ∃ next before, left = before + 1 ∧ walkStep layout allocated links walk = some next ∧
      EndsIn layout allocated links next before words := by
  cases ends with
  | done report => exact absurd rfl unfinished
  | step _ after left _ taken rest => exact ⟨after, left, rfl, taken, rest⟩

theorem ends_in_done (report : Report) (left words : Nat)
    (ends : EndsIn layout allocated links ⟨.start [], report⟩ left words) :
    left = 0 ∧ report.count = words := by
  cases ends with
  | done => exact ⟨rfl, rfl⟩
  | step _ _ _ _ taken => cases taken

theorem list_ends (visit : Visit) (rest : List Visit) (cursor : Addr) (nodes : List Addr)
    (report : Report) (left words : Nat)
    (linked : Linked (links visit.zone) visit.head cursor nodes)
    (room : HasRoom allocated report.count nodes.length)
    (later : ∀ after : Report, after.count = report.count + 2 * nodes.length →
      EndsIn layout allocated links ⟨.start rest, after⟩ left words) :
    EndsIn layout allocated links ⟨.test visit (links visit.zone cursor) rest, report⟩
      (left + 2 * nodes.length + 1) words := by
  induction nodes generalizing cursor report with
  | nil =>
      have back : links visit.zone cursor = visit.head := linked
      refine .step _ ⟨.start rest, report⟩ _ _ ?_ (later report rfl)
      simp only [walkStep, if_pos back]
  | cons node nodes ih =>
      have moves := nodes_not_fixed (links visit.zone) visit.head cursor (node :: nodes) linked
        node List.mem_cons_self
      rcases linked with ⟨first, inside, tail⟩
      rw [List.length_cons, Nat.add_comm] at room
      obtain ⟨one, others⟩ := (has_room_add allocated report.count 1 nodes.length).mp room
      obtain ⟨written, recorded, count⟩ := (record_page_spends layout allocated
        (links visit.zone) visit.order node moves).stored report one
      have scanned := ih node written tail (count ▸ others) fun after stored =>
        later after (by rw [stored, count, List.length_cons]; omega)
      rw [first, List.length_cons, Nat.mul_succ, ← Nat.add_assoc]
      refine .step _ ⟨.advance visit node rest, written⟩ _ _ ?_ (.step _ _ _ _ rfl scanned)
      simp only [walkStep, if_neg inside, recorded]

theorem visits_end (blocks : Visit → List Addr) (visits : List Visit) (report : Report)
    (linked : ∀ visit ∈ visits,
      Linked (links visit.zone) visit.head visit.head (blocks visit))
    (room : HasRoom allocated report.count (visits.flatMap blocks).length) :
    EndsIn layout allocated links ⟨.start visits, report⟩
      (2 * (visits.length + (visits.flatMap blocks).length))
      (report.count + 2 * (visits.flatMap blocks).length) := by
  induction visits generalizing report with
  | nil => exact .done report
  | cons visit rest ih =>
      rw [List.flatMap_cons, List.length_append] at room ⊢
      obtain ⟨here, others⟩ := (has_room_add allocated report.count _ _).mp room
      have later : ∀ after : Report, after.count = report.count + 2 * (blocks visit).length →
          EndsIn layout allocated links ⟨.start rest, after⟩
            (2 * (rest.length + (rest.flatMap blocks).length))
            (report.count + 2 * ((blocks visit).length + (rest.flatMap blocks).length)) := by
        intro after stored
        have tail := ih after (fun other member => linked other (List.mem_cons_of_mem visit member))
          (stored ▸ others)
        rwa [stored, Nat.add_assoc, ← Nat.mul_add] at tail
      have scanned := list_ends layout allocated links visit rest visit.head (blocks visit) report
        _ _ (linked visit List.mem_cons_self) here later
      have total : 2 * ((visit :: rest).length +
          ((blocks visit).length + (rest.flatMap blocks).length)) =
          2 * (rest.length + (rest.flatMap blocks).length) + 2 * (blocks visit).length + 1 + 1 := by
        rw [List.length_cons]
        omega
      rw [total]
      exact .step _ _ _ _ rfl scanned

end Walk

def ownStep : Action → Nat
  | .report => 1
  | .interfere _ _ => 0

def ownSteps (history : List Action) : Nat := (history.map ownStep).sum

section Counting
variable (call : Call)

/-- The steps left with all zones locked, on free lists that stay as they are:
the test that ends the lock loop, the walk, the five writes, and the unlock
loop, each with the step that leaves it. -/
def Remaining (words : Nat) (state : State) (left : Nat) : Prop :=
  let zones := call.topology.populated.length
  let announced := deviceWrites call.bufferPhys call.elapsed words
  let ends := EndsIn call.layout call.allocated state.memory.data
  match state.phase with
  | .locking rest => rest = [] ∧ state.device = [] ∧
      ∃ steps, ends call.firstWalk steps words ∧ left = steps + zones + 9
  | .spinning _ _ => False
  | .walking walk => state.device = [] ∧ ∃ steps, ends walk steps words ∧ left = steps + zones + 8
  | .writing _ todo => state.device ++ todo = announced ∧ left = todo.length + zones + 2
  | .unlocking rest => state.device = announced ∧ left = rest.length + 1
  | .returned => state.device = announced ∧ left = 0

theorem report_step_remaining (words : Nat) (state next : State) (left : Nat)
    (taken : reportStep call state = some next) (remaining : Remaining call words state left) :
    ∃ before, left = before + 1 ∧ Remaining call words next before := by
  rcases state with ⟨memory, irqEnabled, arrays, phase, device, locked, given⟩
  cases phase with
  | locking rest =>
      rcases remaining with ⟨rfl, silent, steps, ends, rfl⟩
      cases taken
      exact ⟨_, rfl, silent, steps, ends, rfl⟩
  | spinning saved rest => cases remaining
  | walking walk =>
      rcases remaining with ⟨silent, steps, ends, rfl⟩
      rcases walk with ⟨cursor, report⟩
      simp only [reportStep] at taken
      split at taken
      · rename_i done
        cases taken
        subst silent done
        obtain ⟨rfl, rfl⟩ := ends_in_done _ _ _ report steps words ends
        exact ⟨5 + call.topology.populated.length + 2, by omega, rfl, rfl⟩
      · rename_i unfinished
        obtain ⟨after, moved, rfl⟩ := Option.map_eq_some_iff.mp taken
        obtain ⟨other, before, rfl, moved', rest⟩ :=
          ends_in_moves _ _ _ _ steps words ends unfinished
        cases moved.symm.trans moved'
        exact ⟨_, by omega, silent, before, rest, rfl⟩
  | writing report todo =>
      rcases remaining with ⟨written, rfl⟩
      cases todo with
      | nil =>
          cases taken
          exact ⟨_, by rw [List.length_nil]; omega, by simpa using written, rfl⟩
      | cons write todo =>
          cases taken
          exact ⟨_, by rw [List.length_cons]; omega, by simpa using written, rfl⟩
  | unlocking rest =>
      rcases remaining with ⟨written, rfl⟩
      cases rest with
      | nil =>
          cases taken
          exact ⟨0, rfl, written, rfl⟩
      | cons zone rest =>
          cases taken
          exact ⟨_, rfl, written, rfl⟩
  | returned => cases taken

theorem remaining_moves (words : Nat) (state : State) (left : Nat)
    (remaining : Remaining call words state left) (unfinished : left ≠ 0) :
    (reportStep call state).isSome = true := by
  rcases state with ⟨memory, irqEnabled, arrays, phase, device, locked, given⟩
  cases phase with
  | locking rest =>
      rcases remaining with ⟨rfl, -⟩
      rfl
  | spinning saved rest => cases remaining
  | walking walk =>
      rcases remaining with ⟨_, steps, ends, -⟩
      simp only [reportStep]
      split
      · rfl
      · rename_i inside
        obtain ⟨next, _, _, moved, _⟩ := ends_in_moves _ _ _ walk steps words ends inside
        rw [moved]
        rfl
  | writing report todo => cases todo <;> rfl
  | unlocking rest => cases rest <;> rfl
  | returned => exact absurd remaining.2 unfinished

theorem remaining_returned_iff (words : Nat) (state : State) (left : Nat)
    (remaining : Remaining call words state left) : state.phase = .returned ↔ left = 0 := by
  rcases state with ⟨memory, irqEnabled, arrays, phase, device, locked, given⟩
  cases phase with
  | locking rest =>
      rcases remaining with ⟨_, _, steps, _, rfl⟩
      simp
  | spinning saved rest => cases remaining
  | walking walk =>
      rcases remaining with ⟨_, steps, _, rfl⟩
      simp
  | writing report todo => simp [remaining.2]
  | unlocking rest => simp [remaining.2]
  | returned => simp [remaining.2]

theorem interfere_links (initial : Bool) (before after : Memory Addr Cpu (Addr → Addr))
    (arrays : Arrays) (index : Nat) (action : Access Addr (Addr → Addr))
    (taken : access (.other index) before action = some after)
    (held : Held initial call.topology.populated before arrays call.topology.populated.length) :
    ∀ zone ∈ call.topology.populated, before.data zone = after.data zone := by
  intro zone member
  have owned : before.owner zone = some .reporting :=
    (held.owner zone).mpr (by rwa [List.take_length])
  have frame := access_frame .reporting (.other index) (other_not_reporting index) before after
    action taken zone
  exact (frame.2 owned).symm

theorem interfere_remaining (initial : Bool) (words : Nat) (state : State) (index left : Nat)
    (action : Access Addr (Addr → Addr)) (memory : Memory Addr Cpu (Addr → Addr))
    (taken : access (.other index) state.memory action = some memory)
    (ok : PhaseOk call initial state) (remaining : Remaining call words state left) :
    Remaining call words { state with memory } left := by
  rcases state with ⟨before, irqEnabled, arrays, phase, device, locked, given⟩
  cases phase with
  | locking rest =>
      rcases ok with ⟨count, split, held, -⟩
      rcases remaining with ⟨rfl, silent, steps, ends, rfl⟩
      have all : count = call.topology.populated.length :=
        Nat.le_antisymm held.bound (List.drop_eq_nil_iff.mp split.symm)
      subst all
      have agree := interfere_links call initial before memory arrays index action taken held
      exact ⟨rfl, silent, steps, ends_in_reads _ _ _ _ _ _ _ ends fun visit member =>
        agree _ (visited_populated call.layout call.topology visit member), rfl⟩
  | walking walk =>
      rcases ok with ⟨⟨held, -⟩, _, inside, -⟩
      rcases remaining with ⟨silent, steps, ends, rfl⟩
      have agree := interfere_links call initial before memory arrays index action taken held
      exact ⟨silent, steps, ends_in_reads _ _ _ _ _ _ _ ends fun visit member =>
        agree _ (inside visit member), rfl⟩
  | spinning | writing | unlocking | returned => exact remaining

/-- The steps made and the steps left are always the same number. -/
theorem run_remaining (initial : Bool) (words total : Nat) (locked state : State)
    (late : List Action) (ok : PhaseOk call initial locked)
    (start : Remaining call words locked total)
    (replay : run (step call) locked late = some state) :
    ∃ left, Remaining call words state left ∧ ownSteps late + left = total := by
  have counted := counted_invariant (step call) ownStep
    (fun state count => PhaseOk call initial state ∧
      ∃ left, Remaining call words state left ∧ count + left = total) ?_
    ⟨ok, total, start, Nat.zero_add total⟩ replay
  · rw [Nat.zero_add] at counted
    exact counted.2
  · rintro before action after count ⟨ok, left, remaining, sum⟩ taken
    refine ⟨step_phase call initial before after action ok taken, ?_⟩
    cases action with
    | report =>
        obtain ⟨fewer, rfl, later⟩ := report_step_remaining call words before after left taken
          remaining
        exact ⟨fewer, later, by rw [← sum, ownStep]; omega⟩
    | interfere index action =>
        obtain ⟨memory, accessed, rfl⟩ := Option.map_eq_some_iff.mp taken
        exact ⟨left, interfere_remaining call initial words before index left action memory accessed
          ok remaining, sum⟩

def Approached (state : State) (count : Nat) : Prop :=
  match state.phase with
  | .locking rest => count + 2 * rest.length = 2 * call.topology.populated.length
  | .spinning _ rest => count + 2 * rest.length + 1 = 2 * call.topology.populated.length
  | _ => True

/-- Each zone takes two steps to lock, and a step that is not made while the
lock is taken elsewhere is not counted. -/
theorem step_approached (before after : State) (action : Action) (count : Nat)
    (approached : Approached call before count) (taken : step call before action = some after) :
    Approached call after (count + ownStep action) := by
  cases action with
  | interfere index action =>
      obtain ⟨memory, _, rfl⟩ := Option.map_eq_some_iff.mp taken
      exact approached
  | report =>
      rcases before with ⟨memory, irqEnabled, arrays, phase, device, locked, given⟩
      cases phase with
      | locking rest =>
          cases rest with
          | nil =>
              cases taken
              trivial
          | cons zone rest =>
              cases taken
              simp only [Approached, ownStep, List.length_cons] at approached ⊢
              omega
      | spinning saved rest =>
          obtain ⟨after, _, rfl⟩ := Option.map_eq_some_iff.mp taken
          simp only [Approached, ownStep] at approached ⊢
          omega
      | walking walk =>
          simp only [step, reportStep] at taken
          split at taken
          · cases taken
            trivial
          · obtain ⟨after, _, rfl⟩ := Option.map_eq_some_iff.mp taken
            trivial
      | writing report todo =>
          cases todo <;> cases taken <;> trivial
      | unlocking rest =>
          cases rest <;> cases taken <;> trivial
      | returned => cases taken

end Counting

/-- The call spins for a zone that another CPU holds, with the zones that come
before it in the zone list locked, and no others. -/
def Waits (call : Call) (state : State) : Prop :=
  ∃ saved rest count index, state.phase = .spinning saved rest ∧
    call.topology.populated[count]? = some (state.arrays.zones state.arrays.k) ∧
    state.memory.owner (state.arrays.zones state.arrays.k) = some (.other index) ∧
    ∀ lock, state.memory.owner lock = some .reporting ↔ lock ∈ call.topology.populated.take count

def Spills (call : Call) (state : State) : Prop :=
  ∃ visit tmp rest report fault, state.phase = .walking ⟨.test visit tmp rest, report⟩ ∧
    tmp ≠ visit.head ∧
    recordPage call.layout call.allocated (state.memory.data visit.zone) visit.order report tmp =
      .error fault

theorem walk_stuck (layout : Layout) (allocated : Bool) (links : Addr → Addr → Addr) (walk : Walk)
    (unfinished : walk.cursor ≠ .start []) (stuck : walkStep layout allocated links walk = none) :
    ∃ visit tmp rest report fault, walk = ⟨.test visit tmp rest, report⟩ ∧ tmp ≠ visit.head ∧
      recordPage layout allocated (links visit.zone) visit.order report tmp = .error fault := by
  rcases walk with ⟨cursor, report⟩
  cases cursor with
  | start rest =>
      cases rest with
      | nil => exact absurd rfl unfinished
      | cons visit rest => cases stuck
  | advance visit tmp rest => cases stuck
  | test visit tmp rest =>
      simp only [walkStep] at stuck
      split at stuck
      · cases stuck
      · rename_i inside
        split at stuck
        · rename_i fault failed
          exact ⟨visit, tmp, rest, report, fault, rfl, inside, failed⟩
        · cases stuck

theorem spinning_waits (call : Call) (initial saved : Bool) (rest : List Addr) (state : State)
    (spins : state.phase = .spinning saved rest) (ok : PhaseOk call initial state)
    (stuck : reportStep call state = none) : Waits call state := by
  unfold PhaseOk at ok
  simp only [spins] at ok
  rcases ok with ⟨count, split, held, -⟩
  obtain ⟨_, found, _, one_more⟩ := drop_cons _ _ _ _ split
  simp only [reportStep, spins, access, Option.map_eq_none_iff, ite_eq_right_iff] at stuck
  cases owner : state.memory.owner (state.arrays.zones state.arrays.k) with
  | none => exact absurd (stuck owner) (by simp)
  | some cpu =>
      cases cpu with
      | other index => exact ⟨saved, rest, count, index, spins, found, owner, held.owner⟩
      | reporting =>
          -- no zone is locked twice
          have parts := call.topology.populated_distinct.sublist (List.take_sublist (count + 1) _)
          rw [one_more] at parts
          exact absurd rfl ((List.nodup_append.mp parts).2.2 _ ((held.owner _).mp owner) _
            (List.mem_singleton_self _))

/-- In every interleaving a call that cannot step has returned, waits for a zone
another CPU holds and that comes after all those it has locked, or is about to
store outside the buffer. -/
theorem blocked_iff (call : Call) (holders : Addr → Option Nat) (links : Addr → Addr → Addr)
    (irqEnabled : Bool) (history : List Action) (state : State)
    (replay : run (step call) (entry call holders links irqEnabled) history = some state) :
    step call state .report = none ↔
      state.phase = .returned ∨ Waits call state ∨ Spills call state := by
  have ok := run_phase call irqEnabled holders links history state replay
  constructor
  · intro stuck
    rcases state with ⟨memory, irqEnabled', arrays, phase, device, locked, given⟩
    cases phase with
    | locking rest => cases rest <;> cases stuck
    | spinning saved rest => exact .inr (.inl (spinning_waits call _ saved rest _ rfl ok stuck))
    | walking walk =>
        simp only [step, reportStep] at stuck
        split at stuck
        · cases stuck
        · rename_i unfinished
          obtain ⟨visit, tmp, rest, report, fault, rfl, inside, failed⟩ := walk_stuck _ _ _ walk
            unfinished (Option.map_eq_none_iff.mp stuck)
          exact .inr (.inr ⟨visit, tmp, rest, report, fault, rfl, inside, failed⟩)
    | writing report todo => cases todo <;> cases stuck
    | unlocking rest => cases rest <;> cases stuck
    | returned => exact .inl rfl
  · rintro (returned | ⟨saved, rest, count, index, spins, _, taken, _⟩ |
      ⟨visit, tmp, rest, report, fault, walking, inside, failed⟩)
    · simp only [step, reportStep, returned]
    · simp [step, reportStep, spins, access, taken]
    · simp [step, reportStep, walking, walkStep, inside, failed]

theorem held_masked (initial : Bool) (populated : List Addr)
    (memory : Memory Addr Cpu (Addr → Addr)) (arrays : Arrays) (count : Nat)
    (held : Held initial populated memory arrays count) (lock : Addr)
    (owned : memory.owner lock = some .reporting) : savedAt initial count = false := by
  have member := (held.owner lock).mp owned
  cases count with
  | zero => cases member
  | succ count => rfl

/-- While the call holds a zone lock or spins for one, no interrupt is taken on
its CPU, so no handler there can wait for the call. -/
theorem interrupts_masked (call : Call) (holders : Addr → Option Nat) (links : Addr → Addr → Addr)
    (irqEnabled : Bool) (history : List Action) (state : State)
    (replay : run (step call) (entry call holders links irqEnabled) history = some state)
    (busy : (∃ lock, state.memory.owner lock = some .reporting) ∨
      ∃ saved rest, state.phase = .spinning saved rest) : state.irqEnabled = false := by
  have ok := run_phase call irqEnabled holders links history state replay
  rcases busy with ⟨lock, owned⟩ | ⟨saved, rest, spins⟩
  · have masked := fun count held =>
      held_masked irqEnabled call.topology.populated state.memory state.arrays count held lock owned
    rcases state with ⟨memory, irqEnabled', arrays, phase, device, locked, given⟩
    cases phase with
    | locking rest =>
        rcases ok with ⟨count, _, held, enabled, -⟩
        exact enabled.trans (masked count held)
    | spinning saved rest =>
        rcases ok with ⟨_, _, _, _, disabled, -⟩
        exact disabled
    | walking walk => exact ok.1.2.1.trans (masked _ ok.1.1)
    | writing report todo => exact ok.1.2.1.trans (masked _ ok.1.1)
    | unlocking rest => exact ok.2.1.trans (masked _ ok.1)
    | returned =>
        -- nothing is held any more
        have member := (ok.1.owner lock).mp owned
        cases member
  · unfold PhaseOk at ok
    simp only [spins] at ok
    exact ok.choose_spec.2.2.2.1

theorem contended_call_blocked :
    ∃ state, run (step contendedCall) contendedEntry (contendedHistory.take 3) = some state ∧
      (state.phase = .returned ∨ Waits contendedCall state ∨ Spills contendedCall state) := by
  obtain ⟨state, reached, stuck⟩ : ∃ state,
      run (step contendedCall) contendedEntry (contendedHistory.take 3) = some state ∧
        step contendedCall state .report = none := ⟨_, rfl, rfl⟩
  exact ⟨state, reached,
    (blocked_iff contendedCall _ _ true (contendedHistory.take 3) state reached).mp stuck⟩

theorem contended_call_masked :
    ∃ state, run (step contendedCall) contendedEntry (contendedHistory.take 44) = some state ∧
      state.given = [(0xd00#64, false)] ∧ state.irqEnabled = false := by
  obtain ⟨state, reached, given, owned⟩ : ∃ state,
      run (step contendedCall) contendedEntry (contendedHistory.take 44) = some state ∧
        state.given = [(0xd00#64, false)] ∧ state.memory.owner 0xf00#64 = some .reporting :=
    ⟨_, rfl, rfl, rfl⟩
  exact ⟨state, reached, given, interrupts_masked contendedCall _ _ true
    (contendedHistory.take 44) state reached (.inl ⟨0xf00#64, owned⟩)⟩

def criticalSteps (call : Call) (blocks : Nat) : Nat :=
  2 * blocks + 2 * (visitedLists call.layout call.topology.zones).length +
    call.topology.populated.length + 9

/-- A call that has taken its last lock after some history, with the free lists
it then finds, which fit the buffer. -/
structure LastLock (call : Call) where
  holders : Addr → Option Nat
  links : Addr → Addr → Addr
  irqEnabled : Bool
  early : List Action
  state : State
  reached : run (step call) (entry call holders links irqEnabled) early = some state
  last : state.phase = .locking []
  free : BuddyState call.layout
  zones : free.zones = call.topology.zones
  found : free.links = state.memory.data
  room : HasRoom call.allocated 0 free.linkedBlocks.length

namespace LastLock
variable {call : Call} (lock : LastLock call)

def blocks : Nat := lock.free.linkedBlocks.length

theorem phase_ok : PhaseOk call lock.irqEnabled lock.state :=
  run_phase call lock.irqEnabled lock.holders lock.links lock.early lock.state lock.reached

theorem steps_before : ownSteps lock.early = 2 * call.topology.populated.length := by
  have approached := counted_invariant (step call) ownStep (Approached call)
    (fun before action after count => step_approached call before after action count)
    (by simp [Approached, entry] : Approached call _ 0) lock.reached
  simpa [Approached, lock.last, ownSteps] using approached

theorem steps_ahead : Remaining call (2 * lock.blocks) lock.state (criticalSteps call lock.blocks) := by
  have size : ((visitedLists call.layout call.topology.zones).flatMap lock.free.blocks).length =
      lock.blocks := by
    rw [← lock.zones]
    simp [blocks, BuddyState.linkedBlocks, List.length_flatMap]
  have ends := visits_end call.layout call.allocated lock.state.memory.data lock.free.blocks
    (visitedLists call.layout call.topology.zones) ⟨call.start, 0⟩
    (fun visit member => lock.found ▸ lock.free.linked visit (lock.zones ▸ member))
    (size ▸ lock.room)
  rw [size, Nat.zero_add] at ends
  have ok := lock.phase_ok
  unfold PhaseOk at ok
  unfold Remaining
  simp only [lock.last] at ok ⊢
  obtain ⟨_, _, _, _, _, _, silent⟩ := ok
  refine ⟨trivial, silent, _, ends, ?_⟩
  rw [criticalSteps]
  omega

theorem run_ahead (late : List Action) (state : State)
    (replay : run (step call) lock.state late = some state) :
    ∃ left, Remaining call (2 * lock.blocks) state left ∧
      ownSteps late + left = criticalSteps call lock.blocks :=
  run_remaining call lock.irqEnabled (2 * lock.blocks) _ lock.state state late lock.phase_ok
    lock.steps_ahead replay

theorem returned_device (late : List Action) (state : State)
    (replay : run (step call) lock.state late = some state) (returned : state.phase = .returned) :
    state.device = deviceWrites call.bufferPhys call.elapsed (2 * lock.blocks) := by
  obtain ⟨left, remaining, _⟩ := lock.run_ahead late state replay
  unfold Remaining at remaining
  simp only [returned] at remaining
  exact remaining.1

end LastLock

/-- The free lists found when the last zone is locked fix how many steps the
call still makes and how many blocks it announces, whatever the other CPUs do,
and it makes each of them without waiting. -/
theorem critical_section_exact (call : Call) (lock : LastLock call) (late : List Action)
    (state : State) (replay : run (step call) lock.state late = some state) :
    ownSteps lock.early = 2 * call.topology.populated.length ∧
      ownSteps late ≤ criticalSteps call lock.blocks ∧
      (state.phase = .returned ↔ ownSteps late = criticalSteps call lock.blocks) ∧
      (state.phase = .returned ∨ (step call state .report).isSome = true) ∧
      (state.phase = .returned →
        state.device = deviceWrites call.bufferPhys call.elapsed (2 * lock.blocks)) := by
  obtain ⟨left, remaining, total⟩ := lock.run_ahead late state replay
  have returned_iff := remaining_returned_iff call (2 * lock.blocks) state left remaining
  refine ⟨lock.steps_before, by omega, returned_iff.trans (by omega), ?_,
    lock.returned_device late state replay⟩
  by_cases done : left = 0
  · exact .inl (returned_iff.mpr done)
  · exact .inr (remaining_moves call (2 * lock.blocks) state left remaining done)

def contendedFree : BuddyState contendedCall.layout :=
  { twoZoneState with
    links := Function.update (fun zone => if zone = 0xd00#64 then id else twoZoneNext) 0xd00#64
      twoZoneNext
    linked := by decide }

def contendedLate : List Action := contendedHistory.drop 6

theorem contended_lock :
    ∃ (lock : LastLock contendedCall) (state : State),
      lock.early = contendedHistory.take 6 ∧ lock.blocks = 6 ∧
      run (step contendedCall) lock.state contendedLate = some state ∧
      state.phase = .returned := by
  obtain ⟨locked, reached⟩ : ∃ locked,
      run (step contendedCall) contendedEntry (contendedHistory.take 6) = some locked := ⟨_, rfl⟩
  have last : locked.phase = .locking [] ∧ contendedFree.links = locked.memory.data := by
    cases reached
    exact ⟨rfl, rfl⟩
  obtain ⟨state, replay, returned⟩ : ∃ state,
      run (step contendedCall) locked contendedLate = some state ∧ state.phase = .returned := by
    cases reached
    exact ⟨_, rfl, rfl⟩
  exact ⟨⟨_, _, true, contendedHistory.take 6, locked, reached, last.1, contendedFree, rfl, last.2,
    .inr ⟨rfl, by decide⟩⟩, state, rfl, rfl, replay, returned⟩

theorem contended_call_timed :
    ∃ (lock : LastLock contendedCall) (state : State),
      run (step contendedCall) lock.state contendedLate = some state ∧
      ownSteps contendedLate = criticalSteps contendedCall 6 ∧
      state.device = deviceWrites contendedCall.bufferPhys contendedCall.elapsed 12 := by
  obtain ⟨lock, state, _, six, replay, returned⟩ := contended_lock
  have facts := critical_section_exact contendedCall lock contendedLate state replay
  rw [six] at facts
  exact ⟨lock, state, replay, facts.2.2.1.mp returned, facts.2.2.2.2 returned⟩

end EbpfInjection.ReportProgress
