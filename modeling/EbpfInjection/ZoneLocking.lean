import EbpfInjection.FreePageReport
import EbpfInjection.GuardedMemory
import EbpfInjection.TransitionSystem
import Mathlib.Logic.Relation

/-!
`write_guest_free_pages` as steps among the steps of other CPUs: the lock loop,
the free-list walk one read at a time, the device writes and the unlock loop.
Other CPUs may take a zone's lock, change the zone's lists while they hold it,
and release it. Zone list and zone spans stay as they are during the call: the
`zone_span_seqbegin` loop, which waits for a writer of the span and only prints
what it reads, is left out.
-/

namespace EbpfInjection.ZoneLocking
open LittleEndian InjectionMessage FreePageReport GuardedMemory TransitionSystem

inductive Cpu where
  | reporting
  | other (index : Nat)
  deriving DecidableEq

structure Topology where
  zones : List Zone
  distinct : (zones.map Zone.addr).Nodup

def Topology.populated (topology : Topology) : List Addr :=
  (topology.zones.filter Zone.populated).map Zone.addr

theorem Topology.populated_distinct (topology : Topology) : topology.populated.Nodup :=
  topology.distinct.sublist (List.filter_sublist.map Zone.addr)

/-- Position in the walk: before the first read of a list, before the test of
the cursor with the body behind it, and before the cursor moves on. Every step
from a position reads at most one list link. -/
inductive Cursor where
  | start (rest : List Visit)
  | test (visit : Visit) (tmp : Addr) (rest : List Visit)
  | advance (visit : Visit) (tmp : Addr) (rest : List Visit)
  deriving DecidableEq

structure Walk where
  cursor : Cursor
  report : Report

section Walk
variable (layout : Layout) (allocated : Bool) (links : Addr → Addr → Addr)

def walkStep (walk : Walk) : Option Walk :=
  match walk.cursor with
  | .start [] => none
  | .start (visit :: rest) =>
      some { walk with cursor := .test visit (links visit.zone visit.head) rest }
  | .test visit tmp rest =>
      if tmp = visit.head then some { walk with cursor := .start rest }
      else
        match recordPage layout allocated (links visit.zone) visit.order walk.report tmp with
        | .error _ => none
        | .ok report => some { cursor := .advance visit tmp rest, report }
  | .advance visit tmp rest =>
      some { walk with cursor := .test visit (links visit.zone tmp) rest }

end Walk

inductive Phase where
  | locking (rest : List Addr)
  | spinning (saved : Bool) (rest : List Addr)
  | walking (walk : Walk)
  | writing (report : Report) (todo : List (Nat × Word))
  | unlocking (rest : List Addr)
  | returned

structure Arrays where
  zones : Int → Addr
  flags : Int → Bool
  k : Int

/-- `taken` and `given` record every lock taken and released, with the
interrupt state saved and restored at that point. -/
structure State where
  memory : Memory Addr Cpu (Addr → Addr)
  irqEnabled : Bool
  arrays : Arrays
  phase : Phase
  device : List (Nat × Word)
  taken : List (Addr × Bool)
  given : List (Addr × Bool)

structure Call where
  layout : Layout
  allocated : Bool
  topology : Topology
  bufferPhys : BitVec 64
  elapsed : Word
  start : Nat → BitVec 64

def Call.firstWalk (call : Call) : Walk :=
  ⟨.start (visitedLists call.layout call.topology.zones), ⟨call.start, 0⟩⟩

def reportStep (call : Call) (state : State) : Option State :=
  let arrays := state.arrays
  match state.phase with
  | .locking [] => some { state with phase := .walking call.firstWalk }
  | .locking (zone :: rest) =>
      -- `spin_lock_irqsave`: save and disable first, then spin
      some { state with
        arrays := { arrays with zones := Function.update arrays.zones arrays.k zone }
        irqEnabled := false
        phase := .spinning state.irqEnabled rest }
  | .spinning saved rest =>
      let zone := arrays.zones arrays.k
      (access .reporting state.memory (.acquire zone)).map fun memory =>
        { state with
          memory
          arrays := { arrays with
            flags := Function.update arrays.flags arrays.k saved
            k := arrays.k + 1 }
          phase := .locking rest
          taken := state.taken ++ [(zone, saved)] }
  | .walking walk =>
      if walk.cursor = .start [] then
        some { state with
          phase := .writing walk.report
            (deviceWrites call.bufferPhys call.elapsed walk.report.count) }
      else (walkStep call.layout call.allocated state.memory.data walk).map fun next =>
        { state with phase := .walking next }
  | .writing _ [] => some { state with phase := .unlocking call.topology.populated }
  | .writing report (write :: todo) =>
      some { state with device := state.device ++ [write], phase := .writing report todo }
  | .unlocking [] => some { state with phase := .returned }
  | .unlocking (_ :: rest) =>
      let k := arrays.k - 1
      let zone := arrays.zones k
      -- `spin_unlock_irqrestore` frees the lock it is given, owned or not
      some { state with
        memory := { state.memory with owner := Function.update state.memory.owner zone none }
        arrays := { arrays with k }
        irqEnabled := arrays.flags k
        phase := .unlocking rest
        given := state.given ++ [(zone, arrays.flags k)] }
  | .returned => none

inductive Action where
  | report
  | interfere (index : Nat) (action : Access Addr (Addr → Addr))

def step (call : Call) (state : State) : Action → Option State
  | .report => reportStep call state
  | .interfere index action =>
      (access (.other index) state.memory action).map fun memory => { state with memory }

/-- At entry other CPUs may hold zone locks; this one holds none. -/
def entry (call : Call) (holders : Addr → Option Nat) (links : Addr → Addr → Addr)
    (irqEnabled : Bool) : State :=
  { memory := ⟨fun lock => (holders lock).map Cpu.other, links⟩
    irqEnabled
    arrays := ⟨fun _ => 0#64, fun _ => false, 0⟩
    phase := .locking call.topology.populated
    device := []
    taken := []
    given := [] }

/-! The small steps of the walk on links that stay as they are compute what
the three loops compute. -/
section Adequacy
variable (layout : Layout) (allocated : Bool) (links : Addr → Addr → Addr)

def WalksTo : Walk → Walk → Prop :=
  Relation.ReflTransGen fun before after => walkStep layout allocated links before = some after

def visitList (fuel : Nat) (report : Report) (visit : Visit) : Except Fault Report :=
  walkList layout allocated (links visit.zone) fuel visit.order visit.head report

def scanFrom (fuel : Nat) (visit : Visit) (tmp : Addr) (report : Report) : Except Fault Report :=
  CircularList.forEach (links visit.zone) visit.head
    (recordPage layout allocated (links visit.zone) visit.order) (.error .endlessList) fuel tmp
    report

/-- What the loops still compute from a position, with fuel for the list the
position is in and for the later lists. -/
def resume (fuel later : Nat) (walk : Walk) : Except Fault Report :=
  match walk.cursor with
  | .start rest => rest.foldlM (visitList layout allocated links later) walk.report
  | .test visit tmp rest => do
      let report ← scanFrom layout allocated links fuel visit tmp walk.report
      rest.foldlM (visitList layout allocated links later) report
  | .advance visit tmp rest => do
      let report ← scanFrom layout allocated links fuel visit (links visit.zone tmp) walk.report
      rest.foldlM (visitList layout allocated links later) report

def Yields (walk : Walk) (report : Report) : Prop :=
  ∃ bound, ∀ fuel later, bound ≤ fuel → bound ≤ later →
    resume layout allocated links fuel later walk = .ok report

inductive WalkMoves : Walk → Walk → Prop where
  | enter (visit : Visit) (rest : List Visit) (report : Report) :
      WalkMoves ⟨.start (visit :: rest), report⟩
        ⟨.test visit (links visit.zone visit.head) rest, report⟩
  | leave (visit : Visit) (tmp : Addr) (rest : List Visit) (report : Report)
      (back : tmp = visit.head) :
      WalkMoves ⟨.test visit tmp rest, report⟩ ⟨.start rest, report⟩
  | record (visit : Visit) (tmp : Addr) (rest : List Visit) (report written : Report)
      (inside : tmp ≠ visit.head)
      (recorded : recordPage layout allocated (links visit.zone) visit.order report tmp =
        .ok written) :
      WalkMoves ⟨.test visit tmp rest, report⟩ ⟨.advance visit tmp rest, written⟩
  | advance (visit : Visit) (tmp : Addr) (rest : List Visit) (report : Report) :
      WalkMoves ⟨.advance visit tmp rest, report⟩
        ⟨.test visit (links visit.zone tmp) rest, report⟩

theorem walk_step_moves (before after : Walk)
    (taken : walkStep layout allocated links before = some after) :
    WalkMoves layout allocated links before after := by
  rcases before with ⟨cursor, report⟩
  cases cursor with
  | start rest =>
      cases rest with
      | nil => cases taken
      | cons visit rest =>
          cases taken
          exact .enter visit rest report
  | test visit tmp rest =>
      simp only [walkStep] at taken
      split at taken
      · rename_i back
        cases taken
        exact .leave visit tmp rest report back
      · rename_i inside
        cases recorded : recordPage layout allocated (links visit.zone) visit.order report tmp with
        | error fault => simp [recorded] at taken
        | ok written =>
            simp only [recorded, Option.some.injEq] at taken
            subst taken
            exact .record visit tmp rest report written inside recorded
  | advance visit tmp rest =>
      cases taken
      exact .advance visit tmp rest report

theorem walk_step_yields (before after : Walk) (report : Report)
    (moves : WalkMoves layout allocated links before after)
    (yields : Yields layout allocated links after report) :
    Yields layout allocated links before report := by
  rcases yields with ⟨bound, enough⟩
  cases moves with
  | enter visit rest current =>
      -- the list entered now gets the fuel that was kept for the later ones
      exact ⟨bound, fun _ later _ large => enough later later large large⟩
  | leave visit tmp rest current back =>
      refine ⟨bound + 1, ?_⟩
      intro fuel later large large'
      cases fuel with
      | zero => omega
      | succ fuel =>
          have rest := enough fuel later (by omega) (by omega)
          simpa [resume, scanFrom, CircularList.forEach, back] using rest
  | record visit tmp rest current written inside recorded =>
      refine ⟨bound + 1, ?_⟩
      intro fuel later large large'
      cases fuel with
      | zero => omega
      | succ fuel =>
          have rest := enough fuel later (by omega) (by omega)
          simp only [resume, scanFrom, CircularList.forEach, inside, if_false, recorded] at rest ⊢
          exact rest
  | advance visit tmp rest current => exact ⟨bound, enough⟩

theorem walks_to_yields (before after : Walk) (report : Report)
    (walks : WalksTo layout allocated links before after)
    (yields : Yields layout allocated links after report) :
    Yields layout allocated links before report := by
  induction walks using Relation.ReflTransGen.head_induction_on with
  | refl => exact yields
  | head taken _ ih =>
      exact walk_step_yields layout allocated links _ _ report
        (walk_step_moves layout allocated links _ _ taken) ih

/-- A finished walk over all zones has the report the loops compute. -/
theorem finished_walk_exact (zones : List Zone) (start : Report) (report : Report)
    (walks : WalksTo layout allocated links ⟨.start (visitedLists layout zones), start⟩
      ⟨.start [], report⟩) :
    ∃ bound, ∀ fuel, bound ≤ fuel →
      writeGuestFreePages layout allocated links fuel zones start = .ok report := by
  obtain ⟨bound, enough⟩ := walks_to_yields layout allocated links _ _ report walks
    ⟨0, fun _ _ _ _ => rfl⟩
  refine ⟨bound, ?_⟩
  intro fuel large
  rw [write_guest_visits]
  exact enough fuel fuel large large

end Adequacy

/-! The invariant counts the locks held. With `n` of them held these are the
first `n` populated zones, and only the first saved interrupt state can be on. -/
section Invariant

def savedAt (initial : Bool) (count : Nat) : Bool := count == 0 && initial

def lockLog (initial : Bool) (populated : List Addr) : List (Addr × Bool) :=
  populated.mapIdx fun i zone => (zone, savedAt initial i)

structure Held (initial : Bool) (populated : List Addr) (memory : Memory Addr Cpu (Addr → Addr))
    (arrays : Arrays) (count : Nat) : Prop where
  bound : count ≤ populated.length
  owner : ∀ lock, memory.owner lock = some .reporting ↔ lock ∈ populated.take count
  index : arrays.k = count
  saved : ∀ (i : Nat) zone, i < count → populated[i]? = some zone →
    arrays.zones i = zone ∧ arrays.flags i = savedAt initial i

def WalkedOn (call : Call) (memory : Memory Addr Cpu (Addr → Addr)) (walk : Walk) : Prop :=
  ∀ links, (∀ zone ∈ call.topology.populated, links zone = memory.data zone) →
    WalksTo call.layout call.allocated links call.firstWalk walk

def Cursor.visits : Cursor → List Visit
  | .start rest => rest
  | .test visit _ rest => visit :: rest
  | .advance visit _ rest => visit :: rest

def AllHeld (call : Call) (initial : Bool) (state : State) : Prop :=
  let populated := call.topology.populated
  Held initial populated state.memory state.arrays populated.length ∧
    state.irqEnabled = savedAt initial populated.length ∧
    state.taken = lockLog initial populated ∧ state.given = []

def PhaseOk (call : Call) (initial : Bool) (state : State) : Prop :=
  let populated := call.topology.populated
  let log := lockLog initial populated
  let held := Held initial populated state.memory state.arrays
  match state.phase with
  | .locking rest => ∃ count, rest = populated.drop count ∧ held count ∧
      state.irqEnabled = savedAt initial count ∧ state.taken = log.take count ∧
      state.given = [] ∧ state.device = []
  | .spinning saved rest => ∃ count,
      state.arrays.zones state.arrays.k :: rest = populated.drop count ∧ held count ∧
      saved = savedAt initial count ∧ state.irqEnabled = false ∧
      state.taken = log.take count ∧ state.given = [] ∧ state.device = []
  | .walking walk => AllHeld call initial state ∧ WalkedOn call state.memory walk ∧
      (∀ visit ∈ walk.cursor.visits, visit.zone ∈ populated) ∧ state.device = []
  | .writing report todo => AllHeld call initial state ∧
      WalkedOn call state.memory ⟨.start [], report⟩ ∧
      state.device ++ todo = deviceWrites call.bufferPhys call.elapsed report.count
  | .unlocking rest => held rest.length ∧ state.irqEnabled = savedAt initial rest.length ∧
      state.taken = log ∧ state.given = (log.drop rest.length).reverse
  | .returned => held 0 ∧ state.irqEnabled = initial ∧ state.taken = log ∧
      state.given = log.reverse

theorem drop_cons {Item : Type} (items : List Item) (count : Nat) (item : Item) (rest : List Item)
    (split : item :: rest = items.drop count) :
    count < items.length ∧ items[count]? = some item ∧ rest = items.drop (count + 1) ∧
      items.take (count + 1) = items.take count ++ [item] := by
  have inside : count < items.length := by
    by_contra outside
    rw [List.drop_eq_nil_of_le (Nat.le_of_not_lt outside)] at split
    cases split
  rw [List.drop_eq_getElem_cons inside, List.cons.injEq] at split
  have found : items[count]? = some item := by
    rw [List.getElem?_eq_getElem inside, split.1]
  have taken : items.take (count + 1) = items.take count ++ [item] := by
    rw [List.take_succ_eq_append_getElem inside, split.1]
  exact ⟨inside, found, split.2, taken⟩

@[simp] theorem lock_log_length (initial : Bool) (populated : List Addr) :
    (lockLog initial populated).length = populated.length := by
  simp [lockLog]

theorem lock_log_zones (initial : Bool) (populated : List Addr) :
    (lockLog initial populated).map Prod.fst = populated :=
  List.ext_getElem (by simp) fun i _ _ => by simp [lockLog]

theorem lock_log_at (initial : Bool) (populated : List Addr) (count : Nat) (zone : Addr)
    (found : populated[count]? = some zone) :
    (lockLog initial populated)[count]? = some (zone, savedAt initial count) := by
  simp [lockLog, List.getElem?_mapIdx, found]

theorem lock_log_take (initial : Bool) (populated : List Addr) (count : Nat) (zone : Addr)
    (found : populated[count]? = some zone) :
    (lockLog initial populated).take (count + 1) =
      (lockLog initial populated).take count ++ [(zone, savedAt initial count)] := by
  rw [List.take_add_one, lock_log_at initial populated count zone found]
  rfl

theorem lock_log_drop (initial : Bool) (populated : List Addr) (count : Nat) (zone : Addr)
    (found : populated[count]? = some zone) :
    ((lockLog initial populated).drop count).reverse =
      ((lockLog initial populated).drop (count + 1)).reverse ++
        [(zone, savedAt initial count)] := by
  obtain ⟨inside, same⟩ :=
    List.getElem?_eq_some_iff.mp (lock_log_at initial populated count zone found)
  rw [List.drop_eq_getElem_cons inside, same, List.reverse_cons]

theorem other_not_reporting (index : Nat) : Cpu.other index ≠ .reporting := nofun

section Interference
variable (call : Call) (initial : Bool) (before after : Memory Addr Cpu (Addr → Addr))
  (index : Nat) (action : Access Addr (Addr → Addr))

theorem interfere_held (populated : List Addr) (arrays : Arrays) (count : Nat)
    (taken : access (.other index) before action = some after)
    (held : Held initial populated before arrays count) :
    Held initial populated after arrays count := by
  have owner : ∀ lock, after.owner lock = some .reporting ↔ lock ∈ populated.take count := by
    intro lock
    have frame := access_frame .reporting (.other index) (other_not_reporting index) before after
      action taken lock
    exact frame.1.trans (held.owner lock)
  exact { held with owner }

/-- With every populated zone locked, interference changes no link of the walk. -/
theorem interfere_walked (arrays : Arrays) (walk : Walk)
    (taken : access (.other index) before action = some after)
    (held : Held initial call.topology.populated before arrays call.topology.populated.length)
    (walked : WalkedOn call before walk) : WalkedOn call after walk := by
  intro links agree
  apply walked
  intro zone member
  have owned : before.owner zone = some .reporting :=
    (held.owner zone).mpr (by rwa [List.take_length])
  have frame := access_frame .reporting (.other index) (other_not_reporting index) before after
    action taken zone
  rw [agree zone member, frame.2 owned]

end Interference

theorem interfere_phase (call : Call) (initial : Bool) (state : State) (index : Nat)
    (action : Access Addr (Addr → Addr)) (memory : Memory Addr Cpu (Addr → Addr))
    (taken : access (.other index) state.memory action = some memory)
    (ok : PhaseOk call initial state) : PhaseOk call initial { state with memory } := by
  rcases state with ⟨before, irqEnabled, arrays, phase, device, locked, given⟩
  have keeps := fun count =>
    interfere_held initial before memory index action call.topology.populated arrays count taken
  have walks := fun walk =>
    interfere_walked call initial before memory index action arrays walk taken
  cases phase with
  | locking rest =>
      rcases ok with ⟨count, split, held, facts⟩
      exact ⟨count, split, keeps count held, facts⟩
  | spinning saved rest =>
      rcases ok with ⟨count, split, held, facts⟩
      exact ⟨count, split, keeps count held, facts⟩
  | walking walk =>
      rcases ok with ⟨⟨held, facts⟩, walked, inside⟩
      exact ⟨⟨keeps _ held, facts⟩, walks walk held walked, inside⟩
  | writing report todo =>
      rcases ok with ⟨⟨held, facts⟩, walked, written⟩
      exact ⟨⟨keeps _ held, facts⟩, walks _ held walked, written⟩
  | unlocking rest => exact ⟨keeps _ ok.1, ok.2⟩
  | returned => exact ⟨keeps 0 ok.1, ok.2⟩

/-! One lemma for each kind of step of the reporting CPU. -/
section Reporting
variable (call : Call) (initial : Bool)

theorem acquire_held (populated : List Addr) (before after : Memory Addr Cpu (Addr → Addr))
    (arrays : Arrays) (count : Nat) (zone : Addr) (found : populated[count]? = some zone)
    (named : arrays.zones arrays.k = zone)
    (taken : access .reporting before (.acquire zone) = some after)
    (held : Held initial populated before arrays count) :
    Held initial populated after
      { arrays with
        flags := Function.update arrays.flags arrays.k (savedAt initial count)
        k := arrays.k + 1 } (count + 1) := by
  obtain ⟨inside, same⟩ := List.getElem?_eq_some_iff.mp found
  simp only [access] at taken
  split at taken
  · cases taken
    constructor
    · exact inside
    · intro lock
      rw [List.take_succ_eq_append_getElem inside, same, List.mem_append, List.mem_singleton,
        ← held.owner lock]
      by_cases target : lock = zone
      · simp [target]
      · simp [target]
    · simp [held.index]
    · intro i other below at_i
      by_cases last : i = count
      · subst last
        cases found.symm.trans at_i
        exact ⟨by rw [← held.index, named], by simp [held.index]⟩
      · -- the slots below keep what they saved
        have earlier := held.saved i other (by omega) at_i
        have apart : (i : Int) ≠ arrays.k := by
          rw [held.index]
          exact_mod_cast last
        exact ⟨earlier.1, by simpa [Function.update_of_ne apart] using earlier.2⟩
  · cases taken

theorem release_held (populated : List Addr) (distinct : populated.Nodup)
    (memory : Memory Addr Cpu (Addr → Addr)) (arrays : Arrays) (count : Nat)
    (held : Held initial populated memory arrays (count + 1)) :
    populated[count]? = some (arrays.zones (arrays.k - 1)) ∧
      arrays.flags (arrays.k - 1) = savedAt initial count ∧
      Held initial populated
        { memory with owner := Function.update memory.owner (arrays.zones (arrays.k - 1)) none }
        { arrays with k := arrays.k - 1 } count := by
  have inside : count < populated.length := held.bound
  have back : arrays.k - 1 = count := by rw [held.index]; omega
  have found := List.getElem?_eq_getElem inside
  obtain ⟨zone_at, flag_at⟩ := held.saved count _ (by omega) found
  rw [back, zone_at]
  refine ⟨found, flag_at, ?_⟩
  constructor
  · omega
  · intro lock
    have split : populated.take (count + 1) = populated.take count ++ [populated[count]] :=
      List.take_succ_eq_append_getElem inside
    have fresh : populated[count] ∉ populated.take count := by
      have parts : (populated.take count ++ [populated[count]]).Nodup :=
        split ▸ distinct.sublist (List.take_sublist _ _)
      intro member
      exact (List.nodup_append.mp parts).2.2 _ member _ (List.mem_singleton_self _) rfl
    by_cases target : lock = populated[count]
    · subst target
      simp [fresh]
    · have kept := held.owner lock
      rw [split, List.mem_append, List.mem_singleton, or_iff_left target] at kept
      simpa [Function.update_of_ne target] using kept
  · rfl
  · intro i zone below at_i
    exact held.saved i zone (by omega) at_i

theorem visited_populated (layout : Layout) (topology : Topology) :
    ∀ visit ∈ visitedLists layout topology.zones, visit.zone ∈ topology.populated := by
  intro visit visited
  simp only [visitedLists, List.mem_flatMap, List.mem_map] at visited
  rcases visited with ⟨zone, member, _, _, _, _, rfl⟩
  obtain ⟨listed, kept⟩ := List.mem_filter.mp member
  have populated := (Bool.and_eq_true_iff.mp kept).1
  exact List.mem_map.mpr ⟨zone, List.mem_filter.mpr ⟨listed, populated⟩, rfl⟩

/-- A step of the walk reads only the links of the lists still to visit. -/
theorem walk_step_reads (layout : Layout) (allocated : Bool) (links other : Addr → Addr → Addr)
    (walk : Walk) (agree : ∀ visit ∈ walk.cursor.visits, links visit.zone = other visit.zone) :
    walkStep layout allocated links walk = walkStep layout allocated other walk := by
  rcases walk with ⟨cursor, report⟩
  cases cursor with
  | start rest =>
      cases rest with
      | nil => rfl
      | cons visit rest => simp only [walkStep, agree visit List.mem_cons_self]
  | test visit tmp rest => simp only [walkStep, agree visit List.mem_cons_self]
  | advance visit tmp rest => simp only [walkStep, agree visit List.mem_cons_self]

theorem walk_step_visits (layout : Layout) (allocated : Bool) (links : Addr → Addr → Addr)
    (walk next : Walk) (taken : walkStep layout allocated links walk = some next) :
    ∀ visit ∈ next.cursor.visits, visit ∈ walk.cursor.visits := by
  cases walk_step_moves layout allocated links walk next taken with
  | enter | record | advance => exact fun _ member => member
  | leave visit => exact fun _ member => List.mem_cons_of_mem visit member

theorem walk_step_walked (call : Call) (memory : Memory Addr Cpu (Addr → Addr)) (walk next : Walk)
    (inside : ∀ visit ∈ walk.cursor.visits, visit.zone ∈ call.topology.populated)
    (taken : walkStep call.layout call.allocated memory.data walk = some next)
    (walked : WalkedOn call memory walk) : WalkedOn call memory next := by
  intro links agree
  apply (walked links agree).tail
  rw [← taken]
  exact walk_step_reads _ _ _ _ walk fun visit member => agree visit.zone (inside visit member)

theorem report_step_phase (state next : State) (taken : reportStep call state = some next)
    (ok : PhaseOk call initial state) : PhaseOk call initial next := by
  rcases state with ⟨memory, irqEnabled, arrays, phase, device, locked, given⟩
  cases phase with
  | locking rest =>
      rcases ok with ⟨count, split, held, enabled, logged, kept, silent⟩
      cases rest with
      | nil =>
          cases taken
          have all : count = call.topology.populated.length :=
            Nat.le_antisymm held.bound (List.drop_eq_nil_iff.mp split.symm)
          subst all
          rw [List.take_of_length_le (by simp)] at logged
          exact ⟨⟨held, enabled, logged, kept⟩, fun _ _ => .refl,
            visited_populated call.layout call.topology, silent⟩
      | cons zone rest =>
          cases taken
          refine ⟨count, by simpa using split, ?_, enabled, rfl, logged, kept, silent⟩
          -- the slot written is the first free one
          constructor
          · exact held.bound
          · exact held.owner
          · exact held.index
          · intro i other below at_i
            rcases held.saved i other below at_i with ⟨named, flagged⟩
            have apart : (i : Int) ≠ arrays.k := by
              rw [held.index]
              omega
            exact ⟨by simpa [Function.update_of_ne apart] using named, flagged⟩
  | spinning saved rest =>
      rcases ok with ⟨count, split, held, same, disabled, logged, kept, silent⟩
      obtain ⟨after, acquired, rfl⟩ := Option.map_eq_some_iff.mp taken
      obtain ⟨_, found, later, _⟩ := drop_cons _ _ _ _ split
      have more := acquire_held initial _ memory after arrays count _ found rfl acquired held
      subst same
      refine ⟨count + 1, later, more, disabled, ?_, kept, silent⟩
      rw [logged, lock_log_take initial _ count _ found]
  | walking walk =>
      rcases ok with ⟨all, walked, inside, silent⟩
      rcases walk with ⟨cursor, report⟩
      simp only [reportStep] at taken
      split at taken
      · rename_i done
        cases taken
        subst silent done
        exact ⟨all, walked, rfl⟩
      · obtain ⟨after, moved, rfl⟩ := Option.map_eq_some_iff.mp taken
        refine ⟨all, walk_step_walked call memory _ after inside moved walked, ?_, silent⟩
        intro visit member
        exact inside visit (walk_step_visits _ _ _ _ after moved visit member)
  | writing report todo =>
      rcases ok with ⟨⟨held, enabled, logged, kept⟩, walked, written⟩
      cases todo with
      | nil =>
          cases taken
          refine ⟨held, enabled, logged, ?_⟩
          rw [kept, List.drop_eq_nil_of_le (by simp), List.reverse_nil]
      | cons write todo =>
          cases taken
          exact ⟨⟨held, enabled, logged, kept⟩, walked, by simpa using written⟩
  | unlocking rest =>
      rcases ok with ⟨held, enabled, logged, released⟩
      cases rest with
      | nil =>
          cases taken
          exact ⟨held, enabled, logged, by simpa using released⟩
      | cons zone rest =>
          cases taken
          obtain ⟨found, flagged, fewer⟩ := release_held initial call.topology.populated
            call.topology.populated_distinct memory arrays rest.length held
          refine ⟨fewer, flagged, logged, ?_⟩
          rw [lock_log_drop initial _ _ _ found, ← flagged]
          exact congrArg (· ++ _) released
  | returned => cases taken

theorem step_phase (state next : State) (action : Action)
    (ok : PhaseOk call initial state) (taken : step call state action = some next) :
    PhaseOk call initial next := by
  cases action with
  | report => exact report_step_phase call initial state next taken ok
  | interfere index action =>
      obtain ⟨memory, accessed, rfl⟩ := Option.map_eq_some_iff.mp taken
      exact interfere_phase call initial state index action memory accessed ok

theorem entry_phase (holders : Addr → Option Nat) (links : Addr → Addr → Addr) :
    PhaseOk call initial (entry call holders links initial) := by
  refine ⟨0, rfl, ?_, rfl, rfl, rfl, rfl⟩
  constructor
  · exact Nat.zero_le _
  · intro lock
    cases holder : holders lock <;> simp [entry, holder]
  · rfl
  · intro _ _ below
    exact absurd below (Nat.not_lt_zero _)

/-- Every state a run from an entry reaches is as the invariant says. -/
theorem run_phase (holders : Addr → Option Nat) (links : Addr → Addr → Addr)
    (history : List Action) (state : State)
    (replay : run (step call) (entry call holders links initial) history = some state) :
    PhaseOk call initial state :=
  run_invariant (step call) (PhaseOk call initial)
    (fun before action after ok taken => step_phase call initial before after action ok taken)
    (entry_phase call initial holders links) replay

end Reporting

end Invariant

def ZonesLocked (call : Call) (state : State) : Prop :=
  ∀ zone ∈ call.topology.populated, state.memory.owner zone = some .reporting

def Reporting (state : State) : Prop :=
  (∃ walk, state.phase = .walking walk) ∨ ∃ report todo, state.phase = .writing report todo

/-- The words of the report are those the walk computes on the links as they
are in this state; `todo` are the writes still to be made. -/
def Snapshot (call : Call) (state : State) : Prop :=
  ∀ report todo, state.phase = .writing report todo →
    state.device ++ todo = deviceWrites call.bufferPhys call.elapsed report.count ∧
      ∃ bound, ∀ fuel, bound ≤ fuel →
        writeGuestFreePages call.layout call.allocated state.memory.data fuel
          call.topology.zones ⟨call.start, 0⟩ = .ok report

/-- Every lock taken was released once, in the reverse order and with its own
flags, and nothing of the call is left. -/
def Restored (call : Call) (initial : Bool) (state : State) : Prop :=
  state.taken.map Prod.fst = call.topology.populated ∧ (state.taken.map Prod.fst).Nodup ∧
    state.given = state.taken.reverse ∧ (∀ lock, state.memory.owner lock ≠ some .reporting) ∧
    state.arrays.k = 0 ∧ state.irqEnabled = initial

theorem phase_locked (call : Call) (initial : Bool) (state : State)
    (ok : PhaseOk call initial state) (reporting : Reporting state) : ZonesLocked call state := by
  have all : AllHeld call initial state := by
    unfold PhaseOk at ok
    rcases reporting with ⟨walk, phase⟩ | ⟨report, todo, phase⟩ <;>
      simp only [phase] at ok <;> exact ok.1
  intro zone member
  exact (all.1.owner zone).mpr (by rwa [List.take_length])

theorem phase_snapshot (call : Call) (initial : Bool) (state : State)
    (ok : PhaseOk call initial state) : Snapshot call state := by
  intro report todo phase
  unfold PhaseOk at ok
  simp only [phase] at ok
  rcases ok with ⟨_, walked, written⟩
  exact ⟨written, finished_walk_exact call.layout call.allocated state.memory.data
    call.topology.zones ⟨call.start, 0⟩ report (walked state.memory.data fun _ _ => rfl)⟩

theorem phase_restored (call : Call) (initial : Bool) (state : State)
    (ok : PhaseOk call initial state) (returned : state.phase = .returned) :
    Restored call initial state := by
  unfold PhaseOk at ok
  simp only [returned] at ok
  rcases ok with ⟨held, enabled, logged, released⟩
  have zones : state.taken.map Prod.fst = call.topology.populated := by
    rw [logged, lock_log_zones]
  refine ⟨zones, zones ▸ call.topology.populated_distinct, by rw [released, logged], ?_,
    held.index, enabled⟩
  intro lock owned
  simpa using (held.owner lock).mp owned

/-- In every interleaving the free lists are read, and the device is written,
with all populated zones locked; up to the doorbell the report is that of the
current free lists; and on return locks, index and interrupts are as at entry. -/
theorem report_consistent_snapshot (call : Call) (holders : Addr → Option Nat)
    (links : Addr → Addr → Addr) (irqEnabled : Bool) (history : List Action) (state : State)
    (replay : run (step call) (entry call holders links irqEnabled) history = some state) :
    (Reporting state → ZonesLocked call state) ∧ Snapshot call state ∧
      (state.phase = .returned → Restored call irqEnabled state) := by
  have ok := run_phase call irqEnabled holders links history state replay
  exact ⟨phase_locked call irqEnabled state ok, phase_snapshot call irqEnabled state ok,
    phase_restored call irqEnabled state ok⟩

def contendedCall : Call :=
  { layout := twoZoneLayout
    allocated := true
    topology := ⟨twoZones, by decide⟩
    bufferPhys := 0x7f000000#64
    elapsed := 0#32
    start := fun _ => 0#64 }

def contendedEntry : State :=
  entry contendedCall (fun lock => if lock = 0xd00#64 then some 7 else none)
    (fun zone => if zone = 0xd00#64 then id else twoZoneNext) true

/-- CPU 7 links two blocks before it lets the lock go, and takes the lock of the
zone without pages while the others are reported. -/
def contendedHistory : List Action :=
  List.replicate 3 .report ++
    [.interfere 7 (.write 0xd00#64 twoZoneNext), .interfere 7 (.release 0xd00#64), .report,
      .interfere 7 (.acquire 0xe00#64)] ++
    List.replicate 39 .report

theorem contended_call_restored :
    ∃ state, run (step contendedCall) contendedEntry contendedHistory = some state ∧
      state.phase = .returned ∧
      state.given = [(0xd00#64, false), (0xf00#64, true)] ∧ Restored contendedCall true state := by
  obtain ⟨state, replay, returned, given⟩ : ∃ state,
      run (step contendedCall) contendedEntry contendedHistory = some state ∧
        state.phase = .returned ∧ state.given = [(0xd00#64, false), (0xf00#64, true)] :=
    ⟨_, rfl, rfl, rfl⟩
  have facts := report_consistent_snapshot contendedCall _ _ true contendedHistory state replay
  exact ⟨state, replay, returned, given, facts.2.2 returned⟩

end EbpfInjection.ZoneLocking
