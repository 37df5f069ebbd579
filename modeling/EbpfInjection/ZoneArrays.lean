import EbpfInjection.ZoneLocking

/-!
The size of the arrays `zones` and `flags` in `write_guest_free_pages` and the
indices the lock and unlock loops use. The sizing loop goes over the online
nodes and keeps the number of the last one; the index loops go over the
populated zones of all nodes.
-/

namespace EbpfInjection.ZoneArrays
open FreePageReport ZoneLocking TransitionSystem

/-- An online node. The kernel keeps `nr_zones` one above the index of the
highest populated zone. -/
structure Pgdat where
  nodeZones : List Zone
  nrZones : Nat
  covers : ∀ (i : Nat) zone, nodeZones[i]? = some zone → zone.populated = true → i < nrZones
  reached : nrZones = 0 ∨
    ∃ zone, nodeZones[nrZones - 1]? = some zone ∧ zone.populated = true

/-- `for_each_online_pgdat(pgdat) nr_populated_zones = pgdat->nr_zones;`. -/
def nrPopulatedZones (nodes : List Pgdat) : Option Nat :=
  nodes.foldl (fun _ pgdat => some pgdat.nrZones) none

def populatedZones (nodes : List Pgdat) : List Zone :=
  (nodes.flatMap Pgdat.nodeZones).filter Zone.populated

inductive ZoneArray where
  | zones
  | flags
  deriving DecidableEq

structure Access where
  array : ZoneArray
  index : Int
  deriving DecidableEq

structure Loop where
  k : Int
  trace : List Access

def lockZone (loop : Loop) (_ : Zone) : Loop :=
  { k := loop.k + 1, trace := loop.trace ++ [⟨.zones, loop.k⟩, ⟨.flags, loop.k⟩] }

def unlockZone (loop : Loop) (_ : Zone) : Loop :=
  { k := loop.k - 1, trace := loop.trace ++ [⟨.zones, loop.k - 1⟩, ⟨.flags, loop.k - 1⟩] }

def accesses (nodes : List Pgdat) : List Access :=
  let locked := (populatedZones nodes).foldl lockZone ⟨0, []⟩
  ((populatedZones nodes).foldl unlockZone locked).trace

def InBounds (kmalloc : ZoneArray → Bool) (length : Nat) (access : Access) : Prop :=
  kmalloc access.array = true ∧ 0 ≤ access.index ∧ access.index < length

instance (kmalloc : ZoneArray → Bool) (length : Nat) (access : Access) :
    Decidable (InBounds kmalloc length access) :=
  inferInstanceAs (Decidable (_ ∧ _ ∧ _))

theorem nr_populated_last (nodes : List Pgdat) (online : nodes ≠ []) :
    nrPopulatedZones nodes = some (nodes.getLast online).nrZones := by
  obtain ⟨early, last, rfl⟩ := List.eq_nil_or_concat nodes |>.resolve_left online
  simp [nrPopulatedZones, List.foldl_append]

theorem both_arrays (access : Access) (k : Int) :
    access ∈ [(⟨.zones, k⟩ : Access), ⟨.flags, k⟩] ↔ access.index = k := by
  rcases access with ⟨array, index⟩
  cases array <;> simp

theorem lock_loop (zones : List Zone) (loop : Loop) :
    (zones.foldl lockZone loop).k = loop.k + zones.length ∧
      ∀ access, access ∈ (zones.foldl lockZone loop).trace ↔
        access ∈ loop.trace ∨ loop.k ≤ access.index ∧ access.index < loop.k + zones.length := by
  induction zones generalizing loop with
  | nil =>
      constructor
      · simp
      · intro access
        rw [List.foldl_nil, List.length_nil]
        exact (or_iff_left (by omega)).symm
  | cons zone rest ih =>
      rcases ih (lockZone loop zone) with ⟨index, member⟩
      rw [List.foldl_cons, List.length_cons]
      constructor
      · rw [index, lockZone]
        dsimp only
        omega
      · intro access
        rw [member access, lockZone, List.mem_append, both_arrays, or_assoc]
        exact or_congr_right (by dsimp only; omega)

theorem unlock_loop (zones : List Zone) (loop : Loop) (access : Access) :
    access ∈ (zones.foldl unlockZone loop).trace ↔
      access ∈ loop.trace ∨ loop.k - zones.length ≤ access.index ∧ access.index < loop.k := by
  induction zones generalizing loop with
  | nil =>
      rw [List.foldl_nil, List.length_nil]
      exact (or_iff_left (by omega)).symm
  | cons zone rest ih =>
      rw [List.foldl_cons, List.length_cons, ih, unlockZone, List.mem_append, both_arrays, or_assoc]
      exact or_congr_right (by dsimp only; omega)

/-- Both arrays are used at every index below the number of populated zones. -/
theorem accesses_exact (nodes : List Pgdat) (access : Access) :
    access ∈ accesses nodes ↔ 0 ≤ access.index ∧ access.index < (populatedZones nodes).length := by
  rcases lock_loop (populatedZones nodes) ⟨0, []⟩ with ⟨index, locked⟩
  rw [accesses, unlock_loop, locked, index]
  simp only [List.not_mem_nil, false_or]
  omega

/-- Every access is inside its array exactly when there is none, or both arrays
are there and the last node's number covers the populated zones of all nodes. -/
theorem zone_arrays_inside_iff (nodes : List Pgdat) (online : nodes ≠ [])
    (kmalloc : ZoneArray → Bool) :
    ∃ length, nrPopulatedZones nodes = some length ∧
      ((∀ access ∈ accesses nodes, InBounds kmalloc length access) ↔
        populatedZones nodes = [] ∨
          kmalloc .zones = true ∧ kmalloc .flags = true ∧
            (populatedZones nodes).length ≤ (nodes.getLast online).nrZones) := by
  refine ⟨_, nr_populated_last nodes online, ?_⟩
  constructor
  · intro inside
    by_cases empty : populatedZones nodes = []
    · exact .inl empty
    · have some_zone := List.length_pos_of_ne_nil empty
      -- the highest index decides about the length
      have top := fun array => inside ⟨array, (populatedZones nodes).length - 1⟩
        ((accesses_exact nodes _).mpr (by dsimp only; omega))
      have below := (top .zones).2.2
      dsimp only at below
      exact .inr ⟨(top .zones).1, (top .flags).1, by omega⟩
  · rintro (empty | ⟨zones, flags, enough⟩) access member
    · have used := (accesses_exact nodes access).mp member
      rw [empty, List.length_nil] at used
      omega
    · have used := (accesses_exact nodes access).mp member
      rcases access with ⟨array, index⟩
      dsimp only at used
      cases array
      · exact ⟨zones, used.1, by dsimp only; omega⟩
      · exact ⟨flags, used.1, by dsimp only; omega⟩

def dmaNode : Pgdat :=
  { nodeZones := [zoneAt 0xc00#64 1 0x4000#64]
    nrZones := 1
    covers := by
      intro i zone found _
      exact (List.getElem?_eq_some_iff.mp found).1
    reached := .inr ⟨zoneAt 0xc00#64 1 0x4000#64, rfl, rfl⟩ }

def gappedNode : Pgdat :=
  { nodeZones := twoZones
    nrZones := 3
    covers := by
      intro i zone found _
      exact (List.getElem?_eq_some_iff.mp found).1
    reached := .inr ⟨zoneAt 0xd00#64 2 0x2000#64, rfl, rfl⟩ }

/-- The gap of the last node leaves an element for the zone of the first. -/
theorem gapped_node_arrays_inside :
    nrPopulatedZones [dmaNode, gappedNode] = some 3 ∧
      (populatedZones [dmaNode, gappedNode]).length = 3 ∧
      ∀ access ∈ accesses [dmaNode, gappedNode], InBounds (fun _ => true) 3 access := by
  obtain ⟨length, size, inside_iff⟩ :=
    zone_arrays_inside_iff [dmaNode, gappedNode] (by simp) fun _ => true
  cases size
  exact ⟨rfl, rfl, inside_iff.mpr (.inr ⟨rfl, rfl, by decide⟩)⟩

theorem two_nodes_outside :
    nrPopulatedZones [dmaNode, dmaNode] = some 1 ∧
      ⟨.zones, 1⟩ ∈ accesses [dmaNode, dmaNode] ∧
      ¬ ∀ access ∈ accesses [dmaNode, dmaNode], InBounds (fun _ => true) 1 access := by
  decide

theorem single_node_covered (node : Pgdat) : (populatedZones [node]).length ≤ node.nrZones := by
  have none_above : (node.nodeZones.drop node.nrZones).filter Zone.populated = [] := by
    rw [List.filter_eq_nil_iff]
    intro zone member populated
    obtain ⟨i, found⟩ := List.getElem?_of_mem member
    rw [List.getElem?_drop] at found
    have below := node.covers _ zone found populated
    omega
  calc (populatedZones [node]).length
      = ((node.nodeZones.take node.nrZones ++ node.nodeZones.drop node.nrZones).filter
          Zone.populated).length := by simp [populatedZones]
    _ = ((node.nodeZones.take node.nrZones).filter Zone.populated).length := by
        rw [List.filter_append, none_above, List.append_nil]
    _ ≤ (node.nodeZones.take node.nrZones).length := List.length_filter_le ..
    _ ≤ node.nrZones := List.length_take_le ..

/-! The same accesses among the steps of other CPUs. -/

def touched (state : State) : Action → List Access
  | .interfere _ _ => []
  | .report =>
      match state.phase with
      | .locking (_ :: _) => [⟨.zones, state.arrays.k⟩]
      | .spinning _ _ => [⟨.zones, state.arrays.k⟩, ⟨.flags, state.arrays.k⟩]
      | .unlocking (_ :: _) => [⟨.zones, state.arrays.k - 1⟩, ⟨.flags, state.arrays.k - 1⟩]
      | _ => []

/-- No interleaving makes the loops use another element. -/
theorem run_touches (call : Call) (nodes : List Pgdat)
    (topology : call.topology.zones = nodes.flatMap Pgdat.nodeZones) (holders : Addr → Option Nat)
    (links : Addr → Addr → Addr) (irqEnabled : Bool) (history : List Action) (state : State)
    (replay : run (step call) (entry call holders links irqEnabled) history = some state)
    (action : Action) : ∀ access ∈ touched state action, access ∈ accesses nodes := by
  have ok := run_phase call irqEnabled holders links history state replay
  have size : call.topology.populated.length = (populatedZones nodes).length := by
    rw [Topology.populated, List.length_map, topology, populatedZones]
  intro access member
  rw [accesses_exact, ← size]
  rcases state with ⟨memory, enabled, arrays, phase, device, taken, given⟩
  cases action with
  | interfere index other => cases member
  | report =>
      cases phase with
      | locking rest =>
          cases rest with
          | nil => cases member
          | cons zone rest =>
              rcases ok with ⟨count, split, held, _⟩
              have inside := (drop_cons _ _ _ _ split).1
              have index := held.index
              rw [List.mem_singleton.mp member]
              dsimp only at index ⊢
              omega
      | spinning saved rest =>
          rcases ok with ⟨count, split, held, _⟩
          have inside := (drop_cons _ _ _ _ split).1
          have index := held.index
          have used := (both_arrays access arrays.k).mp member
          dsimp only at index
          omega
      | unlocking rest =>
          cases rest with
          | nil => cases member
          | cons zone rest =>
              -- on the way back `k` is one ahead of the element in use
              have bound := ok.1.bound
              have index := ok.1.index
              have used := (both_arrays access (arrays.k - 1)).mp member
              simp only [List.length_cons] at bound index
              omega
      | walking walk => cases member
      | writing report todo => cases member
      | returned => cases member

/-- On a machine with one node, whatever its zones are, no step of the call in
any interleaving uses an element outside the arrays, once they are allocated. -/
theorem single_node_run_inside (call : Call) (node : Pgdat)
    (topology : call.topology.zones = node.nodeZones) (kmalloc : ZoneArray → Bool)
    (allocated : ∀ array, kmalloc array = true) (holders : Addr → Option Nat)
    (links : Addr → Addr → Addr) (irqEnabled : Bool) (history : List Action) (state : State)
    (replay : run (step call) (entry call holders links irqEnabled) history = some state)
    (action : Action) :
    ∃ length, nrPopulatedZones [node] = some length ∧
      ∀ access ∈ touched state action, InBounds kmalloc length access := by
  refine ⟨node.nrZones, rfl, ?_⟩
  intro access used
  have member := run_touches call [node] (by simpa using topology) holders links irqEnabled history
    state replay action access used
  obtain ⟨above, below⟩ := (accesses_exact [node] access).mp member
  have covered := single_node_covered node
  exact ⟨allocated access.array, above, by omega⟩

theorem contended_run_inside :
    ∃ state, run (step contendedCall) contendedEntry (contendedHistory.take 43) = some state ∧
      touched state .report = [⟨.zones, 1⟩, ⟨.flags, 1⟩] ∧
      ∃ length, nrPopulatedZones [gappedNode] = some length ∧
        ∀ access ∈ touched state .report, InBounds (fun _ => true) length access := by
  obtain ⟨state, replay, last⟩ : ∃ state,
      run (step contendedCall) contendedEntry (contendedHistory.take 43) = some state ∧
      touched state .report = [⟨.zones, 1⟩, ⟨.flags, 1⟩] := ⟨_, rfl, rfl⟩
  exact ⟨state, replay, last, single_node_run_inside contendedCall gappedNode rfl (fun _ => true)
    (fun _ => rfl) _ _ true (contendedHistory.take 43) state replay .report⟩

end EbpfInjection.ZoneArrays
