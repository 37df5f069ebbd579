import EbpfInjection.FreePageReport

/-!
Where the stores of `write_guest_free_pages` go. The running index grows by two
for every linked block of every list, and neither the index nor the result of
the allocation in `pci_probe` is looked at before a store.
-/

namespace EbpfInjection.ReportBounds
open FreePageReport CircularList

def StaysInside (walk : Except Fault Report) : Prop :=
  walk ≠ .error .noBuffer ∧ ∀ index, walk ≠ .error (.outOfBuffer index)

def HasRoom (allocated : Bool) (count pairs : Nat) : Prop :=
  pairs = 0 ∨ allocated = true ∧ count + 2 * pairs ≤ migrationBufferWords

/-- A piece of the walk that stores this many pairs: with room it advances the
index by two for each, and without room it tries a store outside. -/
structure Spends (allocated : Bool) (piece : Report → Except Fault Report) (pairs : Nat) :
    Prop where
  stored : ∀ report, HasRoom allocated report.count pairs →
    ∃ after, piece report = .ok after ∧ after.count = report.count + 2 * pairs
  spilled : ∀ report, ¬ HasRoom allocated report.count pairs →
    ∃ fault, piece report = .error fault ∧ fault ≠ .endlessList

theorem spends_nothing (allocated : Bool) : Spends allocated (fun report => .ok report) 0 := by
  constructor
  · intro report _
    exact ⟨report, rfl, rfl⟩
  · intro report full
    exact absurd (.inl rfl) full

theorem has_room_add (allocated : Bool) (count early late : Nat) :
    HasRoom allocated count (early + late) ↔
      HasRoom allocated count early ∧ HasRoom allocated (count + 2 * early) late := by
  simp only [HasRoom]
  cases allocated with
  | false => simp
  | true =>
      simp only [true_and]
      omega

theorem spends_seq (allocated : Bool) (first second : Report → Except Fault Report)
    (early late : Nat) (spends : Spends allocated first early)
    (spends' : Spends allocated second late) :
    Spends allocated (fun report => first report >>= second) (early + late) := by
  constructor
  · intro report room
    rcases (has_room_add ..).mp room with ⟨room, rest⟩
    obtain ⟨middle, stored, count⟩ := spends.stored report room
    obtain ⟨after, stored', count'⟩ := spends'.stored middle (count ▸ rest)
    have both : (first report >>= second) = .ok after := by
      simp only [stored]
      exact stored'
    exact ⟨after, both, by omega⟩
  · intro report full
    by_cases room : HasRoom allocated report.count early
    · obtain ⟨middle, stored, count⟩ := spends.stored report room
      -- the first piece fits, so it is the second one that spills
      have rest : ¬ HasRoom allocated middle.count late := by
        intro rest
        exact full ((has_room_add ..).mpr ⟨room, count ▸ rest⟩)
      obtain ⟨fault, failed, kind⟩ := spends'.spilled middle rest
      have later : (first report >>= second) = .error fault := by
        simp only [stored]
        exact failed
      exact ⟨fault, later, kind⟩
    · obtain ⟨fault, failed, kind⟩ := spends.spilled report room
      have ended : (first report >>= second) = .error fault := by
        simp only [failed]
        rfl
      exact ⟨fault, ended, kind⟩

theorem spends_fold {Item : Type} (allocated : Bool) (items : List Item)
    (body : Report → Item → Except Fault Report) (pairs : Item → Nat)
    (each : ∀ item ∈ items, Spends allocated (fun report => body report item) (pairs item)) :
    Spends allocated (fun report => items.foldlM body report) (items.map pairs).sum := by
  induction items with
  | nil => exact spends_nothing allocated
  | cons item rest ih =>
      simp only [List.foldlM_cons, List.map_cons, List.sum_cons]
      apply spends_seq
      · exact each item List.mem_cons_self
      · exact ih fun other member => each other (List.mem_cons_of_mem item member)

section Stores
variable (layout : Layout) (allocated : Bool)

theorem store_inside (report : Report) (value : BitVec 64)
    (inside : report.count < migrationBufferWords) :
    store true report value =
      .ok ⟨Function.update report.buffer report.count value, report.count + 1⟩ := by
  simp [store, inside]

theorem store_spilled (report : Report) (value : BitVec 64)
    (outside : allocated = true → ¬ report.count < migrationBufferWords) :
    ∃ fault, store allocated report value = .error fault ∧ fault ≠ .endlessList := by
  cases allocated with
  | false => exact ⟨.noBuffer, rfl, by simp⟩
  | true => exact ⟨.outOfBuffer report.count, by simp [store, outside], by simp⟩

theorem record_page_spends (next : Addr → Addr) (order : Nat) (node : Addr)
    (moves : next node ≠ node) :
    Spends allocated (fun report => recordPage layout allocated next order report node) 1 := by
  simp only [recordPage, moves, if_false]
  constructor
  · intro report room
    simp only [HasRoom, Nat.one_ne_zero, false_or] at room
    rcases room with ⟨rfl, room⟩
    rw [store_inside report _ (by omega)]
    exact ⟨_, store_inside _ _ (by dsimp only; omega), rfl⟩
  · intro report full
    simp only [HasRoom, Nat.one_ne_zero, false_or, not_and] at full
    by_cases first : allocated = true ∧ report.count < migrationBufferWords
    · rcases first with ⟨rfl, first⟩
      have last := full rfl
      rw [store_inside report _ first]
      exact store_spilled true _ _ fun _ => by dsimp only; omega
    · obtain ⟨fault, failed, kind⟩ := store_spilled allocated report
        (physAddr layout (next node)) (not_and.mp first)
      rw [failed]
      exact ⟨fault, rfl, kind⟩

theorem walk_list_spends (next : Addr → Addr) (fuel order : Nat) (head : Addr)
    (nodes : List Addr) (linked : Linked next head head nodes) (enough : nodes.length < fuel) :
    Spends allocated (walkList layout allocated next fuel order head) nodes.length := by
  have body : walkList layout allocated next fuel order head =
      fun report => nodes.foldlM (recordPage layout allocated next order) report :=
    funext fun report => for_each_linked next head head nodes _ _ fuel report linked enough
  have each := spends_fold allocated nodes (recordPage layout allocated next order) (fun _ => 1)
    fun node member => record_page_spends layout allocated next order node
      (nodes_not_fixed next head head nodes linked node member)
  rw [body]
  simpa using each

end Stores

variable {layout : Layout}

/-- The walk stores one pair for every linked block. -/
theorem walk_spends (state : BuddyState layout) (allocated : Bool) (fuel : Nat)
    (enough : state.linkedBlocks.length < fuel) :
    Spends allocated (writeGuestFreePages layout allocated state.links fuel state.zones)
      state.linkedBlocks.length := by
  have visits : writeGuestFreePages layout allocated state.links fuel state.zones = fun report =>
      (visitedLists layout state.zones).foldlM (fun report visit =>
        walkList layout allocated (state.links visit.zone) fuel visit.order visit.head report)
        report :=
    funext fun report => write_guest_visits layout allocated state.links fuel state.zones report
  have total : state.linkedBlocks.length =
      ((visitedLists layout state.zones).map fun visit => (state.blocks visit).length).sum := by
    simp [BuddyState.linkedBlocks, List.length_flatMap]
  rw [visits, total]
  apply spends_fold
  intro visit visited
  exact walk_list_spends layout allocated (state.links visit.zone) fuel visit.order visit.head
    (state.blocks visit) (state.linked visit visited)
    (Nat.lt_of_le_of_lt (blocks_bounded state visit visited) enough)

theorem finished_has_room (state : BuddyState layout) (allocated : Bool)
    (start : Nat → BitVec 64) (fuel : Nat) (enough : state.linkedBlocks.length < fuel)
    (report : Report) (finished : writeGuestFreePages layout allocated state.links fuel
      state.zones ⟨start, 0⟩ = .ok report) :
    HasRoom allocated 0 state.linkedBlocks.length := by
  by_contra full
  obtain ⟨fault, failed, _⟩ := (walk_spends state allocated fuel enough).spilled ⟨start, 0⟩ full
  rw [finished] at failed
  cases failed

/-- The walk ends, and it stays inside the buffer exactly when nothing is free
or the buffer is there and the free blocks are not more than fit in pairs. -/
theorem report_inside_iff (state : BuddyState layout) (allocated : Bool)
    (start : Nat → BitVec 64) (fuel : Nat) (enough : state.linkedBlocks.length < fuel) :
    let walk := writeGuestFreePages layout allocated state.links fuel state.zones ⟨start, 0⟩
    walk ≠ .error .endlessList ∧
      (StaysInside walk ↔
        state.linkedBlocks = [] ∨
          allocated = true ∧ 2 * state.linkedBlocks.length ≤ migrationBufferWords) := by
  have spends := walk_spends state allocated fuel enough
  have room_iff : HasRoom allocated 0 state.linkedBlocks.length ↔ state.linkedBlocks = [] ∨
      allocated = true ∧ 2 * state.linkedBlocks.length ≤ migrationBufferWords := by
    simp [HasRoom]
  intro walk
  rw [← room_iff]
  by_cases room : HasRoom allocated 0 state.linkedBlocks.length
  · obtain ⟨after, stored, _⟩ := spends.stored ⟨start, 0⟩ room
    have ended : walk = .ok after := stored
    simp [ended, StaysInside, room]
  · obtain ⟨fault, failed, kind⟩ := spends.spilled ⟨start, 0⟩ room
    have ended : walk = .error fault := failed
    constructor
    · simpa [ended] using kind
    · apply iff_of_false
      · cases fault <;> simp_all [StaysInside]
      · exact room

theorem two_zones_inside :
    let walk := writeGuestFreePages twoZoneLayout true twoZoneState.links 7 twoZoneState.zones
      ⟨fun _ => 0#64, 0⟩
    walk ≠ .error .endlessList ∧ StaysInside walk := by
  have bounds := report_inside_iff twoZoneState true (fun _ => 0#64) 7 (by decide)
  exact ⟨bounds.1, bounds.2.mpr (.inr ⟨rfl, by decide⟩)⟩

theorem missing_buffer_stored_to :
    writeGuestFreePages oneBlockLayout false oneBlockState.links 2 oneBlockState.zones
        ⟨fun _ => 0#64, 0⟩ = .error .noBuffer ∧
      ¬ StaysInside (writeGuestFreePages oneBlockLayout false oneBlockState.links 2
        oneBlockState.zones ⟨fun _ => 0#64, 0⟩) := by
  have stored : writeGuestFreePages oneBlockLayout false oneBlockState.links 2
      oneBlockState.zones ⟨fun _ => 0#64, 0⟩ = .error .noBuffer := rfl
  exact ⟨stored, fun inside => inside.1 stored⟩

end EbpfInjection.ReportBounds
