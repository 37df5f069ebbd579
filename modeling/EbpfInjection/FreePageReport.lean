import EbpfInjection.CircularList
import EbpfInjection.InjectionMessage

/-!
`write_guest_free_pages` of `driver.c` on a memory that does not change while
it runs: the walk over the populated zones, orders and migratetypes, the pairs
stored in `migration_buffer`, and the words written to the device. Addresses
are 64-bit pointers to list heads; the entry of a pointer is the `struct page`
around it.
-/

namespace EbpfInjection.FreePageReport
open LittleEndian InjectionMessage CircularList

abbrev Addr := BitVec 64

def pageShift : Nat := 12

def migrationBufferWords : Nat := 4 * 1024 * 1024 / 8

/-- The kernel's configuration: `MAX_ORDER`, `MIGRATE_TYPES`, the offset of
`lru` in `struct page`, and `page_to_pfn`. -/
structure Layout where
  maxOrder : Nat
  migrateTypes : Nat
  lruOffset : Addr
  pageToPfn : Addr → BitVec 64

structure Zone where
  addr : Addr
  presentPages : Nat
  managedPages : Nat
  freeList : Nat → Nat → Addr

def Zone.populated (zone : Zone) : Bool := zone.presentPages != 0

structure Report where
  buffer : Nat → BitVec 64
  count : Nat

inductive Fault where
  | noBuffer
  | outOfBuffer (index : Nat)
  | endlessList
  deriving DecidableEq

section Walk
variable (layout : Layout) (allocated : Bool) (next : Addr → Addr)

def physAddr (pos : Addr) : BitVec 64 :=
  layout.pageToPfn (pos - layout.lruOffset) <<< pageShift

def store (report : Report) (value : BitVec 64) : Except Fault Report :=
  if allocated then
    if report.count < migrationBufferWords then
      .ok { buffer := Function.update report.buffer report.count value
            count := report.count + 1 }
    else .error (.outOfBuffer report.count)
  else .error .noBuffer

/-- The loop body. `list_first_entry_or_null` is applied to the cursor, so the
entry is that of the cursor's successor; it is NULL when that is the cursor. -/
def recordPage (order : Nat) (report : Report) (tmp : Addr) : Except Fault Report :=
  if next tmp = tmp then .ok report
  else do
    let report ← store allocated report (physAddr layout (next tmp))
    store allocated report (BitVec.ofNat 64 order)

def walkList (fuel order : Nat) (head : Addr) (report : Report) : Except Fault Report :=
  forEach next head (recordPage layout allocated next order) (.error .endlessList) fuel
    (next head) report

end Walk

section Zones
variable (layout : Layout) (allocated : Bool) (links : Addr → Addr → Addr)

/-- The loops over orders and migratetypes of one zone. `links zone` are the
links of the lists the lock of `zone` protects. -/
def walkZone (fuel : Nat) (report : Report) (zone : Zone) : Except Fault Report :=
  if zone.managedPages = 0 then .ok report
  else
    (List.range layout.maxOrder).foldlM (fun report order =>
      (List.range layout.migrateTypes).foldlM (fun report j =>
        walkList layout allocated (links zone.addr) fuel order (zone.freeList order j) report)
        report) report

def writeGuestFreePages (fuel : Nat) (zones : List Zone) (report : Report) :
    Except Fault Report :=
  (zones.filter Zone.populated).foldlM (walkZone layout allocated links fuel) report

end Zones

structure ReportWords where
  header : Word
  highAddr : Word
  lowAddr : Word
  half : Word

def reportWords (bufferPhys : BitVec 64) (count : Nat) : ReportWords :=
  { header := MsgHeader.toWord ⟨BitVec.ofNat 8 defaultVersion, BitVec.ofNat 8 firstRoundMigration,
      BitVec.ofNat 16 (3 * 4)⟩
    highAddr := ((bufferPhys &&& 0xffffffff00000000#64) >>> 32).setWidth 32
    lowAddr := (bufferPhys &&& 0x00000000ffffffff#64).setWidth 32
    half := BitVec.ofNat 32 (count / 2) }

/-- The words in the order they are written, each with its offset, and the
doorbell. -/
def deviceWrites (bufferPhys : BitVec 64) (elapsed : Word) (count : Nat) : List (Nat × Word) :=
  let words := reportWords bufferPhys count
  [(newdevBuf, words.header), (newdevBuf + headerOffset, words.highAddr),
    (newdevBuf + 4 + headerOffset, words.lowAddr), (newdevBuf + 8 + headerOffset, words.half),
    (newdevRegDoorbell, elapsed)]

def Report.pairs (report : Report) : List (BitVec 64 × BitVec 64) :=
  (List.range (report.count / 2)).map fun i => (report.buffer (2 * i), report.buffer (2 * i + 1))

structure Visit where
  zone : Addr
  order : Nat
  head : Addr
  deriving DecidableEq

def visitedLists (layout : Layout) (zones : List Zone) : List Visit :=
  (zones.filter fun zone => zone.populated && zone.managedPages != 0).flatMap fun zone =>
    (List.range layout.maxOrder).flatMap fun order =>
      (List.range layout.migrateTypes).map fun j => ⟨zone.addr, order, zone.freeList order j⟩

theorem fold_flat_map {Item Part State ε : Type} (items : List Item) (parts : Item → List Part)
    (body : State → Part → Except ε State) (state : State) :
    (items.flatMap parts).foldlM body state =
      items.foldlM (fun state item => (parts item).foldlM body state) state := by
  induction items generalizing state with
  | nil => rfl
  | cons item rest ih =>
      rw [List.flatMap_cons, List.foldlM_append, List.foldlM_cons]
      exact bind_congr ih

/-- The three loops visit the lists one after the other. -/
theorem write_guest_visits (layout : Layout) (allocated : Bool) (links : Addr → Addr → Addr)
    (fuel : Nat) (zones : List Zone) (report : Report) :
    writeGuestFreePages layout allocated links fuel zones report =
      (visitedLists layout zones).foldlM (fun report visit =>
        walkList layout allocated (links visit.zone) fuel visit.order visit.head report)
        report := by
  unfold writeGuestFreePages visitedLists
  rw [fold_flat_map]
  induction zones generalizing report with
  | nil => rfl
  | cons zone rest ih =>
      by_cases populated : zone.populated = true
      · rw [List.filter_cons_of_pos populated, List.foldlM_cons]
        by_cases managed : zone.managedPages = 0
        · have skipped : walkZone layout allocated links fuel report zone = .ok report := by
            simp [walkZone, managed]
          rw [List.filter_cons_of_neg (by simp [managed]), skipped]
          exact ih report
        · rw [List.filter_cons_of_pos (by simp [populated, managed]), List.foldlM_cons]
          have walked : walkZone layout allocated links fuel report zone =
              ((List.range layout.maxOrder).flatMap fun order =>
                (List.range layout.migrateTypes).map fun j =>
                  (⟨zone.addr, order, zone.freeList order j⟩ : Visit)).foldlM
                (fun report visit =>
                  walkList layout allocated (links visit.zone) fuel visit.order visit.head report)
                report := by
            simp [walkZone, managed, fold_flat_map, List.foldlM_map]
          rw [walked]
          exact bind_congr ih
      · rw [List.filter_cons_of_neg populated, List.filter_cons_of_neg (by simp [populated])]
        exact ih report

/-- A memory with well-formed buddy free lists. The heads lie in `struct zone`,
outside every `struct page`, so the frame number computed for a head is not
that of a block. -/
structure BuddyState (layout : Layout) where
  zones : List Zone
  links : Addr → Addr → Addr
  blocks : Visit → List Addr
  linked : ∀ visit ∈ visitedLists layout zones,
    Linked (links visit.zone) visit.head visit.head (blocks visit)
  headOutside : ∀ visit ∈ visitedLists layout zones, ∀ other ∈ visitedLists layout zones,
    ∀ block ∈ blocks other, physAddr layout visit.head ≠ physAddr layout block

section Buddy
variable {layout : Layout}

def BuddyState.linkedBlocks (state : BuddyState layout) : List (BitVec 64 × BitVec 64) :=
  (visitedLists layout state.zones).flatMap fun visit =>
    (state.blocks visit).map fun block => (physAddr layout block, BitVec.ofNat 64 visit.order)

def BuddyState.storedPairs (state : BuddyState layout) : List (BitVec 64 × BitVec 64) :=
  (visitedLists layout state.zones).flatMap fun visit =>
    (state.blocks visit).map fun block =>
      (physAddr layout (state.links visit.zone block), BitVec.ofNat 64 visit.order)

def Filled (report : Report) (pairs : List (BitVec 64 × BitVec 64)) : Prop :=
  report.count = 2 * pairs.length ∧ report.pairs = pairs

def Emits (piece : Report → Except Fault Report) (out : List (BitVec 64 × BitVec 64)) : Prop :=
  ∀ report pairs, Filled report pairs →
    2 * (pairs.length + out.length) ≤ migrationBufferWords →
    ∃ after, piece report = .ok after ∧ Filled after (pairs ++ out)

theorem emits_nothing : Emits (fun report => .ok report) [] := by
  intro report pairs filled _
  exact ⟨report, rfl, by simpa using filled⟩

theorem emits_fold {Item : Type} (items : List Item) (body : Report → Item → Except Fault Report)
    (out : Item → List (BitVec 64 × BitVec 64))
    (each : ∀ item ∈ items, Emits (fun report => body report item) (out item)) :
    Emits (fun report => items.foldlM body report) (items.flatMap out) := by
  induction items with
  | nil => exact emits_nothing
  | cons item rest ih =>
      intro report pairs filled room
      simp only [List.flatMap_cons, List.length_append] at room
      obtain ⟨middle, first, filled'⟩ := each item List.mem_cons_self report pairs filled (by omega)
      obtain ⟨after, later, full⟩ := ih (fun other member =>
        each other (List.mem_cons_of_mem item member)) middle (pairs ++ out item) filled'
        (by rw [List.length_append]; omega)
      refine ⟨after, ?_, by simpa [List.append_assoc] using full⟩
      have start : body report item = .ok middle := first
      simp only [List.foldlM_cons, start]
      exact later

theorem pairs_snoc (report : Report) (pairs : List (BitVec 64 × BitVec 64))
    (address order : BitVec 64) (filled : Filled report pairs) :
    Filled
      { buffer := Function.update (Function.update report.buffer report.count address)
          (report.count + 1) order
        count := report.count + 1 + 1 } (pairs ++ [(address, order)]) := by
  rcases filled with ⟨count, same⟩
  refine ⟨by simp [count, Nat.mul_add], ?_⟩
  -- the count is even, so the two words stored are the next pair
  have halved : (report.count + 1 + 1) / 2 = pairs.length + 1 := by omega
  have earlier : report.count / 2 = pairs.length := by omega
  rw [Report.pairs] at same ⊢
  rw [earlier] at same
  simp only [halved, List.range_succ, List.map_append, List.map_cons, List.map_nil]
  congr 1
  · rw [← same]
    simp only [List.length_map, List.length_range]
    apply List.map_congr_left
    intro i inside
    have bound := List.mem_range.mp inside
    rw [Function.update_of_ne (by omega), Function.update_of_ne (by omega),
      Function.update_of_ne (by omega), Function.update_of_ne (by omega)]
  · have last : 2 * pairs.length = report.count := count.symm
    simp [last]

variable (layout) in
theorem record_page_emits (next : Addr → Addr) (order : Nat) (tmp : Addr)
    (moves : next tmp ≠ tmp) :
    Emits (fun report => recordPage layout true next order report tmp)
      [(physAddr layout (next tmp), BitVec.ofNat 64 order)] := by
  intro report pairs filled room
  have count := filled.1
  simp only [List.length_singleton] at room
  refine ⟨_, ?_, pairs_snoc report pairs _ _ filled⟩
  have first : report.count < migrationBufferWords := by omega
  have second : report.count + 1 < migrationBufferWords := by omega
  simp [recordPage, moves, store, first, second, bind, Except.bind]

variable (layout) in
theorem walk_list_emits (next : Addr → Addr) (fuel order : Nat) (head : Addr)
    (nodes : List Addr) (linked : Linked next head head nodes) (enough : nodes.length < fuel) :
    Emits (walkList layout true next fuel order head)
      (nodes.map fun node => (physAddr layout (next node), BitVec.ofNat 64 order)) := by
  have body : walkList layout true next fuel order head =
      fun report => nodes.foldlM (recordPage layout true next order) report :=
    funext fun report => for_each_linked next head head nodes _ _ fuel report linked enough
  rw [body, List.map_eq_flatMap]
  apply emits_fold nodes
  intro node member
  have moves := nodes_not_fixed next head head nodes linked node member
  exact record_page_emits layout next order node moves

theorem blocks_bounded (state : BuddyState layout) (visit : Visit)
    (visited : visit ∈ visitedLists layout state.zones) :
    (state.blocks visit).length ≤ state.linkedBlocks.length := by
  have part := List.Sublist.length_le (List.sublist_flatten_of_mem
    (List.mem_map.mpr ⟨visit, visited, rfl⟩ :
      ((state.blocks visit).map fun block =>
          (physAddr layout block, BitVec.ofNat 64 visit.order)) ∈
        (visitedLists layout state.zones).map fun visit =>
          (state.blocks visit).map fun block =>
            (physAddr layout block, BitVec.ofNat 64 visit.order)))
  simpa [BuddyState.linkedBlocks, List.flatMap_def] using part

theorem walk_emits (state : BuddyState layout) (fuel : Nat)
    (enough : state.linkedBlocks.length < fuel) :
    Emits (writeGuestFreePages layout true state.links fuel state.zones) state.storedPairs := by
  have visits : writeGuestFreePages layout true state.links fuel state.zones = fun report =>
      (visitedLists layout state.zones).foldlM (fun report visit =>
        walkList layout true (state.links visit.zone) fuel visit.order visit.head report) report :=
    funext fun report => write_guest_visits layout true state.links fuel state.zones report
  rw [visits]
  apply emits_fold
  intro visit visited
  exact walk_list_emits layout (state.links visit.zone) fuel visit.order visit.head
    (state.blocks visit) (state.linked visit visited)
    (Nat.lt_of_le_of_lt (blocks_bounded state visit visited) enough)

theorem stored_length (state : BuddyState layout) :
    state.storedPairs.length = state.linkedBlocks.length := by
  simp [BuddyState.storedPairs, BuddyState.linkedBlocks, List.length_flatMap]

/-- What the walk leaves in the buffer: one pair for each linked block, but
describing the block's successor, which for the last block is the list head. -/
theorem report_stores_successors (state : BuddyState layout) (fuel : Nat)
    (start : Nat → BitVec 64) (fits : 2 * state.linkedBlocks.length ≤ migrationBufferWords)
    (enough : state.linkedBlocks.length < fuel) :
    ∃ report, writeGuestFreePages layout true state.links fuel state.zones ⟨start, 0⟩ =
        .ok report ∧ Filled report state.storedPairs := by
  have room : 2 * (([] : List (BitVec 64 × BitVec 64)).length + state.storedPairs.length) ≤
      migrationBufferWords := by
    simpa [stored_length] using fits
  simpa using walk_emits state fuel enough ⟨start, 0⟩ [] ⟨rfl, by simp [Report.pairs]⟩ room

def WordsDecode (bufferPhys : BitVec 64) (report : Report) : Prop :=
  let words := reportWords bufferPhys report.count
  words.highAddr ++ words.lowAddr = bufferPhys ∧ words.half.toNat = report.pairs.length

/-- The report is exact: the pairs are those of the linked blocks, each once,
and the words say where they are and how many. -/
def ExactReport (state : BuddyState layout) (bufferPhys : BitVec 64) (report : Report) : Prop :=
  report.pairs.Perm state.linkedBlocks ∧ WordsDecode bufferPhys report

theorem address_words_append (address : BitVec 64) :
    (((address &&& 0xffffffff00000000#64) >>> 32).setWidth 32 ++
      (address &&& 0x00000000ffffffff#64).setWidth 32 : BitVec 64) = address := by
  apply BitVec.eq_of_toNat_eq
  have bound := address.isLt
  have low : address.toNat &&& 0xffffffff = address.toNat % 2 ^ 32 :=
    Nat.and_two_pow_sub_one_eq_mod address.toNat 32
  have high : (address.toNat &&& 0xffffffff00000000) >>> 32 = address.toNat / 2 ^ 32 := by
    rw [Nat.shiftRight_and_distrib, show 0xffffffff00000000 >>> 32 = 2 ^ 32 - 1 by decide,
      Nat.and_two_pow_sub_one_eq_mod, Nat.shiftRight_eq_div_pow]
    omega
  simp only [BitVec.toNat_append, BitVec.toNat_setWidth, BitVec.toNat_ushiftRight,
    BitVec.toNat_and, BitVec.toNat_ofNat, Nat.reduceMod, Nat.reducePow]
  rw [low, high, ← Nat.shiftLeft_add_eq_or_of_lt (by omega), Nat.shiftLeft_eq]
  omega

theorem words_decode (bufferPhys : BitVec 64) (report : Report)
    (pairs : List (BitVec 64 × BitVec 64)) (filled : Filled report pairs)
    (fits : 2 * pairs.length ≤ migrationBufferWords) : WordsDecode bufferPhys report := by
  refine ⟨address_words_append bufferPhys, ?_⟩
  have bound : report.count / 2 < 2 ^ 32 := by
    have size : migrationBufferWords < 2 ^ 32 := by decide
    have count := filled.1
    omega
  have half : (reportWords bufferPhys report.count).half.toNat = report.count / 2 := by
    rw [reportWords, BitVec.toNat_ofNat, Nat.mod_eq_of_lt bound]
  rw [half, Report.pairs, List.length_map, List.length_range]

/-- A non-empty list is reported with its own head among the blocks. -/
theorem head_stored (state : BuddyState layout) (visit : Visit)
    (visited : visit ∈ visitedLists layout state.zones) (nonempty : state.blocks visit ≠ []) :
    (physAddr layout visit.head, BitVec.ofNat 64 visit.order) ∈ state.storedPairs := by
  have successors := successors_exact (state.links visit.zone) visit.head visit.head _
    (state.linked visit visited)
  have last : visit.head ∈ (state.blocks visit).map (state.links visit.zone) := by
    cases nodes : state.blocks visit with
    | nil => exact absurd nodes nonempty
    | cons node rest =>
        rw [nodes, List.map_cons, List.cons_append, List.cons.injEq] at successors
        rw [successors.2]
        simp
  rcases List.mem_map.mp last with ⟨block, member, same⟩
  refine List.mem_flatMap.mpr ⟨visit, visited, List.mem_map.mpr ⟨block, member, ?_⟩⟩
  rw [same]

theorem stored_perm_iff (state : BuddyState layout) :
    state.storedPairs.Perm state.linkedBlocks ↔
      ∀ visit ∈ visitedLists layout state.zones, state.blocks visit = [] := by
  constructor
  · intro same visit visited
    by_contra nonempty
    -- the head is among the stored pairs, and no linked block has its frame
    have described := same.mem_iff.mp (head_stored state visit visited nonempty)
    rcases List.mem_flatMap.mp described with ⟨other, visited', member⟩
    rcases List.mem_map.mp member with ⟨block, linkedBlock, equal⟩
    exact state.headOutside visit visited other visited' block linkedBlock
      (congrArg Prod.fst equal).symm
  · intro empty
    have stored : state.storedPairs = [] := by
      apply List.flatMap_eq_nil_iff.mpr
      intro visit visited
      rw [empty visit visited]
      rfl
    have linked : state.linkedBlocks = [] := by
      apply List.flatMap_eq_nil_iff.mpr
      intro visit visited
      rw [empty visit visited]
      rfl
    rw [stored, linked]

/-- The walk ends and, whatever the buffer held before, the report is exact if
and only if every free list of every zone with managed pages is empty. -/
theorem report_exact_iff (state : BuddyState layout) (bufferPhys : BitVec 64)
    (start : Nat → BitVec 64) (fuel : Nat)
    (fits : 2 * state.linkedBlocks.length ≤ migrationBufferWords)
    (enough : state.linkedBlocks.length < fuel) :
    ∃ report, writeGuestFreePages layout true state.links fuel state.zones ⟨start, 0⟩ =
        .ok report ∧
      (ExactReport state bufferPhys report ↔
        ∀ visit ∈ visitedLists layout state.zones, state.blocks visit = []) := by
  obtain ⟨report, walked, filled⟩ := report_stores_successors state fuel start fits enough
  refine ⟨report, walked, ?_⟩
  have decoded := words_decode bufferPhys report _ filled (by rwa [stored_length])
  rw [ExactReport, filled.2, stored_perm_iff, and_iff_left decoded]

/-- The nodes a list is reported by: its blocks but for the first one, and then,
if there is a first one, its head. -/
def BuddyState.shifted (state : BuddyState layout) (visit : Visit) : List Addr :=
  match state.blocks visit with
  | [] => []
  | _ :: rest => rest ++ [visit.head]

theorem successors_shifted (state : BuddyState layout) (visit : Visit)
    (visited : visit ∈ visitedLists layout state.zones) :
    (state.blocks visit).map (state.links visit.zone) = state.shifted visit := by
  have successors := successors_exact (state.links visit.zone) visit.head visit.head _
    (state.linked visit visited)
  unfold BuddyState.shifted
  cases nodes : state.blocks visit with
  | nil => rfl
  | cons node rest =>
      rw [nodes, List.map_cons, List.cons_append, List.cons.injEq] at successors
      exact successors.2

theorem stored_shifted (state : BuddyState layout) :
    state.storedPairs = (visitedLists layout state.zones).flatMap fun visit =>
      (state.shifted visit).map fun node =>
        (physAddr layout node, BitVec.ofNat 64 visit.order) := by
  apply List.flatMap_congr
  intro visit visited
  rw [← successors_shifted state visit visited, List.map_map]
  rfl

/-- On every memory the report has as many pairs as there are blocks, but each
list is reported without its first block and with its head, in order. -/
theorem report_shifts_lists (state : BuddyState layout) (fuel : Nat) (start : Nat → BitVec 64)
    (fits : 2 * state.linkedBlocks.length ≤ migrationBufferWords)
    (enough : state.linkedBlocks.length < fuel) :
    ∃ report, writeGuestFreePages layout true state.links fuel state.zones ⟨start, 0⟩ =
        .ok report ∧
      report.count = 2 * state.linkedBlocks.length ∧
      report.pairs = (visitedLists layout state.zones).flatMap fun visit =>
        (state.shifted visit).map fun node => (physAddr layout node, BitVec.ofNat 64 visit.order) := by
  obtain ⟨report, walked, count, pairs⟩ := report_stores_successors state fuel start fits enough
  exact ⟨report, walked, by rw [count, stored_length], pairs.trans (stored_shifted state)⟩

/-- Two populated zones with free lists of three, one and two blocks, and between
them a zone without pages. -/
def twoZoneLayout : Layout :=
  { maxOrder := 2
    migrateTypes := 2
    lruOffset := 8#64
    pageToPfn := fun page => page >>> 6 }

def zoneAt (addr : Addr) (presentPages : Nat) (lists : Addr) : Zone :=
  { addr
    presentPages
    managedPages := presentPages
    freeList := fun order j => lists + BitVec.ofNat 64 (0x100 * order + 0x10 * j) }

def twoZones : List Zone :=
  [zoneAt 0xf00#64 5 0x1000#64, zoneAt 0xe00#64 0 0x3000#64, zoneAt 0xd00#64 2 0x2000#64]

def twoZoneBlocks (head : Addr) : List Addr :=
  if head = 0x1000#64 then [0x200008#64, 0x200048#64, 0x200088#64]
  else if head = 0x1110#64 then [0x200108#64]
  else if head = 0x2010#64 then [0x300008#64, 0x300048#64]
  else []

def twoZoneNext (address : Addr) : Addr :=
  let links := [(0x1000#64, 0x200008#64), (0x200008#64, 0x200048#64), (0x200048#64, 0x200088#64),
    (0x200088#64, 0x1000#64), (0x1110#64, 0x200108#64), (0x200108#64, 0x1110#64),
    (0x2010#64, 0x300008#64), (0x300008#64, 0x300048#64), (0x300048#64, 0x2010#64)]
  (links.lookup address).getD address

def twoZoneState : BuddyState twoZoneLayout :=
  { zones := twoZones
    links := fun _ => twoZoneNext
    blocks := fun visit => twoZoneBlocks visit.head
    linked := by decide
    headOutside := by
      -- list heads lie below 128 MiB, blocks above
      have heads : ∀ visit ∈ visitedLists twoZoneLayout twoZones,
          physAddr twoZoneLayout visit.head >>> 27 = 0#64 := by decide
      have blocks : ∀ head, (twoZoneBlocks head).all
          (fun block => physAddr twoZoneLayout block >>> 27 = 1#64) = true := by
        intro head
        unfold twoZoneBlocks
        split_ifs <;> decide
      intro visit visited other _ block member same
      have above := List.all_eq_true.mp (blocks other.head) block member
      rw [← same, heads visit visited] at above
      exact absurd above (by decide) }

theorem two_zones_exact_iff :
    ∃ report, writeGuestFreePages twoZoneLayout true twoZoneState.links 7 twoZoneState.zones
        ⟨fun _ => 0#64, 0⟩ = .ok report ∧
      (ExactReport twoZoneState 0x7f000000#64 report ↔
        ∀ visit ∈ visitedLists twoZoneLayout twoZoneState.zones, twoZoneState.blocks visit = []) :=
  report_exact_iff twoZoneState 0x7f000000#64 (fun _ => 0#64) 7 (by decide) (by decide)

theorem two_zones_shifted :
    ∃ report, writeGuestFreePages twoZoneLayout true twoZoneState.links 7 twoZoneState.zones
        ⟨fun _ => 0#64, 0⟩ = .ok report ∧ report.count = 12 ∧
      report.pairs = [(0x8001000#64, 0#64), (0x8002000#64, 0#64), (0x3f000#64, 0#64),
        (0x44000#64, 1#64), (0xc001000#64, 0#64), (0x80000#64, 0#64)] := by
  obtain ⟨report, walked, count, pairs⟩ :=
    report_shifts_lists twoZoneState 7 (fun _ => 0#64) (by decide) (by decide)
  exact ⟨report, walked, count, pairs.trans (by decide)⟩

def oneBlockLayout : Layout :=
  { maxOrder := 11
    migrateTypes := 6
    lruOffset := 8#64
    pageToPfn := fun page => page >>> 6 }

def oneBlockNext (address : Addr) : Addr :=
  if address = 0x1000#64 then 0x200008#64
  else if address = 0x200008#64 then 0x1000#64
  else address

def oneBlockState : BuddyState oneBlockLayout :=
  { zones := [zoneAt 0xf00#64 1 0x1000#64]
    links := fun _ => oneBlockNext
    blocks := fun visit => if visit.head = 0x1000#64 then [0x200008#64] else []
    linked := by decide
    headOutside := by
      have heads : ∀ visit ∈ visitedLists oneBlockLayout [zoneAt 0xf00#64 1 0x1000#64],
          physAddr oneBlockLayout visit.head ≠ physAddr oneBlockLayout 0x200008#64 := by decide
      intro visit visited other _ block member
      split at member
      · rw [List.mem_singleton.mp member]
        exact heads visit visited
      · cases member }

/-- The block at 0x8000000 is free; the report names 0x3f000 instead, the frame
computed for the list head. -/
theorem one_block_misreported :
    ∃ report, writeGuestFreePages oneBlockLayout true oneBlockState.links 2 oneBlockState.zones
        ⟨fun _ => 0#64, 0⟩ = .ok report ∧
      report.pairs = [(0x3f000#64, 0#64)] ∧
      oneBlockState.linkedBlocks = [(0x8000000#64, 0#64)] ∧
      ¬ ExactReport oneBlockState 0x7f000000#64 report := by
  have expected : oneBlockState.linkedBlocks = [(0x8000000#64, 0#64)] := by decide
  refine ⟨_, rfl, by decide, expected, ?_⟩
  rintro ⟨same, -⟩
  rw [expected, List.perm_singleton] at same
  exact absurd same (by decide)

end Buddy
end EbpfInjection.FreePageReport
