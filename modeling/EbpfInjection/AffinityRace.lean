import EbpfInjection.AffinityLog
import EbpfInjection.TransitionSystem
import Mathlib.Data.List.Nodup
import Mathlib.Data.List.Perm.Basic

/-!
`bpf_prog1` on several CPUs. The lookup, the test of the counter, the atomic
addition, the second read of the counter and the map update are steps of their
own. The test and the addition, and the addition and the second read, are two
windows in which another invocation may add; the result is a full log that
goes on, or two invocations with one index.
-/

namespace EbpfInjection.AffinityRace
open AffinityLog TransitionSystem

inductive Position where
  | entered
  | found (top : Nat)
  | tested (top : Nat)
  | added (top : Nat)
  | reread (index : BitVec 32)
  | done (update : Option (BitVec 32))
  deriving DecidableEq

structure Invocation where
  mask : Mask
  position : Position
  deriving DecidableEq

structure State where
  values : Values
  invocations : List Invocation

def boot : State := ⟨zeroed, []⟩

def proceed (values : Values) (mask : Mask) : Position → Option (Values × Position)
  | .entered =>
      match mapLookup 0#32 with
      | none => some (values, .done none)
      | some top => some (values, .found top)
  | .found top =>
      if values top = BitVec.ofNat 64 (maxEntries - 1) then some (values, .done none)
      else some (values, .tested top)
  | .tested top => some (Function.update values top (values top + 1#64), .added top)
  | .added top => some (values, .reread ((values top).setWidth 32))
  | .reread index => some (mapUpdate values index mask, .done (some index))
  | .done _ => none

inductive Action where
  | enter (mask : Mask)
  | proceed (i : Nat)

def step (state : State) : Action → Option State
  | .enter mask => some { state with invocations := state.invocations ++ [⟨mask, .entered⟩] }
  | .proceed i =>
      state.invocations[i]?.bind fun invocation =>
        (proceed state.values invocation.mask invocation.position).map fun (values, position) =>
          { values, invocations := state.invocations.set i { invocation with position } }

def Position.isDone : Position → Bool
  | .done _ => true
  | _ => false

def Position.isAdded : Position → Bool
  | .added _ => true
  | _ => false

/-- The counter stays below the map's size, updates stay in the log, and when
all of at most `maxEntries - 1` invocations are done each has its slot. -/
structure LogIntact (state : State) : Prop where
  counter : (state.values 0).toNat ≤ maxEntries - 1
  updates : ∀ invocation ∈ state.invocations, ∀ index,
    invocation.position = .done (some index) → InLog index
  complete : (∀ invocation ∈ state.invocations, invocation.position.isDone = true) →
    state.invocations.length ≤ maxEntries - 1 →
      state.values 0 = BitVec.ofNat 64 state.invocations.length ∧
        ((List.range state.invocations.length).map fun i => state.values (i + 1)).Perm
          (state.invocations.map Invocation.mask)

def MayProceed (state : State) : Position → Prop
  | .tested _ => state.values 0 ≠ BitVec.ofNat 64 (maxEntries - 1) ∧
      ∀ other ∈ state.invocations, other.position.isAdded = false
  | _ => True

/-- An atomic addition is made only while the counter is not at its limit, and
while no other invocation has still to read its own addition. -/
def Undisturbed (state : State) : Action → Prop
  | .enter _ => True
  | .proceed i => ∀ invocation ∈ state.invocations[i]?, MayProceed state invocation.position

section Decidability

instance (state : State) : (position : Position) → Decidable (MayProceed state position)
  | .tested _ => inferInstanceAs (Decidable (_ ∧ _))
  | .entered | .found _ | .added _ | .reread _ | .done _ => isTrue trivial

instance (state : State) : (action : Action) → Decidable (Undisturbed state action)
  | .enter _ => isTrue trivial
  | .proceed i => inferInstanceAs
      (Decidable (∀ invocation ∈ state.invocations[i]?, MayProceed state invocation.position))

end Decidability

/-! An invocation with no step of another in between is `bpf_prog1`. -/
section Adequacy

theorem alone_exact (state : State) (i : Nat) (mask : Mask)
    (present : state.invocations[i]? = some ⟨mask, .entered⟩) :
    ∃ steps, run step state (List.replicate steps (.proceed i)) =
      some { values := (bpfProg1 mask state.values).1
             invocations := state.invocations.set i
               ⟨mask, .done (bpfProg1 mask state.values).2⟩ } := by
  rcases List.getElem?_eq_some_iff.mp present with ⟨inside, at_i⟩
  have top : mapLookup 0#32 = some 0 := rfl
  by_cases full : state.values 0 = BitVec.ofNat 64 (maxEntries - 1)
  · refine ⟨2, ?_⟩
    simp [run, List.replicate, step, proceed, inside, at_i, top, full, bpfProg1]
  · refine ⟨5, ?_⟩
    simp [run, List.replicate, step, proceed, inside, at_i, top, full, bpfProg1]

end Adequacy

/-! The invariant orders the invocations by their atomic additions: the place
in this order is the slot. -/

def Placed (values : Values) (count place : Nat) (invocation : Invocation) : Prop :=
  match invocation.position with
  | .added top => top = 0 ∧ place + 1 = count
  | .reread index => index.toNat = place + 1
  | .done (some index) => index.toNat = place + 1 ∧ values (place + 1) = invocation.mask
  | .entered | .found _ | .tested _ | .done none => False

def Waiting (count : Nat) : Position → Prop
  | .entered => True
  | .found top | .tested top => top = 0
  | .done none => count = maxEntries - 1
  | .added _ | .reread _ | .done (some _) => False

structure Ordered (state : State) (order : List Nat) : Prop where
  distinct : order.Nodup
  fits : order.length ≤ maxEntries - 1
  counter : state.values 0 = BitVec.ofNat 64 order.length
  placed : ∀ place i, order[place]? = some i → ∃ invocation,
    state.invocations[i]? = some invocation ∧
      Placed state.values order.length place invocation
  waiting : ∀ i invocation, state.invocations[i]? = some invocation → i ∉ order →
    Waiting order.length invocation.position

def advance (order : List Nat) (i : Nat) : Position → List Nat
  | .tested _ => order ++ [i]
  | .entered | .found _ | .added _ | .reread _ | .done _ => order

theorem boot_ordered : Ordered boot [] := by
  constructor
  · exact List.nodup_nil
  · exact Nat.zero_le _
  · rfl
  · intro place i present
    cases present
  · intro i invocation present
    cases present

section Steps
variable (state : State) (order : List Nat) (i : Nat) (new : Invocation)

theorem set_other (j : Nat) (other : j ≠ i) :
    (state.invocations.set i new)[j]? = state.invocations[j]? :=
  List.getElem?_set_ne (Ne.symm other)

theorem set_same (old : Invocation) (present : state.invocations[i]? = some old) :
    (state.invocations.set i new)[i]? = some new := by
  rcases List.getElem?_eq_some_iff.mp present with ⟨inside, -⟩
  rw [List.getElem?_set_self inside]

theorem wait_ordered (old : Invocation) (ordered : Ordered state order)
    (present : state.invocations[i]? = some old) (outside : i ∉ order)
    (waits : Waiting order.length new.position) :
    Ordered { state with invocations := state.invocations.set i new } order := by
  constructor
  · exact ordered.distinct
  · exact ordered.fits
  · exact ordered.counter
  · intro place j found
    have other : j ≠ i := by
      rintro rfl
      exact outside (List.mem_of_getElem? found)
    rw [set_other state i new j other]
    exact ordered.placed place j found
  · intro j invocation found absent
    by_cases same : j = i
    · subst same
      rw [set_same state j new old present] at found
      cases found
      exact waits
    · rw [set_other state i new j same] at found
      exact ordered.waiting j invocation found absent

theorem same_place (distinct : order.Nodup) (first second : Nat)
    (found : order[first]? = some i) (again : order[second]? = some i) : first = second := by
  rcases List.getElem?_eq_some_iff.mp found with ⟨inside, -⟩
  exact (List.getElem?_inj inside distinct).mp (found.trans again.symm)

theorem placed_frame (values later : Values) (count place : Nat) (invocation : Invocation)
    (same : later (place + 1) = values (place + 1))
    (placed : Placed values count place invocation) : Placed later count place invocation := by
  unfold Placed at placed ⊢
  cases at_position : invocation.position with
  | done update =>
      cases update with
      | none => simp only [at_position] at placed
      | some index =>
          simp only [at_position] at placed ⊢
          rw [same]
          exact placed
  | added | reread => simpa only [at_position] using placed
  | entered | found | tested => simp only [at_position] at placed

/-- An invocation in the order goes on at its place; only its own slot changes. -/
theorem place_ordered (values : Values) (place : Nat) (ordered : Ordered state order)
    (found : order[place]? = some i) (moved : Placed values order.length place new)
    (frame : ∀ slot, slot ≠ place + 1 → values slot = state.values slot) :
    Ordered { values, invocations := state.invocations.set i new } order := by
  rcases ordered.placed place i found with ⟨old, present, -⟩
  constructor
  · exact ordered.distinct
  · exact ordered.fits
  · exact (frame 0 (by omega)).trans ordered.counter
  · intro q j there
    by_cases same : q = place
    · subst same
      cases found.symm.trans there
      exact ⟨new, set_same state i new old present, moved⟩
    · have other : j ≠ i := by
        rintro rfl
        exact same (same_place order j ordered.distinct q place there found)
      rcases ordered.placed q j there with ⟨invocation, stays, placed⟩
      refine ⟨invocation, (set_other state i new j other).trans stays, ?_⟩
      exact placed_frame state.values values _ q invocation (frame (q + 1) (by omega)) placed
  · intro j invocation there absent
    have other : j ≠ i := by
      rintro rfl
      exact absent (List.mem_of_getElem? found)
    have stays := (set_other state i new j other).symm.trans there
    exact ordered.waiting j invocation stays absent

theorem placed_done (values : Values) (count place : Nat) (invocation : Invocation)
    (ended : invocation.position.isDone = true)
    (placed : Placed values count place invocation) : values (place + 1) = invocation.mask := by
  unfold Placed at placed
  cases at_position : invocation.position with
  | done update =>
      cases update with
      | none => simp only [at_position] at placed
      | some index =>
          simp only [at_position] at placed
          exact placed.2
  | entered | found | tested | added | reread => simp [at_position, Position.isDone] at ended

theorem placed_count (values : Values) (count later place : Nat) (invocation : Invocation)
    (read : invocation.position.isAdded = false)
    (placed : Placed values count place invocation) : Placed values later place invocation := by
  unfold Placed at placed ⊢
  cases at_position : invocation.position with
  | added => simp [at_position, Position.isAdded] at read
  | reread => simpa only [at_position] using placed
  | done update =>
      cases update with
      | none => simp only [at_position] at placed
      | some index => simpa only [at_position] using placed
  | entered | found | tested => simp only [at_position] at placed

/-- Only a full log has ended an invocation without an addition. -/
theorem waiting_count (count later : Nat) (position : Position) (room : count < maxEntries - 1)
    (waits : Waiting count position) : Waiting later position := by
  cases position with
  | entered => trivial
  | found | tested => exact waits
  | done update =>
      cases update with
      | none => exact absurd waits (Nat.ne_of_lt room)
      | some index => exact waits
  | added | reread => exact waits

/-- An invocation that adds while the counter is below its limit, and no other
one has still to read its addition, becomes the last in the order. -/
theorem add_ordered (old : Invocation) (ordered : Ordered state order)
    (present : state.invocations[i]? = some old) (outside : i ∉ order)
    (room : order.length < maxEntries - 1)
    (alone : ∀ other ∈ state.invocations, other.position.isAdded = false)
    (adds : new.position = .added 0) :
    Ordered
      { values := Function.update state.values 0 (state.values 0 + 1#64)
        invocations := state.invocations.set i new } (order ++ [i]) := by
  have length : (order ++ [i]).length = order.length + 1 := by
    rw [List.length_append, List.length_singleton]
  constructor
  · refine List.nodup_append.mpr ⟨ordered.distinct, List.nodup_singleton i, ?_⟩
    intro j member k last same
    rw [List.mem_singleton.mp last] at same
    exact outside (same ▸ member)
  · rw [length]
    exact room
  · have counted : state.values 0 + 1#64 = BitVec.ofNat 64 (order.length + 1) := by
      rw [ordered.counter, BitVec.ofNat_add]
    rw [length, ← counted]
    exact Function.update_self 0 _ state.values
  · intro q j there
    by_cases earlier : q < order.length
    · rw [List.getElem?_append_left earlier] at there
      have other : j ≠ i := by
        rintro rfl
        exact outside (List.mem_of_getElem? there)
      rcases ordered.placed q j there with ⟨invocation, stays, placed⟩
      refine ⟨invocation, (set_other state i new j other).trans stays, ?_⟩
      -- the addition writes slot 0, and whoever has a place has read his own already
      have slot : Function.update state.values 0 (state.values 0 + 1#64) (q + 1) =
          state.values (q + 1) := Function.update_of_ne (Nat.succ_ne_zero q) _ _
      apply placed_count _ order.length
      · exact alone invocation (List.mem_of_getElem? stays)
      · exact placed_frame state.values _ _ q invocation slot placed
    · rw [List.getElem?_append_right (Nat.le_of_not_lt earlier), List.getElem?_singleton] at there
      split at there
      · cases there
        refine ⟨new, set_same state i new old present, ?_⟩
        unfold Placed
        simp only [adds, length]
        exact ⟨trivial, by omega⟩
      · cases there
  · intro j invocation there absent
    simp only [List.mem_append, List.mem_singleton, not_or] at absent
    have stays := (set_other state i new j absent.2).symm.trans there
    exact waiting_count _ _ _ room (ordered.waiting j invocation stays absent.1)

theorem enter_ordered (mask : Mask) (ordered : Ordered state order) :
    Ordered { state with invocations := state.invocations ++ [⟨mask, .entered⟩] } order := by
  constructor
  · exact ordered.distinct
  · exact ordered.fits
  · exact ordered.counter
  · intro place j found
    rcases ordered.placed place j found with ⟨invocation, stays, placed⟩
    rcases List.getElem?_eq_some_iff.mp stays with ⟨inside, -⟩
    exact ⟨invocation, (List.getElem?_append_left inside).trans stays, placed⟩
  · intro j invocation there absent
    by_cases inside : j < state.invocations.length
    · rw [List.getElem?_append_left inside] at there
      exact ordered.waiting j invocation there absent
    · rw [List.getElem?_append_right (Nat.le_of_not_lt inside), List.getElem?_singleton] at there
      split at there
      · cases there
        trivial
      · cases there

theorem place_of (old : Invocation) (ordered : Ordered state order)
    (present : state.invocations[i]? = some old)
    (adding : ¬ Waiting order.length old.position) :
    ∃ place, place < order.length ∧ order[place]? = some i ∧
      Placed state.values order.length place old := by
  have member : i ∈ order := by
    by_contra outside
    exact adding (ordered.waiting i old present outside)
  rcases List.mem_iff_getElem?.mp member with ⟨place, found⟩
  rcases ordered.placed place i found with ⟨invocation, stays, placed⟩
  cases present.symm.trans stays
  exact ⟨place, (List.getElem?_eq_some_iff.mp found).1, found, placed⟩

theorem not_placed (old : Invocation) (ordered : Ordered state order)
    (present : state.invocations[i]? = some old)
    (waits : ∀ count place, ¬ Placed state.values count place old) : i ∉ order := by
  intro member
  rcases List.mem_iff_getElem?.mp member with ⟨place, found⟩
  rcases ordered.placed place i found with ⟨invocation, stays, placed⟩
  cases present.symm.trans stays
  exact waits _ _ placed

theorem counter_full_iff (ordered : Ordered state order) :
    state.values 0 = BitVec.ofNat 64 (maxEntries - 1) ↔ order.length = maxEntries - 1 := by
  rw [ordered.counter]
  exact count_full_iff order.length ordered.fits

/-- One step of an invocation keeps the others ordered, and an addition is the
last one. -/
theorem proceed_exact (old : Invocation) (values : Values) (position : Position)
    (ordered : Ordered state order) (present : state.invocations[i]? = some old)
    (may : MayProceed state old.position)
    (taken : proceed state.values old.mask old.position = some (values, position)) :
    Ordered { values, invocations := state.invocations.set i { old with position } }
      (advance order i old.position) := by
  rcases old with ⟨mask, at_position⟩
  cases at_position with
  | entered =>
      cases taken
      have outside := not_placed state order i _ ordered present fun _ _ placed => placed
      exact wait_ordered state order i _ _ ordered present outside rfl
  | found top =>
      have outside := not_placed state order i _ ordered present fun _ _ placed => placed
      -- the pointer is to the counter: the test compares what the invariant counts
      have first : top = 0 := ordered.waiting i _ present outside
      subst first
      simp only [proceed] at taken
      split at taken
      · rename_i full
        cases taken
        have all := (counter_full_iff state order ordered).mp full
        exact wait_ordered state order i _ _ ordered present outside all
      · cases taken
        exact wait_ordered state order i _ _ ordered present outside rfl
  | tested top =>
      have outside := not_placed state order i _ ordered present fun _ _ placed => placed
      have first : top = 0 := ordered.waiting i _ present outside
      subst first
      cases taken
      rcases may with ⟨notFull, alone⟩
      -- no place is still to be read, so the next one goes to this invocation
      have room : order.length < maxEntries - 1 :=
        Nat.lt_of_le_of_ne ordered.fits (mt (counter_full_iff state order ordered).mpr notFull)
      exact add_ordered state order i _ _ ordered present outside room alone rfl
  | added top =>
      rcases place_of state order i _ ordered present id with ⟨place, inside, found, first, last⟩
      cases taken
      subst first
      -- it is the last to have added, so the counter is still its own place
      have index : (BitVec.setWidth 32 (state.values 0)).toNat = place + 1 := by
        have fits := ordered.fits
        unfold maxEntries at fits
        simp only [ordered.counter, BitVec.toNat_setWidth, BitVec.toNat_ofNat]
        omega
      exact place_ordered state order i _ _ place ordered found index fun _ _ => rfl
  | reread index =>
      rcases place_of state order i _ ordered present id with ⟨place, inside, found, slot⟩
      cases taken
      have fits := ordered.fits
      have within : place + 1 < maxEntries := by omega
      have slot : index.toNat = place + 1 := slot
      simp only [mapUpdate, slot, within, if_true]
      refine place_ordered state order i _ _ place ordered found ?_ ?_
      · exact ⟨slot, Function.update_self ..⟩
      · intro other different
        exact Function.update_of_ne different _ _
  | done update => cases taken

theorem proceed_ordered (old : Invocation) (values : Values) (position : Position)
    (ordered : Ordered state order) (present : state.invocations[i]? = some old)
    (may : MayProceed state old.position)
    (taken : proceed state.values old.mask old.position = some (values, position)) :
    ∃ later, Ordered
      { values, invocations := state.invocations.set i { old with position } } later :=
  ⟨_, proceed_exact state order i old values position ordered present may taken⟩

end Steps

theorem step_ordered (state next : State) (action : Action) (order : List Nat)
    (ordered : Ordered state order) (undisturbed : Undisturbed state action)
    (taken : step state action = some next) : ∃ later, Ordered next later := by
  cases action with
  | enter mask =>
      cases taken
      exact ⟨order, enter_ordered state order mask ordered⟩
  | proceed i =>
      rcases Option.bind_eq_some_iff.mp taken with ⟨old, present, moved⟩
      rcases Option.map_eq_some_iff.mp moved with ⟨⟨values, position⟩, proceeded, rfl⟩
      exact proceed_ordered state order i old values position ordered present
        (undisturbed old present) proceeded

theorem run_ordered (history : List Action) (state : State)
    (undisturbed : Along step Undisturbed boot history)
    (replay : run step boot history = some state) : ∃ order, Ordered state order :=
  guarded_invariant step (fun state => ∃ order, Ordered state order) Undisturbed
    (fun before action after ⟨order, ordered⟩ meets taken =>
      step_ordered before after action order ordered meets taken)
    ⟨[], boot_ordered⟩ undisturbed replay

section Outcome
variable (state : State) (order : List Nat)

theorem order_complete (ordered : Ordered state order)
    (all : ∀ invocation ∈ state.invocations, invocation.position.isDone = true)
    (few : state.invocations.length ≤ maxEntries - 1) :
    order.Perm (List.range state.invocations.length) := by
  have inside : ∀ i ∈ order, i < state.invocations.length := by
    intro i member
    rcases List.mem_iff_getElem?.mp member with ⟨place, found⟩
    rcases ordered.placed place i found with ⟨invocation, present, -⟩
    exact (List.getElem?_eq_some_iff.mp present).1
  have covered : ∀ i, i < state.invocations.length → i ∈ order := by
    intro i present
    by_contra outside
    have found := List.getElem?_eq_getElem present
    have waits := ordered.waiting i _ found outside
    have ended := all _ (List.getElem_mem present)
    -- the invocation found the log full, so as many as it holds are in the order besides it
    have full : order.length = maxEntries - 1 := by
      cases at_position : state.invocations[i].position with
      | done update =>
          rw [at_position] at waits
          cases update with
          | none => exact waits
          | some index => exact waits.elim
      | entered | found | tested | added | reread =>
          simp [at_position, Position.isDone] at ended
    have more : (i :: order).Subperm (List.range state.invocations.length) := by
      apply List.subperm_of_subset (List.nodup_cons.mpr ⟨outside, ordered.distinct⟩)
      intro j member
      rcases List.mem_cons.mp member with rfl | later
      · exact List.mem_range.mpr present
      · exact List.mem_range.mpr (inside j later)
    have bound := more.length_le
    rw [List.length_cons, List.length_range] at bound
    omega
  refine (List.perm_ext_iff_of_nodup ordered.distinct List.nodup_range).mpr fun i => ?_
  rw [List.mem_range]
  exact ⟨inside i, covered i⟩

theorem slots_in_order (ordered : Ordered state order)
    (all : ∀ invocation ∈ state.invocations, invocation.position.isDone = true) :
    (List.range order.length).map (fun i => some (state.values (i + 1))) =
      order.map fun i => (state.invocations[i]?).map Invocation.mask := by
  apply List.ext_getElem
  · simp
  · intro place inside _
    rw [List.length_map, List.length_range] at inside
    have found := List.getElem?_eq_getElem inside
    rcases ordered.placed place _ found with ⟨invocation, present, placed⟩
    have ended := all invocation (List.mem_of_getElem? present)
    simp only [List.getElem_map, List.getElem_range, present, Option.map_some]
    rw [placed_done state.values order.length place invocation ended placed]

theorem ordered_intact (ordered : Ordered state order) : LogIntact state := by
  have fits := ordered.fits
  constructor
  · rw [ordered.counter, BitVec.toNat_ofNat]
    exact Nat.le_trans (Nat.mod_le _ _) fits
  · intro invocation member index at_position
    rcases List.mem_iff_getElem?.mp member with ⟨i, present⟩
    have adding : ¬ Waiting order.length invocation.position := by
      rw [at_position]
      exact id
    rcases place_of state order i invocation ordered present adding with
      ⟨place, inside, -, placed⟩
    -- the index of an update is the place plus one, and places are below the limit
    unfold Placed at placed
    simp only [at_position] at placed
    unfold InLog
    omega
  · intro all few
    have perm := order_complete state order ordered all few
    have length : order.length = state.invocations.length := by
      rw [perm.length_eq, List.length_range]
    refine ⟨by rw [ordered.counter, length], ?_⟩
    have slots := slots_in_order state order ordered all
    rw [length] at slots
    have masks : (List.range state.invocations.length).map
        (fun i => (state.invocations[i]?).map Invocation.mask) =
          (state.invocations.map Invocation.mask).map some := by
      apply List.ext_getElem
      · simp
      · intro i inside _
        simp only [List.length_map, List.length_range] at inside
        simp [List.getElem?_eq_getElem inside]
    have same : ((List.range state.invocations.length).map
        (fun i => some (state.values (i + 1)))).Perm
          ((state.invocations.map Invocation.mask).map some) := by
      rw [slots, ← masks]
      exact perm.map _
    apply (List.map_perm_map_iff fun _ _ => Option.some.inj).mp
    rw [List.map_map]
    exact same

end Outcome

/-- For every number of invocations and every interleaving of their steps: if
each atomic addition is made below the limit and no other invocation has still
to read its own, the log is intact in every state reached. -/
theorem undisturbed_log_intact (history : List Action) (state : State)
    (undisturbed : Along step Undisturbed boot history)
    (replay : run step boot history = some state) : LogIntact state := by
  rcases run_ordered history state undisturbed replay with ⟨order, ordered⟩
  exact ordered_intact state order ordered

def orderlyHistory : List Action :=
  [.enter 1#64, .enter 2#64, .proceed 0, .proceed 0, .proceed 1, .proceed 1, .proceed 1, .proceed 1,
    .proceed 0, .proceed 0, .proceed 0, .proceed 1]

theorem orderly_log_intact :
    ∃ state, run step boot orderlyHistory = some state ∧ state.invocations.length = 2 ∧
      LogIntact state := by
  have reached : (run step boot orderlyHistory).any (fun state =>
      state.invocations.length = 2) = true := by decide
  rcases (Option.any_eq_true _ _).mp reached with ⟨state, replay, two⟩
  exact ⟨state, replay, of_decide_eq_true two,
    undisturbed_log_intact orderlyHistory state (by decide) replay⟩

def overlappingHistory : List Action :=
  [.enter 1#64, .enter 2#64, .proceed 0, .proceed 0, .proceed 0, .proceed 1, .proceed 1, .proceed 1,
    .proceed 0, .proceed 0, .proceed 1, .proceed 1]

theorem overlapping_log_broken :
    ∃ state, run step boot overlappingHistory = some state ∧ ¬ LogIntact state := by
  refine ⟨_, rfl, ?_⟩
  intro intact
  have lost := (intact.complete (by decide) (by decide)).2
  exact absurd lost (by decide)

end EbpfInjection.AffinityRace
