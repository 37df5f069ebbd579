import EbpfInjection.AffinityRace
import EbpfInjection.Refinement

/-!
Concurrent invocations of `bpf_prog1` as one log. An invocation takes effect at
one of its own steps: the atomic addition, or the test that finds the log full.
In an undisturbed run the map is that of the program run on the same masks one
after another, in the order of these steps, for any number of invocations.
-/

namespace EbpfInjection.AffinityLinearization
open AffinityLog AffinityRace TransitionSystem Refinement

structure Recorder where
  log : BoundedLog (maxEntries - 1)
  served : List Nat

def Recorder.start : Recorder := ⟨BoundedLog.empty, []⟩

def Recorder.record (recorder : Recorder) (entry : Nat × Mask) : Option Recorder :=
  if entry.1 ∈ recorder.served then none
  else some ⟨recorder.log.record entry.2, recorder.served ++ [entry.1]⟩

section Recording
variable (recorder later : Recorder) (entries : List (Nat × Mask))

theorem run_record (recorded : run Recorder.record recorder entries = some later) :
    later.log = (entries.map Prod.snd).foldl BoundedLog.record recorder.log ∧
      later.served = recorder.served ++ entries.map Prod.fst := by
  induction entries generalizing recorder with
  | nil =>
      cases recorded
      simp
  | cons entry rest ih =>
      obtain ⟨next, taken, tail⟩ := (run_cons_iff Recorder.record _ _ entry rest).mp recorded
      unfold Recorder.record at taken
      split at taken
      · cases taken
      · cases taken
        obtain ⟨log, served⟩ := ih _ tail
        exact ⟨log, by simp [served]⟩

theorem run_record_distinct (distinct : recorder.served.Nodup)
    (recorded : run Recorder.record recorder entries = some later) : later.served.Nodup := by
  refine run_invariant Recorder.record (fun recorder => recorder.served.Nodup) ?_ distinct recorded
  intro before entry after distinct taken
  unfold Recorder.record at taken
  split at taken
  · cases taken
  · rename_i absent
    cases taken
    refine List.nodup_append.mpr ⟨distinct, List.nodup_singleton _, ?_⟩
    rintro i member j last rfl
    rw [List.mem_singleton.mp last] at member
    exact absent member

end Recording

def settled : Position → Bool
  | .added _ | .reread _ | .done _ => true
  | .entered | .found _ | .tested _ => false

def effect (state : State) : Action → List (Nat × Mask)
  | .enter _ => []
  | .proceed i =>
      match state.invocations[i]? with
      | none => []
      | some invocation =>
          match invocation.position with
          | .tested _ => [(i, invocation.mask)]
          | .found top =>
              if state.values top = BitVec.ofNat 64 (maxEntries - 1) then [(i, invocation.mask)]
              else []
          | .entered | .added _ | .reread _ | .done _ => []

/-- The invocations that have added, as the recorder has served them: those that
found the log full come after the ones that filled it. -/
def added (recorder : Recorder) : List Nat := recorder.served.take (maxEntries - 1)

def masksOf (state : State) (order : List Nat) : List (Option Mask) :=
  order.map fun i => state.invocations[i]?.map Invocation.mask

structure Logged (state : State) (recorder : Recorder) : Prop where
  ordered : Ordered state (added recorder)
  entries : recorder.log.entries.map some = masksOf state (added recorder)
  beyond : ∀ slot, (added recorder).length < slot → state.values slot = 0#64
  served : ∀ i invocation, state.invocations[i]? = some invocation →
    (i ∈ recorder.served ↔ settled invocation.position = true)
  inside : ∀ i ∈ recorder.served, i < state.invocations.length

section Steps
variable (state : State) (recorder : Recorder) (i : Nat) (old : Invocation)

theorem added_served (member : i ∈ added recorder) : i ∈ recorder.served :=
  List.mem_of_mem_take member

theorem proceed_beyond (order : List Nat) (values : Values) (position : Position)
    (ordered : Ordered state order) (present : state.invocations[i]? = some old)
    (taken : proceed state.values old.mask old.position = some (values, position)) (slot : Nat)
    (behind : order.length < slot) : values slot = state.values slot := by
  have notCounter : slot ≠ 0 := by omega
  rcases old with ⟨mask, at_position⟩
  cases at_position with
  | entered | added =>
      cases taken
      rfl
  | found top =>
      simp only [proceed] at taken
      split at taken <;> cases taken <;> rfl
  | tested top =>
      have outside := not_placed state order i _ ordered present fun _ _ placed => placed
      have first : top = 0 := ordered.waiting i _ present outside
      subst first
      cases taken
      exact Function.update_of_ne notCounter _ _
  | reread index =>
      rcases place_of state order i _ ordered present id with ⟨place, inside, found, at_slot⟩
      cases taken
      have at_slot : index.toNat = place + 1 := at_slot
      unfold mapUpdate
      split
      · exact Function.update_of_ne (by omega) _ _
      · rfl
  | done update => cases taken

theorem masks_set (position : Position) (values : Values) (order : List Nat)
    (present : state.invocations[i]? = some old) :
    masksOf { values, invocations := state.invocations.set i { old with position } } order =
      masksOf state order := by
  apply List.map_congr_left
  intro j member
  by_cases same : j = i
  · subst same
    rw [set_same state j _ old present, present]
    rfl
  · rw [set_other state i _ j same]

theorem served_set (served : List Nat) (position : Position)
    (present : state.invocations[i]? = some old)
    (others : ∀ j invocation, j ≠ i → state.invocations[j]? = some invocation →
      (j ∈ served ↔ settled invocation.position = true))
    (own : i ∈ served ↔ settled position = true) (j : Nat) (invocation : Invocation)
    (found : (state.invocations.set i { old with position })[j]? = some invocation) :
    j ∈ served ↔ settled invocation.position = true := by
  by_cases same : j = i
  · subst same
    rw [set_same state j _ old present] at found
    cases found
    exact own
  · rw [set_other state i _ j same] at found
    exact others j invocation same found

theorem quiet_logged (values : Values) (position : Position) (logged : Logged state recorder)
    (present : state.invocations[i]? = some old)
    (taken : proceed state.values old.mask old.position = some (values, position))
    (ordered : Ordered { values, invocations := state.invocations.set i { old with position } }
      (added recorder))
    (same : settled position = settled old.position) :
    Logged { values, invocations := state.invocations.set i { old with position } } recorder := by
  constructor
  · exact ordered
  · rw [masks_set state i old position values _ present]
    exact logged.entries
  · intro slot behind
    have same := proceed_beyond state i old _ values position logged.ordered present taken slot behind
    exact same.trans (logged.beyond slot behind)
  · apply served_set state i old recorder.served position present
    · intro j invocation _ found
      exact logged.served j invocation found
    · rw [logged.served i old present, same]
  · intro j member
    rw [List.length_set]
    exact logged.inside j member

theorem entries_length (logged : Logged state recorder) :
    recorder.log.entries.length = (added recorder).length := by
  have same := congrArg List.length logged.entries
  simpa [masksOf] using same

def Recorder.next (mask : Mask) : Recorder :=
  ⟨recorder.log.record mask, recorder.served ++ [i]⟩

theorem added_room (mask : Mask) (room : (added recorder).length < maxEntries - 1) :
    added (Recorder.next recorder i mask) = added recorder ++ [i] := by
  unfold added at room ⊢
  rw [List.length_take] at room
  rw [Recorder.next, List.take_of_length_le (by simp; omega), List.take_of_length_le (by omega)]

theorem added_full (mask : Mask) (full : (added recorder).length = maxEntries - 1) :
    added (Recorder.next recorder i mask) = added recorder := by
  unfold added at full ⊢
  rw [List.length_take] at full
  exact List.take_append_of_le_length (by omega)

theorem recorded_entries (mask : Mask) (logged : Logged state recorder)
    (present : state.invocations[i]?.map Invocation.mask = some mask) :
    (Recorder.next recorder i mask).log.entries.map some =
      masksOf state (added (Recorder.next recorder i mask)) := by
  have length := entries_length state recorder logged
  rw [Recorder.next, BoundedLog.record_entries]
  by_cases room : (added recorder).length < maxEntries - 1
  · rw [← Recorder.next, added_room recorder i mask room, List.take_of_length_le (by simp; omega),
      List.map_append, logged.entries, masksOf, masksOf, List.map_append, List.map_singleton,
      List.map_singleton, present]
  · have full := Nat.le_antisymm logged.ordered.fits (Nat.le_of_not_lt room)
    rw [← Recorder.next, added_full recorder i mask full,
      List.take_append_of_le_length (by omega), List.take_of_length_le (by omega), logged.entries]

/-- A step with an effect records the mask of its invocation. -/
theorem settle_logged (values : Values) (position : Position) (logged : Logged state recorder)
    (present : state.invocations[i]? = some old)
    (taken : proceed state.values old.mask old.position = some (values, position))
    (ordered : Ordered { values, invocations := state.invocations.set i { old with position } }
      (added (Recorder.next recorder i old.mask)))
    (longer : (added recorder).length ≤ (added (Recorder.next recorder i old.mask)).length)
    (settles : settled position = true) :
    Logged { values, invocations := state.invocations.set i { old with position } }
      (Recorder.next recorder i old.mask) := by
  constructor
  · exact ordered
  · rw [masks_set state i old position values _ present]
    exact recorded_entries state recorder i old.mask logged (by simp [present])
  · intro slot behind
    have past : (added recorder).length < slot := by omega
    have same := proceed_beyond state i old _ values position logged.ordered present taken slot past
    exact same.trans (logged.beyond slot past)
  · apply served_set state i old _ position present
    · intro j invocation other found
      simp [Recorder.next, other, logged.served j invocation found]
    · simp [Recorder.next, settles]
  · intro j member
    rw [List.length_set]
    rcases List.mem_append.mp member with earlier | last
    · exact logged.inside j earlier
    · rw [List.mem_singleton.mp last]
      exact (List.getElem?_eq_some_iff.mp present).1

theorem boot_logged : Logged boot Recorder.start where
  ordered := boot_ordered
  entries := rfl
  beyond := fun _ _ => rfl
  served := fun _ _ present => by cases present
  inside := fun _ member => by cases member

theorem enter_logged (mask : Mask) (logged : Logged state recorder) :
    Logged { state with invocations := state.invocations ++ [⟨mask, .entered⟩] } recorder := by
  have inside : ∀ j ∈ recorder.served,
      (state.invocations ++ [⟨mask, .entered⟩])[j]? = state.invocations[j]? :=
    fun j member => List.getElem?_append_left (logged.inside j member)
  constructor
  · exact enter_ordered state (added recorder) mask logged.ordered
  · rw [logged.entries]
    apply List.map_congr_left
    intro j member
    rw [inside j (added_served recorder j member)]
  · exact logged.beyond
  · intro j invocation found
    by_cases earlier : j < state.invocations.length
    · rw [List.getElem?_append_left earlier] at found
      exact logged.served j invocation found
    · rw [List.getElem?_append_right (Nat.le_of_not_lt earlier), List.getElem?_singleton] at found
      split at found
      · cases found
        exact iff_of_false (fun member => earlier (logged.inside j member)) nofun
      · cases found
  · intro j member
    rw [List.length_append]
    exact Nat.lt_add_right _ (logged.inside j member)

/-- What an invocation does is recorded at the step at which it takes effect. -/
theorem proceed_logged (values : Values) (position : Position) (logged : Logged state recorder)
    (present : state.invocations[i]? = some old) (may : MayProceed state old.position)
    (taken : proceed state.values old.mask old.position = some (values, position)) :
    ∃ later, run Recorder.record recorder (effect state (.proceed i)) = some later ∧
      Logged { values, invocations := state.invocations.set i { old with position } } later := by
  have ordered := proceed_exact state (added recorder) i old values position logged.ordered present
    may taken
  have quiet := quiet_logged state recorder i old values position logged present taken
  have settle := settle_logged state recorder i old values position logged present taken
  have waiting : settled old.position = false → i ∉ recorder.served := by
    intro unsettled member
    rw [logged.served i old present, unsettled] at member
    cases member
  simp only [effect, present]
  cases at_position : old.position with
  | entered =>
      rw [at_position] at taken ordered quiet
      cases taken
      exact ⟨recorder, rfl, quiet ordered rfl⟩
  | found top =>
      rw [at_position] at taken ordered quiet waiting
      have outside := mt (added_served recorder i) (waiting rfl)
      have counter : top = 0 := by
        have waits := logged.ordered.waiting i old present outside
        rwa [at_position] at waits
      subst counter
      simp only [proceed] at taken
      split at taken
      · -- the log is full, so recording changes nothing
        rename_i full
        cases taken
        have all := (counter_full_iff state (added recorder) logged.ordered).mp full
        have same := added_full recorder i old.mask all
        refine ⟨Recorder.next recorder i old.mask, ?_, settle (by rwa [same]) (by rw [same]) rfl⟩
        simp [run, full, Recorder.record, waiting rfl, Recorder.next]
      · rename_i room
        cases taken
        refine ⟨recorder, ?_, quiet ordered rfl⟩
        simp [room]
  | tested top =>
      rw [at_position] at taken ordered waiting may
      have room : (added recorder).length < maxEntries - 1 :=
        Nat.lt_of_le_of_ne logged.ordered.fits
          (mt (counter_full_iff state (added recorder) logged.ordered).mpr may.1)
      have more := added_room recorder i old.mask room
      cases taken
      refine ⟨Recorder.next recorder i old.mask, ?_, settle (by rwa [more]) (by simp [more]) rfl⟩
      simp [run, Recorder.record, waiting rfl, Recorder.next]
  | added top =>
      rw [at_position] at taken ordered quiet
      cases taken
      exact ⟨recorder, rfl, quiet ordered rfl⟩
  | reread index =>
      rw [at_position] at taken ordered quiet
      cases taken
      exact ⟨recorder, rfl, quiet ordered rfl⟩
  | done update =>
      rw [at_position] at taken
      cases taken

end Steps

/-- Undisturbed invocations simulate a log that records a whole entry at once. -/
def atomicLog : Simulation step Undisturbed Recorder.record where
  effect := effect
  related := Logged
  matched := by
    intro state action next recorder logged undisturbed taken
    cases action with
    | enter mask =>
        cases taken
        exact ⟨recorder, rfl, enter_logged state recorder mask logged⟩
    | proceed i =>
        rcases Option.bind_eq_some_iff.mp taken with ⟨old, present, moved⟩
        rcases Option.map_eq_some_iff.mp moved with ⟨⟨values, position⟩, proceeded, rfl⟩
        exact proceed_logged state recorder i old values position logged present
          (undisturbed old present) proceeded

def effects (history : List Action) : List (Nat × Mask) := eventsOf step effect boot history

def AllDone (state : State) : Prop :=
  ∀ invocation ∈ state.invocations, invocation.position.isDone = true

section Outcome
variable (history : List Action) (state : State)

theorem run_logged (undisturbed : Along step Undisturbed boot history)
    (replay : run step boot history = some state) :
    ∃ recorder, Logged state recorder ∧
      recorder.log = ((effects history).map Prod.snd).foldl BoundedLog.record BoundedLog.empty ∧
      recorder.served = (effects history).map Prod.fst ∧ recorder.served.Nodup := by
  have start : atomicLog.related boot Recorder.start := boot_logged
  obtain ⟨recorder, recorded, logged⟩ := atomicLog.run_matched start undisturbed replay
  obtain ⟨log, served⟩ := run_record Recorder.start recorder _ recorded
  exact ⟨recorder, logged, log, served.trans (List.nil_append _),
    run_record_distinct Recorder.start recorder _ List.nodup_nil recorded⟩

/-- Once all invocations are done the map shows the log. -/
theorem done_shows (recorder : Recorder) (logged : Logged state recorder) (all : AllDone state) :
    Shows state.values recorder.log := by
  have length := entries_length state recorder logged
  constructor
  · rw [logged.ordered.counter, length]
  · intro slot
    by_cases entry : slot < recorder.log.entries.length
    · have slots := slots_in_order state (added recorder) logged.ordered all
      rw [← masksOf, ← logged.entries] at slots
      have at_slot := congrArg (fun values => values[slot]?) slots
      rw [List.getElem?_map, List.getElem?_map, List.getElem?_range (by omega),
        List.getElem?_eq_getElem entry] at at_slot
      rw [List.getElem?_eq_getElem entry]
      exact Option.some.inj (Option.some.inj at_slot)
    · rw [List.getElem?_eq_none (by omega)]
      exact logged.beyond (slot + 1) (by omega)

theorem shows_unique (values others : Values) (log : BoundedLog (maxEntries - 1))
    (shown : Shows values log) (again : Shows others log) : values = others := by
  funext slot
  cases slot with
  | zero => rw [shown.count, again.count]
  | succ slot => rw [shown.slots, again.slots]

theorem done_settled (position : Position) (ended : position.isDone = true) :
    settled position = true := by
  cases position with
  | done update => rfl
  | entered | found | tested | added | reread => cases ended

theorem effect_own (before : State) (action : Action) (entry : Nat × Mask)
    (member : entry ∈ effect before action) :
    before.invocations[entry.1]?.map Invocation.mask = some entry.2 := by
  cases action with
  | enter mask => cases member
  | proceed i =>
      simp only [effect] at member
      cases present : before.invocations[i]? with
      | none => simp [present] at member
      | some invocation =>
          simp only [present] at member
          cases at_position : invocation.position with
          | found top =>
              simp only [at_position] at member
              split at member
              · rw [List.mem_singleton.mp member, present]
                rfl
              · cases member
          | tested top =>
              simp only [at_position] at member
              rw [List.mem_singleton.mp member, present]
              rfl
          | entered | added | reread | done => simp [at_position] at member

theorem step_masks (before after : State) (action : Action) (i : Nat) (mask : Mask)
    (own : before.invocations[i]?.map Invocation.mask = some mask)
    (taken : step before action = some after) :
    after.invocations[i]?.map Invocation.mask = some mask := by
  obtain ⟨invocation, present, same⟩ := Option.map_eq_some_iff.mp own
  have inside := (List.getElem?_eq_some_iff.mp present).1
  cases action with
  | enter entering =>
      cases taken
      rwa [List.getElem?_append_left inside]
  | proceed j =>
      rcases Option.bind_eq_some_iff.mp taken with ⟨old, found, moved⟩
      rcases Option.map_eq_some_iff.mp moved with ⟨⟨values, position⟩, -, rfl⟩
      by_cases own_step : i = j
      · subst own_step
        cases present.symm.trans found
        rw [set_same before i _ invocation present, ← same]
        rfl
      · rw [set_other before j _ i own_step, present, ← same]
        rfl

theorem effects_own (before : State) (replay : run step before history = some state)
    (entry : Nat × Mask) (member : entry ∈ eventsOf step effect before history) :
    state.invocations[entry.1]?.map Invocation.mask = some entry.2 := by
  induction history generalizing before with
  | nil => cases member
  | cons action rest ih =>
      obtain ⟨next, taken, tail⟩ := (run_cons_iff step before state action rest).mp replay
      rw [events_of_cons step effect rest taken] at member
      rcases List.mem_append.mp member with now | later
      · refine run_invariant step
          (fun state => state.invocations[entry.1]?.map Invocation.mask = some entry.2) ?_ ?_ tail
        · exact fun earlier action later own moved =>
            step_masks earlier later action entry.1 entry.2 own moved
        · exact step_masks before next action _ _ (effect_own before action entry now) taken
      · exact ih next tail later

/-- One order of the invocations explains the map: each of them is in it once,
with its own mask; an invocation that is done when another enters comes before
it; and the map of the finished invocations is that of the program run on the
masks in this order, one after another. -/
structure Linearized : Prop where
  once : ((effects history).map Prod.fst).Nodup
  own : ∀ entry ∈ effects history,
    state.invocations[entry.1]?.map Invocation.mask = some entry.2
  complete : AllDone state →
    ((effects history).map Prod.fst).Perm (List.range state.invocations.length)
  sequential : AllDone state →
    state.values = (invocations ((effects history).map Prod.snd) zeroed).1
  realTime : ∀ early late middle, history = early ++ late → run step boot early = some middle →
    ∃ after, effects history = effects early ++ after ∧
      (∀ i invocation, middle.invocations[i]? = some invocation →
        invocation.position.isDone = true → i ∈ (effects early).map Prod.fst) ∧
      ∀ i ∈ (effects early).map Prod.fst, i < middle.invocations.length

/-- Any number of invocations, in any undisturbed interleaving, is linearizable. -/
theorem undisturbed_linearizable (undisturbed : Along step Undisturbed boot history)
    (replay : run step boot history = some state) : Linearized history state := by
  obtain ⟨recorder, logged, log, served, distinct⟩ :=
    run_logged history state undisturbed replay
  constructor
  · rwa [← served]
  · exact effects_own history state boot replay
  · intro all
    rw [← served]
    refine (List.perm_ext_iff_of_nodup distinct List.nodup_range).mpr fun i => ?_
    rw [List.mem_range]
    constructor
    · exact logged.inside i
    · intro inside
      have present := List.getElem?_eq_getElem inside
      exact (logged.served i _ present).mpr (done_settled _ (all _ (List.getElem_mem inside)))
  · intro all
    have shown := done_shows state recorder logged all
    rw [log] at shown
    exact shows_unique _ _ _ shown (invocations_record _ zeroed BoundedLog.empty zeroed_shows).1
  · rintro early late middle rfl reached
    obtain ⟨earlier, at_middle, -, first, -⟩ :=
      run_logged early middle (along_front step Undisturbed undisturbed) reached
    refine ⟨eventsOf step effect middle late, events_of_append step effect late reached, ?_, ?_⟩
    · intro i invocation present ended
      rw [← first]
      exact (at_middle.served i invocation present).mpr (done_settled _ ended)
    · intro i member
      rw [← first] at member
      exact at_middle.inside i member

theorem orderly_linearizable :
    ∃ state, run step boot orderlyHistory = some state ∧
      effects orderlyHistory = [(1, 2#64), (0, 1#64)] ∧ Linearized orderlyHistory state := by
  have reached : (run step boot orderlyHistory).isSome = true := by decide
  obtain ⟨state, replay⟩ := Option.isSome_iff_exists.mp reached
  exact ⟨state, replay, by decide, undisturbed_linearizable orderlyHistory state (by decide) replay⟩

end Outcome

end EbpfInjection.AffinityLinearization
