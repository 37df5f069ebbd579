import EbpfInjection.AffinityRace

/-!
What no interleaving of invocations of `bpf_prog1` breaks, as long as the
counter fits an index: the counter itself, and the origin of every entry.
-/

namespace EbpfInjection.AffinityCounting
open AffinityLog AffinityRace TransitionSystem

def hasAdded (invocation : Invocation) : Bool :=
  match invocation.position with
  | .added _ | .reread _ | .done (some _) => true
  | .entered | .found _ | .tested _ | .done none => false

def additions (state : State) : Nat := state.invocations.countP hasAdded

def PositionSound (count : Nat) : Position → Prop
  | .found top | .tested top | .added top => top = 0
  | .reread index | .done (some index) => 1 ≤ index.toNat ∧ index.toNat ≤ count
  | .entered | .done none => True

/-- Slot 0 counts the additions; behind it stand zeros, and masks that finished
invocations put there. -/
structure Traceable (state : State) : Prop where
  counter : state.values 0 = BitVec.ofNat 64 (additions state)
  positions : ∀ invocation ∈ state.invocations,
    PositionSound (additions state) invocation.position
  entries : ∀ slot, slot ≠ 0 → state.values slot = 0#64 ∨
    ∃ invocation ∈ state.invocations, ∃ index, invocation.position = .done (some index) ∧
      index.toNat = slot ∧ slot < maxEntries ∧ state.values slot = invocation.mask

theorem boot_traceable : Traceable boot where
  counter := rfl
  positions := fun _ member => by cases member
  entries := fun _ _ => .inl rfl

theorem position_sound_mono (count later : Nat) (position : Position) (more : count ≤ later)
    (sound : PositionSound count position) : PositionSound later position := by
  cases position with
  | entered => trivial
  | found | tested | added => exact sound
  | reread => exact ⟨sound.1, Nat.le_trans sound.2 more⟩
  | done update =>
      cases update with
      | none => trivial
      | some index => exact ⟨sound.1, Nat.le_trans sound.2 more⟩

section Steps
variable (state : State) (i : Nat) (old : Invocation)

theorem additions_set (position : Position) (values : Values)
    (present : state.invocations[i]? = some old) :
    additions { values, invocations := state.invocations.set i { old with position } } +
        (hasAdded old).toNat =
      additions state + (hasAdded { old with position }).toNat := by
  obtain ⟨inside, same⟩ := List.getElem?_eq_some_iff.mp present
  have counted := List.countP_set (p := hasAdded) (a := { old with position }) inside
  have own : (hasAdded old).toNat ≤ state.invocations.countP hasAdded := by
    cases added : hasAdded old with
    | false => exact Nat.zero_le _
    | true => exact List.countP_pos_iff.mpr ⟨old, List.mem_of_getElem? present, added⟩
  have as_nat : ∀ added : Bool, (if added = true then 1 else 0) = added.toNat := by decide
  rw [same, as_nat, as_nat] at counted
  dsimp only [additions]
  omega

/-- One step keeps the entries of the others and the positions sound. -/
theorem set_traceable (position : Position) (values : Values) (traceable : Traceable state)
    (present : state.invocations[i]? = some old)
    (running : ∀ update, old.position ≠ .done update)
    (counter : values 0 = BitVec.ofNat 64
      (additions { values, invocations := state.invocations.set i { old with position } }))
    (more : additions state ≤
      additions { values, invocations := state.invocations.set i { old with position } })
    (sound : PositionSound
      (additions { values, invocations := state.invocations.set i { old with position } }) position)
    (entries : ∀ slot, slot ≠ 0 → values slot = state.values slot ∨
      ∃ index, position = .done (some index) ∧ index.toNat = slot ∧ slot < maxEntries ∧
        values slot = old.mask) :
    Traceable { values, invocations := state.invocations.set i { old with position } } := by
  have inside := (List.getElem?_eq_some_iff.mp present).1
  constructor
  · exact counter
  · intro invocation member
    rcases List.mem_or_eq_of_mem_set member with earlier | rfl
    · exact position_sound_mono _ _ _ more (traceable.positions invocation earlier)
    · exact sound
  · intro slot behind
    rcases entries slot behind with same | ⟨index, ended, at_slot, within, written⟩
    · have same : { values, invocations := state.invocations.set i { old with position } :
          State }.values slot = state.values slot := same
      rw [same]
      refine (traceable.entries slot behind).imp_right ?_
      rintro ⟨invocation, member, index, ended, at_slot, within, entry⟩
      -- whoever is done is not the one that moves
      obtain ⟨j, found⟩ := List.mem_iff_getElem?.mp member
      have other : j ≠ i := by
        rintro rfl
        cases present.symm.trans found
        exact running _ ended
      refine ⟨invocation, ?_, index, ended, at_slot, within, entry⟩
      exact List.mem_of_getElem? ((set_other state i _ j other).trans found)
    · exact .inr ⟨_, List.mem_set inside _, index, ended, at_slot, within, written⟩

theorem additions_le (few : state.invocations.length < 2 ^ 32) : additions state < 2 ^ 32 :=
  Nat.lt_of_le_of_lt List.countP_le_length few

theorem proceed_traceable (position : Position) (values : Values) (traceable : Traceable state)
    (few : state.invocations.length < 2 ^ 32) (present : state.invocations[i]? = some old)
    (taken : proceed state.values old.mask old.position = some (values, position)) :
    Traceable { values, invocations := state.invocations.set i { old with position } } := by
  have bound := additions_le state few
  have own := traceable.positions old (List.mem_of_getElem? present)
  have count := additions_set state i old position values present
  have same : ∀ slot, slot ≠ 0 → state.values slot = state.values slot ∨ ∃ index,
      position = .done (some index) ∧ index.toNat = slot ∧ slot < maxEntries ∧
        state.values slot = old.mask := fun _ _ => .inl rfl
  have running : ∀ update, old.position ≠ .done update := by
    intro update ended
    rw [ended] at taken
    cases taken
  have step := set_traceable state i old position values traceable present running
  cases at_position : old.position with
  | entered =>
      rw [at_position] at taken
      cases taken
      simp only [hasAdded, at_position, Bool.toNat_false, Nat.add_zero] at count
      exact step (by rw [count, traceable.counter]) (Nat.le_of_eq count.symm) rfl same
  | found top =>
      rw [at_position] at taken own
      simp only [proceed] at taken
      split at taken <;> cases taken <;>
        simp only [hasAdded, at_position, Bool.toNat_false, Nat.add_zero] at count
      · exact step (by rw [count, traceable.counter]) (Nat.le_of_eq count.symm) trivial same
      · exact step (by rw [count, traceable.counter]) (Nat.le_of_eq count.symm) own same
  | tested top =>
      rw [at_position] at taken own
      have first : top = 0 := own
      subst first
      cases taken
      simp only [hasAdded, at_position, Bool.toNat_false, Bool.toNat_true, Nat.add_zero] at count
      refine step ?_ (by omega) rfl fun slot behind => .inl (Function.update_of_ne behind _ _)
      rw [count, Function.update_self, traceable.counter, BitVec.ofNat_add]
  | added top =>
      rw [at_position] at taken own
      have first : top = 0 := own
      subst first
      cases taken
      simp only [hasAdded, at_position, Bool.toNat_true] at count
      -- the counter counts at least the addition of this invocation
      have some_added : 0 < additions state :=
        List.countP_pos_iff.mpr ⟨old, List.mem_of_getElem? present, by rw [hasAdded, at_position]⟩
      have index : (BitVec.setWidth 32 (state.values 0)).toNat = additions state := by
        rw [traceable.counter, BitVec.toNat_setWidth, BitVec.toNat_ofNat]
        omega
      exact step (by rw [Nat.add_right_cancel count, traceable.counter]) (by omega)
        ⟨by omega, by omega⟩ same
  | reread index =>
      rw [at_position] at taken own
      cases taken
      simp only [hasAdded, at_position, Bool.toNat_true] at count
      have behind : index.toNat ≠ 0 := by
        have counted := own.1
        omega
      refine step ?_ (by omega) ⟨own.1, by have counted := own.2; omega⟩ ?_
      · rw [Nat.add_right_cancel count, ← traceable.counter]
        unfold mapUpdate
        split
        · exact Function.update_of_ne (Ne.symm behind) _ _
        · rfl
      · intro slot _
        unfold mapUpdate
        split
        · rename_i within
          by_cases target : slot = index.toNat
          · subst target
            exact .inr ⟨index, rfl, rfl, within, Function.update_self ..⟩
          · exact .inl (Function.update_of_ne target _ _)
        · exact .inl rfl
  | done update =>
      rw [at_position] at taken
      cases taken

end Steps

theorem step_traceable (state next : State) (action : Action)
    (traceable : state.invocations.length < 2 ^ 32 → Traceable state)
    (taken : step state action = some next) :
    next.invocations.length < 2 ^ 32 → Traceable next := by
  intro few
  cases action with
  | enter mask =>
      cases taken
      have fewer : state.invocations.length < 2 ^ 32 := by
        rw [List.length_append] at few
        omega
      obtain ⟨counter, positions, entries⟩ := traceable fewer
      have count : additions { state with invocations := state.invocations ++ [⟨mask, .entered⟩] } =
          additions state := by
        simp [additions, hasAdded]
      constructor
      · rw [count, counter]
      · intro invocation member
        rw [count]
        rcases List.mem_append.mp member with earlier | last
        · exact positions invocation earlier
        · rw [List.mem_singleton.mp last]
          trivial
      · intro slot behind
        refine (entries slot behind).imp_right ?_
        rintro ⟨invocation, member, entry⟩
        exact ⟨invocation, List.mem_append_left _ member, entry⟩
  | proceed i =>
      rcases Option.bind_eq_some_iff.mp taken with ⟨old, present, moved⟩
      rcases Option.map_eq_some_iff.mp moved with ⟨⟨values, position⟩, proceeded, rfl⟩
      rw [List.length_set] at few
      exact proceed_traceable state i old position values (traceable few) few present proceeded

/-- In every interleaving of fewer than 2^32 invocations no addition is lost,
no mask overwrites the counter, and every other slot holds zero or the mask of
a finished invocation that read this slot as its index. -/
theorem any_interleaving_traceable (history : List Action) (state : State)
    (replay : run step boot history = some state) (few : state.invocations.length < 2 ^ 32) :
    Traceable state :=
  run_invariant step (fun state => state.invocations.length < 2 ^ 32 → Traceable state)
    (fun before action after traceable taken =>
      step_traceable before after action traceable taken)
    (fun _ => boot_traceable) replay few

/-- Two additions before either index is read: one slot stays empty, and the
counter still counts both. -/
theorem overlapping_traceable :
    ∃ state, run step boot overlappingHistory = some state ∧ additions state = 2 ∧
      Traceable state := by
  have reached : (run step boot overlappingHistory).any (fun state =>
      additions state = 2 ∧ state.invocations.length = 2) = true := by decide
  obtain ⟨state, replay, checked⟩ := (Option.any_eq_true _ _).mp reached
  obtain ⟨both, two⟩ := of_decide_eq_true checked
  exact ⟨state, replay, both, any_interleaving_traceable overlappingHistory state replay (by omega)⟩

end EbpfInjection.AffinityCounting
