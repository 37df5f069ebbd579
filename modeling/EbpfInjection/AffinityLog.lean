import Mathlib.Algebra.Ring.Nat
import Mathlib.Data.List.Basic
import Mathlib.Logic.Function.Basic

/-!
`bpf_prog1` of `myprog.c`: the kprobe program that logs the masks given to
`sched_setaffinity`. Slot 0 of the array map `values` counts the entries and
the masks stand behind it, so that the counter is also the index of the last
entry. Invocations one after another keep a log of bounded length.
-/

namespace EbpfInjection.AffinityLog

abbrev Mask := BitVec 64

def maxEntries : Nat := 64

abbrev Values := Nat → BitVec 64

def zeroed : Values := fun _ => 0#64

def mapLookup (index : BitVec 32) : Option Nat :=
  if index.toNat < maxEntries then some index.toNat else none

/-- `bpf_map_update_elem` with flags 0; an index past the map is refused. -/
def mapUpdate (values : Values) (index : BitVec 32) (mask : Mask) : Values :=
  if index.toNat < maxEntries then Function.update values index.toNat mask else values

/-- The map after one invocation, and the index of its map update. -/
def bpfProg1 (mask : Mask) (values : Values) : Values × Option (BitVec 32) :=
  match mapLookup 0#32 with
  | none => (values, none)
  | some top =>
      if values top = BitVec.ofNat 64 (maxEntries - 1) then (values, none)
      else
        let added := Function.update values top (values top + 1#64)
        -- the index is read again, it is not what the addition returned
        let index := (added top).setWidth 32
        (mapUpdate added index mask, some index)

def invocations : List Mask → Values → Values × List (BitVec 32)
  | [], values => (values, [])
  | mask :: rest, values =>
      let first := bpfProg1 mask values
      let later := invocations rest first.1
      (later.1, first.2.toList ++ later.2)

/-! What the program is for: a log that takes entries until it is full. -/
section BoundedLog

theorem take_append_take (count : Nat) (front back : List Mask) :
    (front.take count ++ back).take count = (front ++ back).take count := by
  rw [List.take_append, List.take_append, List.take_take, Nat.min_self, List.length_take]
  congr 2
  omega

structure BoundedLog (capacity : Nat) where
  entries : List Mask
  fits : entries.length ≤ capacity

namespace BoundedLog
variable {capacity : Nat}

def empty : BoundedLog capacity := ⟨[], Nat.zero_le _⟩

def record (log : BoundedLog capacity) (mask : Mask) : BoundedLog capacity :=
  if room : log.entries.length < capacity then
    ⟨log.entries ++ [mask], by rw [List.length_append]; exact room⟩
  else log

theorem record_entries (log : BoundedLog capacity) (mask : Mask) :
    (log.record mask).entries = (log.entries ++ [mask]).take capacity := by
  unfold record
  split
  · rename_i room
    rw [List.take_of_length_le]
    rw [List.length_append]
    exact room
  · rename_i full
    rw [List.take_append_of_le_length (Nat.le_of_not_lt full), List.take_of_length_le log.fits]

theorem recorded_entries (masks : List Mask) (log : BoundedLog capacity) :
    (masks.foldl record log).entries = (log.entries ++ masks).take capacity := by
  induction masks generalizing log with
  | nil =>
      rw [List.append_nil, List.take_of_length_le log.fits]
      rfl
  | cons mask rest ih =>
      rw [List.foldl_cons, ih, record_entries, take_append_take, ← List.append_cons]

end BoundedLog
end BoundedLog

structure Shows (values : Values) (log : BoundedLog (maxEntries - 1)) : Prop where
  count : values 0 = BitVec.ofNat 64 log.entries.length
  slots : ∀ i, values (i + 1) = log.entries[i]?.getD 0#64

def InLog (index : BitVec 32) : Prop := 1 ≤ index.toNat ∧ index.toNat ≤ maxEntries - 1

theorem zeroed_shows : Shows zeroed BoundedLog.empty := by
  constructor
  · rfl
  · intro i
    simp [zeroed, BoundedLog.empty]

theorem count_full_iff (count : Nat) (fits : count ≤ maxEntries - 1) :
    BitVec.ofNat 64 count = BitVec.ofNat 64 (maxEntries - 1) ↔ count = maxEntries - 1 := by
  unfold maxEntries at fits ⊢
  constructor
  · intro same
    have counts := congrArg BitVec.toNat same
    simp only [BitVec.toNat_ofNat] at counts
    omega
  · intro full
    rw [full]

theorem next_index (count : Nat) (room : count < maxEntries - 1) :
    ((BitVec.ofNat 64 count + 1#64).setWidth 32 : BitVec 32).toNat = count + 1 := by
  unfold maxEntries at room
  simp only [BitVec.toNat_setWidth, BitVec.toNat_add, BitVec.toNat_ofNat]
  omega

/-- One invocation records its mask, and writes inside the log if at all. -/
theorem bpf_prog1_records (mask : Mask) (values : Values) (log : BoundedLog (maxEntries - 1))
    (shows_log : Shows values log) :
    Shows (bpfProg1 mask values).1 (log.record mask) ∧
      ∀ index, (bpfProg1 mask values).2 = some index → InLog index := by
  rcases shows_log with ⟨count, slots⟩
  have top : mapLookup 0#32 = some 0 := rfl
  by_cases room : log.entries.length < maxEntries - 1
  · have below := mt (count_full_iff _ log.fits).mp (Nat.ne_of_lt room)
    have index := next_index log.entries.length room
    have inside : log.entries.length + 1 < maxEntries := by omega
    have kept : (log.record mask).entries = log.entries ++ [mask] := by
      rw [BoundedLog.record_entries, List.take_of_length_le (by rw [List.length_append]; exact room)]
    simp only [bpfProg1, top, count, below, if_false, Function.update_self, mapUpdate, index, inside,
      if_true]
    constructor
    · constructor
      · rw [Function.update_of_ne (by omega), Function.update_self, kept]
        apply BitVec.eq_of_toNat_eq
        simp only [BitVec.toNat_add, BitVec.toNat_ofNat, List.length_append, List.length_singleton]
        omega
      · intro i
        -- the new entry, the entries before it, the zeros behind it
        by_cases last : i = log.entries.length
        · subst last
          simp [kept]
        · rw [Function.update_of_ne (by omega), Function.update_of_ne (by omega), slots, kept]
          by_cases earlier : i < log.entries.length
          · rw [List.getElem?_append_left earlier]
          · rw [List.getElem?_eq_none (by omega),
              List.getElem?_eq_none (by rw [List.length_append, List.length_singleton]; omega)]
    · rintro _ ⟨⟩
      unfold InLog
      omega
  · have full := (count_full_iff _ log.fits).mpr
      (Nat.le_antisymm log.fits (Nat.le_of_not_lt room))
    have kept : log.record mask = log := dif_neg room
    simp only [bpfProg1, top, count, full, if_true, kept]
    constructor
    · exact ⟨count, slots⟩
    · rintro _ ⟨⟩

theorem invocations_record (masks : List Mask) (values : Values)
    (log : BoundedLog (maxEntries - 1)) (shows_log : Shows values log) :
    Shows (invocations masks values).1 (masks.foldl BoundedLog.record log) ∧
      ∀ index ∈ (invocations masks values).2, InLog index := by
  induction masks generalizing values log with
  | nil =>
      constructor
      · exact shows_log
      · intro index member
        cases member
  | cons mask rest ih =>
      have first := bpf_prog1_records mask values log shows_log
      have later := ih _ _ first.1
      constructor
      · exact later.1
      · intro index member
        rcases List.mem_append.mp member with now | afterwards
        · exact first.2 index (Option.mem_toList.mp now)
        · exact later.2 index afterwards

/-- After any number of invocations one after another, slot 0 counts the masks
up to the last slot, the first masks stand in the slots behind it in order, the
other slots are as at the start, and no update left the log. -/
theorem sequential_log_exact (masks : List Mask) :
    let after := invocations masks zeroed
    let count := min masks.length (maxEntries - 1)
    after.1 0 = BitVec.ofNat 64 count ∧
      (∀ i, 1 ≤ i → i ≤ count → masks[i - 1]? = some (after.1 i)) ∧
      (∀ i, count < i → i < maxEntries → after.1 i = 0#64) ∧
      ∀ index ∈ after.2, 1 ≤ index.toNat ∧ index.toNat ≤ maxEntries - 1 := by
  intro after count
  rcases invocations_record masks zeroed BoundedLog.empty zeroed_shows with ⟨shown, inside⟩
  have entries : (masks.foldl BoundedLog.record BoundedLog.empty).entries =
      masks.take (maxEntries - 1) := BoundedLog.recorded_entries masks BoundedLog.empty
  have counted : (masks.take (maxEntries - 1)).length = count := by
    rw [List.length_take, Nat.min_comm]
  have slots : ∀ i, 1 ≤ i → after.1 i = (masks.take (maxEntries - 1))[i - 1]?.getD 0#64 := by
    intro i behind
    have slot := shown.slots (i - 1)
    rwa [Nat.sub_add_cancel behind, entries] at slot
  refine ⟨?_, ?_, ?_, inside⟩
  · rw [shown.count, entries, counted]
  · intro i behind within
    have present : i - 1 < masks.length := by omega
    rw [slots i behind, List.getElem?_take_of_lt (by omega), List.getElem?_eq_getElem present]
    rfl
  · intro i past _
    rw [slots i (by omega), List.getElem?_eq_none (by omega)]
    rfl

end EbpfInjection.AffinityLog
