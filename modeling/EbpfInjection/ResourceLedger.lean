import Mathlib.Logic.Function.Basic
import Mathlib.Data.List.Basic

/-!
A ledger of acquisitions, releases and uses of named resources. A history is
safe when nothing is acquired twice without a release in between, and only
held resources are released or used. The ledger judges a history after the
fact; it does not say who keeps the names.
-/

namespace EbpfInjection.ResourceLedger

universe u
variable {Resource : Type u} [DecidableEq Resource]

inductive Event (Resource : Type u) where
  | acquire (resource : Resource)
  | release (resource : Resource)
  | use (resource : Resource)
  deriving DecidableEq

def apply (held : Resource → Bool) : Event Resource → Resource → Bool
  | .acquire resource => Function.update held resource true
  | .release resource => Function.update held resource false
  | .use _ => held

def Allowed (held : Resource → Bool) : Event Resource → Prop
  | .acquire resource => held resource = false
  | .release resource => held resource = true
  | .use resource => held resource = true

def heldAfter (held : Resource → Bool) : List (Event Resource) → Resource → Bool
  | [] => held
  | event :: rest => heldAfter (apply held event) rest

def Safe (held : Resource → Bool) : List (Event Resource) → Prop
  | [] => True
  | event :: rest => Allowed held event ∧ Safe (apply held event) rest

instance (held : Resource → Bool) : (event : Event Resource) → Decidable (Allowed held event)
  | .acquire resource => inferInstanceAs (Decidable (held resource = false))
  | .release resource => inferInstanceAs (Decidable (held resource = true))
  | .use resource => inferInstanceAs (Decidable (held resource = true))

instance decidableSafe : (held : Resource → Bool) → (history : List (Event Resource)) →
    Decidable (Safe held history)
  | _, [] => inferInstanceAs (Decidable True)
  | held, event :: rest =>
      letI := decidableSafe (apply held event) rest
      inferInstanceAs (Decidable (_ ∧ _))

def nothing : Resource → Bool := fun _ => false

theorem held_after_append (held : Resource → Bool) (early late : List (Event Resource)) :
    heldAfter held (early ++ late) = heldAfter (heldAfter held early) late := by
  induction early generalizing held with
  | nil => rfl
  | cons event rest ih => exact ih (apply held event)

theorem safe_append (held : Resource → Bool) (early late : List (Event Resource)) :
    Safe held (early ++ late) ↔ Safe held early ∧ Safe (heldAfter held early) late := by
  induction early generalizing held with
  | nil => simp [Safe, heldAfter]
  | cons event rest ih => simp only [List.cons_append, Safe, heldAfter, ih, and_assoc]

theorem held_after_snoc (held : Resource → Bool) (history : List (Event Resource))
    (event : Event Resource) :
    heldAfter held (history ++ [event]) = apply (heldAfter held history) event :=
  held_after_append held history [event]

theorem held_acquired (held : Resource → Bool) (history : List (Event Resource))
    (resource : Resource) : heldAfter held (history ++ [.acquire resource]) resource = true := by
  rw [held_after_snoc]
  exact Function.update_self ..

theorem held_kept_acquire (held : Resource → Bool) (history : List (Event Resource))
    (acquired resource : Resource) (kept : heldAfter held history resource = true) :
    heldAfter held (history ++ [.acquire acquired]) resource = true := by
  rw [held_after_snoc]
  by_cases same : resource = acquired
  · rw [same]
    exact Function.update_self ..
  · exact (Function.update_of_ne same ..).trans kept

theorem held_kept_release (held : Resource → Bool) (history : List (Event Resource))
    (released resource : Resource) (other : resource ≠ released)
    (kept : heldAfter held history resource = true) :
    heldAfter held (history ++ [.release released]) resource = true := by
  rw [held_after_snoc]
  exact (Function.update_of_ne other ..).trans kept

theorem safe_release_held (held : Resource → Bool) (before after : List (Event Resource))
    (resource : Resource) (safe : Safe held (before ++ .release resource :: after)) :
    heldAfter held before resource = true :=
  ((safe_append held before _).mp safe).2.1

theorem safe_count (held : Resource → Bool) (history : List (Event Resource))
    (resource : Resource) (safe : Safe held history) :
    history.count (.acquire resource) + (held resource).toNat =
      history.count (.release resource) + (heldAfter held history resource).toNat := by
  induction history generalizing held with
  | nil => rfl
  | cons event rest ih =>
      -- only an event about this resource moves a count, and then `held` flips with it
      have later := ih (apply held event) safe.2
      have allowed := safe.1
      cases event with
      | acquire other =>
          by_cases same : other = resource
          · subst same
            simp only [Allowed] at allowed
            simp only [apply, Function.update_self, Bool.toNat_true] at later
            simp only [List.count_cons_self, allowed, Bool.toNat_false, heldAfter, apply]
            rw [List.count_cons_of_ne (by simp)]
            omega
          · simp only [apply, Function.update_of_ne (Ne.symm same)] at later
            rw [List.count_cons_of_ne (by simpa using same), List.count_cons_of_ne (by simp)]
            exact later
      | release other =>
          by_cases same : other = resource
          · subst same
            simp only [Allowed] at allowed
            simp only [apply, Function.update_self, Bool.toNat_false] at later
            simp only [List.count_cons_self, allowed, Bool.toNat_true, heldAfter, apply]
            rw [List.count_cons_of_ne (by simp)]
            omega
          · simp only [apply, Function.update_of_ne (Ne.symm same)] at later
            rw [List.count_cons_of_ne (by simp), List.count_cons_of_ne (by simpa using same)]
            exact later
      | use other =>
          rw [List.count_cons_of_ne (by simp), List.count_cons_of_ne (by simp)]
          exact later

/-! The books of an owner: a safe history, and what is held after it. -/

structure Books (history : List (Event Resource)) (owned : Resource → Prop) : Prop where
  safe : Safe nothing history
  exact : ∀ resource, heldAfter nothing history resource = true ↔ owned resource

theorem books_acquire (history : List (Event Resource)) (owned owned' : Resource → Prop)
    (resource : Resource) (books : Books history owned) (free : ¬ owned resource)
    (grown : ∀ other, owned' other ↔ other = resource ∨ owned other) :
    Books (history ++ [.acquire resource]) owned' := by
  constructor
  · rw [safe_append]
    refine ⟨books.safe, ?_, trivial⟩
    have absent := mt (books.exact resource).mp free
    simpa [Allowed] using absent
  · intro other
    rw [held_after_snoc, grown other]
    by_cases same : other = resource
    · simp [apply, same]
    · rw [apply, Function.update_of_ne same, books.exact other]
      simp [same]

theorem books_release (history : List (Event Resource)) (owned owned' : Resource → Prop)
    (resource : Resource) (books : Books history owned) (held : owned resource)
    (shrunk : ∀ other, owned' other ↔ other ≠ resource ∧ owned other) :
    Books (history ++ [.release resource]) owned' := by
  constructor
  · rw [safe_append]
    exact ⟨books.safe, (books.exact resource).mpr held, trivial⟩
  · intro other
    rw [held_after_snoc, shrunk other]
    by_cases same : other = resource
    · simp [apply, same]
    · rw [apply, Function.update_of_ne same, books.exact other]
      simp [same]

theorem held_was_acquired (held : Resource → Bool) (history : List (Event Resource))
    (resource : Resource) (later : heldAfter held history resource = true) :
    held resource = true ∨ .acquire resource ∈ history := by
  induction history generalizing held with
  | nil => exact .inl later
  | cons event rest ih =>
      rcases ih (apply held event) later with before | inRest
      · cases event with
        | acquire other =>
            by_cases same : resource = other
            · subst same
              exact .inr List.mem_cons_self
            · rw [apply, Function.update_of_ne same] at before
              exact .inl before
        | release other =>
            by_cases same : resource = other
            · subst same
              simp [apply] at before
            · rw [apply, Function.update_of_ne same] at before
              exact .inl before
        | use other => exact .inl before
      · exact .inr (List.mem_cons_of_mem event inRest)

/-! An account is opened at a mark in the history. -/

/-- Behind the mark everything acquired is released exactly once, and nothing
is released that is not held. -/
structure Balanced (history : List (Event Resource)) (mark : Nat) : Prop where
  once : ∀ resource, .acquire resource ∈ history.drop mark →
    (history.drop mark).count (.release resource) = 1
  owed : ∀ early late resource, history.drop mark = early ++ .release resource :: late →
    heldAfter nothing (history.take mark ++ early) resource = true

/-- What is acquired behind the mark was not held there, and is acquired once. -/
structure Account (history : List (Event Resource)) (mark : Nat) (owned : Resource → Prop) :
    Prop where
  books : Books history owned
  bound : mark ≤ history.length
  single : ∀ resource, (history.drop mark).count (.acquire resource) ≤ 1
  fresh : ∀ resource, .acquire resource ∈ history.drop mark →
    heldAfter nothing (history.take mark) resource = false

theorem account_open (history : List (Event Resource)) (owned : Resource → Prop)
    (books : Books history owned) : Account history history.length owned := by
  constructor
  · exact books
  · exact Nat.le_refl _
  · simp
  · simp

theorem account_acquire (history : List (Event Resource)) (mark : Nat)
    (owned owned' : Resource → Prop) (resource : Resource) (account : Account history mark owned)
    (free : ¬ owned resource) (new : .acquire resource ∉ history.drop mark)
    (unheld : heldAfter nothing (history.take mark) resource = false)
    (grown : ∀ other, owned' other ↔ other = resource ∨ owned other) :
    Account (history ++ [.acquire resource]) mark owned' := by
  have bound := account.bound
  constructor
  · exact books_acquire history owned owned' resource account.books free grown
  · simp only [List.length_append, List.length_singleton]
    omega
  · intro other
    rw [List.drop_append_of_le_length bound, List.count_append]
    by_cases same : resource = other
    · subst same
      simp [List.count_eq_zero_of_not_mem new]
    · rw [List.count_cons_of_ne (by simpa using same)]
      exact account.single other
  · intro other member
    rw [List.drop_append_of_le_length bound] at member
    rw [List.take_append_of_le_length bound]
    rcases List.mem_append.mp member with earlier | last
    · exact account.fresh other earlier
    · cases List.mem_singleton.mp last
      exact unheld

theorem account_release (history : List (Event Resource)) (mark : Nat)
    (owned owned' : Resource → Prop) (resource : Resource) (account : Account history mark owned)
    (held : owned resource) (shrunk : ∀ other, owned' other ↔ other ≠ resource ∧ owned other) :
    Account (history ++ [.release resource]) mark owned' := by
  have bound := account.bound
  constructor
  · exact books_release history owned owned' resource account.books held shrunk
  · simp only [List.length_append, List.length_singleton]
    omega
  · intro other
    rw [List.drop_append_of_le_length bound, List.count_append, List.count_cons_of_ne (by simp)]
    exact account.single other
  · intro other member
    rw [List.drop_append_of_le_length bound] at member
    rw [List.take_append_of_le_length bound]
    exact account.fresh other (by simpa using member)

/-- An account with nothing left of what was acquired behind its mark. -/
theorem account_balanced (history : List (Event Resource)) (mark : Nat) (owned : Resource → Prop)
    (account : Account history mark owned)
    (settled : ∀ resource, .acquire resource ∈ history.drop mark → ¬ owned resource) :
    Balanced history mark := by
  have split : history = history.take mark ++ history.drop mark := (List.take_append_drop ..).symm
  have safe := account.books.safe
  constructor
  · intro resource member
    rw [split, safe_append] at safe
    have counted := safe_count _ _ resource safe.2
    rw [← held_after_append, ← split, account.fresh resource member] at counted
    have gone := mt (account.books.exact resource).mp (settled resource member)
    have once := account.single resource
    have taken := List.count_pos_iff.mpr member
    simp only [Bool.not_eq_true] at gone
    simp only [gone, Bool.toNat_false, Nat.add_zero] at counted
    omega
  · intro early late resource released
    rw [released, ← List.append_assoc] at split
    rw [split] at safe
    exact safe_release_held nothing _ late resource safe

/-! An owner with a list of what it holds, who held nothing when it opened its
account. Until its first release it holds all it acquired. -/

structure Holding (history : List (Event Resource)) (mark : Nat) (held : List Resource)
    (growing : Prop) : Prop where
  account : Account history mark (· ∈ held)
  start : ∀ resource, heldAfter nothing (history.take mark) resource = false
  kept : growing → ∀ resource, .acquire resource ∈ history.drop mark → resource ∈ held

theorem holding_open (history : List (Event Resource)) (growing : Prop)
    (books : Books history (· ∈ ([] : List Resource))) :
    Holding history history.length [] growing := by
  constructor
  · exact account_open history _ books
  · intro resource
    have absent := mt (books.exact resource).mp (by simp)
    simpa using absent
  · simp

theorem holding_acquire (history : List (Event Resource)) (mark : Nat) (held : List Resource)
    (resource : Resource) (holding : Holding history mark held True) (free : resource ∉ held) :
    Holding (history ++ [.acquire resource]) mark (resource :: held) True := by
  have bound := holding.account.bound
  constructor
  · exact account_acquire history mark _ _ resource holding.account free
      (fun member => free (holding.kept trivial resource member)) (holding.start resource)
      fun _ => List.mem_cons
  · rw [List.take_append_of_le_length bound]
    exact holding.start
  · intro _ other member
    rw [List.drop_append_of_le_length bound] at member
    rcases List.mem_append.mp member with earlier | last
    · exact List.mem_cons_of_mem resource (holding.kept trivial other earlier)
    · cases List.mem_singleton.mp last
      exact List.mem_cons_self

theorem holding_release (history : List (Event Resource)) (mark : Nat)
    (held held' front back : List Resource) (growing : Prop) (resource : Resource)
    (holding : Holding history mark held growing) (split : held = front ++ resource :: back)
    (left : held' = front ++ back) (absent : resource ∉ front ++ back) :
    Holding (history ++ [.release resource]) mark held' False := by
  subst split left
  constructor
  · apply account_release history mark _ _ resource holding.account
    · simp
    · intro other
      by_cases same : other = resource
      · subst same
        simpa using absent
      · simp [same]
  · rw [List.take_append_of_le_length holding.account.bound]
    exact holding.start
  · exact False.elim

def allocations (history : List (Event Resource)) : List (Event Resource) :=
  history.filter fun event =>
    match event with
    | .use _ => false
    | .acquire _ | .release _ => true

omit [DecidableEq Resource] in
theorem allocations_append (early late : List (Event Resource)) :
    allocations (early ++ late) = allocations early ++ allocations late :=
  List.filter_append ..

end EbpfInjection.ResourceLedger
