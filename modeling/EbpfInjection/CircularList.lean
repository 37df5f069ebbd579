import Mathlib.Data.List.Basic

/-!
Circular singly linked lists threaded through a successor function, with a
distinguished head node that carries no entry. The traversal starts after the
head and stops when it meets the head again; the fuel only bounds the visits
of a traversal that never meets it.
-/

namespace EbpfInjection.CircularList

universe u v
variable {Address : Type u} [DecidableEq Address]

/-- From `cursor` the links lead through `nodes` and back to `head`. The nodes
of the list with head `head` are those linked from `head` itself. -/
def Linked (next : Address → Address) (head : Address) : Address → List Address → Prop
  | cursor, [] => next cursor = head
  | cursor, node :: rest => next cursor = node ∧ node ≠ head ∧ Linked next head node rest

instance decidableLinked (next : Address → Address) (head : Address) :
    (cursor : Address) → (nodes : List Address) → Decidable (Linked next head cursor nodes)
  | cursor, [] => inferInstanceAs (Decidable (next cursor = head))
  | _, node :: rest =>
      letI := decidableLinked next head node rest
      inferInstanceAs (Decidable (_ ∧ _ ∧ _))

def forEach {m : Type v → Type v} [Monad m] {State : Type v} (next : Address → Address)
    (head : Address) (body : State → Address → m State) (exhausted : m State) :
    Nat → Address → State → m State
  | 0, _, _ => exhausted
  | fuel + 1, cursor, state =>
      if cursor = head then pure state
      else do
        let state ← body state cursor
        forEach next head body exhausted fuel (next cursor) state

/-- With fuel for every node the traversal is the fold over the nodes. -/
theorem for_each_linked {m : Type v → Type v} [Monad m] {State : Type v}
    (next : Address → Address) (head cursor : Address) (nodes : List Address)
    (body : State → Address → m State) (exhausted : m State) (fuel : Nat) (state : State)
    (linked : Linked next head cursor nodes) (enough : nodes.length < fuel) :
    forEach next head body exhausted fuel (next cursor) state = nodes.foldlM body state := by
  induction nodes generalizing cursor fuel state with
  | nil =>
      cases fuel with
      | zero => cases enough
      | succ fuel =>
          have back : next cursor = head := linked
          simp [forEach, back]
  | cons node rest ih =>
      rcases linked with ⟨first, inside, tail⟩
      cases fuel with
      | zero => cases enough
      | succ fuel =>
          have shorter : rest.length < fuel := Nat.lt_of_succ_lt_succ enough
          simp only [forEach, first, inside, if_false, List.foldlM_cons]
          exact bind_congr fun later => ih node fuel later tail shorter

omit [DecidableEq Address] in
/-- The successors of the cursor and the nodes are the nodes and the head. -/
theorem successors_exact (next : Address → Address) (head cursor : Address)
    (nodes : List Address) (linked : Linked next head cursor nodes) :
    (cursor :: nodes).map next = nodes ++ [head] := by
  induction nodes generalizing cursor with
  | nil => simpa [Linked] using linked
  | cons node rest ih =>
      rcases linked with ⟨first, _, tail⟩
      rw [List.map_cons, ih node tail, first, List.cons_append]

omit [DecidableEq Address] in
theorem cursor_not_fixed (next : Address → Address) (head cursor : Address)
    (nodes : List Address) (linked : Linked next head cursor nodes) (inside : cursor ≠ head) :
    next cursor ≠ cursor := by
  induction nodes generalizing cursor with
  | nil =>
      have back : next cursor = head := linked
      rw [back]
      exact Ne.symm inside
  | cons node rest ih =>
      rcases linked with ⟨first, nodeInside, tail⟩
      intro fixed
      have same : node = cursor := first.symm.trans fixed
      subst same
      exact ih node tail nodeInside fixed

omit [DecidableEq Address] in
theorem nodes_not_fixed (next : Address → Address) (head cursor : Address)
    (nodes : List Address) (linked : Linked next head cursor nodes) :
    ∀ node ∈ nodes, next node ≠ node := by
  induction nodes generalizing cursor with
  | nil => intro node member; cases member
  | cons first rest ih =>
      rcases linked with ⟨_, inside, tail⟩
      intro node member
      rcases List.mem_cons.mp member with rfl | later
      · exact cursor_not_fixed next head node rest tail inside
      · exact ih first tail node later

end EbpfInjection.CircularList
