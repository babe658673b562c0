import IconSharedMemory.Runs
import Mathlib.Data.Nat.ModEq

/-! # Bounded first-in first-out queues

The abstract queue of capacity `cap` is a list of at most `cap` elements.  An
insertion appends to it and is refused when the list is full; a removal takes
the first element and is refused when the list is empty (`Step`).  What a run
of it did is the word of its events, and the accounting theorem of the module is
that the elements inserted are the elements removed followed by those that are
still in the queue (`enqs_eq`).

The second half is the arithmetic of the **ring** such a queue is kept in: the
positions `first`, `first + 1`, …, taken modulo the capacity, are distinct as
long as there are at most `cap` of them.
-/
namespace BoundedFifo
open Runs

variable {α : Type} {cap : Nat} {q q' : List α} {w : List α} {v : α}

/-- What an operation on the queue can report. -/
inductive Event (α : Type)
  | enq (v : α)
  | deq (v : α)
  | full
  | empty

/-- The element an event inserts. -/
def Event.enq? : Event α → Option α
  | .enq v => some v
  | .deq _ | .full | .empty => none

/-- The element an event removes. -/
def Event.deq? : Event α → Option α
  | .deq v => some v
  | .enq _ | .full | .empty => none

/-- The elements inserted along a word, in order. -/
def enqs (w : List (Event α)) : List α := w.filterMap Event.enq?

/-- The elements removed along a word, in order. -/
def deqs (w : List (Event α)) : List α := w.filterMap Event.deq?

/-- **One operation on a queue of capacity `cap`.** -/
inductive Step (cap : Nat) : List α → Event α → List α → Prop
  | enq {q : List α} {v : α} (h : q.length < cap) : Step cap q (.enq v) (q ++ [v])
  | deq {q : List α} {v : α} : Step cap (v :: q) (.deq v) q
  | full {q : List α} (h : q.length = cap) : Step cap q .full q
  | empty : Step cap [] .empty []

/-- **Accounting**: nothing is lost, duplicated or reordered. -/
theorem enqs_eq {w : List (Event α)} (h : Run (Step cap) [] w q) : enqs w = deqs w ++ q := by
  refine h.invariant (I := fun w q => enqs w = deqs w ++ q) rfl ?_
  intro w q e q' ih hs
  unfold enqs deqs at ih ⊢
  rw [List.filterMap_append, List.filterMap_append, ih]
  cases hs <;> simp [Event.enq?, Event.deq?, List.filterMap_cons]

/-- What was removed is a prefix of what was inserted. -/
theorem deqs_isPrefix_enqs {w : List (Event α)} (h : Run (Step cap) [] w q) : deqs w <+: enqs w :=
  ⟨q, (enqs_eq h).symm⟩

/-- The capacity is never exceeded. -/
theorem length_le {w : List (Event α)} (h : Run (Step cap) [] w q) : q.length ≤ cap := by
  refine h.stateInvariant (I := fun q => q.length ≤ cap) (Nat.zero_le _) ?_
  intro q e q' ih hs
  cases hs with
  | enq hlt => rw [List.length_append]; exact hlt
  | deq => simp only [List.length_cons] at ih; omega
  | full | empty => exact ih

/-! ## Positions in a ring -/

/-- Two of at most `cap` successive positions differ. -/
theorem ring_ne (first : Nat) {i j : Nat} (hij : i < j) (hj : j < cap) :
    (first + i) % cap ≠ (first + j) % cap := by
  intro h
  have hmod : i ≡ j [MOD cap] := Nat.ModEq.add_left_cancel' first h
  have heq : i = j := by
    have := hmod
    unfold Nat.ModEq at this
    rwa [Nat.mod_eq_of_lt (by omega), Nat.mod_eq_of_lt hj] at this
  omega

/-- Dropping the first of the positions leaves the others where they are. -/
theorem ring_succ (first i : Nat) : ((first + 1) % cap + i) % cap = (first + (i + 1)) % cap := by
  rw [Nat.mod_add_mod, Nat.add_assoc, Nat.add_comm 1 i]

end BoundedFifo
