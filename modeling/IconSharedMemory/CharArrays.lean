import Mathlib.Data.List.TakeWhile
import Mathlib.Data.List.Infix

/-! # Strings in character arrays

An array has a fixed number of characters, and C++ writes to it and reads from it with `memset`,
`memcpy`, `strlen` and views.  None of them knows the size of the array.  Here they do, and an
access outside of the array has no result.

A string may be written with a terminator behind it.  What is read from an array that was padded
with terminators is the longest beginning of the string that fits and has none itself
(`isLongest_takeWhile`, `takeWhile_padded`).
-/
namespace CharArrays
variable {α : Type} {n : Nat}

/-! ## Arrays -/

/-- An array of `n` characters. -/
structure CharArray (α : Type) (n : Nat) where
  data : List α
  sized : data.length = n

namespace CharArray

/-- `memset(data + offset, value, count)` -/
def memset (a : CharArray α n) (offset : Nat) (value : α) (count : Nat) :
    Option (CharArray α n) :=
  if h : offset + count ≤ n then
    some ⟨a.data.take offset ++ List.replicate count value ++ a.data.drop (offset + count), by
      rw [List.length_append, List.length_append, List.length_take, List.length_replicate,
        List.length_drop, a.sized]
      omega⟩
  else none

/-- `memcpy(data, source, count)` -/
def memcpy (a : CharArray α n) (source : List α) (count : Nat) : Option (CharArray α n) :=
  if h : count ≤ n ∧ count ≤ source.length then
    some ⟨source.take count ++ a.data.drop count, by
      rw [List.length_append, List.length_take, List.length_drop, a.sized]
      omega⟩
  else none

/-- `string_view(data, count)` -/
def view (a : CharArray α n) (count : Nat) : Option (List α) :=
  if count ≤ n then some (a.data.take count) else none

variable {offset count : Nat} {source : List α}

theorem memset_of_le (a : CharArray α n) (value : α) (h : offset + count ≤ n) :
    ∃ b, a.memset offset value count = some b ∧
      b.data = a.data.take offset ++ List.replicate count value ++ a.data.drop (offset + count) :=
  ⟨_, dif_pos h, rfl⟩

theorem memcpy_of_le (a : CharArray α n) (hn : count ≤ n) (hsource : count ≤ source.length) :
    ∃ b, a.memcpy source count = some b ∧ b.data = source.take count ++ a.data.drop count :=
  ⟨_, dif_pos ⟨hn, hsource⟩, rfl⟩

theorem view_of_le (a : CharArray α n) (h : count ≤ n) :
    a.view count = some (a.data.take count) := if_pos h

/-- The view that ends before the first character of a kind. -/
theorem view_of_takeWhile (a : CharArray α n) (p : α → Bool) :
    a.view (a.data.takeWhile p).length = some (a.data.takeWhile p) := by
  have hstarts : a.data.takeWhile p <+: a.data := List.takeWhile_prefix p
  rw [a.view_of_le (Nat.le_trans hstarts.length_le (Nat.le_of_eq a.sized)),
    ← List.prefix_iff_eq_take.mp hstarts]

end CharArray

/-! ## Terminated strings -/

variable [DecidableEq α] {nul : α} {s xs : List α} {k : Nat}

/-- `strlen(data)`.  There is no result if it does not meet a terminator. -/
def strlen (nul : α) : List α → Option Nat
  | [] => none
  | c :: data => if c = nul then some 0 else (strlen nul data).map (· + 1)

theorem strlen_of_mem (h : nul ∈ xs) :
    strlen nul xs = some (xs.takeWhile (· ≠ nul)).length := by
  induction xs with
  | nil => cases h
  | cons c xs ih =>
    rw [strlen]
    by_cases hc : c = nul
    · rw [if_pos hc, List.takeWhile_cons_of_neg (by simpa using hc)]
      rfl
    · have hmem : nul ∈ xs := (List.mem_cons.mp h).resolve_left fun heq => hc heq.symm
      rw [if_neg hc, ih hmem, List.takeWhile_cons_of_pos (by simpa using hc)]
      rfl

/-- `xs` with terminators up to the size `n`. -/
def padded (nul : α) (n : Nat) (xs : List α) : List α :=
  xs ++ List.replicate (n - xs.length) nul

omit [DecidableEq α] in
theorem padded_take :
    padded nul n (s.take k) =
      s.take (min k s.length) ++ List.replicate (n - min k s.length) nul := by
  rw [padded, List.length_take, ← List.take_eq_take_min]

omit [DecidableEq α] in
theorem nul_mem_padded (h : xs.length < n) : nul ∈ padded nul n xs :=
  List.mem_append_right _ (List.mem_replicate.mpr ⟨by omega, rfl⟩)

/-- The padding is not read. -/
theorem takeWhile_padded :
    (padded nul n xs).takeWhile (· ≠ nul) = xs.takeWhile (· ≠ nul) := by
  have hpadding : (List.replicate (n - xs.length) nul).takeWhile (· ≠ nul) = [] := by
    rw [List.takeWhile_replicate]
    exact if_neg (by simp)
  rw [padded, List.takeWhile_append, hpadding, List.append_nil]
  split
  · next hlength => exact ((List.takeWhile_prefix _).eq_of_length hlength).symm
  · rfl

/-- The longest beginning of `s` that has at most `k` characters and no terminator. -/
structure IsLongest (nul : α) (k : Nat) (s p : List α) : Prop where
  starts : p <+: s
  bounded : p.length ≤ k
  free : nul ∉ p
  longest : ∀ q, q <+: s → q.length ≤ k → nul ∉ q → q.length ≤ p.length

theorem isLongest_takeWhile : IsLongest nul k s ((s.take k).takeWhile (· ≠ nul)) where
  starts := (List.takeWhile_prefix _).trans (List.take_prefix k s)
  bounded := by
    refine Nat.le_trans (List.takeWhile_prefix _).length_le ?_
    rw [List.length_take]
    exact Nat.min_le_left ..
  free h := by simpa using List.mem_takeWhile_imp h
  longest q hq hlength hfree := by
    -- such a beginning is within the part that is taken, which goes on behind it
    obtain ⟨rest, hrest⟩ : q <+: s.take k := List.prefix_take_iff.mpr ⟨hq, hlength⟩
    have hne : ∀ c ∈ q, decide (c ≠ nul) = true :=
      fun c hc => decide_eq_true fun heq => hfree (heq ▸ hc)
    rw [← hrest, List.takeWhile_append_of_pos hne, List.length_append]
    exact Nat.le_add_right ..

end CharArrays
