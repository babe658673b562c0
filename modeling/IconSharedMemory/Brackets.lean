import Mathlib.Computability.Language

/-! # Bracketed sequences of events

Events that come in brackets: `opens`, then any number of `body`, then `closes`, and
again from the start.  The complete sequences are a regular language (`brackets`).
`Bracketed` reads a sequence event by event and says whether the last bracket is still
open; it is what a proof by induction over a run carries along.  Whatever it accepts is a
word of the language, possibly cut short (`Bracketed.exists_complete`).
-/
open Computability

/-- The language of `opens body* closes`, repeated. -/
def brackets {α : Type} (opens body closes : α) : Language α :=
  ({[opens]} * ({[body]} : Language α)∗ * {[closes]} : Language α)∗

/-- A sequence of brackets, the last of which may still be open (`isOpen`). -/
inductive Bracketed {α : Type} (opens body closes : α) : List α → Bool → Prop
  | nil : Bracketed opens body closes [] false
  | opened {v : List α} (h : Bracketed opens body closes v false) :
      Bracketed opens body closes (v ++ [opens]) true
  | inner {v : List α} (h : Bracketed opens body closes v true) :
      Bracketed opens body closes (v ++ [body]) true
  | closed {v : List α} (h : Bracketed opens body closes v true) :
      Bracketed opens body closes (v ++ [closes]) false

namespace Bracketed
variable {α : Type} {opens body closes : α} {v : List α} {isOpen : Bool}

theorem snoc_mem_kstar {L : Language α} {u x : List α} (hu : u ∈ L∗) (hx : x ∈ L) :
    u ++ x ∈ L∗ :=
  kstar_mul_le_kstar (a := L) (Language.append_mem_mul hu hx)

/-- Complete brackets, and then the beginning of one if one is open. -/
theorem mem (h : Bracketed opens body closes v isOpen) :
    if isOpen then v ∈ brackets opens body closes * {[opens]} * ({[body]} : Language α)∗
    else v ∈ brackets opens body closes := by
  induction h with
  | nil => exact Language.nil_mem_kstar _
  | opened _ ih =>
    have hopened := Language.append_mem_mul ih (Set.mem_singleton [opens])
    exact Language.mem_mul.mpr
      ⟨_, hopened, [], Language.nil_mem_kstar _, List.append_nil _⟩
  | inner _ ih =>
    obtain ⟨x, hx, y, hy, rfl⟩ := Language.mem_mul.mp ih
    rw [List.append_assoc]
    exact Language.append_mem_mul hx (snoc_mem_kstar hy (Set.mem_singleton [body]))
  | closed _ ih =>
    obtain ⟨x, hx, y, hy, rfl⟩ := Language.mem_mul.mp ih
    obtain ⟨u, hu, z, hz, rfl⟩ := Language.mem_mul.mp hx
    have hlast : z ++ y ++ [closes] ∈
        ({[opens]} * ({[body]} : Language α)∗ * {[closes]} : Language α) :=
      Language.append_mem_mul (Language.append_mem_mul hz hy) (Set.mem_singleton [closes])
    rw [List.append_assoc, List.append_assoc, ← List.append_assoc z]
    exact snoc_mem_kstar hu hlast

/-- **A bracketed sequence is a word of the language, possibly cut short.** -/
theorem exists_complete (h : Bracketed opens body closes v isOpen) :
    ∃ rest, v ++ rest ∈ brackets opens body closes := by
  cases isOpen with
  | false => exact ⟨[], (List.append_nil v).symm ▸ h.mem⟩
  | true => exact ⟨[closes], h.closed.mem⟩

end Bracketed
