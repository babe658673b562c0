import Mathlib.Algebra.Ring.Nat
import IconSharedMemory.Futex
import IconSharedMemory.Runs

/-! # Strict handles

The header of a segment has a stamp: the cycle in which the segment was last updated.  ICON
counts cycles with a `CycleCounter` and publishes the current one as the content of a segment of
its own, `IconState`, which has a stamp too.  `Value()` of a strict handle
(`icon/hal/hardware_interface_handle.h`) compares the three numbers and returns the content of
the segment only if they are equal.

The stamp of a new segment is zero, and so is the initial value of the counter.  A segment that
was never updated is therefore let through while cycle zero is published
(`value_fresh_iff`); what was updated is let through only in the cycle of its last update.
-/
namespace Intrinsic.StrictHandles
open Runs

/-! ## Headers -/

/-- What `UpdatedAt` records in a `SegmentHeader`. -/
structure UpdateStamp where
  /-- Nanoseconds. -/
  lastUpdatedTime : Int64
  updateCounter : Int64
  updatedAtCycle : UInt64
  deriving DecidableEq

namespace UpdateStamp

/-- A new header. -/
def init : UpdateStamp := ⟨0, 0, 0⟩

/-- `SegmentHeader::UpdatedAt`, without the warning about time that goes backwards. -/
def updatedAt (time : Int64) (currentCycle : UInt64) (stamp : UpdateStamp) : UpdateStamp where
  lastUpdatedTime := time
  updatedAtCycle := currentCycle
  updateCounter :=
    if stamp.updateCounter = Int64.maxValue then Int64.minValue else stamp.updateCounter + 1

end UpdateStamp

/-- The segment of `IconState`. -/
structure IconState where
  stamp : UpdateStamp
  currentCycle : Int64
  deriving DecidableEq

/-- `BuildIconState`: the field is signed, and initialized with the largest unsigned number. -/
def buildIconState : IconState := ⟨.init, (UInt64.ofNat (2 ^ 64 - 1)).toInt64⟩

/-! ## Handles -/

def wasUpdatedThisCycle (iconState : IconState) (hwInterface : UpdateStamp) : RealtimeStatus :=
  if iconState.stamp.updatedAtCycle.toInt64 ≠ iconState.currentCycle then
    ⟨.failedPrecondition, ascii "Cycle count of ICON state is inconsistent."⟩
  else if hwInterface.updatedAtCycle.toInt64 ≠ iconState.currentCycle then
    formatRealtimeStatus .failedPrecondition
      (ascii "Command was not updated this cycle. icon_cycle (" ++
        ascii (toString iconState.currentCycle) ++ ascii ") != command_cycle (" ++
        ascii (toString hwInterface.updatedAtCycle) ++ ascii ")")
  else rtOkStatus

/-- A segment: the stamp in its header, and its content. -/
structure Interface (V : Type) where
  stamp : UpdateStamp
  value : V

/-- `Value()` of either class of strict handles. -/
def checkedValue {V : Type} (hardwareInterface : Interface V) (iconState : IconState) :
    Except RealtimeStatus V :=
  let status := wasUpdatedThisCycle iconState hardwareInterface.stamp
  if status.isOk = false then .error status else .ok hardwareInterface.value

/-- `StrictHardwareInterfaceHandle<T>::Value` -/
def StrictHardwareInterfaceHandle.value {V : Type} (hardwareInterface : Interface V)
    (iconState : IconState) : Except RealtimeStatus V :=
  checkedValue hardwareInterface iconState

/-- `MutableStrictHardwareInterfaceHandle<T>::Value` -/
def MutableStrictHardwareInterfaceHandle.value {V : Type} (hardwareInterface : Interface V)
    (iconState : IconState) : Except RealtimeStatus V :=
  checkedValue hardwareInterface iconState

/-! ## The system -/

/-- ICON, and the segments of the commands. -/
structure System (I V : Type) where
  /-- `CycleCounter::current_cycle_` -/
  currentCycle : UInt64
  iconState : IconState
  interfaces : I → Option (Interface V)
  /-- The value of the counter at the last update of a segment since its creation.  It is only
  there to be compared with what a handle finds out. -/
  updatedIn : I → Option UInt64

/-- What ICON does.  `IconState` is published in two steps, in either order. -/
inductive Op (I V : Type)
  | setCurrentCycle (cycle : UInt64)
  | incrementCurrentCycle
  /-- `mutate_current_cycle(CycleCounter::GetCurrentCycle())` -/
  | mutateCurrentCycle
  | iconStateUpdatedAt (time : Int64)
  /-- A segment is created, with a default value. -/
  | advertise (i : I) (value : V)
  /-- The content of a segment is changed through `MutableValue()`. -/
  | write (i : I) (value : V)
  | updatedAt (i : I) (time : Int64)

namespace System
variable {I V : Type}

/-- No segments but that of `IconState`. -/
def init : System I V := ⟨0, buildIconState, fun _ => none, fun _ => none⟩

variable [DecidableEq I]

/-- **The effect of an operation.** -/
def apply (s : System I V) : Op I V → Option (System I V)
  | .setCurrentCycle cycle => some { s with currentCycle := cycle }
  | .incrementCurrentCycle => some { s with currentCycle := s.currentCycle + 1 }
  | .mutateCurrentCycle =>
    some { s with iconState := { s.iconState with currentCycle := s.currentCycle.toInt64 } }
  | .iconStateUpdatedAt time =>
    some { s with iconState := { s.iconState with
      stamp := s.iconState.stamp.updatedAt time s.currentCycle } }
  | .advertise i value =>
    some { s with
      interfaces := Function.update s.interfaces i (some ⟨.init, value⟩)
      updatedIn := Function.update s.updatedIn i none }
  | .write i value =>
    (s.interfaces i).map fun hardwareInterface => { s with
      interfaces := Function.update s.interfaces i (some { hardwareInterface with value }) }
  | .updatedAt i time =>
    (s.interfaces i).map fun hardwareInterface => { s with
      interfaces := Function.update s.interfaces i (some { hardwareInterface with
        stamp := hardwareInterface.stamp.updatedAt time s.currentCycle })
      updatedIn := Function.update s.updatedIn i (some s.currentCycle) }

def Step (s : System I V) (op : Op I V) (s' : System I V) : Prop := s.apply op = some s'

end System

/-! ## Freshness -/

section Freshness
variable {I V : Type} {s s' : System I V} {i : I} {hardwareInterface : Interface V}

/-- **The segment is fresh**: it has been updated, and its last update was made while the counter
had the value that `IconState` publishes. -/
def Fresh (s : System I V) (i : I) : Prop :=
  ∃ cycle, s.updatedIn i = some cycle ∧ cycle.toInt64 = s.iconState.currentCycle

/-- **The invariant**: a stamp is that of the last update, or zero. -/
def Stamped (s : System I V) : Prop :=
  ∀ i hardwareInterface, s.interfaces i = some hardwareInterface →
    hardwareInterface.stamp.updatedAtCycle = (s.updatedIn i).getD 0

/-- A value is returned if the three numbers are equal. -/
theorem checkedValue_eq_ok_iff {iconState : IconState} {v : V} :
    checkedValue hardwareInterface iconState = .ok v ↔
      iconState.stamp.updatedAtCycle.toInt64 = iconState.currentCycle ∧
      hardwareInterface.stamp.updatedAtCycle.toInt64 = iconState.currentCycle ∧
      hardwareInterface.value = v := by
  unfold checkedValue wasUpdatedThisCycle
  by_cases hicon : iconState.stamp.updatedAtCycle.toInt64 = iconState.currentCycle
  · by_cases hcommand :
        hardwareInterface.stamp.updatedAtCycle.toInt64 = iconState.currentCycle
    · simp [hicon, hcommand]
    · simp [hicon, hcommand]
  · simp [hicon, RealtimeStatus.isOk]

/-- A segment that `Value()` lets through is fresh, unless it was never updated. -/
theorem fresh_of_checkedValue {v : V} (hstamped : Stamped s)
    (hi : s.interfaces i = some hardwareInterface)
    (hvalue : checkedValue hardwareInterface s.iconState = .ok v)
    (hupdated : s.updatedIn i ≠ none) : Fresh s i := by
  obtain ⟨-, hcommand, -⟩ := checkedValue_eq_ok_iff.mp hvalue
  obtain ⟨cycle, hcycle⟩ := Option.ne_none_iff_exists'.mp hupdated
  refine ⟨cycle, hcycle, ?_⟩
  rw [← hcommand, hstamped i hardwareInterface hi, hcycle, Option.getD_some]

/-- **When `Value()` returns only fresh data.** -/
theorem checkedValue_fresh_iff (hstamped : Stamped s)
    (hi : s.interfaces i = some hardwareInterface) :
    (∀ v, checkedValue hardwareInterface s.iconState = .ok v → Fresh s i) ↔
      (s.updatedIn i = none →
        ¬ (s.iconState.stamp.updatedAtCycle = 0 ∧ s.iconState.currentCycle = 0)) := by
  constructor
  · rintro hfresh hnone ⟨hstamp, hcycle⟩
    have hzero := hstamped i hardwareInterface hi
    rw [hnone, Option.getD_none] at hzero
    obtain ⟨cycle, hsome, -⟩ := hfresh hardwareInterface.value
      (checkedValue_eq_ok_iff.mpr ⟨by rw [hstamp, hcycle]; rfl, by rw [hzero, hcycle]; rfl, rfl⟩)
    cases hnone.symm.trans hsome
  · intro h v hvalue
    refine fresh_of_checkedValue hstamped hi hvalue fun hnone => ?_
    obtain ⟨hicon, hcommand, -⟩ := checkedValue_eq_ok_iff.mp hvalue
    rw [hstamped i hardwareInterface hi, hnone, Option.getD_none] at hcommand
    -- all three numbers are zero
    exact h hnone ⟨congrArg Int64.toUInt64 (hicon.trans hcommand.symm), hcommand.symm⟩

theorem stamped_init : Stamped (System.init : System I V) := nofun

variable [DecidableEq I]

/-- An update of a segment, or of what is known about it, preserves the invariant. -/
theorem Stamped.update (h : Stamped s) (updated : Interface V) (updatedIn : Option UInt64)
    (hstamp : updated.stamp.updatedAtCycle = updatedIn.getD 0) :
    Stamped { s with
      interfaces := Function.update s.interfaces i (some updated)
      updatedIn := Function.update s.updatedIn i updatedIn } := by
  intro j hardwareInterface hj
  dsimp only at hj ⊢
  by_cases hji : j = i
  · subst hji
    rw [Function.update_self] at hj ⊢
    cases hj
    exact hstamp
  · rw [Function.update_of_ne hji] at hj ⊢
    exact h j hardwareInterface hj

theorem Stamped.step {op : Op I V} (h : Stamped s) (hs : System.Step s op s') : Stamped s' := by
  cases op with
  | setCurrentCycle cycle =>
    cases hs
    exact h
  | incrementCurrentCycle =>
    cases hs
    exact h
  | mutateCurrentCycle =>
    cases hs
    exact h
  | iconStateUpdatedAt time =>
    cases hs
    exact h
  | advertise i value =>
    cases hs
    exact h.update ⟨.init, value⟩ none rfl
  | write i value =>
    obtain ⟨hardwareInterface, hi, rfl⟩ := Option.map_eq_some_iff.mp hs
    have hupdate := h.update (i := i) { hardwareInterface with value } (s.updatedIn i)
      (h i hardwareInterface hi)
    rwa [Function.update_eq_self] at hupdate
  | updatedAt i time =>
    obtain ⟨hardwareInterface, -, rfl⟩ := Option.map_eq_some_iff.mp hs
    exact h.update _ (some s.currentCycle) rfl

/-- **`Value()` of either class of strict handles returns only fresh data**, in every state that
ICON can reach, if and only if the segment has been updated since its creation, or cycle zero is
not the one in which `IconState` was last updated and which it publishes. -/
theorem value_fresh_iff {ops : List (Op I V)} (hrun : Run System.Step System.init ops s)
    (hi : s.interfaces i = some hardwareInterface) :
    ((∀ v, StrictHardwareInterfaceHandle.value hardwareInterface s.iconState = .ok v →
        Fresh s i) ∧
      ∀ v, MutableStrictHardwareInterfaceHandle.value hardwareInterface s.iconState = .ok v →
        Fresh s i) ↔
      (s.updatedIn i = none →
        ¬ (s.iconState.stamp.updatedAtCycle = 0 ∧ s.iconState.currentCycle = 0)) := by
  have hstamped : Stamped s := hrun.stateInvariant stamped_init fun _ _ _ h hs => h.step hs
  have hiff := checkedValue_fresh_iff hstamped hi
  exact ⟨fun h => hiff.mp h.1, fun h => ⟨hiff.mpr h, hiff.mpr h⟩⟩

end Freshness

/-- A cycle is published, and a command is updated in it. -/
theorem value_fresh_updated :
    let updated : Interface Nat := ⟨UpdateStamp.init.updatedAt 8 1, 7⟩
    ∃ s : System Unit Nat,
      Run System.Step System.init
        [.setCurrentCycle 1, .iconStateUpdatedAt 8, .mutateCurrentCycle, .advertise () 7,
          .updatedAt () 8] s ∧
      StrictHardwareInterfaceHandle.value updated s.iconState = .ok 7 ∧ Fresh s () := by
  intro updated
  obtain ⟨s, hrun, hi, hstamp, hvalue⟩ : ∃ s : System Unit Nat,
      Run System.Step System.init
        [.setCurrentCycle 1, .iconStateUpdatedAt 8, .mutateCurrentCycle, .advertise () 7,
          .updatedAt () 8] s ∧
      s.interfaces () = some updated ∧ s.iconState.stamp.updatedAtCycle = 1 ∧
      StrictHardwareInterfaceHandle.value updated s.iconState = .ok 7 := by
    refine ⟨_, .cons rfl (.cons rfl (.cons rfl (.cons rfl (.single rfl)))), ?_⟩
    exact ⟨rfl, rfl, rfl⟩
  refine ⟨s, hrun, hvalue, ((value_fresh_iff hrun hi).mpr fun _ hzero => ?_).1 7 hvalue⟩
  exact absurd (hstamp.symm.trans hzero.1) (by decide)

/-- **A segment that was never updated is let through in cycle zero**, which `IconState`
publishes before the counter is incremented for the first time. -/
theorem value_never_updated : ∃ s : System Unit Nat,
    Run System.Step System.init [.advertise () 0, .iconStateUpdatedAt 8, .mutateCurrentCycle] s ∧
    s.interfaces () = some ⟨.init, 0⟩ ∧ s.updatedIn () = none ∧
    StrictHardwareInterfaceHandle.value ⟨.init, 0⟩ s.iconState = .ok 0 ∧
    MutableStrictHardwareInterfaceHandle.value ⟨.init, 0⟩ s.iconState = .ok 0 :=
  ⟨_, .cons rfl (.cons rfl (.single rfl)), rfl, rfl, rfl, rfl⟩

end Intrinsic.StrictHandles
