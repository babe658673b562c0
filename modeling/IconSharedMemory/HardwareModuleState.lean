import IconSharedMemory.Futex

/-! # The state of a hardware module

A hardware module publishes its state to ICON as a code and a message
(`HardwareModuleState`, `icon/hal/interfaces`).  Which codes may follow each other
is fixed by one function, `HardwareModuleTransitionGuard`
(`icon/hal/hardware_module_util.cc`); everything that changes the state asks it
first.
-/
namespace Intrinsic

/-- `StateCode` -/
inductive StateCode
  | deactivated | deactivating | activated | activating | motionEnabled | motionEnabling
  | motionDisabling | faulted | clearingFaults | initFailed | fatallyFaulted | preparing
  | prepared
  deriving DecidableEq, Repr

/-- `EnumNameStateCode(code)` -/
def StateCode.enumName : StateCode → List UInt8
  | .deactivated => ascii "kDeactivated"
  | .deactivating => ascii "kDeactivating"
  | .activated => ascii "kActivated"
  | .activating => ascii "kActivating"
  | .motionEnabled => ascii "kMotionEnabled"
  | .motionEnabling => ascii "kMotionEnabling"
  | .motionDisabling => ascii "kMotionDisabling"
  | .faulted => ascii "kFaulted"
  | .clearingFaults => ascii "kClearingFaults"
  | .initFailed => ascii "kInitFailed"
  | .fatallyFaulted => ascii "kFatallyFaulted"
  | .preparing => ascii "kPreparing"
  | .prepared => ascii "kPrepared"

/-- `TransitionGuardResult` -/
inductive TransitionGuardResult
  | allowed | noOp | prohibited
  deriving DecidableEq, Repr

/-- `HardwareModuleTransitionGuard(from, to)` -/
def hardwareModuleTransitionGuard (source target : StateCode) : TransitionGuardResult :=
  if source = target then .noOp
  else if target = .fatallyFaulted then .allowed
  else
    match source, target with
    | .preparing, .prepared | .preparing, .faulted => .allowed
    | .prepared, .activating | .prepared, .deactivating => .allowed
    | .deactivating, .deactivated => .allowed
    | .deactivated, .deactivating => .noOp
    | .deactivated, .preparing | .deactivated, .initFailed => .allowed
    | .activating, .activated => .allowed
    | .activated, .motionDisabling | .activated, .clearingFaults => .noOp
    | .activated, .motionEnabling | .activated, .deactivating | .activated, .faulted => .allowed
    | .motionEnabling, .deactivating | .motionEnabling, .motionEnabled
    | .motionEnabling, .faulted => .allowed
    | .motionEnabled, .motionEnabling | .motionEnabled, .clearingFaults => .noOp
    | .motionEnabled, .motionDisabling | .motionEnabled, .faulted
    | .motionEnabled, .deactivating => .allowed
    | .motionDisabling, .faulted | .motionDisabling, .activated
    | .motionDisabling, .deactivating => .allowed
    | .faulted, .clearingFaults | .faulted, .deactivating => .allowed
    | .clearingFaults, .deactivating | .clearingFaults, .faulted
    | .clearingFaults, .activated => .allowed
    | _, _ => .prohibited

section Guard
variable {source target : StateCode}

theorem guard_self (source : StateCode) : hardwareModuleTransitionGuard source source = .noOp :=
  if_pos rfl

/-- What is allowed is a change. -/
theorem ne_of_guard_allowed (h : hardwareModuleTransitionGuard source target = .allowed) :
    source ≠ target := by
  rintro rfl
  rw [guard_self] at h
  cases h

/-- A fatal fault is final. -/
theorem guard_from_fatallyFaulted (target : StateCode) :
    hardwareModuleTransitionGuard .fatallyFaulted target ≠ .allowed := by
  cases target <;> decide

/-- After a failed initialisation only a fatal fault can follow. -/
theorem eq_fatallyFaulted_of_guard_initFailed
    (h : hardwareModuleTransitionGuard .initFailed target = .allowed) :
    target = .fatallyFaulted := by
  revert h
  cases target <;> decide

/-- The only way into `kMotionEnabled`. -/
theorem eq_motionEnabling_of_guard
    (h : hardwareModuleTransitionGuard source .motionEnabled = .allowed) :
    source = .motionEnabling := by
  revert h
  cases source <;> decide

end Guard

/-! ## The published state -/

/-- The size of the message array, its terminator included. -/
def kMaxFaultReasonLength : Nat := 256

/-- `HardwareModuleState`: the code and the bytes of the message array. -/
structure HardwareModuleState where
  code : StateCode
  message : List UInt8
  sized : message.length = kMaxFaultReasonLength
  deriving DecidableEq

namespace HardwareModuleState

/-- A default-constructed state. -/
def init : HardwareModuleState :=
  ⟨.deactivated, List.replicate kMaxFaultReasonLength 0, List.length_replicate⟩

/-- The array after `SetState` copied a message into it: what fits is copied, the rest is
zeroed, and the last byte is always zero. -/
def fill (message : List UInt8) : List UInt8 :=
  let copied := message.take (kMaxFaultReasonLength - 1)
  copied ++ List.replicate (kMaxFaultReasonLength - copied.length) 0

theorem length_fill (message : List UInt8) : (fill message).length = kMaxFaultReasonLength := by
  have hle : (message.take (kMaxFaultReasonLength - 1)).length ≤ kMaxFaultReasonLength := by
    rw [List.length_take]
    omega
  rw [fill, List.length_append, List.length_replicate]
  omega

/-- `SetState(state, code, message)` -/
def setState (code : StateCode) (message : List UInt8) : HardwareModuleState :=
  ⟨code, fill message, length_fill message⟩

/-- `GetMessage(state)`: the array read as a C string. -/
def getMessage (s : HardwareModuleState) : List UInt8 := s.message.takeWhile (· ≠ 0)

end HardwareModuleState

end Intrinsic
