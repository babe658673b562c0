import IconSharedMemory.Runs
import IconSharedMemory.AsyncBuffer
import IconSharedMemory.HardwareModuleState

/-! # The callback handler

`HardwareModuleRuntime::CallbackHandler` (`icon/hal/hardware_module_runtime.cc`)
stands between ICON's triggers and the hardware module.  It keeps the published
state, asks the transition guard before every change, and lets the actions that
take long (enabling and disabling motion, clearing faults) change the state only
through a queue of requests that the real-time callback `OnReadStatus` works off.

The model is the pool of all threads that run callbacks of one handler.  A step is
one access to what the threads share: a load or store of an atomic, one call of the
queue's reader or writer, one call of the module, or one `SetStateDirectly`.  The
last is one step because its executions may not overlap, which is its documented
use; the module's hook `Disabled()` that it calls is part of the step.  The module's
methods return whatever they like, and a wait may time out whenever it likes.

The queue is the first-in-first-out queue that `RtQueueBuffer` implements, with the
flag that its checks are about.  The step that would fail such a check, or read
through the null pointer `Front` returns for an empty queue, is not there: the
process ends at that point.  A request's promise is the number of the request, and
`replies` holds what the promise was set to.
-/
namespace Intrinsic.CallbackHandler
open Runs

/-! ## Data -/

/-- The methods of `HardwareModuleInterface` that the handler calls. -/
inductive Method
  | prepare | activate | deactivate | enableMotion | disableMotion | clearFaults
  | enabled | disabled | readStatus | applyCommand
  deriving DecidableEq, Repr

/-- The three callbacks that go through the request queue. -/
inductive Action
  | enableMotion | disableMotion | clearFaults
  deriving DecidableEq, Repr

namespace Action

def method : Action → Method
  | .enableMotion => .enableMotion
  | .disableMotion => .disableMotion
  | .clearFaults => .clearFaults

/-- The state while the module's method runs. -/
def intermediate : Action → StateCode
  | .enableMotion => .motionEnabling
  | .disableMotion => .motionDisabling
  | .clearFaults => .clearingFaults

/-- The state after the method was successful. -/
def completed : Action → StateCode
  | .enableMotion => .motionEnabled
  | .disableMotion => .activated
  | .clearFaults => .activated

end Action

/-- The state after an error: `kAborted` says that the fault is fatal. -/
def faultState (code : StatusCode) : StateCode :=
  if code = .aborted then .fatallyFaulted else .faulted

/-- `AsyncRequestData`, with the number of the promise that goes with it. -/
structure Request where
  id : Nat
  source : StateCode
  target : StateCode
  message : List UInt8
  timestamp : Nat
  deriving DecidableEq

/-- What `SetStateAndWait` was asked for.  `first` is the number of the action's first
request when this is the request that completes the action. -/
structure Ask where
  action : Action
  first : Option Nat
  source : StateCode
  target : StateCode
  reason : List UInt8

namespace Ask

/-- An action asks for its intermediate state, from the state it has loaded. -/
def begin (a : Action) (loaded : StateCode) : Ask := ⟨a, none, loaded, a.intermediate, []⟩

/-- An action asks for the state that its method's result calls for. -/
def complete (a : Action) (id : Nat) (st : Status) : Ask :=
  if st.isOk then ⟨a, some id, a.intermediate, a.completed, []⟩
  else ⟨a, some id, a.intermediate, faultState st.code, st.message⟩

def request (q : Ask) (id timestamp : Nat) : Request :=
  ⟨id, q.source, q.target, HardwareModuleState.fill q.reason, timestamp⟩

end Ask

def kMaxPendingRequests : Nat := 10

/-- The members of a `CallbackHandler` that its callbacks share, and the clock. -/
structure Shared where
  /-- `hardware_module_state_code_` -/
  stateCode : StateCode
  /-- `previous_cycle_hardware_module_state_code_` -/
  previousCycle : StateCode
  /-- `hardware_module_state_update_time_` -/
  updateTime : Nat
  /-- `shared_memory_hardware_module_state_` -/
  sharedMemory : HardwareModuleState
  hwmStateBuffer : AsyncBuffer HardwareModuleState
  rejectNewRequests : Bool
  requestQueue : List Request
  /-- The queue's `front_accessed_`. -/
  frontAccessed : Bool
  /-- The promises that have been set, and to what. -/
  replies : Nat → Option RealtimeStatus
  /-- The number of the next request. -/
  nextId : Nat
  actionLock : Bool
  nonRtBufferLock : Bool
  /-- No later call of `Now()` returns less than this. -/
  clock : Nat

namespace Shared

/-! ## Setting the state -/

/-- `CheckAndTriggerDisabledTransitionHook(from)`, when `Disabled()` returns `disabled`. -/
def checkAndTriggerDisabledTransitionHook (source : StateCode) (disabled : RealtimeStatus) :
    RealtimeStatus :=
  if source = .motionEnabled then disabled else rtOkStatus

/-- The end of `SetStateDirectly`: the code, the time, the shared memory and the buffer. -/
def store (s : Shared) (now : Nat) (state : StateCode) (status : RealtimeStatus) :
    Bool × Shared :=
  let (free, buffer) := s.hwmStateBuffer.getFreeBuffer
  let (committed, buffer) :=
    (buffer.write free (.setState state status.getMessage)).commitFreeBuffer
  (committed, { s with
    stateCode := state
    updateTime := now
    sharedMemory := .setState state status.getMessage
    hwmStateBuffer := buffer
    clock := now })

/-- `SetStateDirectly(state, status, force)`, when `Now()` returns `now` and `Disabled()`,
if it is called, returns `disabled`. -/
def setStateDirectly (s : Shared) (disabled : RealtimeStatus) (now : Nat) (state : StateCode)
    (status : RealtimeStatus) (force : Bool) : Bool × Shared :=
  if force = false ∧ hardwareModuleTransitionGuard s.stateCode state ≠ .allowed then (false, s)
  else if s.stateCode = state ∧ s.sharedMemory.getMessage = status.getMessage then (false, s)
  else if s.stateCode = state then
    ((s.store now state status).1 && false, (s.store now state status).2)
  else
    let hookStatus := checkAndTriggerDisabledTransitionHook s.stateCode disabled
    if hookStatus.isOk = false ∧ state ≠ .initFailed ∧ state ≠ .fatallyFaulted ∧
        state ≠ .faulted then
      s.store now .faulted (formatRealtimeStatus hookStatus.code
        (ascii "Disabled() failed: " ++ hookStatus.getMessage))
    else s.store now state status

/-- A call of `SetStateDirectly` without force calls `Disabled()`. -/
def triggersDisabled (s : Shared) (state : StateCode) : Bool :=
  hardwareModuleTransitionGuard s.stateCode state = .allowed && s.stateCode = .motionEnabled

/-- A handler before its constructor's body. -/
def members (now : Nat) : Shared where
  stateCode := .deactivated
  previousCycle := .deactivated
  updateTime := now
  sharedMemory := .init
  hwmStateBuffer := .make fun _ => .init
  rejectNewRequests := false
  requestQueue := []
  frontAccessed := false
  replies := fun _ => none
  nextId := 0
  actionLock := false
  nonRtBufferLock := false
  clock := now

/-- A new handler. -/
def init (now : Nat) : Shared :=
  ((members now).setStateDirectly rtOkStatus now .deactivated rtOkStatus true).2

/-- `GetHardwareModuleState()`: without news in the buffer it returns a default state. -/
def getHardwareModuleState (s : Shared) : HardwareModuleState × Shared :=
  let ((full, active), buffer) := s.hwmStateBuffer.getActiveBuffer
  (if full then buffer.buffers active else .init, { s with hwmStateBuffer := buffer })

end Shared

/-! ## Program points -/

/-- The callers of `SetStateDirectly`; `nested` says that `OnDeactivate` was called by
`OnPrepare`. -/
inductive Site
  | deactivating (nested : Bool)
  | deactivated (nested : Bool)
  | preparing
  | prepared
  | activating
  | activated
  /-- `ProcessNextPendingRequest`, for the request it has taken. -/
  | process (r : Request)
  /-- `Enabled()` has failed. -/
  | enabledHook
  | readStatus
  | applyCommand
  /-- The initialisation in `HardwareModuleRuntime::Run` has failed. -/
  | initFailed

/-- The callers of `CancelPendingRequests`. -/
inductive Canceller
  | prepare
  | activate
  | deactivate (nested : Bool)
  | readStatus
  | applyCommand
  | shutdown

def Canceller.reason : Canceller → List UInt8
  | .prepare => ascii "Request cancelled by a call to Prepare()"
  | .activate => ascii "Request cancelled due to activation"
  | .deactivate _ => ascii "Request cancelled due to deactivation"
  | .readStatus => ascii "Request cancelled due to error in ReadStatus"
  | .applyCommand => ascii "Request cancelled due to error in ApplyCommand"
  | .shutdown => ascii "Request cancelled due to shutdown"

/-- The calls of the module that return a `Status`. -/
inductive StatusCall
  | prepare
  /-- The action whose first request had this number. -/
  | action (a : Action) (first : Nat)

/-- The calls of the module that return a `RealtimeStatus`. -/
inductive RealtimeCall
  | activate
  | deactivate (nested : Bool)
  | enabled
  | readStatus
  | applyCommand

def StatusCall.method : StatusCall → Method
  | .prepare => .prepare
  | .action a _ => a.method

def RealtimeCall.method : RealtimeCall → Method
  | .activate => .activate
  | .deactivate _ => .deactivate
  | .enabled => .enabled
  | .readStatus => .readStatus
  | .applyCommand => .applyCommand

/-- Where a thread is: named after the step that follows. -/
inductive Pc
  | idle
  /-- `SetStateDirectly(state, status)` -/
  | setState (site : Site) (state : StateCode) (status : RealtimeStatus)
  | statusCall (k : StatusCall)
  | realtimeCall (k : RealtimeCall)
  /-- `OnPrepare` loads the state. -/
  | prepareLoad
  /-- `OnDeactivate` makes the handler reject new requests. -/
  | rejectRequests (nested : Bool)
  /-- `OnActivate` makes the handler accept requests again. -/
  | acceptRequests
  /-- `CancelPendingRequests`: `Empty()` -/
  | cancelEmpty (k : Canceller)
  | cancelFront (k : Canceller)
  | cancelRespond (k : Canceller) (r : Request)
  | cancelDrop (k : Canceller)
  /-- An action takes `action_lock_`. -/
  | actionLock (a : Action)
  | actionLoad (a : Action)
  /-- `SetStateAndWait` asks the guard. -/
  | requestGuard (q : Ask)
  /-- `SetStateAndWait` takes `non_rt_buffer_lock_` and loads `reject_new_requests_`. -/
  | requestLock (q : Ask)
  /-- `SetStateAndWait` calls `Now()`. -/
  | requestStamp (q : Ask)
  | requestInsert (q : Ask) (timestamp : Nat)
  /-- `WaitForAndGet` on the future of the request with this number. -/
  | requestWait (q : Ask) (id : Nat)
  | actionUnlock
  /-- `ProcessNextPendingRequest` stores the state of the previous cycle. -/
  | processStore
  | processEmpty
  | processFront
  | processDrop (r : Request)
  /-- `ProcessNextPendingRequest` compares the request with the state. -/
  | processCheck (r : Request)
  | processRespond (r : Request) (reply : RealtimeStatus)
  /-- `OnReadStatus` loads the two codes for `CheckAndTriggerEnabledTransitionHook`. -/
  | enabledLoad
  /-- `ReadStatus()` has failed; `OnReadStatus` loads the state. -/
  | readStatusLoad (st : RealtimeStatus)
  /-- `OnApplyCommand` loads the state. -/
  | applyLoad
  | shutdownLock
  | shutdownReject

/-- Where `OnDeactivate` returns to. -/
def afterDeactivate (nested : Bool) : Pc :=
  if nested then .setState .preparing .preparing rtOkStatus else .idle

/-- Where a caller of `SetStateDirectly` goes on, by what that returned. -/
def Site.next : Site → Bool → Pc
  | .deactivating nested, changed =>
    if changed then .rejectRequests nested else afterDeactivate nested
  | .deactivated nested, _ => afterDeactivate nested
  | .preparing, changed => if changed then .cancelEmpty .prepare else .idle
  | .prepared, _ => .idle
  | .activating, changed => if changed then .cancelEmpty .activate else .idle
  | .activated, _ => .acceptRequests
  | .process r, changed => .processRespond r
      (if changed then rtOkStatus
      else formatRealtimeStatus .failedPrecondition
        (ascii "Transition from " ++ r.source.enumName ++ ascii " to " ++ r.target.enumName ++
          ascii " is prohibited!"))
  | .enabledHook, _ => .realtimeCall .readStatus
  | .readStatus, changed => if changed then .cancelEmpty .readStatus else .idle
  | .applyCommand, changed => if changed then .cancelEmpty .applyCommand else .idle
  | .initFailed, _ => .idle

/-- Where a caller of `CancelPendingRequests` goes on. -/
def Canceller.next : Canceller → Pc
  | .prepare => .statusCall .prepare
  | .activate => .realtimeCall .activate
  | .deactivate nested => .realtimeCall (.deactivate nested)
  | .readStatus | .applyCommand | .shutdown => .idle

/-- What `Shutdown` does after `CancelPendingRequests`. -/
def Canceller.release : Canceller → Shared → Shared
  | .shutdown, s => { s with nonRtBufferLock := false }
  | _, s => s

/-- Where a callback goes on after the module has returned a `Status`. -/
def StatusCall.next : StatusCall → Status → Pc
  | .prepare, st =>
    if st.isOk then .setState .prepared .prepared rtOkStatus
    else .setState .prepared .fatallyFaulted (formatRealtimeStatus st.code st.message)
  | .action a first, st => .requestGuard (.complete a first st)

/-- Where a callback goes on after the module has returned a `RealtimeStatus`. -/
def RealtimeCall.next : RealtimeCall → RealtimeStatus → Pc
  | .activate, st =>
    if st.isOk then .setState .activated .activated rtOkStatus
    else .setState .activated .fatallyFaulted st
  | .deactivate nested, st =>
    if st.isOk then .setState (.deactivated nested) .deactivated rtOkStatus
    else .setState (.deactivated nested) .fatallyFaulted st
  | .enabled, st =>
    if st.isOk then .realtimeCall .readStatus
    else .setState .enabledHook .faulted (formatRealtimeStatus st.code
      (ascii "Enabled() callback failed: " ++ st.getMessage))
  | .readStatus, st => if st.isOk then .idle else .readStatusLoad st
  | .applyCommand, st =>
    if st.isOk then .idle else .setState .applyCommand (faultState st.code) st

/-- Where an action goes on after `SetStateAndWait` returned `ok` for the request `id`. -/
def Ask.next (q : Ask) (id : Nat) (ok : Bool) : Pc :=
  match q.first, ok with
  | none, true => .statusCall (.action q.action id)
  | _, _ => .actionUnlock

/-- `OnPrepare` deactivates the module first when it is in one of these states. -/
def deactivatesFirst : StateCode → Bool
  | .activated | .motionEnabled | .motionEnabling | .motionDisabling | .faulted
  | .clearingFaults | .preparing => true
  | _ => false

/-- The callbacks, and the other members that a thread can call. -/
inductive Callback
  | prepare | activate | deactivate | action (a : Action) | readStatus | applyCommand | shutdown
  /-- `SetStateDirectly(kInitFailed, …)` from `HardwareModuleRuntime::Run`. -/
  | initFailed (st : Status)

/-- The first step of a callback. -/
def Callback.entry : Callback → Pc
  | .prepare => .prepareLoad
  | .activate => .setState .activating .activating rtOkStatus
  | .deactivate => .setState (.deactivating false) .deactivating rtOkStatus
  | .action a => .actionLock a
  | .readStatus => .processStore
  | .applyCommand => .applyLoad
  | .shutdown => .shutdownLock
  | .initFailed st =>
    .setState .initFailed .initFailed (formatRealtimeStatus st.code st.message)

/-! ## Steps -/

/-- What a step shows. -/
inductive Label
  | internal
  | start (cb : Callback)
  /-- `SetStateDirectly` found the first state, left the second and returned `changed`;
  `disabled` is what `Disabled()` returned if it was called. -/
  | setState (site : Site) (before after : StateCode) (changed : Bool)
      (disabled : Option StatusCode)
  /-- The module was called and returned a status with this code. -/
  | call (m : Method) (code : StatusCode)
  /-- `Empty()` returned this. -/
  | empty (isEmpty : Bool)
  | front (r : Request)
  | dropFront
  /-- `SetResponse` -/
  | respond (id : Nat) (reply : RealtimeStatus)
  /-- A request was inserted; `first` is as in `Ask`. -/
  | insert (r : Request) (first : Option Nat)
  /-- `ProcessNextPendingRequest` found the request up to date, or not. -/
  | check (r : Request) (fresh : Bool)
  /-- `SetStateAndWait` returned `ok` for the request with this number. -/
  | waited (id : Nat) (ok : Bool)
  /-- `GetHardwareModuleState` returned this. -/
  | gotState (st : HardwareModuleState)

/-- The calls of the module in a step. -/
def Label.calls : Label → List Method
  | .setState _ _ _ _ (some _) => [.disabled]
  | .call m _ => [m]
  | _ => []

/-- `ProcessNextPendingRequest`'s condition for applying a request. -/
def Shared.fresh (s : Shared) (r : Request) : Bool :=
  s.updateTime ≤ r.timestamp && r.source = s.stateCode

/-- The status that `ProcessNextPendingRequest` sets the state with. -/
def Request.status (r : Request) : RealtimeStatus :=
  formatRealtimeStatus .unknown (r.message.takeWhile (· ≠ 0))

/-- A promise is set. -/
def Shared.respond (s : Shared) (id : Nat) (reply : RealtimeStatus) : Shared :=
  { s with replies := Function.update s.replies id (some reply) }

/-- `DropFront()` -/
def Shared.dropFront (s : Shared) : Shared :=
  { s with requestQueue := s.requestQueue.tail, frontAccessed := false }

/-- The label of a `SetStateDirectly`. -/
def Shared.setStateLabel (s : Shared) (site : Site) (disabled : RealtimeStatus)
    (state : StateCode) (result : Bool × Shared) : Label :=
  .setState site s.stateCode result.2.stateCode result.1
    (if s.triggersDisabled state then some disabled.code else none)

/-- One atomic step of a thread that is at the program point it starts from. -/
inductive Atom : Shared → Pc → Label → Shared → Pc → Prop
  | start {s : Shared} (cb : Callback) : Atom s .idle (.start cb) s cb.entry
  | setState {s : Shared} {site : Site} {state : StateCode} {status : RealtimeStatus}
      (disabled : RealtimeStatus) (now : Nat) (hnow : s.clock ≤ now) :
      Atom s (.setState site state status)
        (s.setStateLabel site disabled state
          (s.setStateDirectly disabled now state status false))
        (s.setStateDirectly disabled now state status false).2
        (site.next (s.setStateDirectly disabled now state status false).1)
  | statusCall {s : Shared} {k : StatusCall} (st : Status) :
      Atom s (.statusCall k) (.call k.method st.code) s (k.next st)
  | realtimeCall {s : Shared} {k : RealtimeCall} (st : RealtimeStatus) :
      Atom s (.realtimeCall k) (.call k.method st.code) s (k.next st)
  | prepareLoad {s : Shared} :
      Atom s .prepareLoad .internal s
        (if deactivatesFirst s.stateCode then
          .setState (.deactivating true) .deactivating rtOkStatus
        else .setState .preparing .preparing rtOkStatus)
  | rejectRequests {s : Shared} {nested : Bool} :
      Atom s (.rejectRequests nested) .internal { s with rejectNewRequests := true }
        (.cancelEmpty (.deactivate nested))
  | acceptRequests {s : Shared} :
      Atom s .acceptRequests .internal { s with rejectNewRequests := false } .idle
  | cancelDone {s : Shared} {k : Canceller} (hempty : s.requestQueue = []) :
      Atom s (.cancelEmpty k) (.empty true) (k.release s) k.next
  | cancelMore {s : Shared} {k : Canceller} (hmore : s.requestQueue ≠ []) :
      Atom s (.cancelEmpty k) (.empty false) s (.cancelFront k)
  | cancelFront {s : Shared} {k : Canceller} {r : Request} {rest : List Request}
      (hcheck : s.frontAccessed = false) (hqueue : s.requestQueue = r :: rest) :
      Atom s (.cancelFront k) (.front r) { s with frontAccessed := true } (.cancelRespond k r)
  | cancelRespond {s : Shared} {k : Canceller} {r : Request} :
      Atom s (.cancelRespond k r)
        (.respond r.id (formatRealtimeStatus .cancelled k.reason))
        (s.respond r.id (formatRealtimeStatus .cancelled k.reason)) (.cancelDrop k)
  | cancelDrop {s : Shared} {k : Canceller} (hcheck : s.frontAccessed = true) :
      Atom s (.cancelDrop k) .dropFront s.dropFront (.cancelEmpty k)
  | actionLock {s : Shared} {a : Action} (hfree : s.actionLock = false) :
      Atom s (.actionLock a) .internal { s with actionLock := true } (.actionLoad a)
  | actionLoad {s : Shared} {a : Action} :
      Atom s (.actionLoad a) .internal s (.requestGuard (.begin a s.stateCode))
  | requestRefused {s : Shared} {q : Ask}
      (hguard : hardwareModuleTransitionGuard q.source q.target ≠ .allowed) :
      Atom s (.requestGuard q) .internal s .actionUnlock
  | requestAllowed {s : Shared} {q : Ask}
      (hguard : hardwareModuleTransitionGuard q.source q.target = .allowed) :
      Atom s (.requestGuard q) .internal s (.requestLock q)
  | requestRejected {s : Shared} {q : Ask} (hfree : s.nonRtBufferLock = false)
      (hreject : s.rejectNewRequests = true) :
      Atom s (.requestLock q) .internal s .actionUnlock
  | requestLock {s : Shared} {q : Ask} (hfree : s.nonRtBufferLock = false)
      (hreject : s.rejectNewRequests = false) :
      Atom s (.requestLock q) .internal { s with nonRtBufferLock := true } (.requestStamp q)
  | requestStamp {s : Shared} {q : Ask} (now : Nat) (hnow : s.clock ≤ now) :
      Atom s (.requestStamp q) .internal { s with clock := now } (.requestInsert q now)
  | requestFull {s : Shared} {q : Ask} {now : Nat}
      (hfull : ¬ s.requestQueue.length < kMaxPendingRequests) :
      Atom s (.requestInsert q now) .internal { s with nonRtBufferLock := false } .actionUnlock
  | requestInsert {s : Shared} {q : Ask} {now : Nat}
      (hroom : s.requestQueue.length < kMaxPendingRequests) :
      Atom s (.requestInsert q now) (.insert (q.request s.nextId now) q.first)
        { s with
          requestQueue := s.requestQueue ++ [q.request s.nextId now]
          nextId := s.nextId + 1
          nonRtBufferLock := false }
        (.requestWait q s.nextId)
  | requestAnswered {s : Shared} {q : Ask} {id : Nat} {reply : RealtimeStatus}
      (hreply : s.replies id = some reply) :
      Atom s (.requestWait q id) (.waited id reply.isOk) s (q.next id reply.isOk)
  -- the timeout, or another error of the wait; it may come whatever has happened by then
  | requestGivenUp {s : Shared} {q : Ask} {id : Nat} :
      Atom s (.requestWait q id) (.waited id false) s (q.next id false)
  | actionUnlock {s : Shared} :
      Atom s .actionUnlock .internal { s with actionLock := false } .idle
  | processStore {s : Shared} :
      Atom s .processStore .internal { s with previousCycle := s.stateCode } .processEmpty
  | processNothing {s : Shared} (hempty : s.requestQueue = []) :
      Atom s .processEmpty (.empty true) s .enabledLoad
  | processEmpty {s : Shared} (hmore : s.requestQueue ≠ []) :
      Atom s .processEmpty (.empty false) s .processFront
  | processFront {s : Shared} {r : Request} {rest : List Request}
      (hcheck : s.frontAccessed = false) (hqueue : s.requestQueue = r :: rest) :
      Atom s .processFront (.front r) { s with frontAccessed := true } (.processDrop r)
  | processDrop {s : Shared} {r : Request} (hcheck : s.frontAccessed = true) :
      Atom s (.processDrop r) .dropFront s.dropFront (.processCheck r)
  | processFresh {s : Shared} {r : Request} (hfresh : s.fresh r = true) :
      Atom s (.processCheck r) (.check r true) s (.setState (.process r) r.target r.status)
  | processStale {s : Shared} {r : Request} (hfresh : s.fresh r = false) :
      Atom s (.processCheck r) (.check r false) s
        (.processRespond r (formatRealtimeStatus .cancelled
          (ascii "Request cancelled due to newer request")))
  | processRespond {s : Shared} {r : Request} {reply : RealtimeStatus} :
      Atom s (.processRespond r reply) (.respond r.id reply) (s.respond r.id reply) .enabledLoad
  | enabledLoad {s : Shared} :
      Atom s .enabledLoad .internal s
        (if s.previousCycle = .motionEnabling ∧ s.stateCode = .motionEnabled then
          .realtimeCall .enabled
        else .realtimeCall .readStatus)
  | readStatusLoad {s : Shared} {st : RealtimeStatus} :
      Atom s (.readStatusLoad st) .internal s
        (if s.stateCode = .clearingFaults then .idle
        else .setState .readStatus (faultState st.code) st)
  | applyLoad {s : Shared} :
      Atom s .applyLoad .internal s
        (if s.stateCode = .motionDisabling then .idle
        else if s.stateCode ≠ .motionEnabled then
          .setState .applyCommand .faulted (formatRealtimeStatus .failedPrecondition
            (ascii "PUBLIC: 'ApplyCommand' called while not enabled."))
        else .realtimeCall .applyCommand)
  | shutdownLock {s : Shared} (hfree : s.nonRtBufferLock = false) :
      Atom s .shutdownLock .internal { s with nonRtBufferLock := true } .shutdownReject
  | shutdownReject {s : Shared} :
      Atom s .shutdownReject .internal { s with rejectNewRequests := true }
        (.cancelEmpty .shutdown)
  | getState {s : Shared} (hfree : s.nonRtBufferLock = false) :
      Atom s .idle (.gotState s.getHardwareModuleState.1) s.getHardwareModuleState.2 .idle

/-- A handler and the threads that run its callbacks. -/
abbrev Config (Tid : Type) := Pool Tid Shared Pc

/-- A new handler; no callback has been called. -/
def initial (Tid : Type) (now : Nat) : Config Tid := ⟨.init now, fun _ => .idle⟩

section Step
variable {Tid : Type} [DecidableEq Tid]

/-- **One step of the handler.**  `ok` is what the callers of the callbacks promise. -/
abbrev Step (ok : Config Tid → Tid → Label → Prop) :
    Config Tid → Tid × Label → Config Tid → Prop :=
  Pool.Step Atom ok

end Step

/-! ## Which callback a thread is in -/

/-- The callbacks, the three actions taken together. -/
inductive Task
  | prepare | activate | deactivate | action | readStatus | applyCommand | shutdown | initFailed
  deriving DecidableEq, Repr

def Callback.task : Callback → Task
  | .prepare => .prepare
  | .activate => .activate
  | .deactivate => .deactivate
  | .action _ => .action
  | .readStatus => .readStatus
  | .applyCommand => .applyCommand
  | .shutdown => .shutdown
  | .initFailed _ => .initFailed

/-- A nested `OnDeactivate` belongs to `OnPrepare`. -/
def deactivateTask (nested : Bool) : Task := if nested then .prepare else .deactivate

def Site.task : Site → Task
  | .deactivating nested | .deactivated nested => deactivateTask nested
  | .preparing | .prepared => .prepare
  | .activating | .activated => .activate
  | .process _ | .enabledHook | .readStatus => .readStatus
  | .applyCommand => .applyCommand
  | .initFailed => .initFailed

def Canceller.task : Canceller → Task
  | .prepare => .prepare
  | .activate => .activate
  | .deactivate nested => deactivateTask nested
  | .readStatus => .readStatus
  | .applyCommand => .applyCommand
  | .shutdown => .shutdown

def StatusCall.task : StatusCall → Task
  | .prepare => .prepare
  | .action _ _ => .action

def RealtimeCall.task : RealtimeCall → Task
  | .activate => .activate
  | .deactivate nested => deactivateTask nested
  | .enabled | .readStatus => .readStatus
  | .applyCommand => .applyCommand

/-- The callback a thread is in. -/
def Pc.task : Pc → Option Task
  | .idle => none
  | .setState site _ _ => some site.task
  | .statusCall k => some k.task
  | .realtimeCall k => some k.task
  | .prepareLoad => some .prepare
  | .rejectRequests nested => some (deactivateTask nested)
  | .acceptRequests => some .activate
  | .cancelEmpty k | .cancelFront k | .cancelRespond k _ | .cancelDrop k => some k.task
  | .actionLock _ | .actionLoad _ | .requestGuard _ | .requestLock _ | .requestStamp _
  | .requestInsert _ _ | .requestWait _ _ | .actionUnlock => some .action
  | .processStore | .processEmpty | .processFront | .processDrop _ | .processCheck _
  | .processRespond _ _ | .enabledLoad | .readStatusLoad _ => some .readStatus
  | .applyLoad => some .applyCommand
  | .shutdownLock | .shutdownReject => some .shutdown

theorem Callback.entry_task (cb : Callback) : cb.entry.task = some cb.task := by
  cases cb <;> rfl

theorem afterDeactivate_task (nested : Bool) :
    afterDeactivate nested = .idle ∨
      (afterDeactivate nested).task = some (deactivateTask nested) := by
  cases nested
  · exact .inl rfl
  · exact .inr rfl

theorem Site.next_task (site : Site) (changed : Bool) :
    site.next changed = .idle ∨ (site.next changed).task = some site.task := by
  cases site with
  | deactivating nested =>
    cases changed
    · exact afterDeactivate_task nested
    · exact .inr rfl
  | deactivated nested => exact afterDeactivate_task nested
  | _ => cases changed <;> first | exact .inl rfl | exact .inr rfl

theorem Canceller.next_task (k : Canceller) : k.next = .idle ∨ k.next.task = some k.task := by
  cases k <;> first | exact .inl rfl | exact .inr rfl

theorem StatusCall.next_task (k : StatusCall) (st : Status) : (k.next st).task = some k.task := by
  cases k with
  | prepare =>
    unfold StatusCall.next
    dsimp only
    split <;> rfl
  | action a first => rfl

theorem RealtimeCall.next_task (k : RealtimeCall) (st : RealtimeStatus) :
    k.next st = .idle ∨ (k.next st).task = some k.task := by
  cases k <;> unfold RealtimeCall.next <;> dsimp only <;> split <;>
    first | exact .inl rfl | exact .inr rfl

theorem Ask.next_task (q : Ask) (id : Nat) (ok : Bool) : (q.next id ok).task = some .action := by
  unfold Ask.next
  split <;> rfl

/-- **A step starts a callback, goes on with it or ends it.** -/
theorem Atom.task {s s' : Shared} {pc pc' : Pc} {l : Label} (h : Atom s pc l s' pc') :
    (∃ cb, l = .start cb ∧ pc = .idle ∧ pc' = cb.entry) ∨ pc' = .idle ∨ pc'.task = pc.task := by
  cases h with
  | start cb => exact .inl ⟨cb, rfl, rfl, rfl⟩
  | @setState site state status => exact .inr (site.next_task _)
  | @statusCall k st => exact .inr (.inr (k.next_task st))
  | @realtimeCall k st => exact .inr (k.next_task st)
  | prepareLoad => exact .inr (.inr (by split <;> rfl))
  | @cancelDone k => exact .inr k.next_task
  | @requestAnswered q => exact .inr (.inr (q.next_task _ _))
  | @requestGivenUp q => exact .inr (.inr (q.next_task _ _))
  | enabledLoad => exact .inr (.inr (by split <;> rfl))
  | readStatusLoad => exact .inr (by split; exacts [.inl rfl, .inr rfl])
  | applyLoad => exact .inr (by split; exacts [.inl rfl, .inr (by split <;> rfl)])
  | _ => first | exact .inr (.inl rfl) | exact .inr (.inr rfl)

/-- The thread is in a callback of this kind. -/
def Pc.inTask (kind : Task → Bool) (pc : Pc) : Prop := ∃ k, pc.task = some k ∧ kind k = true

/-- **Exclusive callbacks.**  When callbacks of some kind are called only while no other
thread is in one, at most one thread is. -/
theorem AtMostOne.inTask {Tid : Type} [DecidableEq Tid] {c : Config Tid} {kind : Task → Bool}
    {t : Tid} {l : Label} {s' : Shared} {pc' : Pc} (h : AtMostOne (Pc.inTask kind) c.locals)
    (hatom : Atom c.shared (c.locals t) l s' pc')
    (hstart : ∀ cb, l = .start cb → kind cb.task = true →
      ∀ u, u ≠ t → ¬ (c.locals u).inTask kind) :
    AtMostOne (Pc.inTask kind) (Function.update c.locals t pc') := by
  obtain ⟨cb, hl, hidle, rfl⟩ | rfl | htask := hatom.task
  · by_cases hkind : kind cb.task = true
    · refine AtMostOne.enter fun u hu => ?_
      by_cases hut : u = t
      · subst hut
        rw [hidle] at hu
        obtain ⟨k, hk, -⟩ := hu
        cases hk
      · exact hstart cb hl hkind u hut hu
    · refine h.update ?_
      rintro ⟨k, hk, hks⟩
      rw [cb.entry_task] at hk
      cases hk
      exact absurd hks hkind
  · refine h.update ?_
    rintro ⟨k, hk, -⟩
    cases hk
  · refine h.update ?_
    rintro ⟨k, hk, hks⟩
    exact ⟨k, htask ▸ hk, hks⟩

end Intrinsic.CallbackHandler
