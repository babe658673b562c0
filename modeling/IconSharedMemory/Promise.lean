import IconSharedMemory.Runs
import IconSharedMemory.Futex
import IconSharedMemory.QueueBuffer

/-! # Promises and futures

`FuturePromiseContext` (`platform/common/buffers/rt_promise.h`) carries one value
at a time from a `RealtimePromise` to a `RealtimeFuture`: a queue of capacity one
for the value, a flag per side that says whether a handle is attached, a
cancellation flag, five mutexes that `Reset` uses to keep everybody out, and
three futexes that announce a value or the detachment of a handle.

The model is the pool of all threads that use one context.  A thread has a
variable for a promise handle and one for a future handle, and the program point
of its current call.  A step is one lock attempt, one load, store or exchange of
a flag, one futex operation or one operation on the queue.  A failing
`INTR_CHECK` aborts the process, so the step it guards does not exist.

The two sides are one program with two sets of constants as far as acquiring and
detaching a handle goes (`Side`).  Handles of other contexts and detached handles
look the same from here: their `context_` does not point to this context.
-/
namespace Intrinsic.Promise
open Runs

/-! ## The context -/

/-- The promise side and the future side of a context. -/
inductive Side
  | promise | future
  deriving DecidableEq, Repr

/-- The five mutexes of a context. -/
inductive Lock
  | readValue | writeValue | cancel | getFuture | getPromise
  deriving DecidableEq, Repr

/-- The mutex that `GetPromise` and `GetFuture` take. -/
def Side.getLock : Side → Lock
  | .promise => .getPromise
  | .future => .getFuture

/-- `FuturePromiseContext<T>`, with the members that exist once per side or once
per mutex as functions. -/
structure Context (α : Type) where
  buffer : RtQueueBuffer α
  /-- `promise_attached_`, `future_attached_` -/
  attached : Side → Bool
  isCancelled : Bool
  locks : Lock → LockableBinaryFutex
  hasValue : BinaryFutex
  /-- `promise_detached_`, `future_detached_` -/
  detached : Side → BinaryFutex

namespace Context
variable {α : Type}

/-- The constructor, with what the slot of the queue holds before the first
value. -/
def make (slot : Nat → α) : Context α :=
  ⟨.make 1 (by decide) slot, fun _ => false, false, fun _ => .make, .make false,
    fun _ => .make false⟩

/-- `TryLock` succeeds, and a blocking `Lock` returns, exactly when this holds. -/
def canLock (c : Context α) (l : Lock) : Bool := (c.locks l).tryLock.2

def lock (c : Context α) (l : Lock) : Context α :=
  { c with locks := Function.update c.locks l (c.locks l).tryLock.1 }

def unlock (c : Context α) (l : Lock) : Context α :=
  { c with locks := Function.update c.locks l (c.locks l).unlock.1 }

/-- What `Unlock` returns. -/
def unlockStatus (c : Context α) (l : Lock) : RealtimeStatus := (c.locks l).unlock.2

def setAttached (c : Context α) (s : Side) (b : Bool) : Context α :=
  { c with attached := Function.update c.attached s b }

def setDetached (c : Context α) (s : Side) (f : BinaryFutex) : Context α :=
  { c with detached := Function.update c.detached s f }

@[simp] theorem setAttached_self (c : Context α) (s : Side) (b : Bool) :
    (c.setAttached s b).attached s = b := Function.update_self ..

theorem setAttached_of_ne (c : Context α) {r s : Side} (h : r ≠ s) (b : Bool) :
    (c.setAttached s b).attached r = c.attached r := Function.update_of_ne h ..

@[simp] theorem setDetached_self (c : Context α) (s : Side) (f : BinaryFutex) :
    (c.setDetached s f).detached s = f := Function.update_self ..

theorem setDetached_of_ne (c : Context α) {r s : Side} (h : r ≠ s) (f : BinaryFutex) :
    (c.setDetached s f).detached r = c.detached r := Function.update_of_ne h ..

end Context

/-- `Reader::MoveFront()` of the queue as one operation; `movedFrom` is what
moving leaves behind. -/
def moveFront {α : Type} (movedFrom : α → α) (b : RtQueueBuffer α) : Option α × RtQueueBuffer α :=
  match b.front with
  | (none, b') => (none, b')
  | (some slot, b') => (some (b'.buffer slot), b'.write slot (movedFrom (b'.buffer slot)))

/-! ## Error texts -/

def Side.notAttached : Side → RealtimeStatus
  | .promise => formatRealtimeStatus .failedPrecondition (ascii "Promise is not attached.")
  | .future => formatRealtimeStatus .failedPrecondition (ascii "Future is not attached.")

def Side.resetInProgress : Side → RealtimeStatus
  | .promise => formatRealtimeStatus .unavailable
      (ascii "Cannot create promise while reset is in progress.")
  | .future => formatRealtimeStatus .unavailable
      (ascii "Cannot create future while reset is in progress.")

def Side.alreadyAttached : Side → RealtimeStatus
  | .promise => formatRealtimeStatus .alreadyExists (ascii "Promise is already attached.")
  | .future => formatRealtimeStatus .alreadyExists (ascii "Future is already attached.")

/-- `DetachPromise` and `DetachFuture` found the flag false. -/
def Side.wasNotAttached : Side → RealtimeStatus
  | .promise => formatRealtimeStatus .internal (ascii "Promise was not attached.")
  | .future => formatRealtimeStatus .internal (ascii "Future was not attached.")

/-- `Set` and `Get` did not get their mutex. -/
def Side.beingCancelled : Side → RealtimeStatus
  | .promise => formatRealtimeStatus .cancelled (ascii "The promise is being cancelled.")
  | .future => formatRealtimeStatus .cancelled (ascii "Future is being cancelled.")

def Side.wasCancelled : Side → RealtimeStatus
  | .promise => formatRealtimeStatus .cancelled (ascii "Promise was cancelled.")
  | .future => formatRealtimeStatus .cancelled (ascii "Future was cancelled.")

def valueAlreadySet : RealtimeStatus :=
  formatRealtimeStatus .resourceExhausted (ascii "Value has already been set.")

def valueNotAvailable : RealtimeStatus :=
  formatRealtimeStatus .unavailable
    (ascii "Value is not available yet or has already been retrieved.")

def peekNotAvailable : RealtimeStatus :=
  formatRealtimeStatus .unavailable (ascii "Value is not available yet.")

/-- The error of `HasValue`, as `WaitUntil` returns it. -/
def contextCancelled : Status :=
  toStatus (formatRealtimeStatus .cancelled (ascii "Context was cancelled."))

def newValueNotAvailable (st : RealtimeStatus) : Status :=
  formatStatus st.code (st.getMessage ++ ascii ": New value is not available yet.")

def cancelWhileReset : RealtimeStatus :=
  formatRealtimeStatus .resourceExhausted (ascii "Cannot cancel while reset is in progress.")

/-- `Reset` gave up waiting; only one of the two texts ends in a full stop. -/
def Side.notDetached (st : RealtimeStatus) : Side → Status
  | .future => formatStatus st.code
      (st.getMessage ++ ascii ": Future was not detached within timeout")
  | .promise => formatStatus st.code
      (st.getMessage ++ ascii ": Promise was not detached within timeout.")

/-! ## Threads -/

/-- A handle variable: whether its `context_` points to this context, and
`is_reusable_`. -/
structure Handle where
  here : Bool
  reusable : Bool
  deriving DecidableEq, Repr

/-- The call a detachment is part of, with what that call returns. -/
inductive Cont (α : Type)
  /-- The destructor of a handle, or the assignment to it. -/
  | destroy
  /-- `Set` of this value, with the status so far. -/
  | set (v : α) (st : RealtimeStatus)
  /-- `Get` of this value. -/
  | get (v : α)

/-- Where a thread is.  Each program point is named after the step that follows
it. -/
inductive Pc (α : Type)
  | idle
  -- GetPromise, GetFuture
  | acquireCas (s : Side) (reusable : Bool)
  | acquireUnlock (s : Side) (reusable : Bool)
  | acquireUnlockFailed (s : Side)
  -- Detach
  | detachExchange (s : Side) (k : Cont α)
  | detachPost (s : Side) (k : Cont α)
  | detachNull (s : Side) (k : Cont α) (st : RealtimeStatus)
  -- Set
  | setLoad (v : α)
  | setPrepare (v : α)
  | setWrite (slot : Nat) (v : α)
  | setFinish (slot : Nat) (v : α)
  | setPost (v : α)
  | setUnlock (v : α) (st : RealtimeStatus)
  | setUnlockFailed (v : α) (st : RealtimeStatus)
  -- Get
  | getLoad
  | getMove
  | getDrop (v : α)
  | getTryWait (v : α)
  | getUnlock (v : α)
  | getUnlockFailed (st : RealtimeStatus)
  -- Peek
  | peekFront
  | peekKeep (slot : Nat)
  | peekCopy (slot : Nat)
  -- WaitUntil
  | waitEmpty
  | waitFutex
  | waitLoad
  -- Cancel
  | cancelStore
  | cancelUnlock
  | cancelPost
  -- Reset
  | resetLock (l : Lock)
  | resetLoad (s : Side)
  | resetWait (s : Side)
  | resetEmpty
  | resetMove
  | resetDrop (v : α)
  | resetHasValue
  | resetDetached (s : Side)
  | resetStore
  | resetUnlock (held : List Lock) (st : Status)
  -- ~FuturePromiseContext
  | destroyPost
  | destroyLoad (s : Side)
  | destroyWait (s : Side)
  | destroyFatal
  | destroyed

/-- A thread's two handle variables and its program point. -/
structure Thread (α : Type) where
  handle : Side → Handle
  pc : Pc α

/-- What a step shows to an observer. -/
inductive Label (α : Type)
  | internal
  | acquired (s : Side) (st : RealtimeStatus)
  | detached (s : Side) (st : RealtimeStatus)
  /-- `Set` took its mutex. -/
  | setStarted (v : α)
  /-- `FinishInsert` made the value available. -/
  | stored (v : α)
  /-- `PrepareInsert` found a value in the queue. -/
  | setFull (v : α)
  | setReturned (v : α) (st : RealtimeStatus)
  /-- `Get` took its mutex. -/
  | getStarted
  /-- `DropFront` removed the value, called by `Get` or by `Reset`. -/
  | removed (v : α) (byReset : Bool)
  | getReturned (r : Except RealtimeStatus α)
  | peekReturned (r : Except RealtimeStatus α)
  | waitStarted
  | waitReturned (st : Status)
  | cancelStarted
  | cancelReturned (st : RealtimeStatus)
  | resetStarted
  | resetReturned (st : Status)
  | destroyStarted
  /-- A handle was moved to another thread's variable. -/
  | moved (s : Side)

/-- What the call around a detachment returns, given the status of `Detach`. -/
def Cont.label {α : Type} (s : Side) (st : RealtimeStatus) : Cont α → Label α
  | .destroy => .detached s st
  | .set v st₀ => .setReturned v (overwriteIfNotError st₀ st)
  | .get v => .getReturned (if st.isOk then .ok v else .error st)

/-- Where `Reset` is once it has taken a mutex.  Between the first three and the
last two it waits for the handles. -/
def Lock.afterResetLock {α : Type} : Lock → Pc α
  | .getFuture => .resetLock .getPromise
  | .getPromise => .resetLock .cancel
  | .cancel => .resetLoad .future
  | .readValue => .resetLock .writeValue
  | .writeValue => .resetEmpty

/-- The mutexes `Reset` holds when it is about to take one, the last one taken
first. -/
def Lock.heldBefore : Lock → List Lock
  | .getFuture => []
  | .getPromise => [.getFuture]
  | .cancel => [.getPromise, .getFuture]
  | .readValue => [.cancel, .getPromise, .getFuture]
  | .writeValue => [.readValue, .cancel, .getPromise, .getFuture]

/-- Where `Reset` is once a side has been found detached or waited for. -/
def Side.afterReset {α : Type} : Side → Pc α
  | .future => .resetLoad .promise
  | .promise => .resetLock .readValue

/-- Where the destructor of the context is once a side has been found detached or
waited for. -/
def Side.afterDestroy {α : Type} : Side → Pc α
  | .future => .destroyLoad .promise
  | .promise => .destroyed

/-- Where `Reset` is once it has drained a side's detach futex. -/
def Side.afterDrain {α : Type} : Side → Pc α
  | .future => .resetDetached .promise
  | .promise => .resetStore

namespace Thread
variable {α : Type}

def goto (th : Thread α) (pc : Pc α) : Thread α := { th with pc := pc }

def setHandle (th : Thread α) (s : Side) (h : Handle) : Thread α :=
  { th with handle := Function.update th.handle s h }

end Thread

/-! ## Steps -/

/-- **The atomic steps of one thread.** -/
inductive Atom {α : Type} (movedFrom : α → α) :
    Context α → Thread α → Label α → Context α → Thread α → Prop
  -- GetPromise, GetFuture
  | acquireBusy {c : Context α} {th : Thread α} (s : Side) (hpc : th.pc = .idle)
      (hlock : c.canLock s.getLock = false) :
      Atom movedFrom c th (.acquired s s.resetInProgress) c th
  | acquireLock {c : Context α} {th : Thread α} (s : Side) (reusable : Bool) (hpc : th.pc = .idle)
      (hlock : c.canLock s.getLock = true) :
      Atom movedFrom c th .internal (c.lock s.getLock) (th.goto (.acquireCas s reusable))
  | acquireCasOk {c : Context α} {th : Thread α} (s : Side) (reusable : Bool)
      (hpc : th.pc = .acquireCas s reusable) (hcas : c.attached s = false) :
      Atom movedFrom c th .internal (c.setAttached s true) (th.goto (.acquireUnlock s reusable))
  | acquireCasFailed {c : Context α} {th : Thread α} (s : Side) (reusable : Bool)
      (hpc : th.pc = .acquireCas s reusable) (hcas : c.attached s = true) :
      Atom movedFrom c th .internal c (th.goto (.acquireUnlockFailed s))
  | acquireUnlockFailed {c : Context α} {th : Thread α} (s : Side)
      (hpc : th.pc = .acquireUnlockFailed s) :
      Atom movedFrom c th (.acquired s s.alreadyAttached) (c.unlock s.getLock) (th.goto .idle)
  | acquireUnlock {c : Context α} {th : Thread α} (s : Side) (reusable : Bool)
      (hpc : th.pc = .acquireUnlock s reusable)
      (hst : (c.unlockStatus s.getLock).isOk = true) :
      Atom movedFrom c th (.acquired s rtOkStatus) (c.unlock s.getLock)
        ((th.setHandle s ⟨true, reusable⟩).goto .idle)
  /-- The mutex could not be unlocked: the flag stays set without a handle. -/
  | acquireLeaked {c : Context α} {th : Thread α} (s : Side) (reusable : Bool)
      (hpc : th.pc = .acquireUnlock s reusable)
      (hst : (c.unlockStatus s.getLock).isOk = false) :
      Atom movedFrom c th (.acquired s (c.unlockStatus s.getLock)) (c.unlock s.getLock)
        (th.goto .idle)
  -- Detach
  /-- A handle is destroyed, or another one is about to be moved to it. -/
  | detachStart {c : Context α} {th : Thread α} (s : Side) (hpc : th.pc = .idle)
      (hhere : (th.handle s).here = true) :
      Atom movedFrom c th .internal c (th.goto (.detachExchange s .destroy))
  | detachExchange {c : Context α} {th : Thread α} (s : Side) (k : Cont α)
      (hpc : th.pc = .detachExchange s k) (hatt : c.attached s = true) :
      Atom movedFrom c th .internal (c.setAttached s false) (th.goto (.detachPost s k))
  | detachNothing {c : Context α} {th : Thread α} (s : Side) (k : Cont α)
      (hpc : th.pc = .detachExchange s k) (hatt : c.attached s = false) :
      Atom movedFrom c th .internal c (th.goto (.detachNull s k s.wasNotAttached))
  | detachPost {c : Context α} {th : Thread α} (s : Side) (k : Cont α)
      (hpc : th.pc = .detachPost s k) :
      Atom movedFrom c th .internal (c.setDetached s (c.detached s).post.1)
        (th.goto (.detachNull s k (c.detached s).post.2))
  | detachNull {c : Context α} {th : Thread α} (s : Side) (k : Cont α) (st : RealtimeStatus)
      (hpc : th.pc = .detachNull s k st) :
      Atom movedFrom c th (k.label s st) c
        ((th.setHandle s { th.handle s with here := false }).goto .idle)
  -- Set
  | setNotAttached {c : Context α} {th : Thread α} (v : α) (hpc : th.pc = .idle)
      (hhere : (th.handle .promise).here = false) :
      Atom movedFrom c th (.setReturned v Side.promise.notAttached) c th
  | setBusy {c : Context α} {th : Thread α} (v : α) (hpc : th.pc = .idle)
      (hhere : (th.handle .promise).here = true) (hlock : c.canLock .writeValue = false) :
      Atom movedFrom c th (.setReturned v Side.promise.beingCancelled) c th
  | setLock {c : Context α} {th : Thread α} (v : α) (hpc : th.pc = .idle)
      (hhere : (th.handle .promise).here = true) (hlock : c.canLock .writeValue = true) :
      Atom movedFrom c th (.setStarted v) (c.lock .writeValue) (th.goto (.setLoad v))
  | setCancelled {c : Context α} {th : Thread α} (v : α) (hpc : th.pc = .setLoad v)
      (hcancel : c.isCancelled = true) :
      Atom movedFrom c th .internal c (th.goto (.setUnlockFailed v Side.promise.wasCancelled))
  | setLoad {c : Context α} {th : Thread α} (v : α) (hpc : th.pc = .setLoad v)
      (hcancel : c.isCancelled = false) :
      Atom movedFrom c th .internal c (th.goto (.setPrepare v))
  | setFull {c : Context α} {th : Thread α} (v : α) (hpc : th.pc = .setPrepare v)
      (hcheck : c.buffer.insertInProgress = false) (hfull : c.buffer.prepareInsert.1 = none) :
      Atom movedFrom c th (.setFull v) c (th.goto (.setUnlockFailed v valueAlreadySet))
  | setPrepare {c : Context α} {th : Thread α} (v : α) (slot : Nat) (hpc : th.pc = .setPrepare v)
      (hcheck : c.buffer.insertInProgress = false)
      (hslot : c.buffer.prepareInsert.1 = some slot) :
      Atom movedFrom c th .internal { c with buffer := c.buffer.prepareInsert.2 }
        (th.goto (.setWrite slot v))
  | setWrite {c : Context α} {th : Thread α} (v : α) (slot : Nat)
      (hpc : th.pc = .setWrite slot v) :
      Atom movedFrom c th .internal { c with buffer := c.buffer.write slot v }
        (th.goto (.setFinish slot v))
  | setFinish {c : Context α} {th : Thread α} (v : α) (slot : Nat)
      (hpc : th.pc = .setFinish slot v) (hcheck : c.buffer.insertInProgress = true) :
      Atom movedFrom c th (.stored v) { c with buffer := c.buffer.finishInsert }
        (th.goto (.setPost v))
  | setPost {c : Context α} {th : Thread α} (v : α) (hpc : th.pc = .setPost v) :
      Atom movedFrom c th .internal { c with hasValue := c.hasValue.post.1 }
        (th.goto (.setUnlock v c.hasValue.post.2))
  | setUnlockFailed {c : Context α} {th : Thread α} (v : α) (st : RealtimeStatus)
      (hpc : th.pc = .setUnlockFailed v st) :
      Atom movedFrom c th
        (.setReturned v (overwriteIfNotError (c.unlockStatus .writeValue) st))
        (c.unlock .writeValue) (th.goto .idle)
  /-- The mutex could not be unlocked although the value was stored. -/
  | setNotUnlocked {c : Context α} {th : Thread α} (v : α) (st : RealtimeStatus)
      (hpc : th.pc = .setUnlock v st) (hst : (c.unlockStatus .writeValue).isOk = false) :
      Atom movedFrom c th (.setReturned v (c.unlockStatus .writeValue)) (c.unlock .writeValue)
        (th.goto .idle)
  | setUnlock {c : Context α} {th : Thread α} (v : α) (st : RealtimeStatus)
      (hpc : th.pc = .setUnlock v st) (hst : (c.unlockStatus .writeValue).isOk = true)
      (hreusable : (th.handle .promise).reusable = true) :
      Atom movedFrom c th (.setReturned v st) (c.unlock .writeValue) (th.goto .idle)
  | setUnlockDetach {c : Context α} {th : Thread α} (v : α) (st : RealtimeStatus)
      (hpc : th.pc = .setUnlock v st) (hst : (c.unlockStatus .writeValue).isOk = true)
      (hreusable : (th.handle .promise).reusable = false) :
      Atom movedFrom c th .internal (c.unlock .writeValue)
        (th.goto (.detachExchange .promise (.set v st)))
  -- Get
  | getNotAttached {c : Context α} {th : Thread α} (hpc : th.pc = .idle)
      (hhere : (th.handle .future).here = false) :
      Atom movedFrom c th (.getReturned (.error Side.future.notAttached)) c th
  | getBusy {c : Context α} {th : Thread α} (hpc : th.pc = .idle)
      (hhere : (th.handle .future).here = true) (hlock : c.canLock .readValue = false) :
      Atom movedFrom c th (.getReturned (.error Side.future.beingCancelled)) c th
  | getLock {c : Context α} {th : Thread α} (hpc : th.pc = .idle)
      (hhere : (th.handle .future).here = true) (hlock : c.canLock .readValue = true) :
      Atom movedFrom c th .getStarted (c.lock .readValue) (th.goto .getLoad)
  | getCancelled {c : Context α} {th : Thread α} (hpc : th.pc = .getLoad)
      (hcancel : c.isCancelled = true) :
      Atom movedFrom c th .internal c (th.goto (.getUnlockFailed Side.future.wasCancelled))
  | getLoad {c : Context α} {th : Thread α} (hpc : th.pc = .getLoad)
      (hcancel : c.isCancelled = false) :
      Atom movedFrom c th .internal c (th.goto .getMove)
  | getEmpty {c : Context α} {th : Thread α} (hpc : th.pc = .getMove)
      (hempty : c.buffer.empty = true) :
      Atom movedFrom c th .internal c (th.goto (.getUnlockFailed valueNotAvailable))
  | getMove {c : Context α} {th : Thread α} (v : α) (hpc : th.pc = .getMove)
      (hcheck : c.buffer.frontAccessed = false)
      (hv : (moveFront movedFrom c.buffer).1 = some v) :
      Atom movedFrom c th .internal { c with buffer := (moveFront movedFrom c.buffer).2 }
        (th.goto (.getDrop v))
  | getDrop {c : Context α} {th : Thread α} (v : α) (hpc : th.pc = .getDrop v)
      (hcheck : c.buffer.frontAccessed = true) :
      Atom movedFrom c th (.removed v false) { c with buffer := c.buffer.dropFront }
        (th.goto (.getTryWait v))
  | getTryWait {c : Context α} {th : Thread α} (v : α) (hpc : th.pc = .getTryWait v) :
      Atom movedFrom c th .internal { c with hasValue := c.hasValue.tryWait.1 }
        (th.goto (.getUnlock v))
  | getUnlockFailed {c : Context α} {th : Thread α} (st : RealtimeStatus)
      (hpc : th.pc = .getUnlockFailed st) :
      Atom movedFrom c th
        (.getReturned (.error (overwriteIfNotError (c.unlockStatus .readValue) st)))
        (c.unlock .readValue) (th.goto .idle)
  /-- The mutex could not be unlocked although the value was removed. -/
  | getNotUnlocked {c : Context α} {th : Thread α} (v : α) (hpc : th.pc = .getUnlock v)
      (hst : (c.unlockStatus .readValue).isOk = false) :
      Atom movedFrom c th (.getReturned (.error (c.unlockStatus .readValue)))
        (c.unlock .readValue) (th.goto .idle)
  | getUnlock {c : Context α} {th : Thread α} (v : α) (hpc : th.pc = .getUnlock v)
      (hst : (c.unlockStatus .readValue).isOk = true)
      (hreusable : (th.handle .future).reusable = true) :
      Atom movedFrom c th (.getReturned (.ok v)) (c.unlock .readValue) (th.goto .idle)
  | getUnlockDetach {c : Context α} {th : Thread α} (v : α) (hpc : th.pc = .getUnlock v)
      (hst : (c.unlockStatus .readValue).isOk = true)
      (hreusable : (th.handle .future).reusable = false) :
      Atom movedFrom c th .internal (c.unlock .readValue)
        (th.goto (.detachExchange .future (.get v)))
  -- Peek
  | peekNotAttached {c : Context α} {th : Thread α} (hpc : th.pc = .idle)
      (hhere : (th.handle .future).here = false) :
      Atom movedFrom c th (.peekReturned (.error Side.future.notAttached)) c th
  | peekCancelled {c : Context α} {th : Thread α} (hpc : th.pc = .idle)
      (hhere : (th.handle .future).here = true) (hcancel : c.isCancelled = true) :
      Atom movedFrom c th (.peekReturned (.error Side.future.wasCancelled)) c th
  | peekLoad {c : Context α} {th : Thread α} (hpc : th.pc = .idle)
      (hhere : (th.handle .future).here = true) (hcancel : c.isCancelled = false) :
      Atom movedFrom c th .internal c (th.goto .peekFront)
  | peekEmpty {c : Context α} {th : Thread α} (hpc : th.pc = .peekFront)
      (hcheck : c.buffer.frontAccessed = false) (hempty : c.buffer.front.1 = none) :
      Atom movedFrom c th (.peekReturned (.error peekNotAvailable)) c (th.goto .idle)
  | peekFront {c : Context α} {th : Thread α} (slot : Nat) (hpc : th.pc = .peekFront)
      (hcheck : c.buffer.frontAccessed = false) (hslot : c.buffer.front.1 = some slot) :
      Atom movedFrom c th .internal { c with buffer := c.buffer.front.2 }
        (th.goto (.peekKeep slot))
  | peekKeep {c : Context α} {th : Thread α} (slot : Nat) (hpc : th.pc = .peekKeep slot)
      (hcheck : c.buffer.frontAccessed = true) :
      Atom movedFrom c th .internal { c with buffer := c.buffer.keepFront }
        (th.goto (.peekCopy slot))
  /-- The element is copied after `KeepFront`. -/
  | peekCopy {c : Context α} {th : Thread α} (slot : Nat) (hpc : th.pc = .peekCopy slot) :
      Atom movedFrom c th (.peekReturned (.ok (c.buffer.buffer slot))) c (th.goto .idle)
  -- WaitUntil
  | waitNotAttached {c : Context α} {th : Thread α} (hpc : th.pc = .idle)
      (hhere : (th.handle .future).here = false) :
      Atom movedFrom c th (.waitReturned (formatStatus .failedPrecondition
        (ascii "Future is not attached."))) c th
  | waitCancelled {c : Context α} {th : Thread α} (hpc : th.pc = .idle)
      (hhere : (th.handle .future).here = true) (hcancel : c.isCancelled = true) :
      Atom movedFrom c th (.waitReturned contextCancelled) c th
  | waitStart {c : Context α} {th : Thread α} (hpc : th.pc = .idle)
      (hhere : (th.handle .future).here = true) (hcancel : c.isCancelled = false) :
      Atom movedFrom c th .waitStarted c (th.goto .waitEmpty)
  | waitHasValue {c : Context α} {th : Thread α} (hpc : th.pc = .waitEmpty)
      (hempty : c.buffer.empty = false) :
      Atom movedFrom c th (.waitReturned okStatus) c (th.goto .idle)
  | waitEmpty {c : Context α} {th : Thread α} (hpc : th.pc = .waitEmpty)
      (hempty : c.buffer.empty = true) :
      Atom movedFrom c th .internal c (th.goto .waitFutex)
  | waitFailed {c : Context α} {th : Thread α} (f : BinaryFutex) (st : RealtimeStatus)
      (hpc : th.pc = .waitFutex) (hwait : c.hasValue.Wait f st) (hst : st.isOk = false) :
      Atom movedFrom c th (.waitReturned (newValueNotAvailable st)) { c with hasValue := f }
        (th.goto .idle)
  | waitFutex {c : Context α} {th : Thread α} (f : BinaryFutex) (st : RealtimeStatus)
      (hpc : th.pc = .waitFutex) (hwait : c.hasValue.Wait f st) (hst : st.isOk = true) :
      Atom movedFrom c th .internal { c with hasValue := f } (th.goto .waitLoad)
  | waitLoadCancelled {c : Context α} {th : Thread α} (hpc : th.pc = .waitLoad)
      (hcancel : c.isCancelled = true) :
      Atom movedFrom c th (.waitReturned (formatStatus .cancelled (ascii "Future was cancelled.")))
        c (th.goto .idle)
  | waitLoad {c : Context α} {th : Thread α} (hpc : th.pc = .waitLoad)
      (hcancel : c.isCancelled = false) :
      Atom movedFrom c th (.waitReturned okStatus) c (th.goto .idle)
  -- Cancel
  | cancelBusy {c : Context α} {th : Thread α} (hpc : th.pc = .idle)
      (hlock : c.canLock .cancel = false) :
      Atom movedFrom c th (.cancelReturned cancelWhileReset) c th
  | cancelLock {c : Context α} {th : Thread α} (hpc : th.pc = .idle)
      (hlock : c.canLock .cancel = true) :
      Atom movedFrom c th .cancelStarted (c.lock .cancel) (th.goto .cancelStore)
  | cancelStore {c : Context α} {th : Thread α} (hpc : th.pc = .cancelStore) :
      Atom movedFrom c th .internal { c with isCancelled := true } (th.goto .cancelUnlock)
  | cancelNotUnlocked {c : Context α} {th : Thread α} (hpc : th.pc = .cancelUnlock)
      (hst : (c.unlockStatus .cancel).isOk = false) :
      Atom movedFrom c th (.cancelReturned (c.unlockStatus .cancel)) (c.unlock .cancel)
        (th.goto .idle)
  | cancelUnlock {c : Context α} {th : Thread α} (hpc : th.pc = .cancelUnlock)
      (hst : (c.unlockStatus .cancel).isOk = true) :
      Atom movedFrom c th .internal (c.unlock .cancel) (th.goto .cancelPost)
  | cancelPost {c : Context α} {th : Thread α} (hpc : th.pc = .cancelPost) :
      Atom movedFrom c th (.cancelReturned c.hasValue.post.2)
        { c with hasValue := c.hasValue.post.1 } (th.goto .idle)
  -- Reset
  | resetStart {c : Context α} {th : Thread α} (hpc : th.pc = .idle)
      (hlock : c.canLock .getFuture = true) :
      Atom movedFrom c th .resetStarted (c.lock .getFuture) (th.goto Lock.getFuture.afterResetLock)
  | resetLock {c : Context α} {th : Thread α} (l : Lock) (hpc : th.pc = .resetLock l)
      (hlock : c.canLock l = true) :
      Atom movedFrom c th .internal (c.lock l) (th.goto l.afterResetLock)
  | resetLoadFalse {c : Context α} {th : Thread α} (s : Side) (hpc : th.pc = .resetLoad s)
      (hatt : c.attached s = false) :
      Atom movedFrom c th .internal c (th.goto s.afterReset)
  | resetLoad {c : Context α} {th : Thread α} (s : Side) (hpc : th.pc = .resetLoad s)
      (hatt : c.attached s = true) :
      Atom movedFrom c th .internal c (th.goto (.resetWait s))
  | resetWait {c : Context α} {th : Thread α} (s : Side) (f : BinaryFutex) (st : RealtimeStatus)
      (hpc : th.pc = .resetWait s) (hwait : (c.detached s).Wait f st) (hst : st.isOk = true) :
      Atom movedFrom c th .internal (c.setDetached s f) (th.goto s.afterReset)
  | resetTimeout {c : Context α} {th : Thread α} (s : Side) (f : BinaryFutex) (st : RealtimeStatus)
      (hpc : th.pc = .resetWait s) (hwait : (c.detached s).Wait f st) (hst : st.isOk = false) :
      Atom movedFrom c th .internal (c.setDetached s f)
        (th.goto (.resetUnlock Lock.readValue.heldBefore (s.notDetached st)))
  | resetEmpty {c : Context α} {th : Thread α} (hpc : th.pc = .resetEmpty)
      (hempty : c.buffer.empty = true) :
      Atom movedFrom c th .internal c (th.goto .resetHasValue)
  | resetNotEmpty {c : Context α} {th : Thread α} (hpc : th.pc = .resetEmpty)
      (hempty : c.buffer.empty = false) :
      Atom movedFrom c th .internal c (th.goto .resetMove)
  /-- `MoveFront` found nothing: the loop goes on. -/
  | resetMoveNone {c : Context α} {th : Thread α} (hpc : th.pc = .resetMove)
      (hempty : c.buffer.empty = true) :
      Atom movedFrom c th .internal c (th.goto .resetEmpty)
  | resetMove {c : Context α} {th : Thread α} (v : α) (hpc : th.pc = .resetMove)
      (hcheck : c.buffer.frontAccessed = false)
      (hv : (moveFront movedFrom c.buffer).1 = some v) :
      Atom movedFrom c th .internal { c with buffer := (moveFront movedFrom c.buffer).2 }
        (th.goto (.resetDrop v))
  | resetDrop {c : Context α} {th : Thread α} (v : α) (hpc : th.pc = .resetDrop v)
      (hcheck : c.buffer.frontAccessed = true) :
      Atom movedFrom c th (.removed v true) { c with buffer := c.buffer.dropFront }
        (th.goto .resetEmpty)
  | resetHasValue {c : Context α} {th : Thread α} (hpc : th.pc = .resetHasValue) :
      Atom movedFrom c th .internal { c with hasValue := c.hasValue.tryWait.1 }
        (th.goto (.resetDetached .future))
  | resetDetached {c : Context α} {th : Thread α} (s : Side) (hpc : th.pc = .resetDetached s) :
      Atom movedFrom c th .internal (c.setDetached s (c.detached s).tryWait.1)
        (th.goto s.afterDrain)
  | resetStore {c : Context α} {th : Thread α} (hpc : th.pc = .resetStore) :
      Atom movedFrom c th .internal { c with isCancelled := false }
        (th.goto (.resetUnlock (.writeValue :: Lock.writeValue.heldBefore) okStatus))
  | resetUnlock {c : Context α} {th : Thread α} (l k : Lock) (held : List Lock) (st : Status)
      (hpc : th.pc = .resetUnlock (l :: k :: held) st) (hcheck : (c.unlockStatus l).isOk = true) :
      Atom movedFrom c th .internal (c.unlock l) (th.goto (.resetUnlock (k :: held) st))
  | resetReturn {c : Context α} {th : Thread α} (l : Lock) (st : Status)
      (hpc : th.pc = .resetUnlock [l] st) (hcheck : (c.unlockStatus l).isOk = true) :
      Atom movedFrom c th (.resetReturned st) (c.unlock l) (th.goto .idle)
  -- ~FuturePromiseContext
  | destroyStart {c : Context α} {th : Thread α} (hpc : th.pc = .idle) :
      Atom movedFrom c th .destroyStarted { c with isCancelled := true } (th.goto .destroyPost)
  | destroyPost {c : Context α} {th : Thread α} (hpc : th.pc = .destroyPost) :
      Atom movedFrom c th .internal { c with hasValue := c.hasValue.post.1 }
        (th.goto (.destroyLoad .future))
  | destroyLoadFalse {c : Context α} {th : Thread α} (s : Side) (hpc : th.pc = .destroyLoad s)
      (hatt : c.attached s = false) :
      Atom movedFrom c th .internal c (th.goto s.afterDestroy)
  | destroyLoad {c : Context α} {th : Thread α} (s : Side) (hpc : th.pc = .destroyLoad s)
      (hatt : c.attached s = true) :
      Atom movedFrom c th .internal c (th.goto (.destroyWait s))
  | destroyWait {c : Context α} {th : Thread α} (s : Side) (f : BinaryFutex) (st : RealtimeStatus)
      (hpc : th.pc = .destroyWait s) (hwait : (c.detached s).Wait f st) (hst : st.isOk = true) :
      Atom movedFrom c th .internal (c.setDetached s f) (th.goto s.afterDestroy)
  /-- The handle was not detached in time: a fatal log ends the process. -/
  | destroyFatal {c : Context α} {th : Thread α} (s : Side) (f : BinaryFutex) (st : RealtimeStatus)
      (hpc : th.pc = .destroyWait s) (hwait : (c.detached s).Wait f st) (hst : st.isOk = false) :
      Atom movedFrom c th .internal (c.setDetached s f) (th.goto .destroyFatal)

/-- The threads of one context. -/
abbrev Config (Tid α : Type) := Pool Tid (Context α) (Thread α)

/-- Thread `t` moves its handle of one side to the variable of thread `u`; the two
variables swap what they hold. -/
def moveHandle {Tid α : Type} [DecidableEq Tid] (c : Config Tid α) (t u : Tid) (s : Side) :
    Config Tid α :=
  ⟨c.shared, Function.update
    (Function.update c.locals u ((c.locals u).setHandle s ((c.locals t).handle s)))
    t ((c.locals t).setHandle s ((c.locals u).handle s))⟩

theorem moveHandle_pc {Tid α : Type} [DecidableEq Tid] (c : Config Tid α) (t u : Tid) (s : Side)
    (v : Tid) : ((moveHandle c t u s).locals v).pc = (c.locals v).pc := by
  unfold moveHandle
  by_cases hvt : v = t
  · subst hvt; simp [Thread.setHandle]
  · by_cases hvu : v = u
    · subst hvu; simp [Thread.setHandle, hvt]
    · simp [hvt, hvu]

/-- **One step of the system**: an atomic step of a thread, or a handle changing
hands.  A move assignment detaches the target first, so the move itself is to a
variable that does not point here. -/
inductive Step {Tid α : Type} [DecidableEq Tid] (movedFrom : α → α)
    (ok : Config Tid α → Tid → Label α → Prop) :
    Config Tid α → Tid × Label α → Config Tid α → Prop
  | atom {c d : Config Tid α} {x : Tid × Label α} (h : Pool.Step (Atom movedFrom) ok c x d) :
      Step movedFrom ok c x d
  | move {c : Config Tid α} {t : Tid} (u : Tid) (s : Side) (hok : ok c t (.moved s)) (hne : u ≠ t)
      (ht : (c.locals t).pc = .idle) (hu : (c.locals u).pc = .idle)
      (hhere : ((c.locals u).handle s).here = false) :
      Step movedFrom ok c (t, .moved s) (moveHandle c t u s)

/-- What a step means for one thread: its own atomic step, or nothing that its
program point shows. -/
theorem Step.thread {Tid α : Type} [DecidableEq Tid] {movedFrom : α → α}
    {ok : Config Tid α → Tid → Label α → Prop} {c d : Config Tid α} {u : Tid} {l : Label α}
    (h : Step movedFrom ok c (u, l) d) (t : Tid) :
    (u = t ∧ ok c t l ∧ Atom movedFrom c.shared (c.locals t) l d.shared (d.locals t)) ∨
      (d.locals t).pc = (c.locals t).pc ∧
        (u ≠ t ∨ (c.locals t).pc = .idle ∧ ∃ s, l = .moved s) := by
  cases h with
  | atom hp =>
    cases hp with
    | mk hok hatom =>
      by_cases hut : u = t
      · subst hut
        exact .inl ⟨rfl, hok, by simpa using hatom⟩
      · refine .inr ⟨?_, .inl hut⟩
        exact congrArg Thread.pc (Function.update_of_ne (Ne.symm hut) ..)
  | move v s hok hne hu =>
    refine .inr ⟨moveHandle_pc c u v s t, ?_⟩
    by_cases hut : u = t
    · exact .inr ⟨hut ▸ hu, s, rfl⟩
    · exact .inl hut

theorem Step.allowed {Tid α : Type} [DecidableEq Tid] {movedFrom : α → α}
    {ok : Config Tid α → Tid → Label α → Prop} {c d : Config Tid α} {t : Tid} {l : Label α}
    (h : Step movedFrom ok c (t, l) d) : ok c t l := by
  cases h with
  | atom hp => exact hp.atomic.1
  | move _ _ hok => exact hok

theorem Step.weaken {Tid α : Type} [DecidableEq Tid] {movedFrom : α → α}
    {ok ok' : Config Tid α → Tid → Label α → Prop} {c d : Config Tid α} {x : Tid × Label α}
    (h : Step movedFrom ok c x d) (hok : ∀ c t l, ok c t l → ok' c t l) :
    Step movedFrom ok' c x d := by
  cases h with
  | atom hp => exact .atom (hp.weaken hok)
  | move u s hmove hne ht hu hhere => exact .move u s (hok _ _ _ hmove) hne ht hu hhere

/-- Who owns a context: its creator, or a default-constructed handle. -/
inductive Owner (Tid : Type)
  | user
  | handle (s : Side) (t : Tid)

/-- A thread without handles. -/
def Thread.init {α : Type} : Thread α := ⟨fun _ => ⟨false, false⟩, .idle⟩

/-- A new context. -/
def initial {Tid α : Type} [DecidableEq Tid] (slot : Nat → α) : Owner Tid → Config Tid α
  | .user => ⟨.make slot, fun _ => .init⟩
  | .handle s t => ⟨(Context.make slot).setAttached s true,
      Function.update (fun _ => .init) t (Thread.init.setHandle s ⟨true, true⟩)⟩

theorem initial_pc {Tid α : Type} [DecidableEq Tid] (slot : Nat → α) (o : Owner Tid) (t : Tid) :
    ((initial slot o).locals t).pc = .idle := by
  cases o with
  | user => rfl
  | handle s u => exact forall_update (fun th : Thread α => th.pc = .idle) rfl (fun _ _ => rfl) t

end Intrinsic.Promise
