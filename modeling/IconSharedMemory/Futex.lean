import Mathlib.Data.List.Induction

/-! # Statuses and binary futexes

The vocabulary every component returns errors in (`StatusCode`,
`RealtimeStatus`), and the one synchronisation primitive everything else is
built from: `BinaryFutex`, a semaphore whose value is 0, 1 or "closed", and the
mutex made of it, `LockableBinaryFutex`.

At this level each futex operation is one indivisible step on the futex's value:
`post` and `tryWait` are its compare-exchanges, and a blocking wait is the
relation `Wait`, which says how a wait can end.  A `char` is a byte and a message
is the list of bytes before its terminator.
-/
namespace Intrinsic

/-! ## Statuses -/

/-- The status codes of `icon/utils/status.h`. -/
inductive StatusCode
  | ok | cancelled | unknown | invalidArgument | deadlineExceeded | notFound | alreadyExists
  | permissionDenied | resourceExhausted | failedPrecondition | aborted | outOfRange
  | unimplemented | internal | unavailable | dataLoss | unauthenticated
  deriving DecidableEq, Repr

/-- The bytes of a message literal. -/
def ascii (s : String) : List UInt8 := s.toList.map fun c => c.toNat.toUInt8

/-- A status whose message lives in a fixed array: `message` is the array's
content, of which only the part before the first zero byte is the message. -/
structure RealtimeStatus where
  code : StatusCode
  message : List UInt8
  deriving DecidableEq, Repr

namespace RealtimeStatus

/-- The longest message, not counting the terminator. -/
def kMaxMessageLength : Nat := 100

def isOk (s : RealtimeStatus) : Bool := s.code = .ok

/-- An ok status has no message, whatever its array holds. -/
def getMessage (s : RealtimeStatus) : List UInt8 :=
  if s.isOk then [] else s.message.takeWhile (· ≠ 0)

end RealtimeStatus

def rtOkStatus : RealtimeStatus := ⟨.ok, []⟩

/-- `FormatRealtimeStatus` with the text already formatted: the text is cut to
the array's size. -/
def formatRealtimeStatus (code : StatusCode) (text : List UInt8) : RealtimeStatus :=
  ⟨code, text.take RealtimeStatus.kMaxMessageLength⟩

@[simp] theorem rtOkStatus_isOk : rtOkStatus.isOk = true := rfl

@[simp] theorem formatRealtimeStatus_isOk (code : StatusCode) (text : List UInt8) :
    (formatRealtimeStatus code text).isOk = decide (code = .ok) := rfl

/-- `OverwriteIfNotError`: the first error of two statuses. -/
def overwriteIfNotError (previous new : RealtimeStatus) : RealtimeStatus :=
  if previous.isOk then new else previous

/-- A status with a message of any length. -/
structure Status where
  code : StatusCode
  message : List UInt8
  deriving DecidableEq, Repr

def Status.isOk (s : Status) : Bool := s.code = .ok

def okStatus : Status := ⟨.ok, []⟩

/-- `FormatStatus` with the text already formatted. -/
def formatStatus (code : StatusCode) (text : List UInt8) : Status := ⟨code, text⟩

def toStatus (s : RealtimeStatus) : Status := ⟨s.code, s.getMessage⟩

/-! ## Binary futexes -/

/-- The value of a `BinaryFutex`: `kReady`, `kPosted` or `kClosed`. -/
inductive BinaryFutex
  | ready | posted | closed
  deriving DecidableEq, Repr

namespace BinaryFutex

/-- The constructor's `posted` argument. -/
def make (isPosted : Bool) : BinaryFutex := if isPosted then .posted else .ready

/-- `Post()`: a ready futex becomes posted, a posted one stays so, and a closed
one refuses. -/
def post : BinaryFutex → BinaryFutex × RealtimeStatus
  | .ready => (.posted, rtOkStatus)
  | .posted => (.posted, rtOkStatus)
  | .closed =>
    (.closed, formatRealtimeStatus .aborted (ascii "BinaryFutex is closed, aborting Post()"))

/-- `TryWait()`: takes the token if there is one. -/
def tryWait : BinaryFutex → BinaryFutex × Option Bool
  | .ready => (.ready, some false)
  | .posted => (.ready, some true)
  | .closed => (.closed, none)

/-- How a `WaitUntil`/`WaitFor` can end: it takes the token; the futex is closed;
the deadline passes, which may happen whatever the value is by then; or the
kernel reports an error, of the wait or of reading the clock before it. -/
inductive Wait : BinaryFutex → BinaryFutex → RealtimeStatus → Prop
  | taken : Wait .posted .ready rtOkStatus
  | closed : Wait .closed .closed
      (formatRealtimeStatus .aborted (ascii "BinaryFutex is closed, aborting Wait()"))
  | timedOut (f : BinaryFutex) (ms : Nat) : Wait f f
      (formatRealtimeStatus .deadlineExceeded
        (ascii "Timeout after " ++ ascii (toString ms) ++ ascii " ms"))
  | failed (f : BinaryFutex) (error : List UInt8) : Wait f f
      (formatRealtimeStatus .internal (ascii "Futex wait failed with error: " ++ error))
  | clockFailed (f : BinaryFutex) (error : List UInt8) : Wait f f
      (formatRealtimeStatus .internal (ascii "clock_gettime failed with error: " ++ error))

/-- **A wait is successful exactly when it takes the token.** -/
theorem Wait.ok {f f' : BinaryFutex} {st : RealtimeStatus} (h : Wait f f' st)
    (hok : st.isOk = true) : f = .posted ∧ f' = .ready := by
  cases h with
  | taken => exact ⟨rfl, rfl⟩
  | _ => simp at hok

/-- A wait that fails leaves the futex alone. -/
theorem Wait.notOk {f f' : BinaryFutex} {st : RealtimeStatus} (h : Wait f f' st)
    (hok : st.isOk = false) : f' = f := by
  cases h with
  | taken => simp at hok
  | _ => rfl

/-- A wait posts nothing. -/
theorem Wait.posted_before {f f' : BinaryFutex} {st : RealtimeStatus} (h : Wait f f' st)
    (hf : f' = .posted) : f = .posted := by
  cases h with
  | taken => rfl
  | _ => exact hf

@[simp] theorem post_ready : post .ready = (.posted, rtOkStatus) := rfl

@[simp] theorem post_posted : post .posted = (.posted, rtOkStatus) := rfl

/-- A futex that is not closed is posted after a `Post`, and the `Post` is ok. -/
theorem post_of_not_closed {f : BinaryFutex} (h : f ≠ .closed) :
    f.post = (.posted, rtOkStatus) := by
  cases f with
  | closed => exact absurd rfl h
  | _ => rfl

theorem post_not_closed {f : BinaryFutex} (h : f ≠ .closed) : f.post.1 ≠ .closed := by
  rw [post_of_not_closed h]
  exact nofun

theorem Wait.not_closed {f f' : BinaryFutex} {st : RealtimeStatus} (h : Wait f f' st)
    (hf : f ≠ .closed) : f' ≠ .closed := by
  cases h with
  | taken => exact nofun
  | _ => exact hf

theorem tryWait_not_posted (f : BinaryFutex) : f.tryWait.1 ≠ .posted := by
  cases f <;> simp [tryWait]

theorem tryWait_of_not_closed {f : BinaryFutex} (h : f ≠ .closed) : f.tryWait.1 = .ready := by
  cases f with
  | closed => exact absurd rfl h
  | _ => rfl

theorem tryWait_not_closed {f : BinaryFutex} (h : f ≠ .closed) : f.tryWait.1 ≠ .closed := by
  rw [tryWait_of_not_closed h]
  exact nofun

end BinaryFutex

/-! ## Futexes used as mutexes -/

/-- A `LockableBinaryFutex` is a futex that is posted while it is unlocked. -/
structure LockableBinaryFutex where
  futex : BinaryFutex
  deriving DecidableEq, Repr

namespace LockableBinaryFutex

def make : LockableBinaryFutex := ⟨.posted⟩

/-- `IsHeld()` -/
def isHeld (m : LockableBinaryFutex) : Bool := m.futex = .ready

/-- `TryLock()`: a closed futex counts as not acquired. -/
def tryLock (m : LockableBinaryFutex) : LockableBinaryFutex × Bool :=
  (⟨m.futex.tryWait.1⟩, m.futex.tryWait.2.getD false)

/-- `Unlock()` -/
def unlock (m : LockableBinaryFutex) : LockableBinaryFutex × RealtimeStatus :=
  if m.isHeld then (⟨m.futex.post.1⟩, m.futex.post.2)
  else (m, formatRealtimeStatus .failedPrecondition (ascii "Futex is not locked"))

end LockableBinaryFutex

end Intrinsic
