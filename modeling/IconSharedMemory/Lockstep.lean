import IconSharedMemory.Runs
import IconSharedMemory.Futex

/-! # The lockstep

`Lockstep` (`util/thread/lockstep.h`) forces two operations, A and B, to take
turns: a state variable says whose turn it is, and two futexes carry one token
to the side that may start next.  The model is the pool of all threads that use
one lockstep.  A step of it is one load, store or compare-exchange of `state_`,
or one futex operation; between two steps of a call any other thread may move.

`StartOperationA…` and `StartOperationB…` are one program with two sets of
constants (`Side`).  `EndOperationA` and `EndOperationB` are not: the first
loads `state_` twice and then stores, the second is one compare-exchange.

A thread's local state is the program point of its current call and the list of
operations it has in progress: an operation is in progress from the
compare-exchange of its `Start` until the `End` changes the state or returns.
A call begins with its first step; there is no step for being called.
-/
namespace Intrinsic.Lockstep
open Runs

/-- `Lockstep::State` -/
inductive State
  | bFinished | aRunning | aFinished | bRunning | cancelled
  deriving DecidableEq, Repr

/-- The members of a `Lockstep`. -/
structure Shared where
  aFinished : BinaryFutex
  bFinished : BinaryFutex
  state : State
  deriving DecidableEq, Repr

/-- A default-constructed `Lockstep`. -/
def Shared.init : Shared := ⟨.make false, .make true, .bFinished⟩

/-- The two operations. -/
inductive Side
  | a | b
  deriving DecidableEq, Repr

namespace Side

/-- The futex the start of an operation waits on: the other side's. -/
def awaited : Side → Shared → BinaryFutex
  | .a, s => s.bFinished
  | .b, s => s.aFinished

/-- The shared state after that futex got a new value. -/
def setAwaited : Side → Shared → BinaryFutex → Shared
  | .a, s, f => { s with bFinished := f }
  | .b, s, f => { s with aFinished := f }

/-- The state in which the operation may start. -/
def expected : Side → State
  | .a => .bFinished
  | .b => .aFinished

/-- The state while the operation runs. -/
def running : Side → State
  | .a => .aRunning
  | .b => .bRunning

@[simp] theorem setAwaited_state (x : Side) (s : Shared) (f : BinaryFutex) :
    (x.setAwaited s f).state = s.state := by
  cases x <;> rfl

end Side

/-- Where a thread is in its current call. -/
inductive Pc
  | idle
  /-- `StartOperation…`: the wait was successful. -/
  | startCas (x : Side)
  /-- `StartOperation…`: the compare-exchange saw `kCancelled`. -/
  | startRepost (x : Side)
  /-- `EndOperationA`: the first load did not see `kCancelled`. -/
  | endALoad
  /-- `EndOperationA`: the second load saw `kARunning`. -/
  | endAStore
  | endAPost
  | endBPost
  | cancelPostA
  | cancelPostB
  /-- `Reset`: the load saw `kCancelled`. -/
  | resetWaitA
  | resetWaitB
  | resetStore
  | resetPost
  deriving DecidableEq, Repr

/-- A thread: the operations it has in progress, and its current call. -/
structure Thread where
  held : List Side
  pc : Pc
  deriving DecidableEq, Repr

/-- A thread that has not called anything. -/
def Thread.init : Thread := ⟨[], .idle⟩

/-- The atomic steps, by the call they belong to.  Where a step can go several
ways the label says which way it went. -/
inductive Label
  | startWait (x : Side) (st : RealtimeStatus)
  | startOk (x : Side)
  | startCancelled (x : Side)
  | startRefused (x : Side)
  | startRepost (x : Side)
  | endALoad
  | endACancelled
  | endAReload
  | endARefused
  | endAStore
  | endAPost (st : RealtimeStatus)
  | endBOk
  | endBCancelled
  | endBRefused
  | endBPost (st : RealtimeStatus)
  | cancelStore
  | cancelPostA
  | cancelPostB
  | resetCheck
  | resetRefused
  | resetWaitA (st : RealtimeStatus)
  | resetWaitB (st : RealtimeStatus)
  | resetStore
  | resetPost (st : RealtimeStatus)

/-- The status a step returns to the caller, if it ends its call. -/
def Label.returns : Label → Option RealtimeStatus
  | .startWait _ st => if st.isOk then none else some st
  | .startOk _ => some rtOkStatus
  | .startRepost .a => some (formatRealtimeStatus .aborted
      (ascii "Not starting operation A: lockstep has been cancelled"))
  | .startRepost .b => some (formatRealtimeStatus .aborted
      (ascii "Not starting operation B: lockstep has been cancelled"))
  | .startRefused .a => some (formatRealtimeStatus .failedPrecondition
      (ascii "Not starting operation A: expected State::kBFinished"))
  | .startRefused .b => some (formatRealtimeStatus .failedPrecondition
      (ascii "Expected State::kAFinished"))
  | .endACancelled => some rtOkStatus
  | .endARefused => some (formatRealtimeStatus .failedPrecondition
      (ascii "Not ending operation A: Did you call StartOperationA...?"))
  | .endAPost st => some st
  | .endBCancelled => some rtOkStatus
  | .endBRefused => some (formatRealtimeStatus .failedPrecondition
      (ascii "Mismatched call to EndOperationB. Did you call StartOperationB...?"))
  | .endBPost st => some st
  | .resetRefused => some (formatRealtimeStatus .failedPrecondition
      (ascii "Reset expects a cancelled lockstep."))
  | .resetWaitA st => if st.isOk then none else some st
  | .resetWaitB st => if st.isOk then none else some st
  | .resetPost st => some st
  | _ => none

/-- One atomic step of a thread `th` on the lockstep `s`. -/
inductive Atom : Shared → Thread → Label → Shared → Thread → Prop
  | startWait {s : Shared} {th : Thread} (x : Side) (f : BinaryFutex) (st : RealtimeStatus)
      (hpc : th.pc = .idle) (hwait : (x.awaited s).Wait f st) :
      Atom s th (.startWait x st) (x.setAwaited s f)
        { th with pc := if st.isOk then .startCas x else .idle }
  | startOk {s : Shared} {th : Thread} (x : Side)
      (hpc : th.pc = .startCas x) (hs : s.state = x.expected) :
      Atom s th (.startOk x) { s with state := x.running } ⟨x :: th.held, .idle⟩
  | startCancelled {s : Shared} {th : Thread} (x : Side)
      (hpc : th.pc = .startCas x) (hs : s.state = .cancelled) :
      Atom s th (.startCancelled x) s { th with pc := .startRepost x }
  | startRefused {s : Shared} {th : Thread} (x : Side)
      (hpc : th.pc = .startCas x) (hs : s.state ≠ x.expected) (hc : s.state ≠ .cancelled) :
      Atom s th (.startRefused x) s { th with pc := .idle }
  | startRepost {s : Shared} {th : Thread} (x : Side) (hpc : th.pc = .startRepost x) :
      Atom s th (.startRepost x) (x.setAwaited s (x.awaited s).post.1) { th with pc := .idle }
  | endACancelled {s : Shared} {th : Thread} (hpc : th.pc = .idle) (hs : s.state = .cancelled) :
      Atom s th .endACancelled s ⟨th.held.erase .a, .idle⟩
  | endALoad {s : Shared} {th : Thread} (hpc : th.pc = .idle) (hs : s.state ≠ .cancelled) :
      Atom s th .endALoad s { th with pc := .endALoad }
  | endARefused {s : Shared} {th : Thread} (hpc : th.pc = .endALoad) (hs : s.state ≠ .aRunning) :
      Atom s th .endARefused s ⟨th.held.erase .a, .idle⟩
  | endAReload {s : Shared} {th : Thread} (hpc : th.pc = .endALoad) (hs : s.state = .aRunning) :
      Atom s th .endAReload s { th with pc := .endAStore }
  -- an unconditional store: whatever happened since the second load is overwritten
  | endAStore {s : Shared} {th : Thread} (hpc : th.pc = .endAStore) :
      Atom s th .endAStore { s with state := .aFinished } ⟨th.held.erase .a, .endAPost⟩
  | endAPost {s : Shared} {th : Thread} (hpc : th.pc = .endAPost) :
      Atom s th (.endAPost s.aFinished.post.2) { s with aFinished := s.aFinished.post.1 }
        { th with pc := .idle }
  | endBOk {s : Shared} {th : Thread} (hpc : th.pc = .idle) (hs : s.state = .bRunning) :
      Atom s th .endBOk { s with state := .bFinished } ⟨th.held.erase .b, .endBPost⟩
  | endBCancelled {s : Shared} {th : Thread} (hpc : th.pc = .idle) (hs : s.state = .cancelled) :
      Atom s th .endBCancelled s ⟨th.held.erase .b, .idle⟩
  | endBRefused {s : Shared} {th : Thread} (hpc : th.pc = .idle) (hs : s.state ≠ .bRunning)
      (hc : s.state ≠ .cancelled) :
      Atom s th .endBRefused s ⟨th.held.erase .b, .idle⟩
  | endBPost {s : Shared} {th : Thread} (hpc : th.pc = .endBPost) :
      Atom s th (.endBPost s.bFinished.post.2) { s with bFinished := s.bFinished.post.1 }
        { th with pc := .idle }
  | cancelStore {s : Shared} {th : Thread} (hpc : th.pc = .idle) :
      Atom s th .cancelStore { s with state := .cancelled } { th with pc := .cancelPostA }
  | cancelPostA {s : Shared} {th : Thread} (hpc : th.pc = .cancelPostA) :
      Atom s th .cancelPostA { s with aFinished := s.aFinished.post.1 }
        { th with pc := .cancelPostB }
  | cancelPostB {s : Shared} {th : Thread} (hpc : th.pc = .cancelPostB) :
      Atom s th .cancelPostB { s with bFinished := s.bFinished.post.1 } { th with pc := .idle }
  | resetRefused {s : Shared} {th : Thread} (hpc : th.pc = .idle) (hs : s.state ≠ .cancelled) :
      Atom s th .resetRefused s { th with pc := .idle }
  | resetCheck {s : Shared} {th : Thread} (hpc : th.pc = .idle) (hs : s.state = .cancelled) :
      Atom s th .resetCheck s { th with pc := .resetWaitA }
  | resetWaitA {s : Shared} {th : Thread} (f : BinaryFutex) (st : RealtimeStatus)
      (hpc : th.pc = .resetWaitA) (hwait : s.aFinished.Wait f st) :
      Atom s th (.resetWaitA st) { s with aFinished := f }
        { th with pc := if st.isOk then .resetWaitB else .idle }
  | resetWaitB {s : Shared} {th : Thread} (f : BinaryFutex) (st : RealtimeStatus)
      (hpc : th.pc = .resetWaitB) (hwait : s.bFinished.Wait f st) :
      Atom s th (.resetWaitB st) { s with bFinished := f }
        { th with pc := if st.isOk then .resetStore else .idle }
  | resetStore {s : Shared} {th : Thread} (hpc : th.pc = .resetStore) :
      Atom s th .resetStore { s with state := .bFinished } { th with pc := .resetPost }
  | resetPost {s : Shared} {th : Thread} (hpc : th.pc = .resetPost) :
      Atom s th (.resetPost s.bFinished.post.2) { s with bFinished := s.bFinished.post.1 }
        { th with pc := .idle }

/-- A lockstep and the threads that use it. -/
abbrev Config (Tid : Type) := Pool Tid Shared Thread

/-- Nobody has called anything yet. -/
def initial (Tid : Type) : Config Tid := ⟨.init, fun _ => .init⟩

/-- `Reset` has seen `kCancelled` and has not stored `kBFinished` yet. -/
def Pc.resetting : Pc → Prop
  | .resetWaitA | .resetWaitB | .resetStore => True
  | _ => False

/-- Some call of `Reset` is in progress at this program point. -/
def Pc.inReset : Pc → Prop
  | .resetWaitA | .resetWaitB | .resetStore | .resetPost => True
  | _ => False

instance (pc : Pc) : Decidable pc.resetting := by
  cases pc <;> unfold Pc.resetting <;> infer_instance

theorem Pc.resetting.inReset {pc : Pc} (h : pc.resetting) : pc.inReset := by
  cases pc <;> first | exact trivial | exact h.elim

end Intrinsic.Lockstep
