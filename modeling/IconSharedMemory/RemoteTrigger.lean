import IconSharedMemory.Runs
import IconSharedMemory.Futex

/-! # The trigger server

`RemoteTriggerServer` (`icon/interprocess/remote_trigger/remote_trigger_server.cc`) runs a
callback whenever a client posts a request, and posts a response when the callback has
returned.  Requests are served by a loop (`Run`), in the thread that called `Start` or in a
thread of its own (`StartAsync`), or one by one by whoever calls `Query`.

The model is the pool of all threads that use one server, its clients included.  A step is
one access to `is_running_` or to `async_thread_`, one operation on a futex, or the
beginning or the end of a callback.  The thread that a `std::jthread` creates is a number:
it is `created`, an idle thread of the pool takes it up, and once `Run` has returned it has
`ended` and can be joined.
-/
namespace Intrinsic.RemoteTrigger
open Runs

/-! ## Data -/

/-- The thread behind a `std::jthread`. -/
inductive JThread
  | none
  /-- It has not begun yet; `prelude` says that `Run` was given a prelude. -/
  | created (prelude : Bool)
  | running
  | ended
  deriving DecidableEq, Repr

/-- The members of a `RemoteTriggerServer`, the futexes they refer to, and the threads. -/
structure Shared where
  isRunning : Bool
  /-- `callback_` is not null. -/
  callback : Bool
  requestFutex : BinaryFutex
  responseFutex : BinaryFutex
  /-- The thread that `async_thread_` stands for while it is joinable. -/
  asyncThread : Option Nat
  threads : Nat → JThread

/-- A new server. -/
def Shared.init (callback : Bool) : Shared where
  isRunning := false
  callback := callback
  requestFutex := .make false
  responseFutex := .make false
  asyncThread := none
  threads := fun _ => .none

/-- Who serves requests: `Run`, called by `Start` or in a thread of its own, or `Query`. -/
inductive Server
  | start
  | async (n : Nat)
  | query
  deriving DecidableEq, Repr

/-- Where a thread is: named after the step that follows. -/
inductive Pc
  | idle
  /-- `StartAsync` has found that the server is not running. -/
  | asyncJoinable (prelude : Bool)
  | asyncCas (prelude : Bool)
  | asyncCreate (prelude : Bool)
  /-- `StartAsync` moves the new thread into `async_thread_`. -/
  | asyncAssign (n : Nat)
  | asyncCheck
  /-- `StartAsync` gives up. -/
  | asyncStop
  | asyncJoin
  | prelude (k : Server)
  /-- The loop's condition. -/
  | load (k : Server)
  | wait (k : Server)
  /-- The load of `is_running_` after a successful wait. -/
  | recheck (k : Server)
  /-- The comparison of `callback_` with null, and the call. -/
  | check (k : Server)
  /-- The callback is being executed. -/
  | callback (k : Server)
  | post (k : Server)
  /-- `Run` stores false in `is_running_` and returns. -/
  | stop (k : Server)
  /-- A client waits for the response. -/
  | awaiting
  deriving DecidableEq, Repr

/-- What a step shows. -/
inductive Label
  | internal
  /-- `Start` has exchanged `is_running_`, which was false if it `entered`. -/
  | start (entered : Bool)
  /-- `StartAsync` has compared and exchanged `is_running_`. -/
  | asyncCas (entered : Bool)
  /-- `StartAsync` has returned. -/
  | startedAsync (st : Status)
  | requestStop
  | join
  /-- The thread of this number has begun. -/
  | began (n : Nat)
  /-- `Query` has loaded `is_running_`. -/
  | query (entered : Bool)
  | waited (st : RealtimeStatus)
  /-- The callback has been called. -/
  | callback
  | returned
  /-- The server has posted the response. -/
  | responded (st : RealtimeStatus)
  /-- A client has posted a request. -/
  | posted (st : RealtimeStatus)
  /-- A client has received the response. -/
  | received
  /-- A client does not wait any longer. -/
  | gaveUp
  deriving DecidableEq, Repr

/-! ## Steps -/

/-- `StartAsync` finds the thread of a loop that was not joined. -/
def incompleteShutdown : Status :=
  ⟨.failedPrecondition,
    ascii "RemoteTriggerServer is not running, but its async thread is active. " ++
      ascii "Did you call `RequestStop()` and *not* call `JoinAsyncThread()` afterwards?"⟩

def failedToStart : Status :=
  ⟨.internal, ascii "RemoteTriggerServer failed to start async thread."⟩

/-- `Run` or `Query` returns. -/
def Server.leave : Server → Shared → Shared
  | .async n, s => { s with threads := Function.update s.threads n .ended }
  | _, s => s

@[simp] theorem leave_isRunning (k : Server) (s : Shared) :
    (k.leave s).isRunning = s.isRunning := by
  cases k <;> rfl

@[simp] theorem leave_requestFutex (k : Server) (s : Shared) :
    (k.leave s).requestFutex = s.requestFutex := by
  cases k <;> rfl

@[simp] theorem leave_responseFutex (k : Server) (s : Shared) :
    (k.leave s).responseFutex = s.responseFutex := by
  cases k <;> rfl

/-- Where `Run` or `Query` goes on after the wait. -/
def Server.afterWait (k : Server) (st : RealtimeStatus) : Pc :=
  match k with
  | .query => if st.isOk then .check k else .idle
  | _ => if st.code = .deadlineExceeded then .load k else if st.isOk then .recheck k else .stop k

/-- Where `Run` or `Query` goes on when `callback_` is null. -/
def Server.withoutCallback (k : Server) : Pc :=
  match k with
  | .query => .idle
  | _ => .stop k

/-- Where `Run` or `Query` goes on after the response. -/
def Server.afterPost (k : Server) (st : RealtimeStatus) : Pc :=
  match k with
  | .query => .idle
  | _ => if st.isOk then .load k else .stop k

/-- `async_thread_` can be joined without waiting, or is not joinable. -/
def Shared.joins (s : Shared) : Prop := ∀ n, s.asyncThread = some n → s.threads n = .ended

/-- One atomic step of a thread that is at the program point it starts from. -/
inductive Atom : Shared → Pc → Label → Shared → Pc → Prop
  | startRunning {s : Shared} (hrunning : s.isRunning = true) :
      Atom s .idle (.start false) s .idle
  | start {s : Shared} (hstopped : s.isRunning = false) :
      Atom s .idle (.start true) { s with isRunning := true } (.load .start)
  | asyncLoad {s : Shared} (prelude : Bool) :
      Atom s .idle .internal s (if s.isRunning then .asyncCas prelude else .asyncJoinable prelude)
  | asyncIncomplete {s : Shared} {prelude : Bool} (hjoinable : s.asyncThread ≠ none) :
      Atom s (.asyncJoinable prelude) (.startedAsync incompleteShutdown) s .idle
  | asyncJoinable {s : Shared} {prelude : Bool} (hjoined : s.asyncThread = none) :
      Atom s (.asyncJoinable prelude) .internal s (.asyncCas prelude)
  | asyncRunning {s : Shared} {prelude : Bool} (hrunning : s.isRunning = true) :
      Atom s (.asyncCas prelude) (.asyncCas false) s .idle
  | asyncCas {s : Shared} {prelude : Bool} (hstopped : s.isRunning = false) :
      Atom s (.asyncCas prelude) (.asyncCas true) { s with isRunning := true }
        (.asyncCreate prelude)
  | asyncCreate {s : Shared} {prelude : Bool} (n : Nat) (hnew : s.threads n = .none) :
      Atom s (.asyncCreate prelude) .internal
        { s with threads := Function.update s.threads n (.created prelude) } (.asyncAssign n)
  -- the assignment joins the thread that `async_thread_` stood for
  | asyncAssign {s : Shared} {n : Nat} (hjoins : s.joins) :
      Atom s (.asyncAssign n) .internal { s with asyncThread := some n } .asyncCheck
  | asyncStarted {s : Shared} (hjoinable : s.asyncThread ≠ none) :
      Atom s .asyncCheck (.startedAsync okStatus) s .idle
  | asyncFailed {s : Shared} (hjoined : s.asyncThread = none) :
      Atom s .asyncCheck .internal s .asyncStop
  | asyncStop {s : Shared} :
      Atom s .asyncStop .requestStop { s with isRunning := false } .asyncJoin
  | asyncJoin {s : Shared} (hjoins : s.joins) :
      Atom s .asyncJoin (.startedAsync failedToStart) { s with asyncThread := none } .idle
  | requestStop {s : Shared} : Atom s .idle .requestStop { s with isRunning := false } .idle
  | join {s : Shared} (hjoins : s.joins) :
      Atom s .idle .join { s with asyncThread := none } .idle
  | began {s : Shared} {prelude : Bool} (n : Nat) (hcreated : s.threads n = .created prelude) :
      Atom s .idle (.began n) { s with threads := Function.update s.threads n .running }
        (if prelude then .prelude (.async n) else .load (.async n))
  | preludeOk {s : Shared} {k : Server} : Atom s (.prelude k) .internal s (.load k)
  | preludeFailed {s : Shared} {k : Server} : Atom s (.prelude k) .internal s (.stop k)
  | goOn {s : Shared} {k : Server} (hrunning : s.isRunning = true) :
      Atom s (.load k) .internal s (.wait k)
  | leave {s : Shared} {k : Server} (hstopped : s.isRunning = false) :
      Atom s (.load k) .internal (k.leave s) .idle
  | waited {s : Shared} {k : Server} {f : BinaryFutex} {st : RealtimeStatus}
      (hwait : s.requestFutex.Wait f st) :
      Atom s (.wait k) (.waited st) { s with requestFutex := f } (k.afterWait st)
  | recheck {s : Shared} {k : Server} (hrunning : s.isRunning = true) :
      Atom s (.recheck k) .internal s (.check k)
  | drop {s : Shared} {k : Server} (hstopped : s.isRunning = false) :
      Atom s (.recheck k) .internal (k.leave s) .idle
  | callback {s : Shared} {k : Server} (hcallback : s.callback = true) :
      Atom s (.check k) .callback s (.callback k)
  | noCallback {s : Shared} {k : Server} (hnull : s.callback = false) :
      Atom s (.check k) .internal s k.withoutCallback
  | returned {s : Shared} {k : Server} : Atom s (.callback k) .returned s (.post k)
  | post {s : Shared} {k : Server} :
      Atom s (.post k) (.responded s.responseFutex.post.2)
        { s with responseFutex := s.responseFutex.post.1 } (k.afterPost s.responseFutex.post.2)
  | stop {s : Shared} {k : Server} :
      Atom s (.stop k) .requestStop (k.leave { s with isRunning := false }) .idle
  | queryRunning {s : Shared} (hrunning : s.isRunning = true) :
      Atom s .idle (.query false) s .idle
  | query {s : Shared} (hstopped : s.isRunning = false) :
      Atom s .idle (.query true) s (.wait .query)
  | clientPost {s : Shared} :
      Atom s .idle (.posted s.requestFutex.post.2)
        { s with requestFutex := s.requestFutex.post.1 }
        (if s.requestFutex.post.2.isOk then .awaiting else .idle)
  | clientReceived {s : Shared} {f : BinaryFutex} (hwait : s.responseFutex.Wait f rtOkStatus) :
      Atom s .awaiting .received { s with responseFutex := f } .idle
  | clientGaveUp {s : Shared} : Atom s .awaiting .gaveUp s .idle

/-- A server and the threads that use it. -/
abbrev Config (Tid : Type) := Pool Tid Shared Pc

/-- A new server; nobody has called it. -/
def initial (Tid : Type) (callback : Bool) : Config Tid := ⟨.init callback, fun _ => .idle⟩

section Step
variable {Tid : Type} [DecidableEq Tid]

/-- **One step of the server or of a client.** -/
abbrev Step (ok : Config Tid → Tid → Label → Prop) :
    Config Tid → Tid × Label → Config Tid → Prop :=
  Pool.Step Atom ok

end Step

/-! ## Who serves -/

/-- A thread of this pool is in `Run`. -/
def Pc.inRun : Pc → Prop
  | .prelude k | .load k | .wait k | .recheck k | .check k | .callback k | .post k | .stop k =>
    k ≠ .query
  | _ => False

/-- The thread executes the callback. -/
def Pc.inCallback : Pc → Prop
  | .callback _ => True
  | _ => False

/-- The step enters: it has found `is_running_` false, and requests will be served. -/
def Label.enters : Label → Bool
  | .start entered | .asyncCas entered | .query entered => entered
  | _ => false

end Intrinsic.RemoteTrigger
