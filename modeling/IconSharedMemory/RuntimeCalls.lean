import IconSharedMemory.HardwareModuleRuntime
import IconSharedMemory.SharedMemoryManager

/-! # Calls of Run and Stop

`HardwareModuleRuntime` is one run of a module, from `Run` to `Stop`.  Here is the view of the
program that calls the two, in any order and any number of times, on a runtime after
`Connect`.  A call is one step.  Of a trigger server it keeps the two members that
`StartAsync` looks at, of the shared memory manager the names of the segments, and of the
socket server whether it serves; whatever else decides how a step inside `Run` ends is an
input (`RunOutcomes`).

`Run` refuses only a runtime that has been stopped.  On one that is running it starts nothing,
because `StartAsync` of a running server does nothing, and calls `Init()` of the module a second
time.  Then it fails, because the segment with the module's information exists already, and on
every error it stops the runtime (`rerun_stops`).  So `Init()` is called once, and no `Run`
stops a running runtime, exactly if `Run` is not called between a successful `Run` and the next
`Stop` (`init_once_iff`).
-/
namespace Intrinsic.HardwareModuleRuntime
open DomainSocket (Name)
open SharedMemoryManager (quoted kMaxNumberOfSegments)

/-! ## Servers -/

/-- The members of a trigger server that `StartAsync` looks at. -/
structure ServerFlags where
  isRunning : Bool
  /-- `async_thread_` is joinable. -/
  joinable : Bool
  deriving DecidableEq, Repr

namespace ServerFlags

def of (s : RemoteTrigger.Shared) : ServerFlags := ⟨s.isRunning, s.asyncThread.isSome⟩

/-- `StartAsync`, if nobody else uses the server; `created` says that the new thread is
joinable. -/
def startAsync (f : ServerFlags) (created : Bool) : Status × ServerFlags :=
  if f.isRunning = false ∧ f.joinable = true then (RemoteTrigger.incompleteShutdown, f)
  else if f.isRunning then (okStatus, f)
  else if created then (okStatus, ⟨true, true⟩)
  else (RemoteTrigger.failedToStart, ⟨false, false⟩)

def requestStop (f : ServerFlags) : ServerFlags := { f with isRunning := false }

def joinAsyncThread (f : ServerFlags) : ServerFlags := { f with joinable := false }

end ServerFlags

section Solo
open Runs RemoteTrigger

/-- **`StartAsync` as the server's steps**: alone, a thread can take the steps of `StartAsync`,
and the last one shows the status. -/
theorem startAsync_run {s : Shared} (hnew : ∃ n, s.threads n = .none) :
    ∃ (w : List RemoteTrigger.Label) (l : RemoteTrigger.Label) (s' : Shared),
      Run (Pool.Solo Atom) (s, .idle) (w ++ [l]) (s', .idle) ∧
        startResult l = some ((ServerFlags.of s).startAsync true).1 ∧
        ServerFlags.of s' = ((ServerFlags.of s).startAsync true).2 := by
  obtain ⟨n, hn⟩ := hnew
  have hload := Atom.asyncLoad (s := s) true
  cases hrunning : s.isRunning with
  | true =>
    rw [hrunning] at hload
    refine ⟨[.internal], .asyncCas false, s, ?_, ?_, ?_⟩
    · exact (Run.single (.mk hload)).snoc (.mk (.asyncRunning hrunning))
    · simp [startResult, ServerFlags.of, ServerFlags.startAsync, hrunning]
    · simp [ServerFlags.of, ServerFlags.startAsync, hrunning]
  | false =>
    rw [hrunning] at hload
    cases hthread : s.asyncThread with
    | some m =>
      have hjoinable : s.asyncThread ≠ none := by
        rw [hthread]
        exact nofun
      refine ⟨[.internal], .startedAsync incompleteShutdown, s, ?_, ?_, ?_⟩
      · exact (Run.single (.mk hload)).snoc (.mk (.asyncIncomplete hjoinable))
      · simp [startResult, ServerFlags.of, ServerFlags.startAsync, hrunning, hthread]
      · simp [ServerFlags.of, ServerFlags.startAsync, hrunning, hthread]
    | none =>
      refine ⟨[.internal, .internal, .asyncCas true, .internal, .internal],
        .startedAsync okStatus,
        { s with
          isRunning := true
          threads := Function.update s.threads n (.created true)
          asyncThread := some n }, ?_, ?_, ?_⟩
      · refine .cons (.mk hload) (.cons (.mk (.asyncJoinable hthread)) ?_)
        refine .cons (.mk (.asyncCas hrunning)) (.cons (.mk (.asyncCreate n hn)) ?_)
        refine .cons (.mk (.asyncAssign ?_)) (.single (.mk (.asyncStarted nofun)))
        intro m hm
        cases hthread.symm.trans hm
      · simp [startResult, ServerFlags.of, ServerFlags.startAsync, hrunning, hthread]
      · simp [ServerFlags.of, ServerFlags.startAsync, hrunning, hthread]

end Solo

/-! ## The runtime -/

/-- The members of a `HardwareModuleRuntime` that `Run` and `Stop` use. -/
structure Members where
  servers : Service → ServerFlags
  /-- `state_change_thread_` is joinable. -/
  stateChangeThread : Bool
  /-- The names of the segments of `shared_memory_manager_`. -/
  segments : List Name
  /-- `domain_socket_server_` has a `request_handler_`. -/
  serving : Bool
  socketPath : List UInt8
  hasStopped : Bool

/-- A runtime after `Connect`, which has added the segments of the servers. -/
def connected (segments : List Name) (socketPath : List UInt8) : Members where
  servers := fun _ => ⟨false, false⟩
  stateChangeThread := false
  segments := segments
  serving := false
  socketPath := socketPath
  hasStopped := false

/-- What a call does with the module and the servers. -/
inductive Event
  /-- `Init()` has returned this. -/
  | init (st : Status)
  /-- The state is set to `kInitFailed`. -/
  | initFailed (st : Status)
  /-- `Shutdown()` of the handler -/
  | handlerShutdown
  | requestStop (x : Service)
  /-- `Shutdown()` of the module -/
  | shutdown
  | join (x : Service)
  deriving DecidableEq, Repr

/-- What a part of a call returns, leaves and has done. -/
structure Outcome where
  status : Status
  members : Members
  events : List Event

namespace Outcome

/-- `INTR_RETURN_STATUS_IF_ERROR`: go on unless there was an error. -/
def andThen (a : Outcome) (f : Members → Outcome) : Outcome :=
  if a.status.isOk then { f a.members with events := a.events ++ (f a.members).events } else a

/-- `set_init_failed_on_error` -/
def setInitFailedOnError (a : Outcome) : Outcome :=
  if a.status.isOk then a else { a with events := a.events ++ [.initFailed a.status] }

end Outcome

/-- How the steps inside `Run` end. -/
structure RunOutcomes where
  /-- The thread that `StartAsync` creates is joinable. -/
  created : Service → Bool
  init : Status
  /-- The segments that `Init()` adds. -/
  advertised : List Name
  /-- What `AddSegment` returns for a name that it does not refuse. -/
  addSegment : Status
  /-- What `ServeShmDescriptors` returns if the server does not serve yet. -/
  serve : Status
  /-- What `Shutdown()` of the module returns, if `Run` stops the runtime. -/
  shutdown : Status

def kModuleInfoName : Name := ascii "intrinsic_module_info"

namespace Members

def startAsync (m : Members) (x : Service) (created : Bool) : Outcome :=
  ⟨((m.servers x).startAsync created).1,
    { m with servers := Function.update m.servers x ((m.servers x).startAsync created).2 }, []⟩

/-- `Init()` of the module.  Whether it was successful is only looked at later. -/
def init (m : Members) (o : RunOutcomes) : Outcome :=
  ⟨okStatus, { m with segments := m.segments ++ o.advertised },
    .init o.init :: if o.init.isOk then [] else [.initFailed o.init]⟩

/-- `AddSegment` of the segment with the module's information. -/
def addModuleInfo (m : Members) (added : Status) : Outcome :=
  if kMaxNumberOfSegments ≤ m.segments.length then
    ⟨formatStatus .resourceExhausted
      (quoted "Unable to add " kModuleInfoName (ascii ". Max number of segments (" ++
        ascii (toString kMaxNumberOfSegments) ++ ascii ") exceeded.")), m, []⟩
  else if kModuleInfoName ∈ m.segments then
    ⟨formatStatus .alreadyExists
      (quoted "Shared memory segment " kModuleInfoName (ascii " already exists")), m, []⟩
  else if added.isOk then
    ⟨added, { m with segments := m.segments ++ [kModuleInfoName] }, []⟩
  else ⟨added, m, []⟩

def serveShmDescriptors (m : Members) (served : Status) : Outcome :=
  if m.serving then
    ⟨formatStatus .failedPrecondition
      (ascii "Server is already serving descriptors on socket " ++ m.socketPath), m, []⟩
  else if served.isOk then ⟨served, { m with serving := true }, []⟩
  else ⟨served, m, []⟩

def addSegmentInfoServeShmDescriptors (m : Members) (o : RunOutcomes) : Outcome :=
  (m.addModuleInfo o.addSegment).andThen fun m => m.serveShmDescriptors o.serve

/-- `Run` starts a server after the initialisation. -/
def startServer (m : Members) (o : RunOutcomes) (x : Service) : Outcome :=
  (m.startAsync x (o.created x)).setInitFailedOnError

/-- The end of `Run`. -/
def startServers (m : Members) (o : RunOutcomes) : Outcome :=
  (m.startServer o .activate).andThen fun m =>
  (m.startServer o .deactivate).andThen fun m =>
  (m.startServer o .readStatus).andThen fun m =>
  m.startServer o .applyCommand

/-- `Run` after `Init()`. -/
def launch (m : Members) (o : RunOutcomes) : Outcome :=
  (m.addSegmentInfoServeShmDescriptors o).andThen fun m =>
  (Outcome.mk o.init m []).andThen fun m =>
  startServers { m with stateChangeThread := true } o

/-- `Run` up to its error exits. -/
def attempt (m : Members) (o : RunOutcomes) : Outcome :=
  (m.startAsync .restart (o.created .restart)).andThen fun m =>
  (m.init o).andThen fun m =>
  m.launch o

/-- `Stop`, when `Shutdown()` of the module returns `shutdown`. -/
def stop (m : Members) (shutdown : Status) : Outcome where
  status := shutdown
  members :=
    let requested := stopOrder.foldl
      (fun f x => Function.update f x (f x).requestStop) m.servers
    { m with
      servers := joinOrder.foldl
        (fun f x => Function.update f x (f x).joinAsyncThread) requested
      stateChangeThread := false
      hasStopped := true }
  events := .handlerShutdown :: stopOrder.map .requestStop ++ .shutdown :: joinOrder.map .join

/-- `Run`: an error exit stops the runtime. -/
def run (m : Members) (o : RunOutcomes) : Outcome :=
  if m.hasStopped then
    ⟨formatStatus .failedPrecondition
      (ascii "Cannot restart HardwareModuleRuntime after Stop(), or failed attempts at Run()"),
      m, []⟩
  else
    let a := m.attempt o
    if a.status.isOk then a
    else
      let s := a.members.stop o.shutdown
      ⟨a.status, s.members, a.events ++ s.events⟩

end Members

/-! ## What a call does -/

section Calls
variable {a : Outcome} {f : Members → Outcome} {m : Members} {o : RunOutcomes}

theorem Outcome.andThen_isOk (h : (a.andThen f).status.isOk = true) :
    a.status.isOk = true ∧ (f a.members).status.isOk = true ∧
      (a.andThen f).members = (f a.members).members := by
  unfold andThen at h ⊢
  split at h
  · next ha => exact ⟨ha, h, by rw [if_pos ha]⟩
  · contradiction

/-- What both parts keep is kept, with or without an error in the first. -/
theorem Outcome.andThen_keeps {P : Members → Prop} (ha : P a.members)
    (hf : ∀ m, P m → P (f m).members) : P (a.andThen f).members := by
  unfold andThen
  split
  · exact hf _ ha
  · exact ha

/-- The number of calls of `Init()`. -/
def inits (events : List Event) : Nat :=
  events.countP fun e => match e with
    | .init _ => true
    | _ => false

theorem inits_append (e e' : List Event) : inits (e ++ e') = inits e + inits e' :=
  List.countP_append

theorem Outcome.inits_andThen_le :
    inits (a.andThen f).events ≤ inits a.events + inits (f a.members).events := by
  unfold andThen
  split
  · exact Nat.le_of_eq (inits_append _ _)
  · exact Nat.le_add_right _ _

theorem Outcome.inits_andThen (ha : inits a.events = 0) (hf : ∀ m, inits (f m).events = 0) :
    inits (a.andThen f).events = 0 := by
  have h := inits_andThen_le (a := a) (f := f)
  rw [ha, hf] at h
  exact Nat.le_zero.mp h

theorem inits_startServer (m : Members) (o : RunOutcomes) (x : Service) :
    inits (m.startServer o x).events = 0 := by
  unfold Members.startServer Outcome.setInitFailedOnError
  split <;> rfl

theorem inits_addSegmentInfo (m : Members) (o : RunOutcomes) :
    inits (m.addSegmentInfoServeShmDescriptors o).events = 0 := by
  refine Outcome.inits_andThen ?_ fun m => ?_
  · unfold Members.addModuleInfo
    repeat' split
    all_goals rfl
  · unfold Members.serveShmDescriptors
    repeat' split
    all_goals rfl

theorem inits_startServers (m : Members) (o : RunOutcomes) :
    inits (m.startServers o).events = 0 := by
  refine Outcome.inits_andThen (inits_startServer _ o _) fun m => ?_
  refine Outcome.inits_andThen (inits_startServer _ o _) fun m => ?_
  exact Outcome.inits_andThen (inits_startServer _ o _) fun m => inits_startServer m o _

theorem inits_launch (m : Members) (o : RunOutcomes) : inits (m.launch o).events = 0 := by
  refine Outcome.inits_andThen (inits_addSegmentInfo m o) fun m => ?_
  exact Outcome.inits_andThen rfl fun m => inits_startServers _ o

theorem inits_init (m : Members) (o : RunOutcomes) : inits (m.init o).events = 1 := by
  unfold Members.init
  split <;> rfl

/-- One `Run` calls `Init()` at most once. -/
theorem inits_attempt_le (m : Members) (o : RunOutcomes) : inits (m.attempt o).events ≤ 1 := by
  refine Nat.le_trans Outcome.inits_andThen_le ?_
  refine Nat.le_trans (Nat.add_le_add_left Outcome.inits_andThen_le _) ?_
  rw [inits_init, inits_launch]
  exact Nat.le_refl 1

theorem inits_stop (m : Members) (shutdown : Status) : inits (m.stop shutdown).events = 0 := by
  rfl

/-- **A runtime that is running**: there is a thread for state changes, the segment with the
module's information has been added, and `Stop` has not been called. -/
structure Launched (m : Members) : Prop where
  thread : m.stateChangeThread = true
  info : kModuleInfoName ∈ m.segments
  live : m.hasStopped = false

theorem Launched.startServer (h : Launched m) (x : Service) :
    Launched (m.startServer o x).members := by
  unfold Members.startServer Outcome.setInitFailedOnError
  split <;> exact ⟨h.thread, h.info, h.live⟩

/-- The segment with the module's information is added at most once. -/
theorem addSegmentInfo_isOk (h : (m.addSegmentInfoServeShmDescriptors o).status.isOk = true) :
    kModuleInfoName ∉ m.segments ∧
      kModuleInfoName ∈ (m.addSegmentInfoServeShmDescriptors o).members.segments ∧
      (m.addSegmentInfoServeShmDescriptors o).members.hasStopped = m.hasStopped := by
  obtain ⟨hadd, hserve, hmembers⟩ := Outcome.andThen_isOk h
  rw [Members.addSegmentInfoServeShmDescriptors, hmembers]
  -- `AddSegment` was successful, which leaves one branch
  have hadded : kModuleInfoName ∉ m.segments ∧ (m.addModuleInfo o.addSegment).members =
      { m with segments := m.segments ++ [kModuleInfoName] } := by
    unfold Members.addModuleInfo at hadd ⊢
    split
    · next hfull =>
      rw [if_pos hfull] at hadd
      cases hadd
    · next hfull =>
      rw [if_neg hfull] at hadd
      split
      · next hmem =>
        rw [if_pos hmem] at hadd
        cases hadd
      · next hmem =>
        rw [if_neg hmem] at hadd
        split
        · exact ⟨hmem, rfl⟩
        · next hnot =>
          rw [if_neg hnot] at hadd
          contradiction
  rw [hadded.2]
  refine ⟨hadded.1, ?_⟩
  unfold Members.serveShmDescriptors
  split
  · exact ⟨by simp, rfl⟩
  · split <;> exact ⟨by simp, rfl⟩

theorem Launched.startServers (h : Launched m) : Launched (m.startServers o).members := by
  refine Outcome.andThen_keeps (h.startServer _) fun m hm => ?_
  refine Outcome.andThen_keeps (hm.startServer _) fun m hm => ?_
  exact Outcome.andThen_keeps (hm.startServer _) fun m hm => hm.startServer _

theorem launch_isOk (h : (m.launch o).status.isOk = true) (hlive : m.hasStopped = false) :
    kModuleInfoName ∉ m.segments ∧ Launched (m.launch o).members := by
  obtain ⟨hadd, hrest, hmembers⟩ := Outcome.andThen_isOk h
  obtain ⟨-, -, hmembers'⟩ := Outcome.andThen_isOk hrest
  obtain ⟨hnew, hinfo, hstopped⟩ := addSegmentInfo_isOk hadd
  refine ⟨hnew, ?_⟩
  rw [Members.launch, hmembers, hmembers']
  exact .startServers ⟨rfl, hinfo, hstopped.trans hlive⟩

/-- **A successful `Run`** launches a runtime that has not got the segment yet. -/
theorem attempt_isOk (h : (m.attempt o).status.isOk = true) (hlive : m.hasStopped = false) :
    kModuleInfoName ∉ m.segments ∧ Launched (m.attempt o).members := by
  obtain ⟨-, hrest, hmembers⟩ := Outcome.andThen_isOk h
  obtain ⟨-, hlaunch, hmembers'⟩ := Outcome.andThen_isOk hrest
  obtain ⟨hnew, hlaunched⟩ := launch_isOk hlaunch hlive
  refine ⟨fun hmem => hnew (List.mem_append_left _ hmem), ?_⟩
  rw [Members.attempt, hmembers, hmembers']
  exact hlaunched

/-- An unsuccessful `Run` stops the runtime, unless it refuses to run. -/
theorem run_cases (m : Members) (o : RunOutcomes) :
    (m.hasStopped = true ∧ (m.run o).members = m ∧ (m.run o).status.isOk = false ∧
      (m.run o).events = []) ∨
    (m.hasStopped = false ∧ (m.attempt o).status.isOk = true ∧ m.run o = m.attempt o) ∨
    (m.hasStopped = false ∧ (m.attempt o).status.isOk = false ∧
      (m.run o).status = (m.attempt o).status ∧
      (m.run o).members = ((m.attempt o).members.stop o.shutdown).members ∧
      (m.run o).events =
        (m.attempt o).events ++ ((m.attempt o).members.stop o.shutdown).events) := by
  unfold Members.run
  cases hstopped : m.hasStopped with
  | true => exact .inl ⟨rfl, rfl, rfl, rfl⟩
  | false =>
    cases hok : (m.attempt o).status.isOk with
    | true => exact .inr (.inl ⟨rfl, rfl, by simp [hok]⟩)
    | false => exact .inr (.inr ⟨rfl, rfl, by simp [hok], by simp [hok], by simp [hok]⟩)

/-- **`Run` on a runtime that is running** fails and stops all servers. -/
theorem rerun_stops (h : Launched m) (o : RunOutcomes) :
    (m.run o).status.isOk = false ∧ ∀ x ∈ stopOrder, .requestStop x ∈ (m.run o).events := by
  rcases run_cases m o with ⟨hstopped, -⟩ | ⟨-, hok, -⟩ | ⟨-, hfail, hstatus, -, hevents⟩
  · cases hstopped.symm.trans h.live
  · exact absurd h.info (attempt_isOk hok h.live).1
  · refine ⟨by rw [hstatus, hfail], fun x hx => ?_⟩
    rw [hevents]
    refine List.mem_append_right _ ?_
    exact List.mem_cons_of_mem _ (List.mem_append_left _ (List.mem_map_of_mem hx))

end Calls

/-! ## Every sequence of calls -/

/-- A call, or the end of a server's loop, which can come at any time. -/
inductive Call
  | run (o : RunOutcomes)
  | stop (shutdown : Status)
  | ended (x : Service)

/-- What has come of the calls so far. -/
structure History where
  members : Members
  /-- A `Run` was successful, and `Stop` has not been called since. -/
  running : Bool
  events : List Event

def History.next (h : History) : Call → History
  | .run o =>
    ⟨(h.members.run o).members, (h.members.run o).status.isOk,
      h.events ++ (h.members.run o).events⟩
  | .stop shutdown =>
    ⟨(h.members.stop shutdown).members, false, h.events ++ (h.members.stop shutdown).events⟩
  | .ended x =>
    { h with members := { h.members with
        servers := Function.update h.members.servers x (h.members.servers x).requestStop } }

/-- The calls on a runtime after `Connect`. -/
def history (segments : List Name) (socketPath : List UInt8) (calls : List Call) : History :=
  calls.foldl History.next ⟨connected segments socketPath, false, []⟩

section Histories
variable {segments : List Name} {socketPath : List UInt8} {calls : List Call} {h : History}

theorem history_snoc (calls : List Call) (c : Call) :
    history segments socketPath (calls ++ [c]) = (history segments socketPath calls).next c := by
  simp [history]

/-- A runtime is either running or has no thread for state changes. -/
structure History.Sound (h : History) : Prop where
  running : h.running = h.members.stateChangeThread
  launched : h.running = true → Launched h.members

theorem History.Sound.next (hh : History.Sound h) (c : Call) : History.Sound (h.next c) := by
  cases c with
  | run o =>
    rcases run_cases h.members o with ⟨hstopped, hmembers, hfail, -⟩ | ⟨hlive, hok, hrun⟩ |
      ⟨-, hfail, hstatus, hmembers, -⟩
    · have hidle : h.running ≠ true := by
        intro hrunning
        cases hstopped.symm.trans (hh.launched hrunning).live
      refine ⟨?_, fun hrunning => absurd (hfail.symm.trans hrunning) nofun⟩
      show (h.members.run o).status.isOk = (h.members.run o).members.stateChangeThread
      rw [hmembers, hfail, ← hh.running]
      exact (Bool.eq_false_iff.mpr hidle).symm
    · have hlaunched := (attempt_isOk hok hlive).2
      rw [← hrun] at hok hlaunched
      exact ⟨hok.trans hlaunched.thread.symm, fun _ => hlaunched⟩
    · rw [← hstatus] at hfail
      refine ⟨?_, fun hrunning => absurd (hfail.symm.trans hrunning) nofun⟩
      show (h.members.run o).status.isOk = (h.members.run o).members.stateChangeThread
      rw [hmembers, hfail]
      rfl
  | stop shutdown => exact ⟨rfl, nofun⟩
  | ended x =>
    refine ⟨hh.running, fun hrunning => ?_⟩
    obtain ⟨hthread, hinfo, hlive⟩ := hh.launched hrunning
    exact ⟨hthread, hinfo, hlive⟩

theorem sound_history (calls : List Call) : History.Sound (history segments socketPath calls) := by
  induction calls using List.reverseRecOn with
  | nil => exact ⟨rfl, nofun⟩
  | append_singleton calls c ih =>
    rw [history_snoc]
    exact ih.next c

/-- **Condition of `Run`**: it is never called while the thread for state changes is there,
that is between a successful `Run` and the next `Stop`. -/
def RunWhenIdle (segments : List Name) (socketPath : List UInt8) (calls : List Call) : Prop :=
  ∀ before o after, calls = before ++ .run o :: after →
    (history segments socketPath before).members.stateChangeThread = false

theorem RunWhenIdle.dropLast {c : Call} (h : RunWhenIdle segments socketPath (calls ++ [c])) :
    RunWhenIdle segments socketPath calls := by
  intro before o after heq
  refine h before o (after ++ [c]) ?_
  rw [heq, List.append_assoc, List.cons_append]

/-- `Init()` has been called at most once, and if it has, `Run` is not going to call it. -/
structure InitOnce (h : History) : Prop where
  once : inits h.events ≤ 1
  spent : inits h.events = 0 ∨ h.members.hasStopped = true ∨ h.running = true

theorem InitOnce.run (hh : InitOnce h) (o : RunOutcomes) (hidle : h.running = false) :
    InitOnce (h.next (.run o)) := by
  have hevents : inits (h.next (.run o)).events =
      inits h.events + inits (h.members.run o).events := inits_append _ _
  -- a runtime that is not running and not stopped has not called `Init()`
  have hzero : h.members.hasStopped = false → inits h.events = 0 := by
    intro hlive
    rcases hh.spent with hzero | hstopped | hrunning
    · exact hzero
    · cases hstopped.symm.trans hlive
    · cases hrunning.symm.trans hidle
  have hattempt := inits_attempt_le h.members o
  rcases run_cases h.members o with ⟨hstopped, hmembers, -, hnone⟩ | ⟨hlive, hok, hrun⟩ |
    ⟨hlive, -, -, hmembers, hrun⟩
  · rw [hnone] at hevents
    refine ⟨Nat.le_trans (Nat.le_of_eq hevents) hh.once, .inr (.inl ?_)⟩
    show (h.members.run o).members.hasStopped = true
    rw [hmembers, hstopped]
  · rw [hzero hlive, hrun, Nat.zero_add] at hevents
    refine ⟨Nat.le_trans (Nat.le_of_eq hevents) hattempt, .inr (.inr ?_)⟩
    show (h.members.run o).status.isOk = true
    rw [hrun, hok]
  · rw [hzero hlive, hrun, inits_append, inits_stop, Nat.zero_add, Nat.add_zero] at hevents
    refine ⟨Nat.le_trans (Nat.le_of_eq hevents) hattempt, .inr (.inl ?_)⟩
    show (h.members.run o).members.hasStopped = true
    rw [hmembers]
    rfl

theorem InitOnce.stop (hh : InitOnce h) (shutdown : Status) :
    InitOnce (h.next (.stop shutdown)) := by
  refine ⟨?_, .inr (.inl rfl)⟩
  show inits (h.events ++ _) ≤ 1
  rw [inits_append, inits_stop]
  exact hh.once

theorem initOnce_history (h : RunWhenIdle segments socketPath calls) :
    InitOnce (history segments socketPath calls) := by
  induction calls using List.reverseRecOn with
  | nil => exact ⟨Nat.zero_le 1, .inl rfl⟩
  | append_singleton calls c ih =>
    have hh := ih h.dropLast
    rw [history_snoc]
    cases c with
    | run o =>
      refine hh.run o ?_
      rw [(sound_history calls).running]
      exact h calls o [] rfl
    | stop shutdown => exact hh.stop shutdown
    | ended x => exact ⟨hh.once, hh.spent⟩

/-- **`Init()` is called at most once, and no `Run` stops a runtime that is running**, if and
only if `Run` is not called on a runtime that is running. -/
theorem init_once_iff (segments : List Name) (socketPath : List UInt8) (calls : List Call) :
    (inits (history segments socketPath calls).events ≤ 1 ∧
      ∀ before o after, calls = before ++ .run o :: after →
        (history segments socketPath before).running = true →
          ∀ x, .requestStop x ∉
            ((history segments socketPath before).members.run o).events) ↔
      RunWhenIdle segments socketPath calls := by
  constructor
  · rintro ⟨-, hkeeps⟩ before o after heq
    have hsound : History.Sound (history segments socketPath before) := sound_history before
    rw [← hsound.running]
    refine Bool.eq_false_iff.mpr fun hrunning => ?_
    exact hkeeps before o after heq hrunning .restart
      ((rerun_stops (hsound.launched hrunning) o).2 .restart (by decide))
  · intro h
    refine ⟨(initOnce_history h).once, fun before o after heq hrunning => ?_⟩
    rw [(sound_history before).running, h before o after heq] at hrunning
    cases hrunning

end Histories

/-- Everything inside `Run` is successful. -/
def allSuccessful : RunOutcomes where
  created := fun _ => true
  init := okStatus
  advertised := []
  addSegment := okStatus
  serve := okStatus
  shutdown := okStatus

/-- **A second `Run`**: the first is successful, the second calls `Init()` again, fails and
stops the servers. -/
theorem second_run_stops :
    (history [] [] [.run allSuccessful]).running = true ∧
      inits (history [] [] [.run allSuccessful, .run allSuccessful]).events = 2 ∧
      (history [] [] [.run allSuccessful, .run allSuccessful]).running = false ∧
      .requestStop .readStatus ∈
        ((history [] [] [.run allSuccessful]).members.run allSuccessful).events := by
  decide

end Intrinsic.HardwareModuleRuntime
