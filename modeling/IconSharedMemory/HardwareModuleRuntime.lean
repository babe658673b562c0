import IconSharedMemory.CallbackHandler
import IconSharedMemory.RemoteTrigger

/-! # Running and stopping a module

`HardwareModuleRuntime` (`icon/hal/hardware_module_runtime.cc`) puts nine trigger servers in
front of the callback handler of a module.  `Run` starts five of them in threads of their own,
and a thread for state changes, which calls `Query` on the other four in turn.  `Stop` shuts the
handler down, requests eight of the servers to stop, calls `Shutdown()` on the module and then
joins the threads.

The model puts `RemoteTrigger` and `CallbackHandler` together: it has the nine servers and the
handler, the threads that serve, any number of clients of each server, and the thread that calls
`Run` and then `Stop`.  A step is a step of a server or of the handler, or one of the few that
the runtime makes itself; between the call of a server's callback and its return the thread
takes the callback's steps.  `Run` is called once, after a successful `Connect`.
-/

namespace Intrinsic.RemoteTrigger

/-- The steps of a client. -/
def Label.ofClient : Label → Bool
  | .posted _ | .received | .gaveUp => true
  | _ => false

end Intrinsic.RemoteTrigger

namespace Intrinsic.HardwareModuleRuntime
open Runs

/-! ## Services and threads -/

/-- The trigger servers. -/
inductive Service
  | restart | activate | deactivate | readStatus | applyCommand
  | prepare | enableMotion | disableMotion | clearFaults
  deriving DecidableEq, Repr

namespace Service

/-- `Run` starts the server in a thread of its own. -/
def looped : Service → Bool
  | .restart | .activate | .deactivate | .readStatus | .applyCommand => true
  | .prepare | .enableMotion | .disableMotion | .clearFaults => false

/-- What the server's callback calls; the one of `restart` calls no callback of the handler. -/
def callback : Service → Option CallbackHandler.Callback
  | .restart => none
  | .activate => some .activate
  | .deactivate => some .deactivate
  | .readStatus => some .readStatus
  | .applyCommand => some .applyCommand
  | .prepare => some .prepare
  | .enableMotion => some (.action .enableMotion)
  | .disableMotion => some (.action .disableMotion)
  | .clearFaults => some (.action .clearFaults)

/-- The first step of that callback. -/
def entry (x : Service) : CallbackHandler.Pc :=
  x.callback.elim .idle CallbackHandler.Callback.entry

end Service

/-- The servers that `Stop` requests to stop; `disableMotion` is not among them. -/
def stopOrder : List Service :=
  [.applyCommand, .readStatus, .deactivate, .enableMotion, .clearFaults, .prepare, .activate,
    .restart]

/-- The servers whose threads `Stop` joins. -/
def joinOrder : List Service := [.applyCommand, .readStatus, .deactivate, .activate, .restart]

/-- A thread that serves requests: where it is in the server, and in the callback. -/
structure Serving where
  trigger : RemoteTrigger.Pc
  callback : CallbackHandler.Pc

/-- The thread for state changes: named after the step that follows. -/
inductive Polling
  /-- There is no such thread. -/
  | none
  /-- The loop's condition. -/
  | test
  /-- `Query` of this server is called. -/
  | next (x : Service)
  | query (x : Service) (p : Serving)
  | ended

/-- Where the loop goes on after a `Query`. -/
def afterQuery : Service → Polling
  | .prepare => .next .enableMotion
  | .enableMotion => .next .disableMotion
  | .disableMotion => .next .clearFaults
  | _ => .test

/-- The thread that calls `Run` and `Stop`: named after the step that follows. -/
inductive Main
  /-- `Run` calls `StartAsync` of this server. -/
  | start (x : Service)
  | starting (x : Service) (pc : RemoteTrigger.Pc)
  /-- `Run` calls `Init()` of the module. -/
  | init
  /-- `Run` sets the state to `kInitFailed`. -/
  | initFailed (pc : CallbackHandler.Pc)
  /-- `Run` makes the segments available, and creates the thread for state changes. -/
  | serve
  /-- `Run` has returned. -/
  | started
  /-- `Stop` shuts the handler down. -/
  | shutdownHandler (pc : CallbackHandler.Pc)
  /-- `Stop` calls `RequestStop` of these servers, and `Shutdown()` of the module. -/
  | requestStop (rest : List Service)
  | join (rest : List Service)
  | joinThread
  | stopped

namespace Main

/-- `Stop` is called. -/
def stop : Main := .shutdownHandler CallbackHandler.Callback.shutdown.entry

/-- Where `Run` goes on when a server has been started. -/
def next : Service → Main
  | .restart => .init
  | .activate => .start .deactivate
  | .deactivate => .start .readStatus
  | .readStatus => .start .applyCommand
  | _ => .started

/-- Where `Run` goes on after an initialisation step has failed. -/
def fail (st : Status) : Main := .initFailed (CallbackHandler.Callback.initFailed st).entry

/-- Where `Run` goes on after `StartAsync` has returned. -/
def afterStart (x : Service) (st : Status) : Main :=
  if st.isOk then next x else if x = .restart then stop else fail st

end Main

/-- What `StartAsync` has returned with this step, if it has. -/
def startResult : RemoteTrigger.Label → Option Status
  | .startedAsync st => some st
  | .asyncCas false => some okStatus
  | _ => none

/-! ## Steps -/

/-- What a step shows. -/
inductive Label
  | internal
  | trigger (x : Service) (l : RemoteTrigger.Label)
  | handler (l : CallbackHandler.Label)
  /-- `Init()` has returned this. -/
  | init (st : Status)
  /-- `Shutdown()` of the module has been called. -/
  | shutdown

/-- The calls of the module by the handler in a step. -/
def Label.calls : Label → List CallbackHandler.Method
  | .handler l => l.calls
  | _ => []

/-- The members of a `HardwareModuleRuntime` that its threads use, and the threads. -/
structure State (Client : Type) where
  handler : CallbackHandler.Shared
  servers : Service → RemoteTrigger.Shared
  /-- The servers' own threads. -/
  workers : Service → Serving
  polling : Polling
  /-- The stop token of the thread for state changes. -/
  stopRequested : Bool
  main : Main
  /-- `Shutdown()` of the module has been called. -/
  shutdown : Bool
  clients : Service → Client → RemoteTrigger.Pc

/-- The runtime after `Connect`; `Run` has been called. -/
def initial (Client : Type) (now : Nat) : State Client where
  handler := .init now
  servers := fun _ => .init true
  workers := fun _ => ⟨.idle, .idle⟩
  polling := .none
  stopRequested := false
  main := .start .restart
  shutdown := false
  clients := fun _ _ => .idle

/-- One step of a thread that serves the requests of `x`. -/
inductive Serve (x : Service) : CallbackHandler.Shared → RemoteTrigger.Shared → Serving → Label →
    CallbackHandler.Shared → RemoteTrigger.Shared → Serving → Prop
  /-- A step in the server, which returns from the callback when that is at its end. -/
  | trigger {h : CallbackHandler.Shared} {s s' : RemoteTrigger.Shared} {pc pc' : RemoteTrigger.Pc}
      {cb : CallbackHandler.Pc} {l : RemoteTrigger.Label}
      (hreturned : l = .returned → cb = .idle) (hatom : RemoteTrigger.Atom s pc l s' pc') :
      Serve x h s ⟨pc, cb⟩ (.trigger x l) h s' ⟨pc', if l = .callback then x.entry else cb⟩
  /-- A step in the callback.  The one of `restart` gets the state. -/
  | handler {h h' : CallbackHandler.Shared} {s : RemoteTrigger.Shared} {k : RemoteTrigger.Server}
      {cb cb' : CallbackHandler.Pc} {l : CallbackHandler.Label}
      (hidle : cb = .idle → x = .restart ∧ ∃ st, l = .gotState st)
      (hatom : CallbackHandler.Atom h cb l h' cb') :
      Serve x h s ⟨.callback k, cb⟩ (.handler l) h' s ⟨.callback k, cb'⟩

/-- One step of a thread. -/
inductive Next {Client : Type} [DecidableEq Client] : State Client → Label → State Client → Prop
  | worker {s : State Client} {x : Service} {h' : CallbackHandler.Shared}
      {sv' : RemoteTrigger.Shared} {p' : Serving} {l : Label} (hlooped : x.looped = true)
      (hbegan : (s.workers x).trigger = .idle → ∃ n, l = .trigger x (.began n))
      (hserve : Serve x s.handler (s.servers x) (s.workers x) l h' sv' p') :
      Next s l { s with
        handler := h'
        servers := Function.update s.servers x sv'
        workers := Function.update s.workers x p' }
  | client {s : State Client} {x : Service} {c : Client} {sv' : RemoteTrigger.Shared}
      {pc' : RemoteTrigger.Pc} {l : RemoteTrigger.Label} (hclient : l.ofClient = true)
      (hatom : RemoteTrigger.Atom (s.servers x) (s.clients x c) l sv' pc') :
      Next s (.trigger x l) { s with
        servers := Function.update s.servers x sv'
        clients := Function.update s.clients x (Function.update (s.clients x) c pc') }
  /-- Anyone may call `GetHardwareModuleState`. -/
  | getState {s : State Client} {h' : CallbackHandler.Shared} {st : HardwareModuleState}
      (hatom : CallbackHandler.Atom s.handler .idle (.gotState st) h' .idle) :
      Next s (.handler (.gotState st)) { s with handler := h' }
  | pollTest {s : State Client} (hpolling : s.polling = .test) :
      Next s .internal { s with polling := if s.stopRequested then .ended else .next .prepare }
  | pollQuery {s : State Client} {x : Service} {entered : Bool} {sv' : RemoteTrigger.Shared}
      {pc' : RemoteTrigger.Pc} (hpolling : s.polling = .next x)
      (hatom : RemoteTrigger.Atom (s.servers x) .idle (.query entered) sv' pc') :
      Next s (.trigger x (.query entered)) { s with
        servers := Function.update s.servers x sv'
        polling := .query x ⟨pc', .idle⟩ }
  | poll {s : State Client} {x : Service} {p p' : Serving} {h' : CallbackHandler.Shared}
      {sv' : RemoteTrigger.Shared} {l : Label} (hpolling : s.polling = .query x p)
      (hinside : p.trigger ≠ .idle) (hserve : Serve x s.handler (s.servers x) p l h' sv' p') :
      Next s l { s with
        handler := h'
        servers := Function.update s.servers x sv'
        polling := .query x p' }
  | pollNext {s : State Client} {x : Service} {p : Serving} (hpolling : s.polling = .query x p)
      (hreturned : p.trigger = .idle) :
      Next s .internal { s with polling := afterQuery x }
  | startAsync {s : State Client} {x : Service} {sv' : RemoteTrigger.Shared}
      {pc' : RemoteTrigger.Pc} (hmain : s.main = .start x)
      (hatom : RemoteTrigger.Atom (s.servers x) .idle .internal sv' pc')
      (hprelude : pc' = .asyncCas true ∨ pc' = .asyncJoinable true) :
      Next s (.trigger x .internal) { s with
        servers := Function.update s.servers x sv'
        main := .starting x pc' }
  | starting {s : State Client} {x : Service} {pc pc' : RemoteTrigger.Pc}
      {sv' : RemoteTrigger.Shared} {l : RemoteTrigger.Label} (hmain : s.main = .starting x pc)
      (hatom : RemoteTrigger.Atom (s.servers x) pc l sv' pc') :
      Next s (.trigger x l) { s with
        servers := Function.update s.servers x sv'
        main := ((startResult l).map (Main.afterStart x)).getD (.starting x pc') }
  | init {s : State Client} (st : Status) (hmain : s.main = .init) :
      Next s (.init st) { s with main := if st.isOk then .serve else .fail st }
  | initFailed {s : State Client} {pc pc' : CallbackHandler.Pc} {h' : CallbackHandler.Shared}
      {l : CallbackHandler.Label} (hmain : s.main = .initFailed pc) (hinside : pc ≠ .idle)
      (hatom : CallbackHandler.Atom s.handler pc l h' pc') :
      Next s (.handler l) { s with handler := h', main := .initFailed pc' }
  | failed {s : State Client} (hmain : s.main = .initFailed .idle) :
      Next s .internal { s with main := .stop }
  | serveFailed {s : State Client} (hmain : s.main = .serve) :
      Next s .internal { s with main := .stop }
  | serve {s : State Client} (hmain : s.main = .serve) :
      Next s .internal { s with polling := .test, main := .start .activate }
  | stop {s : State Client} (hmain : s.main = .started ∨ s.main = .stopped) :
      Next s .internal { s with main := .stop }
  | shutdownHandler {s : State Client} {pc pc' : CallbackHandler.Pc}
      {h' : CallbackHandler.Shared} {l : CallbackHandler.Label}
      (hmain : s.main = .shutdownHandler pc) (hinside : pc ≠ .idle)
      (hatom : CallbackHandler.Atom s.handler pc l h' pc') :
      Next s (.handler l) { s with handler := h', main := .shutdownHandler pc' }
  | handlerDown {s : State Client} (hmain : s.main = .shutdownHandler .idle) :
      Next s .internal { s with main := .requestStop stopOrder }
  | requestStop {s : State Client} {x : Service} {rest : List Service}
      {sv' : RemoteTrigger.Shared} (hmain : s.main = .requestStop (x :: rest))
      (hatom : RemoteTrigger.Atom (s.servers x) .idle .requestStop sv' .idle) :
      Next s (.trigger x .requestStop) { s with
        servers := Function.update s.servers x sv'
        main := .requestStop rest }
  | shutdown {s : State Client} (hmain : s.main = .requestStop []) :
      Next s .shutdown { s with shutdown := true, main := .join joinOrder }
  | join {s : State Client} {x : Service} {rest : List Service} {sv' : RemoteTrigger.Shared}
      (hmain : s.main = .join (x :: rest))
      (hatom : RemoteTrigger.Atom (s.servers x) .idle .join sv' .idle) :
      Next s (.trigger x .join) { s with
        servers := Function.update s.servers x sv'
        main := .join rest }
  | noThread {s : State Client} (hmain : s.main = .join []) (hpolling : s.polling = .none) :
      Next s .internal { s with main := .stopped }
  | stopThread {s : State Client} (hmain : s.main = .join []) (hpolling : s.polling ≠ .none) :
      Next s .internal { s with stopRequested := true, main := .joinThread }
  | joinThread {s : State Client} (hmain : s.main = .joinThread) (hpolling : s.polling = .ended) :
      Next s .internal { s with polling := .none, main := .stopped }

section Step
variable {Client : Type} [DecidableEq Client]

/-- **One step of the runtime or of a client**, if `ok` allows it. -/
def Step (ok : State Client → Label → Prop) (s : State Client) (l : Label) (s' : State Client) :
    Prop :=
  ok s l ∧ Next s l s'

end Step

/-! ## A module that is started and stopped -/

/-- A server that `StartAsync` has started; its thread has not begun. -/
def running : RemoteTrigger.Shared :=
  { RemoteTrigger.Shared.init true with
    isRunning := true
    asyncThread := some 0
    threads := Function.update (fun _ => .none) 0 (.created true) }

/-- `RequestStop` has been called of these servers. -/
def halt (servers : Service → RemoteTrigger.Shared) (rest : List Service) :
    Service → RemoteTrigger.Shared :=
  rest.foldl (fun f x => Function.update f x { f x with isRunning := false }) servers

/-- `StartAsync` of a new server. -/
def starting (x : Service) : List Label :=
  [.trigger x .internal, .trigger x .internal, .trigger x (.asyncCas true), .trigger x .internal,
    .trigger x .internal, .trigger x (.startedAsync okStatus)]

/-- `Run` of a module whose `Init()` is successful. -/
def startup : List Label :=
  starting .restart ++ [.init okStatus, .internal] ++ starting .activate ++ starting .deactivate ++
    starting .readStatus ++ starting .applyCommand

/-- `Stop`, up to the call of `Shutdown()`. -/
def stopping : List Label :=
  [.internal, .handler .internal, .handler .internal, .handler (.empty true), .internal] ++
    stopOrder.map fun x => .trigger x .requestStop

/-- The runtime after `Run`. -/
def started : State Unit :=
  { initial Unit 0 with
    servers := fun x => if x.looped then running else .init true
    polling := .test
    main := .started }

section Example
variable {ok : State Unit → Label → Prop} {s : State Unit}

/-- `s` with another state of one server, and of the thread that calls `Run` and `Stop`. -/
def State.put (s : State Unit) (x : Service) (sv : RemoteTrigger.Shared) (m : Main) : State Unit :=
  { s with servers := Function.update s.servers x sv, main := m }

theorem put_starting {x : Service} {sv sv' : RemoteTrigger.Shared} {pc pc' : RemoteTrigger.Pc}
    {e : RemoteTrigger.Label} (hok : ok (s.put x sv (.starting x pc)) (.trigger x e))
    (hatom : RemoteTrigger.Atom sv pc e sv' pc') :
    Step ok (s.put x sv (.starting x pc)) (.trigger x e)
      (s.put x sv' (((startResult e).map (Main.afterStart x)).getD (.starting x pc'))) := by
  rw [← Function.update_self x sv s.servers] at hatom
  have hs := Next.starting (s := s.put x sv (.starting x pc)) rfl hatom
  refine ⟨hok, ?_⟩
  simpa only [State.put, Function.update_idem] using hs

/-- `Run` starts a server. -/
theorem starting_run {x : Service} (hok : ∀ s l, l ≠ .shutdown → s.shutdown = false → ok s l)
    (hdown : s.shutdown = false) (hmain : s.main = .start x) (hserver : s.servers x = .init true) :
    Run (Step ok) s (starting x) (s.put x running (.next x)) := by
  have hload : RemoteTrigger.Atom (s.servers x) .idle .internal (.init true)
      (.asyncJoinable true) := by
    rw [hserver]
    exact .asyncLoad true
  refine .cons ⟨hok _ _ nofun hdown, .startAsync hmain hload (.inr rfl)⟩ ?_
  refine .cons (put_starting (hok _ _ nofun hdown) (.asyncJoinable rfl)) ?_
  refine .cons (put_starting (hok _ _ nofun hdown) (.asyncCas rfl)) ?_
  refine .cons (put_starting (hok _ _ nofun hdown) (.asyncCreate 0 rfl)) ?_
  refine .cons (put_starting (hok _ _ nofun hdown) (.asyncAssign nofun)) ?_
  exact .single (put_starting (hok _ _ nofun hdown) (.asyncStarted nofun))

theorem startup_run (hok : ∀ s l, l ≠ .shutdown → s.shutdown = false → ok s l) :
    Run (Step ok) (initial Unit 0) startup started := by
  have hinit : Run (Step ok) ((initial Unit 0).put .restart running .init)
      [.init okStatus, .internal]
      { (initial Unit 0).put .restart running (.start .activate) with polling := .test } := by
    refine .cons ⟨hok _ _ nofun rfl, .init okStatus rfl⟩ ?_
    exact .single ⟨hok _ _ nofun rfl, .serve rfl⟩
  obtain ⟨servers, hservers, hrun⟩ : ∃ f, f = started.servers ∧
      Run (Step ok) (initial Unit 0) startup { started with servers := f } := by
    refine ⟨_, ?_, (starting_run hok rfl rfl rfl).append hinit
      |>.append (starting_run hok rfl rfl rfl) |>.append (starting_run hok rfl rfl rfl)
      |>.append (starting_run hok rfl rfl rfl) |>.append (starting_run hok rfl rfl rfl)⟩
    funext x
    cases x <;> rfl
  rw [hservers] at hrun
  exact hrun

/-- `Stop` calls `RequestStop` of the servers in turn. -/
theorem requestStop_run (hok : ∀ s l, l ≠ .shutdown → s.shutdown = false → ok s l)
    (hdown : s.shutdown = false) {rest : List Service} (hmain : s.main = .requestStop rest) :
    Run (Step ok) s (rest.map fun x => .trigger x .requestStop)
      { s with servers := halt s.servers rest, main := .requestStop [] } := by
  induction rest generalizing s with
  | nil =>
    rw [← hmain]
    exact .nil
  | cons x rest ih =>
    exact .cons ⟨hok _ _ nofun hdown, .requestStop hmain .requestStop⟩ (ih hdown rfl)

/-- `s` when `Stop` is about to call `Shutdown()`. -/
def State.stopped (s : State Unit) : State Unit :=
  { s with
    handler := { s.handler with nonRtBufferLock := false, rejectNewRequests := true }
    servers := halt s.servers stopOrder
    main := .requestStop [] }

/-- `s` when `Shutdown()` has been called. -/
def State.down (s : State Unit) : State Unit := { s with shutdown := true, main := .join joinOrder }

/-- `Stop` shuts the handler down, which has no request, and calls `RequestStop`. -/
theorem stopping_run (hok : ∀ s l, l ≠ .shutdown → s.shutdown = false → ok s l)
    (hdown : s.shutdown = false) (hmain : s.main = .started)
    (hlock : s.handler.nonRtBufferLock = false) (hqueue : s.handler.requestQueue = []) :
    Run (Step ok) s stopping s.stopped := by
  refine .cons ⟨hok _ _ nofun hdown, .stop (.inl hmain)⟩ ?_
  refine .cons ⟨hok _ _ nofun hdown, .shutdownHandler rfl nofun (.shutdownLock hlock)⟩ ?_
  refine .cons ⟨hok _ _ nofun hdown, .shutdownHandler rfl nofun .shutdownReject⟩ ?_
  refine .cons ⟨hok _ _ nofun hdown, .shutdownHandler rfl nofun (.cancelDone hqueue)⟩ ?_
  refine .cons ⟨hok _ _ nofun hdown, .handlerDown rfl⟩ ?_
  exact requestStop_run (s := { s with
    handler := { s.handler with nonRtBufferLock := false, rejectNewRequests := true }
    main := .requestStop stopOrder }) hok hdown rfl

/-- `s` with another state of one server and of its thread. -/
def State.putWorker (s : State Unit) (x : Service) (sv : RemoteTrigger.Shared) (p : Serving) :
    State Unit :=
  { s with servers := Function.update s.servers x sv, workers := Function.update s.workers x p }

theorem putWorker_step {x : Service} {sv sv' : RemoteTrigger.Shared} {p p' : Serving} {l : Label}
    (hlooped : x.looped = true) (hbegan : p.trigger = .idle → ∃ n, l = .trigger x (.began n))
    (hok : ok (s.putWorker x sv p) l) (hserve : Serve x s.handler sv p l s.handler sv' p') :
    Step ok (s.putWorker x sv p) l (s.putWorker x sv' p') := by
  rw [← Function.update_self x sv s.servers] at hserve
  rw [← Function.update_self x p s.workers] at hserve hbegan
  have hs := Next.worker (s := s.putWorker x sv p) hlooped hbegan hserve
  refine ⟨hok, ?_⟩
  simpa only [State.putWorker, Function.update_idem] using hs

/-- `s` with another state of the handler, of one server and of the thread that queries it. -/
def State.putPolling (s : State Unit) (h : CallbackHandler.Shared) (x : Service)
    (sv : RemoteTrigger.Shared) (p : Serving) : State Unit :=
  { s with handler := h, servers := Function.update s.servers x sv, polling := .query x p }

theorem putPolling_step {x : Service} {h h' : CallbackHandler.Shared}
    {sv sv' : RemoteTrigger.Shared} {p p' : Serving} {l : Label} (hinside : p.trigger ≠ .idle)
    (hok : ok (s.putPolling h x sv p) l) (hserve : Serve x h sv p l h' sv' p') :
    Step ok (s.putPolling h x sv p) l (s.putPolling h' x sv' p') := by
  rw [← Function.update_self x sv s.servers] at hserve
  have hs := Next.poll (s := s.putPolling h x sv p) rfl hinside hserve
  refine ⟨hok, ?_⟩
  simpa only [State.putPolling, Function.update_idem] using hs

end Example

end Intrinsic.HardwareModuleRuntime
