import IconSharedMemory.HardwareModuleRuntime
import IconSharedMemory.StatePublication

/-! # Calls of a module that was shut down

`Stop` calls `RequestStop` on the trigger servers before it calls `Shutdown()` on the module, and
joins the threads afterwards.  `RequestStop` makes a loop drop the requests that it takes later
on.  It means nothing to `Query`, which serves requests exactly while `is_running_` is false:
after `Shutdown()` the thread for state changes goes on serving, and calls the module
(`prepare_after_shutdown`).  A loop may also be in its callback by then, with the call still to
come.

No call begins after `Shutdown()` when every thread is past its calls by then, and the four
servers that are queried have no request and get none (`StopsQuietly`,
`no_call_after_shutdown`).
-/

/-! ## The end of a callback -/

namespace Intrinsic.CallbackHandler

/-- No call of the module follows this `SetStateDirectly`. -/
def Site.last : Site → Bool
  | .deactivated nested => !nested
  | .prepared | .activated | .readStatus | .applyCommand | .initFailed => true
  | .deactivating _ | .preparing | .activating | .process _ | .enabledHook => false

/-- No call of the module follows this `CancelPendingRequests`. -/
def Canceller.last : Canceller → Bool
  | .readStatus | .applyCommand | .shutdown => true
  | .prepare | .activate | .deactivate _ => false

/-- The callback has called the module, and the hook `Disabled()` is all that it may still
call. -/
def Pc.pastCalls : Pc → Bool
  | .idle | .acceptRequests | .actionUnlock | .readStatusLoad _ | .shutdownLock
  | .shutdownReject => true
  | .setState site _ _ => site.last
  | .cancelEmpty k | .cancelFront k | .cancelRespond k _ | .cancelDrop k => k.last
  | .requestGuard q | .requestLock q | .requestStamp q | .requestInsert q _
  | .requestWait q _ => q.first.isSome
  | _ => false

/-- The two hooks, which tell the module about a change of the state. -/
def Method.isHook : Method → Bool
  | .enabled | .disabled => true
  | _ => false

section PastCalls
variable {s s' : Shared} {pc pc' : Pc} {l : Label}

theorem Site.next_pastCalls {site : Site} (h : site.last = true) (changed : Bool) :
    (site.next changed).pastCalls = true := by
  cases site with
  | deactivated nested =>
    cases nested with
    | false => rfl
    | true => cases h
  | readStatus => cases changed <;> rfl
  | applyCommand => cases changed <;> rfl
  | prepared | activated | initFailed => rfl
  | _ => cases h

theorem Canceller.next_pastCalls {k : Canceller} (h : k.last = true) :
    k.next.pastCalls = true := by
  cases k <;> first | rfl | cases h

theorem Ask.next_pastCalls {q : Ask} (h : q.first.isSome = true) (id : Nat) (isOk : Bool) :
    (q.next id isOk).pastCalls = true := by
  obtain ⟨first, hfirst⟩ := Option.isSome_iff_exists.mp h
  unfold Ask.next
  rw [hfirst]
  rfl

theorem Atom.not_start (h : Atom s pc l s' pc') (hinside : pc ≠ .idle) (cb : Callback) :
    l ≠ .start cb := by
  rintro rfl
  cases h
  exact hinside rfl

/-- **The end of a callback calls nothing but hooks**, and stays the end of it. -/
theorem Atom.pastCalls (h : Atom s pc l s' pc') (hpc : pc.pastCalls = true)
    (hl : ∀ cb, l ≠ .start cb) :
    pc'.pastCalls = true ∧ ∀ m ∈ l.calls, m.isHook = true := by
  cases h with
  | start cb => exact absurd rfl (hl cb)
  | setState disabled =>
    refine ⟨Site.next_pastCalls hpc _, ?_⟩
    unfold Shared.setStateLabel
    split
    · exact List.forall_mem_singleton.mpr rfl
    · exact List.forall_mem_nil _
  | statusCall => cases hpc
  | realtimeCall => cases hpc
  | cancelDone => exact ⟨Canceller.next_pastCalls hpc, List.forall_mem_nil _⟩
  | requestAnswered => exact ⟨Ask.next_pastCalls hpc _ _, List.forall_mem_nil _⟩
  | requestGivenUp => exact ⟨Ask.next_pastCalls hpc _ _, List.forall_mem_nil _⟩
  | requestRefused | requestRejected | requestFull => exact ⟨rfl, List.forall_mem_nil _⟩
  | readStatusLoad =>
    refine ⟨?_, List.forall_mem_nil _⟩
    split <;> rfl
  | prepareLoad | rejectRequests | actionLock | actionLoad | processStore | processNothing
  | processEmpty | processFront | processDrop | processFresh | processStale | processRespond
  | enabledLoad | applyLoad => cases hpc
  | _ => exact ⟨hpc, List.forall_mem_nil _⟩

end PastCalls

end Intrinsic.CallbackHandler

/-! ## Loops and queries -/

namespace Intrinsic.RemoteTrigger

/-- A thread of this pool is in `Query`. -/
def Pc.inQuery : Pc → Prop
  | .wait k | .check k | .callback k | .post k => k = .query
  | _ => False

section Serve
variable {s s' : Shared} {pc pc' : Pc} {l : Label}

theorem Label.not_posted (h : l.ofClient = false) (st : RealtimeStatus) : l ≠ .posted st := by
  rintro rfl
  cases h

theorem afterWait_inRun {k : Server} (h : k ≠ .query) (st : RealtimeStatus) :
    (k.afterWait st).inRun ∧ ∀ k', k.afterWait st ≠ .check k' := by
  cases k with
  | query => exact absurd rfl h
  | _ =>
    dsimp only [Server.afterWait]
    split
    · exact ⟨h, nofun⟩
    · split
      · exact ⟨h, nofun⟩
      · exact ⟨h, nofun⟩

/-- The callback is called where `callback_` has been compared with null. -/
theorem Atom.to_callback {k : Server} (h : Atom s pc l s' pc') (heq : pc' = .callback k) :
    ∃ k, pc = .check k := by
  have hpc : pc'.inCallback := heq ▸ trivial
  clear heq
  cases h with
  | callback => exact ⟨_, rfl⟩
  | asyncLoad | began | clientPost => split at hpc <;> exact hpc.elim
  | waited =>
    unfold Server.afterWait at hpc
    grind [Pc.inCallback]
  | @noCallback k => cases k <;> exact hpc.elim
  | post =>
    unfold Server.afterPost at hpc
    grind [Pc.inCallback]
  | _ => exact hpc.elim

/-- **What a thread in `Run` does.**  It comes to its callback only while the server is
running. -/
theorem Atom.loops (h : Atom s pc l s' pc') (hpc : pc.inRun ∨ ∃ n, l = .began n) :
    (pc' = .idle ∨ pc'.inRun) ∧ l.enters = false ∧
      (s.isRunning = false → ∀ k, pc' ≠ .check k) := by
  obtain hrun | ⟨n, rfl⟩ := hpc
  · cases h with
    | waited =>
      obtain ⟨hrun', hcheck⟩ := afterWait_inRun hrun _
      exact ⟨.inr hrun', rfl, fun _ => hcheck⟩
    | recheck hrunning =>
      refine ⟨.inr hrun, rfl, fun hstopped => ?_⟩
      rw [hrunning] at hstopped
      cases hstopped
    | @noCallback k =>
      cases k with
      | query => exact absurd rfl hrun
      | _ => exact ⟨.inr hrun, rfl, fun _ => nofun⟩
    | @post k =>
      cases k with
      | query => exact absurd rfl hrun
      | _ =>
        dsimp only [Server.afterPost]
        split
        · exact ⟨.inr hrun, rfl, fun _ => nofun⟩
        · exact ⟨.inr hrun, rfl, fun _ => nofun⟩
    | leave | drop | stop => exact ⟨.inl rfl, rfl, fun _ => nofun⟩
    | preludeOk | preludeFailed | goOn | callback | returned =>
      exact ⟨.inr hrun, rfl, fun _ => nofun⟩
    | _ => exact hrun.elim
  · cases h with
    | began =>
      split
      · exact ⟨.inr nofun, rfl, fun _ => nofun⟩
      · exact ⟨.inr nofun, rfl, fun _ => nofun⟩

/-- **What a thread in `Query` does.**  It comes to its callback only with a request. -/
theorem Atom.queries (h : Atom s pc l s' pc') (hpc : pc.inQuery ∨ ∃ entered, l = .query entered) :
    (pc' = .idle ∨ pc'.inQuery) ∧ l.ofClient = false ∧
      (s.requestFutex ≠ .posted → ∀ k, pc' ≠ .check k) := by
  obtain hquery | ⟨entered, rfl⟩ := hpc
  · cases h with
    | @waited k f st hwait =>
      obtain rfl : k = .query := hquery
      dsimp only [Server.afterWait]
      cases hst : st.isOk with
      | true => exact ⟨.inr rfl, rfl, fun hposted => absurd (hwait.ok hst).1 hposted⟩
      | false => exact ⟨.inl rfl, rfl, fun _ => nofun⟩
    | noCallback =>
      obtain rfl := hquery
      exact ⟨.inl rfl, rfl, fun _ => nofun⟩
    | post =>
      obtain rfl := hquery
      exact ⟨.inl rfl, rfl, fun _ => nofun⟩
    | callback | returned => exact ⟨.inr hquery, rfl, fun _ => nofun⟩
    | _ => exact hquery.elim
  · cases h with
    | queryRunning => exact ⟨.inl rfl, rfl, fun _ => nofun⟩
    | query => exact ⟨.inr rfl, rfl, fun _ => nofun⟩

/-- Only `Start` and `StartAsync` make a server run. -/
theorem Atom.isRunning (h : Atom s pc l s' pc') (hl : l.enters = false)
    (hstopped : s.isRunning = false) : s'.isRunning = false := by
  cases h with
  | start | asyncCas => cases hl
  | leave | drop => exact (leave_isRunning _ _).trans hstopped
  | stop => exact leave_isRunning _ _
  | asyncStop | requestStop => rfl
  | _ => exact hstopped

/-- Only clients post requests. -/
theorem Atom.not_posted (h : Atom s pc l s' pc') (hl : ∀ st, l ≠ .posted st)
    (hposted : s.requestFutex ≠ .posted) : s'.requestFutex ≠ .posted := by
  cases h with
  | @waited k f st hwait =>
    cases hst : st.isOk with
    | true => exact absurd (hwait.ok hst).1 hposted
    | false => exact (hwait.notOk hst).symm ▸ hposted
  | clientPost => exact absurd rfl (hl _)
  | leave | drop | stop =>
    rw [leave_requestFutex]
    exact hposted
  | _ => exact hposted

end Serve

end Intrinsic.RemoteTrigger

namespace Intrinsic.HardwareModuleRuntime
open Runs

/-! ## A quiet stop -/

/-- The thread has no call of the module ahead in the request it serves. -/
structure Serving.Past (p : Serving) : Prop where
  check : ∀ k, p.trigger ≠ .check k
  callback : ∀ k, p.trigger = .callback k → p.callback.pastCalls = true

section Quiet
variable {Client : Type}

/-- Every thread is past its calls, and there is no request to the servers that are queried. -/
structure Quiet (s : State Client) : Prop where
  workers : ∀ x, (s.workers x).Past
  polling : ∀ x p, s.polling = .query x p → p.Past
  requests : ∀ x, x.looped = false → (s.servers x).requestFutex ≠ .posted

/-- **What makes a stop safe**: `Shutdown()` is called when the runtime is quiet, and from then
on no client posts a request to a server that is queried. -/
structure StopsQuietly (s : State Client) (l : Label) : Prop where
  quiet : l = .shutdown → Quiet s
  posted : s.shutdown = true → ∀ x st, x.looped = false → l ≠ .trigger x (.posted st)

end Quiet

/-! ### What holds in every state -/

namespace Main

/-- `Run` has been called, and `Stop` has not. -/
def inRun : Main → Bool
  | .start _ | .starting _ _ | .init | .initFailed _ | .serve | .started => true
  | _ => false

/-- `Stop` has called `RequestStop` of the server. -/
def requested (x : Service) : Main → Prop
  | .requestStop rest => x ∉ rest
  | _ => False

/-- The thread calls nothing of the handler that calls the module. -/
def pastCalls : Main → Bool
  | .initFailed pc | .shutdownHandler pc => pc.pastCalls
  | _ => true

end Main

/-- What is known of a server: a loop is not running once it was requested to stop, and there
are no requests to the other servers after `Shutdown()`. -/
structure Silent (shutdown : Bool) (main : Main) (x : Service) (sv : RemoteTrigger.Shared) :
    Prop where
  stopped : x.looped = true → shutdown = true ∨ main.requested x → sv.isRunning = false
  requests : shutdown = true → x.looped = false → sv.requestFutex ≠ .posted

/-- What is known of a thread that serves requests in `Run` or in `Query`, which is its `kind`. -/
structure Serving.Fits (kind : RemoteTrigger.Pc → Prop) (shutdown : Bool) (p : Serving) :
    Prop where
  trigger : p.trigger = .idle ∨ kind p.trigger
  past : shutdown = true → p.Past

/-- What is known of the thread for state changes. -/
def Polling.Fits (shutdown : Bool) : Polling → Prop
  | .next x => x.looped = false
  | .query x p => x.looped = false ∧ p.Fits RemoteTrigger.Pc.inQuery shutdown
  | _ => True

/-- **The invariant.** -/
structure Sound {Client : Type} (s : State Client) : Prop where
  inRun : s.main.inRun = true → s.shutdown = false
  main : s.main.pastCalls = true
  servers : ∀ x, Silent s.shutdown s.main x (s.servers x)
  workers : ∀ x, (s.workers x).Fits RemoteTrigger.Pc.inRun s.shutdown
  polling : s.polling.Fits s.shutdown

theorem mem_stopOrder {x : Service} (h : x.looped = true) : x ∈ stopOrder := by
  cases x <;> first | decide | cases h

section Threads
variable {x : Service} {shutdown : Bool} {main main' : Main} {sv sv' : RemoteTrigger.Shared}
  {pc pc' : RemoteTrigger.Pc} {l : RemoteTrigger.Label} {p p' : Serving}
  {h h' : CallbackHandler.Shared} {e : Label} {kind : RemoteTrigger.Pc → Prop}

theorem Silent.atom (hsv : Silent shutdown main x sv) (hatom : RemoteTrigger.Atom sv pc l sv' pc')
    (henters : x.looped = true → l.enters = false)
    (hposted : shutdown = true → x.looped = false → ∀ st, l ≠ .posted st) :
    Silent shutdown main x sv' where
  stopped := fun hlooped hrequested =>
    hatom.isRunning (henters hlooped) (hsv.stopped hlooped hrequested)
  requests := fun hshutdown hlooped =>
    hatom.not_posted (hposted hshutdown hlooped) (hsv.requests hshutdown hlooped)

/-- As long as `Stop` requests nothing more, it does not matter where it is. -/
theorem Silent.moved (hsv : Silent shutdown main x sv)
    (hrequested : x.looped = true → main'.requested x → main.requested x) :
    Silent shutdown main' x sv where
  stopped := fun hlooped hor => hsv.stopped hlooped (hor.imp_right (hrequested hlooped))
  requests := hsv.requests

/-- Nothing is to be known of a server before `Stop`. -/
theorem silent_of_running (hshutdown : shutdown = false) (hmain : ¬ main.requested x) :
    Silent shutdown main x sv where
  stopped := fun _ hor => by
    obtain h | h := hor
    · rw [hshutdown] at h
      cases h
    · exact absurd h hmain
  requests := fun h => by
    rw [hshutdown] at h
    cases h

theorem silent_update {servers : Service → RemoteTrigger.Shared}
    (h : ∀ y, Silent shutdown main y (servers y)) (hx : Silent shutdown main' x sv')
    (hrequested : ∀ y, y ≠ x → main'.requested y → main.requested y) (y : Service) :
    Silent shutdown main' y (Function.update servers x sv' y) := by
  refine (Function.forall_update_iff servers (Silent shutdown main')).mpr ⟨hx, ?_⟩ y
  exact fun y hy => (h y).moved fun _ => hrequested y hy

/-- A step of a thread that serves is a step of its server, or leaves that alone. -/
theorem Serve.server (hserve : Serve x h sv p e h' sv' p') :
    (∃ l, e = .trigger x l ∧ RemoteTrigger.Atom sv p.trigger l sv' p'.trigger) ∨
      sv' = sv ∧ p'.trigger = p.trigger := by
  cases hserve with
  | trigger _ hatom => exact .inl ⟨_, rfl, hatom⟩
  | handler => exact .inr ⟨rfl, rfl⟩

theorem Serve.ne_shutdown (hserve : Serve x h sv p e h' sv' p') : e ≠ .shutdown := by
  cases hserve <;> exact nofun

/-- **A thread past its calls stays so**, and calls nothing but hooks. -/
theorem Serve.past (hserve : Serve x h sv p e h' sv' p') (hp : p.Past)
    (hcheck : ∀ k, p'.trigger ≠ .check k) : p'.Past ∧ ∀ m ∈ e.calls, m.isHook = true := by
  cases hserve with
  | trigger _ hatom =>
    refine ⟨⟨hcheck, fun k hk => ?_⟩, List.forall_mem_nil _⟩
    obtain ⟨k', hk'⟩ := hatom.to_callback hk
    exact absurd hk' (hp.check k')
  | @handler _ _ k cb _ l hidle hatom =>
    have hstart : ∀ cb, l ≠ .start cb := by
      rintro cb rfl
      cases hatom
      obtain ⟨-, _, hst⟩ := hidle rfl
      cases hst
    obtain ⟨hpast, hcalls⟩ := hatom.pastCalls (hp.callback k rfl) hstart
    exact ⟨⟨hcheck, fun _ _ => hpast⟩, hcalls⟩

/-- What is known of the thread is known after its step as well. -/
theorem Serve.fits (hserve : Serve x h sv p e h' sv' p') (hp : p.Fits kind shutdown)
    (hatom : ∀ l, e = .trigger x l → RemoteTrigger.Atom sv p.trigger l sv' p'.trigger →
      (p'.trigger = .idle ∨ kind p'.trigger) ∧ (shutdown = true → ∀ k, p'.trigger ≠ .check k)) :
    p'.Fits kind shutdown ∧ (shutdown = true → ∀ m ∈ e.calls, m.isHook = true) := by
  have htrigger : (p'.trigger = .idle ∨ kind p'.trigger) ∧
      (shutdown = true → ∀ k, p'.trigger ≠ .check k) := by
    obtain ⟨l, hl, hstep⟩ | ⟨-, heq⟩ := hserve.server
    · exact hatom l hl hstep
    · rw [heq]
      exact ⟨hp.trigger, fun hshutdown => (hp.past hshutdown).check⟩
  have hpast := fun hshutdown => hserve.past (hp.past hshutdown) (htrigger.2 hshutdown)
  exact ⟨⟨htrigger.1, fun hshutdown => (hpast hshutdown).1⟩, fun hshutdown => (hpast hshutdown).2⟩

end Threads

section Sound
variable {Client : Type} {s : State Client} {l : Label}

theorem sound_initial (now : Nat) : Sound (initial Client now) where
  inRun := fun _ => rfl
  main := rfl
  servers := fun _ => ⟨fun _ _ => rfl, nofun⟩
  workers := fun _ => ⟨.inl rfl, nofun⟩
  polling := trivial

/-- A step of a server's own thread. -/
theorem Sound.worker {x : Service} {h' : CallbackHandler.Shared} {sv' : RemoteTrigger.Shared}
    {p' : Serving} (h : Sound s) (hlooped : x.looped = true)
    (hbegan : (s.workers x).trigger = .idle → ∃ n, l = .trigger x (.began n))
    (hserve : Serve x s.handler (s.servers x) (s.workers x) l h' sv' p') :
    Sound { s with
        handler := h'
        servers := Function.update s.servers x sv'
        workers := Function.update s.workers x p' } ∧
      (s.shutdown = true → ∀ m ∈ l.calls, m.isHook = true) := by
  -- the thread is in `Run`, or begins
  have hloops : ∀ e, l = .trigger x e →
      RemoteTrigger.Atom (s.servers x) (s.workers x).trigger e sv' p'.trigger →
      (p'.trigger = .idle ∨ p'.trigger.inRun) ∧ e.enters = false ∧
        ((s.servers x).isRunning = false → ∀ k, p'.trigger ≠ .check k) := by
    rintro e rfl hatom
    refine hatom.loops ?_
    obtain hidle | hrun := (h.workers x).trigger
    · obtain ⟨n, hn⟩ := hbegan hidle
      exact .inr ⟨n, (Label.trigger.inj hn).2⟩
    · exact .inl hrun
  obtain ⟨hfits, hcalls⟩ := hserve.fits (h.workers x) fun e he hatom =>
    ⟨(hloops e he hatom).1, fun hshutdown =>
      (hloops e he hatom).2.2 ((h.servers x).stopped hlooped (.inl hshutdown))⟩
  have hsilent : Silent s.shutdown s.main x sv' := by
    obtain ⟨e, he, hatom⟩ | ⟨heq, -⟩ := hserve.server
    · refine (h.servers x).atom hatom (fun _ => (hloops e he hatom).2.1) fun _ hnot => ?_
      rw [hlooped] at hnot
      cases hnot
    · rw [heq]
      exact h.servers x
  refine ⟨⟨h.inRun, h.main, ?_, ?_, h.polling⟩, hcalls⟩
  · exact silent_update h.servers hsilent fun _ _ => id
  · exact (Function.forall_update_iff s.workers fun _ p => p.Fits _ _).mpr
      ⟨hfits, fun y _ => h.workers y⟩

/-- A step of the thread for state changes in a `Query`. -/
theorem Sound.poll {x : Service} {h' : CallbackHandler.Shared} {sv' : RemoteTrigger.Shared}
    {p p' : Serving} (h : Sound s) (hpolling : s.polling = .query x p)
    (hinside : p.trigger ≠ .idle) (hserve : Serve x s.handler (s.servers x) p l h' sv' p') :
    Sound { s with
        handler := h'
        servers := Function.update s.servers x sv'
        polling := .query x p' } ∧
      (s.shutdown = true → ∀ m ∈ l.calls, m.isHook = true) := by
  have hfits := h.polling
  rw [hpolling] at hfits
  obtain ⟨hlooped, hfits⟩ := hfits
  have hquery := hfits.trigger.resolve_left hinside
  obtain ⟨hfits', hcalls⟩ := hserve.fits hfits fun e _ hatom =>
    ⟨(hatom.queries (.inl hquery)).1, fun hshutdown =>
      (hatom.queries (.inl hquery)).2.2 ((h.servers x).requests hshutdown hlooped)⟩
  have hsilent : Silent s.shutdown s.main x sv' := by
    obtain ⟨e, -, hatom⟩ | ⟨heq, -⟩ := hserve.server
    · refine (h.servers x).atom hatom (fun hnot => ?_) fun _ _ => ?_
      · rw [hlooped] at hnot
        cases hnot
      · exact RemoteTrigger.Label.not_posted (hatom.queries (.inl hquery)).2.1
    · rw [heq]
      exact h.servers x
  refine ⟨⟨h.inRun, h.main, ?_, h.workers, hlooped, hfits'⟩, hcalls⟩
  exact silent_update h.servers hsilent fun _ _ => id

theorem Main.afterStart_requested (x y : Service) (st : Status) :
    ¬ (Main.afterStart x st).requested y := by
  unfold Main.afterStart
  split
  · cases x <;> exact id
  · split <;> exact id

theorem Main.afterStart_pastCalls (x : Service) (st : Status) :
    (Main.afterStart x st).pastCalls = true := by
  unfold Main.afterStart
  split
  · cases x <;> rfl
  · split <;> rfl

/-- A step of a client. -/
theorem Sound.client {x : Service} {sv' : RemoteTrigger.Shared} {pc pc' : RemoteTrigger.Pc}
    {e : RemoteTrigger.Label} {clients' : Service → Client → RemoteTrigger.Pc} (h : Sound s)
    (hok : StopsQuietly s (.trigger x e)) (hclient : e.ofClient = true)
    (hatom : RemoteTrigger.Atom (s.servers x) pc e sv' pc') :
    Sound { s with servers := Function.update s.servers x sv', clients := clients' } := by
  have henters : e.enters = false := by cases e <;> first | rfl | cases hclient
  have hsilent : Silent s.shutdown s.main x sv' :=
    (h.servers x).atom hatom (fun _ => henters) fun hshutdown hlooped st he =>
      hok.posted hshutdown x st hlooped (congrArg _ he)
  exact ⟨h.inRun, h.main, silent_update h.servers hsilent fun _ _ => id, h.workers, h.polling⟩

/-- The thread for state changes calls `Query`. -/
theorem Sound.query {x : Service} {entered : Bool} {sv' : RemoteTrigger.Shared}
    {pc' : RemoteTrigger.Pc} (h : Sound s) (hpolling : s.polling = .next x)
    (hatom : RemoteTrigger.Atom (s.servers x) .idle (.query entered) sv' pc') :
    Sound { s with
      servers := Function.update s.servers x sv'
      polling := .query x ⟨pc', .idle⟩ } := by
  have hlooped := h.polling
  rw [hpolling] at hlooped
  obtain ⟨hquery, hclient, hcheck⟩ := hatom.queries (.inr ⟨entered, rfl⟩)
  have hsilent : Silent s.shutdown s.main x sv' := by
    refine (h.servers x).atom hatom (fun hnot => ?_) fun _ _ => ?_
    · rw [hlooped] at hnot
      cases hnot
    · exact RemoteTrigger.Label.not_posted hclient
  refine ⟨h.inRun, h.main, ?_, h.workers, hlooped, hquery, fun hshutdown => ?_⟩
  · exact silent_update h.servers hsilent fun _ _ => id
  · exact ⟨hcheck ((h.servers x).requests hshutdown hlooped), fun _ _ => rfl⟩

/-- The thread that calls `Run` and `Stop` goes on, without a step of a server. -/
theorem Sound.moved {m : Main} (h : Sound s) (hrun : m.inRun = true → s.main.inRun = true)
    (hpast : m.pastCalls = true)
    (hrequested : ∀ x, x.looped = true → m.requested x → s.main.requested x) :
    Sound { s with main := m } where
  inRun := fun hm => h.inRun (hrun hm)
  main := hpast
  servers := fun x => (h.servers x).moved (hrequested x)
  workers := h.workers
  polling := h.polling

/-- `Run` goes on, or fails. -/
theorem Sound.started {m : Main} {servers' : Service → RemoteTrigger.Shared} (h : Sound s)
    (hrun : s.main.inRun = true) (hpast : m.pastCalls = true) (hrequested : ∀ x, ¬ m.requested x) :
    Sound { s with servers := servers', main := m } where
  inRun := fun _ => h.inRun hrun
  main := hpast
  servers := fun x => silent_of_running (h.inRun hrun) (hrequested x)
  workers := h.workers
  polling := h.polling

/-- `Stop` calls `RequestStop`. -/
theorem Sound.requestStop {x : Service} {rest : List Service} {sv' : RemoteTrigger.Shared}
    (h : Sound s) (hmain : s.main = .requestStop (x :: rest))
    (hatom : RemoteTrigger.Atom (s.servers x) .idle .requestStop sv' .idle) :
    Sound { s with
      servers := Function.update s.servers x sv'
      main := .requestStop rest } := by
  have hsilent : Silent s.shutdown (.requestStop rest) x sv' := by
    refine ⟨fun _ _ => ?_, fun hshutdown hlooped => ?_⟩
    · cases hatom
      rfl
    · exact hatom.not_posted nofun ((h.servers x).requests hshutdown hlooped)
  refine ⟨nofun, rfl, ?_, h.workers, h.polling⟩
  refine silent_update h.servers hsilent fun y hy hnot => ?_
  rw [hmain]
  exact List.not_mem_cons_of_ne_of_not_mem hy hnot

/-- `Stop` calls `Shutdown()` of the module. -/
theorem Sound.shutdown (h : Sound s) (hquiet : Quiet s) (hmain : s.main = .requestStop []) :
    Sound { s with shutdown := true, main := .join joinOrder } := by
  refine ⟨nofun, rfl, fun x => ⟨fun hlooped _ => ?_, fun _ => hquiet.requests x⟩,
    fun x => ⟨(h.workers x).trigger, fun _ => hquiet.workers x⟩, ?_⟩
  · refine (h.servers x).stopped hlooped (.inr ?_)
    rw [hmain]
    exact List.not_mem_nil
  · have hfits := h.polling
    dsimp only
    cases hpolling : s.polling with
    | query x p =>
      rw [hpolling] at hfits
      exact ⟨hfits.1, hfits.2.trigger, fun _ => hquiet.polling x p hpolling⟩
    | next x =>
      rw [hpolling] at hfits
      exact hfits
    | _ => exact trivial

end Sound

section Run
variable {Client : Type} [DecidableEq Client] {ok : State Client → Label → Prop}
  {s s' : State Client} {l : Label} {w u v : List Label} {now : Nat}

/-- **One step keeps the invariant**, and after `Shutdown()` it calls nothing but hooks. -/
theorem Sound.step (h : Sound s) (hok : StopsQuietly s l) (hs : Next s l s') :
    Sound s' ∧ (s.shutdown = true → ∀ m ∈ l.calls, m.isHook = true) := by
  have hnone : s.shutdown = true → ∀ m ∈ ([] : List CallbackHandler.Method), m.isHook = true :=
    fun _ => List.forall_mem_nil _
  cases hs with
  | worker hlooped hbegan hserve => exact h.worker hlooped hbegan hserve
  | poll hpolling hinside hserve => exact h.poll hpolling hinside hserve
  | client hclient hatom => exact ⟨h.client hok hclient hatom, hnone⟩
  | getState => exact ⟨⟨h.inRun, h.main, h.servers, h.workers, h.polling⟩, hnone⟩
  | pollTest =>
    refine ⟨⟨h.inRun, h.main, h.servers, h.workers, ?_⟩, hnone⟩
    dsimp only
    split
    · exact trivial
    · exact rfl
  | pollQuery hpolling hatom => exact ⟨h.query hpolling hatom, hnone⟩
  | @pollNext x =>
    refine ⟨⟨h.inRun, h.main, h.servers, h.workers, ?_⟩, hnone⟩
    cases x <;> first | exact rfl | exact trivial
  | startAsync hmain => exact ⟨h.started (hmain ▸ rfl) rfl fun _ => id, hnone⟩
  | @starting x _ pc' _ l hmain =>
    refine ⟨h.started (hmain ▸ rfl) ?_ fun y => ?_, hnone⟩
    · cases startResult l with
      | none => rfl
      | some st => exact Main.afterStart_pastCalls x st
    · cases startResult l with
      | none => exact id
      | some st => exact Main.afterStart_requested x y st
  | init st hmain =>
    refine ⟨h.moved (fun _ => hmain ▸ rfl) ?_ fun x _ => ?_, hnone⟩
    · split <;> rfl
    · split <;> exact False.elim
  | initFailed hmain hinside hatom =>
    have hpast := h.main
    rw [hmain] at hpast
    obtain ⟨hpast', hcalls⟩ := hatom.pastCalls hpast (hatom.not_start hinside)
    exact ⟨⟨fun _ => h.inRun (hmain ▸ rfl), hpast',
      fun x => (h.servers x).moved fun _ => False.elim, h.workers, h.polling⟩, fun _ => hcalls⟩
  | failed | serveFailed | stop | noThread => exact ⟨h.moved nofun rfl fun _ _ => False.elim, hnone⟩
  | serve hmain =>
    exact ⟨⟨fun _ => h.inRun (hmain ▸ rfl), rfl, fun x => (h.servers x).moved fun _ => False.elim,
      h.workers, trivial⟩, hnone⟩
  | shutdownHandler hmain hinside hatom =>
    have hpast := h.main
    rw [hmain] at hpast
    obtain ⟨hpast', hcalls⟩ := hatom.pastCalls hpast (hatom.not_start hinside)
    exact ⟨⟨nofun, hpast', fun x => (h.servers x).moved fun _ => False.elim, h.workers, h.polling⟩,
      fun _ => hcalls⟩
  | handlerDown =>
    exact ⟨h.moved nofun rfl fun x hlooped hnot => absurd (mem_stopOrder hlooped) hnot, hnone⟩
  | requestStop hmain hatom => exact ⟨h.requestStop hmain hatom, hnone⟩
  | shutdown hmain => exact ⟨h.shutdown (hok.quiet rfl) hmain, hnone⟩
  | @join x rest sv' hmain hatom =>
    have hsilent : Silent s.shutdown (.join rest) x sv' :=
      ((h.servers x).atom hatom (fun _ => rfl) fun _ _ => nofun).moved fun _ => False.elim
    exact ⟨⟨nofun, rfl, silent_update h.servers hsilent fun _ _ => False.elim, h.workers,
      h.polling⟩, hnone⟩
  | stopThread =>
    exact ⟨⟨nofun, rfl, fun x => (h.servers x).moved fun _ => False.elim, h.workers, h.polling⟩,
      hnone⟩
  | joinThread =>
    exact ⟨⟨nofun, rfl, fun x => (h.servers x).moved fun _ => False.elim, h.workers, trivial⟩,
      hnone⟩

theorem sound_run (hok : ∀ s l, ok s l → StopsQuietly s l)
    (h : Run (Step ok) (initial Client now) w s) : Sound s :=
  h.stateInvariant (sound_initial now) fun _ _ _ hi hs => (hi.step (hok _ _ hs.1) hs.2).1

/-- `Shutdown()` cannot be undone. -/
theorem Next.shutdown_eq_true (hs : Next s l s') (h : l = .shutdown ∨ s.shutdown = true) :
    s'.shutdown = true := by
  cases hs with
  | worker _ _ hserve => exact h.resolve_left hserve.ne_shutdown
  | poll _ _ hserve => exact h.resolve_left hserve.ne_shutdown
  | shutdown => rfl
  | _ => exact h.resolve_left nofun

theorem shutdown_run {s₀ : State Client} (h : Run (Step ok) s₀ w s) (hw : .shutdown ∈ w) :
    s.shutdown = true := by
  refine h.invariant (I := fun w s => Label.shutdown ∈ w → s.shutdown = true) nofun ?_ hw
  intro w s l s' hi hs hw
  refine hs.2.shutdown_eq_true ?_
  obtain hw | hl := List.mem_append.mp hw
  · exact .inr (hi hw)
  · exact .inl (List.mem_singleton.mp hl).symm

/-- **No call of the module begins after its `Shutdown()`**, apart from the hooks, in every run
in which `Stop` shuts the module down while the runtime is quiet, and no request comes to a
server that is queried. -/
theorem no_call_after_shutdown (hok : ∀ s l, ok s l → StopsQuietly s l)
    (h : Run (Step ok) (initial Client now) (u ++ v) s) (hshutdown : .shutdown ∈ u) :
    ∀ l ∈ v, ∀ m ∈ l.calls, m.isHook = true := by
  intro l hl
  obtain ⟨v₁, v₂, rfl⟩ := List.append_of_mem hl
  rw [← List.append_assoc] at h
  obtain ⟨t, hbefore, hafter⟩ := h.split
  obtain ⟨t', hs, -⟩ := hafter.uncons
  have hdown : t.shutdown = true := shutdown_run hbefore (List.mem_append_left v₁ hshutdown)
  exact ((sound_run hok hbefore).step (hok t l hs.1) hs.2).2 hdown

end Run

/-! ## Requests after `Shutdown()` -/

/-- The thread of `readStatus` begins, and waits for a request. -/
def beginning : List Label :=
  [.trigger .readStatus (.began 0), .trigger .readStatus .internal, .trigger .readStatus .internal]

/-- The server of `readStatus` with that thread. -/
def begun : RemoteTrigger.Shared :=
  { running with threads := Function.update running.threads 0 .running }

/-- The runtime with that thread. -/
def waiting : State Unit := started.putWorker .readStatus begun ⟨.wait (.async 0), .idle⟩

/-- A request comes after `Shutdown()`; the thread takes it and drops it. -/
def dropping : List Label :=
  [.trigger .readStatus (.posted rtOkStatus), .trigger .readStatus (.waited rtOkStatus),
    .trigger .readStatus .internal]

theorem stopsQuietly_of_running {Client : Type} (s : State Client) (l : Label)
    (hl : l ≠ .shutdown) (hdown : s.shutdown = false) : StopsQuietly s l where
  quiet := fun h => absurd h hl
  posted := fun h => by
    rw [hdown] at h
    cases h

theorem stopsQuietly_readStatus {Client : Type} (s : State Client) (e : RemoteTrigger.Label) :
    StopsQuietly s (.trigger .readStatus e) where
  quiet := nofun
  posted := by
    rintro - x st hlooped h
    cases h
    cases hlooped

theorem beginning_run : Run (Step StopsQuietly) started beginning waiting := by
  have hok := @stopsQuietly_readStatus Unit
  have hbegan : Step StopsQuietly started (.trigger .readStatus (.began 0))
      (started.putWorker .readStatus begun ⟨.prelude (.async 0), .idle⟩) :=
    ⟨hok _ _, .worker rfl (fun _ => ⟨0, rfl⟩)
      (.trigger nofun (@RemoteTrigger.Atom.began running true 0 rfl))⟩
  refine .cons hbegan ?_
  refine .cons (putWorker_step rfl nofun (hok _ _) (.trigger nofun .preludeOk)) ?_
  exact .single (putWorker_step rfl nofun (hok _ _) (.trigger nofun (.goOn rfl)))

theorem waiting_quiet : Quiet waiting.stopped where
  workers := by
    intro x
    cases x <;> exact ⟨nofun, nofun⟩
  polling := by
    intro x p hp
    cases hp
  requests := by
    intro x _
    cases x <;> exact nofun

theorem dropping_run : ∃ s, Run (Step StopsQuietly) waiting.stopped.down dropping s := by
  have hok := @stopsQuietly_readStatus Unit
  exact ⟨_, .cons ⟨hok _ _, .client (c := ()) rfl .clientPost⟩
    (.cons ⟨hok _ _, .worker rfl (fun h => by cases h) (.trigger nofun (.waited .taken))⟩
    (.single ⟨hok _ _, .worker rfl (fun h => by cases h) (.trigger nofun (.drop rfl))⟩))⟩

/-- A loop that gets a request after `Shutdown()` does not call the module. -/
theorem no_call_after_shutdown_dropping : ∃ s,
    Run (Step StopsQuietly) (initial Unit 0)
      ((startup ++ beginning ++ stopping ++ [.shutdown]) ++ dropping) s ∧
      ∀ l ∈ dropping, ∀ m ∈ l.calls, m.isHook = true := by
  obtain ⟨s, hdropping⟩ := dropping_run
  have hrun := startup_run stopsQuietly_of_running |>.append beginning_run
    |>.append (stopping_run stopsQuietly_of_running rfl rfl rfl rfl)
    |>.append (.single ⟨⟨fun _ => waiting_quiet, nofun⟩, .shutdown rfl⟩) |>.append hdropping
  exact ⟨s, hrun, no_call_after_shutdown (fun _ _ => id) hrun (by simp)⟩

/-- A request to prepare comes after `Shutdown()`, and the thread for state changes serves it. -/
def preparing : List Label :=
  [.trigger .prepare (.posted rtOkStatus), .internal, .trigger .prepare (.query true),
    .trigger .prepare (.waited rtOkStatus), .trigger .prepare .callback, .handler .internal,
    .handler (.setState .preparing .deactivated .preparing true none), .handler (.empty true),
    .handler (.call .prepare .ok)]

theorem preparing_run : ∃ s, Run (Step fun _ _ => True) started.stopped.down preparing s := by
  refine ⟨_, .cons ⟨trivial, .client (c := ()) rfl .clientPost⟩
    (.cons ⟨trivial, .pollTest rfl⟩ (.cons ⟨trivial, .pollQuery rfl (.query rfl)⟩
    (.cons (putPolling_step nofun trivial (.trigger nofun (.waited .taken)))
    (.cons (putPolling_step nofun trivial (.trigger nofun (.callback rfl)))
    (.cons (putPolling_step nofun trivial (.handler nofun .prepareLoad))
    (.cons (putPolling_step nofun trivial (.handler nofun (.stores 0 rfl nofun (Nat.le_refl _))))
    (.cons (putPolling_step nofun trivial (.handler nofun (.cancelDone rfl)))
    (.single (putPolling_step nofun trivial (.handler nofun (.statusCall okStatus)))))))))))⟩

/-- **`Prepare()` is called after `Shutdown()`.** -/
theorem prepare_after_shutdown : ∃ s,
    Run (Step fun _ _ => True) (initial Unit 0)
      ((startup ++ stopping ++ [.shutdown]) ++ preparing) s ∧
      ∃ l ∈ preparing, CallbackHandler.Method.prepare ∈ l.calls := by
  obtain ⟨s, hpreparing⟩ := preparing_run
  have hrun := startup_run (fun _ _ _ _ => trivial)
    |>.append (stopping_run (fun _ _ _ _ => trivial) rfl rfl rfl rfl)
    |>.append (.single ⟨trivial, .shutdown rfl⟩) |>.append hpreparing
  have hcall : .handler (.call .prepare .ok) ∈ preparing := List.mem_of_getElem? (i := 8) rfl
  exact ⟨s, hrun, _, hcall, List.mem_singleton_self _⟩

end Intrinsic.HardwareModuleRuntime
