import IconSharedMemory.RequestCustody

/-! # Shutdown of the callback handler

`Shutdown` takes `non_rt_buffer_lock_`, makes the handler reject requests and cancels the
pending ones, still under the lock.  Its last look at the queue finds it empty, and no
`SetStateAndWait` is between its look at the flag and its insertion then, because both
happen under the same lock.  So the queue stays empty for as long as the flag stays set.

The flag belongs to the activation too.  `OnActivate` ends with a store that makes the
handler accept requests, whatever the flag says, and `HardwareModuleRuntime::Stop` asks the
server of `OnActivate` to stop only after `Shutdown()`.  An activation that ends later
therefore takes the shutdown back (`shutdown_undone`).  Without such a store the shutdown is
final (`shutdown_final`), whatever else the threads do.
-/
namespace Intrinsic.CallbackHandler
open Runs

/-! ## The lock and the flag -/

/-- The thread holds `non_rt_buffer_lock_`. -/
def Pc.holdsBuffer : Pc → Prop
  | .requestStamp _ | .requestInsert _ _ | .shutdownReject | .cancelEmpty .shutdown
  | .cancelFront .shutdown | .cancelRespond .shutdown _ | .cancelDrop .shutdown => True
  | _ => False

/-- `SetStateAndWait` has found the flag clear and is about to insert its request. -/
def Pc.inserts : Pc → Prop
  | .requestStamp _ | .requestInsert _ _ => True
  | _ => False

/-- `SetStateAndWait` was called for `q` and has not looked at the flag. -/
def Pc.asksFor (pc : Pc) (q : Ask) : Prop := pc = .requestGuard q ∨ pc = .requestLock q

/-- `Shutdown` is cancelling the pending requests. -/
def Pc.cancelsForShutdown (pc : Pc) : Prop := pc.holdsBuffer ∧ pc.task = some .shutdown

/-- **Condition of the shutdown**: the step is not the store that ends `OnActivate`. -/
def NoActivation {Tid : Type} (c : Config Tid) (t : Tid) : Label → Prop :=
  fun _ => c.locals t ≠ .acceptRequests

section Atoms
variable {s s' : Shared} {pc pc' : Pc} {l : Label}

theorem Pc.inserts.holdsBuffer (h : pc.inserts) : pc.holdsBuffer := by
  cases pc <;> first | exact h.elim | exact trivial

/-- `SetStateDirectly` touches neither the lock nor the flag. -/
theorem Shared.setStateDirectly_gate (s : Shared) (disabled : RealtimeStatus) (now : Nat)
    (state : StateCode) (status : RealtimeStatus) :
    (s.setStateDirectly disabled now state status false).2.nonRtBufferLock = s.nonRtBufferLock ∧
      (s.setStateDirectly disabled now state status false).2.rejectNewRequests =
        s.rejectNewRequests := by
  obtain ⟨-, heq⟩ | ⟨-, stored, status', heq, -⟩ :=
    s.setStateDirectly_cases disabled now state status
  · rw [heq]
    exact ⟨rfl, rfl⟩
  · rw [heq]
    exact ⟨rfl, rfl⟩

theorem not_holdsBuffer_next (site : Site) (changed : Bool) :
    ¬ (site.next changed).holdsBuffer := by
  cases site with
  | deactivating nested => cases changed <;> cases nested <;> exact id
  | deactivated nested => cases nested <;> exact id
  | _ => cases changed <;> exact id

theorem not_holdsBuffer_statusCall (k : StatusCall) (st : Status) :
    ¬ (k.next st).holdsBuffer := by
  unfold StatusCall.next
  split
  · split <;> exact id
  · exact id

theorem not_holdsBuffer_realtimeCall (k : RealtimeCall) (st : RealtimeStatus) :
    ¬ (k.next st).holdsBuffer := by
  unfold RealtimeCall.next
  split <;> split <;> exact id

theorem not_holdsBuffer_ask (q : Ask) (id : Nat) (ok : Bool) : ¬ (q.next id ok).holdsBuffer := by
  unfold Ask.next
  split <;> exact fun h => h

/-- **What a step does with `non_rt_buffer_lock_`**: nothing, or its thread takes it or gives
it back.  A thread that takes it to insert a request has found the flag clear. -/
inductive BufferLock (s : Shared) (pc : Pc) (s' : Shared) (pc' : Pc) : Prop
  | keep (hlock : s'.nonRtBufferLock = s.nonRtBufferLock)
      (hholds : pc'.holdsBuffer ↔ pc.holdsBuffer) (hinserts : pc'.inserts → pc.inserts)
  | take (hfree : s.nonRtBufferLock = false) (hlock : s'.nonRtBufferLock = true)
      (hholds : pc'.holdsBuffer) (hinserts : pc'.inserts → s.rejectNewRequests = false)
  | giveBack (hheld : pc.holdsBuffer) (hlock : s'.nonRtBufferLock = false)
      (hholds : ¬ pc'.holdsBuffer)

/-- A step between two program points outside the lock. -/
theorem BufferLock.outside (hlock : s'.nonRtBufferLock = s.nonRtBufferLock)
    (hpc' : ¬ pc'.holdsBuffer) (hpc : ¬ pc.holdsBuffer) : BufferLock s pc s' pc' :=
  .keep hlock (iff_of_false hpc' hpc) fun h => absurd h.holdsBuffer hpc'

theorem Atom.bufferLock (h : Atom s pc l s' pc') : BufferLock s pc s' pc' := by
  cases h with
  | start cb => exact .outside rfl (by cases cb <;> exact id) id
  | @setState site state status disabled now =>
    exact .outside (s.setStateDirectly_gate disabled now state status).1
      (not_holdsBuffer_next site _) id
  | @statusCall k st => exact .outside rfl (not_holdsBuffer_statusCall k st) id
  | @realtimeCall k st => exact .outside rfl (not_holdsBuffer_realtimeCall k st) id
  | prepareLoad => exact .outside rfl (by split <;> exact id) id
  | @cancelDone k =>
    cases k with
    | shutdown => exact .giveBack trivial rfl id
    | _ => exact .outside rfl id id
  | @cancelMore k | @cancelFront k | @cancelRespond k | @cancelDrop k =>
    cases k <;> exact .keep rfl Iff.rfl False.elim
  | requestLock hfree hreject => exact .take hfree rfl trivial fun _ => hreject
  | requestStamp => exact .keep rfl Iff.rfl id
  | requestFull | requestInsert => exact .giveBack trivial rfl id
  | @requestAnswered q id reply => exact .outside rfl (not_holdsBuffer_ask q id _) fun h => h
  | @requestGivenUp q id => exact .outside rfl (not_holdsBuffer_ask q id _) fun h => h
  | enabledLoad => exact .outside rfl (by split <;> exact id) id
  | readStatusLoad => exact .outside rfl (by split <;> exact id) id
  | applyLoad => exact .outside rfl (by split; exacts [id, by split <;> exact id]) id
  | shutdownLock hfree => exact .take hfree rfl trivial False.elim
  | shutdownReject => exact .keep rfl Iff.rfl False.elim
  | _ => exact .outside rfl id id

/-- Only the store that ends `OnActivate` clears the flag. -/
theorem Atom.rejects (h : Atom s pc l s' pc') (hpc : pc ≠ .acceptRequests)
    (hreject : s.rejectNewRequests = true) : s'.rejectNewRequests = true := by
  cases h with
  | @setState site state status disabled now =>
    rw [(s.setStateDirectly_gate disabled now state status).2]
    exact hreject
  | acceptRequests => exact absurd rfl hpc
  | @cancelDone k => cases k <;> exact hreject
  | rejectRequests | shutdownReject => rfl
  | _ => exact hreject

/-- An empty queue stays empty unless a request is inserted. -/
theorem Atom.keeps_empty (h : Atom s pc l s' pc') (hpc : ¬ pc.inserts)
    (hempty : s.requestQueue = []) : s'.requestQueue = [] ∧ l.inserted = none := by
  cases h with
  | @setState site state status disabled now =>
    rw [(s.setStateDirectly_requests disabled now state status).queue]
    exact ⟨hempty, rfl⟩
  | @cancelDone k => cases k <;> exact ⟨hempty, rfl⟩
  | cancelDrop | processDrop =>
    refine ⟨?_, rfl⟩
    rw [Shared.dropFront, hempty]
    rfl
  | requestInsert => exact absurd trivial hpc
  | _ => exact ⟨hempty, rfl⟩

/-- A thread that comes to insert a request has found the flag clear. -/
theorem Atom.not_inserts (h : Atom s pc l s' pc') (hpc : ¬ pc.inserts)
    (hreject : s.rejectNewRequests = true) : ¬ pc'.inserts := by
  intro hpc'
  cases h.bufferLock with
  | keep _ _ hinserts => exact hpc (hinserts hpc')
  | take _ _ _ hinserts => exact absurd ((hinserts hpc').symm.trans hreject) nofun
  | giveBack _ _ hholds => exact hholds hpc'.holdsBuffer

/-- `SetStateAndWait` returns false when it finds the flag set. -/
theorem Atom.asksFor {q : Ask} (h : Atom s pc l s' pc') (hpc : pc.asksFor q)
    (hreject : s.rejectNewRequests = true) :
    l = .internal ∧ s' = s ∧
      (pc' = .actionUnlock ∨ pc = .requestGuard q ∧ pc' = .requestLock q) := by
  rcases hpc with rfl | rfl
  · cases h with
    | requestRefused => exact ⟨rfl, rfl, .inl rfl⟩
    | requestAllowed => exact ⟨rfl, rfl, .inr ⟨rfl, rfl⟩⟩
  · cases h with
    | requestRejected => exact ⟨rfl, rfl, .inl rfl⟩
    | requestLock _ hclear => exact absurd (hclear.symm.trans hreject) nofun

/-- A step of `Shutdown` after it has taken the lock: it sets the flag, or goes on cancelling,
or it has found the queue empty and returns. -/
theorem Atom.ofShutdown (h : Atom s pc l s' pc') (hpc : pc.cancelsForShutdown) :
    pc'.cancelsForShutdown ∧ (pc = .shutdownReject → s'.rejectNewRequests = true) ∨
      pc ≠ .shutdownReject ∧ s'.requestQueue = [] ∧ pc' = .idle := by
  obtain ⟨hholds, htask⟩ := hpc
  cases h with
  | shutdownReject => exact .inl ⟨⟨trivial, rfl⟩, fun _ => rfl⟩
  | @cancelDone k hempty =>
    cases k with
    | shutdown => exact .inr ⟨nofun, hempty, rfl⟩
    | _ => exact hholds.elim
  | @cancelMore k | @cancelFront k | @cancelRespond k | @cancelDrop k =>
    cases k with
    | shutdown => exact .inl ⟨⟨trivial, rfl⟩, nofun⟩
    | _ => exact hholds.elim
  | requestStamp | requestInsert | requestFull => cases htask
  | _ => exact hholds.elim

end Atoms

/-! ## Every run -/

section Runs
variable {Tid : Type} [DecidableEq Tid] {ok : Config Tid → Tid → Label → Prop}
  {c d e : Config Tid} {x : Tid × Label} {w v : List (Tid × Label)} {t : Tid} {now : Nat}

/-- `non_rt_buffer_lock_` is held by exactly one thread, or free. -/
def BufferOwned (c : Config Tid) : Prop :=
  Owned (c.shared.nonRtBufferLock = false) Pc.holdsBuffer c.locals

theorem BufferOwned.step (h : BufferOwned c) (hs : Step ok c x d) : BufferOwned d := by
  cases hs with
  | @mk t l s' pc' hok hatom =>
    cases hatom.bufferLock with
    | keep hlock hholds => exact h.frame (by rw [hlock]) hholds
    | take hfree hlock hholds => exact h.acquire hfree (by rw [hlock]; exact nofun) hholds
    | giveBack hheld hlock hholds => exact h.release hheld hlock hholds

omit [DecidableEq Tid] in
theorem bufferOwned_initial (now : Nat) : BufferOwned (initial Tid now) :=
  ⟨fun _ _ => id, fun h => absurd rfl h, fun _ _ h => False.elim h⟩

theorem bufferOwned_run (h : Run (Step ok) (initial Tid now) w c) : BufferOwned c :=
  h.stateInvariant (bufferOwned_initial now) fun _ _ _ hi hs => hi.step hs

/-- **The handler is shut down**: the flag is set, the queue is empty and nobody is about to
insert a request. -/
structure Closed (c : Config Tid) : Prop where
  rejects : c.shared.rejectNewRequests = true
  empty : c.shared.requestQueue = []
  not_inserts : ∀ u, ¬ (c.locals u).inserts

theorem Closed.step (h : Closed c) (hs : Step NoActivation c x d) :
    Closed d ∧ x.2.inserted = none := by
  cases hs with
  | @mk t l s' pc' hok hatom =>
    obtain ⟨hempty, hinserted⟩ := hatom.keeps_empty (h.not_inserts t) h.empty
    refine ⟨⟨hatom.rejects hok h.rejects, hempty, ?_⟩, hinserted⟩
    exact forall_update (fun pc : Pc => ¬ pc.inserts)
      (hatom.not_inserts (h.not_inserts t) h.rejects) fun u _ => h.not_inserts u

theorem Closed.run (h : Closed c) (hv : Run (Step NoActivation) c v d) :
    Closed d ∧ inserted v = [] := by
  induction hv with
  | nil => exact ⟨h, rfl⟩
  | snoc _ hs ih =>
    obtain ⟨hclosed, hinserted⟩ := ih.1.step hs
    refine ⟨hclosed, ?_⟩
    rw [inserted_snoc, ih.2, hinserted]
    rfl

/-- The thread `t` is in `Shutdown`, with the flag set as soon as it has set it, or the
handler is shut down. -/
def Closing (t : Tid) (c : Config Tid) : Prop :=
  (c.locals t).cancelsForShutdown ∧
    (c.locals t ≠ .shutdownReject → c.shared.rejectNewRequests = true) ∨ Closed c

theorem Closing.step (h : Closing t c) (howned : BufferOwned c)
    (hs : Step NoActivation c x d) : Closing t d := by
  rcases h with ⟨hcancels, hreject⟩ | hclosed
  · obtain ⟨u, l⟩ := x
    obtain ⟨hok, hatom, hothers⟩ := hs.atomic
    by_cases hu : u = t
    · subst hu
      rcases hatom.ofShutdown hcancels with ⟨hcancels', hset⟩ | ⟨hpc, hempty, hidle⟩
      · refine .inl ⟨hcancels', fun _ => ?_⟩
        by_cases hpc : c.locals u = .shutdownReject
        · exact hset hpc
        · exact hatom.rejects hok (hreject hpc)
      · refine .inr ⟨hatom.rejects hok (hreject hpc), hempty, fun v hinserts => ?_⟩
        by_cases hv : v = u
        · rw [hv, hidle] at hinserts
          exact hinserts
        · -- the lock is still held by `u` in the state before
          rw [hothers v hv] at hinserts
          exact hv (howned.unique v u hinserts.holdsBuffer hcancels.1)
    · have ht := hothers t (Ne.symm hu)
      refine .inl ⟨by rwa [ht], fun hpc => ?_⟩
      rw [ht] at hpc
      exact hatom.rejects hok (hreject hpc)
  · exact .inr (hclosed.step hs).1

/-- The handler is shut down when a thread has returned from `Shutdown`. -/
theorem closed_of_returned (howned : BufferOwned c) (hc : c.locals t = .shutdownReject)
    (hv : Run (Step NoActivation) c v d) (hd : d.locals t = .idle) : Closed d := by
  have hstart : Closing t c := by
    refine .inl ⟨?_, fun hpc => absurd hc hpc⟩
    rw [hc]
    exact ⟨trivial, rfl⟩
  have hboth : BufferOwned d ∧ Closing t d :=
    hv.stateInvariant (I := fun c => BufferOwned c ∧ Closing t c) ⟨howned, hstart⟩
      fun _ _ _ hi hs => ⟨hi.1.step hs, hi.2.step hi.1 hs⟩
  rcases hboth.2 with ⟨⟨hholds, -⟩, -⟩ | hclosed
  · rw [hd] at hholds
    exact hholds.elim
  · exact hclosed

/-- A thread of the pool takes a step that does not end an activation. -/
theorem exists_step {s' : Shared} {pc pc' : Pc} {l : Label} (ht : c.locals t = pc)
    (hpc : pc ≠ .acceptRequests) (h : Atom c.shared pc l s' pc') :
    ∃ d, Step NoActivation c (t, l) d ∧ d.shared = s' ∧ d.locals t = pc' := by
  subst ht
  exact ⟨_, .mk hpc h, rfl, Function.update_self t _ _⟩

/-- `SetStateAndWait` can return when the lock is free. -/
theorem Closed.asksFor_returns {q : Ask} (h : Closed c) (ht : (c.locals t).asksFor q)
    (hfree : c.shared.nonRtBufferLock = false) :
    ∃ v d, Run (Step NoActivation) c v d ∧ d.locals t = .actionUnlock := by
  rcases ht with hguard | hlock
  · by_cases hallowed : hardwareModuleTransitionGuard q.source q.target = .allowed
    · obtain ⟨d, hs, hshared, hd⟩ := exists_step hguard nofun (.requestAllowed hallowed)
      rw [← hshared] at hfree
      obtain ⟨e, hs', -, he⟩ := exists_step hd nofun
        (.requestRejected hfree (by rw [hshared, h.rejects]))
      exact ⟨_, e, (Run.single hs).snoc hs', he⟩
    · obtain ⟨d, hs, -, hd⟩ := exists_step hguard nofun (.requestRefused hallowed)
      exact ⟨_, d, .single hs, hd⟩
  · obtain ⟨d, hs, -, hd⟩ := exists_step hlock nofun (.requestRejected hfree h.rejects)
    exact ⟨_, d, .single hs, hd⟩

/-- **Shutdown is final** as long as no activation ends.  Let the thread `t` set the flag in
`Shutdown` at `c` and have returned at `d`.  Then no request is inserted and the queue is
empty from there on.  Every later `SetStateAndWait` goes from the guard to the look at the
flag and returns false, which leads an action to the end of its callback; it does so as soon
as the lock is free. -/
theorem shutdown_final (hw : Run (Step Pool.free) (initial Tid now) w c)
    (hc : c.locals t = .shutdownReject) (hv : Run (Step NoActivation) c v d)
    (hd : d.locals t = .idle) {u : List (Tid × Label)}
    (hu : Run (Step NoActivation) d u e) :
    e.shared.requestQueue = [] ∧ inserted u = [] ∧
      ∀ (r : Tid) (q : Ask), (e.locals r).asksFor q →
        (∀ l e', Step Pool.free e (r, l) e' → l = .internal ∧
          (e'.locals r = .actionUnlock ∨
            e.locals r = .requestGuard q ∧ e'.locals r = .requestLock q)) ∧
        (e.shared.nonRtBufferLock = false →
          ∃ u' e', Run (Step NoActivation) e u' e' ∧ e'.locals r = .actionUnlock) := by
  have hclosed := closed_of_returned (bufferOwned_run hw) hc hv hd
  obtain ⟨hclosed, hinserted⟩ := hclosed.run hu
  refine ⟨hclosed.empty, hinserted, fun r q hr => ⟨fun l e' hs => ?_, fun hfree => ?_⟩⟩
  · obtain ⟨hl, -, hpc⟩ := hs.atomic.2.1.asksFor hr hclosed.rejects
    exact ⟨hl, hpc⟩
  · exact hclosed.asksFor_returns hr hfree

end Runs

/-! ## Shutdown of two handlers -/

/-- `Shutdown` without pending requests, up to the lock. -/
theorem shutdownLock_run {s : Shared} (hfree : s.nonRtBufferLock = false) :
    Run (Step Pool.free) (Pool.two s .idle .idle)
      [(true, .start .shutdown), (true, .internal)]
      (Pool.two { s with nonRtBufferLock := true } .idle .shutdownReject) := by
  refine .cons (.second trivial (.start .shutdown)) ?_
  exact .single (.second trivial (.shutdownLock hfree))

/-- `Shutdown` without pending requests, from there to its end. -/
theorem shutdownReject_run {s : Shared} (hfree : s.nonRtBufferLock = false)
    (hempty : s.requestQueue = []) :
    Run (Step NoActivation) (Pool.two { s with nonRtBufferLock := true } .idle .shutdownReject)
      [(true, .internal), (true, .empty true)]
      (Pool.two { s with rejectNewRequests := true } .idle .idle) := by
  have hend : ({ s with rejectNewRequests := true } : Shared) =
      Canceller.shutdown.release
        { s with nonRtBufferLock := true, rejectNewRequests := true } := by
    rw [Canceller.release, ← hfree]
  rw [hend]
  refine .cons (.second nofun .shutdownReject) ?_
  exact .single (.second nofun (.cancelDone hempty))

/-- An activated handler is shut down, and `OnEnableMotion` is called afterwards: its
`SetStateAndWait` comes to the flag. -/
theorem shutdown_final_activated : ∃ (w v u : List (Bool × Label)) (c d e : Config Bool),
    Run (Step Pool.free) (initial Bool 0) w c ∧ c.locals true = .shutdownReject ∧
      Run (Step NoActivation) c v d ∧ d.locals true = .idle ∧
      Run (Step NoActivation) d u e ∧
      e.locals false = .requestLock (.begin .enableMotion .activated) ∧
      e.shared.requestQueue = [] ∧
      ∀ l e', Step Pool.free e (false, l) e' → e'.locals false = .actionUnlock := by
  have hactivation : Run (Step Pool.free) _ activation _ :=
    activation_run fun _ _ _ _ => trivial
  have hw := hactivation.append (shutdownLock_run rfl)
  have hv := shutdownReject_run (s := activated) rfl rfl
  have hu : Run (Step NoActivation)
      (Pool.two { activated with rejectNewRequests := true } .idle .idle)
      [(false, .start (.action .enableMotion)), (false, .internal), (false, .internal),
        (false, .internal)]
      (Pool.two { activated with rejectNewRequests := true, actionLock := true }
        (.requestLock (.begin .enableMotion .activated)) .idle) := by
    refine .cons (.first nofun (.start (.action .enableMotion))) ?_
    refine .cons (.first nofun (.actionLock rfl)) ?_
    refine .cons (.first nofun .actionLoad) ?_
    exact .single (.first nofun (.requestAllowed rfl))
  obtain ⟨hempty, -, hasks⟩ := shutdown_final (t := true) hw rfl hv rfl hu
  refine ⟨_, _, _, _, _, _, hw, rfl, hv, rfl, hu, rfl, hempty, fun l e' hs => ?_⟩
  obtain ⟨-, hpc | ⟨hguard, -⟩⟩ := (hasks false _ (.inr rfl)).1 l e' hs
  · exact hpc
  · cases hguard

/-- **An activation takes the shutdown back.**  A new handler is shut down; then `OnPrepare`
and `OnActivate` run, and `OnEnableMotion` inserts a request. -/
theorem shutdown_undone : ∃ (w v u : List (Bool × Label)) (c d e : Config Bool),
    Run (Step Pool.free) (initial Bool 0) w c ∧ c.locals true = .shutdownReject ∧
      Run (Step Pool.free) c v d ∧ d.locals true = .idle ∧
      Run (Step Pool.free) d u e ∧ e.shared.requestQueue = [enableRequest] ∧
      inserted u = [enableRequest] := by
  have hw := shutdownLock_run (s := Shared.init 0) rfl
  have hinitial : initial Bool 0 = Pool.two (.init 0) .idle .idle := Pool.eq_two _
  rw [← hinitial] at hw
  have hv := shutdownReject_run (s := Shared.init 0) rfl rfl
  have hactivation : Run (Step Pool.free) _ activation _ :=
    activation_run_of_rejects true fun _ _ _ _ => trivial
  have hu := hactivation.append (asking_run fun _ _ _ _ => trivial)
  refine ⟨_, _, _, _, _, _, hw, rfl, hv.mono fun _ _ _ hs => ?_, rfl, hu, rfl, rfl⟩
  exact hs.weaken fun _ _ _ _ => trivial

end Intrinsic.CallbackHandler
