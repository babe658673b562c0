import IconSharedMemory.RemoteTrigger

/-! # One thread serves at a time

`is_running_` says that a loop should go on, not that a loop exists.  After `RequestStop` it
is false while the loop may still be in its callback, and neither `Start` nor `Query` can
see that: both then serve requests beside the loop (`callbacks_overlap`).  `StartAsync` looks
at `async_thread_` as well, but only when it has found `is_running_` false.

What keeps callbacks apart is the order in which the server is called (`Calls.Permits`):
after `RequestStop` the callers wait for the loop before they call anything that serves, one
thread at a time calls `Query`, and only `Start` is called while `StartAsync` is going on.
While a loop runs that was not stopped, everything may be called: `is_running_` turns the
caller away.  Then callbacks are executed one at a time, and at most one loop is active
(`callbacks_exclusive`).

A thread is abstracted to its `Role` and the server to the members that decide who may serve
(`Core`); what a step does to them is a `Turn`.  The invariant (`Orderly`) ties what is going
on to what has been called.
-/
namespace Intrinsic.RemoteTrigger
open Runs

/-! ## Roles -/

/-- What a thread does with the server. -/
inductive Role
  | client
  /-- `StartAsync` has not exchanged `is_running_` yet. -/
  | starts
  /-- `StartAsync` is about to create a thread for `Run`. -/
  | creates
  | assigns (n : Nat)
  | checks
  | fails
  /-- The thread is in `Run`, or past `Query`'s load of `is_running_`. -/
  | serves (k : Server)
  deriving DecidableEq, Repr

def Pc.role : Pc → Role
  | .idle | .awaiting => .client
  | .asyncJoinable _ | .asyncCas _ => .starts
  | .asyncCreate _ => .creates
  | .asyncAssign n => .assigns n
  | .asyncCheck => .checks
  | .asyncStop | .asyncJoin => .fails
  | .prelude k | .load k | .wait k | .recheck k | .check k | .callback k | .post k | .stop k =>
    .serves k

/-- The thread is in `StartAsync`. -/
def Role.starting : Role → Prop
  | .client | .serves _ => False
  | _ => True

/-- The thread serves requests, or is about to create one that does. -/
def Role.inside : Role → Prop
  | .creates | .serves _ => True
  | _ => False

/-- The thread is in `Run`, or about to create one that will be. -/
def Role.loops : Role → Prop
  | .creates => True
  | .serves k => k ≠ .query
  | _ => False

/-! ## The order of calls -/

/-- The calls that control a server. -/
inductive Control
  | start | startAsync | query | requestStop | joinAsyncThread
  deriving DecidableEq, Repr

/-- The call that a step is the first of.  `JoinAsyncThread` counts as called when it
returns. -/
def Pc.calls : Pc → Label → Option Control
  | .idle, .start _ => some .start
  | .idle, .internal => some .startAsync
  | .idle, .query _ => some .query
  | .idle, .requestStop => some .requestStop
  | .idle, .join => some .joinAsyncThread
  | _, _ => none

/-- What has been called. -/
structure Calls where
  /-- `RequestStop` was called after the last call of `Start` or `StartAsync`. -/
  stopRequested : Bool
  /-- `StartAsync` was called after `JoinAsyncThread` returned last. -/
  unjoined : Bool

namespace Calls

def after (b : Calls) : Option Control → Calls
  | some .start => { b with stopRequested := false }
  | some .startAsync => ⟨false, true⟩
  | some .requestStop => { b with stopRequested := true }
  | some .joinAsyncThread => { b with unjoined := false }
  | some .query | none => b

/-- After `RequestStop`, `Start` has returned, and so has `JoinAsyncThread` if `StartAsync`
was called. -/
def Waited {Tid : Type} (b : Calls) (roles : Tid → Role) : Prop :=
  b.stopRequested = true → (∀ t, roles t ≠ .serves .start) ∧ b.unjoined = false

/-- **What the callers have to see to.**  While a loop runs that was not stopped they may call
everything: the server finds out.  It does not find out about a loop that was stopped and has
not returned, about a `Query` that is going on, or that it is stopped while it starts. -/
def Permits {Tid : Type} (b : Calls) (roles : Tid → Role) : Control → Prop
  | .start => b.Waited roles ∧ ∀ t, roles t ≠ .serves .query
  | .startAsync | .query =>
    b.Waited roles ∧ (∀ t, roles t ≠ .serves .query) ∧ ∀ t, ¬ (roles t).starting
  | .requestStop | .joinAsyncThread => ∀ t, ¬ (roles t).starting

variable {Tid : Type} {b : Calls} {roles : Tid → Role} {call : Option Control}

theorem unjoined_after (h : b.unjoined = true) (hcall : call ≠ some .joinAsyncThread) :
    (b.after call).unjoined = true := by
  rcases call with _ | _ | _ | _ | _ | _ <;> first | exact h | rfl | exact absurd rfl hcall

/-- What may be called while `StartAsync` is going on. -/
theorem permitted_starting (h : ∀ k, call = some k → b.Permits roles k)
    (hstarting : ∃ t, (roles t).starting) : call = none ∨ call = some .start := by
  obtain ⟨t, ht⟩ := hstarting
  rcases call with _ | _ | _ | _ | _ | _
  · exact .inl rfl
  · exact .inr rfl
  · exact absurd ht ((h _ rfl).2.2 t)
  · exact absurd ht ((h _ rfl).2.2 t)
  · exact absurd ht (h _ rfl t)
  · exact absurd ht (h _ rfl t)

end Calls

/-- A server and what its callers have called. -/
structure Supervised (Tid : Type) where
  server : Config Tid
  calls : Calls

namespace Supervised
variable {Tid : Type}

def roles (c : Supervised Tid) (t : Tid) : Role := (c.server.locals t).role

/-- **One step of the server or of a client**, when the calls are made in order. -/
inductive Step [DecidableEq Tid] : Supervised Tid → Tid × Label → Supervised Tid → Prop
  | mk {c : Supervised Tid} {t : Tid} {l : Label} {d : Config Tid}
      (hcall : ∀ k, (c.server.locals t).calls l = some k → c.calls.Permits c.roles k)
      (hstep : RemoteTrigger.Step Pool.free c.server (t, l) d) :
      Step c (t, l) ⟨d, c.calls.after ((c.server.locals t).calls l)⟩

/-- A new server; nobody has called it. -/
def initial (Tid : Type) (callback : Bool) : Supervised Tid :=
  ⟨RemoteTrigger.initial Tid callback, false, false⟩

end Supervised

/-! ## Turns -/

/-- The members that decide who may serve, and the threads. -/
structure Core where
  isRunning : Bool
  asyncThread : Option Nat
  threads : Nat → JThread

def Shared.core (s : Shared) : Core := ⟨s.isRunning, s.asyncThread, s.threads⟩

def Core.joins (core : Core) : Prop := ∀ n, core.asyncThread = some n → core.threads n = .ended

/-- **What a step does** to the roles and to who may serve. -/
inductive Turn : Core → Role → Option Control → Core → Role → Prop
  | stays {c : Core} {r : Role} : Turn c r none c r
  | startRunning {c : Core} : Turn c .client (some .start) c .client
  | queryRunning {c : Core} : Turn c .client (some .query) c .client
  | start {c : Core} (hstopped : c.isRunning = false) :
      Turn c .client (some .start) { c with isRunning := true } (.serves .start)
  | query {c : Core} (hstopped : c.isRunning = false) :
      Turn c .client (some .query) c (.serves .query)
  | asyncLoad {c : Core} : Turn c .client (some .startAsync) c .starts
  | asyncReturns {c : Core} : Turn c .starts none c .client
  | asyncCas {c : Core} (hstopped : c.isRunning = false) :
      Turn c .starts none { c with isRunning := true } .creates
  | asyncCreate {c : Core} {prelude : Bool} (n : Nat) (hnew : c.threads n = .none) :
      Turn c .creates none
        { c with threads := Function.update c.threads n (.created prelude) } (.assigns n)
  | asyncAssign {c : Core} {n : Nat} (hjoins : c.joins) :
      Turn c (.assigns n) none { c with asyncThread := some n } .checks
  | asyncStarted {c : Core} : Turn c .checks none c .client
  | asyncFailed {c : Core} (hjoined : c.asyncThread = none) : Turn c .checks none c .fails
  | asyncStop {c : Core} : Turn c .fails none { c with isRunning := false } .fails
  | asyncJoin {c : Core} : Turn c .fails none { c with asyncThread := none } .client
  | requestStop {c : Core} :
      Turn c .client (some .requestStop) { c with isRunning := false } .client
  | join {c : Core} (hjoins : c.joins) :
      Turn c .client (some .joinAsyncThread) { c with asyncThread := none } .client
  | began {c : Core} {prelude : Bool} (n : Nat) (hcreated : c.threads n = .created prelude) :
      Turn c .client none { c with threads := Function.update c.threads n .running }
        (.serves (.async n))
  | leaves {c c' : Core} {k : Server} (hasync : c'.asyncThread = c.asyncThread)
      (hthreads : ∀ n, c'.threads n = c.threads n ∨ k = .async n ∧ c'.threads n = .ended) :
      Turn c (.serves k) none c' .client

theorem leave_threads (k : Server) (s : Shared) (n : Nat) :
    (k.leave s).threads n = s.threads n ∨ k = .async n ∧ (k.leave s).threads n = .ended := by
  cases k with
  | async m =>
    by_cases hn : n = m
    · subst hn
      exact .inr ⟨rfl, Function.update_self ..⟩
    · exact .inl (Function.update_of_ne hn _ _)
  | _ => exact .inl rfl

theorem leave_asyncThread (k : Server) (s : Shared) :
    (k.leave s).asyncThread = s.asyncThread := by
  cases k <;> rfl

/-- A step of `Run` or `Query`, after which `Query` may have returned. -/
theorem Turn.goesOn {s : Shared} {k : Server} {pc : Pc}
    (h : pc.role = .serves k ∨ pc.role = .client ∧ k = .query) :
    Turn s.core (.serves k) none s.core pc.role := by
  rcases h with h | ⟨h, rfl⟩
  · exact h ▸ .stays
  · exact h ▸ .leaves rfl fun _ => .inl rfl

theorem role_afterWait (k : Server) (st : RealtimeStatus) :
    (k.afterWait st).role = .serves k ∨ (k.afterWait st).role = .client ∧ k = .query := by
  unfold Server.afterWait
  cases k <;> dsimp only <;> split_ifs <;> simp [Pc.role]

theorem role_withoutCallback (k : Server) :
    k.withoutCallback.role = .serves k ∨ k.withoutCallback.role = .client ∧ k = .query := by
  cases k <;> simp [Server.withoutCallback, Pc.role]

theorem role_afterPost (k : Server) (st : RealtimeStatus) :
    (k.afterPost st).role = .serves k ∨ (k.afterPost st).role = .client ∧ k = .query := by
  cases k with
  | query => exact .inr ⟨rfl, rfl⟩
  | _ =>
    unfold Server.afterPost
    dsimp only
    split_ifs <;> exact .inl rfl

theorem Atom.turn {s s' : Shared} {pc pc' : Pc} {l : Label} (h : Atom s pc l s' pc') :
    Turn s.core pc.role (pc.calls l) s'.core pc'.role := by
  cases h with
  | startRunning => exact .startRunning
  | start hstopped => exact .start hstopped
  | asyncLoad => split <;> exact .asyncLoad
  | asyncIncomplete => exact .asyncReturns
  | asyncRunning => exact .asyncReturns
  | asyncCas hstopped => exact .asyncCas hstopped
  | asyncCreate n hnew => exact .asyncCreate n hnew
  | asyncAssign hjoins => exact .asyncAssign hjoins
  | asyncStarted => exact .asyncStarted
  | asyncFailed hjoined => exact .asyncFailed hjoined
  | asyncStop => exact .asyncStop
  | asyncJoin => exact .asyncJoin
  | requestStop => exact .requestStop
  | join hjoins => exact .join hjoins
  | began n hcreated => split <;> exact .began n hcreated
  | leave => exact .leaves (leave_asyncThread _ _) (leave_threads _ _)
  | drop => exact .leaves (leave_asyncThread _ _) (leave_threads _ _)
  | stop => exact .leaves (leave_asyncThread _ _) (leave_threads _ { s with isRunning := false })
  | waited => exact .goesOn (role_afterWait _ _)
  | noCallback => exact .goesOn (role_withoutCallback _)
  | post => exact .goesOn (role_afterPost _ _)
  | queryRunning => exact .queryRunning
  | query hstopped => exact .query hstopped
  | clientPost => split <;> exact .stays
  | _ => exact .stays

/-- The thread has not ended, so that it may serve requests. -/
def JThread.alive : JThread → Prop
  | .created _ | .running => True
  | _ => False

section Turn
variable {c c' : Core} {r r' : Role} {call : Option Control} {n : Nat} {p : Bool}

theorem Turn.starting (h : Turn c r call c' r') (hr : r'.starting) :
    r.starting ∨ call = some .startAsync := by
  cases h <;> simp_all [Role.starting]

theorem Turn.querying (h : Turn c r call c' r') (hr : r' = .serves .query) :
    r = .serves .query ∨ call = some .query := by
  cases h <;> simp_all

/-- A thread enters when `is_running_` is false, or as the loop that was created. -/
theorem Turn.inside (h : Turn c r call c' r') (hr : r'.inside) :
    r.inside ∨
      (c.isRunning = false ∧ (call = some .start ∨ call = some .query ∨ r = .starts)) ∨
      ∃ n p, c.threads n = .created p ∧ c'.threads = Function.update c.threads n .running := by
  cases h with
  | began n hcreated => exact .inr (.inr ⟨n, _, hcreated, rfl⟩)
  | _ => simp_all [Role.inside]

theorem Turn.created (h : Turn c r call c' r') (hn : c'.threads n = .created p) :
    c.threads n = .created p ∨ r = .creates ∧ r' = .assigns n := by
  cases h with
  | asyncCreate m | began m =>
    by_cases hm : n = m <;> simp_all
  | leaves _ hthreads => rcases hthreads n with h | ⟨_, h⟩ <;> simp_all
  | _ => exact .inl hn

theorem Turn.alive (h : Turn c r call c' r') (hn : (c'.threads n).alive) :
    (c.threads n).alive ∨ r = .creates ∧ r' = .assigns n := by
  cases h with
  | asyncCreate m | began m =>
    by_cases hm : n = m <;> simp_all [JThread.alive]
  | leaves _ hthreads => rcases hthreads n with h | ⟨_, h⟩ <;> simp_all [JThread.alive]
  | _ => exact .inl hn

theorem Turn.running (h : Turn c r call c' r') (hn : c.threads n = .running) :
    c'.threads n = .running ∨ r = .serves (.async n) ∧ r' = .client := by
  cases h with
  | asyncCreate m | began m =>
    by_cases hm : n = m
    · simp_all
    · exact .inl ((Function.update_of_ne hm _ _).trans hn)
  | leaves _ hthreads => rcases hthreads n with h | ⟨_, h⟩ <;> simp_all
  | _ => exact .inl hn

theorem Turn.async (h : Turn c r call c' r') (hr : r' = .serves (.async n)) :
    r = .serves (.async n) ∨ c'.threads n = .running := by
  cases h <;> simp_all

theorem Turn.joins (h : Turn c r call c' r') :
    c'.asyncThread = c.asyncThread ∨ r = .fails ∨
      c.joins ∧ c'.threads = c.threads ∧
        (call = some .joinAsyncThread ∨ ∃ n, r = .assigns n ∧ c'.asyncThread = some n) := by
  cases h <;> simp_all

theorem Turn.joins_of_join (h : Turn c r (some .joinAsyncThread) c' r') : c.joins := by
  cases h
  assumption

theorem Turn.assigns (h : Turn c r call c' r') (hr : r = .assigns n) :
    r' = .assigns n ∨ c'.asyncThread = some n := by
  cases h <;> simp_all

theorem Turn.checks (h : Turn c r call c' r') (hr : r' = .checks) :
    r = .checks ∧ c' = c ∨ c'.asyncThread ≠ none := by
  cases h <;> simp_all

theorem Turn.fails (h : Turn c r call c' r') (hr : r' = .fails) :
    r = .fails ∨ r = .checks ∧ c.asyncThread = none := by
  cases h <;> simp_all

theorem Turn.loops (h : Turn c r call c' r') (hr : r'.loops) :
    r.loops ∨ c'.isRunning = true ∨ ∃ n p, c.threads n = .created p := by
  cases h with
  | began n hcreated => exact .inr (.inr ⟨n, _, hcreated⟩)
  | _ => simp_all [Role.loops]

theorem Turn.stops (h : Turn c r call c' r') (hrunning : c.isRunning = true) :
    c'.isRunning = true ∨ call = some .requestStop ∨ r = .fails ∨
      r.inside ∧ r' = .client := by
  cases h <;> simp_all [Role.inside]

end Turn

theorem Role.loops.inside {r : Role} (h : r.loops) : r.inside := by
  cases r <;> first | exact trivial | exact h.elim

/-! ## The invariant -/

section Orderly
variable {Tid : Type} {core core' : Core} {roles : Tid → Role} {b : Calls} {t : Tid} {r : Role}
  {call : Option Control}

/-- A loop is active, or will be. -/
def Looping (core : Core) (roles : Tid → Role) : Prop :=
  (∃ t, (roles t).loops) ∨ ∃ n p, core.threads n = .created p

/-- **The invariant.**  At most one thread is inside or has been created that will be, and
what was called tells about it: it was stopped if `is_running_` is false, and a thread of its
own has not been joined. -/
structure Orderly (core : Core) (roles : Tid → Role) (b : Calls) : Prop where
  unique : AtMostOne Role.inside roles
  created : ∀ n p, core.threads n = .created p → ∀ t, ¬ (roles t).inside
  single : ∀ m n p q, core.threads m = .created p → core.threads n = .created q → m = n
  calm : (∃ t, (roles t).starting) →
    b.stopRequested = false ∧ b.unjoined = true ∧ ∀ t, roles t ≠ .serves .query
  checks : ∀ t, roles t = .checks → core.asyncThread ≠ none
  succeeds : ∀ t, roles t ≠ .fails
  async : ∀ t n, roles t = .serves (.async n) → core.threads n = .running
  unjoined : ∀ n, (core.threads n).alive → b.unjoined = true
  assigned : ∀ n, (core.threads n).alive →
    core.asyncThread = some n ∨ ∃ t, roles t = .assigns n
  running : Looping core roles → core.isRunning = true ∨ b.stopRequested = true

namespace Orderly

/-- A loop that was stopped has returned when it has been waited for. -/
theorem not_looping (h : Orderly core roles b) (hwaited : b.Waited roles)
    (hstop : b.stopRequested = true) : ¬ Looping core roles := by
  obtain ⟨hstart, hjoined⟩ := hwaited hstop
  have halive : ∀ n, ¬ (core.threads n).alive := fun n hn => by
    simp [h.unjoined n hn] at hjoined
  rintro (⟨u, hu⟩ | ⟨n, p, hn⟩)
  · cases hr : roles u with
    | creates => simp [(h.calm ⟨u, by rw [hr]; trivial⟩).1] at hstop
    | serves k =>
      cases k with
      | start => exact hstart u hr
      | async n => exact halive n (by rw [h.async u n hr]; trivial)
      | query => simp [hr, Role.loops] at hu
    | _ => simp [hr, Role.loops] at hu
  · exact halive n (by rw [hn]; trivial)

/-- Nobody is inside when somebody enters. -/
theorem vacant (h : Orderly core roles b) (hstopped : core.isRunning = false)
    (hwaited : b.Waited roles) (hquery : ∀ t, roles t ≠ .serves .query) :
    (∀ t, ¬ (roles t).inside) ∧ ∀ n p, core.threads n ≠ .created p := by
  have hnot : ¬ Looping core roles := by
    intro hl
    rcases h.running hl with hrun | hstop
    · simp [hrun] at hstopped
    · exact h.not_looping hwaited hstop hl
  refine ⟨fun u hu => hnot (.inl ⟨u, ?_⟩), fun n p hn => hnot (.inr ⟨n, p, hn⟩)⟩
  cases hr : roles u with
  | serves k => exact fun hk => hquery u (hk ▸ hr)
  | _ => simp_all [Role.inside, Role.loops]

/-- `StartAsync` is called by one thread at a time, which makes sure of this. -/
theorem waited_starting (h : Orderly core roles b) (hstarting : ∃ t, (roles t).starting) :
    b.Waited roles := by
  intro hstop
  simp [(h.calm hstarting).1] at hstop

section Step
variable (h : Orderly core roles b) (hcall : ∀ k, call = some k → b.Permits roles k)
  (hturn : Turn core (roles t) call core' r)
include h hcall hturn

/-- A thread that enters is alone. -/
theorem enters (hr : r.inside) (hnot : ¬ (roles t).inside) :
    (∀ u, ¬ (roles u).inside) ∧ ∀ n p, core'.threads n ≠ .created p := by
  rcases hturn.inside hr with hin | ⟨hstopped, hentry⟩ | ⟨n, p, hn, hthreads⟩
  · exact absurd hin hnot
  · have hvacant : (∀ u, ¬ (roles u).inside) ∧ ∀ n p, core.threads n ≠ .created p := by
      rcases hentry with rfl | rfl | hstarts
      · exact h.vacant hstopped (hcall _ rfl).1 (hcall _ rfl).2
      · exact h.vacant hstopped (hcall _ rfl).1 (hcall _ rfl).2.1
      · have hstarting : ∃ t, (roles t).starting := ⟨t, by rw [hstarts]; trivial⟩
        exact h.vacant hstopped (h.waited_starting hstarting) (h.calm hstarting).2.2
    refine ⟨hvacant.1, fun n p hn => ?_⟩
    rcases hturn.created hn with hn | ⟨_, rfl⟩
    · exact hvacant.2 n p hn
    · exact hr
  · refine ⟨h.created n p hn, fun m q hm => ?_⟩
    rw [hthreads] at hm
    by_cases hmn : m = n
    · subst hmn
      simp at hm
    · rw [Function.update_of_ne hmn] at hm
      exact hmn (h.single m n q p hm hn)

omit hcall in
theorem single_step (m n : Nat) (p q : Bool) (hm : core'.threads m = .created p)
    (hn : core'.threads n = .created q) : m = n := by
  have hnone : ∀ k p, core.threads k = .created p → roles t ≠ .creates :=
    fun k p hk hr => h.created k p hk t (by rw [hr]; trivial)
  rcases hturn.created hm with hm | ⟨hr, hm⟩ <;> rcases hturn.created hn with hn | ⟨hr', hn⟩
  · exact h.single m n p q hm hn
  · exact absurd hr' (hnone m p hm)
  · exact absurd hr (hnone n q hn)
  · exact Role.assigns.inj (hm.symm.trans hn)

omit hcall hturn in
/-- A thread that can be joined has ended. -/
theorem not_joins {n : Nat} (hn : (core.threads n).alive) (hnone : ∀ t, roles t ≠ .assigns n) :
    ¬ core.joins := by
  intro hjoins
  rcases h.assigned n hn with hsome | ⟨u, hu⟩
  · rw [hjoins n hsome] at hn
    exact hn
  · exact hnone u hu

theorem unjoined_step (n : Nat) (hn : (core'.threads n).alive) :
    (b.after call).unjoined = true := by
  by_cases hjoin : call = some .joinAsyncThread
  · -- `StartAsync` is not going on, so that this thread is the one that was joined
    have hnone := hcall _ hjoin
    rcases hturn.alive hn with hold | ⟨hcreates, _⟩
    · refine absurd ?_ (h.not_joins hold fun u hu => hnone u (by rw [hu]; trivial))
      subst hjoin
      exact hturn.joins_of_join
    · exact absurd (by rw [hcreates]; trivial) (hnone t)
  · refine Calls.unjoined_after ?_ hjoin
    rcases hturn.alive hn with hold | ⟨hcreates, _⟩
    · exact h.unjoined n hold
    · exact (h.calm ⟨t, by rw [hcreates]; trivial⟩).2.1

variable [DecidableEq Tid]

theorem unique_step : AtMostOne Role.inside (Function.update roles t r) := by
  by_cases hnew : r.inside → (roles t).inside
  · exact h.unique.update hnew
  · rw [Classical.not_imp] at hnew
    exact AtMostOne.enter (h.enters hcall hturn hnew.1 hnew.2).1

theorem created_step (n : Nat) (p : Bool) (hn : core'.threads n = .created p) :
    ∀ u, ¬ (Function.update roles t r u).inside := by
  rcases hturn.created hn with hold | ⟨hcreates, rfl⟩
  · have hnone := h.created n p hold
    refine forall_update (fun r : Role => ¬ r.inside) (fun hr => ?_) fun u _ => hnone u
    exact (h.enters hcall hturn hr (hnone t)).2 n p hn
  · refine forall_update (fun r : Role => ¬ r.inside) id fun u hut hu => ?_
    exact hut (h.unique u t hu (by rw [hcreates]; trivial))

omit h hcall in
/-- A loop after the step was one before it, unless `is_running_` has just been set. -/
theorem looping_step (hl : Looping core' (Function.update roles t r)) :
    Looping core roles ∨ core'.isRunning = true := by
  rcases hl with ⟨u, hu⟩ | ⟨n, p, hn⟩
  · rcases of_update hu with ⟨rfl, hr⟩ | ⟨_, hu⟩
    · rcases hturn.loops hr with hr | hrun | hn
      · exact .inl (.inl ⟨u, hr⟩)
      · exact .inr hrun
      · exact .inl (.inr hn)
    · exact .inl (.inl ⟨u, hu⟩)
  · rcases hturn.created hn with hn | ⟨hr, _⟩
    · exact .inl (.inr ⟨n, p, hn⟩)
    · exact .inl (.inl ⟨t, by rw [hr]; trivial⟩)

theorem running_step (hl : Looping core' (Function.update roles t r)) :
    core'.isRunning = true ∨ (b.after call).stopRequested = true := by
  rcases looping_step hturn hl with hold | hrun
  · rcases h.running hold with hrun | hstop
    · rcases hturn.stops hrun with hrun | rfl | hfails | ⟨hin, rfl⟩
      · exact .inl hrun
      · exact .inr rfl
      · exact absurd hfails (h.succeeds t)
      · -- the loop that returns was the only one
        rcases hl with ⟨u, hu⟩ | ⟨n, p, hn⟩
        · rcases of_update hu with ⟨_, hr⟩ | ⟨hut, hu⟩
          · exact hr.elim
          · exact absurd (h.unique u t hu.inside hin) hut
        · rcases hturn.created hn with hn | ⟨_, hr⟩
          · exact absurd hin (h.created n p hn t)
          · cases hr
    · -- whoever calls `Start` or `StartAsync` now has waited for the loop
      have hwaited : ∀ k, call = some k → ¬ b.Waited roles :=
        fun _ _ hw => h.not_looping hw hstop hold
      rcases call with _ | _ | _ | _ | _ | _
      · exact .inr hstop
      · exact absurd (hcall _ rfl).1 (hwaited _ rfl)
      · exact absurd (hcall _ rfl).1 (hwaited _ rfl)
      · exact .inr hstop
      · exact .inr rfl
      · exact .inr hstop
  · exact .inl hrun

theorem calm_step (hstarting : ∃ u, (Function.update roles t r u).starting) :
    (b.after call).stopRequested = false ∧ (b.after call).unjoined = true ∧
      ∀ u, Function.update roles t r u ≠ .serves .query := by
  have hquery : (∀ u, roles u ≠ .serves .query) → call ≠ some .query →
      ∀ u, Function.update roles t r u ≠ .serves .query := by
    intro hnone hcall
    refine forall_update (fun r : Role => r ≠ .serves .query) (fun hr => ?_) fun u _ => hnone u
    exact (hturn.querying hr).elim (hnone t) hcall
  by_cases hcalled : call = some .startAsync
  · subst hcalled
    exact ⟨rfl, rfl, hquery (hcall _ rfl).2.1 nofun⟩
  · -- `StartAsync` was going on before
    have hbefore : ∃ u, (roles u).starting := by
      obtain ⟨u, hu⟩ := hstarting
      rcases of_update hu with ⟨rfl, hr⟩ | ⟨_, hu⟩
      · exact ⟨u, (hturn.starting hr).resolve_right hcalled⟩
      · exact ⟨u, hu⟩
    obtain ⟨hstop, hjoin, hnone⟩ := h.calm hbefore
    rcases Calls.permitted_starting hcall hbefore with rfl | rfl
    · exact ⟨hstop, hjoin, hquery hnone nofun⟩
    · exact ⟨rfl, hjoin, hquery hnone nofun⟩

theorem checks_step (u : Tid) (hu : Function.update roles t r u = .checks) :
    core'.asyncThread ≠ none := by
  rcases of_update (P := (· = Role.checks)) hu with ⟨rfl, hr⟩ | ⟨_, hu⟩
  · rcases hturn.checks hr with ⟨hr, rfl⟩ | hsome
    · exact h.checks u hr
    · exact hsome
  · have hstarting : ∃ t, (roles t).starting := ⟨u, by rw [hu]; trivial⟩
    rcases hturn.joins with hsame | hfails | ⟨_, _, hjoin | ⟨n, _, hn⟩⟩
    · exact hsame ▸ h.checks u hu
    · exact absurd hfails (h.succeeds t)
    · rcases Calls.permitted_starting hcall hstarting with hnone | hnone <;> simp [hjoin] at hnone
    · simp [hn]

omit hcall in
theorem succeeds_step (u : Tid) : Function.update roles t r u ≠ .fails := by
  refine forall_update (fun r : Role => r ≠ .fails) (fun hr => ?_) (fun u _ => h.succeeds u) u
  rcases hturn.fails hr with hfails | ⟨hchecks, hnone⟩
  · exact h.succeeds t hfails
  · exact h.checks t hchecks hnone

omit hcall in
theorem async_step (u : Tid) (n : Nat)
    (hu : Function.update roles t r u = .serves (.async n)) : core'.threads n = .running := by
  rcases of_update (P := (· = Role.serves (.async n))) hu with ⟨rfl, hr⟩ | ⟨hut, hu⟩
  · rcases hturn.async hr with hold | hrun
    · rcases hturn.running (h.async u n hold) with hrun | ⟨_, hclient⟩
      · exact hrun
      · cases hclient.symm.trans hr
    · exact hrun
  · rcases hturn.running (h.async u n hu) with hrun | ⟨hr, _⟩
    · exact hrun
    · exact absurd (h.unique u t (by rw [hu]; trivial) (by rw [hr]; trivial)) hut

omit hcall in
theorem assigned_step (n : Nat) (hn : (core'.threads n).alive) :
    core'.asyncThread = some n ∨ ∃ u, Function.update roles t r u = .assigns n := by
  rcases hturn.alive hn with hold | ⟨_, rfl⟩
  · rcases h.assigned n hold with hsome | ⟨u, hu⟩
    · rcases hturn.joins with hsame | hfails | ⟨hjoins, _⟩
      · exact .inl (hsame.trans hsome)
      · exact absurd hfails (h.succeeds t)
      · rw [hjoins n hsome] at hold
        exact hold.elim
    · by_cases hut : u = t
      · subst hut
        rcases hturn.assigns hu with hr | hsome
        · exact .inr ⟨u, by rw [Function.update_self, hr]⟩
        · exact .inl hsome
      · exact .inr ⟨u, by rw [Function.update_of_ne hut, hu]⟩
  · exact .inr ⟨t, Function.update_self ..⟩

theorem step : Orderly core' (Function.update roles t r) (b.after call) where
  unique := h.unique_step hcall hturn
  created := h.created_step hcall hturn
  single := h.single_step hturn
  calm := h.calm_step hcall hturn
  checks := h.checks_step hcall hturn
  succeeds := h.succeeds_step hturn
  async := h.async_step hturn
  unjoined := h.unjoined_step hcall hturn
  assigned := h.assigned_step hturn
  running := h.running_step hcall hturn

end Step

end Orderly
end Orderly

section Callbacks
variable {Tid : Type} [DecidableEq Tid] {w : List (Tid × Label)} {c d : Supervised Tid}
  {x : Tid × Label} {callback : Bool}

def Supervised.Inv (c : Supervised Tid) : Prop := Orderly c.server.shared.core c.roles c.calls

omit [DecidableEq Tid] in
theorem Supervised.inv_initial (callback : Bool) : (initial Tid callback).Inv where
  unique := fun _ _ h => h.elim
  created := fun _ _ h => by cases h
  single := fun _ _ _ _ h => by cases h
  calm := fun ⟨_, h⟩ => h.elim
  checks := fun _ h => by cases h
  succeeds := fun _ h => by cases h
  async := fun _ _ h => by cases h
  unjoined := fun _ h => h.elim
  assigned := fun _ h => h.elim
  running := fun h => by
    rcases h with ⟨_, h⟩ | ⟨_, _, h⟩
    · exact h.elim
    · cases h

theorem Supervised.Inv.step (h : c.Inv) (hs : Supervised.Step c x d) : d.Inv := by
  cases hs with
  | @mk t l _ hcall hstep =>
    cases hstep with
    | @mk _ _ s' pc' _ hatom =>
      have hroles : Supervised.roles ⟨⟨s', Function.update c.server.locals t pc'⟩,
          c.calls.after ((c.server.locals t).calls l)⟩ = Function.update c.roles t pc'.role :=
        Function.comp_update Pc.role c.server.locals t pc'
      rw [Inv, hroles]
      exact Orderly.step h hcall hatom.turn

theorem Pc.inCallback.inside {pc : Pc} (h : pc.inCallback) : pc.role.inside := by
  cases pc <;> first | exact trivial | exact h.elim

theorem Pc.inRun.inside {pc : Pc} (h : pc.inRun) : pc.role.inside := by
  cases pc <;> first | exact trivial | exact h.elim

/-- **Callbacks are executed one at a time**, and at most one `Run` is active, in every run in
which the calls are made in order: nobody calls `Start`, `StartAsync` or `Query` between
`RequestStop` and the return of the loop that it stops, or while a `Query` is going on, and
nothing but `Start` is called while `StartAsync` is.  While a thread is in the callback, no
other one is past `Start`'s exchange or `Query`'s load. -/
theorem callbacks_exclusive (h : Run Supervised.Step (.initial Tid callback) w c) :
    AtMostOne Pc.inCallback c.server.locals ∧ AtMostOne Pc.inRun c.server.locals ∧
      ∀ t u, (c.server.locals t).inCallback → u ≠ t → ¬ (c.server.locals u).role.inside := by
  have hinv : c.Inv :=
    h.stateInvariant (Supervised.inv_initial callback) fun _ _ _ hi hs => hi.step hs
  refine ⟨fun t u ht hu => ?_, fun t u ht hu => ?_, fun t u ht hut hu => ?_⟩
  · exact hinv.unique t u ht.inside hu.inside
  · exact hinv.unique t u ht.inside hu.inside
  · exact hut (hinv.unique u t hu ht.inside)

end Callbacks

/-- `StartAsync` returns, and its loop begins. -/
def startingAsync : List (Bool × Label) :=
  [(false, .internal), (false, .internal), (false, .asyncCas true), (false, .internal),
    (false, .internal), (false, .startedAsync okStatus), (true, .began 0)]

/-- The loop refuses a `Query` and serves a request; it is stopped in the callback, and
joined. -/
def loopJoined : List (Bool × Label) :=
  [(false, .query false), (false, .posted rtOkStatus), (false, .gaveUp), (true, .internal),
    (true, .waited rtOkStatus), (true, .internal), (true, .callback), (false, .requestStop),
    (true, .returned), (true, .responded rtOkStatus), (true, .internal), (false, .join)]

/-- `Query` serves the next request. -/
def queried : List (Bool × Label) :=
  [(false, .posted rtOkStatus), (false, .gaveUp), (false, .query true),
    (false, .waited rtOkStatus), (false, .callback)]

/-- The server while the loop runs. -/
def looping : Shared where
  isRunning := true
  callback := true
  requestFutex := .make false
  responseFutex := .make false
  asyncThread := some 0
  threads := Function.update (Function.update (fun _ => .none) 0 (.created false)) 0 .running

/-- The server after the loop has been joined. -/
def joined : Shared where
  isRunning := false
  callback := true
  requestFutex := .make false
  responseFutex := .posted
  asyncThread := none
  threads := Function.update looping.threads 0 .ended

section Two
variable {s s' : Shared} {x x' y : Pc} {l : Label} {b : Calls}

theorem Supervised.Step.first
    (hcall : ∀ k, x.calls l = some k → b.Permits (roles ⟨Pool.two s x y, b⟩) k)
    (h : Atom s x l s' x') :
    Step ⟨Pool.two s x y, b⟩ (false, l) ⟨Pool.two s' x' y, b.after (x.calls l)⟩ :=
  .mk hcall (Pool.Step.first trivial h)

theorem Supervised.Step.second
    (hcall : ∀ k, x.calls l = some k → b.Permits (roles ⟨Pool.two s y x, b⟩) k)
    (h : Atom s x l s' x') :
    Step ⟨Pool.two s y x, b⟩ (true, l) ⟨Pool.two s' y x', b.after (x.calls l)⟩ :=
  .mk hcall (Pool.Step.second trivial h)

/-- Everything may be called when `StartAsync` and `Query` are not going on, and nothing that
was stopped has to be waited for. -/
theorem permits_two (hb : b.stopRequested = true →
      b.unjoined = false ∧ x.role ≠ .serves .start ∧ y.role ≠ .serves .start)
    (hx : ¬ x.role.starting ∧ x.role ≠ .serves .query)
    (hy : ¬ y.role.starting ∧ y.role ≠ .serves .query) (k : Control) :
    b.Permits (Supervised.roles ⟨Pool.two s x y, b⟩) k := by
  have hwaited : b.Waited (Supervised.roles ⟨Pool.two s x y, b⟩) :=
    fun h => ⟨Bool.forall_bool.mpr (hb h).2, (hb h).1⟩
  cases k with
  | start => exact ⟨hwaited, Bool.forall_bool.mpr ⟨hx.2, hy.2⟩⟩
  | startAsync | query =>
    exact ⟨hwaited, Bool.forall_bool.mpr ⟨hx.2, hy.2⟩, Bool.forall_bool.mpr ⟨hx.1, hy.1⟩⟩
  | _ => exact Bool.forall_bool.mpr ⟨hx.1, hy.1⟩

end Two

/-- While `Query` is in the callback, the thread of the loop is not inside. -/
theorem callbacks_exclusive_joined : ∃ c : Supervised Bool,
    Run Supervised.Step (.initial Bool true) (startingAsync ++ loopJoined ++ queried) c ∧
      (c.server.locals false).inCallback ∧ ¬ (c.server.locals true).role.inside := by
  have hstart : Run Supervised.Step (.initial Bool true) startingAsync
      ⟨Pool.two looping .idle (.load (.async 0)), false, true⟩ := by
    rw [Supervised.initial, Pool.eq_two (initial Bool true)]
    refine .cons (.first (fun k _ => permits_two (by nofun) ⟨id, by nofun⟩ ⟨id, by nofun⟩ k)
      (.asyncLoad false)) ?_
    refine .cons (.first nofun (.asyncJoinable rfl)) ?_
    refine .cons (.first nofun (.asyncCas rfl)) ?_
    refine .cons (.first nofun (.asyncCreate 0 rfl)) ?_
    refine .cons (.first nofun (.asyncAssign nofun)) ?_
    refine .cons (.first nofun (.asyncStarted nofun)) ?_
    exact .single (.second nofun (@Atom.began _ false 0 rfl))
  have hloop : Run Supervised.Step ⟨Pool.two looping .idle (.load (.async 0)), false, true⟩
      loopJoined ⟨Pool.two joined .idle .idle, true, false⟩ := by
    refine .cons (.first (fun k _ => permits_two (by nofun) ⟨id, by nofun⟩ ⟨id, by nofun⟩ k)
      (.queryRunning rfl)) ?_
    refine .cons (.first nofun .clientPost) ?_
    refine .cons (.first nofun .clientGaveUp) ?_
    refine .cons (.second nofun (.goOn rfl)) ?_
    refine .cons (.second nofun (.waited .taken)) ?_
    refine .cons (.second nofun (.recheck rfl)) ?_
    refine .cons (.second nofun (.callback rfl)) ?_
    refine .cons (.first (fun | _, rfl => Bool.forall_bool.mpr ⟨id, id⟩) .requestStop) ?_
    refine .cons (.second nofun .returned) ?_
    refine .cons (.second nofun .post) ?_
    refine .cons (.second nofun (.leave rfl)) ?_
    refine .single (.first (fun | _, rfl => Bool.forall_bool.mpr ⟨id, id⟩) (.join ?_))
    rintro _ ⟨⟩
    rfl
  have hquery : Run Supervised.Step ⟨Pool.two joined .idle .idle, true, false⟩ queried
      ⟨Pool.two joined (.callback .query) .idle, true, false⟩ := by
    refine .cons (.first nofun .clientPost) ?_
    refine .cons (.first nofun .clientGaveUp) ?_
    refine .cons (.first (fun k _ => permits_two (fun _ => ⟨rfl, by nofun, by nofun⟩)
      ⟨id, by nofun⟩ ⟨id, by nofun⟩ k) (.query rfl)) ?_
    refine .cons (.first nofun (.waited .taken)) ?_
    exact .single (.first nofun (.callback rfl))
  have hrun := (hstart.append hloop).append hquery
  exact ⟨_, hrun, trivial, (callbacks_exclusive hrun).2.2 false true trivial nofun⟩

/-! ## A loop that is stopped in its callback -/

/-- A request is served by the loop of `Start`. -/
def serving : List (Bool × Label) :=
  [(false, .posted rtOkStatus), (false, .gaveUp), (true, .start true), (true, .internal),
    (true, .waited rtOkStatus), (true, .internal), (true, .callback)]

/-- `RequestStop` comes while the callback is executed, and then another request, which
`Query` serves. -/
def querying : List (Bool × Label) :=
  [(false, .requestStop), (false, .posted rtOkStatus), (false, .gaveUp), (false, .query true),
    (false, .waited rtOkStatus), (false, .callback)]

/-- **Two threads execute the callback**: the loop that was stopped, and `Query`. -/
theorem callbacks_overlap : ∃ c : Config Bool,
    Run (Step Pool.free) (initial Bool true) (serving ++ querying) c ∧
      (c.locals true).inCallback ∧ (c.locals false).inCallback := by
  rw [Pool.eq_two (initial Bool true)]
  exact ⟨_,
    .cons (.first trivial .clientPost) <|
    .cons (.first trivial .clientGaveUp) <|
    .cons (.second trivial (.start rfl)) <|
    .cons (.second trivial (.goOn rfl)) <|
    .cons (.second trivial (.waited .taken)) <|
    .cons (.second trivial (.recheck rfl)) <|
    .cons (.second trivial (.callback rfl)) <|
    .cons (.first trivial .requestStop) <|
    .cons (.first trivial .clientPost) <|
    .cons (.first trivial .clientGaveUp) <|
    .cons (.first trivial (.query rfl)) <|
    .cons (.first trivial (.waited .taken)) <|
    .single (.first trivial (.callback rfl)), trivial, trivial⟩

end Intrinsic.RemoteTrigger
