import IconSharedMemory.FutexCalls
import IconSharedMemory.TriggerRounds

/-! # The trigger server down to the system calls

`TriggerRounds.lean` follows the one token of a round through two futexes whose operations are
single steps.  Here the server and its client run over the code of the two futexes: the server
sleeps in the kernel until a request is posted, the client until the response is, and other
threads move between any two of those steps.

The token of a round is enough to see that the two never sleep at the same time.  Nobody who
sleeps has the token, so when everybody is between two calls or asleep it lies in a futex; the
futex has no sleeper then (`FutexCode.nobody_sleeps`), so it is not the one the client sleeps on,
and the server does not sleep on the other (`request_is_not_slept_over`).  This needs that
nobody stops the server: a server that is stopped after it has taken the token drops it, and the
client waits for ever.
-/
namespace Intrinsic.RemoteTrigger
open Runs AtomicObjects

/-! ## A server that is not stopped keeps the token -/

section Alive
variable {s s' : Shared} {pc pc' : Pc} {l : Label}

/-- The thread is between the loop's load of `is_running_` and its second load. -/
def Pc.loops : Pc → Prop
  | .wait k => k ≠ .query
  | .recheck _ => True
  | _ => False

theorem afterWait_loops {k : Server} {st : RealtimeStatus} (h : (k.afterWait st).loops) :
    (Pc.wait k).loops := by
  rintro rfl
  simp only [Server.afterWait] at h
  split at h <;> exact h

theorem not_loops_withoutCallback (k : Server) : ¬ k.withoutCallback.loops := by
  cases k <;> exact id

theorem not_loops_afterPost (k : Server) (st : RealtimeStatus) : ¬ (k.afterPost st).loops := by
  unfold Server.afterPost
  split
  · exact id
  · split <;> exact id

/-- Only a stop resets `is_running_`, and `callback_` never changes. -/
theorem Atom.running (h : Atom s pc l s' pc') (hl : l ≠ .requestStop) :
    (s.isRunning = true → s'.isRunning = true) ∧ s'.callback = s.callback ∧
      (pc'.loops → pc.loops ∨ s'.isRunning = true) := by
  cases h with
  | asyncStop | requestStop | stop => exact absurd rfl hl
  | start | asyncCas => exact ⟨fun _ => rfl, rfl, fun _ => .inr rfl⟩
  | goOn hrunning => exact ⟨id, rfl, fun _ => .inr hrunning⟩
  | asyncLoad => exact ⟨id, rfl, fun h => by split at h <;> exact h.elim⟩
  | began => exact ⟨id, rfl, fun h => by split at h <;> exact h.elim⟩
  | @leave k => exact ⟨fun h => by simpa using h, by cases k <;> rfl, False.elim⟩
  | @drop k => exact ⟨fun h => by simpa using h, by cases k <;> rfl, False.elim⟩
  | waited => exact ⟨id, rfl, fun h => .inl (afterWait_loops h)⟩
  | noCallback => exact ⟨id, rfl, fun h => absurd h (not_loops_withoutCallback _)⟩
  | post => exact ⟨id, rfl, fun h => absurd h (not_loops_afterPost _ _)⟩
  | query => exact ⟨id, rfl, fun h => absurd rfl h⟩
  | clientPost => exact ⟨id, rfl, fun h => by split at h <;> exact h.elim⟩
  | _ => exact ⟨id, rfl, False.elim⟩

/-- **A server that runs serves the request it has taken.** -/
theorem Atom.serves (h : Atom s pc l s' pc') (hloops : pc.loops → s.isRunning = true)
    (hcallback : s.callback = true) (hduty : pc.duty = .taken) : pc'.duty ≠ .none := by
  cases h with
  | recheck | callback => nofun
  | drop hstopped => cases (hloops trivial).symm.trans hstopped
  | noCallback hnull => cases hcallback.symm.trans hnull
  | _ => cases hduty

variable {Tid : Type} [DecidableEq Tid] {ok : Config Tid → Tid → Label → Prop}
  {w : List (Tid × Label)} {c d : Config Tid} {client : Tid}

/-- **The contract of a server that is not stopped**: one client, and no `RequestStop`. -/
def Unstopped (client t : Tid) (l : Label) : Prop := OneClient client t l ∧ l ≠ .requestStop

/-- **The invariant.**  While the client waits, the token of its round is somewhere. -/
structure Alive (client : Tid) (c : Config Tid) : Prop where
  callback : c.shared.callback = true
  loops : ∀ t, (c.locals t).loops → c.shared.isRunning = true
  token : c.locals client = .awaiting → c.shared.requestFutex = .posted ∨
    c.shared.responseFutex = .posted ∨ ∃ t, (c.locals t).duty ≠ .none

theorem Alive.step {g : Stage} {x : Tid × Label} (h : Alive client c) (hfits : Fits client c g)
    (hs : Step (fun _ => Unstopped client) c x d) : Alive client d := by
  have hrequest : c.shared.requestFutex ≠ .closed := by
    rw [hfits.request]
    cases g <;> exact nofun
  have hresponse : c.shared.responseFutex ≠ .closed := by
    rw [hfits.response]
    cases g <;> exact nofun
  cases hs with
  | @mk t l s' pc' hpromise hatom =>
    obtain ⟨hone, hstop⟩ := hpromise
    obtain ⟨hrunning, hcallback, hloops⟩ := hatom.running hstop
    refine ⟨hcallback.trans h.callback, ?_, ?_⟩
    · refine forall_update (fun pc : Pc => pc.loops → s'.isRunning = true) ?_ ?_
      · exact fun hpc' => (hloops hpc').elim (fun hpc => hrunning (h.loops t hpc)) id
      · exact fun u _ hu => hrunning (h.loops u hu)
    · intro hawaiting
      -- the thread that moves has a duty afterwards
      have hmoves : pc'.duty ≠ .none → ∃ u, (Function.update c.locals t pc' u).duty ≠ .none :=
        fun hduty => ⟨t, by rwa [Function.update_self]⟩
      cases hatom.advance hrequest hresponse with
      | keep _ hreq hres hduty hwaits =>
        have hbefore : c.locals client = .awaiting := by
          dsimp only at hawaiting
          by_cases hclient : client = t
          · subst hclient
            rw [Function.update_self] at hawaiting
            exact hwaits.mp hawaiting
          · rwa [Function.update_of_ne hclient] at hawaiting
        refine (h.token hbefore).imp hreq.trans (Or.imp hres.trans ?_)
        rintro ⟨u, hu⟩
        by_cases hut : u = t
        · subst hut
          exact hmoves (hduty ▸ hu)
        · exact ⟨u, by dsimp only; rwa [Function.update_of_ne hut]⟩
      | ask hreq _ _ _ => exact .inl hreq
      | take _ _ _ _ _ hduty' _ => exact .inr (.inr (hmoves (hduty' ▸ nofun)))
      | drop _ _ _ hduty hduty' _ =>
        exact absurd hduty' (hatom.serves (h.loops t) h.callback hduty)
      | call _ _ _ hduty' => exact .inr (.inr (hmoves (hduty' ▸ nofun)))
      | ret _ _ _ hduty' => exact .inr (.inr (hmoves (hduty' ▸ nofun)))
      | answer _ _ hres _ _ _ => exact .inr (.inl hres)
      | receive _ _ _ hpc hpc' =>
        obtain ⟨rfl, -⟩ := (hfits.waits t).mp hpc
        dsimp only at hawaiting
        rw [Function.update_self, hpc'] at hawaiting
        cases hawaiting
      | giveUp => exact hone.elim

theorem alive_run (h : Run (Step fun _ => Unstopped client) (initial Tid true) w c) :
    ∃ g, Fits client c g ∧ Run Round.Step .quiet (events w) g.round ∧ Alive client c := by
  have hone : ∀ (_ : Config Tid) t l, Unstopped client t l → OneClient client t l :=
    fun _ _ _ hl => hl.1
  have halive : Alive client c := by
    have hall := h.invariant (I := fun w c =>
      Run (Step fun _ => Unstopped client) (initial Tid true) w c ∧ Alive client c)
      ⟨.nil, rfl, fun _ hl => hl.elim, nofun⟩ ?_
    · exact hall.2
    · rintro w c x d ⟨hrun, halive⟩ hs
      obtain ⟨g, hfits, -⟩ := simulates_rounds hone hrun
      exact ⟨hrun.snoc hs, halive.step hfits hs⟩
  obtain ⟨g, hfits, hrounds⟩ := simulates_rounds hone h
  exact ⟨g, hfits, hrounds, halive⟩

end Alive

/-! ## The program -/

/-- The members of a server other than its futexes. -/
structure Members where
  isRunning : Bool
  callback : Bool
  asyncThread : Option Nat
  threads : Nat → JThread

/-- The futexes that a server shares with its clients. -/
inductive Futex
  | request | response
  deriving DecidableEq, Repr

/-- A server over these futexes. -/
def Members.with (m : Members) (request response : BinaryFutex) : Shared :=
  ⟨m.isRunning, m.callback, request, response, m.asyncThread, m.threads⟩

/-- The places where a futex is called. -/
inductive Call
  | serverWait (k : Server)
  | serverPost (k : Server)
  | clientPost
  | clientWait
  deriving DecidableEq, Repr

namespace Call

/-- Where the thread makes the call. -/
def pc : Call → Pc
  | .serverWait k => .wait k
  | .serverPost k => .post k
  | .clientPost => .idle
  | .clientWait => .awaiting

def futex : Call → Futex
  | .serverWait _ | .clientPost => .request
  | .serverPost _ | .clientWait => .response

def op : Call → FutexCode.Op
  | .serverWait _ | .clientWait => .wait
  | .serverPost _ | .clientPost => .post

/-- Where the thread goes on when the call has returned the status. -/
def next (st : RealtimeStatus) : Call → Pc
  | .serverWait k => k.afterWait st
  | .serverPost k => k.afterPost st
  | .clientPost => if st.isOk then .awaiting else .idle
  | .clientWait => .idle

def label (st : RealtimeStatus) : Call → Label
  | .serverWait _ => .waited st
  | .serverPost _ => .responded st
  | .clientPost => .posted st
  | .clientWait => if st.isOk then .received else .gaveUp

end Call

/-- No futex takes part in the step. -/
def Label.own : Label → Bool
  | .waited _ | .responded _ | .posted _ | .received | .gaveUp => false
  | _ => true

/-- **The server and its clients as a program over two futexes.** -/
def program : Program Members Pc Futex FutexCode.Op FutexCode.Outcome Call Label where
  own m pc l m' pc' := l.own = true ∧ ∀ a b, Atom (m.with a b) pc l (m'.with a b) pc'
  calls pc k := pc = k.pc
  object := Call.futex
  op := Call.op
  resume k r _ := k.next r.status
  label k r := k.label r.status

/-- A server over the code of its futexes, and its threads. -/
abbrev CodeConfig (Tid : Type) :=
  CodePool Tid Members Pc Futex Call (FutexCode.Shared Tid) FutexCode.Pc

/-- The steps of the server, its clients and the futexes. -/
abbrev CodeEvent := AtomicObjects.Event Label Call FutexCode.Access

/-- A new server, with its futexes as they are allocated. -/
def codeInitial (Tid : Type) (callback : Bool) : CodeConfig Tid where
  shared := (⟨false, callback, none, fun _ => .none⟩,
    fun _ => ⟨FutexCode.word (.make false), []⟩)
  locals := fun _ => ⟨.idle, none⟩

section Code
variable {Tid : Type} [DecidableEq Tid]

/-- What is promised about the steps, calls of a futex counting when they are decided. -/
def Promised (ok : Tid → Label → Prop) (_ : CodeConfig Tid) (t : Tid) (x : CodeEvent) : Prop :=
  ∀ l, (FutexCode.linearization Tid).shows program x = some l → ok t l

/-- **One step of the server, of a client or of a futex.** -/
abbrev CodeStep (ok : Tid → Label → Prop) :
    CodeConfig Tid → Tid × CodeEvent → CodeConfig Tid → Prop :=
  program.Step (FutexCode.implementation Tid) (Promised ok)

/-- What is seen of a step over one-step futexes. -/
def shown (x : Tid × CodeEvent) : Option (Tid × Label) :=
  (FutexCode.linearization Tid).shown program x

/-- The thread over one-step futexes. -/
def place (Tid : Type) [DecidableEq Tid] (f : Frame Pc Call FutexCode.Pc) : Pc :=
  (FutexCode.linearization Tid).place program f

end Code

/-! ## Over one-step futexes it is the server of before -/

/-- The members of a server, put together. -/
def join (x : Members × (Futex → BinaryFutex)) : Shared := x.1.with (x.2 .request) (x.2 .response)

theorem program_atom {x y : Members × (Futex → BinaryFutex)} {pc pc' : Pc} {l : Label}
    (h : program.Atom FutexCode.spec x pc l y pc') : Atom (join x) pc l (join y) pc' := by
  cases h with
  | own h => exact h.2 _ _
  | @call m objs _ k f r hk h =>
    obtain rfl : pc = k.pc := hk
    show Atom _ k.pc (k.label r.status) _ (k.next r.status)
    cases k with
    | serverWait k =>
      obtain ⟨st, rfl, hwait⟩ := h
      exact .waited hwait
    | clientWait =>
      obtain ⟨st, rfl, hwait⟩ := h
      have hwait : (objs .response).Wait f st := hwait
      by_cases hok : st.isOk = true
      · obtain ⟨hposted, rfl⟩ := hwait.ok hok
        rw [show Call.clientWait.label (FutexCode.Outcome.result (.status st)).status = .received
          from if_pos hok]
        exact .clientReceived (by rw [show (join (m, objs)).responseFutex = .posted from hposted]
                                  exact .taken)
      · obtain rfl := hwait.notOk (Bool.eq_false_iff.mpr hok)
        rw [show Call.clientWait.label (FutexCode.Outcome.result (.status st)).status = .gaveUp
          from if_neg hok]
        exact .clientGaveUp
    | serverPost k =>
      obtain ⟨st, rfl, hpost⟩ := h
      obtain ⟨rfl, rfl⟩ := Prod.mk.inj hpost.symm
      exact .post
    | clientPost =>
      obtain ⟨st, rfl, hpost⟩ := h
      obtain ⟨rfl, rfl⟩ := Prod.mk.inj hpost.symm
      exact .clientPost

/-! ## The server over the code refines it -/

section Refines
variable {Tid : Type} [DecidableEq Tid] {c : CodeConfig Tid} {t client : Tid} {callback : Bool}
  {w : List (Tid × CodeEvent)} {ok : Tid → Label → Prop}

/-- The server over one-step futexes is where the one over their code is. -/
structure Stands (c : CodeConfig Tid) (d : Config Tid) : Prop where
  request : (c.shared.2 .request).val = FutexCode.word d.shared.requestFutex
  response : (c.shared.2 .response).val = FutexCode.word d.shared.responseFutex
  locals : ∀ t, d.locals t = place Tid (c.locals t)

/-- The server over one-step futexes, its members apart. -/
abbrev Apart (Tid : Type) := Pool Tid (Members × (Futex → BinaryFutex)) Pc

def apart (Tid : Type) (callback : Bool) : Apart Tid where
  shared := (⟨false, callback, none, fun _ => .none⟩, fun _ => .make false)
  locals := fun _ => .idle

theorem related_initial : (FutexCode.linearization Tid).Related program
    (codeInitial Tid callback) (apart Tid callback) where
  own := rfl
  value _ := rfl
  locals _ := rfl
  sound _ := nofun

theorem joined_run {e : Apart Tid} {v : List (Tid × Label)}
    (h : Run (Pool.Step (program.Atom FutexCode.spec) fun _ => ok) (apart Tid callback) v e) :
    Run (Step fun _ => ok) (initial Tid callback) v ⟨join e.shared, e.locals⟩ := by
  induction h with
  | nil => exact .nil
  | snoc _ hs ih =>
    refine ih.snoc ?_
    cases hs with
    | mk hok hatom => exact .mk hok (program_atom hatom)

/-- **The server over the code of its futexes refines the one over one-step futexes.** -/
theorem code_refines (h : Run (CodeStep ok) (codeInitial Tid callback) w c) :
    ∃ d, Run (Step fun _ => ok) (initial Tid callback) (w.filterMap shown) d ∧ Stands c d ∧
      ∀ t, (c.locals t).Sound program := by
  have hcode : ∃ e, (FutexCode.linearization Tid).Related program c e ∧
      Run (Pool.Step (program.Atom FutexCode.spec) fun _ => ok) (apart Tid callback)
        (w.filterMap shown) e :=
    (FutexCode.linearization Tid).refines
      (fun _ _ _ _ l _ _ _ hpromise _ hshows => hpromise l hshows) related_initial h
  obtain ⟨e, hrel, hrun⟩ := hcode
  exact ⟨_, joined_run hrun, ⟨hrel.value .request, hrel.value .response, hrel.locals⟩, hrel.sound⟩

/-! ## Nobody oversleeps -/

/-- The thread is between two calls of the server, or it sleeps in one. -/
def Rests (c : CodeConfig Tid) (t : Tid) : Prop :=
  FutexCode.AtRest program c t ∧ ((c.locals t).inside = none → (c.locals t).here = .idle)

/-- A thread that rests is between two calls, or in a wait from which it cannot return yet. -/
theorem Rests.place (h : Rests c t) (hsound : (c.locals t).Sound program)
    (hwithin : ∀ k pc, (c.locals t).inside = some (k, pc) → pc.Within k.op) :
    (c.locals t).inside = none ∧ place Tid (c.locals t) = .idle ∨
      ∃ k : Call, (c.locals t).inside = some (k, .inKernel) ∧ k.op = .wait ∧
        place Tid (c.locals t) = k.pc ∧ FutexCode.Asleep c k.futex t := by
  rw [show RemoteTrigger.place Tid (c.locals t) = (c.locals t).here from h.1.place]
  obtain ⟨hnone | ⟨k, hk, hasleep⟩, hidle⟩ := h
  · exact .inl ⟨hnone, hidle hnone⟩
  · exact .inr ⟨k, hk, hwithin k _ hk, hsound k _ hk, hasleep⟩

/-- Who waits has nothing to do for a request. -/
theorem Call.duty_of_wait {k : Call} (h : k.op = .wait) : k.pc.duty = .none := by
  cases k with
  | serverWait | clientWait => rfl
  | _ => cases h

/-- **A request is not slept over.**  There is one client, which waits for each response before
it posts the next request, and nobody stops the server.  Whenever each thread is between two calls
or asleep in one: the client does not wait for a response, and as many requests were posted as
callbacks were called, have returned and were responded to; or the client's request lies in its
futex, and nobody sleeps there. -/
theorem request_is_not_slept_over
    (h : Run (CodeStep (Unstopped client)) (codeInitial Tid true) w c) (hrest : ∀ t, Rests c t) :
    ((∀ pc, (c.locals client).inside ≠ some (.clientWait, pc)) ∧
        ∀ e, (events (w.filterMap shown)).count e =
          (events (w.filterMap shown)).count .received) ∨
      (c.shared.2 .request).val = FutexCode.kPosted ∧
        ∀ t, ¬ FutexCode.Asleep c .request t := by
  obtain ⟨d, hrun, hstands, hsound⟩ := code_refines h
  obtain ⟨g, hfits, hrounds, halive⟩ := alive_run hrun
  have hplace := fun t => (hrest t).place (hsound t) (FutexCode.within_run (fun _ => rfl) h t)
  have hnobody : ∀ o, (c.shared.2 o).val = FutexCode.kPosted →
      ∀ t, ¬ FutexCode.Asleep c o t := by
    intro o hval
    have hinitial : alone program (FutexCode.implementation Tid) o (codeInitial Tid true) =
      FutexCode.initial Tid false := rfl
    exact FutexCode.nobody_sleeps hinitial h (fun t => (hrest t).1) (hval ▸ by decide)
  have hduty : ∀ t, (d.locals t).duty = .none := by
    intro t
    rw [hstands.locals t]
    obtain ⟨-, hidle⟩ | ⟨k, -, hop, hpc, -⟩ := hplace t
    · rw [hidle]
      rfl
    · rw [hpc]
      exact Call.duty_of_wait hop
  by_cases hawaiting : d.locals client = .awaiting
  · obtain hrequest | hresponse | ⟨t, ht⟩ := halive.token hawaiting
    · have hval : (c.shared.2 .request).val = FutexCode.kPosted :=
        hstands.request.trans (congrArg FutexCode.word hrequest)
      exact .inr ⟨hval, hnobody .request hval⟩
    · -- the client would sleep on a futex with a token
      have hval : (c.shared.2 .response).val = FutexCode.kPosted :=
        hstands.response.trans (congrArg FutexCode.word hresponse)
      rw [hstands.locals client] at hawaiting
      obtain ⟨-, hidle⟩ | ⟨k, -, -, hpc, hasleep⟩ := hplace client
      · cases hidle.symm.trans hawaiting
      · cases k with
        | clientWait => exact absurd hasleep (hnobody .response hval client)
        | _ => cases hpc.symm.trans hawaiting
    · exact absurd (hduty t) ht
  · refine .inl ⟨fun pc hinside => hawaiting ?_, fun e => ?_⟩
    · rw [hstands.locals client]
      obtain ⟨hnone, -⟩ | ⟨k, hk, -, hpc, -⟩ := hplace client
      · cases hnone.symm.trans hinside
      · obtain ⟨rfl, -⟩ := Prod.mk.inj (Option.some.inj (hk.symm.trans hinside))
        exact hpc
    · have hquiet : g = .quiet := by
        by_contra hg
        exact hawaiting ((hfits.waits client).mpr ⟨rfl, hg⟩)
      rw [Round.count hrounds e, hquiet]
      rfl

/-- A round: the server `true` sleeps until the client `false` has posted, and the client until
the server has responded. -/
def codeRound : List (Bool × CodeEvent) :=
  [(true, .own (.start true)), (true, .own .internal), (true, .invoke (.serverWait .start)),
    (true, .object (.serverWait .start) (.code .waitReady)),
    (true, .object (.serverWait .start) (.code .futexSleep)), (false, .invoke .clientPost),
    (false, .object .clientPost (.code .postEdge)), (false, .object .clientPost (.code .postWake)),
    (false, .invoke .clientWait), (false, .object .clientWait (.code .waitReady)),
    (false, .object .clientWait (.code .futexSleep)),
    (true, .object (.serverWait .start) (.code .futexReturned)),
    (true, .object (.serverWait .start) (.code .waitTaken)), (true, .own .internal),
    (true, .own .callback), (true, .own .returned), (true, .invoke (.serverPost .start)),
    (true, .object (.serverPost .start) (.code .postEdge)),
    (true, .object (.serverPost .start) (.code .postWake)), (true, .own .internal),
    (true, .invoke (.serverWait .start)),
    (true, .object (.serverWait .start) (.code .waitReady)),
    (true, .object (.serverWait .start) (.code .futexSleep)),
    (false, .object .clientWait (.code .futexReturned)),
    (false, .object .clientWait (.code .waitTaken))]

theorem codeRound_run : ∃ c : CodeConfig Bool,
    Run (CodeStep (Unstopped false)) (codeInitial Bool true) codeRound c ∧
      c.locals false = ⟨.idle, none⟩ ∧
      c.locals true = ⟨.wait .start, some (.serverWait .start, .inKernel)⟩ ∧
      (c.shared.2 .request).queue = [true] := by
  have hquiet : ∀ {t : Bool} {c : CodeConfig Bool} {x : CodeEvent},
      (FutexCode.linearization Bool).shows program x = none → Promised (Unstopped false) c t x :=
    fun h l hl => by cases h.symm.trans hl
  have hshows : ∀ {t : Bool} {c : CodeConfig Bool} {x : CodeEvent} {l : Label},
      (FutexCode.linearization Bool).shows program x = some l → Unstopped false t l →
        Promised (Unstopped false) c t x :=
    fun h hok l hl => Option.some.inj (h.symm.trans hl) ▸ hok
  have hstart : program.own ⟨false, true, none, fun _ => .none⟩ .idle (.start true)
      ⟨true, true, none, fun _ => .none⟩ (.load .start) := ⟨rfl, fun _ _ => .start rfl⟩
  refine ⟨_,
    .cons (.mk (hshows rfl ⟨trivial, nofun⟩) (.own hstart)) <|
    .cons (.mk (hshows rfl ⟨trivial, nofun⟩) (.own ⟨rfl, fun _ _ => .goOn rfl⟩)) <|
    .cons (.mk (hquiet rfl) (.invoke rfl)) <|
    .cons (.mk (hquiet rfl) (.object rfl (.code (.waitReady trivial rfl)) (.inside nofun))) <|
    .cons (.mk (hquiet rfl) (.object rfl (.code (.futexSleep rfl)) (.inside nofun))) <|
    .cons (.mk (hquiet rfl) (.invoke rfl)) <|
    .cons (.mk (hshows rfl ⟨rfl, nofun⟩)
      (.object rfl (.code (.postEdge rfl)) (.inside nofun))) <|
    .cons (.mk (hquiet rfl) (.object rfl (.code (.postWake true (List.mem_cons_self ..)))
      (.back rfl rfl))) <|
    .cons (.mk (hquiet rfl) (.invoke rfl)) <|
    .cons (.mk (hquiet rfl) (.object rfl (.code (.waitReady trivial rfl)) (.inside nofun))) <|
    .cons (.mk (hquiet rfl) (.object rfl (.code (.futexSleep rfl)) (.inside nofun))) <|
    .cons (.mk (hquiet rfl) (.object rfl (.code (.futexReturned nofun)) (.inside nofun))) <|
    .cons (.mk (hshows rfl ⟨trivial, nofun⟩)
      (.object rfl (.code (.waitTaken trivial rfl)) (.back rfl rfl))) <|
    .cons (.mk (hshows rfl ⟨trivial, nofun⟩) (.own ⟨rfl, fun _ _ => .recheck rfl⟩)) <|
    .cons (.mk (hshows rfl ⟨trivial, nofun⟩) (.own ⟨rfl, fun _ _ => .callback rfl⟩)) <|
    .cons (.mk (hshows rfl ⟨trivial, nofun⟩) (.own ⟨rfl, fun _ _ => .returned⟩)) <|
    .cons (.mk (hquiet rfl) (.invoke rfl)) <|
    .cons (.mk (hshows rfl ⟨trivial, nofun⟩)
      (.object rfl (.code (.postEdge rfl)) (.inside nofun))) <|
    .cons (.mk (hquiet rfl) (.object rfl (.code (.postWake false (List.mem_cons_self ..)))
      (.back rfl rfl))) <|
    .cons (.mk (hshows rfl ⟨trivial, nofun⟩) (.own ⟨rfl, fun _ _ => .goOn rfl⟩)) <|
    .cons (.mk (hquiet rfl) (.invoke rfl)) <|
    .cons (.mk (hquiet rfl) (.object rfl (.code (.waitReady trivial rfl)) (.inside nofun))) <|
    .cons (.mk (hquiet rfl) (.object rfl (.code (.futexSleep rfl)) (.inside nofun))) <|
    .cons (.mk (hquiet rfl) (.object rfl (.code (.futexReturned nofun)) (.inside nofun))) <|
    .single (.mk (hshows rfl ⟨trivial, nofun⟩)
      (.object rfl (.code (.waitTaken trivial rfl)) (.back rfl rfl))), ?_⟩
  exact ⟨rfl, rfl, rfl⟩

/-- After the round the server sleeps again, and the one request has been served. -/
theorem request_is_not_slept_over_round :
    ∃ (c : CodeConfig Bool),
      Run (CodeStep (Unstopped false)) (codeInitial Bool true) codeRound c ∧
        (∀ t, Rests c t) ∧ FutexCode.Asleep c .request true ∧
        ∀ e, (events (codeRound.filterMap shown)).count e = 1 := by
  obtain ⟨c, hrun, hfalse, htrue, hqueue⟩ := codeRound_run
  have hasleep : FutexCode.Asleep c .request true := by
    unfold FutexCode.Asleep
    rw [hqueue]
    exact List.mem_singleton_self _
  have hrest : ∀ t, Rests c t := by
    intro t
    unfold Rests FutexCode.AtRest
    cases t with
    | false =>
      rw [hfalse]
      exact ⟨.inl rfl, fun _ => rfl⟩
    | true =>
      rw [htrue]
      exact ⟨.inr ⟨_, rfl, hasleep⟩, nofun⟩
  refine ⟨c, hrun, hrest, hasleep, fun e => ?_⟩
  obtain ⟨-, hcount⟩ | ⟨-, hnobody⟩ := request_is_not_slept_over hrun hrest
  · exact hcount e
  · exact absurd hasleep (hnobody true)

end Refines

end Intrinsic.RemoteTrigger
