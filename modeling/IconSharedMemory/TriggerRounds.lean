import IconSharedMemory.RemoteTrigger

/-! # Every request is served once

A client posts a request and waits for the response before it posts the next one.  What it
sees then comes in rounds: a request is posted, the callback is called and returns, the
response is received (`Round`).  Both futexes are binary, and a wait may time out while the
token is on its way, so this rests on where the one token of a round can be: in the request
futex, with the thread that has taken it, or in the response futex (`Stage`).  A thread that
is stopped after it has taken the token drops it; the round then never ends, but nothing is
served twice.

The server's steps are simulated by the rounds (`simulates_rounds`), whoever serves: a loop,
any number of threads that call `Query`, or both.  Counting in the rounds gives the result
(`triggers_exactly_once`).
-/
namespace Intrinsic.RemoteTrigger
open Runs

/-! ## Rounds -/

/-- What is counted. -/
inductive Event
  | posted | callback | returned | received
  deriving DecidableEq, Repr

/-- How far the client's request has come. -/
inductive Round
  | quiet | asked | running | finished
  deriving DecidableEq, Repr

namespace Round

/-- A round after the other. -/
inductive Step : Round → Event → Round → Prop
  | posted : Step .quiet .posted .asked
  | callback : Step .asked .callback .running
  | returned : Step .running .returned .finished
  | received : Step .finished .received .quiet

/-- By how much an event is ahead of the responses. -/
def ahead : Round → Event → Nat
  | .asked, .posted | .running, .posted | .running, .callback | .finished, .posted
  | .finished, .callback | .finished, .returned => 1
  | _, _ => 0

theorem ahead_le (a : Round) :
    a.ahead .returned ≤ a.ahead .callback ∧ a.ahead .callback ≤ a.ahead .posted := by
  cases a <;> decide

theorem count {w : List Event} {a : Round} (h : Run Step .quiet w a) (e : Event) :
    w.count e = w.count .received + a.ahead e := by
  refine h.invariant (I := fun w a => w.count e = w.count .received + a.ahead e) ?_ ?_
  · cases e <;> rfl
  · intro w a l b hi hs
    rw [List.count_append, List.count_append, hi]
    cases hs <;> cases e <;> rfl

end Round

/-! ## The token of a round -/

/-- Where the token is.  It is `lost` when the thread that has taken it was stopped. -/
inductive Stage
  | quiet | asked | taken | lost | running | done | answered
  deriving DecidableEq, Repr

/-- What a thread has left to do for the request it has taken. -/
inductive Duty
  | none | taken | running | done
  deriving DecidableEq, Repr

def Pc.duty : Pc → Duty
  | .recheck _ | .check _ => .taken
  | .callback _ => .running
  | .post _ => .done
  | _ => .none

namespace Stage

def round : Stage → Round
  | .quiet => .quiet
  | .asked | .taken | .lost => .asked
  | .running => .running
  | .done | .answered => .finished

def request : Stage → BinaryFutex
  | .asked => .posted
  | _ => .ready

def response : Stage → BinaryFutex
  | .answered => .posted
  | _ => .ready

def duty : Stage → Duty
  | .taken => .taken
  | .running => .running
  | .done => .done
  | _ => .none

variable {g : Stage}

theorem eq_asked (h : g.request = .posted) : g = .asked := by
  cases g <;> first | rfl | cases h

theorem eq_answered (h : g.response = .posted) : g = .answered := by
  cases g <;> first | rfl | cases h

theorem eq_taken (h : g.duty = .taken) : g = .taken := by
  cases g <;> first | rfl | cases h

theorem eq_running (h : g.duty = .running) : g = .running := by
  cases g <;> first | rfl | cases h

theorem eq_done (h : g.duty = .done) : g = .done := by
  cases g <;> first | rfl | cases h

end Stage

/-- What a step shows of the rounds. -/
def Label.event : Label → Option Event
  | .posted st => if st.isOk then some .posted else none
  | .callback => some .callback
  | .returned => some .returned
  | .received => some .received
  | _ => none

section Advance
variable {s s' : Shared} {pc pc' : Pc} {l : Label}

/-- **What a step does for the client's request**, the futexes being open.  The steps of
those who serve go from one stage to another. -/
inductive Advance (s : Shared) (pc : Pc) (s' : Shared) (pc' : Pc) : Label → Prop
  | keep {l : Label} (hl : l.event = none) (hrequest : s'.requestFutex = s.requestFutex)
      (hresponse : s'.responseFutex = s.responseFutex) (hduty : pc'.duty = pc.duty)
      (hwaits : pc' = .awaiting ↔ pc = .awaiting) : Advance s pc s' pc' l
  | ask (hrequest : s'.requestFutex = .posted) (hresponse : s'.responseFutex = s.responseFutex)
      (hpc : pc = .idle) (hpc' : pc' = .awaiting) : Advance s pc s' pc' (.posted rtOkStatus)
  | take {l : Label} (hl : l.event = none) (hposted : s.requestFutex = .posted)
      (hrequest : s'.requestFutex = .ready) (hresponse : s'.responseFutex = s.responseFutex)
      (hduty : pc.duty = .none) (hduty' : pc'.duty = .taken) (hpc : pc ≠ .awaiting) :
      Advance s pc s' pc' l
  | drop {l : Label} (hl : l.event = none) (hrequest : s'.requestFutex = s.requestFutex)
      (hresponse : s'.responseFutex = s.responseFutex) (hduty : pc.duty = .taken)
      (hduty' : pc'.duty = .none) (hpc' : pc' ≠ .awaiting) : Advance s pc s' pc' l
  | call (hrequest : s'.requestFutex = s.requestFutex)
      (hresponse : s'.responseFutex = s.responseFutex) (hduty : pc.duty = .taken)
      (hduty' : pc'.duty = .running) : Advance s pc s' pc' .callback
  | ret (hrequest : s'.requestFutex = s.requestFutex)
      (hresponse : s'.responseFutex = s.responseFutex) (hduty : pc.duty = .running)
      (hduty' : pc'.duty = .done) : Advance s pc s' pc' .returned
  | answer {l : Label} (hl : l.event = none) (hrequest : s'.requestFutex = s.requestFutex)
      (hresponse : s'.responseFutex = .posted) (hduty : pc.duty = .done)
      (hduty' : pc'.duty = .none) (hpc' : pc' ≠ .awaiting) : Advance s pc s' pc' l
  | receive (hrequest : s'.requestFutex = s.requestFutex) (hposted : s.responseFutex = .posted)
      (hresponse : s'.responseFutex = .ready) (hpc : pc = .awaiting) (hpc' : pc' = .idle) :
      Advance s pc s' pc' .received
  | giveUp : Advance s pc s' pc' .gaveUp

theorem afterWait_of_not_ok {k : Server} {st : RealtimeStatus} (h : st.isOk = false) :
    (k.afterWait st).duty = .none ∧ k.afterWait st ≠ .awaiting := by
  unfold Server.afterWait
  split
  · rw [h]
    exact ⟨rfl, nofun⟩
  · split
    · exact ⟨rfl, nofun⟩
    · rw [h]
      exact ⟨rfl, nofun⟩

theorem afterWait_of_ok {k : Server} {st : RealtimeStatus} (h : st.isOk = true) :
    (k.afterWait st).duty = .taken := by
  have hcode : st.code = .ok := of_decide_eq_true h
  unfold Server.afterWait
  split
  · rw [h]
    rfl
  · rw [hcode, h]
    rfl

theorem withoutCallback_duty (k : Server) :
    k.withoutCallback.duty = .none ∧ k.withoutCallback ≠ .awaiting := by
  cases k <;> exact ⟨rfl, nofun⟩

theorem afterPost_duty (k : Server) (st : RealtimeStatus) :
    (k.afterPost st).duty = .none ∧ k.afterPost st ≠ .awaiting := by
  unfold Server.afterPost
  split
  · exact ⟨rfl, nofun⟩
  · split <;> exact ⟨rfl, nofun⟩

theorem ne_awaiting (h : pc.duty ≠ .none) : pc ≠ .awaiting := by
  rintro rfl
  exact h rfl

theorem Atom.advance (h : Atom s pc l s' pc') (hrequest : s.requestFutex ≠ .closed)
    (hresponse : s.responseFutex ≠ .closed) : Advance s pc s' pc' l := by
  cases h with
  | asyncLoad =>
    refine .keep rfl rfl rfl ?_ ?_
    · split <;> rfl
    · split <;> exact iff_of_false nofun nofun
  | began =>
    refine .keep rfl rfl rfl ?_ ?_
    · split <;> rfl
    · split <;> exact iff_of_false nofun nofun
  | leave => exact .keep rfl (by simp) (by simp) rfl (iff_of_false nofun nofun)
  | @waited k f st hwait =>
    by_cases hok : st.isOk = true
    · obtain ⟨hposted, rfl⟩ := hwait.ok hok
      exact .take rfl hposted rfl rfl rfl (afterWait_of_ok hok) nofun
    · obtain rfl := hwait.notOk (Bool.eq_false_iff.mpr hok)
      obtain ⟨hduty, hpc'⟩ := @afterWait_of_not_ok k st (Bool.eq_false_iff.mpr hok)
      exact .keep rfl rfl rfl hduty (iff_of_false hpc' nofun)
  | drop => exact .drop rfl (by simp) (by simp) rfl rfl nofun
  | callback => exact .call rfl rfl rfl rfl
  | noCallback => exact .drop rfl rfl rfl rfl (withoutCallback_duty _).1 (withoutCallback_duty _).2
  | returned => exact .ret rfl rfl rfl rfl
  | post =>
    rw [BinaryFutex.post_of_not_closed hresponse]
    exact .answer rfl rfl rfl rfl (afterPost_duty _ _).1 (afterPost_duty _ _).2
  | stop => exact .keep rfl (by simp) (by simp) rfl (iff_of_false nofun nofun)
  | clientPost =>
    rw [BinaryFutex.post_of_not_closed hrequest]
    exact .ask rfl rfl rfl rfl
  | clientReceived hwait =>
    obtain ⟨hposted, rfl⟩ := hwait.ok rfl
    exact .receive rfl hposted rfl rfl rfl
  | clientGaveUp => exact .giveUp
  | _ => exact .keep rfl rfl rfl rfl (by simp)

end Advance

/-! ## Every run -/

/-- **The client of the contract**: it is the only one that posts, and it waits until it has
received the response. -/
def OneClient {Tid : Type} (client t : Tid) : Label → Prop
  | .posted _ => t = client
  | .gaveUp => False
  | _ => True

section Rounds
variable {Tid : Type} [DecidableEq Tid] {ok : Config Tid → Tid → Label → Prop}
  {w : List (Tid × Label)} {c d : Config Tid} {client t : Tid} {l : Label} {callback : Bool}
  {g g' : Stage}

/-- The state of the server and its client at a stage. -/
structure Fits (client : Tid) (c : Config Tid) (g : Stage) : Prop where
  request : c.shared.requestFutex = g.request
  response : c.shared.responseFutex = g.response
  waits : ∀ t, c.locals t = .awaiting ↔ t = client ∧ g ≠ .quiet
  duty : Plays Pc.duty .none g.duty c.locals

omit [DecidableEq Tid] in
theorem fits_initial (callback : Bool) : Fits client (initial Tid callback) .quiet where
  request := rfl
  response := rfl
  waits _ := iff_of_false nofun fun h => h.2 rfl
  duty := .none fun _ => rfl

/-- Who waits does not change as long as the client's round goes on. -/
theorem waits_update {f : Tid → Pc} {pc' : Pc} (h : ∀ t, f t = .awaiting ↔ t = client ∧ g ≠ .quiet)
    (hpc : pc' = .awaiting ↔ f t = .awaiting) (hg : g' = .quiet ↔ g = .quiet) (u : Tid) :
    Function.update f t pc' u = .awaiting ↔ u = client ∧ g' ≠ .quiet := by
  rw [ne_eq, not_congr hg, ← ne_eq, ← h u]
  by_cases hu : u = t
  · rw [hu, Function.update_self]
    exact hpc
  · rw [Function.update_of_ne hu]

omit [DecidableEq Tid] in
/-- A thread with a duty is where the token is. -/
theorem Fits.stage (h : Fits client c g) {t : Tid} (ht : (c.locals t).duty ≠ .none) :
    g.duty = (c.locals t).duty := (h.duty.at_role t ht).symm

/-- The thread that serves goes on to another stage. -/
theorem Fits.serve {s' : Shared} {pc' : Pc} (h : Fits client c g) (t : Tid)
    (hrequest : s'.requestFutex = g'.request) (hresponse : s'.responseFutex = g'.response)
    (hduty : (c.locals t).duty = g.duty) (hduty' : pc'.duty = g'.duty)
    (hpc : c.locals t ≠ .awaiting) (hpc' : pc' ≠ .awaiting) (hg : g ≠ .quiet)
    (hg' : g' ≠ .quiet) : Fits client ⟨s', Function.update c.locals t pc'⟩ g' where
  request := hrequest
  response := hresponse
  waits := waits_update h.waits (iff_of_false hpc' hpc) (iff_of_false hg' hg)
  duty := by
    rw [← hduty']
    refine Plays.set fun u hu => ?_
    by_cases hnone : (c.locals t).duty = .none
    · have hall := h.duty
      rw [← hduty, hnone] at hall
      exact hall.all_idle u
    · exact h.duty.others t u hnone hu

theorem Fits.step (hok : ∀ c t l, ok c t l → OneClient client t l) (h : Fits client c g)
    (hs : Step ok c (t, l) d) : ∃ g', Fits client d g' ∧
      (l.event = none ∧ g'.round = g.round ∨
        ∃ e, l.event = some e ∧ Round.Step g.round e g'.round) := by
  have hrequest : c.shared.requestFutex ≠ .closed := by
    rw [h.request]
    cases g <;> exact nofun
  have hresponse : c.shared.responseFutex ≠ .closed := by
    rw [h.response]
    cases g <;> exact nofun
  cases hs with
  | @mk _ _ s' pc' hpromise hatom =>
    cases hatom.advance hrequest hresponse with
    | keep hl hreq hres hduty hwaits =>
      exact ⟨g, ⟨hreq.trans h.request, hres.trans h.response,
        waits_update h.waits hwaits Iff.rfl, h.duty.frame hduty⟩, .inl ⟨hl, rfl⟩⟩
    | ask hreq hres hpc hpc' =>
      obtain rfl : t = client := hok _ _ _ hpromise
      have hquiet : g = .quiet := by
        by_contra hg
        cases hpc.symm.trans ((h.waits t).mpr ⟨rfl, hg⟩)
      subst hquiet
      refine ⟨.asked, ⟨hreq, hres.trans h.response, fun u => ?_, ?_⟩, .inr ⟨_, rfl, .posted⟩⟩
      · dsimp only
        by_cases hu : u = t
        · rw [hu, Function.update_self]
          exact iff_of_true hpc' ⟨rfl, nofun⟩
        · rw [Function.update_of_ne hu]
          exact iff_of_false (fun hw => ((h.waits u).mp hw).2 rfl) fun hu' => hu hu'.1
      · exact h.duty.frame (by rw [hpc, hpc']; rfl)
    | take hl hposted hreq hres hduty hduty' hpc =>
      obtain rfl := Stage.eq_asked (h.request.symm.trans hposted)
      have hpc'' : pc' ≠ .awaiting := by
        rintro rfl
        cases hduty'
      exact ⟨.taken, h.serve t hreq (hres.trans h.response) hduty hduty' hpc hpc'' nofun nofun,
        .inl ⟨hl, rfl⟩⟩
    | drop hl hreq hres hduty hduty' hpc' =>
      obtain rfl := Stage.eq_taken ((h.stage (hduty ▸ nofun)).trans hduty)
      exact ⟨.lost, h.serve t (hreq.trans h.request) (hres.trans h.response) hduty hduty'
        (ne_awaiting (hduty ▸ nofun)) hpc' nofun nofun, .inl ⟨hl, rfl⟩⟩
    | call hreq hres hduty hduty' =>
      obtain rfl := Stage.eq_taken ((h.stage (hduty ▸ nofun)).trans hduty)
      exact ⟨.running, h.serve t (hreq.trans h.request) (hres.trans h.response) hduty hduty'
        (ne_awaiting (hduty ▸ nofun)) (ne_awaiting (hduty' ▸ nofun)) nofun nofun,
        .inr ⟨_, rfl, .callback⟩⟩
    | ret hreq hres hduty hduty' =>
      obtain rfl := Stage.eq_running ((h.stage (hduty ▸ nofun)).trans hduty)
      exact ⟨.done, h.serve t (hreq.trans h.request) (hres.trans h.response) hduty hduty'
        (ne_awaiting (hduty ▸ nofun)) (ne_awaiting (hduty' ▸ nofun)) nofun nofun,
        .inr ⟨_, rfl, .returned⟩⟩
    | answer hl hreq hres hduty hduty' hpc' =>
      obtain rfl := Stage.eq_done ((h.stage (hduty ▸ nofun)).trans hduty)
      exact ⟨.answered, h.serve t (hreq.trans h.request) hres hduty hduty'
        (ne_awaiting (hduty ▸ nofun)) hpc' nofun nofun, .inl ⟨hl, rfl⟩⟩
    | receive hreq hposted hres hpc hpc' =>
      obtain rfl := Stage.eq_answered (h.response.symm.trans hposted)
      obtain ⟨rfl, -⟩ := (h.waits t).mp hpc
      refine ⟨.quiet, ⟨hreq.trans h.request, hres, fun u => ?_, ?_⟩, .inr ⟨_, rfl, .received⟩⟩
      · refine iff_of_false ?_ fun hu => hu.2 rfl
        dsimp only
        by_cases hu : u = t
        · rw [hu, Function.update_self, hpc']
          exact nofun
        · rw [Function.update_of_ne hu]
          exact fun hw => hu ((h.waits u).mp hw).1
      · exact h.duty.frame (by rw [hpc, hpc']; rfl)
    | giveUp => exact (hok _ _ _ hpromise).elim

/-- What a word shows of the rounds. -/
def events (w : List (Tid × Label)) : List Event := w.filterMap fun x => x.2.event

/-- **The rounds simulate the server**, whoever serves and whenever it is stopped. -/
theorem simulates_rounds (hok : ∀ c t l, ok c t l → OneClient client t l)
    (h : Run (Step ok) (initial Tid callback) w c) :
    ∃ g, Fits client c g ∧ Run Round.Step .quiet (events w) g.round := by
  have hsim : ∃ a, (∃ g, Fits client c g ∧ g.round = a) ∧ Run Round.Step .quiet (events w) a := by
    refine h.simulate (R := fun c a => ∃ g, Fits client c g ∧ Stage.round g = a)
      ⟨.quiet, fits_initial callback, rfl⟩ ?_
    rintro c a ⟨t, l⟩ d ⟨g, hfits, rfl⟩ hs
    obtain ⟨g', hfits', hround⟩ := hfits.step hok hs
    exact ⟨g'.round, ⟨g', hfits', rfl⟩, hround⟩
  obtain ⟨a, ⟨g, hfits, rfl⟩, hrun⟩ := hsim
  exact ⟨g, hfits, hrun⟩

theorem callback_le_posted (hok : ∀ c t l, ok c t l → OneClient client t l)
    (h : Run (Step ok) (initial Tid callback) w c) :
    (events w).count .callback ≤ (events w).count .posted := by
  obtain ⟨g, -, hrun⟩ := simulates_rounds hok h
  rw [Round.count hrun .callback, Round.count hrun .posted]
  exact Nat.add_le_add_left g.round.ahead_le.2 _

omit [DecidableEq Tid] in
theorem Fits.awaiting_of_inCallback (h : Fits client c g) (ht : (c.locals t).inCallback) :
    c.locals client = .awaiting := by
  have hduty : (c.locals t).duty = .running := by
    cases hpc : c.locals t <;> rw [hpc] at ht <;> first | rfl | exact ht.elim
  obtain rfl := Stage.eq_running ((h.stage (hduty ▸ nofun)).trans hduty)
  exact (h.waits client).mpr ⟨rfl, nofun⟩

/-- **Every request is served once.**  One client posts requests and waits for each response
before it posts the next.  Then in every reachable state in which it does not wait, after n
responses exactly n requests have been posted, n callbacks called and n returned.  In between
the four counts follow each other, a callback is called only after the request it is for was
posted, and no callback is executed while the client does not wait. -/
theorem triggers_exactly_once (hok : ∀ c t l, ok c t l → OneClient client t l)
    (h : Run (Step ok) (initial Tid callback) w c) :
    (c.locals client ≠ .awaiting → ∀ e, (events w).count e = (events w).count .received) ∧
    (c.locals client = .awaiting →
      (events w).count .posted = (events w).count .received + 1) ∧
    (events w).count .received ≤ (events w).count .returned ∧
    (events w).count .returned ≤ (events w).count .callback ∧
    (events w).count .callback ≤ (events w).count .posted ∧
    (∀ w₁ t w₂, w = w₁ ++ (t, .callback) :: w₂ →
      (events w₁).count .callback < (events w₁).count .posted) ∧
    ∀ t, (c.locals t).inCallback → c.locals client = .awaiting := by
  obtain ⟨g, hfits, hrun⟩ := simulates_rounds hok h
  have hcount := Round.count hrun
  refine ⟨fun hquiet e => ?_, fun hawaiting => ?_, ?_, ?_, ?_, ?_, ?_⟩
  · have hg : g = .quiet := by
      by_contra hg
      exact hquiet ((hfits.waits client).mpr ⟨rfl, hg⟩)
    rw [hcount e, hg]
    rfl
  · obtain ⟨-, hg⟩ := (hfits.waits client).mp hawaiting
    rw [hcount .posted]
    cases g <;> first | rfl | exact absurd rfl hg
  · rw [hcount .returned]
    exact Nat.le_add_right _ _
  · rw [hcount .returned, hcount .callback]
    exact Nat.add_le_add_left g.round.ahead_le.1 _
  · exact callback_le_posted hok h
  · rintro w₁ t w₂ rfl
    -- the run up to and with this call
    obtain ⟨c₁, h₁, hrest⟩ := h.split
    obtain ⟨c₂, hs, -⟩ := hrest.uncons
    have hle := callback_le_posted hok (h₁.snoc hs)
    rw [show events (w₁ ++ [(t, .callback)]) = events w₁ ++ [.callback] from
      List.filterMap_append, List.count_append, List.count_append] at hle
    exact hle
  · exact fun t ht => hfits.awaiting_of_inCallback ht

end Rounds

/-- A request is served by the loop of `Start`, and the client receives the response. -/
def round : List (Bool × Label) :=
  [(false, .posted rtOkStatus), (true, .start true), (true, .internal),
    (true, .waited rtOkStatus), (true, .internal), (true, .callback), (true, .returned),
    (true, .responded rtOkStatus), (false, .received)]

/-- After this round each of the four has taken place once. -/
theorem triggers_exactly_once_round : ∃ c : Config Bool,
    Run (Step fun _ t l => OneClient false t l) (initial Bool true) round c ∧
      (events round).count .received = 1 ∧ ∀ e, (events round).count e = 1 := by
  have hrun : Run (Step fun _ t l => OneClient false t l) (initial Bool true) round
      (Pool.two { Shared.init true with isRunning := true } .idle (.load .start)) := by
    rw [Pool.eq_two (initial Bool true)]
    refine .cons (.first rfl .clientPost) ?_
    refine .cons (.second trivial (.start rfl)) ?_
    refine .cons (.second trivial (.goOn rfl)) ?_
    refine .cons (.second trivial (.waited .taken)) ?_
    refine .cons (.second trivial (.recheck rfl)) ?_
    refine .cons (.second trivial (.callback rfl)) ?_
    refine .cons (.second trivial .returned) ?_
    refine .cons (.second trivial .post) ?_
    exact .single (.first trivial (.clientReceived .taken))
  exact ⟨_, hrun, rfl, (triggers_exactly_once (fun _ _ _ => id) hrun).1 nofun⟩

end Intrinsic.RemoteTrigger
