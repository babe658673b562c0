import IconSharedMemory.FutexCalls
import IconSharedMemory.LockstepCancel

/-! # The lockstep down to the system calls

`Lockstep.lean` takes each operation on a futex as one step.  Here the lockstep runs over the
code of its two futexes: a start goes to sleep in the kernel and is woken up, spuriously or by
the `Post` of an end, and other threads move between any two of those steps.

The steps on `state_` are the ones of `Lockstep.Atom`.  The calls of a futex are listed in
`Call`, with the place in the lockstep they are made from and where their result leads.
That makes the lockstep a program in the sense of `AtomicObjects`, and since the code of a
futex is linearizable, the lockstep over it does what the lockstep over one-step futexes does
(`code_exclusive_and_alternating`).

What only this level can say is that nobody oversleeps.  Without a cancellation there is one
token, and when everybody is at rest it lies in a futex on which nobody sleeps, or an
operation is in progress (`turn_is_not_slept_through`).  After a cancellation nobody stays
asleep at all (`cancel_leaves_nobody_asleep`).
-/
namespace Intrinsic.Lockstep
open Runs AtomicObjects

/-! ## The program -/

/-- The futexes of a lockstep. -/
inductive Futex
  | aFinished | bFinished
  deriving DecidableEq, Repr

/-- The futex the start of an operation waits on. -/
def Side.futex : Side → Futex
  | .a => .bFinished
  | .b => .aFinished

/-- The places where a function of the lockstep calls a futex. -/
inductive Call
  | startWait (x : Side)
  | startRepost (x : Side)
  | endAPost
  | endBPost
  | cancelPostA
  | cancelPostB
  | resetWaitA
  | resetWaitB
  | resetPost
  deriving DecidableEq, Repr

namespace Call

/-- Where the thread makes the call. -/
def pc : Call → Pc
  | .startWait _ => .idle
  | .startRepost x => .startRepost x
  | .endAPost => .endAPost
  | .endBPost => .endBPost
  | .cancelPostA => .cancelPostA
  | .cancelPostB => .cancelPostB
  | .resetWaitA => .resetWaitA
  | .resetWaitB => .resetWaitB
  | .resetPost => .resetPost

def futex : Call → Futex
  | .startWait x | .startRepost x => x.futex
  | .endAPost | .cancelPostA | .resetWaitA => .aFinished
  | .endBPost | .cancelPostB | .resetWaitB | .resetPost => .bFinished

def op : Call → FutexCode.Op
  | .startWait _ | .resetWaitA | .resetWaitB => .wait
  | _ => .post

/-- Where the thread goes on when the call has returned the status. -/
def next (st : RealtimeStatus) : Call → Pc
  | .startWait x => if st.isOk then .startCas x else .idle
  | .cancelPostA => .cancelPostB
  | .resetWaitA => if st.isOk then .resetWaitB else .idle
  | .resetWaitB => if st.isOk then .resetStore else .idle
  | _ => .idle

def label (st : RealtimeStatus) : Call → Label
  | .startWait x => .startWait x st
  | .startRepost x => .startRepost x
  | .endAPost => .endAPost st
  | .endBPost => .endBPost st
  | .cancelPostA => .cancelPostA
  | .cancelPostB => .cancelPostB
  | .resetWaitA => .resetWaitA st
  | .resetWaitB => .resetWaitB st
  | .resetPost => .resetPost st

end Call

/-- The step is one on `state_`. -/
def Label.onState : Label → Bool
  | .startOk _ | .startCancelled _ | .startRefused _ | .endALoad | .endACancelled | .endAReload
  | .endARefused | .endAStore | .endBOk | .endBCancelled | .endBRefused | .cancelStore
  | .resetCheck | .resetRefused | .resetStore => true
  | _ => false

/-- **The lockstep as a program over two futexes.** -/
def program : Program State Thread Futex FutexCode.Op FutexCode.Outcome Call Label where
  -- what the futexes hold does not matter to these steps
  own st th l st' th' := l.onState = true ∧ ∀ a b, Atom ⟨a, b, st⟩ th l ⟨a, b, st'⟩ th'
  calls th k := th.pc = k.pc
  object := Call.futex
  op := Call.op
  resume k r th := { th with pc := k.next r.status }
  label k r := k.label r.status

/-- A lockstep over the code of its futexes, and its threads. -/
abbrev CodeConfig (Tid : Type) :=
  CodePool Tid State Thread Futex Call (FutexCode.Shared Tid) FutexCode.Pc

/-- The steps of the lockstep and of its futexes. -/
abbrev CodeEvent := Event Label Call FutexCode.Access

/-- A default-constructed `Lockstep`. -/
def codeInitial (Tid : Type) : CodeConfig Tid where
  shared := (.bFinished, fun
    | .aFinished => ⟨FutexCode.word (.make false), []⟩
    | .bFinished => ⟨FutexCode.word (.make true), []⟩)
  locals := fun _ => ⟨.init, none⟩

section Code
variable {Tid : Type} [DecidableEq Tid]

/-- The threads as their callers see them.  No promise of the callers is about the shared
memory. -/
def callers (c : CodeConfig Tid) : Config Tid := ⟨.init, fun t => (c.locals t).here⟩

/-- What the callers promise, about steps of the lockstep only: they do not choose the steps
inside a futex. -/
def Promised (ok : Config Tid → Tid → Label → Prop) (c : CodeConfig Tid) (t : Tid) :
    CodeEvent → Prop
  | .own l => ok (callers c) t l
  | _ => True

/-- **One step of the lockstep or of its futexes.** -/
abbrev CodeStep (ok : Config Tid → Tid → Label → Prop) :
    CodeConfig Tid → Tid × CodeEvent → CodeConfig Tid → Prop :=
  program.Step (FutexCode.implementation Tid) (Promised ok)

/-- What is seen of a step over one-step futexes: a step on `state_`, or the step that
decides a call of a futex. -/
def shown (x : Tid × CodeEvent) : Option (Tid × Label) :=
  (FutexCode.linearization Tid).shown program x

/-- The thread over one-step futexes: a call that has been decided has returned. -/
def place (Tid : Type) [DecidableEq Tid] (f : Frame Thread Call FutexCode.Pc) : Thread :=
  (FutexCode.linearization Tid).place program f

end Code

/-! ## Over one-step futexes it is the lockstep of before -/

/-- The members of a lockstep, put together. -/
def join (x : State × (Futex → BinaryFutex)) : Shared := ⟨x.2 .aFinished, x.2 .bFinished, x.1⟩

/-- A `Post` as one step. -/
theorem spec_post {f f' : BinaryFutex} {r : FutexCode.Outcome}
    (h : FutexCode.spec .post f f' r) : f' = f.post.1 ∧ r.status = f.post.2 := by
  obtain ⟨st, rfl, hpost⟩ := h
  rw [hpost]
  exact ⟨rfl, rfl⟩

theorem program_atom {x y : State × (Futex → BinaryFutex)} {th th' : Thread} {l : Label}
    (h : program.Atom FutexCode.spec x th l y th') : Atom (join x) th l (join y) th' := by
  cases h with
  | own h => exact h.2 _ _
  | @call s objs _ k f r hk h =>
    have hpc : th.pc = k.pc := hk
    show Atom _ th (k.label r.status) _ { th with pc := k.next r.status }
    cases k with
    | startWait x =>
      obtain ⟨st, rfl, hwait⟩ := h
      cases x <;> exact .startWait _ f st hpc hwait
    | resetWaitA =>
      obtain ⟨st, rfl, hwait⟩ := h
      exact .resetWaitA f st hpc hwait
    | resetWaitB =>
      obtain ⟨st, rfl, hwait⟩ := h
      exact .resetWaitB f st hpc hwait
    | startRepost x =>
      obtain ⟨rfl, hst⟩ := spec_post h
      cases x <;> exact .startRepost _ hpc
    | endAPost =>
      obtain ⟨rfl, hst⟩ := spec_post h
      rw [hst]
      exact .endAPost hpc
    | endBPost =>
      obtain ⟨rfl, hst⟩ := spec_post h
      rw [hst]
      exact .endBPost hpc
    | cancelPostA =>
      obtain ⟨rfl, hst⟩ := spec_post h
      exact .cancelPostA hpc
    | cancelPostB =>
      obtain ⟨rfl, hst⟩ := spec_post h
      exact .cancelPostB hpc
    | resetPost =>
      obtain ⟨rfl, hst⟩ := spec_post h
      rw [hst]
      exact .resetPost hpc

/-! ## The lockstep over the code refines it -/

section Refines
variable {Tid : Type} [DecidableEq Tid] {c : CodeConfig Tid} {d : Config Tid} {t : Tid}
  {w : List (Tid × CodeEvent)} {ok : Config Tid → Tid → Label → Prop}

/-- The lockstep over one-step futexes is where the one over their code is. -/
structure Stands (c : CodeConfig Tid) (d : Config Tid) : Prop where
  state : d.shared.state = c.shared.1
  aFinished : (c.shared.2 .aFinished).val = FutexCode.word d.shared.aFinished
  bFinished : (c.shared.2 .bFinished).val = FutexCode.word d.shared.bFinished
  locals : ∀ t, d.locals t = place Tid (c.locals t)

theorem place_held (Tid : Type) [DecidableEq Tid] (f : Frame Thread Call FutexCode.Pc) :
    (place Tid f).held = f.here.held := by
  obtain ⟨l, _ | ⟨k, i⟩⟩ := f
  · rfl
  · show (Option.elim (FutexCode.settled i) l _).held = l.held
    cases FutexCode.settled i <;> rfl

theorem Call.inReset_of_next {k : Call} {st : RealtimeStatus} (h : (k.next st).inReset) :
    k.pc.inReset := by
  cases k <;> simp only [Call.next] at h <;> first | trivial | exact h.elim | skip
  split at h <;> exact h.elim

/-- A thread that is in `Reset` over one-step futexes is in `Reset` over their code. -/
theorem inReset_of_place {f : Frame Thread Call FutexCode.Pc} (hf : f.Sound program)
    (h : (place Tid f).pc.inReset) : f.here.pc.inReset := by
  obtain ⟨l, _ | ⟨k, i⟩⟩ := f
  · exact h
  · have hpc : l.pc = k.pc := hf k i rfl
    change (Option.elim (FutexCode.settled i) l _ : Thread).pc.inReset at h
    cases hset : FutexCode.settled i with
    | none =>
      rw [hset] at h
      exact h
    | some r =>
      rw [hset] at h
      show l.pc.inReset
      rw [hpc]
      exact Call.inReset_of_next h

/-- A promise that is kept over one-step futexes when it is kept over their code: it is about
the steps on `state_` and about where the threads are. -/
def Transfers (ok : Config Tid → Tid → Label → Prop) : Prop :=
  ∀ (c : CodeConfig Tid) (d : Config Tid) t l, (∀ u, (c.locals u).Sound program) →
    (∀ u, d.locals u = place Tid (c.locals u)) →
    (l.onState = true → ok (callers c) t l) → ok d t l

theorem transfers_free : @Transfers Tid _ Pool.free := fun _ _ _ _ _ _ _ => trivial

theorem transfers_usage : @Transfers Tid _ Usage := by
  intro c d t l hsound hlocals hok
  have hheld : ∀ u, (d.locals u).held = (c.locals u).here.held := fun u => by
    rw [hlocals u, place_held Tid]
  cases l with
  | endALoad | endACancelled | endBOk | endBCancelled | endBRefused =>
    have hmem := hok rfl
    unfold Usage at hmem ⊢
    rwa [hheld t]
  | resetCheck | resetRefused =>
    obtain ⟨hnone, hreset⟩ := hok rfl
    refine ⟨fun u => (hheld u).trans (hnone u), fun u hu => hreset u ?_⟩
    rw [hlocals u] at hu
    exact inReset_of_place (hsound u) hu
  | _ => trivial

theorem transfers_noCancel : @Transfers Tid _ NoCancel := by
  intro c d t l hsound hlocals hok
  refine ⟨?_, transfers_usage c d t l hsound hlocals fun hl => (hok hl).2⟩
  rintro rfl
  exact (hok rfl).1 rfl

theorem Call.label_onState (k : Call) (st : RealtimeStatus) : (k.label st).onState = false := by
  cases k <;> rfl

/-- The lockstep over one-step futexes, its members apart. -/
abbrev Apart (Tid : Type) := Pool Tid (State × (Futex → BinaryFutex)) Thread

def apart (Tid : Type) : Apart Tid where
  shared := (.bFinished, fun
    | .aFinished => .make false
    | .bFinished => .make true)
  locals := fun _ => .init

/-- Its members put together. -/
def joined (e : Apart Tid) : Config Tid := ⟨join e.shared, e.locals⟩

theorem related_initial :
    (FutexCode.linearization Tid).Related program (codeInitial Tid) (apart Tid) where
  own := rfl
  value o := by cases o <;> rfl
  locals _ := rfl
  sound _ := nofun

theorem joined_run {e : Apart Tid} {v : List (Tid × Label)}
    (h : Run (Pool.Step (program.Atom FutexCode.spec) fun e t l => ok (joined e) t l)
      (apart Tid) v e) : Run (Pool.Step Atom ok) (initial Tid) v (joined e) := by
  induction h with
  | nil => exact .nil
  | snoc _ hs ih =>
    refine ih.snoc ?_
    cases hs with
    | mk hok hatom => exact .mk hok (program_atom hatom)

/-- What the callers promise is what is seen over one-step futexes. -/
theorem Transfers.shown (hok : Transfers ok) {e : Apart Tid} {x : CodeEvent} {l : Label}
    (hrel : (FutexCode.linearization Tid).Related program c e) (hpromise : Promised ok c t x)
    (hshows : (FutexCode.linearization Tid).shows program x = some l) : ok (joined e) t l := by
  refine hok c _ t l hrel.sound hrel.locals fun hl => ?_
  cases x with
  | own l' =>
    obtain rfl := Option.some.inj hshows
    exact hpromise
  | invoke k => cases hshows
  | object k a =>
    obtain ⟨r, -, rfl⟩ := Option.map_eq_some_iff.mp hshows
    exact absurd ((k.label_onState r.status).symm.trans hl) nofun

/-- **The lockstep over the code of its futexes refines the one over one-step futexes.** -/
theorem code_refines (hok : Transfers ok) (h : Run (CodeStep ok) (codeInitial Tid) w c) :
    ∃ d, Run (Pool.Step Atom ok) (initial Tid) (w.filterMap shown) d ∧ Stands c d ∧
      ∀ t, (c.locals t).Sound program := by
  have hcode : ∃ e, (FutexCode.linearization Tid).Related program c e ∧
      Run (Pool.Step (program.Atom FutexCode.spec) fun e t l => ok (joined e) t l)
        (apart Tid) (w.filterMap shown) e :=
    (FutexCode.linearization Tid).refines
      (fun _ _ _ _ _ _ _ hrel hpromise _ => hok.shown hrel hpromise) related_initial h
  obtain ⟨e, hrel, hrun⟩ := hcode
  exact ⟨joined e, joined_run hrun,
    ⟨hrel.own, hrel.value .aFinished, hrel.value .bFinished, hrel.locals⟩, hrel.sound⟩

/-- **Mutual exclusion and strict alternation, down to the system calls.** -/
theorem code_exclusive_and_alternating (h : Run (CodeStep Usage) (codeInitial Tid) w c) :
    (∃ d, Run (Pool.Step Atom Usage) (initial Tid) (w.filterMap shown) d ∧ Stands c d) ∧
      (∀ t, (c.locals t).here.held.length ≤ 1) ∧
      (∀ t u, (c.locals t).here.held ≠ [] → (c.locals u).here.held ≠ [] → t = u) ∧
      Alternating (starts (w.filterMap shown)) := by
  obtain ⟨d, hrun, hstands, -⟩ := code_refines transfers_usage h
  have hinv := inv_run hrun
  have hheld : ∀ t, (d.locals t).held = (c.locals t).here.held := fun t => by
    rw [hstands.locals t, place_held Tid]
  refine ⟨⟨d, hrun, hstands⟩, fun t => ?_, fun t u ht hu => ?_, hinv.alternating⟩
  · rw [← hheld t]
    exact hinv.single t
  · exact hinv.exclusive t u ((hheld t).trans_ne ht) ((hheld u).trans_ne hu)

/-- Thread `true` sleeps in a start of B until thread `false` has performed A. -/
theorem code_exclusive_and_alternating_woken :
    ∃ (w : List (Bool × CodeEvent)) (c : CodeConfig Bool),
      Run (CodeStep Usage) (codeInitial Bool) w c ∧ starts (w.filterMap shown) = [.a, .b] ∧
        (c.locals true).here.held = [.b] ∧
        ((∃ d, Run (Pool.Step Atom Usage) (initial Bool) (w.filterMap shown) d ∧ Stands c d) ∧
          (∀ t, (c.locals t).here.held.length ≤ 1) ∧
          (∀ t u, (c.locals t).here.held ≠ [] → (c.locals u).here.held ≠ [] → t = u) ∧
          Alternating (starts (w.filterMap shown))) := by
  have h : ∃ c : CodeConfig Bool, Run (CodeStep Usage) (codeInitial Bool)
      [(true, .invoke (.startWait .b)), (true, .object (.startWait .b) (.code .waitReady)),
        (true, .object (.startWait .b) (.code .futexSleep)), (false, .invoke (.startWait .a)),
        (false, .object (.startWait .a) (.code .waitTaken)), (false, .own (.startOk .a)),
        (false, .own .endALoad), (false, .own .endAReload), (false, .own .endAStore),
        (false, .invoke .endAPost), (false, .object .endAPost (.code .postEdge)),
        (false, .object .endAPost (.code .postWake)),
        (true, .object (.startWait .b) (.code .futexReturned)),
        (true, .object (.startWait .b) (.code .waitTaken)), (true, .own (.startOk .b))] c ∧
      (c.locals true).here.held = [.b] := by
    refine ⟨_,
      .cons (.mk trivial (.invoke rfl)) <|
      .cons (.mk trivial (.object rfl (.code (.waitReady trivial rfl)) (.inside nofun))) <|
      .cons (.mk trivial (.object rfl (.code (.futexSleep rfl)) (.inside nofun))) <|
      .cons (.mk trivial (.invoke rfl)) <|
      .cons (.mk trivial (.object rfl (.code (.waitTaken trivial rfl)) (.back rfl rfl))) <|
      .cons (.mk trivial (.own ⟨rfl, fun _ _ => .startOk .a rfl rfl⟩)) <|
      .cons (.mk (List.mem_cons_self ..) (.own ⟨rfl, fun _ _ => .endALoad rfl nofun⟩)) <|
      .cons (.mk trivial (.own ⟨rfl, fun _ _ => .endAReload rfl rfl⟩)) <|
      .cons (.mk trivial (.own ⟨rfl, fun _ _ => .endAStore rfl⟩)) <|
      .cons (.mk trivial (.invoke rfl)) <|
      .cons (.mk trivial (.object rfl (.code (.postEdge rfl)) (.inside nofun))) <|
      .cons (.mk trivial (.object rfl (.code (.postWake true (List.mem_cons_self ..)))
        (.back rfl rfl))) <|
      .cons (.mk trivial (.object rfl (.code (.futexReturned nofun)) (.inside nofun))) <|
      .cons (.mk trivial (.object rfl (.code (.waitTaken trivial rfl)) (.back rfl rfl))) <|
      .single (.mk trivial (.own ⟨rfl, fun _ _ => .startOk .b rfl rfl⟩)), ?_⟩
    rfl
  obtain ⟨c, hrun, hheld⟩ := h
  exact ⟨_, c, hrun, rfl, hheld, code_exclusive_and_alternating hrun⟩

end Refines

/-! ## Nobody oversleeps -/

section Sleepers
variable {Tid : Type} [DecidableEq Tid] {c : CodeConfig Tid} {d : Config Tid} {t : Tid}
  {w : List (Tid × CodeEvent)} {ok : Config Tid → Tid → Label → Prop}

/-- The thread is between two calls of the lockstep, or it sleeps in one. -/
def Rests (c : CodeConfig Tid) (t : Tid) : Prop :=
  FutexCode.AtRest program c t ∧ ((c.locals t).inside = none → (c.locals t).here.pc = .idle)

/-- Where a thread that rests is: between two calls, or at a wait. -/
theorem Rests.place_pc (h : Rests c t) (hsound : (c.locals t).Sound program)
    (hwithin : ∀ k pc, (c.locals t).inside = some (k, pc) → pc.Within k.op) :
    ∃ k : Call, k.op = .wait ∧ (place Tid (c.locals t)).pc = k.pc := by
  rw [show place Tid (c.locals t) = (c.locals t).here from h.1.place]
  obtain ⟨hnone | ⟨k, hk, -⟩, hidle⟩ := h
  · exact ⟨.startWait .a, rfl, hidle hnone⟩
  · exact ⟨k, hwithin k _ hk, hsound k _ hk⟩

omit [DecidableEq Tid] in
/-- A thread at a wait neither carries a token nor is about to post one. -/
theorem Call.of_wait {k : Call} (h : k.op = .wait) :
    k.pc.token = [] ∧ ∀ x, ¬ k.pc.serves x := by
  have hnot : ∀ {pc : Pc} {x : Side}, pc.carries x = False → pc.cancels x = False →
      ¬ pc.serves x := fun h₁ h₂ h => h.elim (cast h₁) (cast h₂)
  cases k with
  | startWait | resetWaitA | resetWaitB => exact ⟨rfl, fun _ => hnot rfl rfl⟩
  | _ => cases h

/-- Nobody who rests sleeps on a posted futex. -/
theorem nobody_sleeps_on (h : Run (CodeStep ok) (codeInitial Tid) w c) (hstands : Stands c d)
    (hrest : ∀ t, Rests c t) (x : Side) (hposted : x.awaited d.shared = .posted) :
    (c.shared.2 x.futex).val = FutexCode.kPosted ∧ ∀ t, ¬ FutexCode.Asleep c x.futex t := by
  have hval : (c.shared.2 x.futex).val = FutexCode.kPosted := by
    cases x with
    | a => exact hstands.bFinished.trans (congrArg FutexCode.word hposted)
    | b => exact hstands.aFinished.trans (congrArg FutexCode.word hposted)
  have hinitial : ∃ posted, alone program (FutexCode.implementation Tid) x.futex (codeInitial Tid) =
      FutexCode.initial Tid posted := by
    cases x with
    | a => exact ⟨true, rfl⟩
    | b => exact ⟨false, rfl⟩
  obtain ⟨posted, hposted⟩ := hinitial
  refine ⟨hval, FutexCode.nobody_sleeps hposted h (fun t => (hrest t).1) ?_⟩
  rw [hval]
  decide

/-- The program points of the threads that rest. -/
theorem pc_of_rest (h : Run (CodeStep ok) (codeInitial Tid) w c) (hstands : Stands c d)
    (hsound : ∀ t, (c.locals t).Sound program) (hrest : ∀ t, Rests c t) (t : Tid) :
    ∃ k : Call, k.op = .wait ∧ (d.locals t).pc = k.pc := by
  rw [hstands.locals t]
  exact (hrest t).place_pc (hsound t) (FutexCode.within_run (fun _ => rfl) h t)

omit [DecidableEq Tid] in
/-- A token in a futex is that of the operation whose turn it is. -/
theorem turn_of_tokens {s : Shared} {k : Token} (hlying : s.tokens = [k])
    (hk : s.state = k.state) : ∃ x : Side, s.state = x.expected ∧ x.awaited s = .posted := by
  by_cases ha : s.aFinished = .posted
  · refine ⟨.b, ?_, ha⟩
    rw [Shared.tokens, ha, lyingIn_posted] at hlying
    rw [hk, ← (List.cons.inj hlying).1]
    rfl
  · rw [Shared.tokens, lyingIn, if_neg ha, List.nil_append] at hlying
    by_cases hb : s.bFinished = .posted
    · refine ⟨.a, ?_, hb⟩
      rw [hb, lyingIn_posted] at hlying
      rw [hk, ← (List.cons.inj hlying).1]
      rfl
    · rw [lyingIn, if_neg hb] at hlying
      cases hlying

/-- **Nobody sleeps through its turn.**  As long as nobody cancels, whenever each of any
number of threads is between two calls of the lockstep or asleep in one: an operation is in
progress, or the futex of the operation whose turn it is has a token, and nobody sleeps
on it. -/
theorem turn_is_not_slept_through (h : Run (CodeStep NoCancel) (codeInitial Tid) w c)
    (hrest : ∀ t, Rests c t) :
    (∃ t, (c.locals t).here.held ≠ []) ∨
      ∃ x : Side, c.shared.1 = x.expected ∧ (c.shared.2 x.futex).val = FutexCode.kPosted ∧
        ∀ t, ¬ FutexCode.Asleep c x.futex t := by
  obtain ⟨d, hrun, hstands, hsound⟩ := code_refines transfers_noCancel h
  obtain ⟨-, hinv⟩ := tokenInv_run hrun
  obtain ⟨k, hsingle, hk⟩ := hinv.token
  cases hsingle with
  | lies hlying _ =>
    obtain ⟨x, hstate, hposted⟩ := turn_of_tokens hlying hk
    exact .inr ⟨x, hstands.state.symm.trans hstate, nobody_sleeps_on h hstands hrest x hposted⟩
  | carriedBy t _ ht _ =>
    refine .inl ⟨t, fun hheld => ?_⟩
    -- a thread that rests carries no token but that of an operation
    obtain ⟨call, hop, hpc⟩ := pc_of_rest h hstands hsound hrest t
    rw [← place_held Tid, ← hstands.locals t] at hheld
    rw [Thread.tokens, hheld, hpc, (Call.of_wait hop).1] at ht
    cases ht

/-- Thread `true` sleeps in a start of B. -/
theorem turn_is_not_slept_through_waiting :
    ∃ (w : List (Bool × CodeEvent)) (c : CodeConfig Bool),
      Run (CodeStep NoCancel) (codeInitial Bool) w c ∧ FutexCode.Asleep c .aFinished true ∧
        (∀ t, Rests c t) ∧
        ((∃ t, (c.locals t).here.held ≠ []) ∨
          ∃ x : Side, c.shared.1 = x.expected ∧ (c.shared.2 x.futex).val = FutexCode.kPosted ∧
            ∀ t, ¬ FutexCode.Asleep c x.futex t) := by
  have h : ∃ c : CodeConfig Bool, Run (CodeStep NoCancel) (codeInitial Bool)
      [(true, .invoke (.startWait .b)), (true, .object (.startWait .b) (.code .waitReady)),
        (true, .object (.startWait .b) (.code .futexSleep))] c ∧
      c.locals false = ⟨.init, none⟩ ∧
      c.locals true = ⟨.init, some (.startWait .b, .inKernel)⟩ ∧
      (c.shared.2 .aFinished).queue = [true] := by
    refine ⟨_,
      .cons (.mk trivial (.invoke rfl)) <|
      .cons (.mk trivial (.object rfl (.code (.waitReady trivial rfl)) (.inside nofun))) <|
      .single (.mk trivial (.object rfl (.code (.futexSleep rfl)) (.inside nofun))), ?_⟩
    exact ⟨rfl, rfl, rfl⟩
  obtain ⟨c, hrun, hfalse, htrue, hqueue⟩ := h
  have hasleep : FutexCode.Asleep c .aFinished true := by
    unfold FutexCode.Asleep
    rw [hqueue]
    exact List.mem_singleton_self _
  have hrest : ∀ t, Rests c t := by
    intro t
    unfold Rests FutexCode.AtRest
    cases t with
    | false =>
      rw [hfalse]
      exact ⟨.inl rfl, fun _ => rfl⟩
    | true =>
      rw [htrue]
      exact ⟨.inr ⟨_, rfl, hasleep⟩, nofun⟩
  exact ⟨_, c, hrun, hasleep, hrest, turn_is_not_slept_through hrun hrest⟩

/-- **A cancellation leaves nobody asleep.**  In every state that any number of threads can
bring a cancelled lockstep into, if no `Reset` has made a step since the last `Cancel`: once
every thread is between two calls of the lockstep or asleep in one, every thread is between
two calls. -/
theorem cancel_leaves_nobody_asleep (h : Run (CodeStep Pool.free) (codeInitial Tid) w c)
    (hstate : c.shared.1 = .cancelled) (hreset : undisturbed (w.filterMap shown) = true)
    (hrest : ∀ t, Rests c t) : ∀ t, (c.locals t).inside = none := by
  obtain ⟨d, hrun, hstands, hsound⟩ := code_refines transfers_free h
  have hposted : ∀ x : Side, x.awaited d.shared = .posted := by
    intro x
    obtain hposted | ⟨u, hu⟩ := (cancelInv_run hrun).served hreset (hstands.state.trans hstate) x
    · exact hposted
    · -- who rests is not about to post anything
      obtain ⟨k, hop, hpc⟩ := pc_of_rest h hstands hsound hrest u
      rw [hpc] at hu
      exact absurd hu ((Call.of_wait hop).2 x)
  intro t
  obtain hnone | ⟨k, hk, hasleep⟩ := (hrest t).1
  · exact hnone
  · have hside : ∃ x : Side, program.object k = x.futex := by
      cases hf : program.object k with
      | aFinished => exact ⟨.b, rfl⟩
      | bFinished => exact ⟨.a, rfl⟩
    obtain ⟨x, hx⟩ := hside
    exact absurd (hx ▸ hasleep) ((nobody_sleeps_on h hstands hrest x (hposted x)).2 t)

/-- Thread `true` sleeps in a start of B when thread `false` cancels. -/
theorem cancel_leaves_nobody_asleep_woken :
    ∃ (w : List (Bool × CodeEvent)) (c : CodeConfig Bool),
      Run (CodeStep Pool.free) (codeInitial Bool) w c ∧ c.shared.1 = .cancelled ∧
        (true, .object (.startWait .b) (.code .futexSleep)) ∈ w ∧
        ∀ t, (c.locals t).inside = none := by
  have h : ∃ c : CodeConfig Bool, Run (CodeStep Pool.free) (codeInitial Bool)
      [(true, .invoke (.startWait .b)), (true, .object (.startWait .b) (.code .waitReady)),
        (true, .object (.startWait .b) (.code .futexSleep)), (false, .own .cancelStore),
        (false, .invoke .cancelPostA), (false, .object .cancelPostA (.code .postEdge)),
        (false, .object .cancelPostA (.code .postWake)), (false, .invoke .cancelPostB),
        (false, .object .cancelPostB (.code .postNoop)),
        (true, .object (.startWait .b) (.code .futexReturned)),
        (true, .object (.startWait .b) (.code .waitTaken)), (true, .own (.startCancelled .b)),
        (true, .invoke (.startRepost .b)), (true, .object (.startRepost .b) (.code .postEdge)),
        (true, .object (.startRepost .b) (.code .postWake))] c ∧
      c.shared.1 = .cancelled ∧ ∀ t, c.locals t = ⟨.init, none⟩ := by
    refine ⟨_,
      .cons (.mk trivial (.invoke rfl)) <|
      .cons (.mk trivial (.object rfl (.code (.waitReady trivial rfl)) (.inside nofun))) <|
      .cons (.mk trivial (.object rfl (.code (.futexSleep rfl)) (.inside nofun))) <|
      .cons (.mk trivial (.own ⟨rfl, fun _ _ => .cancelStore rfl⟩)) <|
      .cons (.mk trivial (.invoke rfl)) <|
      .cons (.mk trivial (.object rfl (.code (.postEdge rfl)) (.inside nofun))) <|
      .cons (.mk trivial (.object rfl (.code (.postWake true (List.mem_cons_self ..)))
        (.back rfl rfl))) <|
      .cons (.mk trivial (.invoke rfl)) <|
      .cons (.mk trivial (.object rfl (.code (.postNoop (by decide))) (.back rfl rfl))) <|
      .cons (.mk trivial (.object rfl (.code (.futexReturned nofun)) (.inside nofun))) <|
      .cons (.mk trivial (.object rfl (.code (.waitTaken trivial rfl)) (.back rfl rfl))) <|
      .cons (.mk trivial (.own ⟨rfl, fun _ _ => .startCancelled .b rfl rfl⟩)) <|
      .cons (.mk trivial (.invoke rfl)) <|
      .cons (.mk trivial (.object rfl (.code (.postEdge rfl)) (.inside nofun))) <|
      .single (.mk trivial (.object rfl (.code (.postWakeNobody rfl)) (.back rfl rfl))), ?_⟩
    exact ⟨rfl, fun t => by cases t <;> rfl⟩
  obtain ⟨c, hrun, hstate, hlocals⟩ := h
  have hrest : ∀ t, Rests c t := by
    intro t
    unfold Rests FutexCode.AtRest
    rw [hlocals t]
    exact ⟨.inl rfl, fun _ => rfl⟩
  exact ⟨_, c, hrun, hstate, by simp, cancel_leaves_nobody_asleep hrun hstate rfl hrest⟩

end Sleepers

end Intrinsic.Lockstep
