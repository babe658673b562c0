import IconSharedMemory.AtomicObjects
import IconSharedMemory.FutexCode

/-! # Programs that call futexes

Everything that synchronises threads or processes here is a program over `BinaryFutex`es.
The code of a futex is an implementation of the one-step futex of `Futex.lean` in the sense
of `AtomicObjects`: a wait is decided by its last `TryWait`, or by the system call it gives
up with, and a `Post` by its compare-exchange, before it wakes anybody up (`linearization`).
So what is proved about a program over one-step futexes holds for the program as it runs.

What the one-step futex cannot say is who sleeps.  The wake-up invariant of the code holds for
each futex of a program, and it has one consequence that programs need: when every thread
is between calls or asleep, nobody sleeps on a futex with a token in it (`nobody_sleeps`).
-/
namespace Intrinsic.FutexCode
open Runs AtomicObjects

/-! ## The calls -/

/-- The operations that programs call.  Only the destructor calls `Close`. -/
inductive Op
  | wait | tryWait | post | value
  deriving DecidableEq, Repr

/-- The steps of the calls: those of the code, and the load of `Value()`. -/
inductive Access
  | code (l : Label)
  | value (v : UInt32)
  deriving DecidableEq, Repr

/-- What the calls return. -/
inductive Outcome
  | result (r : Result)
  | value (v : UInt32)
  deriving DecidableEq, Repr

/-- The status of a call that returns one. -/
def Outcome.status : Outcome → RealtimeStatus
  | .result (.status st) => st
  | _ => rtOkStatus

/-- The call a step belongs to. -/
def Label.op : Label → Option Op
  | .waitTaken | .waitReady | .waitClosed | .waitUnexpected _ | .waitClockFailed _ | .futexSleep
  | .futexAgain | .futexTimedOut _ | .futexInterrupted | .futexFailed _ | .futexReturned =>
    some .wait
  | .tryTaken | .tryReady | .tryClosed => some .tryWait
  | .postEdge | .postNoop | .postClosed | .postWake => some .post
  | .close _ | .closeWake => none

section Implementation
variable {Tid : Type} [DecidableEq Tid]

/-- One atomic step of a call. -/
inductive AccessAtom (t : Tid) : Shared Tid → Pc → Access → Shared Tid → Pc → Prop
  | code {s s' : Shared Tid} {pc pc' : Pc} {l : Label} (h : Atom t s pc l s' pc') :
      AccessAtom t s pc (.code l) s' pc'
  | value {s : Shared Tid} : AccessAtom t s .idle (.value s.val) s .idle

/-- **A futex as an object of programs.** -/
def implementation (Tid : Type) [DecidableEq Tid] :
    Implementation Tid Op Outcome (Shared Tid) Pc Access where
  atom := AccessAtom
  idle := .idle
  op
    | .code l => l.op
    | .value _ => some .value
  returns
    | .code l => l.returns.map .result
    | .value v => some (.value v)

end Implementation

/-- The one-step futex. -/
def spec : Op → BinaryFutex → BinaryFutex → Outcome → Prop
  | .wait, f, f', r => ∃ st, r = .result (.status st) ∧ f.Wait f' st
  | .tryWait, f, f', r => ∃ taken, r = .result (.token taken) ∧ f.tryWait = (f', taken)
  | .post, f, f', r => ∃ st, r = .result (.status st) ∧ f.post = (f', st)
  | .value, f, f', r => f' = f ∧ r = .value (word f)

/-- The futex that a word stands for. -/
def futexOf (v : UInt32) : BinaryFutex :=
  if v = kReady then .ready else if v = kPosted then .posted else .closed

theorem futexOf_word (f : BinaryFutex) : futexOf (word f) = f := by
  cases f <;> rfl

/-! ## The code is linearizable -/

/-- The steps that decide what a call returns.  The wake-up of a `Post` decides nothing. -/
def decides : Access → Option Outcome
  | .code .postEdge => some (.result (.status rtOkStatus))
  | .code .postWake => none
  | .code l => l.returns.map .result
  | .value v => some (.value v)

/-- A `Post` that is going to wake up somebody has been decided. -/
def settled : Pc → Option Outcome
  | .postWake => some (.result (.status rtOkStatus))
  | _ => none

theorem Pc.tries.settled {pc : Pc} (h : pc.tries) : settled pc = none := by
  cases pc <;> first | rfl | exact h.elim

section Linearizable
variable {Tid : Type} [DecidableEq Tid] {t : Tid} {s s' : Shared Tid} {pc pc' : Pc} {l : Label}
  {op : Op} {f : BinaryFutex}

/-- A step of the code does to the one-step futex what its label says, and at most one step
of a call does anything. -/
theorem Atom.moves (h : Atom t s pc l s' pc') (hop : l.op = some op) (hf : s.val = word f) :
    Moves (implementation Tid) spec (fun s f => s.val = word f) settled op f pc (.code l) s' pc'
      (decides (.code l)) := by
  obtain ⟨f', hf', hdoes⟩ := h.refines hf
  cases h with
  | waitTaken htries _ | waitClosed htries _ | waitUnexpected htries _ =>
    obtain rfl := Option.some.inj hop
    obtain ⟨st, hst, hwait⟩ := hdoes
    obtain rfl := Result.status.inj (Option.some.inj hst)
    exact .decides htries.settled ⟨_, rfl, hwait⟩ hf' (fun _ => rfl) (absurd rfl)
  | waitClockFailed | futexTimedOutAtOnce | futexTimedOut | futexFailed =>
    obtain rfl := Option.some.inj hop
    obtain ⟨st, hst, hwait⟩ := hdoes
    obtain rfl := Result.status.inj (Option.some.inj hst)
    exact .decides rfl ⟨_, rfl, hwait⟩ hf' (fun _ => rfl) (absurd rfl)
  | tryTaken | tryReady | tryClosed =>
    obtain rfl := Option.some.inj hop
    obtain ⟨taken, htaken, htry⟩ := hdoes
    obtain rfl := Result.token.inj (Option.some.inj htaken)
    exact .decides rfl ⟨_, rfl, htry⟩ hf' (fun _ => rfl) (absurd rfl)
  | postNoop | postClosed =>
    obtain rfl := Option.some.inj hop
    obtain ⟨st, hst, hpost⟩ := hdoes
    obtain rfl := Result.status.inj (Option.some.inj hst)
    exact .decides rfl ⟨_, rfl, hpost⟩ hf' (fun _ => rfl) (absurd rfl)
  | postEdge =>
    obtain rfl := Option.some.inj hop
    exact .decides rfl ⟨_, rfl, hdoes⟩ hf' nofun fun _ => rfl
  | postWakeNobody | postWake =>
    obtain rfl : f' = f := hdoes
    exact .after rfl hf' (fun _ => rfl) (absurd rfl)
  | waitReady htries _ =>
    obtain rfl : f' = f := hdoes
    exact .before htries.settled hf' nofun rfl
  | futexSleep | futexAgain | futexInterruptedAtOnce | futexInterrupted | futexReturned =>
    obtain rfl : f' = f := hdoes
    exact .before rfl hf' nofun rfl
  | close | closeWake => cases hop

end Linearizable

/-- **The code of a futex is linearizable.** -/
def linearization (Tid : Type) [DecidableEq Tid] : Linearization (implementation Tid) spec where
  value s f := s.val = word f
  decides := decides
  settled := settled
  idle := rfl
  moves hatom hop hv := by
    cases hatom with
    | code h => exact h.moves hop hv
    | value =>
      obtain rfl := Option.some.inj hop
      exact .decides rfl ⟨rfl, congrArg Outcome.value hv⟩ hv (fun _ => rfl) (absurd rfl)

/-! ## Who sleeps -/

section Sleepers
variable {Tid Own Local Obj Call Shown : Type} [DecidableEq Tid] [DecidableEq Obj]
  {P : Program Own Local Obj Op Outcome Call Shown} {w : List (Tid × Event Shown Call Access)}
  {ok : CodePool Tid Own Local Obj Call (Shared Tid) Pc → Tid → Event Shown Call Access → Prop}
  {c c₀ : CodePool Tid Own Local Obj Call (Shared Tid) Pc} {o : Obj} {posted : Bool}

/-- The wake-up invariant holds for each futex of a program. -/
theorem wakeInv_object (h₀ : alone P (implementation Tid) o c₀ = initial Tid posted)
    (h : Run (P.Step (implementation Tid) ok) c₀ w c) :
    WakeInv (alone P (implementation Tid) o c) := by
  refine (object_run o h).stateInvariant (I := WakeInv) (h₀ ▸ wakeInv_initial posted) ?_
  rintro c ⟨t, a⟩ d hinv hstep
  cases hstep with
  | mk _ hatom =>
    generalize hpc : c.locals t = pc at hatom
    cases hatom with
    | code hatom => exact hinv.atom hpc hatom
    | value =>
      rw [← hpc, Function.update_eq_self]
      exact hinv

/-- Who sleeps on a futex is in a call of it. -/
theorem inside_of_asleep {t : Tid} (h₀ : alone P (implementation Tid) o c₀ = initial Tid posted)
    (h : Run (P.Step (implementation Tid) ok) c₀ w c) (ht : t ∈ (c.shared.2 o).queue) :
    ∃ k, (c.locals t).inside = some (k, .inKernel) ∧ P.object k = o := by
  have hat : (c.locals t).at P (implementation Tid) o = .inKernel :=
    (wakeInv_object h₀ h).asleep t ht
  unfold Frame.at at hat
  cases hinside : (c.locals t).inside with
  | none =>
    rw [hinside] at hat
    cases hat
  | some x =>
    obtain ⟨k, pc⟩ := x
    rw [hinside] at hat
    dsimp only at hat
    split at hat
    · exact ⟨k, by rw [hat], ‹_›⟩
    · cases hat

/-- The operation a thread can be in at a place in the code. -/
def Pc.Within (op : Op) : Pc → Prop
  | .idle => True
  | .futexWait | .inKernel | .woken | .again => op = .wait
  | .postWake => op = .post
  | .closeWake => False

omit [DecidableEq Obj] in
theorem AccessAtom.within {t : Tid} {s s' : Shared Tid} {pc pc' : Pc} {a : Access} {op : Op}
    (h : AccessAtom t s pc a s' pc') (hop : (implementation Tid).op a = some op) :
    pc'.Within op := by
  cases h with
  | value => trivial
  | code h => cases h <;> first | trivial | exact (Option.some.inj hop).symm

/-- A thread in a call is at a place of the operation it has called. -/
theorem within_run (h₀ : ∀ t, (c₀.locals t).inside = none)
    (h : Run (P.Step (implementation Tid) ok) c₀ w c) :
    ∀ t k pc, (c.locals t).inside = some (k, pc) → pc.Within (P.op k) := by
  refine h.stateInvariant (I := fun c => ∀ t k pc, (c.locals t).inside = some (k, pc) →
    pc.Within (P.op k)) (fun t k pc ht => ?_) ?_
  · rw [h₀ t] at ht
    cases ht
  · rintro c ⟨t, e⟩ d hinv hstep
    cases hstep with
    | @mk _ _ y f _ hatom =>
      refine forall_update (fun f : Frame Local Call Pc => ∀ k pc, f.inside = some (k, pc) →
        pc.Within (P.op k)) ?_ fun u _ => hinv u
      generalize c.locals t = before at hatom
      generalize c.shared = s at hatom
      cases hatom with
      | own _ => exact nofun
      | invoke _ =>
        rintro k pc ⟨⟩
        trivial
      | object hop hatom hlands =>
        cases hlands with
        | inside _ =>
          rintro k pc ⟨⟩
          exact hatom.within hop
        | back _ _ => exact nofun

/-- The thread sleeps on the futex. -/
def Asleep (c : CodePool Tid Own Local Obj Call (Shared Tid) Pc) (o : Obj) (t : Tid) : Prop :=
  t ∈ (c.shared.2 o).queue

/-- The thread is between two calls, or it sleeps in one. -/
def AtRest (P : Program Own Local Obj Op Outcome Call Shown)
    (c : CodePool Tid Own Local Obj Call (Shared Tid) Pc) (t : Tid) : Prop :=
  (c.locals t).inside = none ∨
    ∃ k, (c.locals t).inside = some (k, .inKernel) ∧ Asleep c (P.object k) t

omit [DecidableEq Obj] in
/-- A thread at rest has not been decided anything. -/
theorem AtRest.place {t : Tid} (h : AtRest P c t) :
    (linearization Tid).place P (c.locals t) = (c.locals t).here := by
  unfold Linearization.place
  obtain hnone | ⟨k, hk, -⟩ := h
  · rw [hnone]
  · rw [hk]
    rfl

theorem AtRest.not_awake {t : Tid} (h : AtRest P c t) :
    ((c.locals t).at P (implementation Tid) o = .idle) ∨
      ((c.locals t).at P (implementation Tid) o = .inKernel ∧ Asleep c o t) := by
  obtain ⟨s, locals⟩ := c
  rcases h with h | ⟨k, hk, hasleep⟩
  · left
    rw [Frame.at, h]
    rfl
  · by_cases ho : P.object k = o
    · right
      rw [Frame.at, hk]
      exact ⟨if_pos ho, ho ▸ hasleep⟩
    · left
      rw [Frame.at, hk]
      exact if_neg ho

/-- **Nobody sleeps on a futex with a token in it, or on a closed one**, once every thread is
at rest. -/
theorem nobody_sleeps (h₀ : alone P (implementation Tid) o c₀ = initial Tid posted)
    (h : Run (P.Step (implementation Tid) ok) c₀ w c) (hrest : ∀ t, AtRest P c t)
    (hval : (c.shared.2 o).val ≠ kReady) : ∀ t, ¬ Asleep c o t := by
  have hinv := wakeInv_object h₀ h
  intro t ht
  have hne : (c.shared.2 o).queue ≠ [] := List.ne_nil_of_mem ht
  obtain ⟨f, hf⟩ := hinv.word
  cases f with
  | ready => exact hval hf
  | posted =>
    obtain ⟨u, hu⟩ := hinv.posted hf hne
    obtain hat | ⟨hat, hasleep⟩ := (hrest u).not_awake (o := o)
    · rcases hu with hu | hu | ⟨hu, -⟩ <;> cases hat.symm.trans hu
    · rcases hu with hu | hu | ⟨-, hnot⟩
      · cases hat.symm.trans hu
      · cases hat.symm.trans hu
      · exact hnot hasleep
  | closed =>
    obtain ⟨u, hu⟩ := hinv.closed hf hne
    obtain hat | ⟨hat, -⟩ := (hrest u).not_awake (o := o) <;> cases hat.symm.trans hu

end Sleepers

end Intrinsic.FutexCode
