import IconSharedMemory.PromiseAttach
import IconSharedMemory.PromiseTransfer

/-! # Cancelling a promise context

`Cancel` sets the cancellation flag and then posts `has_value_`, so that a
consumer that looked at the flag before and is about to block finds a token.
Every call that begins later looks at the flag first.  The flag is cleared by
`Reset` only, as its last change.

Before that `Reset` drains `has_value_`.  It has waited for the future to be
detached, so nobody can be blocked on the token it takes, unless the wait was
satisfied by the token of an earlier future: then the consumer of the present one
sleeps on, cancelled and without a token (`cancelled_and_stuck`).  When handles are
acquired cleanly this cannot happen, and a cancellation reaches both sides
(`cancellation_reaches_both_sides`).
-/
namespace Intrinsic.Promise
open Runs

variable {Tid α : Type} {movedFrom : α → α} {c c' : Context α} {th th' : Thread α} {l : Label α}
  {s : Side} {t u : Tid}

/-- `FuturePromiseContext::HasValue()`: the second load is only made when the first
one did not see a cancellation. -/
def Context.queryHasValue (c : Context α) : Except RealtimeStatus Bool :=
  if c.isCancelled then
    .error (formatRealtimeStatus .cancelled (ascii "Context was cancelled."))
  else .ok !c.buffer.empty

/-- A call of `Reset` is in progress. -/
def Pc.inReset : Pc α → Bool
  | .resetLock _ | .resetLoad _ | .resetWait _ | .resetEmpty | .resetMove | .resetDrop _
  | .resetHasValue | .resetDetached _ | .resetStore | .resetUnlock _ _ => true
  | _ => false

/-! ## The flag -/

/-- The flag is cleared by `Reset` only. -/
theorem Atom.stays_cancelled (h : Atom movedFrom c th l c' th') (hpc : th.pc ≠ .resetStore)
    (hcancel : c.isCancelled = true) : c'.isCancelled = true := by
  cases h with
  | resetStore hstore => exact absurd hstore hpc
  | cancelStore | destroyStart => rfl
  | _ => exact hcancel

/-- `Cancel` is in progress, and once it has stored its flag the flag is set. -/
def InCancel (c : Context α) (pc : Pc α) : Prop :=
  pc = .cancelStore ∨ c.isCancelled = true ∧ (pc = .cancelUnlock ∨ pc = .cancelPost)

theorem Atom.inCancel_of_started (h : Atom movedFrom c th .cancelStarted c' th') :
    InCancel c' th'.pc := by
  generalize hl : Label.cancelStarted = l at h
  cases h with
  | cancelLock => exact .inl rfl
  | detachNull s k => cases k <;> cases hl
  | _ => cases hl

theorem Atom.inCancel (h : Atom movedFrom c th l c' th') :
    InCancel c th.pc → (∃ st, l = .cancelReturned st) ∨ InCancel c' th'.pc := by
  cases h with
  | cancelStore => exact fun _ => .inr (.inr ⟨rfl, .inl rfl⟩)
  | cancelUnlock hpc =>
    rw [hpc]
    rintro (hin | ⟨hcancel, -⟩)
    · cases hin
    · exact .inr (.inr ⟨hcancel, .inr rfl⟩)
  | cancelNotUnlocked | cancelPost => exact fun _ => .inl ⟨_, rfl⟩
  -- no other step belongs to `Cancel`
  | _ =>
    rw [‹th.pc = _›]
    rintro (hin | ⟨-, hin | hin⟩) <;> cases hin

/-- A `Cancel` that returns ok has set its flag and posted the token. -/
theorem Atom.cancelled_of_returned {st : RealtimeStatus}
    (h : Atom movedFrom c th (.cancelReturned st) c' th') (hin : InCancel c th.pc)
    (hst : st.isOk = true) (hclosed : c.hasValue ≠ .closed) :
    c'.isCancelled = true ∧ c'.hasValue = .posted := by
  generalize hl : Label.cancelReturned st = l at h
  revert hin
  cases h with
  | cancelPost hpc =>
    rw [hpc]
    rintro (hin | ⟨hcancel, -⟩)
    · cases hin
    · refine ⟨hcancel, ?_⟩
      show c.hasValue.post.1 = .posted
      rw [BinaryFutex.post_of_not_closed hclosed]
  | cancelNotUnlocked hpc hunlock =>
    obtain rfl := Label.cancelReturned.inj hl
    rw [hst] at hunlock
    cases hunlock
  | cancelBusy hpc =>
    rw [hpc]
    rintro (hin | ⟨-, hin | hin⟩) <;> cases hin
  | detachNull s k => cases k <;> cases hl
  | _ => cases hl

/-! ## Refused calls -/

/-- The thread is not in a `Set`, `Get`, `Peek` or `WaitUntil` that found the flag
false. -/
def Pc.Refusing : Pc α → Prop
  | .setPrepare _ | .setWrite _ _ | .setFinish _ _ | .setPost _ | .setUnlock _ _ | .getMove
  | .getDrop _ | .getTryWait _ | .getUnlock _ | .peekFront | .peekKeep _ | .peekCopy _
  | .waitEmpty | .waitFutex | .waitLoad => False
  | .setUnlockFailed _ st => st = Side.promise.wasCancelled
  | .getUnlockFailed st => st = Side.future.wasCancelled
  | .detachExchange _ k | .detachPost _ k | .detachNull _ k _ => k = .destroy
  | _ => True

theorem Atom.refusing (h : Atom movedFrom c th l c' th') (hcancel : c.isCancelled = true)
    (href : th.pc.Refusing) : th'.pc.Refusing := by
  cases h with
  | setCancelled | getCancelled | detachStart => exact rfl
  | setLoad v hpc hfalse => rw [hcancel] at hfalse; cases hfalse
  | getLoad hpc hfalse => rw [hcancel] at hfalse; cases hfalse
  | peekLoad hpc hhere hfalse => rw [hcancel] at hfalse; cases hfalse
  | waitStart hpc hhere hfalse => rw [hcancel] at hfalse; cases hfalse
  | detachExchange s k hpc | detachNothing s k hpc | detachPost s k hpc =>
    rw [hpc] at href
    exact href
  | setFull _ hpc | setPrepare _ _ hpc | setWrite _ _ hpc | setFinish _ _ hpc | setPost _ hpc
  | setUnlockDetach _ _ hpc | getMove _ hpc | getDrop _ hpc | getTryWait _ hpc
  | getUnlockDetach _ hpc | peekFront _ hpc | peekKeep _ hpc | waitFutex _ _ hpc =>
    rw [hpc] at href
    exact href.elim
  | getEmpty hpc | waitEmpty hpc =>
    rw [hpc] at href
    exact href.elim
  | resetLock k => cases k <;> trivial
  | resetLoadFalse r | resetWait r | resetDetached r | destroyLoadFalse r | destroyWait r =>
    cases r <;> trivial
  | acquireBusy | setNotAttached | setBusy | getNotAttached | getBusy | peekNotAttached
  | peekCancelled | waitNotAttached | waitCancelled | cancelBusy => exact href
  | _ => trivial

/-- A step returns from `Set`, `Get`, `Peek` or `WaitUntil`. -/
def Label.replies : Label α → Bool
  | .setReturned _ _ | .getReturned _ | .peekReturned _ | .waitReturned _ => true
  | _ => false

/-- **What a refused caller sees**: on an attached handle every return says
`kCancelled`, and the queue is left alone. -/
structure Refused (c : Context α) (th : Thread α) (l : Label α) (c' : Context α) : Prop where
  set : ∀ v st, l = .setReturned v st → (th.handle .promise).here = true → st.code = .cancelled
  get : ∀ r, l = .getReturned r → (th.handle .future).here = true →
    ∃ st, r = .error st ∧ st.code = .cancelled
  peek : ∀ r, l = .peekReturned r → (th.handle .future).here = true →
    ∃ st, r = .error st ∧ st.code = .cancelled
  wait : ∀ st, l = .waitReturned st → (th.handle .future).here = true → st.code = .cancelled
  /-- Only a `Reset` of the thread's own changes the queue. -/
  unchanged : c'.buffer = c.buffer ∨ th.pc.inReset = true

theorem Refused.silent (hl : l.replies = false)
    (hbuffer : c'.buffer = c.buffer ∨ th.pc.inReset = true) : Refused c th l c' := by
  refine ⟨?_, ?_, ?_, ?_, hbuffer⟩
  · rintro v st rfl; cases hl
  · rintro r rfl; cases hl
  · rintro r rfl; cases hl
  · rintro st rfl; cases hl

theorem Refused.ofSet {v : α} {st : RealtimeStatus}
    (h : (th.handle .promise).here = true → st.code = .cancelled)
    (hbuffer : c'.buffer = c.buffer) : Refused c th (.setReturned v st) c' := by
  refine ⟨?_, nofun, nofun, nofun, .inl hbuffer⟩
  rintro v' st' ⟨⟩
  exact h

theorem Refused.ofGet {st : RealtimeStatus}
    (h : (th.handle .future).here = true → st.code = .cancelled)
    (hbuffer : c'.buffer = c.buffer) : Refused c th (.getReturned (.error st)) c' := by
  refine ⟨nofun, ?_, nofun, nofun, .inl hbuffer⟩
  rintro r ⟨⟩ hhere
  exact ⟨st, rfl, h hhere⟩

theorem Refused.ofPeek {st : RealtimeStatus}
    (h : (th.handle .future).here = true → st.code = .cancelled)
    (hbuffer : c'.buffer = c.buffer) : Refused c th (.peekReturned (.error st)) c' := by
  refine ⟨nofun, nofun, ?_, nofun, .inl hbuffer⟩
  rintro r ⟨⟩ hhere
  exact ⟨st, rfl, h hhere⟩

theorem Refused.ofWait {st : Status}
    (h : (th.handle .future).here = true → st.code = .cancelled)
    (hbuffer : c'.buffer = c.buffer) : Refused c th (.waitReturned st) c' := by
  refine ⟨nofun, nofun, nofun, ?_, .inl hbuffer⟩
  rintro st' ⟨⟩
  exact h

theorem Atom.refused (h : Atom movedFrom c th l c' th') (href : th.pc.Refusing)
    (hunlock : ∀ k ∈ th.pc.locks, (c.unlockStatus k).isOk = true) : Refused c th l c' := by
  cases h with
  | setNotAttached v _ hhere => exact .ofSet (fun h => by rw [hhere] at h; cases h) rfl
  | getNotAttached _ hhere => exact .ofGet (fun h => by rw [hhere] at h; cases h) rfl
  | peekNotAttached _ hhere => exact .ofPeek (fun h => by rw [hhere] at h; cases h) rfl
  | waitNotAttached _ hhere => exact .ofWait (fun h => by rw [hhere] at h; cases h) rfl
  | setBusy => exact .ofSet (fun _ => rfl) rfl
  | getBusy => exact .ofGet (fun _ => rfl) rfl
  | peekCancelled => exact .ofPeek (fun _ => rfl) rfl
  | waitCancelled => exact .ofWait (fun _ => rfl) rfl
  | setUnlockFailed v st hpc =>
    have hok := hunlock .writeValue (by rw [hpc]; exact List.mem_singleton.mpr rfl)
    rw [hpc] at href
    obtain rfl : st = Side.promise.wasCancelled := href
    refine .ofSet (fun _ => ?_) rfl
    rw [overwriteIfNotError, if_pos hok]
    rfl
  | getUnlockFailed st hpc =>
    have hok := hunlock .readValue (by rw [hpc]; exact List.mem_singleton.mpr rfl)
    rw [hpc] at href
    obtain rfl : st = Side.future.wasCancelled := href
    refine .ofGet (fun _ => ?_) rfl
    rw [overwriteIfNotError, if_pos hok]
    rfl
  | detachNull s k st hpc =>
    rw [hpc] at href
    obtain rfl : k = .destroy := href
    exact .silent rfl (.inl rfl)
  | setPrepare _ _ hpc | setWrite _ _ hpc | setFinish _ _ hpc | setNotUnlocked _ _ hpc
  | setUnlock _ _ hpc | getMove _ hpc | getDrop _ hpc | getNotUnlocked _ hpc | getUnlock _ hpc
  | peekFront _ hpc | peekKeep _ hpc | peekCopy _ hpc | waitFailed _ _ hpc =>
    rw [hpc] at href
    exact href.elim
  | peekEmpty hpc | waitHasValue hpc | waitLoadCancelled hpc | waitLoad hpc =>
    rw [hpc] at href
    exact href.elim
  | resetMove _ hpc | resetDrop _ hpc => exact .silent rfl (.inr (by rw [hpc]; rfl))
  | _ => exact .silent rfl (.inl rfl)

/-! ## Waiting consumers -/

/-- `WaitUntil` has seen the flag false and is going to wait for a token. -/
def Pc.waits : Pc α → Bool
  | .waitEmpty | .waitFutex => true
  | _ => false

theorem Pc.uses_of_waits {pc : Pc α} (h : pc.waits = true) :
    pc.uses .future = true ∧ pc.detaching .future = false := by
  cases pc with
  | waitEmpty | waitFutex => exact ⟨rfl, rfl⟩
  | _ => cases h

theorem Atom.waits_of (h : Atom movedFrom c th l c' th') (hcancel : c.isCancelled = true)
    (hw : th'.pc.waits = true) : th.pc.waits = true := by
  cases h with
  | waitStart hpc hhere hfalse => rw [hcancel] at hfalse; cases hfalse
  | waitEmpty hpc => rw [hpc]; rfl
  | resetLock k => cases k <;> cases hw
  | resetLoadFalse r | resetWait r | resetDetached r | destroyLoadFalse r | destroyWait r =>
    cases r <;> cases hw
  | acquireBusy | setNotAttached | setBusy | getNotAttached | getBusy | peekNotAttached
  | peekCancelled | waitNotAttached | waitCancelled | cancelBusy => exact hw
  | _ => cases hw

/-- The token of `has_value_` is taken by the consumer, who then does not wait, or
by `Reset`. -/
theorem Atom.takes_token (h : Atom movedFrom c th l c' th') (hp : c.hasValue = .posted)
    (hp' : c'.hasValue ≠ .posted) :
    (th.pc.uses .future = true ∧ th.pc.detaching .future = false ∧ th'.pc.waits = false) ∨
      th.pc = .resetHasValue := by
  cases h with
  | getTryWait v hpc => exact .inl (by rw [hpc]; exact ⟨rfl, rfl, rfl⟩)
  | waitFutex f st hpc => exact .inl (by rw [hpc]; exact ⟨rfl, rfl, rfl⟩)
  | waitFailed f st hpc hwait hst => exact absurd ((hwait.notOk hst).trans hp) hp'
  | resetHasValue hpc => exact .inr hpc
  | setPost | cancelPost | destroyPost =>
    refine absurd ?_ hp'
    show c.hasValue.post.1 = .posted
    rw [hp]
    rfl
  | _ => exact absurd hp hp'

/-- **A consumer that is going to block finds a token.** -/
def Wakeful (c : Config Tid α) : Prop :=
  ∀ u, (c.locals u).pc.waits = true → c.shared.hasValue = .posted

/-- The step does not clear the cancellation flag. -/
def NotClearing (c : Config Tid α) (t : Tid) (_l : Label α) : Prop :=
  (c.locals t).pc ≠ .resetStore

/-- No `Reset` is in progress and none begins. -/
def NoReset (c : Config Tid α) (_t : Tid) (l : Label α) : Prop :=
  (∀ u, (c.locals u).pc.inReset = false) ∧ l ≠ .resetStarted

theorem NoReset.notClearing {c : Config Tid α} (h : NoReset c t l) : NotClearing c t l := by
  intro hpc
  have hreset := h.1 t
  rw [hpc] at hreset
  cases hreset

theorem AttachInv.consumer {c : Config Tid α} (h : AttachInv c)
    (hu : (c.locals t).pc.uses .future = true) (hd : (c.locals t).pc.detaching .future = false) :
    (c.locals t).Attached .future :=
  .inr ⟨h.uses t .future hu, hd⟩

variable [DecidableEq Tid]

/-- Cancelled, with every consumer able to find out. -/
structure CancelInv (c : Config Tid α) : Prop where
  base : Inv c ∧ Clean c ∧ Settled c
  flag : c.shared.isCancelled = true
  wakeful : Wakeful c

theorem Wakeful.atom {c : Config Tid α} {sh : Context α} (h : CancelInv c)
    (hatom : Atom movedFrom c.shared (c.locals t) l sh th') :
    Wakeful ⟨sh, Function.update c.locals t th'⟩ := by
  intro u hu
  obtain ⟨hinv, -, hsettled⟩ := h.base
  -- the thread was going to block before the step, and found a token then
  have hwas : (c.locals u).pc.waits = true := by
    rcases of_update (P := fun th : Thread α => th.pc.waits = true) hu with ⟨rfl, hw⟩ | ⟨-, hw⟩
    · exact hatom.waits_of h.flag hw
    · exact hw
  obtain ⟨huses, hdet⟩ := Pc.uses_of_waits hwas
  have hattached := hinv.attach.consumer huses hdet
  by_contra hgone
  rcases hatom.takes_token (h.wakeful u hwas) hgone with ⟨huses', hdet', hleft⟩ | hpc
  · -- only the consumer itself can have taken it
    have hattached' := hinv.attach.consumer huses' hdet'
    obtain rfl := (hinv.attach.owned .future).unique t u hattached' hattached
    dsimp only at hu
    rw [Function.update_self, hleft] at hu
    cases hu
  · have hfalse := hsettled t .future (by rw [hpc]; rfl)
    rw [hinv.attach.flag hattached] at hfalse
    cases hfalse

theorem CancelInv.step {ok : Config Tid α → Tid → Label α → Prop} {c d : Config Tid α}
    {x : Tid × Label α} (h : CancelInv c)
    (hok : ∀ c t l, ok c t l → AttachesCleanly c t l ∧ NotClearing c t l)
    (hs : Step movedFrom ok c x d) : CancelInv d := by
  have hbase := clean_settled_step h.base (hs.weaken fun c t l hc => (hok c t l hc).1)
  obtain ⟨t, l⟩ := x
  cases hs with
  | atom hp =>
    cases hp with
    | mk hthis hatom =>
      exact ⟨hbase, hatom.stays_cancelled (hok c t l hthis).2 h.flag, Wakeful.atom h hatom⟩
  | move u s hthis hne ht hu hhere =>
    refine ⟨hbase, h.flag, fun v hv => ?_⟩
    rw [moveHandle_pc] at hv
    exact h.wakeful v hv

/-! ## Overlapping calls -/

/-- What `Set` and `Get` can return. -/
def Label.Expected : Label α → Prop
  | .setReturned _ st => st.isOk = true ∨ st = valueAlreadySet ∨ st.code = .cancelled ∨
      st = Side.promise.notAttached
  | .getReturned (.error st) => st = valueNotAvailable ∨ st.code = .cancelled ∨
      st = Side.future.notAttached
  | _ => True

/-- `Get` fails for one of two reasons. -/
def Pc.GetSound : Pc α → Prop
  | .getUnlockFailed st => st = Side.future.wasCancelled ∨ st = valueNotAvailable
  | _ => True

omit [DecidableEq Tid] in
theorem Atom.getSound (h : Atom movedFrom c th l c' th') (hsound : th.pc.GetSound) :
    th'.pc.GetSound := by
  cases h with
  | getCancelled => exact .inl rfl
  | getEmpty => exact .inr rfl
  | resetLock k => cases k <;> trivial
  | resetLoadFalse r | resetWait r | resetDetached r | destroyLoadFalse r | destroyWait r =>
    cases r <;> trivial
  | acquireBusy | setNotAttached | setBusy | getNotAttached | getBusy | peekNotAttached
  | peekCancelled | waitNotAttached | waitCancelled | cancelBusy => exact hsound
  | _ => trivial

omit [DecidableEq Tid] in
theorem Atom.expected (h : Atom movedFrom c th l c' th') (hc : Smooth c th)
    (hget : th.pc.GetSound) : l.Expected := by
  have hsound := hc.sound
  cases h with
  | setNotAttached => exact .inr (.inr (.inr rfl))
  | setBusy => exact .inr (.inr (.inl rfl))
  | setUnlockFailed v st hpc =>
    have hok := hc.unlock .writeValue (by rw [hpc]; exact List.mem_singleton.mpr rfl)
    rw [hpc] at hsound
    rw [overwriteIfNotError, if_pos hok]
    rcases hsound with rfl | rfl
    · exact .inr (.inr (.inl rfl))
    · exact .inr (.inl rfl)
  | setNotUnlocked v st hpc hst =>
    rw [hc.unlock .writeValue (by rw [hpc]; exact List.mem_singleton.mpr rfl)] at hst
    cases hst
  | setUnlock v st hpc =>
    rw [hpc] at hsound
    exact .inl hsound
  | getNotAttached => exact .inr (.inr rfl)
  | getBusy => exact .inr (.inl rfl)
  | getUnlockFailed st hpc =>
    have hok := hc.unlock .readValue (by rw [hpc]; exact List.mem_singleton.mpr rfl)
    rw [hpc] at hget
    rw [overwriteIfNotError, if_pos hok]
    rcases hget with rfl | rfl
    · exact .inr (.inl rfl)
    · exact .inl rfl
  | getNotUnlocked v hpc hst =>
    rw [hc.unlock .readValue (by rw [hpc]; exact List.mem_singleton.mpr rfl)] at hst
    cases hst
  | detachNull s k st hpc =>
    rw [hpc] at hsound
    obtain ⟨hk, hst⟩ := hsound
    cases k with
    | destroy => trivial
    | set v st₀ =>
      refine .inl ?_
      rw [overwriteIfNotError, if_pos (show st₀.isOk = true from hk)]
      exact hst
    | get v =>
      rw [Cont.label, if_pos hst]
      trivial
  | _ => trivial

omit [DecidableEq Tid] in
theorem Atom.idle_of_getReturned {r : Except RealtimeStatus α}
    (h : Atom movedFrom c th (.getReturned r) c' th') : th'.pc = .idle := by
  generalize hl : Label.getReturned r = l at h
  cases h with
  | getNotAttached hpc | getBusy hpc => exact hpc
  | getUnlockFailed | getNotUnlocked | getUnlock | detachNull => rfl
  | _ => cases hl

section Runs
variable {ok : Config Tid α → Tid → Label α → Prop} {c d : Config Tid α} {slot : Nat → α}
  {o : Owner Tid} {w w₁ w₂ w₃ : List (Tid × Label α)}

theorem expected_run (h : Run (Step movedFrom ok) (initial slot o) w c) :
    ∀ x ∈ w, x.2.Expected := by
  have hall : (CallInv c ∧ ∀ t, (c.locals t).pc.GetSound) ∧ ∀ x ∈ w, x.2.Expected := by
    refine h.invariant (I := fun w c => (CallInv c ∧ ∀ t, (c.locals t).pc.GetSound) ∧
      ∀ x ∈ w, x.2.Expected) ⟨⟨callInv_initial slot o, fun t => ?_⟩, nofun⟩ ?_
    · rw [initial_pc]; trivial
    · rintro w c ⟨t, l⟩ d ⟨⟨hcall, hget⟩, hw⟩ hs
      refine ⟨⟨hcall.step hs, fun u => ?_⟩, fun x hx => ?_⟩
      · rcases hs.thread u with ⟨-, -, hatom⟩ | ⟨hsame, -⟩
        · exact hatom.getSound (hget u)
        · rw [hsame]; exact hget u
      · rcases List.mem_append.mp hx with hx | hx
        · exact hw x hx
        · rw [List.mem_singleton.mp hx]
          rcases hs.thread t with ⟨-, -, hatom⟩ | ⟨-, hne | ⟨-, s, rfl⟩⟩
          · exact hatom.expected (hcall.smooth t) (hget t)
          · exact absurd rfl hne
          · trivial
  exact hall.2

/-- A call that has transferred its value reports it. -/
theorem reported_of_transferred {l k : Label α}
    (h : Run (Step movedFrom ok) (initial slot o) (w₁ ++ (t, l) :: (w₂ ++ (t, k) :: w₃)) c)
    (hl : (l.transferred s).isSome = true) (hnone : l.succeeded s = none)
    (hret : ∀ j, (t, j) ∈ w₂ → j.succeeded s = none)
    (hidle : ∀ (c c' : Context α) th th', Atom movedFrom c th k c' th' → th'.pc = .idle)
    (hk : ∀ r, k ≠ .moved r) : (k.succeeded s).isSome = true := by
  rw [show w₁ ++ (t, l) :: (w₂ ++ (t, k) :: w₃) = w₁ ++ (((t, l) :: w₂) ++ ([(t, k)] ++ w₃)) by
    simp] at h
  obtain ⟨c₁, h₁, h⟩ := h.split
  obtain ⟨c₂, h₂, h⟩ := h.split
  obtain ⟨c₃, hs, -⟩ := h.uncons
  have hcall := callInv_run h₁
  have hcall₂ : CallInv c₂ := h₂.stateInvariant hcall fun _ _ _ hi hs => hi.step hs
  have hsome := inHand_of_transferred hcall h₂ (fun j hj => ?_) hl (.head _)
  · rcases hs.thread t with ⟨-, -, hatom⟩ | ⟨-, hne | ⟨-, r, hr⟩⟩
    · by_contra hfail
      rw [hatom.inHand_of_unsuccessful (hcall₂.smooth t) (hidle _ _ _ _ hatom)
        (Option.not_isSome_iff_eq_none.mp hfail)] at hsome
      cases hsome
    · exact absurd rfl hne
    · exact absurd hr (hk r)
  · rcases List.mem_cons.mp hj with hj | hj
    · obtain ⟨-, rfl⟩ := Prod.mk.inj hj
      exact hnone
    · exact hret j hj

/-- A `Cancel` that no `Reset` overlaps and that returns ok has set the flag and
posted the token. -/
theorem cancelled_of_call {st : RealtimeStatus} (hcall : CallInv c)
    (h : Run (Step movedFrom ok) c ((t, .cancelStarted) :: (w ++ [(t, .cancelReturned st)])) d)
    (hok : ∀ c t l, ok c t l → NotClearing c t l) (hone : ∀ st', (t, .cancelReturned st') ∉ w)
    (hst : st.isOk = true) : d.shared.isCancelled = true ∧ d.shared.hasValue = .posted := by
  obtain ⟨c₁, hs, h⟩ := h.uncons
  obtain ⟨c₂, h₂, hs'⟩ := h.unsnoc
  have hstart : InCancel c₁.shared (c₁.locals t).pc := by
    rcases hs.thread t with ⟨-, -, hatom⟩ | ⟨-, hne | ⟨-, r, hr⟩⟩
    · exact hatom.inCancel_of_started
    · exact absurd rfl hne
    · cases hr
  -- the call goes on as long as it has not returned
  have hin : (∀ st', (t, .cancelReturned st') ∉ w) → InCancel c₂.shared (c₂.locals t).pc := by
    refine h₂.invariant (I := fun w c => (∀ st', (t, .cancelReturned st') ∉ w) →
      InCancel c.shared (c.locals t).pc) (fun _ => hstart) ?_
    rintro w c ⟨u, l⟩ d ih hs hone
    have hwas := ih fun st' hm => hone st' (List.mem_append_left _ hm)
    rcases hs.thread t with ⟨rfl, -, hatom⟩ | ⟨hsame, -⟩
    · rcases hatom.inCancel hwas with ⟨st', rfl⟩ | hnow
      · exact absurd (List.mem_append_right _ (.head _)) (hone st')
      · exact hnow
    · rw [hsame]
      refine hwas.imp_right fun ⟨hcancel, hpc⟩ => ⟨?_, hpc⟩
      cases hs with
      | atom hp =>
        cases hp with
        | mk hthis hatom => exact hatom.stays_cancelled (hok _ _ _ hthis) hcancel
      | move => exact hcancel
  rcases hs'.thread t with ⟨-, -, hatom⟩ | ⟨-, hne | ⟨-, r, hr⟩⟩
  · have hcall₂ : CallInv c₂ :=
      h₂.stateInvariant (hcall.step hs) fun _ _ _ hi hs => hi.step hs
    exact hatom.cancelled_of_returned (hin hone) hst hcall₂.notClosed.hasValue
  · exact absurd rfl hne
  · cases hr

end Runs

/-! ## Both sides learn of a cancellation -/

/-- Handles are acquired cleanly, and no `Reset` overlaps. -/
def Undisturbed (c : Config Tid α) (t : Tid) (l : Label α) : Prop :=
  AttachesCleanly c t l ∧ NoReset c t l

/-- Handles are acquired cleanly, and no `Reset` clears the flag. -/
def KeepsCancelled (c : Config Tid α) (t : Tid) (l : Label α) : Prop :=
  AttachesCleanly c t l ∧ NotClearing c t l

/-- **What producer and consumer can rely on** after the run `w` that ended in `c`,
with a `Cancel` in it and no `Reset` clearing the flag since. -/
structure CancelReaches (movedFrom : α → α) (w : List (Tid × Label α)) (c : Config Tid α) :
    Prop where
  /-- A call that begins now or later is refused. -/
  refused : ∀ u w' d l e, (c.locals u).pc = .idle → Run (Step movedFrom KeepsCancelled) c w' d →
    Step movedFrom KeepsCancelled d (u, l) e → Refused d.shared (d.locals u) l e.shared
  hasValue : ∃ st, c.shared.queryHasValue = .error st ∧ st.code = .cancelled
  /-- No consumer is blocked without a token. -/
  notStuck : ∀ u, (c.locals u).pc = .waitFutex → c.shared.hasValue = .posted
  /-- A `Set` that has stored its value reports success. -/
  stored : ∀ w₁ u v w₂ v' st w₃,
    w = w₁ ++ (u, .stored v) :: (w₂ ++ (u, .setReturned v' st) :: w₃) →
    (∀ v st, (u, .setReturned v st) ∉ w₂) → st.isOk = true
  /-- A `Get` that has removed a value returns one. -/
  removed : ∀ w₁ u v w₂ r w₃,
    w = w₁ ++ (u, .removed v false) :: (w₂ ++ (u, .getReturned r) :: w₃) →
    (∀ r, (u, .getReturned r) ∉ w₂) → ∃ v', r = .ok v'
  expected : ∀ x ∈ w, x.2.Expected

theorem CancelInv.refused {c d : Config Tid α} {w : List (Tid × Label α)} {e : Config Tid α}
    (h : CancelInv c) (hidle : (c.locals u).pc = .idle)
    (hrun : Run (Step movedFrom KeepsCancelled) c w d)
    (hs : Step movedFrom KeepsCancelled d (u, l) e) :
    Refused d.shared (d.locals u) l e.shared := by
  obtain ⟨hinv, href⟩ : CancelInv d ∧ (d.locals u).pc.Refusing := by
    refine hrun.stateInvariant (I := fun d => CancelInv d ∧ (d.locals u).pc.Refusing)
      ⟨h, by rw [hidle]; trivial⟩ ?_
    rintro c ⟨t, k⟩ d ⟨hinv, href⟩ hs
    refine ⟨hinv.step (fun _ _ _ hok => hok) hs, ?_⟩
    rcases hs.thread u with ⟨-, -, hatom⟩ | ⟨hsame, -⟩
    · exact hatom.refusing hinv.flag href
    · rw [hsame]; exact href
  cases hs with
  | atom hp => exact hp.atomic.2.1.refused href fun k hk => hinv.base.1.lock.unlock_ok hk
  | move => exact .silent rfl (.inl rfl)

/-- **Cancellation reaches both sides.** -/
theorem cancellation_reaches_both_sides {slot : Nat → α} {o : Owner Tid}
    {w₀ w₁ w₂ : List (Tid × Label α)} {c₀ c₁ c₂ : Config Tid α} {st : RealtimeStatus}
    (h₀ : Run (Step movedFrom AttachesCleanly) (initial slot o) w₀ c₀)
    (h₁ : Run (Step movedFrom Undisturbed) c₀
      ((t, .cancelStarted) :: (w₁ ++ [(t, .cancelReturned st)])) c₁)
    (hone : ∀ st', (t, .cancelReturned st') ∉ w₁) (hst : st.isOk = true)
    (h₂ : Run (Step movedFrom KeepsCancelled) c₁ w₂ c₂) :
    CancelReaches movedFrom
      (w₀ ++ (t, .cancelStarted) :: (w₁ ++ [(t, .cancelReturned st)]) ++ w₂) c₂ := by
  have h₁' : Run (Step movedFrom AttachesCleanly) c₀
      ((t, .cancelStarted) :: (w₁ ++ [(t, .cancelReturned st)])) c₁ :=
    h₁.mono fun _ _ _ hs => hs.weaken fun _ _ _ hok => hok.1
  have h₂' : Run (Step movedFrom AttachesCleanly) c₁ w₂ c₂ :=
    h₂.mono fun _ _ _ hs => hs.weaken fun _ _ _ hok => hok.1
  have hall := (h₀.append h₁').append h₂'
  obtain ⟨hflag, hposted⟩ := cancelled_of_call (callInv_run h₀) h₁
    (fun _ _ _ hok => hok.2.notClearing) hone hst
  have hinv : CancelInv c₂ :=
    h₂.stateInvariant ⟨clean_settled_run (h₀.append h₁'), hflag, fun _ _ => hposted⟩
      fun _ _ _ hi hs => hi.step (fun _ _ _ hok => hok) hs
  refine ⟨fun u w' d l e => hinv.refused, ?_, fun u hu => ?_, ?_, ?_, expected_run hall⟩
  · refine ⟨_, if_pos hinv.flag, rfl⟩
  · exact hinv.wakeful u (by rw [hu]; rfl)
  · intro v₁ u v v₂ v' st' v₃ hw hret
    rw [hw] at hall
    have hsome := reported_of_transferred (s := .promise) hall rfl rfl (fun j hj => ?_)
      (fun _ _ _ _ hatom => hatom.idle_of_setReturned) (fun r hr => by cases hr)
    · by_contra hst'
      simp [Label.succeeded, hst'] at hsome
    · cases j with
      | setReturned v st => exact absurd hj (hret v st)
      | _ => rfl
  · intro v₁ u v v₂ r v₃ hw hret
    rw [hw] at hall
    have hsome := reported_of_transferred (s := .future) hall rfl rfl (fun j hj => ?_)
      (fun _ _ _ _ hatom => hatom.idle_of_getReturned) (fun r hr => by cases hr)
    · cases r with
      | ok v' => exact ⟨v', rfl⟩
      | error st' => cases hsome
    · cases j with
      | getReturned r => exact absurd hj (hret r)
      | _ => rfl

/-- The owner of a future is about to block when another thread cancels. -/
theorem cancellation_reaches_both_sides_blocked_consumer :
    ∃ (w₀ w₁ : List (Bool × Label Nat)) (c₀ c₁ : Config Bool Nat),
      Run (Step id AttachesCleanly) (initial (fun _ => 0) (.handle .future true)) w₀ c₀ ∧
        Run (Step id Undisturbed) c₀
          ((false, .cancelStarted) :: (w₁ ++ [(false, .cancelReturned rtOkStatus)])) c₁ ∧
        (c₁.locals true).pc = .waitFutex ∧
        CancelReaches id
          (w₀ ++ (false, .cancelStarted) :: (w₁ ++ [(false, .cancelReturned rtOkStatus)]) ++ [])
          c₁ := by
  let c₀ : Context Nat := (Context.make fun _ => 0).setAttached .future true
  let c₁ := c₀.lock .cancel
  let c₂ : Context Nat := { c₁ with isCancelled := true }
  let c₃ := c₂.unlock .cancel
  let c₄ : Context Nat := { c₃ with hasValue := .posted }
  let h₀ : Side → Handle := Function.update (fun _ => ⟨false, false⟩) .future ⟨true, true⟩
  let waiting : Thread Nat := ⟨h₀, .waitFutex⟩
  let no : Side → Handle := fun _ => ⟨false, false⟩
  have hrun₀ : Run (Step id AttachesCleanly) (initial (fun _ => 0) (.handle .future true))
      [(true, .waitStarted), (true, .internal)] (.two c₀ .init waiting) := by
    rw [Pool.eq_two (initial _ _)]
    refine .cons (.atom (.second (fun _ _ hpc => nomatch hpc) (.waitStart rfl rfl rfl))) ?_
    exact .single (.atom (.second nofun (.waitEmpty rfl rfl)))
  have hnoReset : ∀ (c : Context Nat) (pc : Pc Nat) (l : Label Nat), pc.inReset = false →
      (∀ s r, pc ≠ .acquireCas s r) → l ≠ .resetStarted →
        Undisturbed (.two c ⟨no, pc⟩ waiting) false l := by
    intro c pc l hpc hacq hl
    refine ⟨fun s r h => absurd h (hacq s r), fun u => ?_, hl⟩
    cases u
    · exact hpc
    · rfl
  have hrun₁ : Run (Step id Undisturbed) (.two c₀ ⟨no, .idle⟩ waiting)
      ((false, .cancelStarted) ::
        ([(false, .internal), (false, .internal)] ++ [(false, .cancelReturned rtOkStatus)]))
      (.two c₄ ⟨no, .idle⟩ waiting) := by
    refine .cons (.atom (.first (by exact hnoReset _ _ _ rfl nofun nofun) (.cancelLock rfl rfl))) ?_
    refine .cons (.atom (.first (by exact hnoReset _ _ _ rfl nofun nofun) (.cancelStore rfl))) ?_
    refine .cons (.atom (.first (by exact hnoReset _ _ _ rfl nofun nofun)
      (.cancelUnlock rfl rfl))) ?_
    exact .single (.atom (.first (by exact hnoReset _ _ _ rfl nofun nofun) (.cancelPost rfl)))
  refine ⟨_, [(false, .internal), (false, .internal)], _, _, hrun₀, hrun₁, rfl, ?_⟩
  exact cancellation_reaches_both_sides hrun₀ hrun₁ (by simp) rfl .nil

/-- **Cancelled, and asleep for good.**  A future is acquired and destroyed, which
leaves a token behind, and another one is acquired.  Its consumer is about to
block when another thread cancels; `Cancel` returns ok and leaves a token for the
consumer.  `Reset` then takes the token of the first future for the detachment of
the second one and drains `has_value_`: the consumer is blocked without a token
while the flag is still set. -/
theorem cancelled_and_stuck :
    ∃ (w₀ w₁ w₂ : List (Bool × Label Nat)) (c₀ c₁ c₂ : Config Bool Nat),
      Run (Step id fun _ _ _ => True) (initial (fun _ => 0) .user) w₀ c₀ ∧
        Run (Step id NoReset) c₀
          ((false, .cancelStarted) :: (w₁ ++ [(false, .cancelReturned rtOkStatus)])) c₁ ∧
        (∀ st, (false, .cancelReturned st) ∉ w₁) ∧ Run (Step id NotClearing) c₁ w₂ c₂ ∧
        (c₂.locals true).pc = .waitFutex ∧ c₂.shared.hasValue = .ready ∧
        c₂.shared.isCancelled = true := by
  -- the future of thread `true`
  let c₀ : Context Nat := Context.make fun _ => 0
  let c₁ := (c₀.lock .getFuture).setAttached .future true
  let c₂ := (c₁.unlock .getFuture).setAttached .future false
  let c₃ := c₂.setDetached .future .posted
  let c₄ := (c₃.lock .getFuture).setAttached .future true
  let c₅ := c₄.unlock .getFuture
  -- the cancellation by thread `false`
  let c₆ : Context Nat := { c₅.lock .cancel with isCancelled := true }
  let c₇ : Context Nat := { c₆.unlock .cancel with hasValue := .posted }
  -- the `Reset` by thread `false`
  let c₈ := ((c₇.lock .getFuture).lock .getPromise).lock .cancel
  let c₉ := c₈.setDetached .future .ready
  let c₁₀ := (c₉.lock .readValue).lock .writeValue
  let c₁₁ : Context Nat := { c₁₀ with hasValue := .ready }
  let h₀ : Side → Handle := fun _ => ⟨false, false⟩
  let h₁ : Side → Handle := Function.update h₀ .future ⟨true, false⟩
  let h₂ : Side → Handle := Function.update h₁ .future ⟨false, false⟩
  let h₃ : Side → Handle := Function.update h₂ .future ⟨true, false⟩
  let waiting : Thread Nat := ⟨h₃, .waitFutex⟩
  have hreach₀ : Reaches (Step id fun _ _ _ => True) (initial (fun _ => 0) .user)
      (.two c₅ ⟨h₀, .idle⟩ waiting) := by
    rw [Pool.eq_two (initial _ _)]
    refine .head (.atom (.second trivial (.acquireLock .future false rfl rfl))) ?_
    refine .head (.atom (.second trivial (.acquireCasOk .future false rfl rfl))) ?_
    refine .head (.atom (.second trivial (.acquireUnlock .future false rfl rfl))) ?_
    refine .head (.atom (.second trivial (.detachStart .future rfl rfl))) ?_
    refine .head (.atom (.second trivial (.detachExchange .future .destroy rfl rfl))) ?_
    refine .head (.atom (.second trivial (.detachPost .future .destroy rfl))) ?_
    refine .head (.atom (.second trivial (.detachNull .future .destroy rtOkStatus rfl))) ?_
    refine .head (.atom (.second trivial (.acquireLock .future false rfl rfl))) ?_
    refine .head (.atom (.second trivial (.acquireCasOk .future false rfl rfl))) ?_
    refine .head (.atom (.second trivial (.acquireUnlock .future false rfl rfl))) ?_
    refine .head (.atom (.second trivial (.waitStart rfl rfl rfl))) ?_
    exact .single (.atom (.second trivial (.waitEmpty rfl rfl)))
  have hnoReset : ∀ (c : Context Nat) (pc : Pc Nat) (l : Label Nat), pc.inReset = false →
      l ≠ .resetStarted → NoReset (.two c ⟨h₀, pc⟩ waiting) false l := by
    intro c pc l hpc hl
    refine ⟨fun u => ?_, hl⟩
    cases u
    · exact hpc
    · rfl
  have hrun₁ : Run (Step id NoReset) (.two c₅ ⟨h₀, .idle⟩ waiting)
      ((false, .cancelStarted) ::
        ([(false, .internal), (false, .internal)] ++ [(false, .cancelReturned rtOkStatus)]))
      (.two c₇ ⟨h₀, .idle⟩ waiting) := by
    refine .cons (.atom (.first (by exact hnoReset _ _ _ rfl nofun) (.cancelLock rfl rfl))) ?_
    refine .cons (.atom (.first (by exact hnoReset _ _ _ rfl nofun) (.cancelStore rfl))) ?_
    refine .cons (.atom (.first (by exact hnoReset _ _ _ rfl nofun) (.cancelUnlock rfl rfl))) ?_
    exact .single (.atom (.first (by exact hnoReset _ _ _ rfl nofun) (.cancelPost rfl)))
  have hreach₂ : Reaches (Step id NotClearing) (.two c₇ ⟨h₀, .idle⟩ waiting)
      (.two c₁₁ ⟨h₀, .resetDetached .future⟩ waiting) := by
    refine .head (.atom (.first nofun (.resetStart rfl rfl))) ?_
    refine .head (.atom (.first nofun (.resetLock .getPromise rfl rfl))) ?_
    refine .head (.atom (.first nofun (.resetLock .cancel rfl rfl))) ?_
    refine .head (.atom (.first nofun (.resetLoad .future rfl rfl))) ?_
    refine .head (.atom (.first nofun (.resetWait .future .ready _ rfl .taken rfl))) ?_
    refine .head (.atom (.first nofun (.resetLoadFalse .promise rfl rfl))) ?_
    refine .head (.atom (.first nofun (.resetLock .readValue rfl rfl))) ?_
    refine .head (.atom (.first nofun (.resetLock .writeValue rfl rfl))) ?_
    refine .head (.atom (.first nofun (.resetEmpty rfl rfl))) ?_
    exact .single (.atom (.first nofun (.resetHasValue rfl)))
  obtain ⟨w₀, hrun₀⟩ := hreach₀
  obtain ⟨w₂, hrun₂⟩ := hreach₂
  exact ⟨w₀, [(false, .internal), (false, .internal)], w₂, _, _, _, hrun₀, hrun₁, by simp, hrun₂,
    rfl, rfl, rfl⟩

end Intrinsic.Promise
