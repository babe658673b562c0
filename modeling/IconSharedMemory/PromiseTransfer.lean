import IconSharedMemory.PromiseQueue

/-! # Values go through a promise context exactly once and in order

The queue of a promise context loses, duplicates and reorders nothing
(`holds_run`).  What is left are the calls around it: a `Set` that has stored its
value must report success, a `Get` that has removed one must return it, and a
call that reports an error must not have done anything.  All three hold because
no `Unlock`, `Post` or `Detach` on the way out of a call can fail (`Smooth`).

`Set` and `Get` are treated as one family, indexed by the side they belong to.
-/
namespace Intrinsic.Promise
open Runs BoundedFifo

variable {Tid α : Type} {movedFrom : α → α} {c c' : Context α} {th th' : Thread α} {l : Label α}
  {t u : Tid} {v : α} {s : Side}

/-! ## The calls -/

/-- A call of `Set`, or of `Get`, is in progress. -/
def Pc.calling : Side → Pc α → Bool
  | .promise, .setLoad _ | .promise, .setPrepare _ | .promise, .setWrite _ _
  | .promise, .setFinish _ _ | .promise, .setPost _ | .promise, .setUnlock _ _
  | .promise, .setUnlockFailed _ _ | .promise, .detachExchange _ (.set _ _)
  | .promise, .detachPost _ (.set _ _) | .promise, .detachNull _ (.set _ _) _ => true
  | .future, .getLoad | .future, .getMove | .future, .getDrop _ | .future, .getTryWait _
  | .future, .getUnlock _ | .future, .getUnlockFailed _ | .future, .detachExchange _ (.get _)
  | .future, .detachPost _ (.get _) | .future, .detachNull _ (.get _) _ => true
  | _, _ => false

/-- The value that the `Set` in progress has stored, or the `Get` in progress has
removed. -/
def Pc.inHand : Side → Pc α → Option α
  | .promise, .setPost v | .promise, .setUnlock v _ | .promise, .detachExchange _ (.set v _)
  | .promise, .detachPost _ (.set v _) | .promise, .detachNull _ (.set v _) _ => some v
  | .future, .getTryWait v | .future, .getUnlock v | .future, .detachExchange _ (.get v)
  | .future, .detachPost _ (.get v) | .future, .detachNull _ (.get v) _ => some v
  | _, _ => none

/-- The value a step of `Set` stores, or a step of `Get` removes. -/
def Label.transferred : Side → Label α → Option α
  | .promise, .stored v => some v
  | .future, .removed v false => some v
  | _, _ => none

/-- The value of a `Set`, or of a `Get`, that returns successfully. -/
def Label.succeeded : Side → Label α → Option α
  | .promise, .setReturned v st => if st.isOk then some v else none
  | .future, .getReturned (.ok v) => some v
  | _, _ => none

/-- The first step of a `Set`, or of a `Get`, on an attached handle. -/
def Label.starts : Side → Label α → Bool
  | .promise, .setStarted _ => true
  | .future, .getStarted => true
  | _, _ => false

/-- The status a `Set` carries into its detachment is ok. -/
def Cont.Sound : Cont α → Prop
  | .set _ st => st.isOk = true
  | .destroy | .get _ => True

/-- The statuses a thread carries: those of the successful operations are ok, and
`Set` fails for one of two reasons. -/
def Pc.Sound : Pc α → Prop
  | .setUnlock _ st => st.isOk = true
  | .setUnlockFailed _ st => st = Side.promise.wasCancelled ∨ st = valueAlreadySet
  | .detachExchange _ k | .detachPost _ k => k.Sound
  | .detachNull _ k st => k.Sound ∧ st.isOk = true
  | _ => True

/-- None of the context's futexes is closed. -/
structure Context.NotClosed (c : Context α) : Prop where
  hasValue : c.hasValue ≠ .closed
  detached : ∀ s, c.detached s ≠ .closed

/-- **Nothing a thread does on its way out of a call can fail.** -/
structure Smooth (c : Context α) (th : Thread α) : Prop where
  unlock : ∀ k ∈ th.pc.locks, (c.unlockStatus k).isOk = true
  notClosed : c.NotClosed
  attached : ∀ s k, th.pc = .detachExchange s k → c.attached s = true
  sound : th.pc.Sound

theorem Context.NotClosed.setDetached {f : BinaryFutex} (h : c.NotClosed)
    (hf : f ≠ .closed) : (c.setDetached s f).NotClosed := by
  refine ⟨h.hasValue, fun r => ?_⟩
  by_cases hr : r = s
  · subst hr; rwa [Context.setDetached_self]
  · rw [Context.setDetached_of_ne _ hr]; exact h.detached r

theorem Atom.notClosed (h : Atom movedFrom c th l c' th') (hc : c.NotClosed) : c'.NotClosed := by
  cases h with
  | detachPost s => exact hc.setDetached (BinaryFutex.post_not_closed (hc.detached s))
  | resetDetached s => exact hc.setDetached (BinaryFutex.tryWait_not_closed (hc.detached s))
  | resetWait s f st _ hwait | resetTimeout s f st _ hwait | destroyWait s f st _ hwait
  | destroyFatal s f st _ hwait => exact hc.setDetached (hwait.not_closed (hc.detached s))
  | setPost | cancelPost | destroyPost =>
    exact ⟨BinaryFutex.post_not_closed hc.hasValue, hc.detached⟩
  | getTryWait | resetHasValue =>
    exact ⟨BinaryFutex.tryWait_not_closed hc.hasValue, hc.detached⟩
  | waitFailed f st _ hwait | waitFutex f st _ hwait =>
    exact ⟨hwait.not_closed hc.hasValue, hc.detached⟩
  | _ => exact ⟨hc.hasValue, hc.detached⟩

theorem Atom.sound (h : Atom movedFrom c th l c' th') (hc : Smooth c th) : th'.pc.Sound := by
  have hsound := hc.sound
  cases h with
  | setCancelled => exact .inl rfl
  | setFull => exact .inr rfl
  | setPost =>
    show c.hasValue.post.2.isOk = true
    rw [BinaryFutex.post_of_not_closed hc.notClosed.hasValue]
    rfl
  | setUnlockDetach v st hpc | detachExchange s k hpc =>
    rw [hpc] at hsound
    exact hsound
  | detachNothing s k hpc hatt =>
    rw [hc.attached s k hpc] at hatt
    cases hatt
  | detachPost s k hpc =>
    rw [hpc] at hsound
    refine ⟨hsound, ?_⟩
    rw [BinaryFutex.post_of_not_closed (hc.notClosed.detached s)]
    rfl
  | resetLock k => cases k <;> trivial
  | resetLoadFalse s | resetWait s | resetDetached s | destroyLoadFalse s | destroyWait s =>
    cases s <;> trivial
  | acquireBusy | setNotAttached | setBusy | getNotAttached | getBusy | peekNotAttached
  | peekCancelled | waitNotAttached | waitCancelled | cancelBusy => exact hsound
  | _ => trivial

/-- **A step settles the value in hand or keeps it there.** -/
theorem Atom.settles (h : Atom movedFrom c th l c' th') (hc : Smooth c th) (s : Side) :
    (th.pc.inHand s).toList ++ (l.transferred s).toList =
      (l.succeeded s).toList ++ (th'.pc.inHand s).toList := by
  have hsound := hc.sound
  cases h with
  | setUnlock v st hpc =>
    rw [hpc] at hsound ⊢
    have hst : st.isOk = true := hsound
    cases s <;> simp [Pc.inHand, Label.transferred, Label.succeeded, Thread.goto, hst]
  | setUnlockFailed v st hpc =>
    have hunlock := hc.unlock .writeValue (by rw [hpc]; exact List.mem_singleton.mpr rfl)
    rw [hpc] at hsound ⊢
    have hst : (overwriteIfNotError (c.unlockStatus .writeValue) st).isOk = false := by
      rw [overwriteIfNotError, if_pos hunlock]
      rcases hsound with rfl | rfl <;> rfl
    cases s <;> simp [Pc.inHand, Label.transferred, Label.succeeded, Thread.goto, hst]
  | setNotUnlocked v st hpc hst =>
    rw [hc.unlock .writeValue (by rw [hpc]; exact List.mem_singleton.mpr rfl)] at hst
    cases hst
  | getNotUnlocked v hpc hst =>
    rw [hc.unlock .readValue (by rw [hpc]; exact List.mem_singleton.mpr rfl)] at hst
    cases hst
  | detachNull r k st hpc =>
    rw [hpc] at hsound ⊢
    obtain ⟨hk, hst⟩ := hsound
    cases k with
    | destroy => cases s <;> rfl
    | set v st₀ =>
      have hk' : st₀.isOk = true := hk
      cases s <;> simp [Pc.inHand, Label.transferred, Label.succeeded, Thread.goto, Cont.label,
        overwriteIfNotError, hk', hst]
    | get v =>
      cases s <;> simp [Pc.inHand, Label.transferred, Label.succeeded, Thread.goto, Cont.label, hst]
  | detachStart _ hpc => rw [hpc]; cases s <;> rfl
  | detachExchange _ k hpc | detachNothing _ k hpc | detachPost _ k hpc =>
    rw [hpc]; cases s <;> cases k <;> rfl
  | resetLock k hpc => rw [hpc]; cases k <;> cases s <;> rfl
  | resetLoadFalse r hpc | resetWait r _ _ hpc | resetDetached r hpc | destroyLoadFalse r hpc
  | destroyWait r _ _ hpc => rw [hpc]; cases r <;> cases s <;> rfl
  | acquireBusy _ hpc | acquireLock _ _ hpc | acquireCasOk _ _ hpc | acquireCasFailed _ _ hpc
  | acquireUnlockFailed _ hpc | acquireUnlock _ _ hpc | acquireLeaked _ _ hpc
  | setNotAttached _ hpc | setBusy _ hpc | setLock _ hpc | setCancelled _ hpc | setLoad _ hpc
  | setFull _ hpc | setPrepare _ _ hpc | setWrite _ _ hpc | setFinish _ _ hpc | setPost _ hpc
  | setUnlockDetach _ _ hpc | getMove _ hpc | getDrop _ hpc | getTryWait _ hpc
  | getUnlockFailed _ hpc | getUnlock _ hpc | getUnlockDetach _ hpc | peekFront _ hpc
  | peekKeep _ hpc | peekCopy _ hpc | waitFailed _ _ hpc | waitFutex _ _ hpc | resetLoad _ hpc
  | resetTimeout _ _ _ hpc | resetMove _ hpc | resetDrop _ hpc | resetUnlock _ _ _ _ hpc
  | resetReturn _ _ hpc | destroyLoad _ hpc | destroyFatal _ _ _ hpc =>
    rw [hpc]; cases s <;> rfl
  | getNotAttached hpc | getBusy hpc | getLock hpc | getCancelled hpc | getLoad hpc | getEmpty hpc
  | peekNotAttached hpc | peekCancelled hpc | peekLoad hpc | peekEmpty hpc | waitNotAttached hpc
  | waitCancelled hpc | waitStart hpc | waitHasValue hpc | waitEmpty hpc | waitLoadCancelled hpc
  | waitLoad hpc | cancelBusy hpc | cancelLock hpc | cancelStore hpc | cancelNotUnlocked hpc
  | cancelUnlock hpc | cancelPost hpc | resetStart hpc | resetEmpty hpc | resetNotEmpty hpc
  | resetMoveNone hpc | resetHasValue hpc | resetStore hpc | destroyStart hpc | destroyPost hpc =>
    rw [hpc]; cases s <;> rfl

/-- A call is in progress only after its first step. -/
theorem Atom.calling_of (h : Atom movedFrom c th l c' th') (hcall : th'.pc.calling s = true) :
    th.pc.calling s = true ∨ l.starts s = true := by
  cases h with
  | setLock | getLock => cases s <;> first | exact .inr rfl | cases hcall
  | detachExchange _ k hpc | detachNothing _ k hpc | detachPost _ k hpc =>
    rw [hpc]; cases s <;> cases k <;> first | exact .inl rfl | cases hcall
  | setUnlockDetach _ _ hpc | setPrepare _ _ hpc | setWrite _ _ hpc | setFinish _ _ hpc =>
    rw [hpc]; cases s <;> first | exact .inl rfl | cases hcall
  | setCancelled _ hpc | setLoad _ hpc | setFull _ hpc | setPost _ hpc | getMove _ hpc
  | getDrop _ hpc | getTryWait _ hpc | getUnlockDetach _ hpc =>
    rw [hpc]; cases s <;> first | exact .inl rfl | cases hcall
  | getCancelled hpc | getLoad hpc | getEmpty hpc =>
    rw [hpc]; cases s <;> first | exact .inl rfl | cases hcall
  | acquireBusy | setNotAttached | setBusy | getNotAttached | getBusy | peekNotAttached
  | peekCancelled | waitNotAttached | waitCancelled | cancelBusy => exact .inl hcall
  | resetLock k => cases k <;> cases s <;> cases hcall
  | resetLoadFalse r | resetWait r | resetDetached r | destroyLoadFalse r | destroyWait r =>
    cases r <;> cases s <;> cases hcall
  -- every other step is outside `Set` and `Get` or ends one
  | _ => cases s <;> cases hcall

/-- Outside its calls a thread neither transfers a value nor reports one. -/
theorem Atom.not_calling (h : Atom movedFrom c th l c' th') (hcall : th.pc.calling s = false) :
    l.transferred s = none ∧ l.succeeded s = none := by
  cases h with
  | setFinish _ _ hpc | setUnlockFailed _ _ hpc | setNotUnlocked _ _ hpc | setUnlock _ _ hpc =>
    rw [hpc] at hcall; cases s <;> first | exact ⟨rfl, rfl⟩ | cases hcall
  | getDrop _ hpc | getUnlock _ hpc =>
    rw [hpc] at hcall; cases s <;> first | exact ⟨rfl, rfl⟩ | cases hcall
  | detachNull _ k st hpc =>
    rw [hpc] at hcall; cases s <;> cases k <;> first | exact ⟨rfl, rfl⟩ | cases hcall
  | _ => cases s <;> exact ⟨rfl, rfl⟩

/-! ## Failing calls -/

/-- `Set` gives up because of a stored value only when `PrepareInsert` failed. -/
theorem Atom.setFull_of (h : Atom movedFrom c th l c' th')
    (hpc' : th'.pc = .setUnlockFailed v valueAlreadySet) : l = .setFull v := by
  cases h with
  | setFull v' => obtain ⟨rfl, -⟩ := Pc.setUnlockFailed.inj hpc'; rfl
  | setCancelled v' =>
    have hst := (Pc.setUnlockFailed.inj hpc').2
    exact absurd (congrArg RealtimeStatus.code hst) (by decide)
  | acquireBusy _ hpc | setNotAttached _ hpc | setBusy _ hpc => rw [hpc] at hpc'; cases hpc'
  | getNotAttached hpc | getBusy hpc | peekNotAttached hpc | peekCancelled hpc
  | waitNotAttached hpc | waitCancelled hpc | cancelBusy hpc => rw [hpc] at hpc'; cases hpc'
  | resetLock k => cases k <;> cases hpc'
  | resetLoadFalse r | resetWait r | resetDetached r | destroyLoadFalse r | destroyWait r =>
    cases r <;> cases hpc'
  | _ => cases hpc'

theorem Atom.idle_of_setReturned {st : RealtimeStatus}
    (h : Atom movedFrom c th (.setReturned v st) c' th') : th'.pc = .idle := by
  generalize hl : Label.setReturned v st = l at h
  cases h with
  | setNotAttached _ hpc | setBusy _ hpc => exact hpc
  | setUnlockFailed | setNotUnlocked | setUnlock | detachNull => rfl
  | _ => cases hl

/-- A call that ends without success has no value in hand. -/
theorem Atom.inHand_of_unsuccessful (h : Atom movedFrom c th l c' th') (hc : Smooth c th)
    (hidle : th'.pc = .idle) (hsucc : l.succeeded s = none) : th.pc.inHand s = none := by
  have hsettle := h.settles hc s
  have hnone : th'.pc.inHand s = none := by rw [hidle]; cases s <;> rfl
  rw [hnone, hsucc] at hsettle
  cases hin : th.pc.inHand s with
  | none => rfl
  | some y => rw [hin] at hsettle; cases hsettle

/-- `Set` returns `kResourceExhausted` only because of a stored value. -/
theorem Atom.exhausted {st : RealtimeStatus}
    (h : Atom movedFrom c th (.setReturned v st) c' th') (hc : Smooth c th)
    (hcode : st.code = .resourceExhausted) : th.pc = .setUnlockFailed v valueAlreadySet := by
  have hsound := hc.sound
  have hne : st.isOk = false := by simp [RealtimeStatus.isOk, hcode]
  generalize hl : Label.setReturned v st = l at h
  cases h with
  | setNotAttached | setBusy => cases hl; cases hcode
  | setUnlockFailed v' st' hpc =>
    have hunlock := hc.unlock .writeValue (by rw [hpc]; exact List.mem_singleton.mpr rfl)
    rw [overwriteIfNotError, if_pos hunlock] at hl
    cases hl
    rw [hpc] at hsound ⊢
    rcases hsound with rfl | rfl
    · cases hcode
    · rfl
  | setNotUnlocked v' st' hpc hst =>
    rw [hc.unlock .writeValue (by rw [hpc]; exact List.mem_singleton.mpr rfl)] at hst
    cases hst
  | setUnlock v' st' hpc =>
    cases hl
    rw [hpc] at hsound
    rw [show st.isOk = true from hsound] at hne
    cases hne
  | detachNull r k st' hpc =>
    rw [hpc] at hsound
    cases k with
    | set v' st₀ =>
      have hst₀ : st₀.isOk = true := hsound.1
      rw [Cont.label, overwriteIfNotError, if_pos hst₀] at hl
      cases hl
      rw [hsound.2] at hne
      cases hne
    | destroy | get => cases hl
  | _ => cases hl

/-! ## Along every run -/

/-- What makes every step of a context smooth. -/
structure CallInv (c : Config Tid α) : Prop where
  inv : Inv c
  notClosed : c.shared.NotClosed
  sound : ∀ t, (c.locals t).pc.Sound

theorem CallInv.smooth {c : Config Tid α} (h : CallInv c) (t : Tid) :
    Smooth c.shared (c.locals t) :=
  ⟨fun _ hk => h.inv.lock.unlock_ok hk, h.notClosed, fun _ _ hpc => h.inv.attach.exchange hpc,
    h.sound t⟩

section Runs
variable [DecidableEq Tid] {ok : Config Tid α → Tid → Label α → Prop} {c d : Config Tid α}
  {x : Tid × Label α} {slot : Nat → α} {o : Owner Tid} {w : List (Tid × Label α)} {p : Tid}

theorem callInv_initial (slot : Nat → α) (o : Owner Tid) : CallInv (initial slot o) := by
  refine ⟨⟨lockInv_initial slot o, attachInv_initial slot o⟩, ?_, fun t => ?_⟩
  · cases o <;> exact ⟨nofun, fun _ => nofun⟩
  · rw [initial_pc]; trivial

theorem CallInv.step (h : CallInv c) (hs : Step movedFrom ok c x d) : CallInv d := by
  obtain ⟨t, l⟩ := x
  refine ⟨inv_step h.inv hs, ?_, fun v => ?_⟩
  · cases hs with
    | atom hpool =>
      cases hpool with
      | mk hok hatom => exact hatom.notClosed h.notClosed
    | move => exact h.notClosed
  · rcases hs.thread v with ⟨-, -, hatom⟩ | ⟨hsame, -⟩
    · exact hatom.sound (h.smooth v)
    · rw [hsame]; exact h.sound v

theorem callInv_run (h : Run (Step movedFrom ok) (initial slot o) w c) : CallInv c :=
  h.stateInvariant (callInv_initial slot o) fun _ _ _ hi hs => hi.step hs

/-- When only thread `p` starts the calls of a side, only `p` is ever in one. -/
theorem calling_step (hp : ∀ c t l, ok c t l → l.starts s = true → t = p)
    (hs : Step movedFrom ok c x d) (h : ∀ t, (c.locals t).pc.calling s = true → t = p) :
    ∀ t, (d.locals t).pc.calling s = true → t = p := by
  intro t ht
  rcases hs.thread t with ⟨-, hok, hatom⟩ | ⟨hsame, -⟩
  · rcases hatom.calling_of ht with hwas | hstart
    · exact h t hwas
    · exact hp c t x.2 hok hstart
  · exact h t (hsame ▸ ht)

theorem calling_run (hp : ∀ c t l, ok c t l → l.starts s = true → t = p)
    (h : Run (Step movedFrom ok) (initial slot o) w c) :
    ∀ t, (c.locals t).pc.calling s = true → t = p := by
  refine h.stateInvariant (I := fun c => ∀ t, (c.locals t).pc.calling s = true → t = p) ?_
    fun _ _ _ ih hs => calling_step hp hs ih
  intro t ht
  rw [initial_pc] at ht
  cases s <;> cases ht

/-- **Every value stored by `Set`, and every value removed by `Get`, is reported by
the call that did it, and nothing else is.** -/
theorem transferred_eq (hp : ∀ c t l, ok c t l → l.starts s = true → t = p)
    (h : Run (Step movedFrom ok) (initial slot o) w c) :
    w.filterMap (fun x => x.2.transferred s) =
      w.filterMap (fun x => x.2.succeeded s) ++ ((c.locals p).pc.inHand s).toList := by
  refine h.ledger (P := fun c => (c.locals p).pc.inHand s)
    (I := fun c => CallInv c ∧ ∀ t, (c.locals t).pc.calling s = true → t = p)
    ?_ (fun _ _ hrun => ⟨callInv_run hrun, calling_run hp hrun⟩) ?_
  · show ((initial slot o).locals p).pc.inHand s = none
    rw [initial_pc]
    cases s <;> rfl
  · rintro c ⟨t, l⟩ d ⟨hi, hcalling⟩ hs
    rcases hs.thread p with ⟨-, -, hatom⟩ | ⟨hsame, hne⟩
    · exact hatom.settles (hi.smooth _) s
    · have hnone : l.transferred s = none ∧ l.succeeded s = none := by
        rcases hne with hne | ⟨-, r, rfl⟩
        · -- the step of another thread is outside the calls of this side
          rcases hs.thread t with ⟨-, -, hatom⟩ | ⟨-, hne' | ⟨-, r, rfl⟩⟩
          · exact hatom.not_calling (Bool.eq_false_iff.mpr fun hc => hne (hcalling t hc))
          · exact absurd rfl hne'
          · cases s <;> exact ⟨rfl, rfl⟩
        · cases s <;> exact ⟨rfl, rfl⟩
      show _ ++ (l.transferred s).toList = (l.succeeded s).toList ++ _
      rw [hnone.1, hnone.2, hsame]
      exact List.append_nil _

/-- A thread that is about to return `kResourceExhausted` has, in its last step,
found a value stored. -/
theorem stored_at_setFull (h : Run (Step movedFrom ok) (initial slot o) w c)
    (hpc : (c.locals t).pc = .setUnlockFailed v valueAlreadySet) :
    ∃ w₁ w₂ d, w = w₁ ++ (t, .setFull v) :: w₂ ∧ (∀ x ∈ w₂, x.1 ≠ t) ∧
      Run (Step movedFrom ok) (initial slot o) w₁ d ∧ d.shared.buffer.size = 1 := by
  induction h with
  | nil => rw [initial_pc] at hpc; cases hpc
  | @snoc w c d x hrun hs ih =>
    obtain ⟨u, l⟩ := x
    have hother : u ≠ t → (c.locals t).pc = .setUnlockFailed v valueAlreadySet →
        ∃ w₁ w₂ d, w ++ [(u, l)] = w₁ ++ (t, .setFull v) :: w₂ ∧ (∀ x ∈ w₂, x.1 ≠ t) ∧
          Run (Step movedFrom ok) (initial slot o) w₁ d ∧
            d.shared.buffer.size = 1 := by
      intro hne hpc'
      obtain ⟨w₁, w₂, d, rfl, hw₂, hd⟩ := ih hpc'
      refine ⟨w₁, w₂ ++ [(u, l)], d, by simp, fun x hx => ?_, hd⟩
      rcases List.mem_append.mp hx with hx | hx
      · exact hw₂ x hx
      · rw [List.mem_singleton.mp hx]; exact hne
    rcases hs.thread t with ⟨rfl, -, hatom⟩ | ⟨hsame, hne⟩
    · obtain ⟨q, hq, -⟩ := holds_run hrun
      obtain rfl := hatom.setFull_of hpc
      obtain ⟨q', -, ⟨hnone, -⟩ | ⟨e, he, hfifo⟩⟩ := hq.step hs
      · cases hnone
      · cases he
        cases hfifo with
        | full hlen => exact ⟨w, [], c, rfl, nofun, hrun, hq.size.trans hlen⟩
    · rw [hsame] at hpc
      refine hother (hne.resolve_right fun hidle => ?_) hpc
      rw [hidle.1] at hpc
      cases hpc

/-- The last step of a `Set`. -/
theorem last_setReturned {st : RealtimeStatus}
    (h : Run (Step movedFrom ok) (initial slot o) (w ++ [(t, .setReturned v st)]) c) :
    ∃ d, Run (Step movedFrom ok) (initial slot o) w d ∧ CallInv d ∧
      Atom movedFrom d.shared (d.locals t) (.setReturned v st) c.shared (c.locals t) := by
  obtain ⟨d, hd, hs⟩ := h.unsnoc
  refine ⟨d, hd, callInv_run hd, ?_⟩
  rcases hs.thread t with ⟨-, -, hatom⟩ | ⟨-, hne | ⟨-, r, hr⟩⟩
  · exact hatom
  · exact absurd rfl hne
  · cases hr

/-- A `Set` that has stored its value, or a `Get` that has removed one, has it in
hand until it returns. -/
theorem inHand_of_transferred {c₀ : Config Tid α} {l : Label α} (h₀ : CallInv c₀)
    (h : Run (Step movedFrom ok) c₀ w c) (hret : ∀ k, (t, k) ∈ w → k.succeeded s = none)
    (hl : (l.transferred s).isSome = true) (hmem : (t, l) ∈ w) :
    ((c.locals t).pc.inHand s).isSome = true := by
  induction h with
  | nil => cases hmem
  | @snoc w c d x hrun hs ih =>
    have hi : CallInv c := hrun.stateInvariant h₀ fun _ _ _ hi hs => hi.step hs
    obtain ⟨u, k⟩ := x
    have hwas : (u, k) ≠ (t, l) → ((c.locals t).pc.inHand s).isSome = true := by
      intro hne
      refine ih (fun j hj => hret j (List.mem_append_left _ hj)) ?_
      refine (List.mem_append.mp hmem).resolve_right fun hm => ?_
      exact hne (List.mem_singleton.mp hm).symm
    rcases hs.thread t with ⟨rfl, -, hatom⟩ | ⟨hsame, hne⟩
    · have hsettle := hatom.settles (hi.smooth u) s
      have hsucc : k.succeeded s = none := hret k (List.mem_append_right _ (.head _))
      -- what is in hand afterwards is what was in hand and what is transferred now
      by_contra hnone
      rw [hsucc, Option.not_isSome_iff_eq_none.mp hnone, Option.toList_none, List.nil_append,
        List.append_eq_nil_iff] at hsettle
      by_cases hk : k = l
      · subst hk
        obtain ⟨y, hy⟩ := Option.isSome_iff_exists.mp hl
        rw [hy] at hsettle
        cases hsettle.2
      · obtain ⟨y, hy⟩ := Option.isSome_iff_exists.mp (hwas fun he => hk (Prod.mk.inj he).2)
        rw [hy] at hsettle
        cases hsettle.1
    · rw [hsame]
      refine hwas fun he => ?_
      obtain ⟨rfl, rfl⟩ := Prod.mk.inj he
      rcases hne with hne | ⟨-, r, rfl⟩
      · exact hne rfl
      · cases s <;> cases hl

end Runs

/-! ## Exactly once and in order -/

/-- The value a step removes, and whether `Reset` discards it. -/
def Label.removal : Label α → Option (α × Bool)
  | .removed v byReset => some (v, byReset)
  | _ => none

/-- The values of the successful `Set`s, in the order of their returns. -/
def setOks (w : List (Tid × Label α)) : List α := w.filterMap fun x => x.2.succeeded .promise

/-- The values returned by the successful `Get`s, in order. -/
def getOks (w : List (Tid × Label α)) : List α := w.filterMap fun x => x.2.succeeded .future

/-- The values removed, in order, each with whether `Reset` discarded it. -/
def removals (w : List (Tid × Label α)) : List (α × Bool) := w.filterMap fun x => x.2.removal

/-- A removal made by `Get`. -/
def takenByGet : α × Bool → Option α
  | (v, false) => some v
  | (_, true) => none

theorem enqs_event (w : List (Tid × Label α)) :
    enqs (w.filterMap fun x => x.2.event) = w.filterMap fun x => x.2.transferred .promise := by
  rw [enqs, List.filterMap_filterMap]
  refine congrArg (List.filterMap · w) (funext fun x => ?_)
  cases x.2 <;> rfl

theorem deqs_event (w : List (Tid × Label α)) :
    deqs (w.filterMap fun x => x.2.event) = (removals w).map Prod.fst := by
  rw [deqs, List.filterMap_filterMap, removals, List.map_filterMap]
  refine congrArg (List.filterMap · w) (funext fun x => ?_)
  cases x.2 <;> rfl

theorem filterMap_takenByGet (w : List (Tid × Label α)) :
    (removals w).filterMap takenByGet = w.filterMap fun x => x.2.transferred .future := by
  rw [removals, List.filterMap_filterMap]
  refine congrArg (List.filterMap · w) (funext fun x => ?_)
  cases x.2 with
  | removed v byReset => cases byReset <;> rfl
  | _ => rfl

/-- **One thread calls `Set` and one calls `Get`**; any number of threads acquire
and detach handles, pass them around, peek, wait, cancel, reset and destroy. -/
def OneEach (user : Side → Tid) (_c : Config Tid α) (t : Tid) (l : Label α) : Prop :=
  ∀ s, l.starts s = true → t = user s

/-- **What the users of a context can rely on** after the run `w` that ended in
`c`. -/
structure Transfer [DecidableEq Tid] (movedFrom : α → α) (user : Side → Tid) (slot : Nat → α)
    (o : Owner Tid) (w : List (Tid × Label α)) (c : Config Tid α) : Prop where
  /-- The values set, the one of a `Set` that has stored it and not yet returned
  included, are the values removed followed by at most one, which is stored. -/
  order : ∃ q, setOks w ++ ((c.locals (user .promise)).pc.inHand .promise).toList =
    (removals w).map Prod.fst ++ q ∧ q.length ≤ 1 ∧ c.shared.buffer.size = q.length
  /-- The values got, the one of a `Get` that has removed it and not yet returned
  included, are the values removed that `Reset` did not discard. -/
  gets : getOks w ++ ((c.locals (user .future)).pc.inHand .future).toList =
    (removals w).filterMap takenByGet
  /-- A `Set` that returns an error has stored nothing. -/
  failed : ∀ w₁ w₂ t v st,
    w = w₁ ++ (t, .setStarted v) :: (w₂ ++ [(t, .setReturned v st)]) →
    (∀ v' st', (t, .setReturned v' st') ∉ w₂) → st.isOk = false → ∀ v', (t, .stored v') ∉ w₂
  /-- A `Set` that returns `kResourceExhausted` found a value stored, and its thread
  did nothing in between. -/
  exhausted : ∀ w₀ t v st, w = w₀ ++ [(t, .setReturned v st)] → st.code = .resourceExhausted →
    ∃ w₁ w₂ d, w₀ = w₁ ++ (t, .setFull v) :: w₂ ∧ (∀ x ∈ w₂, x.1 ≠ t) ∧
      Run (Step movedFrom (OneEach user)) (initial slot o) w₁ d ∧ d.shared.buffer.size = 1

/-- **Exactly-once, in-order transfer.** -/
theorem values_exactly_once_in_order [DecidableEq Tid] (movedFrom : α → α) (user : Side → Tid)
    (slot : Nat → α) (o : Owner Tid) {w : List (Tid × Label α)} {c : Config Tid α}
    (h : Run (Step movedFrom (OneEach user)) (initial slot o) w c) :
    Transfer movedFrom user slot o w c := by
  have hone : ∀ s (c : Config Tid α) t l, OneEach user c t l → l.starts s = true → t = user s :=
    fun s _ _ _ hok => hok s
  refine ⟨?_, ?_, ?_, ?_⟩
  · obtain ⟨q, hq, hfifo⟩ := holds_run h
    refine ⟨q, ?_, length_le hfifo, hq.size⟩
    rw [setOks, ← transferred_eq (hone .promise) h, ← enqs_event, enqs_eq hfifo, deqs_event]
  · rw [getOks, ← transferred_eq (hone .future) h, filterMap_takenByGet]
  · rintro w₁ w₂ t v st rfl hret hst v' hmem
    have hsplit : w₁ ++ (t, Label.setStarted v) :: (w₂ ++ [(t, .setReturned v st)]) =
        (w₁ ++ [(t, .setStarted v)] ++ w₂) ++ [(t, .setReturned v st)] := by simp
    rw [hsplit] at h
    obtain ⟨d, hd, hi, hatom⟩ := last_setReturned h
    obtain ⟨c₁, hc₁, hd₁⟩ := hd.split
    have hnone : ∀ k, (t, k) ∈ w₂ → k.succeeded .promise = none := by
      intro k hk
      cases k with
      | setReturned v' st' => exact absurd hk (hret v' st')
      | _ => rfl
    have hsome := inHand_of_transferred (callInv_run hc₁) hd₁ hnone rfl hmem
    rw [hatom.inHand_of_unsuccessful (hi.smooth t) hatom.idle_of_setReturned
      (by simp [Label.succeeded, hst])] at hsome
    cases hsome
  · rintro w₀ t v st rfl hcode
    obtain ⟨d, hd, hi, hatom⟩ := last_setReturned h
    exact stored_at_setFull hd (hatom.exhausted (hi.smooth t) hcode)

/-- The owner of a promise sets 7, which the other thread gets, and 8.  Both handles are detached,
and a `Reset` discards the second value. -/
theorem values_exactly_once_in_order_reset :
    ∃ (w : List (Bool × Label Nat)) (c : Config Bool Nat),
      Run (Step id (OneEach fun s => decide (s = .future)))
        (initial (fun _ => 0) (.handle .promise false)) w c ∧
        setOks w = [7, 8] ∧ getOks w = [7] ∧ removals w = [(7, false), (8, true)] ∧
        Transfer id (fun s => decide (s = .future)) (fun _ => 0) (.handle .promise false) w c := by
  have hprod : ∀ {s s' : Context Nat} {x x' y : Thread Nat} {l : Label Nat}, Atom id s x l s' x' →
      l.starts .future = false → Step id (OneEach fun s => decide (s = .future))
        (Pool.two s x y) (false, l) (.two s' x' y) := by
    intro s s' x x' y l ha hl
    refine .atom (.first (fun r hr => ?_) ha)
    cases r with
    | promise => rfl
    | future => rw [hl] at hr; cases hr
  have hcons : ∀ {s s' : Context Nat} {x y y' : Thread Nat} {l : Label Nat}, Atom id s y l s' y' →
      l.starts .promise = false → Step id (OneEach fun s => decide (s = .future))
        (Pool.two s x y) (true, l) (.two s' x y') := by
    intro s s' x y y' l ha hl
    refine .atom (.second (fun r hr => ?_) ha)
    cases r with
    | promise => rw [hl] at hr; cases hr
    | future => rfl
  have h : ∃ w c, Run (Step id (OneEach fun s => decide (s = .future)))
      (initial (fun _ => 0) (.handle .promise false)) w c ∧
      setOks w = [7, 8] ∧ getOks w = [7] ∧ removals w = [(7, false), (8, true)] := by
    rw [Pool.eq_two (initial _ _)]
    refine ⟨_, _,
      .cons (hcons (.acquireLock .future true rfl rfl) rfl) <|
      .cons (hcons (.acquireCasOk .future true rfl rfl) rfl) <|
      .cons (hcons (.acquireUnlock .future true rfl rfl) rfl) <|
      .cons (hprod (.setLock 7 rfl rfl rfl) rfl) <|
      .cons (hprod (.setLoad 7 rfl rfl) rfl) <|
      .cons (hprod (.setPrepare 7 0 rfl rfl rfl) rfl) <|
      .cons (hprod (.setWrite 7 0 rfl) rfl) <|
      .cons (hprod (.setFinish 7 0 rfl rfl) rfl) <|
      .cons (hprod (.setPost 7 rfl) rfl) <|
      .cons (hprod (.setUnlock 7 rtOkStatus rfl rfl rfl) rfl) <|
      .cons (hcons (.getLock rfl rfl rfl) rfl) <|
      .cons (hcons (.getLoad rfl rfl) rfl) <|
      .cons (hcons (.getMove 7 rfl rfl rfl) rfl) <|
      .cons (hcons (.getDrop 7 rfl rfl) rfl) <|
      .cons (hcons (.getTryWait 7 rfl) rfl) <|
      .cons (hcons (.getUnlock 7 rfl rfl rfl) rfl) <|
      .cons (hprod (.setLock 8 rfl rfl rfl) rfl) <|
      .cons (hprod (.setLoad 8 rfl rfl) rfl) <|
      .cons (hprod (.setPrepare 8 0 rfl rfl (by decide +kernel)) rfl) <|
      .cons (hprod (.setWrite 8 0 rfl) rfl) <|
      .cons (hprod (.setFinish 8 0 rfl (by decide +kernel)) rfl) <|
      .cons (hprod (.setPost 8 rfl) rfl) <|
      .cons (hprod (.setUnlock 8 rtOkStatus rfl rfl rfl) rfl) <|
      .cons (hprod (.detachStart .promise rfl rfl) rfl) <|
      .cons (hprod (.detachExchange .promise .destroy rfl rfl) rfl) <|
      .cons (hprod (.detachPost .promise .destroy rfl) rfl) <|
      .cons (hprod (.detachNull .promise .destroy rtOkStatus rfl) rfl) <|
      .cons (hcons (.detachStart .future rfl rfl) rfl) <|
      .cons (hcons (.detachExchange .future .destroy rfl rfl) rfl) <|
      .cons (hcons (.detachPost .future .destroy rfl) rfl) <|
      .cons (hcons (.detachNull .future .destroy rtOkStatus rfl) rfl) <|
      .cons (hprod (.resetStart rfl rfl) rfl) <|
      .cons (hprod (.resetLock .getPromise rfl rfl) rfl) <|
      .cons (hprod (.resetLock .cancel rfl rfl) rfl) <|
      .cons (hprod (.resetLoadFalse .future rfl rfl) rfl) <|
      .cons (hprod (.resetLoadFalse .promise rfl rfl) rfl) <|
      .cons (hprod (.resetLock .readValue rfl rfl) rfl) <|
      .cons (hprod (.resetLock .writeValue rfl rfl) rfl) <|
      .cons (hprod (.resetNotEmpty rfl (by decide +kernel)) rfl) <|
      .cons (hprod (.resetMove 8 rfl (by decide +kernel) (by decide +kernel)) rfl) <|
      .single (hprod (.resetDrop 8 rfl (by decide +kernel)) rfl), ?_⟩
    exact ⟨rfl, rfl, rfl⟩
  obtain ⟨w, c, h, hsets, hgets, hremovals⟩ := h
  exact ⟨w, c, h, hsets, hgets, hremovals, values_exactly_once_in_order _ _ _ _ h⟩

end Intrinsic.Promise
