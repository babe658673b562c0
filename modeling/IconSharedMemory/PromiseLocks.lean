import IconSharedMemory.Promise

/-! # Who holds what in a promise context

Two ownership facts underlie everything else about a promise context.  Each of
the five mutexes is free or held by exactly one thread, and the thread is at a
program point that will release it (`LockInv`).  And each attached flag is set
exactly while one thread owns an attached handle of that side (`AttachInv`).

Both are proved by first saying what a step can do to them (`LockEffect`,
`AttachEffect`): a step takes one mutex, releases the one taken last, or leaves
them alone; it attaches or detaches one side, or leaves the flags alone.  The
branches in which an `Unlock` fails after the work was done are part of the
model, and it follows that they are never taken.
-/
namespace Intrinsic.Promise
open Runs

variable {Tid α : Type} {movedFrom : α → α} {c c' : Context α} {th th' : Thread α} {l : Label α}
  {s : Side} {k : Lock} {t u : Tid}

/-! ## Mutexes -/

/-- The mutexes a thread holds, the last one taken first. -/
def Pc.locks : Pc α → List Lock
  | .acquireCas s _ | .acquireUnlock s _ | .acquireUnlockFailed s => [s.getLock]
  | .setLoad _ | .setPrepare _ | .setWrite _ _ | .setFinish _ _ | .setPost _ | .setUnlock _ _
  | .setUnlockFailed _ _ => [.writeValue]
  | .getLoad | .getMove | .getDrop _ | .getTryWait _ | .getUnlock _ | .getUnlockFailed _ =>
    [.readValue]
  | .cancelStore | .cancelUnlock => [.cancel]
  | .resetLock l => l.heldBefore
  | .resetLoad _ | .resetWait _ => Lock.readValue.heldBefore
  | .resetEmpty | .resetMove | .resetDrop _ | .resetHasValue | .resetDetached _ | .resetStore =>
    .writeValue :: Lock.writeValue.heldBefore
  | .resetUnlock held _ => held
  | .idle | .detachExchange _ _ | .detachPost _ _ | .detachNull _ _ _ | .peekFront | .peekKeep _
  | .peekCopy _ | .waitEmpty | .waitFutex | .waitLoad | .cancelPost | .destroyPost
  | .destroyLoad _ | .destroyWait _ | .destroyFatal | .destroyed => []

theorem afterResetLock_locks (k : Lock) :
    (k.afterResetLock : Pc α).locks = k :: k.heldBefore := by
  cases k <;> rfl

theorem afterReset_locks (s : Side) :
    (s.afterReset : Pc α).locks = Lock.readValue.heldBefore := by
  cases s <;> rfl

theorem afterDestroy_locks (s : Side) : (s.afterDestroy : Pc α).locks = [] := by
  cases s <;> rfl

theorem afterDrain_locks (s : Side) :
    (s.afterDrain : Pc α).locks = .writeValue :: Lock.writeValue.heldBefore := by
  cases s <;> rfl

/-- **What a step can do to the mutexes.** -/
inductive LockEffect (c : Context α) (th : Thread α) (c' : Context α) (th' : Thread α) : Prop
  | keep (hlocks : c'.locks = c.locks) (hpc : th'.pc.locks = th.pc.locks)
  | take (k : Lock) (hfree : c.canLock k = true)
      (hlocks : c'.locks = Function.update c.locks k (c.locks k).tryLock.1)
      (hpc : th'.pc.locks = k :: th.pc.locks)
  | release (k : Lock) (hlocks : c'.locks = Function.update c.locks k (c.locks k).unlock.1)
      (hpc : th.pc.locks = k :: th'.pc.locks)

theorem Atom.lockEffect (h : Atom movedFrom c th l c' th') : LockEffect c th c' th' := by
  cases h with
  | acquireLock s _ hpc hlock => exact .take s.getLock hlock rfl (by rw [hpc]; rfl)
  | setLock v hpc _ hlock => exact .take .writeValue hlock rfl (by rw [hpc]; rfl)
  | getLock hpc _ hlock => exact .take .readValue hlock rfl (by rw [hpc]; rfl)
  | cancelLock hpc hlock => exact .take .cancel hlock rfl (by rw [hpc]; rfl)
  | resetStart hpc hlock => exact .take .getFuture hlock rfl (by rw [hpc]; rfl)
  | resetLock k hpc hlock => exact .take k hlock rfl (by rw [hpc]; exact afterResetLock_locks k)
  | acquireUnlockFailed s hpc | acquireUnlock s _ hpc | acquireLeaked s _ hpc =>
    exact .release s.getLock rfl (by rw [hpc]; rfl)
  | setUnlockFailed v st hpc | setNotUnlocked v st hpc | setUnlock v st hpc
  | setUnlockDetach v st hpc => exact .release .writeValue rfl (by rw [hpc]; rfl)
  | getUnlockFailed st hpc | getNotUnlocked v hpc | getUnlock v hpc | getUnlockDetach v hpc =>
    exact .release .readValue rfl (by rw [hpc]; rfl)
  | cancelNotUnlocked hpc | cancelUnlock hpc => exact .release .cancel rfl (by rw [hpc]; rfl)
  | resetUnlock k j held st hpc => exact .release k rfl (by rw [hpc]; rfl)
  | resetReturn k st hpc => exact .release k rfl (by rw [hpc]; rfl)
  | resetLoadFalse s hpc => exact .keep rfl (by rw [hpc]; exact afterReset_locks s)
  | resetWait s f st hpc => exact .keep rfl (by rw [hpc]; exact afterReset_locks s)
  | resetDetached s hpc => exact .keep rfl (by rw [hpc]; exact afterDrain_locks s)
  | destroyLoadFalse s hpc => exact .keep rfl (by rw [hpc]; exact afterDestroy_locks s)
  | destroyWait s f st hpc => exact .keep rfl (by rw [hpc]; exact afterDestroy_locks s)
  | acquireCasOk s _ hpc | acquireCasFailed s _ hpc | detachExchange s _ hpc
  | detachNothing s _ hpc | detachPost s _ hpc | detachNull s _ _ hpc | setCancelled v hpc
  | setLoad v hpc | setFull v hpc | setPrepare v _ hpc | setWrite v _ hpc | setFinish v _ hpc
  | setPost v hpc | getMove v hpc | getDrop v hpc | getTryWait v hpc | waitFailed _ _ hpc
  | waitFutex _ _ hpc | peekFront _ hpc | peekKeep _ hpc | peekCopy _ hpc | resetLoad s hpc
  | resetTimeout s _ _ hpc | resetMove v hpc | resetDrop v hpc | destroyLoad s hpc
  | destroyFatal s _ _ hpc | detachStart s hpc =>
    exact .keep rfl (by rw [hpc]; rfl)
  | getCancelled hpc | getLoad hpc | getEmpty hpc | peekLoad hpc | peekEmpty hpc | waitStart hpc
  | waitHasValue hpc | waitEmpty hpc | waitLoadCancelled hpc | waitLoad hpc | cancelStore hpc
  | cancelPost hpc | resetEmpty hpc | resetNotEmpty hpc | resetMoveNone hpc | resetHasValue hpc
  | resetStore hpc | destroyStart hpc | destroyPost hpc =>
    exact .keep rfl (by rw [hpc]; rfl)
  | acquireBusy | setNotAttached | setBusy | getNotAttached | getBusy | peekNotAttached
  | peekCancelled | waitNotAttached | waitCancelled | cancelBusy => exact .keep rfl rfl

/-- **Each mutex is free or held by exactly one thread.** -/
structure LockInv (c : Config Tid α) : Prop where
  owned : ∀ k, Owned (c.shared.locks k = .make) (fun th : Thread α => k ∈ th.pc.locks) c.locals
  notClosed : ∀ k, (c.shared.locks k).futex ≠ .closed
  nodup : ∀ t, (c.locals t).pc.locks.Nodup

theorem canLock_iff : c.canLock k = true ↔ c.locks k = .make := by
  unfold Context.canLock LockableBinaryFutex.tryLock LockableBinaryFutex.make
  cases h : c.locks k with
  | mk f => cases f <;> simp [BinaryFutex.tryWait]

/-- A mutex that is held is locked. -/
theorem LockInv.held {c : Config Tid α} (h : LockInv c) (hk : k ∈ (c.locals t).pc.locks) :
    c.shared.locks k = ⟨.ready⟩ := by
  have hfree := (h.owned k).not_free hk
  have hclosed := h.notClosed k
  cases hm : c.shared.locks k with
  | mk f =>
    rw [hm] at hfree hclosed
    cases f with
    | ready => rfl
    | posted => exact absurd rfl hfree
    | closed => exact absurd rfl hclosed

/-- **`Unlock` never fails.** -/
theorem LockInv.unlock_ok {c : Config Tid α} (h : LockInv c) (hk : k ∈ (c.locals t).pc.locks) :
    (c.shared.unlockStatus k).isOk = true := by
  rw [Context.unlockStatus, h.held hk]
  rfl

/-- No two threads hold the same mutex. -/
theorem LockInv.exclusive {c : Config Tid α} (h : LockInv c) (ht : k ∈ (c.locals t).pc.locks)
    (hu : k ∈ (c.locals u).pc.locks) : t = u :=
  (h.owned k).unique t u ht hu

variable [DecidableEq Tid]

theorem lockInv_initial (slot : Nat → α) (o : Owner Tid) : LockInv (initial slot o) := by
  have hpc := initial_pc slot o
  have hlocks : ∀ k, (initial slot o).shared.locks k = .make := by
    cases o <;> exact fun _ => rfl
  refine ⟨fun k => ⟨fun _ t hk => ?_, fun hf => absurd (hlocks k) hf, fun t u hk => ?_⟩,
    fun k => ?_, fun t => ?_⟩
  · rw [hpc t] at hk; exact absurd hk List.not_mem_nil
  · rw [hpc t] at hk; exact absurd hk List.not_mem_nil
  · rw [hlocks k]; exact nofun
  · rw [hpc t]; exact List.nodup_nil

omit [DecidableEq Tid] in
/-- The other mutexes are as they were. -/
theorem LockInv.notClosed_of_other {c : Config Tid α} {sh : Context α} (h : LockInv c)
    (hself : (sh.locks k).futex ≠ .closed) (hother : ∀ j, j ≠ k → sh.locks j = c.shared.locks j)
    (j : Lock) : (sh.locks j).futex ≠ .closed := by
  by_cases hj : j = k
  · exact hj ▸ hself
  · rw [hother j hj]
    exact h.notClosed j

theorem LockInv.atom {c : Config Tid α} {sh : Context α} (h : LockInv c)
    (he : LockEffect c.shared (c.locals t) sh th') :
    LockInv ⟨sh, Function.update c.locals t th'⟩ := by
  cases he with
  | keep hlocks hpc =>
    refine ⟨fun k => ?_, fun k => ?_, ?_⟩
    · exact (h.owned k).frame (by rw [hlocks]) (by rw [hpc])
    · rw [hlocks]; exact h.notClosed k
    · exact forall_update (fun th : Thread α => th.pc.locks.Nodup) (hpc ▸ h.nodup t)
        fun u _ => h.nodup u
  | take k hfree hlocks hpc =>
    have hmake := canLock_iff.mp hfree
    have hself : sh.locks k = ⟨.ready⟩ := by
      rw [hlocks, Function.update_self, hmake]; rfl
    have hother : ∀ j, j ≠ k → sh.locks j = c.shared.locks j := fun j hj => by
      rw [hlocks, Function.update_of_ne hj]
    refine ⟨fun j => ?_, fun j => ?_, ?_⟩
    · by_cases hj : j = k
      · subst hj
        refine (h.owned j).acquire hmake (by rw [hself]; decide) ?_
        rw [hpc]; exact List.mem_cons_self
      · refine (h.owned j).frame (by rw [hother j hj]) ?_
        rw [hpc, List.mem_cons]
        exact or_iff_right hj
    · exact h.notClosed_of_other (hself ▸ nofun) hother j
    · refine forall_update (fun th : Thread α => th.pc.locks.Nodup) ?_ fun u _ => h.nodup u
      rw [hpc]
      exact List.nodup_cons.mpr ⟨(h.owned k).free_none hmake t, h.nodup t⟩
  | release k hlocks hpc =>
    have hmem : k ∈ (c.locals t).pc.locks := by rw [hpc]; exact List.mem_cons_self
    have hnodup := h.nodup t
    rw [hpc, List.nodup_cons] at hnodup
    have hself : sh.locks k = .make := by
      rw [hlocks, Function.update_self, h.held hmem]; rfl
    have hother : ∀ j, j ≠ k → sh.locks j = c.shared.locks j := fun j hj => by
      rw [hlocks, Function.update_of_ne hj]
    refine ⟨fun j => ?_, fun j => ?_, ?_⟩
    · by_cases hj : j = k
      · subst hj
        exact (h.owned j).release hmem hself hnodup.1
      · refine (h.owned j).frame (by rw [hother j hj]) ?_
        rw [hpc, List.mem_cons]
        exact (or_iff_right hj).symm
    · exact h.notClosed_of_other (hself ▸ nofun) hother j
    · exact forall_update (fun th : Thread α => th.pc.locks.Nodup) hnodup.2 fun u _ => h.nodup u

omit [DecidableEq Tid] in
/-- A handle changing hands does not concern the mutexes. -/
theorem LockInv.move {c : Config Tid α} {f : Tid → Thread α} (h : LockInv c)
    (hpc : ∀ t, (f t).pc = (c.locals t).pc) : LockInv ⟨c.shared, f⟩ :=
  ⟨fun k => (h.owned k).reindex (.refl _) fun t => by rw [hpc t]; rfl, h.notClosed,
    fun t => (hpc t).symm ▸ h.nodup t⟩

/-! ## Attached handles -/

/-- The thread has set the attached flag and has no handle yet. -/
def Pc.acquired : Pc α → Side → Bool
  | .acquireUnlock s' _, s => s' = s
  | _, _ => false

/-- The thread has cleared the attached flag and its handle still points here. -/
def Pc.detaching : Pc α → Side → Bool
  | .detachPost s' _, s | .detachNull s' _ _, s => s' = s
  | _, _ => false

/-- The call in progress was made on an attached handle of this side. -/
def Pc.uses : Pc α → Side → Bool
  | .detachExchange s' _, s | .detachPost s' _, s | .detachNull s' _ _, s => s' = s
  | .setLoad _, s | .setPrepare _, s | .setWrite _ _, s | .setFinish _ _, s | .setPost _, s
  | .setUnlock _ _, s | .setUnlockFailed _ _, s => s = .promise
  | .getLoad, s | .getMove, s | .getDrop _, s | .getTryWait _, s | .getUnlock _, s
  | .getUnlockFailed _, s | .peekFront, s | .peekKeep _, s | .peekCopy _, s | .waitEmpty, s
  | .waitFutex, s | .waitLoad, s => s = .future
  | _, _ => false

/-- The thread is the one the attached flag of a side stands for. -/
def Thread.Attached (s : Side) (th : Thread α) : Prop :=
  th.pc.acquired s = true ∨ (th.handle s).here = true ∧ th.pc.detaching s = false

/-- A call on a handle is made while the handle points here. -/
def Thread.Uses (th : Thread α) : Prop :=
  ∀ s, th.pc.uses s = true → (th.handle s).here = true

/-- **What a step can do to the attached flags.** -/
inductive AttachEffect (c : Context α) (th : Thread α) (c' : Context α) (th' : Thread α) : Prop
  | keep (hflag : c'.attached = c.attached) (hsame : ∀ s, th'.Attached s ↔ th.Attached s)
  | attach (s : Side) (hfree : c.attached s = false)
      (hflag : c'.attached = Function.update c.attached s true) (hself : th'.Attached s)
      (hsame : ∀ r, r ≠ s → (th'.Attached r ↔ th.Attached r))
  | detach (s : Side) (hheld : th.Attached s)
      (hflag : c'.attached = Function.update c.attached s false) (hself : ¬ th'.Attached s)
      (hsame : ∀ r, r ≠ s → (th'.Attached r ↔ th.Attached r))

theorem attached_goto {pc : Pc α} (s : Side) (hacq : pc.acquired s = th.pc.acquired s)
    (hdet : pc.detaching s = th.pc.detaching s) : (th.goto pc).Attached s ↔ th.Attached s := by
  unfold Thread.Attached Thread.goto
  rw [hacq, hdet]

/-- The steps that neither set nor clear a flag nor change a handle. -/
theorem AttachEffect.goto {pc : Pc α} (hflag : c'.attached = c.attached)
    (hacq : ∀ s, pc.acquired s = th.pc.acquired s)
    (hdet : ∀ s, pc.detaching s = th.pc.detaching s) : AttachEffect c th c' (th.goto pc) :=
  .keep hflag fun s => attached_goto s (hacq s) (hdet s)

theorem afterResetLock_quiet (k : Lock) (s : Side) : (k.afterResetLock : Pc α).acquired s = false ∧
    (k.afterResetLock : Pc α).detaching s = false ∧ (k.afterResetLock : Pc α).uses s = false := by
  cases k <;> exact ⟨rfl, rfl, rfl⟩

theorem afterReset_quiet (r s : Side) : (r.afterReset : Pc α).acquired s = false ∧
    (r.afterReset : Pc α).detaching s = false ∧ (r.afterReset : Pc α).uses s = false := by
  cases r <;> exact ⟨rfl, rfl, rfl⟩

theorem afterDrain_quiet (r s : Side) : (r.afterDrain : Pc α).acquired s = false ∧
    (r.afterDrain : Pc α).detaching s = false ∧ (r.afterDrain : Pc α).uses s = false := by
  cases r <;> exact ⟨rfl, rfl, rfl⟩

theorem afterDestroy_quiet (r s : Side) : (r.afterDestroy : Pc α).acquired s = false ∧
    (r.afterDestroy : Pc α).detaching s = false ∧ (r.afterDestroy : Pc α).uses s = false := by
  cases r <;> exact ⟨rfl, rfl, rfl⟩

/-- A call that ends sets the handle of its side to what the flag stands for already. -/
theorem attached_setHandle {h : Handle} (hself : h.here = true ↔ th.Attached s)
    (hother : ∀ r, r ≠ s → th.pc.acquired r = false ∧ th.pc.detaching r = false) (r : Side) :
    ((th.setHandle s h).goto .idle).Attached r ↔ th.Attached r := by
  by_cases hr : r = s
  · subst hr
    rw [← hself]
    simp [Thread.Attached, Thread.goto, Thread.setHandle, Pc.acquired, Pc.detaching]
  · obtain ⟨hacquired, hdetaching⟩ := hother r hr
    unfold Thread.Attached
    rw [hacquired, hdetaching]
    simp [Thread.goto, Thread.setHandle, Pc.acquired, Pc.detaching, hr]

/-- `GetPromise` and `GetFuture` return the handle. -/
theorem attached_acquireUnlock {reusable : Bool} (hpc : th.pc = .acquireUnlock s reusable)
    (r : Side) : ((th.setHandle s ⟨true, reusable⟩).goto .idle).Attached r ↔ th.Attached r := by
  refine attached_setHandle ?_ (fun r hr => ?_) r
  · simp [Thread.Attached, hpc, Pc.acquired]
  · simp [hpc, Pc.acquired, Pc.detaching, Ne.symm hr]

/-- `Detach` clears the pointer of a handle that is no longer attached. -/
theorem attached_detachNull {k : Cont α} {st : RealtimeStatus} (hpc : th.pc = .detachNull s k st)
    (r : Side) : ((th.setHandle s { th.handle s with here := false }).goto .idle).Attached r ↔
      th.Attached r := by
  refine attached_setHandle ?_ (fun r hr => ?_) r
  · simp [Thread.Attached, hpc, Pc.acquired, Pc.detaching]
  · simp [hpc, Pc.acquired, Pc.detaching, Ne.symm hr]

theorem Atom.attachEffect (h : Atom movedFrom c th l c' th')
    (hunlock : ∀ k ∈ th.pc.locks, (c.unlockStatus k).isOk = true) (huses : th.Uses)
    (hflag : ∀ s, th.Attached s → c.attached s = true) : AttachEffect c th c' th' := by
  cases h with
  | acquireCasOk s _ hpc hcas =>
    refine .attach s hcas rfl (.inl (by simp [Thread.goto, Pc.acquired])) fun r hr => ?_
    refine attached_goto r ?_ ?_ <;> rw [hpc] <;> simp [Pc.acquired, Pc.detaching, Ne.symm hr]
  | acquireUnlock s _ hpc => exact .keep rfl (attached_acquireUnlock hpc)
  | acquireLeaked s _ hpc hst =>
    have hok := hunlock s.getLock (by rw [hpc]; exact List.mem_singleton.mpr rfl)
    rw [hok] at hst
    cases hst
  | detachExchange s k hpc hatt =>
    have hhere : (th.handle s).here = true := huses s (by rw [hpc]; simp [Pc.uses])
    refine .detach s (.inr ⟨hhere, by rw [hpc]; rfl⟩) rfl ?_ fun r hr => ?_
    · simp [Thread.Attached, Thread.goto, Pc.acquired, Pc.detaching]
    · refine attached_goto r ?_ ?_ <;> rw [hpc] <;> simp [Pc.acquired, Pc.detaching, Ne.symm hr]
  | detachNothing s k hpc hatt =>
    have hhere : (th.handle s).here = true := huses s (by rw [hpc]; simp [Pc.uses])
    have htrue := hflag s (.inr ⟨hhere, by rw [hpc]; rfl⟩)
    rw [hatt] at htrue
    cases htrue
  | detachNull s k st hpc => exact .keep rfl (attached_detachNull hpc)
  | resetLock k hpc =>
    exact .goto rfl (fun s => by rw [hpc]; exact (afterResetLock_quiet k s).1)
      (fun s => by rw [hpc]; exact (afterResetLock_quiet k s).2.1)
  | resetLoadFalse r hpc | resetWait r _ _ hpc =>
    exact .goto rfl (fun s => by rw [hpc]; exact (afterReset_quiet r s).1)
      (fun s => by rw [hpc]; exact (afterReset_quiet r s).2.1)
  | resetDetached r hpc =>
    exact .goto rfl (fun s => by rw [hpc]; exact (afterDrain_quiet r s).1)
      (fun s => by rw [hpc]; exact (afterDrain_quiet r s).2.1)
  | destroyLoadFalse r hpc | destroyWait r _ _ hpc =>
    exact .goto rfl (fun s => by rw [hpc]; exact (afterDestroy_quiet r s).1)
      (fun s => by rw [hpc]; exact (afterDestroy_quiet r s).2.1)
  | acquireBusy | setNotAttached | setBusy | getNotAttached | getBusy | peekNotAttached
  | peekCancelled | waitNotAttached | waitCancelled | cancelBusy => exact .keep rfl fun _ => Iff.rfl
  | acquireLock _ _ hpc | acquireCasFailed _ _ hpc | acquireUnlockFailed _ hpc
  | detachStart _ hpc | detachPost _ _ hpc | setLock _ hpc | setCancelled _ hpc
  | setLoad _ hpc | setFull _ hpc | setPrepare _ _ hpc | setWrite _ _ hpc | setFinish _ _ hpc
  | setPost _ hpc | setUnlockFailed _ _ hpc | setNotUnlocked _ _ hpc | setUnlock _ _ hpc
  | setUnlockDetach _ _ hpc | getMove _ hpc | getDrop _ hpc | getTryWait _ hpc
  | getUnlockFailed _ hpc | getNotUnlocked _ hpc | getUnlock _ hpc | getUnlockDetach _ hpc
  | peekFront _ hpc | peekKeep _ hpc | peekCopy _ hpc | waitFailed _ _ hpc | waitFutex _ _ hpc
  | resetLoad _ hpc | resetTimeout _ _ _ hpc | resetMove _ hpc | resetDrop _ hpc
  | resetUnlock _ _ _ _ hpc | resetReturn _ _ hpc | destroyLoad _ hpc | destroyFatal _ _ _ hpc =>
    exact .goto rfl (fun _ => by rw [hpc]; rfl) (fun _ => by rw [hpc]; rfl)
  | getLock hpc | getCancelled hpc | getLoad hpc | getEmpty hpc | peekLoad hpc | peekEmpty hpc
  | waitStart hpc | waitHasValue hpc | waitEmpty hpc | waitLoadCancelled hpc | waitLoad hpc
  | cancelLock hpc | cancelStore hpc | cancelNotUnlocked hpc | cancelUnlock hpc | cancelPost hpc
  | resetStart hpc | resetEmpty hpc | resetNotEmpty hpc | resetMoveNone hpc | resetHasValue hpc
  | resetStore hpc | destroyStart hpc | destroyPost hpc =>
    exact .goto rfl (fun _ => by rw [hpc]; rfl) (fun _ => by rw [hpc]; rfl)

/-- A call is only made on a handle that points here, and only its own thread
changes the handle. -/
theorem Atom.uses (h : Atom movedFrom c th l c' th') (huses : th.Uses) : th'.Uses := by
  cases h with
  | detachStart s _ hhere =>
    intro r hr
    obtain rfl : s = r := by simpa [Thread.goto, Pc.uses] using hr
    exact hhere
  | setLock v _ hhere =>
    intro r hr
    obtain rfl : r = .promise := by simpa [Thread.goto, Pc.uses] using hr
    exact hhere
  | getLock _ hhere | peekLoad _ hhere | waitStart _ hhere =>
    intro r hr
    obtain rfl : r = .future := by simpa [Thread.goto, Pc.uses] using hr
    exact hhere
  | setUnlockDetach v st hpc =>
    intro r hr
    obtain rfl : Side.promise = r := by simpa [Thread.goto, Pc.uses] using hr
    exact huses _ (by rw [hpc]; rfl)
  | getUnlockDetach v hpc =>
    intro r hr
    obtain rfl : Side.future = r := by simpa [Thread.goto, Pc.uses] using hr
    exact huses _ (by rw [hpc]; rfl)
  | resetLock k =>
    intro r hr
    rw [Thread.goto, (afterResetLock_quiet k r).2.2] at hr
    cases hr
  | resetLoadFalse s | resetWait s =>
    intro r hr
    rw [Thread.goto, (afterReset_quiet s r).2.2] at hr
    cases hr
  | resetDetached s =>
    intro r hr
    rw [Thread.goto, (afterDrain_quiet s r).2.2] at hr
    cases hr
  | destroyLoadFalse s | destroyWait s =>
    intro r hr
    rw [Thread.goto, (afterDestroy_quiet s r).2.2] at hr
    cases hr
  | acquireBusy | setNotAttached | setBusy | getNotAttached | getBusy | peekNotAttached
  | peekCancelled | waitNotAttached | waitCancelled | cancelBusy => exact huses
  | detachExchange _ _ hpc | detachNothing _ _ hpc | detachPost _ _ hpc | setCancelled _ hpc
  | setLoad _ hpc | setFull _ hpc | setPrepare _ _ hpc | setWrite _ _ hpc | setFinish _ _ hpc
  | setPost _ hpc | getMove _ hpc | getDrop _ hpc | getTryWait _ hpc | peekFront _ hpc
  | peekKeep _ hpc | waitFutex _ _ hpc =>
    exact fun r hr => huses r (by rw [hpc]; exact hr)
  | getCancelled hpc | getLoad hpc | getEmpty hpc | waitEmpty hpc =>
    exact fun r hr => huses r (by rw [hpc]; exact hr)
  -- every other step ends a call or belongs to one that needs no handle
  | _ => exact fun r hr => nomatch hr

/-- **The attached flag of a side is set exactly while one thread owns an attached
handle of that side.** -/
structure AttachInv (c : Config Tid α) : Prop where
  owned : ∀ s, Owned (c.shared.attached s = false) (Thread.Attached s) c.locals
  uses : ∀ t, (c.locals t).Uses

omit [DecidableEq Tid] in
theorem AttachInv.flag {c : Config Tid α} (h : AttachInv c) (ht : (c.locals t).Attached s) :
    c.shared.attached s = true :=
  Bool.not_eq_false _ ▸ (h.owned s).not_free ht

omit [DecidableEq Tid] in
/-- **`Detach` finds its flag set.** -/
theorem AttachInv.exchange {c : Config Tid α} {k : Cont α} (h : AttachInv c)
    (hpc : (c.locals t).pc = .detachExchange s k) : c.shared.attached s = true := by
  have hhere : ((c.locals t).handle s).here = true :=
    h.uses t s (by rw [hpc]; simp [Pc.uses])
  exact h.flag (t := t) (.inr ⟨hhere, by rw [hpc]; rfl⟩)

omit [DecidableEq Tid] in
/-- While no handle is attached, a handle that points here is being detached. -/
theorem AttachInv.detaching {c : Config Tid α} (h : AttachInv c)
    (hflag : c.shared.attached s = false) (hhere : ((c.locals t).handle s).here = true) :
    (c.locals t).pc.detaching s = true := by
  by_contra hdet
  exact (h.owned s).free_none hflag t (.inr ⟨hhere, Bool.eq_false_iff.mpr hdet⟩)

omit [DecidableEq Tid] in
theorem init_not_attached (s : Side) : ¬ (Thread.init : Thread α).Attached s := by
  rintro (h | h)
  · cases h
  · cases h.1

theorem uses_of_idle {th : Thread α} (h : th.pc = .idle) : th.Uses := by
  intro s hs
  rw [h] at hs
  cases hs

theorem attachInv_initial (slot : Nat → α) (o : Owner Tid) : AttachInv (initial slot o) := by
  cases o with
  | user =>
    exact ⟨fun s => ⟨fun _ _ => init_not_attached s, fun hf => absurd rfl hf,
      fun _ _ ht => absurd ht (init_not_attached s)⟩, fun _ => uses_of_idle rfl⟩
  | handle r u =>
    refine ⟨fun s => ?_, ?_⟩
    · by_cases hs : s = r
      · subst hs
        have hbase : Owned (false = false) (Thread.Attached s)
            (fun _ : Tid => (Thread.init : Thread α)) :=
          ⟨fun _ _ => init_not_attached s, fun hf => absurd rfl hf,
            fun _ _ ht => absurd ht (init_not_attached s)⟩
        refine hbase.acquire rfl ?_ (.inr ⟨?_, rfl⟩)
        · simp [initial, Context.setAttached]
        · simp [Thread.setHandle]
      · have hfree : (initial slot (.handle r u)).shared.attached s = false := by
          simp [initial, Context.setAttached, hs, Context.make]
        have hidle : ∀ t, ¬ ((initial slot (.handle r u)).locals t).Attached s := by
          refine forall_update (fun th : Thread α => ¬ th.Attached s) ?_
            (fun _ _ => init_not_attached s)
          rintro (h | h)
          · cases h
          · simp [Thread.setHandle, hs, Thread.init] at h
        exact ⟨fun _ => hidle, fun hf => absurd hfree hf, fun t u ht => absurd ht (hidle t)⟩
    · exact forall_update (fun th : Thread α => th.Uses) (uses_of_idle rfl)
        fun _ _ => uses_of_idle rfl

theorem AttachInv.atom {c : Config Tid α} {sh : Context α} (h : AttachInv c)
    (he : AttachEffect c.shared (c.locals t) sh th') (hu : th'.Uses) :
    AttachInv ⟨sh, Function.update c.locals t th'⟩ := by
  have huses : ∀ v, (Function.update c.locals t th' v).Uses :=
    forall_update (fun th : Thread α => th.Uses) hu fun v _ => h.uses v
  refine ⟨fun r => ?_, huses⟩
  cases he with
  | keep hflag hsame => exact (h.owned r).frame (by rw [hflag]) (hsame r)
  | attach s hfree hflag hself hsame =>
    by_cases hr : r = s
    · subst hr
      exact (h.owned r).acquire hfree (by rw [hflag, Function.update_self]; decide) hself
    · exact (h.owned r).frame (by rw [hflag, Function.update_of_ne hr]) (hsame r hr)
  | detach s hheld hflag hself hsame =>
    by_cases hr : r = s
    · subst hr
      exact (h.owned r).release hheld (by rw [hflag, Function.update_self]) hself
    · exact (h.owned r).frame (by rw [hflag, Function.update_of_ne hr]) (hsame r hr)

/-- Two idle threads swap their handles of one side. -/
theorem AttachInv.move {c : Config Tid α} (h : AttachInv c) (hne : u ≠ t)
    (ht : (c.locals t).pc = .idle) (hu : (c.locals u).pc = .idle) :
    AttachInv (moveHandle c t u s) := by
  have hidle : ∀ (th : Thread α) (r : Side), th.pc = .idle →
      (th.Attached r ↔ (th.handle r).here = true) := by
    intro th r hpc
    simp [Thread.Attached, hpc, Pc.acquired, Pc.detaching]
  refine ⟨fun r => ?_, ?_⟩
  · -- of side `s` the two threads exchange what they own, of the other side nothing
    refine (h.owned r).reindex (if r = s then Equiv.swap t u else .refl _) fun v => ?_
    unfold moveHandle
    dsimp only
    by_cases hvt : v = t
    · subst hvt
      rw [Function.update_self, hidle ((c.locals v).setHandle s _) r ht]
      by_cases hr : r = s
      · simp [hr, Thread.setHandle, hidle _ _ hu]
      · simp [hr, Thread.setHandle, hidle _ _ ht]
    · by_cases hvu : v = u
      · subst hvu
        rw [Function.update_of_ne hvt, Function.update_self,
          hidle ((c.locals v).setHandle s _) r hu]
        by_cases hr : r = s
        · simp [hr, Thread.setHandle, hidle _ _ ht]
        · simp [hr, Thread.setHandle, hidle _ _ hu]
      · rw [Function.update_of_ne hvt, Function.update_of_ne hvu]
        by_cases hr : r = s
        · simp [hr, Equiv.swap_apply_of_ne_of_ne hvt hvu]
        · simp [hr]
  · have hquiet : ∀ th : Thread α, th.pc = .idle → th.Uses := by
      intro th hpc r hr
      rw [hpc] at hr
      cases hr
    exact forall_update (fun th : Thread α => th.Uses) (hquiet (Thread.setHandle _ s _) ht)
      fun v _ => forall_update (fun th : Thread α => th.Uses)
        (hquiet (Thread.setHandle _ s _) hu) (fun w _ => h.uses w) v

/-! ## Along every run -/

/-- The two ownership facts. -/
structure Inv (c : Config Tid α) : Prop where
  lock : LockInv c
  attach : AttachInv c

variable {ok : Config Tid α → Tid → Label α → Prop}

theorem inv_step {c d : Config Tid α} {x : Tid × Label α} (h : Inv c)
    (hs : Step movedFrom ok c x d) : Inv d := by
  obtain ⟨t, l⟩ := x
  cases hs with
  | atom hp =>
    cases hp with
    | mk hok hatom =>
      have heff := hatom.attachEffect (fun k hk => h.lock.unlock_ok hk) (h.attach.uses t)
        (fun s hs => h.attach.flag hs)
      exact ⟨h.lock.atom hatom.lockEffect, h.attach.atom heff (hatom.uses (h.attach.uses t))⟩
  | move u s hok hne ht hu hhere =>
    exact ⟨h.lock.move (moveHandle_pc c t u s), h.attach.move hne ht hu⟩

theorem inv_run {slot : Nat → α} {o : Owner Tid} {w : List (Tid × Label α)} {c : Config Tid α}
    (h : Run (Step movedFrom ok) (initial slot o) w c) : Inv c :=
  h.stateInvariant ⟨lockInv_initial slot o, attachInv_initial slot o⟩
    fun _ _ _ hi hs => inv_step hi hs

end Intrinsic.Promise
