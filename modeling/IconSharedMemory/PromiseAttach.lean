import IconSharedMemory.PromiseLocks

/-! # Waiting for handles to be detached

`Reset` and the destructor of a promise context wait until no handle is attached.
They look at the attached flag of a side first and, if it is set, wait for the
side's detach futex.  The flag and the futex are two variables: a detachment
clears the flag and posts the futex, but only `Reset` takes the token away again.
A handle that is acquired while a token of an earlier handle is still there is
not waited for (`stale_detach_token`).

As long as a handle is acquired only while its side's detach futex is not posted, no
detachment of that side is about to post it, and the destructor is not running
(`AttachesCleanly`), a set flag means that there is no token (`Clean`), and a
`Reset` or destructor that got past a side has that side detached for good
(`Settled`).  A handle whose `Detach` has cleared the flag points to the context for
two more steps.  When `Reset` and the destructor do not come in between
(`ReleasesQuietly`), no handle points to the context any more (`Gone`), and a
successful wait means that nothing is attached (`nothingAttached_of_succeeds`).
-/
namespace Intrinsic.Promise
open Runs

variable {Tid α : Type} {movedFrom : α → α} {c c' : Context α} {th th' : Thread α} {l : Label α}
  {s : Side} {t u : Tid}

/-- The destructor of the context has begun. -/
def Pc.destroying : Pc α → Bool
  | .destroyPost | .destroyLoad _ | .destroyWait _ | .destroyFatal | .destroyed => true
  | _ => false

/-- **A handle is acquired only when nothing of an earlier one is left.** -/
def AttachesCleanly (c : Config Tid α) (t : Tid) (_l : Label α) : Prop :=
  ∀ s reusable, (c.locals t).pc = .acquireCas s reusable → c.shared.attached s = false →
    c.shared.detached s ≠ .posted ∧ (∀ u k, (c.locals u).pc ≠ .detachPost s k) ∧
      ∀ u, (c.locals u).pc.destroying = false

/-! ## Tokens -/

/-- A detach futex becomes posted only by a detachment. -/
theorem Atom.posted (h : Atom movedFrom c th l c' th') (hp : c'.detached s = .posted) :
    c.detached s = .posted ∨ ∃ k, th.pc = .detachPost s k := by
  have hset : ∀ r f, (c.setDetached r f).detached s = .posted →
      (r = s → f ≠ .posted ∨ c.detached s = .posted ∨ ∃ k, th.pc = .detachPost s k) →
      c.detached s = .posted ∨ ∃ k, th.pc = .detachPost s k := by
    intro r f hp hr
    by_cases hrs : s = r
    · subst hrs
      rw [Context.setDetached_self] at hp
      exact (hr rfl).resolve_left fun hf => hf hp
    · rw [Context.setDetached_of_ne _ hrs] at hp
      exact .inl hp
  cases h with
  | detachPost r k hpc =>
    exact hset r _ hp fun hrs => .inr (.inr ⟨k, hrs ▸ hpc⟩)
  | resetWait r f st hpc hwait hst | destroyWait r f st hpc hwait hst =>
    exact hset r f hp fun _ => .inl (by rw [(hwait.ok hst).2]; exact nofun)
  | resetTimeout r f st hpc hwait hst | destroyFatal r f st hpc hwait hst =>
    refine hset r f hp fun hrs => ?_
    rw [hwait.notOk hst, hrs]
    exact or_iff_not_imp_left.mpr fun hf => .inl (not_not.mp hf)
  | resetDetached r hpc => exact hset r _ hp fun _ => .inl (BinaryFutex.tryWait_not_posted _)
  | _ => exact .inl hp

/-- A thread gets to the post of a detachment by clearing the flag. -/
theorem Atom.detachPost_of {k : Cont α} (h : Atom movedFrom c th l c' th')
    (hpc' : th'.pc = .detachPost s k) : c.attached s = true ∧ c'.attached s = false := by
  cases h with
  | detachExchange r j _ hatt =>
    obtain rfl : r = s := (Pc.detachPost.inj hpc').1
    exact ⟨hatt, Context.setAttached_self ..⟩
  | resetLock j => cases j <;> cases hpc'
  | resetLoadFalse r | resetWait r | resetDetached r | destroyLoadFalse r | destroyWait r =>
    cases r <;> cases hpc'
  | acquireBusy _ hpc | setNotAttached _ hpc | setBusy _ hpc => cases hpc.symm.trans hpc'
  | getNotAttached hpc | getBusy hpc | peekNotAttached hpc | peekCancelled hpc
  | waitNotAttached hpc | waitCancelled hpc | cancelBusy hpc => cases hpc.symm.trans hpc'
  | _ => cases hpc'

/-- A flag is set only by an acquisition. -/
theorem Atom.attaches (h : Atom movedFrom c th l c' th') (hatt : c'.attached s = true) :
    c.attached s = true ∨ ∃ r, th.pc = .acquireCas s r ∧ c.attached s = false := by
  cases h with
  | acquireCasOk r reusable hpc hcas =>
    by_cases hr : s = r
    · subst hr; exact .inr ⟨reusable, hpc, hcas⟩
    · rw [Context.setAttached_of_ne _ hr] at hatt
      exact .inl hatt
  | detachExchange r k hpc hwas =>
    by_cases hr : s = r
    · subst hr; exact .inl hwas
    · rw [Context.setAttached_of_ne _ hr] at hatt
      exact .inl hatt
  | _ => exact .inl hatt

/-- **A set flag means that no token is there and none is coming.** -/
def Clean (c : Config Tid α) : Prop :=
  ∀ s, c.shared.attached s = true →
    c.shared.detached s ≠ .posted ∧ ∀ u k, (c.locals u).pc ≠ .detachPost s k

variable [DecidableEq Tid]

theorem clean_initial (slot : Nat → α) (o : Owner Tid) : Clean (initial slot o) := by
  intro s _
  cases o with
  | user => exact ⟨nofun, fun _ _ => nofun⟩
  | handle r v =>
    refine ⟨nofun, fun u k => ?_⟩
    exact forall_update (fun th : Thread α => th.pc ≠ .detachPost s k)
      (by intro h; cases h) (fun _ _ h => by cases h) u

theorem Clean.atom {c : Config Tid α} {sh : Context α} (h : Clean c)
    (hok : AttachesCleanly c t l) (hatom : Atom movedFrom c.shared (c.locals t) l sh th') :
    Clean ⟨sh, Function.update c.locals t th'⟩ := by
  intro s hatt
  -- before the step there was no token of side `s` and none was coming
  have hbefore : c.shared.detached s ≠ .posted ∧ ∀ u k, (c.locals u).pc ≠ .detachPost s k := by
    rcases hatom.attaches hatt with hwas | ⟨r, hpc, hcas⟩
    · exact h s hwas
    · exact ⟨(hok s r hpc hcas).1, (hok s r hpc hcas).2.1⟩
  refine ⟨fun hp => ?_, fun u k => ?_⟩
  · rcases hatom.posted hp with hp' | ⟨k, hk⟩
    · exact hbefore.1 hp'
    · exact hbefore.2 t k hk
  · refine forall_update (fun th : Thread α => th.pc ≠ .detachPost s k) (fun hk => ?_)
      (fun v _ => hbefore.2 v k) u
    cases (hatom.detachPost_of hk).2.symm.trans hatt

/-! ## Past a side -/

/-- `Reset` or the destructor has found this side detached.  `Reset` still holds
the mutex that keeps new handles of this side out. -/
def Pc.past : Pc α → Side → Bool
  | .resetLoad .promise, s | .resetWait .promise, s => s = .future
  | .resetLock .readValue, _ | .resetLock .writeValue, _ | .resetEmpty, _ | .resetMove, _
  | .resetDrop _, _ | .resetHasValue, _ | .resetDetached _, _ | .resetStore, _ => true
  | .resetUnlock held st, s => st.isOk && decide (s.getLock ∈ held)
  | .destroyLoad .promise, s | .destroyWait .promise, s => s = .future
  | .destroyed, _ => true
  | _, _ => false

omit [DecidableEq Tid] in
theorem past_cases {pc : Pc α} (h : pc.past s = true) :
    s.getLock ∈ pc.locks ∨ pc.destroying = true := by
  cases pc with
  | resetLock k =>
    cases k with
    | readValue | writeValue =>
      exact .inl (by cases s <;> simp [Pc.locks, Lock.heldBefore, Side.getLock])
    | _ => cases h
  | resetLoad r | resetWait r =>
    cases r with
    | promise =>
      obtain rfl : s = .future := by simpa [Pc.past] using h
      exact .inl (by simp [Pc.locks, Lock.heldBefore, Side.getLock])
    | future => cases h
  | resetEmpty | resetMove | resetDrop | resetHasValue | resetDetached | resetStore =>
    exact .inl (by cases s <;> simp [Pc.locks, Lock.heldBefore, Side.getLock])
  | resetUnlock held st =>
    simp only [Pc.past, Bool.and_eq_true, decide_eq_true_eq] at h
    exact .inl h.2
  | destroyLoad | destroyWait | destroyed => exact .inr rfl
  | _ => cases h

omit [DecidableEq Tid] in
/-- `Reset` is past the side it has just looked at, and past those it was past before. -/
theorem past_afterReset {r : Side} (h : (r.afterReset : Pc α).past s = true) :
    s = r ∨ (Pc.resetLoad r : Pc α).past s = true ∧ (Pc.resetWait r : Pc α).past s = true := by
  cases r with
  | future => exact .inl (by simpa [Side.afterReset, Pc.past] using h)
  | promise =>
    cases s with
    | promise => exact .inl rfl
    | future => exact .inr ⟨rfl, rfl⟩

omit [DecidableEq Tid] in
/-- So is the destructor. -/
theorem past_afterDestroy {r : Side} (h : (r.afterDestroy : Pc α).past s = true) :
    s = r ∨ (Pc.destroyLoad r : Pc α).past s = true ∧
      (Pc.destroyWait r : Pc α).past s = true := by
  cases r with
  | future => exact .inl (by simpa [Side.afterDestroy, Pc.past] using h)
  | promise =>
    cases s with
    | promise => exact .inl rfl
    | future => exact .inr ⟨rfl, rfl⟩

/-- The thread is about to see the flag of this side false, or to take its token. -/
def Pc.Finds (c : Context α) (s : Side) (pc : Pc α) : Prop :=
  (pc = .resetLoad s ∨ pc = .destroyLoad s) ∧ c.attached s = false ∨
    (pc = .resetWait s ∨ pc = .destroyWait s) ∧ c.detached s = .posted

/-- A thread gets past a side by seeing its flag false or by taking its token. -/
theorem Atom.past_of (h : Atom movedFrom c th l c' th') (hpast : th'.pc.past s = true) :
    th.pc.past s = true ∨ th.pc.Finds c s ∧ c'.attached = c.attached := by
  cases h with
  | resetLoadFalse r hpc hatt =>
    obtain rfl | ⟨hload, -⟩ := past_afterReset hpast
    · exact .inr ⟨.inl ⟨.inl hpc, hatt⟩, rfl⟩
    · exact .inl (by rw [hpc, hload])
  | resetWait r f st hpc hwait hst =>
    obtain rfl | ⟨-, hwaits⟩ := past_afterReset hpast
    · exact .inr ⟨.inr ⟨.inl hpc, (hwait.ok hst).1⟩, rfl⟩
    · exact .inl (by rw [hpc, hwaits])
  | destroyLoadFalse r hpc hatt =>
    obtain rfl | ⟨hload, -⟩ := past_afterDestroy hpast
    · exact .inr ⟨.inl ⟨.inr hpc, hatt⟩, rfl⟩
    · exact .inl (by rw [hpc, hload])
  | destroyWait r f st hpc hwait hst =>
    obtain rfl | ⟨-, hwaits⟩ := past_afterDestroy hpast
    · exact .inr ⟨.inr ⟨.inr hpc, (hwait.ok hst).1⟩, rfl⟩
    · exact .inl (by rw [hpc, hwaits])
  | resetLoad r hpc hatt | destroyLoad r hpc hatt =>
    rw [hpc]
    cases r with
    | promise => exact .inl hpast
    | future => cases hpast
  | resetTimeout r f st hpc hwait hst =>
    have hcode : st.code ≠ .ok := by simpa [RealtimeStatus.isOk] using hst
    cases r <;>
      simp [Thread.goto, Pc.past, Side.notDetached, formatStatus, Status.isOk, hcode] at hpast
  | resetLock k hpc =>
    rw [hpc]
    cases k <;> exact .inl hpast
  | resetUnlock k j held st hpc =>
    rw [hpc]
    simp only [Thread.goto, Pc.past, Bool.and_eq_true, decide_eq_true_eq] at hpast ⊢
    exact .inl ⟨hpast.1, List.mem_cons_of_mem _ hpast.2⟩
  | resetDetached r hpc => exact .inl (by rw [hpc]; rfl)
  | resetEmpty hpc | resetNotEmpty hpc | resetMoveNone hpc | resetHasValue hpc | resetStore hpc =>
    exact .inl (by rw [hpc]; rfl)
  | resetMove _ hpc | resetDrop _ hpc => exact .inl (by rw [hpc]; rfl)
  | acquireBusy | setNotAttached | setBusy | getNotAttached | getBusy | peekNotAttached
  | peekCancelled | waitNotAttached | waitCancelled | cancelBusy => exact .inl hpast
  | _ => cases hpast

/-- **A side that was found detached stays detached.** -/
def Settled (c : Config Tid α) : Prop :=
  ∀ t s, (c.locals t).pc.past s = true → c.shared.attached s = false

theorem Settled.atom {c : Config Tid α} {sh : Context α} (h : Settled c) (hinv : Inv c)
    (hclean : Clean c) (hok : AttachesCleanly c t l)
    (hatom : Atom movedFrom c.shared (c.locals t) l sh th') :
    Settled ⟨sh, Function.update c.locals t th'⟩ := by
  -- nobody sets the flag of a side that a thread is past
  have hkeep : ∀ v s, (c.locals v).pc.past s = true → sh.attached s = false := by
    intro v s hv
    by_contra hne
    rcases hatom.attaches (Bool.not_eq_false _ ▸ hne) with hwas | ⟨r, hpc, hcas⟩
    · rw [h v s hv] at hwas; cases hwas
    · rcases past_cases hv with hlock | hdestroy
      · have hself : s.getLock ∈ (c.locals t).pc.locks := by
          rw [hpc]; exact List.mem_singleton.mpr rfl
        obtain rfl := hinv.lock.exclusive hlock hself
        rw [hpc] at hv; cases hv
      · rw [(hok s r hpc hcas).2.2 v] at hdestroy; cases hdestroy
  intro v s hv
  rcases of_update (P := fun th : Thread α => th.pc.past s = true) hv with ⟨-, hp⟩ | ⟨-, hp⟩
  · rcases hatom.past_of hp with hwas | ⟨hsee, hsame⟩
    · exact hkeep t s hwas
    · show sh.attached s = false
      rw [hsame]
      rcases hsee with ⟨-, hfalse⟩ | ⟨-, hposted⟩
      · exact hfalse
      · by_contra hne
        exact (hclean s (Bool.not_eq_false _ ▸ hne)).1 hposted
  · exact hkeep v s hp

/-! ## What `Reset` and the destructor can rely on -/

theorem clean_settled_step {c d : Config Tid α} {x : Tid × Label α}
    (h : Inv c ∧ Clean c ∧ Settled c) (hs : Step movedFrom AttachesCleanly c x d) :
    Inv d ∧ Clean d ∧ Settled d := by
  obtain ⟨hinv, hclean, hsettled⟩ := h
  refine ⟨inv_step hinv hs, ?_⟩
  obtain ⟨t, l⟩ := x
  cases hs with
  | atom hp =>
    cases hp with
    | mk hok hatom => exact ⟨hclean.atom hok hatom, hsettled.atom hinv hclean hok hatom⟩
  | move u s hok hne ht hu hhere =>
    refine ⟨fun r hr => ⟨(hclean r hr).1, fun v k => ?_⟩, fun v r hv => ?_⟩
    · rw [moveHandle_pc]; exact (hclean r hr).2 v k
    · rw [moveHandle_pc] at hv; exact hsettled v r hv

theorem settled_initial (slot : Nat → α) (o : Owner Tid) : Settled (initial slot o) := by
  intro v s hv
  rw [initial_pc] at hv
  cases hv

theorem clean_settled_run {slot : Nat → α} {o : Owner Tid} {w : List (Tid × Label α)}
    {c : Config Tid α} (h : Run (Step movedFrom AttachesCleanly) (initial slot o) w c) :
    Inv c ∧ Clean c ∧ Settled c := by
  refine h.stateInvariant (I := fun c => Inv c ∧ Clean c ∧ Settled c) ?_
    fun _ _ _ hi hs => clean_settled_step hi hs
  exact ⟨⟨lockInv_initial slot o, attachInv_initial slot o⟩, clean_initial slot o,
    settled_initial slot o⟩

/-- **`Reset` and the destructor do not find a side detached while its `Detach` is going
on.** -/
def ReleasesQuietly (c : Config Tid α) (t : Tid) (_l : Label α) : Prop :=
  ∀ s, (c.locals t).pc.Finds c.shared s → ∀ u, (c.locals u).pc.detaching s = false

/-- How the handles of a context are to be acquired and released. -/
def HandlesCleanly (c : Config Tid α) (t : Tid) (l : Label α) : Prop :=
  AttachesCleanly c t l ∧ ReleasesQuietly c t l

/-- A handle comes to point here when it is acquired. -/
theorem Atom.here_of (h : Atom movedFrom c th l c' th') (hhere : (th'.handle s).here = true) :
    (th.handle s).here = true ∨ th.pc.acquired s = true := by
  cases h with
  | acquireUnlock r reusable hpc =>
    by_cases hr : s = r
    · exact .inr (by rw [hpc, hr]; exact decide_eq_true rfl)
    · exact .inl ((congrArg Handle.here (Function.update_of_ne hr _ _)).symm.trans hhere)
  | detachNull r k st hpc =>
    by_cases hr : s = r
    · subst hr
      cases (congrArg Handle.here (Function.update_self ..)).symm.trans hhere
    · exact .inl ((congrArg Handle.here (Function.update_of_ne hr _ _)).symm.trans hhere)
  | _ => exact .inl hhere

/-- A move brings no new handle. -/
theorem moveHandle_handle (c : Config Tid α) (t u : Tid) (s : Side) (v : Tid)
    (r : Side) : ∃ w, ((moveHandle c t u s).locals v).handle r = (c.locals w).handle r := by
  have hset : ∀ w w', ∃ x, ((c.locals w).setHandle s ((c.locals w').handle s)).handle r =
      (c.locals x).handle r := by
    intro w w'
    by_cases hr : r = s
    · subst hr
      exact ⟨w', Function.update_self ..⟩
    · exact ⟨w, Function.update_of_ne hr _ _⟩
  refine forall_update (fun th : Thread α => ∃ w, th.handle r = (c.locals w).handle r) (hset t u)
    (fun w _ => ?_) v
  exact forall_update (fun th : Thread α => ∃ w, th.handle r = (c.locals w).handle r) (hset u t)
    (fun x _ => ⟨x, rfl⟩) w

/-- **No handle of a side that was found detached points here.** -/
def Gone (c : Config Tid α) : Prop :=
  ∀ t s, (c.locals t).pc.past s = true → ∀ u, ((c.locals u).handle s).here = false

theorem Gone.step {c d : Config Tid α} {x : Tid × Label α} (h : Gone c) (hinv : Inv c)
    (hclean : Clean c) (hsettled : Settled c) (hs : Step movedFrom HandlesCleanly c x d) :
    Gone d := by
  obtain ⟨t, l⟩ := x
  cases hs with
  | atom hp =>
    cases hp with
    | @mk _ _ sh th' hok hatom =>
      have hsettled' := hsettled.atom hinv hclean hok.1 hatom
      intro v s hv
      -- before the step the flag is false, and no handle of the side points here
      have hbefore : c.shared.attached s = false ∧ ∀ u, ((c.locals u).handle s).here = false := by
        rcases of_update (P := fun th : Thread α => th.pc.past s = true) hv with ⟨-, hp⟩ | ⟨-, hp⟩
        · rcases hatom.past_of hp with hwas | ⟨hfinds, hsame⟩
          · exact ⟨hsettled t s hwas, h t s hwas⟩
          · have hflag : c.shared.attached s = false := by
              rw [← hsame]
              exact hsettled.atom hinv hclean hok.1 hatom v s hv
            refine ⟨hflag, fun u => ?_⟩
            by_contra hhere
            have hdet := hinv.attach.detaching hflag (Bool.not_eq_false _ ▸ hhere)
            cases (hok.2 s hfinds u).symm.trans hdet
        · exact ⟨hsettled v s hp, h v s hp⟩
      refine forall_update (fun th : Thread α => (th.handle s).here = false) ?_
        fun u _ => hbefore.2 u
      by_contra hhere
      rcases hatom.here_of (Bool.not_eq_false _ ▸ hhere) with hwas | hacq
      · cases (hbefore.2 t).symm.trans hwas
      · cases hbefore.1.symm.trans (hinv.attach.flag (.inl hacq))
  | move u s hok hne ht hu hhere =>
    intro v r hv w
    rw [moveHandle_pc] at hv
    obtain ⟨w', hw'⟩ := moveHandle_handle c t u s w r
    rw [hw']
    exact h v r hv w'

/-- No handle is attached. -/
def NothingAttached (c : Config Tid α) : Prop :=
  ∀ s, c.shared.attached s = false ∧ ∀ u, ((c.locals u).handle s).here = false

/-- The thread is at the `return OkStatus()` of `Reset`, with its mutexes still
held, or at the end of the destructor. -/
def Pc.succeeds (pc : Pc α) : Prop :=
  pc = .resetUnlock (.writeValue :: Lock.writeValue.heldBefore) okStatus ∨ pc = .destroyed

/-- **A successful wait means that nothing is attached**, in every run whose handles are
acquired cleanly, and in which `Reset` and the destructor do not find a side detached while
its `Detach` is going on. -/
theorem nothingAttached_of_succeeds {slot : Nat → α} {o : Owner Tid} {w : List (Tid × Label α)}
    {c : Config Tid α} (h : Run (Step movedFrom HandlesCleanly) (initial slot o) w c)
    (hpc : (c.locals t).pc.succeeds) : NothingAttached c := by
  have hinv : (Inv c ∧ Clean c ∧ Settled c) ∧ Gone c := by
    refine h.stateInvariant (I := fun c => (Inv c ∧ Clean c ∧ Settled c) ∧ Gone c) ?_ ?_
    · refine ⟨@clean_settled_run _ _ movedFrom _ _ _ _ _ .nil, fun v s hv => ?_⟩
      rw [initial_pc] at hv
      cases hv
    · rintro c x d ⟨hbase, hgone⟩ hs
      exact ⟨clean_settled_step hbase (hs.weaken fun _ _ _ hok => hok.1),
        hgone.step hbase.1 hbase.2.1 hbase.2.2 hs⟩
  obtain ⟨⟨-, -, hsettled⟩, hgone⟩ := hinv
  have hpast : ∀ s, (c.locals t).pc.past s = true := by
    intro s
    rcases hpc with hpc | hpc
    · rw [hpc]; cases s <;> rfl
    · rw [hpc]; rfl
  exact fun s => ⟨hsettled t s (hpast s), hgone t s (hpast s)⟩

/-- `HandlesCleanly` says something about this step. -/
def Pc.looks : Pc α → Bool
  | .acquireCas _ _ | .resetLoad _ | .resetWait _ | .destroyLoad _ | .destroyWait _ => true
  | _ => false

/-- A future is acquired, `Reset` waits for it to be detached and takes the token, a second one
is acquired and detached, and another `Reset` succeeds. -/
theorem nothingAttached_reacquired :
    ∃ (w : List (Bool × Label Nat)) (c : Config Bool Nat),
      Run (Step id HandlesCleanly) (initial (fun _ => 0) .user) w c ∧
        (c.locals false).pc.succeeds ∧ NothingAttached c := by
  have hfree : ∀ {c : Config Bool Nat} {t : Bool} {l : Label Nat},
      (c.locals t).pc.looks = false → HandlesCleanly c t l := by
    intro c t l hlooks
    refine ⟨fun s r h => ?_, fun s h => ?_⟩
    · rw [h] at hlooks
      cases hlooks
    · rcases h with ⟨h | h, -⟩ | ⟨h | h, -⟩ <;> rw [h] at hlooks <;> cases hlooks
  have hlook : ∀ {sh : Context Nat} {x y : Thread Nat} {t : Bool} {l : Label Nat},
      (∀ s, x.pc.detaching s = false ∧ y.pc.detaching s = false) →
        (∀ s r, ((Pool.two sh x y).locals t).pc ≠ .acquireCas s r) →
        HandlesCleanly (.two sh x y) t l :=
    fun hdet hcas => ⟨fun s r h => absurd h (hcas s r), fun s _ => Bool.forall_bool.mpr (hdet s)⟩
  have hnew : ∀ {sh : Context Nat} {x y : Thread Nat} {l : Label Nat}, x.pc = .idle →
      y.pc = .acquireCas .future false → sh.detached .future ≠ .posted →
        HandlesCleanly (.two sh x y) true l := by
    intro sh x y l hx hy hposted
    refine ⟨fun s r h _ => ?_, fun s h => ?_⟩
    · obtain ⟨rfl, -⟩ := Pc.acquireCas.inj (hy.symm.trans h)
      refine ⟨hposted, fun u k => ?_, fun u => ?_⟩ <;> cases u <;>
        simp [Pool.two, hx, hy, Pc.destroying]
    · simp [Pool.two, hy, Pc.Finds] at h
  have hrun : ∃ w c, Run (Step id HandlesCleanly) (initial (fun _ => 0) .user) w c ∧
      (c.locals false).pc.succeeds := by
    rw [Pool.eq_two (initial _ _)]
    exact ⟨_, _,
    .cons (.atom (.second (hfree rfl) (.acquireLock .future false rfl rfl))) <|
    .cons (.atom (.second (hnew rfl rfl nofun) (.acquireCasOk .future false rfl rfl))) <|
    .cons (.atom (.second (hfree rfl) (.acquireUnlock .future false rfl rfl))) <|
    .cons (.atom (.first (hfree rfl) (.resetStart rfl rfl))) <|
    .cons (.atom (.first (hfree rfl) (.resetLock .getPromise rfl rfl))) <|
    .cons (.atom (.first (hfree rfl) (.resetLock .cancel rfl rfl))) <|
    .cons (.atom (.first (hlook (fun _ => ⟨rfl, rfl⟩) nofun) (.resetLoad .future rfl rfl))) <|
    .cons (.atom (.second (hfree rfl) (.detachStart .future rfl rfl))) <|
    .cons (.atom (.second (hfree rfl) (.detachExchange .future .destroy rfl rfl))) <|
    .cons (.atom (.second (hfree rfl) (.detachPost .future .destroy rfl))) <|
    .cons (.atom (.second (hfree rfl) (.detachNull .future .destroy rtOkStatus rfl))) <|
    .cons (.atom (.first (hlook (fun _ => ⟨rfl, rfl⟩) nofun)
      (.resetWait .future .ready _ rfl .taken rfl))) <|
    .cons (.atom (.first (hlook (fun _ => ⟨rfl, rfl⟩) nofun) (.resetLoadFalse .promise rfl rfl))) <|
    .cons (.atom (.first (hfree rfl) (.resetLock .readValue rfl rfl))) <|
    .cons (.atom (.first (hfree rfl) (.resetLock .writeValue rfl rfl))) <|
    .cons (.atom (.first (hfree rfl) (.resetEmpty rfl rfl))) <|
    .cons (.atom (.first (hfree rfl) (.resetHasValue rfl))) <|
    .cons (.atom (.first (hfree rfl) (.resetDetached .future rfl))) <|
    .cons (.atom (.first (hfree rfl) (.resetDetached .promise rfl))) <|
    .cons (.atom (.first (hfree rfl) (.resetStore rfl))) <|
    .cons (.atom (.first (hfree rfl) (.resetUnlock .writeValue .readValue _ okStatus rfl rfl))) <|
    .cons (.atom (.first (hfree rfl) (.resetUnlock .readValue .cancel _ okStatus rfl rfl))) <|
    .cons (.atom (.first (hfree rfl) (.resetUnlock .cancel .getPromise _ okStatus rfl rfl))) <|
    .cons (.atom (.first (hfree rfl) (.resetUnlock .getPromise .getFuture _ okStatus rfl rfl))) <|
    .cons (.atom (.first (hfree rfl) (.resetReturn .getFuture okStatus rfl rfl))) <|
    .cons (.atom (.second (hfree rfl) (.acquireLock .future false rfl rfl))) <|
    .cons (.atom (.second (hnew rfl rfl nofun) (.acquireCasOk .future false rfl rfl))) <|
    .cons (.atom (.second (hfree rfl) (.acquireUnlock .future false rfl rfl))) <|
    .cons (.atom (.second (hfree rfl) (.detachStart .future rfl rfl))) <|
    .cons (.atom (.second (hfree rfl) (.detachExchange .future .destroy rfl rfl))) <|
    .cons (.atom (.second (hfree rfl) (.detachPost .future .destroy rfl))) <|
    .cons (.atom (.second (hfree rfl) (.detachNull .future .destroy rtOkStatus rfl))) <|
    .cons (.atom (.first (hfree rfl) (.resetStart rfl rfl))) <|
    .cons (.atom (.first (hfree rfl) (.resetLock .getPromise rfl rfl))) <|
    .cons (.atom (.first (hfree rfl) (.resetLock .cancel rfl rfl))) <|
    .cons (.atom (.first (hlook (fun _ => ⟨rfl, rfl⟩) nofun) (.resetLoadFalse .future rfl rfl))) <|
    .cons (.atom (.first (hlook (fun _ => ⟨rfl, rfl⟩) nofun) (.resetLoadFalse .promise rfl rfl))) <|
    .cons (.atom (.first (hfree rfl) (.resetLock .readValue rfl rfl))) <|
    .cons (.atom (.first (hfree rfl) (.resetLock .writeValue rfl rfl))) <|
    .cons (.atom (.first (hfree rfl) (.resetEmpty rfl rfl))) <|
    .cons (.atom (.first (hfree rfl) (.resetHasValue rfl))) <|
    .cons (.atom (.first (hfree rfl) (.resetDetached .future rfl))) <|
    .cons (.atom (.first (hfree rfl) (.resetDetached .promise rfl))) <|
    .single (.atom (.first (hfree rfl) (.resetStore rfl))), .inl rfl⟩
  obtain ⟨w, c, hrun, hpc⟩ := hrun
  exact ⟨w, c, hrun, hpc, nothingAttached_of_succeeds hrun hpc⟩

/-- **A stale token.**  A future is acquired and destroyed, which posts the detach
futex, and another one is acquired.  `Reset` takes the token of the first future
and returns ok although the second one is attached. -/
theorem stale_detach_token :
    ∃ (w : List (Bool × Label Nat)) (c : Config Bool Nat),
      Run (Step id fun _ _ _ => True) (initial (fun _ => 0) .user)
        (w ++ [(false, .resetReturned okStatus)]) c ∧
        c.shared.attached .future = true ∧ ((c.locals false).handle .future).here = true ∧
        (c.locals false).pc = .idle := by
  rw [Pool.eq_two (initial _ _)]
  refine ⟨_, _, .snoc (
    .cons (.atom (.first trivial (.acquireLock .future false rfl rfl))) <|
    .cons (.atom (.first trivial (.acquireCasOk .future false rfl rfl))) <|
    .cons (.atom (.first trivial (.acquireUnlock .future false rfl rfl))) <|
    .cons (.atom (.first trivial (.detachStart .future rfl rfl))) <|
    .cons (.atom (.first trivial (.detachExchange .future .destroy rfl rfl))) <|
    .cons (.atom (.first trivial (.detachPost .future .destroy rfl))) <|
    .cons (.atom (.first trivial (.detachNull .future .destroy rtOkStatus rfl))) <|
    .cons (.atom (.first trivial (.acquireLock .future false rfl rfl))) <|
    .cons (.atom (.first trivial (.acquireCasOk .future false rfl rfl))) <|
    .cons (.atom (.first trivial (.acquireUnlock .future false rfl rfl))) <|
    .cons (.atom (.first trivial (.resetStart rfl rfl))) <|
    .cons (.atom (.first trivial (.resetLock .getPromise rfl rfl))) <|
    .cons (.atom (.first trivial (.resetLock .cancel rfl rfl))) <|
    .cons (.atom (.first trivial (.resetLoad .future rfl rfl))) <|
    .cons (.atom (.first trivial (.resetWait .future .ready _ rfl .taken rfl))) <|
    .cons (.atom (.first trivial (.resetLoadFalse .promise rfl rfl))) <|
    .cons (.atom (.first trivial (.resetLock .readValue rfl rfl))) <|
    .cons (.atom (.first trivial (.resetLock .writeValue rfl rfl))) <|
    .cons (.atom (.first trivial (.resetEmpty rfl rfl))) <|
    .cons (.atom (.first trivial (.resetHasValue rfl))) <|
    .cons (.atom (.first trivial (.resetDetached .future rfl))) <|
    .cons (.atom (.first trivial (.resetDetached .promise rfl))) <|
    .cons (.atom (.first trivial (.resetStore rfl))) <|
    .cons (.atom (.first trivial (.resetUnlock .writeValue .readValue _ okStatus rfl rfl))) <|
    .cons (.atom (.first trivial (.resetUnlock .readValue .cancel _ okStatus rfl rfl))) <|
    .cons (.atom (.first trivial (.resetUnlock .cancel .getPromise _ okStatus rfl rfl))) <|
    .single (.atom (.first trivial (.resetUnlock .getPromise .getFuture _ okStatus rfl rfl))))
    (.atom (.first trivial (.resetReturn .getFuture okStatus rfl rfl))), rfl, rfl, rfl⟩

end Intrinsic.Promise
