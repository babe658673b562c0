import IconSharedMemory.PromiseCode

/-! # What is left of a promise context after its destructor

`Detach` clears the attached flag of its side and then posts the side's detach futex; `Post`
changes the word of the futex and then wakes up whoever sleeps on it.  The destructor of the
context looks at the flag first, and returns without waiting when it is false; when it waits, it
goes on as soon as it has the token.  A thread that was preempted before its `Post`, or in it
before the wake-up, then uses a futex that no longer exists (`detach_posts_after_destruction`).

Nothing else goes wrong.  If the destructor gets past a side only while no `Detach` of that side
is at its `Post` (`DestroysQuietly`), and handles are acquired cleanly, no step after the
destructor's last one touches the context (`untouched_when_destroyed`).  All of this is about the
context over the code of its futexes, where a `Post` is not over before its wake-up.

While a destructor runs, everybody else reaches the context through a handle
(`ThroughHandles`).  Without that nothing can be said: a thread that keeps a bare
pointer can use it at any time.
-/
namespace Intrinsic.Promise
open Runs AtomicObjects

variable {Tid α : Type} {movedFrom : α → α} {c c' : Context α} {th th' : Thread α} {l : Label α}
  {s : Side} {t u : Tid}

/-! ## Accesses -/

/-- A call on a handle that points nowhere, or the move of a handle: a step from
`idle` that does not look at the context. -/
def Label.handleOnly (l : Label α) : Prop :=
  (∃ v, l = .setReturned v Side.promise.notAttached) ∨
    l = .getReturned (.error Side.future.notAttached) ∨
    l = .peekReturned (.error Side.future.notAttached) ∨
    l = .waitReturned (formatStatus .failedPrecondition (ascii "Future is not attached.")) ∨
    ∃ s, l = .moved s

/-- The step with label `l` at this program point reads or writes a member of the
context. -/
def Pc.Touches (l : Label α) : Pc α → Prop
  | .idle => ¬ l.handleOnly
  -- only the pointer in the handle is cleared
  | .detachNull _ _ _ => False
  | _ => True

/-- Where a thread is; it is there until the call of a futex has returned. -/
def pcOf (c : CodeConfig Tid α) (t : Tid) : Pc α := (c.locals t).here.thread.pc

/-- The step reads or writes a member of the context.  All steps of a futex do. -/
def Accesses (pc : Pc α) : CodeEvent α → Prop
  | .own (.step (some l)) => pc.Touches l
  | .own (.give _ _) | .own (.take _ _) => False
  | _ => True

/-- **While one thread destroys the context, the others use it through a handle.** -/
def ThroughHandles (c : CodeConfig Tid α) (t : Tid) (x : CodeEvent α) : Prop :=
  ∀ u, u ≠ t → (pcOf c u).destroying = true → Accesses (pcOf c t) x →
    ∃ s, ((c.locals t).here.thread.handle s).here = true

/-- The destructor gets past a side: it reads the flag as false, or it takes the token. -/
def Passes (m : Members α) (pc : Pc α) (x : CodeEvent α) (s : Side) : Prop :=
  pc = .destroyLoad s ∧ m.attached s = false ∨ x = .object (.destroyWait s) (.code .waitTaken)

/-- **The destructor gets past a side only while no `Detach` of that side is at its `Post`**,
about to call it or in the call. -/
def DestroysQuietly (c : CodeConfig Tid α) (t : Tid) (x : CodeEvent α) : Prop :=
  ∀ s, Passes c.shared.1 (pcOf c t) x s → ∀ u k, pcOf c u ≠ .detachPost s k

/-- How a context is used in any case: handles are acquired cleanly, and while a destructor runs
there is no other way to the context. -/
def UsedWithHandles [DecidableEq Tid] (movedFrom : α → α) (c : CodeConfig Tid α) (t : Tid)
    (x : CodeEvent α) : Prop :=
  ThroughHandles c t x ∧ Promises movedFrom AttachesCleanly c t x

/-- How a context that is going to be destroyed must be used. -/
def UsedUntilDestroyed [DecidableEq Tid] (movedFrom : α → α) (c : CodeConfig Tid α) (t : Tid)
    (x : CodeEvent α) : Prop :=
  UsedWithHandles movedFrom c t x ∧ DestroysQuietly c t x

/-! ## The calls of a futex -/

/-- The thread is neither in the destructor nor in the last steps of a `Detach`. -/
def Pc.plain (pc : Pc α) : Prop := pc.destroying = false ∧ ∀ s, pc.detaching s = false

theorem Pc.plain_of_unlocks {pc : Pc α} {k : Lock} (h : pc.unlocks = some k) : pc.plain := by
  cases pc <;> first | exact ⟨rfl, fun _ => rfl⟩ | cases h

theorem Unlocked.plain {k : Lock} {st : RealtimeStatus} (h : Unlocked th k st l th') :
    th'.pc.plain := by
  cases h <;> exact ⟨rfl, fun _ => rfl⟩

theorem Unlocked.here {k : Lock} {st : RealtimeStatus} (h : Unlocked th k st l th')
    (hhere : (th.handle s).here = true) : (th'.handle s).here = true := by
  cases h with
  | acquireUnlock r reusable =>
    show (Function.update th.handle r ⟨true, reusable⟩ s).here = true
    by_cases hr : s = r
    · rw [hr, Function.update_self]
    · rwa [Function.update_of_ne hr]
  | _ => exact hhere

/-- After an `Unlock` the call goes on, or it is where it was. -/
theorem next_unlock {k : Lock} (r : FutexCode.Outcome) (hk : th.pc.unlocks = some k) :
    (∃ l, Unlocked th k r.status l ((Call.unlock k th).next r th)) ∨
      (Call.unlock k th).next r th = th := by
  unfold Call.next
  cases h : afterUnlock th r.status with
  | none => exact .inr rfl
  | some y => exact .inl ⟨y.1, unlocked_of_afterUnlock hk h⟩

/-- The calls of a futex in a `Detach` and in the destructor. -/
inductive Call.Special : Call α → Prop
  | detachPost (s : Side) (k : Cont α) : Special (.detachPost s k)
  | destroyPost : Special .destroyPost
  | destroyWait (s : Side) : Special (.destroyWait s)

/-- All other calls begin and end elsewhere. -/
theorem Call.special_or_plain {k : Call α} (r : FutexCode.Outcome) (hat : k.At th) :
    k.Special ∨ th.pc.plain ∧ (k.next r th).pc.plain := by
  have hfrom : ∀ {pc : Pc α}, th.pc = pc → pc.plain → th.pc.plain := fun h hpc => h ▸ hpc
  have hif : ∀ {b : Bool} {pc : Pc α}, pc.plain → th.pc.plain →
      (if b then th.goto pc else th).pc.plain := by
    intro b pc hpc hth
    cases b
    · exact hth
    · exact hpc
  cases k with
  | detachPost s k => exact .inl (.detachPost s k)
  | destroyPost => exact .inl .destroyPost
  | destroyWait s => exact .inl (.destroyWait s)
  | isHeld k => exact .inr ⟨Pc.plain_of_unlocks hat, Pc.plain_of_unlocks hat⟩
  | unlock k th₀ =>
    obtain ⟨rfl, hk⟩ := hat
    refine .inr ⟨Pc.plain_of_unlocks hk, ?_⟩
    obtain ⟨l, h⟩ | h := next_unlock r hk
    · exact h.plain
    · rw [h]
      exact Pc.plain_of_unlocks hk
  | lock k =>
    have hth : th.pc.plain := by
      rcases hat with ⟨hpc, -⟩ | ⟨hpc, -⟩ <;> exact hfrom hpc ⟨rfl, fun _ => rfl⟩
    exact .inr ⟨hth, hif (by cases k <;> exact ⟨rfl, fun _ => rfl⟩) hth⟩
  | set | get =>
    have hth := hfrom hat.1 ⟨rfl, fun _ => rfl⟩
    exact .inr ⟨hth, hif ⟨rfl, fun _ => rfl⟩ hth⟩
  | acquire | cancel =>
    have hth := hfrom hat ⟨rfl, fun _ => rfl⟩
    exact .inr ⟨hth, hif ⟨rfl, fun _ => rfl⟩ hth⟩
  | waitFutex =>
    refine .inr ⟨hfrom hat ⟨rfl, fun _ => rfl⟩, ?_⟩
    simp only [Call.next]
    split <;> exact ⟨rfl, fun _ => rfl⟩
  | resetWait s =>
    refine .inr ⟨hfrom hat ⟨rfl, fun _ => rfl⟩, ?_⟩
    simp only [Call.next]
    split <;> cases s <;> exact ⟨rfl, fun _ => rfl⟩
  | resetDetached s =>
    refine .inr ⟨hfrom hat ⟨rfl, fun _ => rfl⟩, ?_⟩
    cases s <;> exact ⟨rfl, fun _ => rfl⟩
  | setPost | cancelPost | getTryWait | resetHasValue =>
    exact .inr ⟨hfrom hat ⟨rfl, fun _ => rfl⟩, rfl, fun _ => rfl⟩

/-- No call takes a handle away. -/
theorem Call.next_here {k : Call α} (r : FutexCode.Outcome) (hat : k.At th)
    (hhere : (th.handle s).here = true) : ((k.next r th).handle s).here = true := by
  cases k with
  | unlock k th₀ =>
    obtain ⟨rfl, hk⟩ := hat
    obtain ⟨l, h⟩ | h := next_unlock r hk
    · exact h.here hhere
    · rwa [h]
  | acquire | set | get | cancel | lock =>
    simp only [Call.next]
    split <;> exact hhere
  | _ => exact hhere

/-- A call that leads to the last steps of a `Detach` is its `Post`. -/
theorem Call.at_detachPost {k : Call α} (r : FutexCode.Outcome) (hat : k.At th)
    (hdet : (k.next r th).pc.detaching s = true) :
    ∃ j, th.pc = .detachPost s j ∧ (k.next r th).pc = .detachNull s j r.status := by
  obtain hspecial | ⟨-, hplain⟩ := Call.special_or_plain r hat
  · cases hspecial with
    | detachPost s' j =>
      obtain rfl : s' = s := by simpa [Call.next, Thread.goto, Pc.detaching] using hdet
      exact ⟨j, hat, rfl⟩
    | destroyPost => cases hdet
    | destroyWait s' =>
      simp only [Call.next] at hdet
      split at hdet <;> cases s' <;> cases hdet
  · rw [hplain.2 s] at hdet
    cases hdet

/-- A call gets the destructor past a side only when it takes the token. -/
theorem Call.next_past {k : Call α} (r : FutexCode.Outcome) (hat : k.At th)
    (hd : (k.next r th).pc.destroying = true) (hpast : (k.next r th).pc.past s = true) :
    th.pc.destroying = true ∧ th.pc.past s = true ∨ k = .destroyWait s ∧ r.status.isOk = true := by
  obtain hspecial | ⟨-, hplain⟩ := Call.special_or_plain r hat
  · cases hspecial with
    | detachPost => cases hd
    | destroyPost => cases hpast
    | destroyWait s' =>
      simp only [Call.next] at hpast
      split at hpast
      · obtain rfl | ⟨-, hwaits⟩ := past_afterDestroy hpast
        · exact .inr ⟨rfl, ‹_›⟩
        · exact .inl (by rw [show th.pc = .destroyWait s' from hat]; exact ⟨rfl, hwaits⟩)
      · cases hpast
  · rw [hplain.1] at hd
    cases hd

/-- A call that succeeds leaves the destructor past the sides it was past. -/
theorem Call.past_next {k : Call α} {r : FutexCode.Outcome} (hat : k.At th)
    (hr : r.status.isOk = true) (hd : th.pc.destroying = true) (hpast : th.pc.past s = true) :
    (k.next r th).pc.destroying = true ∧ (k.next r th).pc.past s = true := by
  obtain hspecial | ⟨hplain, -⟩ := Call.special_or_plain r hat
  · cases hspecial with
    | detachPost | destroyPost =>
      rw [show th.pc = _ from hat] at hpast
      cases hpast
    | destroyWait s' =>
      rw [show th.pc = _ from hat] at hpast
      simp only [Call.next, hr, if_true]
      cases s' with
      | future => cases hpast
      | promise => exact ⟨rfl, rfl⟩
  · rw [hplain.1] at hd
    cases hd

/-- A wait that succeeds has taken the token. -/
theorem waitTaken_of_ok [DecidableEq Tid] {a : FutexCode.Access} {r : FutexCode.Outcome}
    (hop : (FutexCode.implementation Tid).op a = some .wait)
    (hr : (FutexCode.implementation Tid).returns a = some r) (hok : r.status.isOk = true) :
    a = .code .waitTaken := by
  cases a with
  | value v => cases hop
  | code l =>
    cases l with
    | waitTaken => rfl
    | waitClosed | waitUnexpected | waitClockFailed | futexTimedOut | futexFailed =>
      cases hr
      simp [FutexCode.Outcome.status, RealtimeStatus.isOk, formatRealtimeStatus] at hok
    | waitReady | futexSleep | futexAgain | futexInterrupted | futexReturned => cases hr
    | _ => cases hop

/-! ## Behind the destructor -/

/-- The destructor gets past a side by reading its flag as false or by taking its
token. -/
theorem Atom.destroys_past (h : Atom movedFrom c th l c' th') (hd : th'.pc.destroying = true)
    (hpast : th'.pc.past s = true) :
    th.pc.destroying = true ∧ th.pc.past s = true ∨
      th.pc = .destroyLoad s ∧ c.attached s = false ∨ th.pc = .destroyWait s := by
  cases h with
  | destroyLoadFalse r hpc hatt =>
    obtain rfl | ⟨hload, -⟩ := past_afterDestroy hpast
    · exact .inr (.inl ⟨hpc, hatt⟩)
    · exact .inl (by rw [hpc]; exact ⟨rfl, hload⟩)
  | destroyLoad r hpc =>
    rw [hpc]
    cases r with
    | promise => exact .inl ⟨rfl, hpast⟩
    | future => cases hpast
  | destroyWait r f st hpc hwait hst =>
    obtain rfl | ⟨-, hwaits⟩ := past_afterDestroy hpast
    · exact .inr (.inr hpc)
    · exact .inl (by rw [hpc]; exact ⟨rfl, hwaits⟩)
  | resetLock k => cases k <;> cases hd
  | resetLoadFalse r | resetWait r | resetDetached r => cases r <;> cases hd
  | acquireBusy | setNotAttached | setBusy | getNotAttached | getBusy | peekNotAttached
  | peekCancelled | waitNotAttached | waitCancelled | cancelBusy => exact .inl ⟨hd, hpast⟩
  | destroyStart | destroyPost | destroyFatal => cases hpast
  | _ => cases hd

/-- A step is one of the context, or it begins and ends elsewhere. -/
theorem FineAtom.atom_or {x x' : Caller α} {l : Option (Label α)}
    (h : FineAtom movedFrom c x l c' x') :
    (∃ l', l = some l' ∧ Atom movedFrom c x.thread l' c' x'.thread) ∨
      x.thread.pc.plain ∧ x'.thread.pc.plain := by
  cases h with
  | other hpc hatom => exact .inl ⟨_, rfl, hatom⟩
  | isHeld k hk => exact .inr ⟨Pc.plain_of_unlocks hk, Pc.plain_of_unlocks hk⟩
  | refused k h | post k h => exact .inr ⟨Pc.plain_of_unlocks h.unlocks, h.plain⟩

section OwnStep
variable {m m' : Members α} {x x' : Caller α} {l : CodeLabel α}

theorem OwnStep.atom_or (h : OwnStep movedFrom m x l m' x') :
    (x.thread.pc.blocks = false ∧ ∃ l', l = .step (some l') ∧
        ∃ f, Atom movedFrom (m.with f) x.thread l' (m'.with f) x'.thread) ∨
      x.thread.pc.plain ∧ x'.thread.pc.plain := by
  cases h with
  | step hblocks hboxes hfine =>
    obtain ⟨l', rfl, hatom⟩ | hplain := (hfine fun _ => .ready).atom_or
    · exact .inl ⟨hblocks, l', rfl, _, hatom⟩
    · exact .inr hplain
  | @give th n s hidle | @take th n s hidle =>
    have hplain : th.pc.plain := by
      rw [hidle]
      exact ⟨rfl, fun _ => rfl⟩
    exact .inr ⟨hplain, hplain⟩

theorem OwnStep.past_of (h : OwnStep movedFrom m x l m' x')
    (hd : x'.thread.pc.destroying = true) (hpast : x'.thread.pc.past s = true) :
    x.thread.pc.destroying = true ∧ x.thread.pc.past s = true ∨
      x.thread.pc = .destroyLoad s ∧ m.attached s = false := by
  obtain ⟨hblocks, l', -, f, hatom⟩ | ⟨-, hplain⟩ := h.atom_or
  · obtain hbefore | hload | hwait := hatom.destroys_past hd hpast
    · exact .inl hbefore
    · exact .inr hload
    · rw [hwait] at hblocks
      cases hblocks
  · rw [hplain.1] at hd
    cases hd

theorem OwnStep.detachPost_of {k : Cont α} (h : OwnStep movedFrom m x l m' x')
    (hpc : x'.thread.pc = .detachPost s k) : m.attached s = true := by
  obtain ⟨-, l', -, f, hatom⟩ | ⟨-, hplain⟩ := h.atom_or
  · exact (hatom.detachPost_of hpc).1
  · have hdet := hplain.2 s
    rw [hpc] at hdet
    simp [Pc.detaching] at hdet

end OwnStep

section CodeAtom
variable [DecidableEq Tid] {y y' : Members α × (Futex → FutexCode.Shared Tid)}
  {f f' : Frame (Caller α) (Call α) FutexCode.Pc} {x : CodeEvent α}

/-- **How the destructor gets past a side.** -/
theorem passes_of_past (hsound : f.Sound (program movedFrom))
    (h : (program movedFrom).CodeAtom (FutexCode.implementation Tid) t y f x y' f')
    (hd : f'.here.thread.pc.destroying = true) (hpast : f'.here.thread.pc.past s = true) :
    f.here.thread.pc.destroying = true ∧ f.here.thread.pc.past s = true ∨
      Passes y.1 f.here.thread.pc x s := by
  cases h with
  | own hown => exact (hown.past_of hd hpast).imp_right .inl
  | invoke => exact .inl ⟨hd, hpast⟩
  | object hop hatom hlands =>
    cases hlands with
    | inside => exact .inl ⟨hd, hpast⟩
    | back hi hr =>
      obtain hbefore | ⟨rfl, hok⟩ := Call.next_past _ (hsound _ _ rfl).2 hd hpast
      · exact .inl hbefore
      · exact .inr (.inr (by rw [waitTaken_of_ok hop hr hok]))

/-- **How a thread comes to post a detach futex.** -/
theorem attached_of_detachPost {k : Cont α} (hsound : f.Sound (program movedFrom))
    (h : (program movedFrom).CodeAtom (FutexCode.implementation Tid) t y f x y' f')
    (hpc : f'.here.thread.pc = .detachPost s k) :
    f.here.thread.pc = .detachPost s k ∨ y.1.attached s = true := by
  cases h with
  | own hown => exact .inr (hown.detachPost_of hpc)
  | invoke => exact .inl hpc
  | object hop hatom hlands =>
    cases hlands with
    | inside => exact .inl hpc
    | back hi hr =>
      have hdet : (Pc.detachPost s k).detaching s = true := by simp [Pc.detaching]
      rw [← hpc] at hdet
      obtain ⟨j, -, hnull⟩ := Call.at_detachPost _ (hsound _ _ rfl).2 hdet
      cases hpc.symm.trans hnull

/-- Over one-step futexes a thread is where it is, or back from a `Post` that has yet to wake
somebody up. -/
theorem place_cases (Tid : Type) [DecidableEq Tid] (movedFrom : α → α)
    (f : Frame (Caller α) (Call α) FutexCode.Pc) :
    place movedFrom Tid f = f.here ∨ ∃ k, f.inside = some (k, .postWake) ∧
      (place movedFrom Tid f).thread = k.next (.result (.status rtOkStatus)) f.here.thread := by
  obtain ⟨here, inside⟩ := f
  cases inside with
  | none => exact .inl rfl
  | some p =>
    obtain ⟨k, i⟩ := p
    cases i with
    | postWake => exact .inr ⟨k, rfl, rfl⟩
    | _ => exact .inl rfl

/-- The destructor is as far over one-step futexes. -/
theorem past_place (hsound : f.Sound (program movedFrom))
    (hd : f.here.thread.pc.destroying = true) (hpast : f.here.thread.pc.past s = true) :
    (place movedFrom Tid f).thread.pc.past s = true := by
  obtain hsame | ⟨k, hin, hnext⟩ := place_cases Tid movedFrom f
  · rwa [hsame]
  · rw [hnext]
    exact (Call.past_next (hsound k _ hin).2 rfl hd hpast).2

theorem here_place (hsound : f.Sound (program movedFrom))
    (hhere : (f.here.thread.handle s).here = true) :
    ((place movedFrom Tid f).thread.handle s).here = true := by
  obtain hsame | ⟨k, hin, hnext⟩ := place_cases Tid movedFrom f
  · rwa [hsame]
  · rw [hnext]
    exact Call.next_here _ (hsound k _ hin).2 hhere

theorem detaching_of_place (hsound : f.Sound (program movedFrom))
    (hdet : (place movedFrom Tid f).thread.pc.detaching s = true) :
    f.here.thread.pc.detaching s = true := by
  obtain hsame | ⟨k, hin, hnext⟩ := place_cases Tid movedFrom f
  · rwa [hsame] at hdet
  · rw [hnext] at hdet
    obtain ⟨j, hj, -⟩ := Call.at_detachPost _ (hsound k _ hin).2 hdet
    rw [hj]
    simp [Pc.detaching]

end CodeAtom

/-! ## No access after the destructor -/

section Code
variable [DecidableEq Tid] {slot : Nat → α} {o : Owner (Tid ⊕ Nat)} {w : List (Tid × CodeEvent α)}
  {c d : CodeConfig Tid α} {x : CodeEvent α}

/-- One step of a call on a context that is going to be destroyed, or of a futex. -/
abbrev UsedStep (movedFrom : α → α) : CodeConfig Tid α → Tid × CodeEvent α → CodeConfig Tid α →
    Prop :=
  (program movedFrom).Step (FutexCode.implementation Tid) (UsedUntilDestroyed movedFrom)

/-- What is known about the context over one-step futexes. -/
theorem used_refines (h : Run (UsedStep movedFrom) (codeInitial slot o) w c) :
    Inv (view movedFrom c) ∧ Settled (view movedFrom c) ∧
      ∀ t, (c.locals t).Sound (program movedFrom) := by
  obtain ⟨hrun, hsound⟩ := code_refines letsMove_attachesCleanly (fun _ _ _ hok => hok.1.2) h
  obtain ⟨hinv, -, hsettled⟩ := clean_settled_run hrun
  exact ⟨hinv, hsettled, hsound⟩

/-- A destructor that is past a side has seen the flag go. -/
theorem unattached_of_past (hsettled : Settled (view movedFrom c))
    (hsound : (c.locals t).Sound (program movedFrom))
    (hd : (pcOf c t).destroying = true) (hpast : (pcOf c t).past s = true) :
    c.shared.1.attached s = false :=
  hsettled (.inl t) s (past_place hsound hd hpast)

/-- **Behind a destructor nobody is at the `Post` of a `Detach`.** -/
def Quiet (c : CodeConfig Tid α) : Prop :=
  ∀ t s, (pcOf c t).destroying = true → (pcOf c t).past s = true →
    ∀ u k, pcOf c u ≠ .detachPost s k

theorem Quiet.step {z : Tid × CodeEvent α} (h : Quiet c) (hsettled : Settled (view movedFrom c))
    (hsound : ∀ t, (c.locals t).Sound (program movedFrom)) (hs : UsedStep movedFrom c z d) :
    Quiet d := by
  cases hs with
  | @mk t x y f hok hatom =>
    intro v s hd hpast u k hk
    -- before the step some destructor was past the side, or the destructor gets past it now
    have hbefore : (∃ v, (pcOf c v).destroying = true ∧
          (pcOf c v).past s = true) ∨
        f.here.thread.pc.destroying = true ∧ Passes c.shared.1 (pcOf c t) x s := by
      rcases of_update (P := fun f : Frame (Caller α) (Call α) FutexCode.Pc =>
        f.here.thread.pc.destroying = true ∧ f.here.thread.pc.past s = true) ⟨hd, hpast⟩
        with ⟨-, hd', hpast'⟩ | ⟨-, hother⟩
      · exact (passes_of_past (hsound t) hatom hd' hpast').imp (fun h => ⟨t, h⟩) fun h => ⟨hd', h⟩
      · exact .inl ⟨v, hother⟩
    have hnone : ∀ u k, pcOf c u ≠ .detachPost s k := by
      rcases hbefore with ⟨v, hd, hpast⟩ | ⟨-, hpasses⟩
      · exact h v s hd hpast
      · exact hok.2 s hpasses
    rcases of_update (P := fun f : Frame (Caller α) (Call α) FutexCode.Pc =>
      f.here.thread.pc = .detachPost s k) hk with ⟨-, hself⟩ | ⟨-, hother⟩
    · obtain hpost | hatt := attached_of_detachPost (hsound t) hatom hself
      · exact hnone t k hpost
      · rcases hbefore with ⟨v, hd, hpast⟩ | ⟨hd', -⟩
        · cases (unattached_of_past hsettled (hsound v) hd hpast).symm.trans hatt
        · rw [hself] at hd'
          cases hd'
    · exact hnone u k hother

theorem quiet_run (h : Run (UsedStep movedFrom) (codeInitial slot o) w c) : Quiet c := by
  refine Run.invariantFrom (I := fun _ c => Quiet c) .nil ?_ ?_ h
  · intro t s hd
    rw [show pcOf (codeInitial slot o) t = .idle from initial_pc slot o (.inl t)] at hd
    cases hd
  · intro w c z d hrun hquiet hs
    obtain ⟨-, hsettled, hsound⟩ := used_refines hrun
    exact hquiet.step hsettled hsound hs

theorem Atom.not_destroyed {c c' : Context α} (h : Atom movedFrom c th l c' th') :
    th.pc ≠ .destroyed := by
  cases h <;> (rw [‹th.pc = _›]; exact nofun)

/-- A thread whose destructor has returned, or that has yet to clear the pointer of its handle. -/
def Pc.over : Pc α → Prop
  | .destroyed | .detachNull _ _ _ => True
  | _ => False

theorem Pc.over.not_plain {pc : Pc α} (h : pc.over) : ¬ pc.plain := by
  rintro ⟨hd, hdet⟩
  cases pc with
  | destroyed => cases hd
  | detachNull r => simpa [Pc.detaching] using hdet r
  | _ => exact h

/-- Such a thread calls no futex. -/
theorem Pc.over.not_at {k : Call α} (h : th.pc.over) : ¬ k.At th := by
  intro hat
  obtain hspecial | ⟨hplain, -⟩ := Call.special_or_plain (.result (.status rtOkStatus)) hat
  · cases hspecial <;> (rw [show th.pc = _ from hat] at h; exact h)
  · exact h.not_plain hplain

/-- What is left to it are steps of its own. -/
theorem own_of_over {y y' : Members α × (Futex → FutexCode.Shared Tid)}
    {f f' : Frame (Caller α) (Call α) FutexCode.Pc} (hsound : f.Sound (program movedFrom))
    (h : (program movedFrom).CodeAtom (FutexCode.implementation Tid) t y f x y' f')
    (hpc : f.here.thread.pc.over) :
    f.here.thread.pc ≠ .destroyed ∧ ∃ l, x = .own (.step (some l)) := by
  cases h with
  | own hown =>
    obtain ⟨-, l, rfl, _, hatom⟩ | ⟨hplain, -⟩ := hown.atom_or
    · exact ⟨hatom.not_destroyed, l, rfl⟩
    · exact absurd hplain hpc.not_plain
  | invoke hk => exact absurd hk.2 hpc.not_at
  | object => exact absurd (hsound _ _ rfl).2 hpc.not_at

/-- **No access after the last wait.**  Once the destructor of a context has
returned, no step touches the context, and the destructor has still returned
afterwards. -/
theorem untouched_when_destroyed (h : Run (UsedStep movedFrom) (codeInitial slot o) w c)
    (hd : pcOf c t = .destroyed) (hs : UsedStep movedFrom c (u, x) d) :
    ¬ Accesses (pcOf c u) x ∧ pcOf d t = .destroyed := by
  obtain ⟨hinv, hsettled, hsound⟩ := used_refines h
  cases hs with
  | @mk _ _ y f hok hatom =>
    have hne : t ≠ u := by
      rintro rfl
      have hover : (pcOf c t).over := by rw [hd]; trivial
      exact (own_of_over (hsound t) hatom hover).1 hd
    refine ⟨fun htouch => ?_, ?_⟩
    · obtain ⟨s, hhere⟩ := hok.1.1 t hne (by rw [hd]; rfl) htouch
      have hdestroys : (pcOf c t).destroying = true := by rw [hd]; rfl
      have hpast : (pcOf c t).past s = true := by rw [hd]; rfl
      -- the handle is in the last steps of its detachment
      have hview : (((view movedFrom c).locals (.inl u)).handle s).here = true :=
        here_place (hsound u) hhere
      have hdet : (pcOf c u).detaching s = true :=
        detaching_of_place (hsound u) (hinv.attach.detaching
          (unattached_of_past hsettled (hsound t) hdestroys hpast) hview)
      cases hpc : pcOf c u with
      | detachPost r k =>
        rw [hpc] at hdet
        obtain rfl : r = s := by simpa [Pc.detaching] using hdet
        exact quiet_run h t r hdestroys hpast u k hpc
      | detachNull r k st =>
        have hover : (pcOf c u).over := by rw [hpc]; trivial
        obtain ⟨-, l, rfl⟩ := own_of_over (hsound u) hatom hover
        rw [hpc] at htouch
        exact htouch
      | _ => rw [hpc] at hdet; cases hdet
    · unfold pcOf
      dsimp only
      rw [Function.update_of_ne hne]
      exact hd

/-- One step of a call on a context that may be destroyed at any time, or of a futex. -/
abbrev HandledStep (movedFrom : α → α) : CodeConfig Tid α → Tid × CodeEvent α → CodeConfig Tid α →
    Prop :=
  (program movedFrom).Step (FutexCode.implementation Tid) (UsedWithHandles movedFrom)

end Code

/-! ## A promise is detached while the context is destroyed -/

/-- The owner of a future gives out a promise, detaches the future and begins to destroy the
context.  It has looked at the flag of the future when the other thread begins to detach the
promise. -/
def destroying : List (Bool × CodeEvent Nat) :=
  let unlock : Call Nat := .unlock .getPromise (Thread.init.goto (.acquireUnlock .promise false))
  [(true, .invoke (.acquire .promise false)),
    (true, .object (.acquire .promise false) (.code .tryTaken)),
    (true, .own (.step (some .internal))), (true, .invoke (.isHeld .getPromise)),
    (true, .object (.isHeld .getPromise) (.value FutexCode.kReady)), (true, .invoke unlock),
    (true, .object unlock (.code .postEdge)), (true, .object unlock (.code .postWake)),
    (false, .own (.step (some .internal))), (false, .own (.step (some .internal))),
    (false, .invoke (.detachPost .future .destroy)),
    (false, .object (.detachPost .future .destroy) (.code .postEdge)),
    (false, .object (.detachPost .future .destroy) (.code .postWake)),
    (false, .own (.step (some (.detached .future rtOkStatus)))),
    (false, .own (.step (some .destroyStarted))), (false, .invoke .destroyPost),
    (false, .object .destroyPost (.code .postEdge)),
    (false, .object .destroyPost (.code .postWake)), (false, .own (.step (some .internal))),
    (true, .own (.step (some .internal)))]

/-- From there the promise is detached: the destructor reads its flag between the exchange of
`Detach` and the `Post`; or it has read it before, and takes the token before the wake-up of the
`Post` or after it. -/
theorem detached_while_destroying : ∃ c : CodeConfig Bool Nat,
    Run (UsedStep id) (codeInitial (fun _ => 0) (.handle .future (.inl false))) destroying c ∧
      (∃ w d e, Run (HandledStep id) c w d ∧ pcOf d false = .destroyed ∧
        HandledStep id d (true, .object (.detachPost .promise .destroy) (.code .postEdge)) e ∧
        (d.shared.2 (.detached .promise)).val = FutexCode.kReady ∧
        (e.shared.2 (.detached .promise)).val = FutexCode.kPosted) ∧
      ∃ c₁ w, Run (UsedStep id) c w c₁ ∧
        (∃ w d e, Run (HandledStep id) c₁ w d ∧ pcOf d false = .destroyed ∧
          HandledStep id d (true, .object (.detachPost .promise .destroy) (.code .postWake)) e) ∧
        ∃ w d e, Run (UsedStep id) c₁ w d ∧ pcOf d false = .destroyed ∧
          UsedStep id d (true, .own (.step (some (.detached .promise rtOkStatus)))) e := by
  have hfree : ∀ {c : CodeConfig Bool Nat} {t : Bool} {x : CodeEvent Nat},
      (pcOf c !t).destroying = false → ThroughHandles c t x := by
    intro c t x hidle u hne hd
    obtain rfl : u = !t := by revert hne; cases u <;> cases t <;> simp
    rw [hidle] at hd
    cases hd
  have hpromise : ∀ {c : CodeConfig Bool Nat} {x : CodeEvent Nat},
      ((c.locals true).here.thread.handle .promise).here = true → ThroughHandles c true x :=
    fun h _ _ _ _ => ⟨.promise, h⟩
  have hnone : ∀ {c : CodeConfig Bool Nat} {t : Bool} {x : CodeEvent Nat},
      (FutexCode.linearization Bool).shows (program id) x ≠ some .aborted →
        (∀ s reusable, ((view id c).locals (.inl t)).pc ≠ .acquireCas s reusable) →
        Promises id AttachesCleanly c t x :=
    fun habort hcas _ hl =>
      ⟨fun h => habort (h ▸ hl), fun _ _ s reusable hpc => absurd hpc (hcas s reusable)⟩
  have hstays : ∀ {c : CodeConfig Bool Nat} {t : Bool} {x : CodeEvent Nat},
      (∀ s, pcOf c t ≠ .destroyLoad s) →
        (∀ s, x ≠ .object (.destroyWait s) (.code .waitTaken)) → DestroysQuietly c t x :=
    fun hload hwait s hpasses => hpasses.elim (fun h => absurd h.1 (hload s)) fun h =>
      absurd h (hwait s)
  have hquiet : ∀ {c : CodeConfig Bool Nat} {t : Bool} {x : CodeEvent Nat},
      ThroughHandles c t x → (FutexCode.linearization Bool).shows (program id) x ≠ some .aborted →
        (∀ s reusable, ((view id c).locals (.inl t)).pc ≠ .acquireCas s reusable) →
        (∀ s, pcOf c t ≠ .destroyLoad s) →
        (∀ s, x ≠ .object (.destroyWait s) (.code .waitTaken)) → UsedUntilDestroyed id c t x :=
    fun hhandles habort hcas hload hwait => ⟨⟨hhandles, hnone habort hcas⟩, hstays hload hwait⟩
  have hattach : ∀ {m : Members Nat} {th th' : Thread Nat} (s : Side) (b : Bool),
      th.pc.blocks = false → th.pc.unlocks = none →
        (∀ f, Atom id (m.with f) th .internal ((m.with f).setAttached s b) th') →
        OwnStep id m ⟨th, none⟩ (.step (some .internal))
          { m with attached := Function.update m.attached s b } ⟨th', none⟩ :=
    fun s b hblocks hpc h => .step hblocks rfl fun f => .other hpc (h f)
  have hcancel : ∀ {m : Members Nat} {th : Thread Nat}, th.pc = .idle →
      OwnStep id m ⟨th, none⟩ (.step (some .destroyStarted)) { m with isCancelled := true }
        ⟨th.goto .destroyPost, none⟩ := fun hpc =>
    .step (by rw [hpc]; rfl) rfl fun _ => .other (by rw [hpc]; rfl) (.destroyStart hpc)
  refine ⟨_,
    .cons (.mk (hquiet (hfree rfl) nofun (by exact nofun) nofun nofun) (.invoke ⟨rfl, rfl⟩)) <|
    .cons (.mk (hquiet (hfree rfl) nofun (by exact nofun) nofun nofun)
      (.object rfl (.code (.tryTaken rfl)) (.back rfl rfl))) <|
    .cons (.mk ⟨⟨hfree rfl, by
        rintro _ ⟨⟩
        refine ⟨nofun, ?_⟩
        rintro _ ⟨⟩ _ _ ⟨⟩ -
        exact ⟨nofun, by rintro ((_ | _) | n) k <;> exact nofun,
          by rintro ((_ | _) | n) <;> rfl⟩⟩, hstays nofun nofun⟩
      (.own (hattach .promise true rfl rfl fun _ => .acquireCasOk .promise false rfl rfl))) <|
    .cons (.mk (hquiet (hfree rfl) nofun (by exact nofun) nofun nofun) (.invoke ⟨rfl, rfl⟩)) <|
    .cons (.mk (hquiet (hfree rfl) nofun (by exact nofun) nofun nofun)
      (.object rfl .value (.back rfl rfl))) <|
    .cons (.mk (hquiet (hfree rfl) nofun (by exact nofun) nofun nofun)
      (.invoke ⟨rfl, rfl, rfl⟩)) <|
    .cons (.mk (hquiet (hfree rfl) nofun (by exact nofun) nofun nofun)
      (.object rfl (.code (.postEdge rfl)) (.inside nofun))) <|
    .cons (.mk (hquiet (hfree rfl) nofun (by exact nofun) nofun nofun)
      (.object rfl (.code (.postWakeNobody rfl)) (.back rfl rfl))) <|
    .cons (.mk (hquiet (hfree rfl) nofun (by exact nofun) nofun nofun)
      (.own (.step rfl rfl fun _ => .other rfl (.detachStart .future rfl rfl)))) <|
    .cons (.mk (hquiet (hfree rfl) nofun (by exact nofun) nofun nofun)
      (.own (hattach .future false rfl rfl fun _ => .detachExchange .future .destroy rfl rfl))) <|
    .cons (.mk (hquiet (hfree rfl) nofun (by exact nofun) nofun nofun) (.invoke ⟨rfl, rfl⟩)) <|
    .cons (.mk (hquiet (hfree rfl) nofun (by exact nofun) nofun nofun)
      (.object rfl (.code (.postEdge rfl)) (.inside nofun))) <|
    .cons (.mk (hquiet (hfree rfl) nofun (by exact nofun) nofun nofun)
      (.object rfl (.code (.postWakeNobody rfl)) (.back rfl rfl))) <|
    .cons (.mk (hquiet (hfree rfl) nofun (by exact nofun) nofun nofun)
      (.own (.step rfl rfl fun _ => .other rfl (.detachNull .future .destroy _ rfl)))) <|
    .cons (.mk (hquiet (hfree rfl) nofun (by exact nofun) nofun nofun) (.own (hcancel rfl))) <|
    .cons (.mk (hquiet (hfree rfl) nofun (by exact nofun) nofun nofun) (.invoke ⟨rfl, rfl⟩)) <|
    .cons (.mk (hquiet (hfree rfl) nofun (by exact nofun) nofun nofun)
      (.object rfl (.code (.postEdge rfl)) (.inside nofun))) <|
    .cons (.mk (hquiet (hfree rfl) nofun (by exact nofun) nofun nofun)
      (.object rfl (.code (.postWakeNobody rfl)) (.back rfl rfl))) <|
    .cons (.mk ⟨⟨hfree rfl, hnone nofun (by exact nofun)⟩, by
        rintro s - (_ | _) k <;> exact nofun⟩
      (.own (.step rfl rfl fun _ => .other rfl (.destroyLoadFalse .future rfl rfl)))) <|
    .single (.mk (hquiet (hpromise rfl) nofun (by exact nofun) nofun nofun)
      (.own (.step rfl rfl fun _ => .other rfl (.detachStart .promise rfl rfl)))), ?_, ?_⟩
  · exact ⟨[(true, .own (.step (some .internal))), (false, .own (.step (some .internal))),
        (true, .invoke (.detachPost .promise .destroy))], _, _,
      .cons (.mk ⟨hpromise rfl, hnone nofun (by exact nofun)⟩ (.own (hattach .promise false rfl rfl
        fun _ => .detachExchange .promise .destroy rfl rfl))) <|
      .cons (.mk ⟨hfree rfl, hnone nofun (by exact nofun)⟩
        (.own (.step rfl rfl fun _ => .other rfl (.destroyLoadFalse .promise rfl rfl)))) <|
      .single (.mk ⟨hpromise rfl, hnone nofun (by exact nofun)⟩ (.invoke ⟨rfl, rfl⟩)), rfl,
      .mk ⟨hpromise rfl, hnone nofun (by exact nofun)⟩
        (.object rfl (.code (.postEdge rfl)) (.inside nofun)), rfl, rfl⟩
  · refine ⟨_, [(false, .own (.step (some .internal))), (true, .own (.step (some .internal))),
        (true, .invoke (.detachPost .promise .destroy)),
        (true, .object (.detachPost .promise .destroy) (.code .postEdge))],
      .cons (.mk ⟨⟨hfree rfl, hnone nofun (by exact nofun)⟩, by
          rintro s (⟨⟨⟩, hatt⟩ | hx)
          · cases hatt
          · cases hx⟩
        (.own (.step rfl rfl fun _ => .other rfl (.destroyLoad .promise rfl rfl)))) <|
      .cons (.mk (hquiet (hpromise rfl) nofun (by exact nofun) nofun nofun)
        (.own (hattach .promise false rfl rfl
          fun _ => .detachExchange .promise .destroy rfl rfl))) <|
      .cons (.mk (hquiet (hpromise rfl) nofun (by exact nofun) nofun nofun) (.invoke ⟨rfl, rfl⟩)) <|
      .single (.mk (hquiet (hpromise rfl) nofun (by exact nofun) nofun nofun)
        (.object rfl (.code (.postEdge rfl)) (.inside nofun))), ?_, ?_⟩
    · exact ⟨[(false, .invoke (.destroyWait .promise)),
          (false, .object (.destroyWait .promise) (.code .waitTaken))], _, _,
        .cons (.mk ⟨hfree rfl, hnone nofun (by exact nofun)⟩ (.invoke ⟨rfl, rfl⟩)) <|
        .single (.mk ⟨hfree rfl, hnone nofun (by exact nofun)⟩
          (.object rfl (.code (.waitTaken trivial rfl)) (.back rfl rfl))), rfl,
        .mk ⟨hpromise rfl, hnone nofun (by exact nofun)⟩
          (.object rfl (.code (.postWakeNobody rfl)) (.back rfl rfl))⟩
    · exact ⟨[(true, .object (.detachPost .promise .destroy) (.code .postWake)),
          (false, .invoke (.destroyWait .promise)),
          (false, .object (.destroyWait .promise) (.code .waitTaken))], _, _,
        .cons (.mk (hquiet (hpromise rfl) nofun (by exact nofun) nofun nofun)
          (.object rfl (.code (.postWakeNobody rfl)) (.back rfl rfl))) <|
        .cons (.mk (hquiet (hfree rfl) nofun (by exact nofun) nofun nofun) (.invoke ⟨rfl, rfl⟩)) <|
        .single (.mk ⟨⟨hfree rfl, hnone nofun (by exact nofun)⟩, by
            rintro s - (_ | _) k <;> exact nofun⟩
          (.object rfl (.code (.waitTaken trivial rfl)) (.back rfl rfl))), rfl,
        .mk (hquiet (hpromise rfl) nofun (by exact nofun) nofun nofun)
          (.own (.step rfl rfl fun _ => .other rfl (.detachNull .promise .destroy _ rfl)))⟩

/-- The promise is detached while the destructor of the context waits for it; afterwards the
pointer of the handle is cleared. -/
theorem untouched_when_destroyed_detached :
    ∃ (w : List (Bool × CodeEvent Nat)) (c d : CodeConfig Bool Nat),
      Run (UsedStep id) (codeInitial (fun _ => 0) (.handle .future (.inl false))) w c ∧
        pcOf c false = .destroyed ∧
        UsedStep id c (true, .own (.step (some (.detached .promise rtOkStatus)))) d ∧
        ¬ Accesses (pcOf c true) (.own (.step (some (.detached .promise rtOkStatus)))) := by
  obtain ⟨c₀, h₀, -, c₁, w₁, h₁, -, w₂, c, d, h₂, hd, hs⟩ := detached_while_destroying
  have h := (h₀.append h₁).append h₂
  exact ⟨_, c, d, h, hd, hs, (untouched_when_destroyed h hd hs).1⟩

/-- **A post after the destruction.**  The owner of a future has given out a promise; it
destroys the future and with it the context, while the other thread detaches the promise.  If the
destructor reads the flag of the promise after the exchange of `Detach`, it waits for nobody,
and the other thread then posts `promise_detached_`.  If it reads the flag before and takes the
token as soon as it is there, the other thread has yet to wake up whoever sleeps on
`promise_detached_`. -/
theorem detach_posts_after_destruction :
    (∃ (w : List (Bool × CodeEvent Nat)) (c d : CodeConfig Bool Nat),
      Run (HandledStep id) (codeInitial (fun _ => 0) (.handle .future (.inl false))) w c ∧
        pcOf c false = .destroyed ∧
        HandledStep id c (true, .object (.detachPost .promise .destroy) (.code .postEdge)) d ∧
        (c.shared.2 (.detached .promise)).val = FutexCode.kReady ∧
        (d.shared.2 (.detached .promise)).val = FutexCode.kPosted) ∧
      ∃ (w : List (Bool × CodeEvent Nat)) (c d : CodeConfig Bool Nat),
        Run (HandledStep id) (codeInitial (fun _ => 0) (.handle .future (.inl false))) w c ∧
          pcOf c false = .destroyed ∧
          HandledStep id c (true, .object (.detachPost .promise .destroy) (.code .postWake)) d := by
  obtain ⟨c₀, h₀, ⟨w₁, c, d, h₁, hpost⟩, c₁, w₂, h₂, ⟨w₃, c', d', h₃, hwake⟩, -⟩ :=
    detached_while_destroying
  have hmono : ∀ {c d : CodeConfig Bool Nat} {w : List (Bool × CodeEvent Nat)},
      Run (UsedStep id) c w d → Run (HandledStep id) c w d :=
    Run.mono fun _ _ _ hs => hs.weaken fun _ _ _ hok => hok.1
  exact ⟨⟨_, c, d, (hmono h₀).append h₁, hpost⟩,
    _, c', d', ((hmono h₀).append (hmono h₂)).append h₃, hwake⟩

end Intrinsic.Promise
