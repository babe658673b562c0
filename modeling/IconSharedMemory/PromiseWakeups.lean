import IconSharedMemory.PromiseCancel
import IconSharedMemory.PromiseWait

/-! # Whoever waits for something that has happened is woken up

A call on a promise context waits in three ways.  `WaitUntil` of a future waits for the token of
`has_value_`, which `Set` posts after it has stored its value, and `Cancel` and the destructor
after they have set the cancellation flag.  `Reset` and the destructor wait for the token of a
detach futex, which a detachment posts after it has cleared the attached flag.  And `Reset` waits
for mutexes.

In each case the variable changes first and the token is posted later.  So a thread may wait
although what it waits for has already happened, but then the token is there, or some other
thread is about to post it (`Alert`).  The tokens of the two kinds of futexes can be taken away
only by the one thread that waits for them: a context has one future, and a destructor runs
alone (`DestroysAlone`).
-/
namespace Intrinsic.Promise
open Runs BoundedFifo

variable {Tid α : Type} {movedFrom : α → α} {c c' : Context α} {th th' : Thread α} {l : Label α}
  {t u : Tid} {s : Side} {q q' : List α}

/-! ## Tokens that are on their way -/

/-- The thread is about to post `has_value_`. -/
def Pc.rouses : Pc α → Bool
  | .setPost _ | .cancelUnlock | .cancelPost | .destroyPost => true
  | _ => false

/-- `has_value_` has a token, or will have one. -/
def Roused (c : Config Tid α) : Prop :=
  c.shared.hasValue = .posted ∨ ∃ t, (c.locals t).pc.rouses = true

/-- `Reset` or the destructor waits for the handle of this side to be detached. -/
def Pc.awaits (s : Side) : Pc α → Bool
  | .resetWait r | .destroyWait r => r = s
  | _ => false

/-- The detach futex of this side has a token, or will have one. -/
def Withdrawn (c : Config Tid α) (s : Side) : Prop :=
  c.shared.detached s = .posted ∨ ∃ t k, (c.locals t).pc = .detachPost s k

/-- **Nobody waits in vain** for something that has happened, when the context stores `q`. -/
structure Alert (c : Config Tid α) (q : List α) : Prop where
  value : q ≠ [] → ∀ u, (c.locals u).pc = .waitFutex → Roused c
  cancelled : c.shared.isCancelled = true → ∀ u, (c.locals u).pc.waits = true → Roused c
  detached : ∀ s u, (c.locals u).pc.awaits s = true →
    c.shared.attached s = true ∨ Withdrawn c s

/-! ## What a step can do -/

/-- Who is about to post `has_value_` does so, unless something else comes first. -/
theorem Atom.rouses_next (h : Atom movedFrom c th l c' th') (hc : Smooth c th)
    (hr : th.pc.rouses = true) : c'.hasValue = .posted ∨ th'.pc.rouses = true := by
  have hpost : c.hasValue.post.1 = .posted := by
    rw [BinaryFutex.post_of_not_closed hc.notClosed.hasValue]
  cases h with
  | setPost | cancelPost | destroyPost => exact .inl hpost
  | cancelUnlock => exact .inr rfl
  | cancelNotUnlocked hpc hst =>
    rw [hc.unlock .cancel (by rw [hpc]; exact .head _)] at hst
    cases hst
  | _ =>
    have hpc := ‹th.pc = _›
    rw [hpc] at hr
    cases hr

/-- A future blocks after it has found the queue empty. -/
theorem Atom.waitFutex_of (h : Atom movedFrom c th l c' th') (hpc' : th'.pc = .waitFutex)
    (hpc : th.pc ≠ .waitFutex) : c.buffer.empty = true ∧ l.event = none := by
  cases h with
  | waitEmpty _ hempty => exact ⟨hempty, rfl⟩
  | resetLock k => cases k <;> cases hpc'
  | resetLoadFalse r | resetWait r | resetDetached r | destroyLoadFalse r | destroyWait r =>
    cases r <;> cases hpc'
  | acquireBusy | setNotAttached | setBusy | getNotAttached | getBusy | peekNotAttached
  | peekCancelled | waitNotAttached | waitCancelled | cancelBusy => exact absurd hpc' hpc
  | _ => cases hpc'

theorem Atom.leaves_waitFutex (h : Atom movedFrom c th l c' th') (hpc : th.pc = .waitFutex) :
    th'.pc ≠ .waitFutex := by
  cases h with
  | waitFailed | waitFutex => exact nofun
  | _ =>
    have hth := ‹th.pc = _›
    cases hth.symm.trans hpc

/-- A queue that is not empty any more has been filled by a `Set`. -/
theorem stored_of_filled (hne : q' ≠ [])
    (hstep : l.event = none ∧ q' = [] ∨
      ∃ e, l.event = some e ∧ BoundedFifo.Step 1 [] e q') : ∃ v, l = .stored v := by
  obtain ⟨-, hnil⟩ | ⟨e, he, hfifo⟩ := hstep
  · exact absurd hnil hne
  · cases hfifo with
    | enq =>
      cases l with
      | stored v => exact ⟨v, rfl⟩
      | _ => cases he
    | full | empty => exact absurd rfl hne

/-- A `Set` that has stored its value is about to post. -/
theorem Atom.rouses_of_stored {v : α} (h : Atom movedFrom c th (.stored v) c' th') :
    th'.pc.rouses = true := by
  generalize hl : Label.stored v = l at h
  cases h with
  | setFinish => rfl
  | detachNull s k => cases k <;> cases hl
  | _ => cases hl

/-- Whoever sets the cancellation flag is about to post. -/
theorem Atom.cancels (h : Atom movedFrom c th l c' th') (hcancel : c'.isCancelled = true) :
    c.isCancelled = true ∨ th'.pc.rouses = true := by
  cases h with
  | cancelStore | destroyStart => exact .inr rfl
  | resetStore => cases hcancel
  | _ => exact .inl hcancel

/-- `Reset` and the destructor wait for a handle that was attached. -/
theorem Atom.awaits_of (h : Atom movedFrom c th l c' th') (hpc' : th'.pc.awaits s = true)
    (hpc : th.pc.awaits s = false) : c'.attached s = true := by
  cases h with
  | resetLoad r _ hatt | destroyLoad r _ hatt =>
    obtain rfl : r = s := of_decide_eq_true hpc'
    exact hatt
  | resetLock k => cases k <;> cases hpc'
  | resetLoadFalse r | resetWait r | resetDetached r | destroyLoadFalse r | destroyWait r =>
    cases r <;> cases hpc'
  | acquireBusy | setNotAttached | setBusy | getNotAttached | getBusy | peekNotAttached
  | peekCancelled | waitNotAttached | waitCancelled | cancelBusy =>
    rw [hpc] at hpc'
    cases hpc'
  | _ => cases hpc'

/-- Whoever clears an attached flag is about to post the side's detach futex. -/
theorem Atom.detaches (h : Atom movedFrom c th l c' th') (hatt : c.attached s = true)
    (hatt' : c'.attached s = false) : ∃ k, th'.pc = .detachPost s k := by
  cases h with
  | detachExchange r k =>
    by_cases hr : s = r
    · subst hr
      exact ⟨k, rfl⟩
    · rw [Context.setAttached_of_ne _ hr, hatt] at hatt'
      cases hatt'
  | acquireCasOk r =>
    by_cases hr : s = r
    · subst hr
      rw [Context.setAttached_self] at hatt'
      cases hatt'
    · rw [Context.setAttached_of_ne _ hr, hatt] at hatt'
      cases hatt'
  | _ =>
    rw [show c.attached s = false from hatt'] at hatt
    cases hatt

/-- The thread takes, or may take, tokens of detach futexes. -/
def Pc.claims : Pc α → Bool
  | .resetWait _ | .resetDetached _ | .destroyWait _ => true
  | _ => false

/-- The token of a detach futex is taken by `Reset` or by the destructor. -/
theorem Atom.takes_detached (h : Atom movedFrom c th l c' th') (hp : c.detached s = .posted)
    (hp' : c'.detached s ≠ .posted) : th.pc.claims = true := by
  cases h with
  | resetWait r f st hpc | resetTimeout r f st hpc | destroyWait r f st hpc
  | destroyFatal r f st hpc => rw [hpc]; rfl
  | resetDetached r hpc => rw [hpc]; rfl
  | detachPost r =>
    refine absurd ?_ hp'
    by_cases hr : s = r
    · subst hr
      rw [Context.setDetached_self, hp]
      rfl
    · rwa [Context.setDetached_of_ne _ hr]
  | _ => exact absurd hp hp'

theorem Atom.awaits_left (h : Atom movedFrom c th l c' th') (hpc : th.pc.awaits s = true) :
    th'.pc.awaits s = false := by
  cases h with
  | resetWait r | destroyWait r => cases r <;> rfl
  | resetTimeout | destroyFatal => rfl
  | _ =>
    have hth := ‹th.pc = _›
    rw [hth] at hpc
    cases hpc

/-- A detachment posts its futex. -/
theorem Atom.posts_detached {k : Cont α} (h : Atom movedFrom c th l c' th') (hc : c.NotClosed)
    (hpc : th.pc = .detachPost s k) : c'.detached s = .posted := by
  cases h with
  | detachPost r j hpc' =>
    obtain rfl : r = s := (Pc.detachPost.inj (hpc'.symm.trans hpc)).1
    rw [Context.setDetached_self, BinaryFutex.post_of_not_closed (hc.detached r)]
  | _ =>
    have hth := ‹th.pc = _›
    cases hth.symm.trans hpc

/-- The destructor runs from `destroyStart` on. -/
theorem Atom.destroying_of (h : Atom movedFrom c th l c' th') (hd : th'.pc.destroying = true) :
    th.pc.destroying = true ∨ l = .destroyStarted := by
  cases h with
  | destroyStart => exact .inr rfl
  | destroyPost hpc => exact .inl (by rw [hpc]; rfl)
  | destroyLoadFalse _ hpc | destroyLoad _ hpc => exact .inl (by rw [hpc]; rfl)
  | destroyWait _ _ _ hpc | destroyFatal _ _ _ hpc => exact .inl (by rw [hpc]; rfl)
  | resetLock k => cases k <;> cases hd
  | resetLoadFalse r | resetWait r | resetDetached r => cases r <;> cases hd
  | acquireBusy | setNotAttached | setBusy | getNotAttached | getBusy | peekNotAttached
  | peekCancelled | waitNotAttached | waitCancelled | cancelBusy => exact .inl hd
  | _ => cases hd

theorem Atom.inReset_of (h : Atom movedFrom c th l c' th') (hr : th'.pc.inReset = true) :
    th.pc.inReset = true ∨ l = .resetStarted := by
  cases h with
  | resetStart => exact .inr rfl
  | resetLock _ hpc | resetLoadFalse _ hpc | resetLoad _ hpc | resetMove _ hpc | resetDrop _ hpc
  | resetDetached _ hpc => exact .inl (by rw [hpc]; rfl)
  | resetEmpty hpc | resetNotEmpty hpc | resetMoveNone hpc | resetHasValue hpc
  | resetStore hpc => exact .inl (by rw [hpc]; rfl)
  | resetWait _ _ _ hpc | resetTimeout _ _ _ hpc | resetUnlock _ _ _ _ hpc =>
    exact .inl (by rw [hpc]; rfl)
  | destroyLoadFalse r | destroyWait r => cases r <;> cases hr
  | acquireBusy | setNotAttached | setBusy | getNotAttached | getBusy | peekNotAttached
  | peekCancelled | waitNotAttached | waitCancelled | cancelBusy => exact .inl hr
  | _ => cases hr

/-! ## One at a time -/

/-- **A destructor runs alone**: when it begins, no `Reset` and no other destructor is in
progress, and no `Reset` begins after it. -/
structure DestroysAlone (c : Config Tid α) (_t : Tid) (l : Label α) : Prop where
  destroy : l = .destroyStarted →
    ∀ u, (c.locals u).pc.inReset = false ∧ (c.locals u).pc.destroying = false
  reset : l = .resetStarted → ∀ u, (c.locals u).pc.destroying = false

/-- At most one thread destroys the context, and meanwhile nobody resets it. -/
structure Solo (c : Config Tid α) : Prop where
  one : AtMostOne (fun th : Thread α => th.pc.destroying = true) c.locals
  noReset : ∀ t u, (c.locals t).pc.destroying = true → (c.locals u).pc.inReset = false

/-- Handles are acquired cleanly, and a destructor runs alone. -/
def Tidy (c : Config Tid α) (t : Tid) (l : Label α) : Prop :=
  AttachesCleanly c t l ∧ DestroysAlone c t l

theorem Pc.claims_cases {pc : Pc α} (h : pc.claims = true) :
    (.getFuture ∈ pc.locks ∧ pc.inReset = true) ∨ pc.destroying = true := by
  cases pc with
  | resetWait | resetDetached => exact .inl ⟨by simp [Pc.locks, Lock.heldBefore], rfl⟩
  | destroyWait => exact .inr rfl
  | _ => cases h

theorem Pc.inReset_of_destroying {pc : Pc α} (h : pc.destroying = true) : pc.inReset = false := by
  cases pc <;> first | rfl | cases h

theorem Pc.claims_of_awaits {pc : Pc α} (h : pc.awaits s = true) : pc.claims = true := by
  cases pc <;> first | rfl | cases h

/-- One thread takes the tokens of the detach futexes. -/
theorem Solo.unique {c : Config Tid α} (h : Solo c) (hlock : LockInv c)
    (ht : (c.locals t).pc.claims = true) (hu : (c.locals u).pc.claims = true) : t = u := by
  rcases Pc.claims_cases ht with ⟨htl, htr⟩ | htd <;>
    rcases Pc.claims_cases hu with ⟨hul, hur⟩ | hud
  · exact hlock.exclusive htl hul
  · cases (h.noReset u t hud).symm.trans htr
  · cases (h.noReset t u htd).symm.trans hur
  · exact h.one t u htd hud

section Steps
variable [DecidableEq Tid] {sh : Context α}

theorem Solo.atom {c : Config Tid α} (h : Solo c) (hok : DestroysAlone c t l)
    (hatom : Atom movedFrom c.shared (c.locals t) l sh th') :
    Solo ⟨sh, Function.update c.locals t th'⟩ := by
  have hreset : ∀ v, (c.locals v).pc.destroying = true → th'.pc.inReset = false := by
    intro v hv
    by_contra hr
    rcases hatom.inReset_of (Bool.not_eq_false _ ▸ hr) with hwas | rfl
    · cases (h.noReset v t hv).symm.trans hwas
    · cases (hok.reset rfl v).symm.trans hv
  constructor
  · by_cases hstart : l = .destroyStarted
    · refine .enter fun v hv => ?_
      cases (hok.destroy hstart v).2.symm.trans hv
    · exact h.one.update fun hd => (hatom.destroying_of hd).resolve_right hstart
  · intro v u hv
    rcases of_update (P := fun th : Thread α => th.pc.destroying = true) hv with
      ⟨rfl, hd⟩ | ⟨-, hd⟩
    · refine forall_update (fun th : Thread α => th.pc.inReset = false) ?_ ?_ u
      · exact Pc.inReset_of_destroying hd
      · intro w _
        rcases hatom.destroying_of hd with hwas | rfl
        · exact h.noReset v w hwas
        · exact (hok.destroy rfl w).1
    · exact forall_update (fun th : Thread α => th.pc.inReset = false) (hreset v hd)
        (fun w _ => h.noReset v w hd) u

theorem Solo.move {c : Config Tid α} (h : Solo c) (t u : Tid) (s : Side) :
    Solo (moveHandle c t u s) := by
  have hpc := moveHandle_pc c t u s
  refine ⟨fun a b ha hb => ?_, fun a b ha => ?_⟩
  · dsimp only at ha hb
    rw [hpc] at ha hb
    exact h.one a b ha hb
  · rw [hpc] at ha ⊢
    exact h.noReset a b ha

theorem Roused.of_self {c : Config Tid α} (h : th'.pc.rouses = true) :
    Roused ⟨sh, Function.update c.locals t th'⟩ := by
  refine .inr ⟨t, ?_⟩
  dsimp only
  rwa [Function.update_self]

/-- A token that is there or coming stays, as long as its future waits. -/
theorem Roused.atom {c : Config Tid α} (h : Roused c) (hcall : CallInv c) (hsettled : Settled c)
    (hatom : Atom movedFrom c.shared (c.locals t) l sh th')
    (hu : (Function.update c.locals t th' u).pc.waits = true)
    (hwas : (c.locals u).pc.waits = true) : Roused ⟨sh, Function.update c.locals t th'⟩ := by
  rcases h with hposted | ⟨v, hv⟩
  · by_contra hnot
    obtain ⟨hgone, -⟩ := not_or.mp hnot
    obtain ⟨huses, hdet⟩ := Pc.uses_of_waits hwas
    have hattached := hcall.inv.attach.consumer huses hdet
    rcases hatom.takes_token hposted hgone with ⟨huses', hdet', hleft⟩ | hpc
    · -- only the future itself can have taken it
      have hattached' := hcall.inv.attach.consumer huses' hdet'
      obtain rfl := (hcall.inv.attach.owned .future).unique t u hattached' hattached
      rw [Function.update_self, hleft] at hu
      cases hu
    · have hfalse := hsettled t .future (by rw [hpc]; rfl)
      rw [hcall.inv.attach.flag hattached] at hfalse
      cases hfalse
  · by_cases hvt : v = t
    · subst hvt
      rcases hatom.rouses_next (hcall.smooth v) hv with hposted | hr
      · exact .inl hposted
      · exact .of_self hr
    · exact .inr ⟨v, by dsimp only; rwa [Function.update_of_ne hvt]⟩

/-- **Whoever clears a flag posts**, and nobody but the thread that waits takes the token. -/
theorem Withdrawn.atom {c : Config Tid α} (h : Withdrawn c s) (hcall : CallInv c) (hsolo : Solo c)
    (hatom : Atom movedFrom c.shared (c.locals t) l sh th') (hut : u ≠ t)
    (hu : (c.locals u).pc.awaits s = true) : Withdrawn ⟨sh, Function.update c.locals t th'⟩ s := by
  rcases h with hposted | ⟨v, k, hv⟩
  · by_contra hnot
    obtain ⟨hgone, -⟩ := not_or.mp hnot
    have hclaims := hatom.takes_detached hposted hgone
    exact hut (hsolo.unique hcall.inv.lock (Pc.claims_of_awaits hu) hclaims)
  · by_cases hvt : v = t
    · subst hvt
      exact .inl (hatom.posts_detached hcall.notClosed hv)
    · exact .inr ⟨v, k, by dsimp only; rwa [Function.update_of_ne hvt]⟩

theorem Alert.atom {c : Config Tid α} (h : Alert c q) (hcall : CallInv c) (hsettled : Settled c)
    (hsolo : Solo c) (hsize : c.shared.buffer.size = q.length)
    (hstep : l.event = none ∧ q' = q ∨ ∃ e, l.event = some e ∧ BoundedFifo.Step 1 q e q')
    (hatom : Atom movedFrom c.shared (c.locals t) l sh th') :
    Alert ⟨sh, Function.update c.locals t th'⟩ q' := by
  refine ⟨fun hne u hu => ?_, fun hcancel u hu => ?_, fun s u hu => ?_⟩
  · rcases of_update (P := fun th : Thread α => th.pc = .waitFutex) hu with ⟨rfl, hpc'⟩ | ⟨-, hwas⟩
    · -- the future has just found the queue empty
      exfalso
      have hpc : (c.locals u).pc ≠ .waitFutex := fun hpc => hatom.leaves_waitFutex hpc hpc'
      obtain ⟨hempty, hnone⟩ := hatom.waitFutex_of hpc' hpc
      obtain rfl : q' = q := queue_eq (.inl hnone) hstep
      rw [RtQueueBuffer.empty, beq_iff_eq, hsize] at hempty
      exact hne (List.length_eq_zero_iff.mp hempty)
    · have hwaits : ∀ {pc : Pc α}, pc = .waitFutex → pc.waits = true := fun h => h ▸ rfl
      by_cases hq : q = []
      · subst hq
        obtain ⟨v, rfl⟩ := stored_of_filled hne hstep
        exact .of_self hatom.rouses_of_stored
      · exact (h.value hq u hwas).atom hcall hsettled hatom (hwaits hu) (hwaits hwas)
  · rcases hatom.cancels hcancel with hflag | hr
    · have hwas : (c.locals u).pc.waits = true := by
        rcases of_update (P := fun th : Thread α => th.pc.waits = true) hu with
          ⟨rfl, hw⟩ | ⟨-, hw⟩
        · exact hatom.waits_of hflag hw
        · exact hw
      exact (h.cancelled hflag u hwas).atom hcall hsettled hatom hu hwas
    · exact .of_self hr
  · rcases of_update (P := fun th : Thread α => th.pc.awaits s = true) hu with
      ⟨rfl, hpc'⟩ | ⟨hut, hwas⟩
    · refine .inl (hatom.awaits_of hpc' ?_)
      by_contra hpc
      have hleft := hatom.awaits_left (Bool.not_eq_false _ ▸ hpc)
      cases hleft.symm.trans hpc'
    · rcases h.detached s u hwas with hatt | hwithdrawn
      · cases hatt' : sh.attached s with
        | true => exact .inl rfl
        | false =>
          obtain ⟨k, hk⟩ := hatom.detaches hatt hatt'
          refine .inr (.inr ⟨t, k, ?_⟩)
          dsimp only
          rwa [Function.update_self]
      · exact .inr (hwithdrawn.atom hcall hsolo hatom hut hwas)

/-- A handle that changes hands wakes up nobody, and disturbs nobody. -/
theorem Alert.move {c : Config Tid α} (h : Alert c q) (t u : Tid) (s : Side) :
    Alert (moveHandle c t u s) q := by
  have hpc := moveHandle_pc c t u s
  have hroused : Roused c → Roused (moveHandle c t u s) :=
    Or.imp id fun ⟨v, hv⟩ => ⟨v, (hpc v).symm ▸ hv⟩
  have hwithdrawn : ∀ r, Withdrawn c r → Withdrawn (moveHandle c t u s) r :=
    fun _ => Or.imp id fun ⟨v, k, hv⟩ => ⟨v, k, (hpc v).trans hv⟩
  refine ⟨fun hne v hv => ?_, fun hcancel v hv => ?_, fun r v hv => ?_⟩
  · exact hroused (h.value hne v ((hpc v).symm.trans hv))
  · rw [hpc] at hv
    exact hroused (h.cancelled hcancel v hv)
  · rw [hpc] at hv
    exact (h.detached r v hv).imp id (hwithdrawn r)

/-! ## Whole runs -/

/-- What holds of a context that is used tidily, when it stores `q`. -/
structure Awake (movedFrom : α → α) (c : Config Tid α) (q : List α) : Prop where
  call : CallInv c
  clean : Clean c
  settled : Settled c
  holds : Holds movedFrom c q
  solo : Solo c
  alert : Alert c q

theorem Awake.step {c d : Config Tid α} {x : Tid × Label α} (h : Awake movedFrom c q)
    (hs : Step movedFrom Tidy c x d) :
    ∃ q', Awake movedFrom d q' ∧
      (x.2.event = none ∧ q' = q ∨ ∃ e, x.2.event = some e ∧ BoundedFifo.Step 1 q e q') := by
  obtain ⟨q', hholds, hstep⟩ := h.holds.step hs
  obtain ⟨-, hclean, hsettled⟩ := clean_settled_step ⟨h.call.inv, h.clean, h.settled⟩
    (hs.weaken fun _ _ _ hok => hok.1)
  refine ⟨q', ⟨h.call.step hs, hclean, hsettled, hholds, ?_, ?_⟩, hstep⟩
  · obtain ⟨t, l⟩ := x
    cases hs with
    | atom hp =>
      cases hp with
      | mk hok hatom => exact h.solo.atom hok.2 hatom
    | move u s => exact h.solo.move t u s
  · obtain ⟨t, l⟩ := x
    cases hs with
    | atom hp =>
      cases hp with
      | mk hok hatom =>
        exact h.alert.atom h.call h.settled h.solo h.holds.size hstep hatom
    | move u s =>
      obtain rfl := queue_eq (.inl rfl) hstep
      exact h.alert.move t u s

theorem awake_initial (slot : Nat → α) (o : Owner Tid) :
    Awake movedFrom (initial slot o) [] := by
  have hpc := fun u => initial_pc slot o u
  refine ⟨callInv_initial slot o, clean_initial slot o, settled_initial slot o,
    holds_initial slot o, ⟨fun a b ha => ?_, fun a b ha => ?_⟩, ⟨fun h => absurd rfl h, ?_, ?_⟩⟩
  · dsimp only at ha
    rw [hpc a] at ha
    cases ha
  · rw [hpc a] at ha
    cases ha
  · intro _ u hu
    rw [hpc u] at hu
    cases hu
  · intro s u hu
    rw [hpc u] at hu
    cases hu

/-- **A tidily used context wakes up whoever waits for something that has happened.** -/
theorem awake_run {slot : Nat → α} {o : Owner Tid} {w : List (Tid × Label α)} {c : Config Tid α}
    (h : Run (Step movedFrom Tidy) (initial slot o) w c) :
    ∃ q, Awake movedFrom c q ∧ Run (BoundedFifo.Step 1) [] (w.filterMap fun x => x.2.event) q :=
  h.simulate (awake_initial slot o) fun _ _ _ _ hq hs => hq.step hs

end Steps

end Intrinsic.Promise
