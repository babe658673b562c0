import IconSharedMemory.PromiseTransfer

/-! # Waiting for a value

`WaitUntil` of a future returns ok when the queue is not empty, or after it has
taken the token of `has_value_`.  The token and the queue are two variables: `Set`
stores first and posts then, `Get` removes first and drains then.  A `Get` that
runs entirely between the two halves of a `Set` leaves a token behind that
announces nothing (`stale_value_token`); so does a `Reset` that drains between the
two halves of a `Cancel`.

The module proves that these are the only two ways.  In every run in which no
`Get` drains while a `Set` is about to post, and no `Reset` drains while a
`Cancel` is about to (`DrainsInOrder`), a token means that a value is stored, that
the context is cancelled, or that a thread is about to drain (`TokenInv`).  Then a
wait that succeeds undisturbed is followed by a `Get` or `Peek` that succeeds
(`value_after_wait`).
-/
namespace Intrinsic.Promise
open Runs BoundedFifo

variable {Tid α : Type} {movedFrom : α → α} {c c' : Context α} {th th' : Thread α} {l : Label α}
  {t u f : Tid} {v : α} {q q' : List α}

/-! ## Tokens -/

/-- What a thread is about to do to `has_value_`, or keeps others from doing. -/
inductive Stage
  | plain
  /-- `Set` has stored its value and is about to post. -/
  | setPosting
  /-- The thread may just have emptied the queue, and will drain `has_value_`. -/
  | emptying
  /-- `Reset` has drained `has_value_` and not yet cleared the cancellation. -/
  | drained
  /-- `Cancel` has set its flag and still holds its mutex. -/
  | cancelUnlocking
  /-- `Cancel` is about to post. -/
  | cancelPosting
  /-- The destructor is about to post. -/
  | destroying
  deriving DecidableEq

def Pc.stage : Pc α → Stage
  | .setPost _ => .setPosting
  | .getTryWait _ | .resetEmpty | .resetMove | .resetDrop _ | .resetHasValue => .emptying
  | .resetDetached _ | .resetStore => .drained
  | .cancelUnlock => .cancelUnlocking
  | .cancelPost => .cancelPosting
  | .destroyPost => .destroying
  | _ => .plain

/-- **What a step can do to the token of `has_value_`** and to what it stands for. -/
inductive TokenEffect (c : Context α) (th : Thread α) (l : Label α) (c' : Context α)
    (th' : Thread α) : Prop
  | keep (hq : l.event = none ∨ l.event = some .full)
      (hpost : c'.hasValue = .posted → c.hasValue = .posted)
      (hcancel : c'.isCancelled = c.isCancelled) (hs : th.pc.stage ≠ .emptying)
      (hs' : th'.pc.stage = .plain)
  | empties (hpost : c'.hasValue = c.hasValue) (hcancel : c'.isCancelled = c.isCancelled)
      (hs' : th'.pc.stage = .emptying)
  | stores (v : α) (hl : l = .stored v) (hpost : c'.hasValue = c.hasValue)
      (hcancel : c'.isCancelled = c.isCancelled) (hs' : th'.pc.stage = .setPosting)
  | posts (hl : l = .internal) (hcancel : c'.isCancelled = c.isCancelled)
      (hs : th.pc.stage = .setPosting) (hs' : th'.pc.stage = .plain)
  | getDrains (v : α) (hpost : c'.hasValue ≠ .posted) (hcancel : c'.isCancelled = c.isCancelled)
      (hpc : th.pc = .getTryWait v) (hs' : th'.pc.stage = .plain)
  | resetDrains (hpost : c'.hasValue ≠ .posted) (hcancel : c'.isCancelled = c.isCancelled)
      (hpc : th.pc = .resetHasValue) (hs' : th'.pc.stage = .drained)
  | stays (hl : l = .internal) (hpost : c'.hasValue = c.hasValue)
      (hcancel : c'.isCancelled = c.isCancelled) (hs : th.pc.stage = .drained)
      (hs' : th'.pc.stage = .drained)
  | clears (hpost : c'.hasValue = c.hasValue) (hs : th.pc.stage = .drained)
      (hs' : th'.pc.stage = .plain)
  | cancels (hpost : c'.hasValue = c.hasValue) (hcancel : c'.isCancelled = true)
      (hs' : th'.pc.stage = .cancelUnlocking)
  | unlocks (hcancel : c'.isCancelled = c.isCancelled) (hs : th.pc.stage = .cancelUnlocking)
      (hs' : th'.pc.stage = .cancelPosting)
  | cancelPosts (hcancel : c'.isCancelled = c.isCancelled) (hs : th.pc.stage = .cancelPosting)
      (hs' : th'.pc.stage = .plain)
  | destroys (h : l = .destroyStarted ∨ th.pc.stage = .destroying)

theorem Atom.tokenEffect (h : Atom movedFrom c th l c' th') : TokenEffect c th l c' th' := by
  cases h with
  | setFull v hpc => exact .keep (.inr rfl) id rfl (by rw [hpc]; exact nofun) rfl
  | setFinish v => exact .stores v rfl rfl rfl rfl
  | setPost v hpc => exact .posts rfl rfl (by rw [hpc]; rfl) rfl
  | getDrop | resetDrop | resetEmpty | resetNotEmpty | resetMoveNone | resetMove =>
    exact .empties rfl rfl rfl
  | getTryWait v hpc => exact .getDrains v (BinaryFutex.tryWait_not_posted _) rfl hpc rfl
  | resetHasValue hpc => exact .resetDrains (BinaryFutex.tryWait_not_posted _) rfl hpc rfl
  | resetDetached s hpc => exact .stays rfl rfl rfl (by rw [hpc]; rfl) (by cases s <;> rfl)
  | resetStore hpc => exact .clears rfl (by rw [hpc]; rfl) rfl
  | cancelStore => exact .cancels rfl rfl rfl
  | cancelUnlock hpc => exact .unlocks rfl (by rw [hpc]; rfl) rfl
  | cancelPost hpc => exact .cancelPosts rfl (by rw [hpc]; rfl) rfl
  | destroyStart => exact .destroys (.inl rfl)
  | destroyPost hpc => exact .destroys (.inr (by rw [hpc]; rfl))
  | waitFailed g st hpc hwait hst =>
    exact .keep (.inl rfl) (fun hp => hwait.notOk hst ▸ hp) rfl (by rw [hpc]; exact nofun) rfl
  | waitFutex g st hpc hwait hst =>
    exact .keep (.inl rfl) (fun _ => (hwait.ok hst).1) rfl (by rw [hpc]; exact nofun) rfl
  | resetLock k hpc =>
    cases k with
    | writeValue => exact .empties rfl rfl rfl
    | _ => exact .keep (.inl rfl) id rfl (by rw [hpc]; exact nofun) rfl
  | detachNull s k st hpc =>
    exact .keep (.inl (k.label_event s st)) id rfl (by rw [hpc]; exact nofun) rfl
  | resetLoadFalse s hpc | resetWait s _ _ hpc | destroyLoadFalse s hpc | destroyWait s _ _ hpc =>
    exact .keep (.inl rfl) id rfl (by rw [hpc]; exact nofun) (by cases s <;> rfl)
  | acquireBusy _ hpc | setNotAttached _ hpc | setBusy _ hpc =>
    exact .keep (.inl rfl) id rfl (by rw [hpc]; exact nofun) (by rw [hpc]; rfl)
  | getNotAttached hpc | getBusy hpc | peekNotAttached hpc | peekCancelled hpc
  | waitNotAttached hpc | waitCancelled hpc | cancelBusy hpc =>
    exact .keep (.inl rfl) id rfl (by rw [hpc]; exact nofun) (by rw [hpc]; rfl)
  | acquireLock _ _ hpc | acquireCasOk _ _ hpc | acquireCasFailed _ _ hpc
  | acquireUnlockFailed _ hpc | acquireUnlock _ _ hpc | acquireLeaked _ _ hpc | detachStart _ hpc
  | detachExchange _ _ hpc | detachNothing _ _ hpc | detachPost _ _ hpc | setLock _ hpc
  | setCancelled _ hpc | setLoad _ hpc | setPrepare _ _ hpc | setWrite _ _ hpc
  | setUnlockFailed _ _ hpc | setNotUnlocked _ _ hpc | setUnlock _ _ hpc
  | setUnlockDetach _ _ hpc | getMove _ hpc | getUnlockFailed _ hpc | getNotUnlocked _ hpc
  | getUnlock _ hpc | getUnlockDetach _ hpc | peekFront _ hpc | peekKeep _ hpc | peekCopy _ hpc
  | resetLoad _ hpc | resetTimeout _ _ _ hpc | resetUnlock _ _ _ _ hpc | resetReturn _ _ hpc
  | destroyLoad _ hpc | destroyFatal _ _ _ hpc =>
    exact .keep (.inl rfl) id rfl (by rw [hpc]; exact nofun) rfl
  | getLock hpc | getCancelled hpc | getLoad hpc | getEmpty hpc | peekLoad hpc | peekEmpty hpc
  | waitStart hpc | waitHasValue hpc | waitEmpty hpc | waitLoadCancelled hpc | waitLoad hpc
  | cancelLock hpc | cancelNotUnlocked hpc | resetStart hpc =>
    exact .keep (.inl rfl) id rfl (by rw [hpc]; exact nofun) rfl

theorem setPosting_locks {pc : Pc α} (h : pc.stage = .setPosting) : .writeValue ∈ pc.locks := by
  cases pc with
  | setPost => exact .head _
  | _ => cases h

theorem cancelUnlocking_locks {pc : Pc α} (h : pc.stage = .cancelUnlocking) :
    .cancel ∈ pc.locks := by
  cases pc with
  | cancelUnlock => exact .head _
  | _ => cases h

theorem drained_locks {pc : Pc α} (h : pc.stage = .drained) :
    .writeValue ∈ pc.locks ∧ .cancel ∈ pc.locks := by
  cases pc with
  | resetDetached | resetStore => exact ⟨.head _, .tail _ (.tail _ (.head _))⟩
  | _ => cases h

/-- **The two windows are avoided**: no `Get` drains `has_value_` between the
insertion and the post of a `Set`, and no `Reset` drains it before the post of a
`Cancel`.  One thread calls `Get`, and the context is not destroyed. -/
structure DrainsInOrder (f : Tid) (c : Config Tid α) (t : Tid) (l : Label α) : Prop where
  consumer : l.starts .future = true → t = f
  notDestroyed : l ≠ .destroyStarted
  get : ∀ v, (c.locals t).pc = .getTryWait v → ∀ u, (c.locals u).pc.stage ≠ .setPosting
  reset : (c.locals t).pc = .resetHasValue → ∀ u, (c.locals u).pc.stage ≠ .cancelPosting

/-- What a token can stand for, when the context stores `q`. -/
def Announced (c : Config Tid α) (q : List α) : Prop :=
  q ≠ [] ∨ c.shared.isCancelled = true ∨ ∃ u, (c.locals u).pc.stage = .emptying

/-- **A token, or one that a `Set` is about to post, stands for something.** -/
structure TokenInv (c : Config Tid α) (q : List α) : Prop where
  token : (c.shared.hasValue = .posted ∨ ∃ u, (c.locals u).pc.stage = .setPosting) →
    Announced c q
  drained : ∀ u, (c.locals u).pc.stage = .drained →
    c.shared.hasValue ≠ .posted ∧ ∀ u', (c.locals u').pc.stage ≠ .cancelPosting
  cancelling : ∀ u, (c.locals u).pc.stage = .cancelUnlocking ∨
    (c.locals u).pc.stage = .cancelPosting → c.shared.isCancelled = true
  alive : ∀ u, (c.locals u).pc.stage ≠ .destroying

section TokenInv
variable [DecidableEq Tid] {c : Config Tid α} {sh : Context α}

/-- The stage of a thread after a step is an old one or the new one of thread
`t`. -/
theorem stage_update {x : Stage} (h : (Function.update c.locals t th' u).pc.stage = x) :
    th'.pc.stage = x ∨ u ≠ t ∧ (c.locals u).pc.stage = x := by
  rcases of_update (P := fun th : Thread α => th.pc.stage = x) h with ⟨-, hs⟩ | hs
  · exact .inl hs
  · exact .inr hs

theorem Announced.update (h : Announced c q) (hq : q' = q)
    (hcancel : sh.isCancelled = c.shared.isCancelled) (hs : (c.locals t).pc.stage ≠ .emptying) :
    Announced ⟨sh, Function.update c.locals t th'⟩ q' := by
  rcases h with hne | hc | ⟨u, hu⟩
  · exact .inl (hq ▸ hne)
  · exact .inr (.inl (hcancel.trans hc))
  · have hut : u ≠ t := by rintro rfl; exact hs hu
    exact .inr (.inr ⟨u, by simpa [hut] using hu⟩)

/-- A token after the step was there before, or the thread was about to post it. -/
theorem TokenInv.token_before (h : TokenInv c q)
    (hpost : sh.hasValue = .posted →
      c.shared.hasValue = .posted ∨ (c.locals t).pc.stage = .setPosting)
    (hs' : th'.pc.stage ≠ .setPosting)
    (hnew : sh.hasValue = .posted ∨
      ∃ u, (Function.update c.locals t th' u).pc.stage = .setPosting) : Announced c q := by
  rcases hnew with hp | ⟨u, hu⟩
  · rcases hpost hp with hp' | hs
    · exact h.token (.inl hp')
    · exact h.token (.inr ⟨t, hs⟩)
  · rcases stage_update hu with hs | ⟨-, hs⟩
    · exact absurd hs hs'
    · exact h.token (.inr ⟨u, hs⟩)

theorem TokenInv.drained_frame (h : TokenInv c q)
    (hpost : sh.hasValue = .posted → c.shared.hasValue = .posted)
    (hdr : th'.pc.stage = .drained → (c.locals t).pc.stage = .drained)
    (hcp : th'.pc.stage ≠ .cancelPosting) :
    ∀ u, (Function.update c.locals t th' u).pc.stage = .drained →
      sh.hasValue ≠ .posted ∧
        ∀ u', (Function.update c.locals t th' u').pc.stage ≠ .cancelPosting := by
  intro u hu
  obtain ⟨u₀, hu₀⟩ : ∃ u₀, (c.locals u₀).pc.stage = .drained := by
    rcases stage_update hu with hs | ⟨-, hs⟩
    · exact ⟨t, hdr hs⟩
    · exact ⟨u, hs⟩
  obtain ⟨hp, hc⟩ := h.drained u₀ hu₀
  exact ⟨fun hsh => hp (hpost hsh),
    forall_update (fun th : Thread α => th.pc.stage ≠ .cancelPosting) hcp fun v _ => hc v⟩

theorem TokenInv.cancelling_frame (h : TokenInv c q)
    (hcancel : c.shared.isCancelled = true → sh.isCancelled = true)
    (hs' : th'.pc.stage ≠ .cancelUnlocking ∧ th'.pc.stage ≠ .cancelPosting) :
    ∀ u, (Function.update c.locals t th' u).pc.stage = .cancelUnlocking ∨
      (Function.update c.locals t th' u).pc.stage = .cancelPosting → sh.isCancelled = true := by
  rintro u (hu | hu)
  · rcases stage_update hu with hs | ⟨-, hs⟩
    · exact absurd hs hs'.1
    · exact hcancel (h.cancelling u (.inl hs))
  · rcases stage_update hu with hs | ⟨-, hs⟩
    · exact absurd hs hs'.2
    · exact hcancel (h.cancelling u (.inr hs))

theorem TokenInv.alive_frame (h : TokenInv c q) (hs' : th'.pc.stage ≠ .destroying) :
    ∀ u, (Function.update c.locals t th' u).pc.stage ≠ .destroying :=
  forall_update (fun th : Thread α => th.pc.stage ≠ .destroying) hs' fun v _ => h.alive v

/-- The queue is not touched by the steps that show nothing of it. -/
theorem queue_eq {e : Option (Event α)} (hq : e = none ∨ e = some .full)
    (hstep : e = none ∧ q' = q ∨ ∃ x, e = some x ∧ BoundedFifo.Step 1 q x q') : q' = q := by
  rcases hstep with ⟨-, rfl⟩ | ⟨x, hx, hfifo⟩
  · rfl
  · rcases hq with rfl | rfl
    · cases hx
    · cases hx
      cases hfifo
      rfl

/-- While a thread holds the mutex of `Set`, no other one is about to post. -/
theorem no_other_setPosting (hlock : LockInv c) (ht : .writeValue ∈ (c.locals t).pc.locks)
    (th' : Thread α) (hs' : th'.pc.stage ≠ .setPosting) :
    ∀ u, (Function.update c.locals t th' u).pc.stage ≠ .setPosting := by
  intro u hu
  rcases stage_update hu with hs | ⟨hut, hs⟩
  · exact hs' hs
  · exact hut (hlock.exclusive (setPosting_locks hs) ht)

theorem TokenInv.atom (h : TokenInv c q) (hlock : LockInv c) (hok : DrainsInOrder f c t l)
    (hstep : l.event = none ∧ q' = q ∨ ∃ x, l.event = some x ∧ BoundedFifo.Step 1 q x q')
    (he : TokenEffect c.shared (c.locals t) l sh th') :
    TokenInv ⟨sh, Function.update c.locals t th'⟩ q' := by
  cases he with
  | keep hq hpost hcancel hs hs' =>
    refine ⟨fun hnew => ?_, h.drained_frame hpost (by simp [hs']) (by simp [hs']),
      h.cancelling_frame (fun hc => hcancel.trans hc) (by simp [hs']),
      h.alive_frame (by simp [hs'])⟩
    exact (h.token_before (fun hp => .inl (hpost hp)) (by simp [hs']) hnew).update
      (queue_eq hq hstep) hcancel hs
  | empties hpost hcancel hs' =>
    refine ⟨fun _ => .inr (.inr ⟨t, by simpa using hs'⟩),
      h.drained_frame (hpost ▸ id) (by simp [hs']) (by simp [hs']),
      h.cancelling_frame (fun hc => hcancel.trans hc) (by simp [hs']),
      h.alive_frame (by simp [hs'])⟩
  | stores v hl hpost hcancel hs' =>
    have hq' : q' ≠ [] := by
      subst hl
      rcases hstep with ⟨hnone, -⟩ | ⟨x, hx, hfifo⟩
      · cases hnone
      · cases hx
        cases hfifo
        simp
    exact ⟨fun _ => .inl hq', h.drained_frame (hpost ▸ id) (by simp [hs']) (by simp [hs']),
      h.cancelling_frame (fun hc => hcancel.trans hc) (by simp [hs']),
      h.alive_frame (by simp [hs'])⟩
  | posts hl hcancel hs hs' =>
    refine ⟨fun hnew => ?_, fun u hu => ?_,
      h.cancelling_frame (fun hc => hcancel.trans hc) (by simp [hs']),
      h.alive_frame (by simp [hs'])⟩
    · exact (h.token_before (fun _ => .inr hs) (by simp [hs']) hnew).update
        (queue_eq (.inl (by rw [hl]; rfl)) hstep) hcancel (by simp [hs])
    · -- a `Reset` would hold the mutex of `Set`
      rcases stage_update hu with hd | ⟨hut, hd⟩
      · rw [hs'] at hd; cases hd
      · exact absurd (hlock.exclusive (drained_locks hd).1 (setPosting_locks hs)) hut
  | getDrains v hpost hcancel hpc hs' =>
    refine ⟨fun hnew => ?_,
      h.drained_frame (fun hp => absurd hp hpost) (by simp [hs']) (by simp [hs']),
      h.cancelling_frame (fun hc => hcancel.trans hc) (by simp [hs']),
      h.alive_frame (by simp [hs'])⟩
    -- no `Set` is about to post, so the token is gone for good
    rcases hnew with hp | ⟨u, hu⟩
    · exact absurd hp hpost
    · rcases stage_update hu with hs | ⟨-, hs⟩
      · rw [hs'] at hs; cases hs
      · exact absurd hs (hok.get v hpc u)
  | resetDrains hpost hcancel hpc hs' =>
    have hset := no_other_setPosting (t := t) hlock (by rw [hpc]; exact .head _) th' (by simp [hs'])
    refine ⟨fun hnew => ?_, fun _ _ => ⟨hpost, ?_⟩,
      h.cancelling_frame (fun hc => hcancel.trans hc) (by simp [hs']),
      h.alive_frame (by simp [hs'])⟩
    · rcases hnew with hp | ⟨u, hu⟩
      · exact absurd hp hpost
      · exact absurd hu (hset u)
    · exact forall_update (fun th : Thread α => th.pc.stage ≠ .cancelPosting) (by simp [hs'])
        fun v _ => hok.reset hpc v
  | stays hl hpost hcancel hs hs' =>
    refine ⟨fun hnew => ?_, h.drained_frame (hpost ▸ id) (fun _ => hs) (by simp [hs']),
      h.cancelling_frame (fun hc => hcancel.trans hc) (by simp [hs']),
      h.alive_frame (by simp [hs'])⟩
    exact (h.token_before (fun hp => .inl (hpost ▸ hp)) (by simp [hs']) hnew).update
      (queue_eq (.inl (by rw [hl]; rfl)) hstep) hcancel (by simp [hs])
  | clears hpost hs hs' =>
    obtain ⟨hp, hcp⟩ := h.drained t hs
    have hset := no_other_setPosting hlock (drained_locks hs).1 th' (by simp [hs'])
    refine ⟨fun hnew => ?_, h.drained_frame (hpost ▸ id) (by simp [hs']) (by simp [hs']),
      fun u hu => ?_, h.alive_frame (by simp [hs'])⟩
    · rcases hnew with hp' | ⟨u, hu⟩
      · exact absurd (hpost ▸ hp') hp
      · exact absurd hu (hset u)
    · -- a `Cancel` in progress would hold its mutex or be about to post
      rcases hu with hu | hu
      · rcases stage_update hu with hc | ⟨hut, hc⟩
        · rw [hs'] at hc; cases hc
        · exact absurd (hlock.exclusive (cancelUnlocking_locks hc) (drained_locks hs).2) hut
      · rcases stage_update hu with hc | ⟨-, hc⟩
        · rw [hs'] at hc; cases hc
        · exact absurd hc (hcp u)
  | cancels hpost hcancel hs' =>
    exact ⟨fun _ => .inr (.inl hcancel),
      h.drained_frame (hpost ▸ id) (by simp [hs']) (by simp [hs']),
      fun _ _ => hcancel, h.alive_frame (by simp [hs'])⟩
  | unlocks hcancel hs hs' =>
    have hsh : sh.isCancelled = true := hcancel.trans (h.cancelling t (.inl hs))
    refine ⟨fun _ => .inr (.inl hsh), fun u hu => ?_, fun _ _ => hsh, h.alive_frame (by simp [hs'])⟩
    -- a `Reset` would hold the mutex of `Cancel`
    rcases stage_update hu with hd | ⟨hut, hd⟩
    · rw [hs'] at hd; cases hd
    · exact absurd (hlock.exclusive (drained_locks hd).2 (cancelUnlocking_locks hs)) hut
  | cancelPosts hcancel hs hs' =>
    have hsh : sh.isCancelled = true := hcancel.trans (h.cancelling t (.inr hs))
    refine ⟨fun _ => .inr (.inl hsh), fun u hu => ?_, fun _ _ => hsh, h.alive_frame (by simp [hs'])⟩
    rcases stage_update hu with hd | ⟨-, hd⟩
    · rw [hs'] at hd; cases hd
    · exact absurd hs ((h.drained u hd).2 t)
  | destroys hd =>
    rcases hd with hl | hs
    · exact absurd hl hok.notDestroyed
    · exact absurd hs (h.alive t)

end TokenInv

/-- Everything known about a context that stores `q`. -/
structure WaitInv (movedFrom : α → α) (c : Config Tid α) (q : List α) : Prop where
  call : CallInv c
  holds : Holds movedFrom c q
  token : TokenInv c q

section WaitInv
variable [DecidableEq Tid] {c d : Config Tid α} {x : Tid × Label α} {slot : Nat → α}
  {o : Owner Tid} {w : List (Tid × Label α)}

theorem waitInv_initial (slot : Nat → α) (o : Owner Tid) :
    WaitInv movedFrom (initial slot o) [] := by
  have hs : ∀ u, ((initial slot o).locals u).pc.stage = .plain := fun u => by
    rw [initial_pc]; rfl
  refine ⟨callInv_initial slot o, holds_initial slot o, ?_, ?_, ?_, ?_⟩
  · rintro (hp | ⟨u, hu⟩)
    · cases o <;> cases hp
    · rw [hs u] at hu; cases hu
  · intro u hu; rw [hs u] at hu; cases hu
  · rintro u (hu | hu) <;> rw [hs u] at hu <;> cases hu
  · intro u hu; rw [hs u] at hu; cases hu

theorem WaitInv.step (h : WaitInv movedFrom c q)
    (hs : Step movedFrom (DrainsInOrder f) c x d) :
    ∃ q', WaitInv movedFrom d q' ∧
      (x.2.event = none ∧ q' = q ∨ ∃ e, x.2.event = some e ∧ BoundedFifo.Step 1 q e q') := by
  obtain ⟨q', hholds, hstep⟩ := h.holds.step hs
  refine ⟨q', ⟨h.call.step hs, hholds, ?_⟩, hstep⟩
  obtain ⟨t, l⟩ := x
  cases hs with
  | atom hpool =>
    cases hpool with
    | mk hok hatom => exact h.token.atom h.call.inv.lock hok hstep hatom.tokenEffect
  | move u s =>
    obtain rfl := queue_eq (.inl rfl) hstep
    have hpc := moveHandle_pc c t u s
    refine ⟨fun hnew => ?_, fun v hv => ?_, fun v hv => ?_, fun v hv => ?_⟩
    · have hann := h.token.token (hnew.imp_right fun ⟨v, hv⟩ => ⟨v, hpc v ▸ hv⟩)
      exact hann.imp_right (Or.imp_right fun ⟨v, hv⟩ => ⟨v, (hpc v).symm ▸ hv⟩)
    · obtain ⟨hp, hcp⟩ := h.token.drained v (hpc v ▸ hv)
      exact ⟨hp, fun v' hv' => hcp v' (hpc v' ▸ hv')⟩
    · exact h.token.cancelling v (hpc v ▸ hv)
    · exact h.token.alive v (hpc v ▸ hv)

end WaitInv

/-! ## An undisturbed consumer -/

/-- `Cancel` or `Reset` is in progress. -/
def Pc.disturbing : Pc α → Bool
  | .cancelStore | .cancelUnlock | .cancelPost | .resetLock _ | .resetLoad _ | .resetWait _
  | .resetEmpty | .resetMove | .resetDrop _ | .resetHasValue | .resetDetached _ | .resetStore
  | .resetUnlock _ _ => true
  | _ => false

/-- `Cancel` or `Reset` starts. -/
def Label.disturbs : Label α → Bool
  | .cancelStarted | .resetStarted => true
  | _ => false

/-- The step ends a call, or gives a handle away. -/
def Label.returns : Label α → Bool
  | .acquired _ _ | .detached _ _ | .setReturned _ _ | .getReturned _ | .peekReturned _
  | .waitReturned _ | .cancelReturned _ | .resetReturned _ | .moved _ => true
  | _ => false

theorem Atom.disturbing_of (h : Atom movedFrom c th l c' th') (hd : th'.pc.disturbing = true) :
    th.pc.disturbing = true ∨ l.disturbs = true := by
  cases h with
  | cancelLock | resetStart => exact .inr rfl
  | cancelStore hpc | cancelUnlock hpc | resetEmpty hpc | resetNotEmpty hpc | resetMoveNone hpc
  | resetHasValue hpc | resetStore hpc => exact .inl (by rw [hpc]; rfl)
  | resetLock _ hpc | resetLoadFalse _ hpc | resetLoad _ hpc | resetMove _ hpc | resetDrop _ hpc
  | resetDetached _ hpc => exact .inl (by rw [hpc]; rfl)
  | resetWait _ _ _ hpc | resetTimeout _ _ _ hpc | resetUnlock _ _ _ _ hpc =>
    exact .inl (by rw [hpc]; rfl)
  | acquireBusy | setNotAttached | setBusy | getNotAttached | getBusy | peekNotAttached
  | peekCancelled | waitNotAttached | waitCancelled | cancelBusy => exact .inl hd
  | destroyLoadFalse s | destroyWait s => cases s <;> cases hd
  | _ => cases hd

theorem Atom.isCancelled_eq (h : Atom movedFrom c th l c' th') (hd : th.pc.disturbing = false)
    (hl : l ≠ .destroyStarted) : c'.isCancelled = c.isCancelled := by
  cases h with
  | cancelStore hpc | resetStore hpc => rw [hpc] at hd; cases hd
  | destroyStart => exact absurd rfl hl
  | _ => rfl

/-- **The consumer will find a value.**  What that means depends on how far it is:
before it looks, a value is stored; later, its call cannot fail any more. -/
def Fed (q : List α) (th : Thread α) : Prop :=
  match th.pc with
  | .idle => q ≠ [] ∧ (th.handle .future).here = true
  | .waitLoad | .getLoad | .getMove | .peekFront => q ≠ []
  | .getUnlockFailed _ => False
  | _ => True

theorem Fed.at {pc : Pc α} (h : Fed q th) (hpc : th.pc = pc) : Fed q ⟨th.handle, pc⟩ := by
  obtain ⟨handle, pc'⟩ := th
  subst hpc
  exact h

theorem Fed.mono (h : Fed q th) (hq : q ≠ [] → q' ≠ []) : Fed q' th := by
  obtain ⟨handle, pc⟩ := th
  cases pc with
  | idle => exact ⟨hq h.1, h.2⟩
  | waitLoad | getLoad | getMove | peekFront => exact hq h
  | _ => exact h

/-- A step of the consumer that does not end a call other than a successful
wait. -/
theorem Atom.fed (h : Atom movedFrom c th l c' th')
    (hl : l.returns = true → l = .waitReturned okStatus) (hcancel : c.isCancelled = false)
    (huses : th.Uses) (hsize : c.buffer.size = q.length) (hq : l.event = none → q' = q)
    (htoken : th.pc = .waitFutex → c.hasValue = .posted → q ≠ []) (hfed : Fed q th) :
    Fed q' th' := by
  have hcode : ∀ st, (Label.waitReturned st : Label α) = .waitReturned okStatus → st.code = .ok :=
    fun st he => by rw [Label.waitReturned.inj he]; rfl
  have hfuture : th.pc.uses .future = true → (th.handle .future).here = true := huses .future
  cases h with
  | getLock hpc | peekLoad hpc =>
    show q' ≠ []
    rw [hq rfl]
    exact (hfed.at hpc).1
  | getCancelled _ hc | waitLoadCancelled _ hc | peekCancelled _ _ hc | waitCancelled _ _ hc =>
    rw [hcancel] at hc; cases hc
  | getLoad hpc =>
    show q' ≠ []
    rw [hq rfl]
    exact hfed.at hpc
  | getEmpty hpc hempty =>
    rw [RtQueueBuffer.empty, beq_iff_eq, hsize, List.length_eq_zero_iff] at hempty
    exact absurd hempty (hfed.at hpc)
  | waitFutex g st hpc hwait hst =>
    show q' ≠ []
    rw [hq rfl]
    exact htoken hpc (hwait.ok hst).1
  | waitHasValue hpc hempty =>
    refine ⟨?_, hfuture (by rw [hpc]; rfl)⟩
    rintro rfl
    rw [RtQueueBuffer.empty, hsize, ← hq rfl] at hempty
    cases hempty
  | waitLoad hpc =>
    show q' ≠ [] ∧ _
    rw [hq rfl]
    exact ⟨hfed.at hpc, hfuture (by rw [hpc]; rfl)⟩
  | waitFailed g st hpc hwait hst =>
    have hok : st.code = .ok := hcode _ (hl rfl)
    simp [RealtimeStatus.isOk, hok] at hst
  | waitNotAttached => exact absurd (hcode _ (hl rfl)) (by decide)
  | detachNull s k => cases k <;> cases hl rfl
  | acquireBusy | setNotAttached | setBusy | getNotAttached | getBusy | peekNotAttached
  | cancelBusy | acquireUnlockFailed | acquireUnlock | acquireLeaked | setUnlockFailed
  | setNotUnlocked | setUnlock | getUnlockFailed | getNotUnlocked | getUnlock | peekEmpty
  | peekCopy | cancelNotUnlocked | cancelPost | resetReturn => cases hl rfl
  | resetLock k => cases k <;> trivial
  | resetLoadFalse s | resetWait s | resetDetached s | destroyLoadFalse s | destroyWait s =>
    cases s <;> trivial
  | _ => trivial

/-- A `Get` or `Peek` of a consumer that will find a value returns it. -/
theorem Atom.ok_of_fed {r : Except RealtimeStatus α} (h : Atom movedFrom c th l c' th')
    (hl : l = .getReturned r ∨ l = .peekReturned r) (hc : Smooth c th)
    (hcancel : c.isCancelled = false) (hlock : th.pc = .idle → c.canLock .readValue = true)
    (hsize : c.buffer.size = q.length) (hfed : Fed q th) : ∃ v, r = .ok v := by
  cases h with
  | getNotAttached hpc hhere | peekNotAttached hpc hhere =>
    rw [(hfed.at hpc).2] at hhere; cases hhere
  | getBusy hpc _ hbusy => rw [hlock hpc] at hbusy; cases hbusy
  | getUnlockFailed st hpc => exact absurd (hfed.at hpc) id
  | getNotUnlocked v hpc hst =>
    rw [hc.unlock .readValue (by rw [hpc]; exact .head _)] at hst; cases hst
  | getUnlock v =>
    rcases hl with hl | hl
    · exact ⟨v, (Label.getReturned.inj hl).symm⟩
    · cases hl
  | detachNull s k st hpc =>
    have hsound := hc.sound
    rw [hpc] at hsound
    cases k with
    | get v =>
      rw [Cont.label, if_pos hsound.2] at hl
      rcases hl with hl | hl
      · exact ⟨v, (Label.getReturned.inj hl).symm⟩
      · cases hl
    | destroy | set => rcases hl with hl | hl <;> cases hl
  | peekCancelled _ _ hpc => rw [hcancel] at hpc; cases hpc
  | peekEmpty hpc _ hempty =>
    have hb : c.buffer.empty = true := by
      by_contra hne
      simp [RtQueueBuffer.front, hne] at hempty
    rw [RtQueueBuffer.empty, beq_iff_eq, hsize, List.length_eq_zero_iff] at hb
    exact absurd hb (hfed.at hpc)
  | peekCopy j =>
    rcases hl with hl | hl
    · cases hl
    · exact ⟨_, (Label.peekReturned.inj hl).symm⟩
  | _ => rcases hl with hl | hl <;> cases hl

theorem Atom.removes_of {byReset : Bool} (h : Atom movedFrom c th (.removed v byReset) c' th') :
    th.pc.calling .future = true ∨ th.pc.disturbing = true := by
  generalize hl : Label.removed v byReset = l at h
  cases h with
  | getDrop _ hpc => exact .inl (by rw [hpc]; rfl)
  | resetDrop _ hpc => exact .inr (by rw [hpc]; rfl)
  | detachNull s k => cases k <;> cases hl
  | _ => cases hl

theorem Atom.of_waitStarted (h : Atom movedFrom c th .waitStarted c' th') :
    c'.isCancelled = false ∧ th'.pc = .waitEmpty := by
  generalize hl : (Label.waitStarted : Label α) = l at h
  cases h with
  | waitStart _ _ hcancel => exact ⟨hcancel, rfl⟩
  | detachNull s k => cases k <;> cases hl
  | _ => cases hl

/-- Only `Get` and `Reset` hold the mutex of `Get`. -/
theorem readValue_locks {pc : Pc α} (h : .readValue ∈ pc.locks) :
    pc.calling .future = true ∨ pc.disturbing = true := by
  cases pc with
  | acquireCas s | acquireUnlock s | acquireUnlockFailed s =>
    cases s <;> simp [Pc.locks, Side.getLock] at h
  | setLoad | setPrepare | setWrite | setFinish | setPost | setUnlock | setUnlockFailed =>
    simp [Pc.locks] at h
  | getLoad | getMove | getDrop | getTryWait | getUnlock | getUnlockFailed => exact .inl rfl
  | cancelStore | cancelUnlock | resetLock | resetLoad | resetWait | resetEmpty | resetMove
  | resetDrop | resetHasValue | resetDetached | resetStore | resetUnlock => exact .inr rfl
  | _ => cases h

/-- Only `Get` and `Reset` drain `has_value_`. -/
theorem emptying_cases {pc : Pc α} (h : pc.stage = .emptying) :
    pc.calling .future = true ∨ pc.disturbing = true := by
  cases pc with
  | getTryWait => exact .inl rfl
  | resetEmpty | resetMove | resetDrop | resetHasValue => exact .inr rfl
  | _ => cases h

/-- **The consumer `f` has waited successfully, or is about to, and nobody
disturbs it.** -/
structure Served (movedFrom : α → α) (f : Tid) (c : Config Tid α) (q : List α) : Prop where
  wait : WaitInv movedFrom c q
  consumer : ∀ u, (c.locals u).pc.calling .future = true → u = f
  quiet : ∀ u, (c.locals u).pc.disturbing = false
  notCancelled : c.shared.isCancelled = false
  fed : Fed q (c.locals f)

section Served
variable {c d : Config Tid α} {x : Tid × Label α}

/-- A token stands for a stored value when nobody disturbs the consumer. -/
theorem Served.stored (h : Served movedFrom f c q) (hpc : (c.locals f).pc = .waitFutex)
    (hp : c.shared.hasValue = .posted) : q ≠ [] := by
  rcases h.wait.token.token (.inl hp) with hne | hc | ⟨u, hu⟩
  · exact hne
  · rw [h.notCancelled] at hc; cases hc
  · rcases emptying_cases hu with hcall | hdist
    · obtain rfl := h.consumer u hcall
      rw [hpc] at hu; cases hu
    · rw [h.quiet u] at hdist; cases hdist

/-- The mutex of `Get` is free for an idle consumer. -/
theorem Served.canLock (h : Served movedFrom f c q) (hpc : (c.locals f).pc = .idle) :
    c.shared.canLock .readValue = true := by
  rw [canLock_iff]
  by_contra hheld
  obtain ⟨u, hu⟩ := (h.wait.call.inv.lock.owned .readValue).held hheld
  rcases readValue_locks hu with hcall | hdist
  · obtain rfl := h.consumer u hcall
    rw [hpc] at hu; cases hu
  · rw [h.quiet u] at hdist; cases hdist

variable [DecidableEq Tid]

/-- Another thread leaves the consumer's value where it is. -/
theorem Served.other_removes (h : Served movedFrom f c q)
    (hs : Step movedFrom (DrainsInOrder f) c x d) (hne : x.1 ≠ f)
    (hstep : x.2.event = none ∧ q' = q ∨ ∃ e, x.2.event = some e ∧ BoundedFifo.Step 1 q e q')
    (hq : q ≠ []) : q' ≠ [] := by
  obtain ⟨t, l⟩ := x
  rcases hstep with ⟨-, rfl⟩ | ⟨e, he, hfifo⟩
  · exact hq
  · cases hfifo with
    | enq => simp
    | full | empty => exact hq
    | @deq _ y =>
      obtain ⟨byReset, rfl⟩ : ∃ byReset, l = .removed y byReset := by
        cases l <;> simp_all [Label.event]
      rcases hs.thread t with ⟨-, -, hatom⟩ | ⟨-, hne' | ⟨-, r, hr⟩⟩
      · rcases hatom.removes_of with hcall | hdist
        · exact absurd (h.consumer t hcall) hne
        · rw [h.quiet t] at hdist; cases hdist
      · exact absurd rfl hne'
      · cases hr

/-- Another thread's step does not take the value or the handle from the
consumer. -/
theorem Served.other_fed (h : Served movedFrom f c q)
    (hs : Step movedFrom (DrainsInOrder f) c x d) (hne : x.1 ≠ f) (hq : q ≠ [] → q' ≠ []) :
    Fed q' (d.locals f) := by
  obtain ⟨t, l⟩ := x
  have hft : f ≠ t := Ne.symm hne
  cases hs with
  | atom hpool =>
    cases hpool with
    | mk hok hatom =>
      show Fed q' (Function.update c.locals t _ f)
      rw [Function.update_of_ne hft]
      exact h.fed.mono hq
  | move u r hok hut ht hu hhere =>
    show Fed q' (Function.update (Function.update c.locals u _) t _ f)
    rw [Function.update_of_ne hft]
    by_cases hfu : f = u
    · -- the consumer's variable is assigned a handle of the other side only
      subst hfu
      rw [Function.update_self]
      obtain ⟨hne, hfut⟩ := h.fed.at hu
      have hr : Side.future ≠ r := by
        rintro rfl
        rw [hfut] at hhere; cases hhere
      refine Fed.mono (q := q) ?_ hq
      unfold Fed Thread.setHandle
      rw [hu]
      exact ⟨hne, by simpa [hr] using hfut⟩
    · rw [Function.update_of_ne hfu]
      exact h.fed.mono hq

theorem Served.step (h : Served movedFrom f c q)
    (hs : Step movedFrom (DrainsInOrder f) c x d) (hd : x.2.disturbs = false)
    (hl : x.1 = f → x.2.returns = true → x.2 = .waitReturned okStatus) :
    ∃ q', Served movedFrom f d q' := by
  obtain ⟨q', hwait, hstep⟩ := h.wait.step hs
  refine ⟨q', hwait, calling_step (fun _ _ _ hok => hok.consumer) hs h.consumer, fun u => ?_,
    ?_, ?_⟩
  · rcases hs.thread u with ⟨-, -, hatom⟩ | ⟨hsame, -⟩
    · refine Bool.eq_false_iff.mpr fun hdist => ?_
      rcases hatom.disturbing_of hdist with hwas | hstart
      · rw [h.quiet u] at hwas; cases hwas
      · rw [hd] at hstart; cases hstart
    · rw [hsame]; exact h.quiet u
  · obtain ⟨t, l⟩ := x
    cases hs with
    | atom hpool =>
      cases hpool with
      | mk hok hatom =>
        exact (hatom.isCancelled_eq (h.quiet t) hok.notDestroyed).trans h.notCancelled
    | move => exact h.notCancelled
  · by_cases hf : x.1 = f
    · obtain ⟨t, l⟩ := x
      obtain rfl : t = f := hf
      rcases hs.thread t with ⟨-, -, hatom⟩ | ⟨-, hne | ⟨-, r, rfl⟩⟩
      · exact hatom.fed (hl rfl) h.notCancelled (h.wait.call.inv.attach.uses t) h.wait.holds.size
          (fun he => queue_eq (.inl he) hstep) h.stored h.fed
      · exact absurd rfl hne
      · cases hl rfl rfl
    · exact h.other_fed hs hf (h.other_removes hs hf hstep)

/-- The consumer starts to wait while no `Cancel` or `Reset` is in progress. -/
theorem served_of_waitStarted (h : WaitInv movedFrom c q)
    (hcons : ∀ u, (c.locals u).pc.calling .future = true → u = f)
    (hquiet : ∀ u, (c.locals u).pc.disturbing = false)
    (hs : Step movedFrom (DrainsInOrder f) c (f, .waitStarted) d) :
    ∃ q', Served movedFrom f d q' := by
  obtain ⟨q', hwait, -⟩ := h.step hs
  obtain ⟨hcancel, hpc⟩ : d.shared.isCancelled = false ∧ (d.locals f).pc = .waitEmpty := by
    rcases hs.thread f with ⟨-, -, hatom⟩ | ⟨-, hne | ⟨-, r, hr⟩⟩
    · exact hatom.of_waitStarted
    · exact absurd rfl hne
    · cases hr
  refine ⟨q', hwait, calling_step (fun _ _ _ hok => hok.consumer) hs hcons, fun u => ?_,
    hcancel, ?_⟩
  · rcases hs.thread u with ⟨-, -, hatom⟩ | ⟨hsame, -⟩
    · refine Bool.eq_false_iff.mpr fun hdist => ?_
      rcases hatom.disturbing_of hdist with hwas | hstart
      · rw [hquiet u] at hwas; cases hwas
      · cases hstart
    · rw [hsame]; exact hquiet u
  · unfold Fed
    rw [hpc]
    trivial

/-- **A successful wait means that a value is there**, in every run that avoids the
two windows: the `Get` or `Peek` that follows the wait returns a value, unless a
`Cancel` or `Reset` intervenes. -/
theorem value_after_wait {slot : Nat → α} {o : Owner Tid} {w₁ w₂ : List (Tid × Label α)}
    {r : Except RealtimeStatus α} {l : Label α}
    (h₁ : Run (Step movedFrom (DrainsInOrder f)) (initial slot o) w₁ c)
    (hquiet : ∀ u, (c.locals u).pc.disturbing = false)
    (h₂ : Run (Step movedFrom (DrainsInOrder f)) c ((f, .waitStarted) :: (w₂ ++ [(f, l)])) d)
    (hnone : ∀ x ∈ w₂, x.2.disturbs = false)
    (hcalls : ∀ l', (f, l') ∈ w₂ → l'.returns = true → l' = .waitReturned okStatus)
    (hl : l = .getReturned r ∨ l = .peekReturned r) : ∃ v, r = .ok v := by
  obtain ⟨q, hwait⟩ : ∃ q, WaitInv movedFrom c q := by
    refine h₁.stateInvariant (I := fun c => ∃ q, WaitInv movedFrom c q)
      ⟨[], waitInv_initial slot o⟩ ?_
    rintro c x d ⟨q, hq⟩ hs
    obtain ⟨q', hq', -⟩ := hq.step hs
    exact ⟨q', hq'⟩
  obtain ⟨c₁, hstart, hrest⟩ := h₂.uncons
  obtain ⟨c₂, hmid, hlast⟩ := hrest.unsnoc
  -- the consumer is served from the start of the wait to the end of the call
  obtain ⟨q₂, h⟩ : ∃ q₂, Served movedFrom f c₂ q₂ := by
    have hseg := hmid.invariant
      (I := fun w c => (∀ x ∈ w, x.2.disturbs = false) →
        (∀ l', (f, l') ∈ w → l'.returns = true → l' = .waitReturned okStatus) →
          ∃ q, Served movedFrom f c q)
      (fun _ _ => served_of_waitStarted hwait
        (calling_run (fun _ _ _ hok => hok.consumer) h₁) hquiet hstart) ?_
    · exact hseg hnone hcalls
    · rintro w c ⟨t, l'⟩ d ih hs hn hc
      obtain ⟨q, hq⟩ := ih (fun x hx => hn x (List.mem_append_left _ hx))
        (fun l' hl' => hc l' (List.mem_append_left _ hl'))
      refine hq.step hs (hn _ (List.mem_append_right _ (.head _))) ?_
      rintro rfl
      exact hc l' (List.mem_append_right _ (.head _))
  rcases hlast.thread f with ⟨-, -, hatom⟩ | ⟨-, hne | ⟨-, s, rfl⟩⟩
  · exact hatom.ok_of_fed hl (h.wait.call.smooth f) h.notCancelled h.canLock h.wait.holds.size h.fed
  · exact absurd rfl hne
  · rcases hl with hl | hl <;> cases hl

end Served

/-- A thread with both handles sets a value, waits for it and peeks at it. -/
theorem value_after_wait_peek :
    ∃ (w : List (Bool × Label Nat)) (c d : Config Bool Nat),
      Run (Step id (DrainsInOrder false)) (initial (fun _ => 0) (.handle .promise false)) w c ∧
      Run (Step id (DrainsInOrder false)) c
        [(false, .waitStarted), (false, .waitReturned okStatus), (false, .internal),
          (false, .internal), (false, .internal), (false, .peekReturned (.ok 7))] d ∧
      ∃ v, (Except.ok 7 : Except RealtimeStatus Nat) = .ok v := by
  let c₀ : Context Nat := (Context.make fun _ => 0).setAttached .promise true
  let c₁ := (c₀.lock .getFuture).setAttached .future true
  let c₂ := (c₁.unlock .getFuture).lock .writeValue
  let c₃ : Context Nat := { c₂ with buffer := c₂.buffer.prepareInsert.2 }
  let c₄ : Context Nat := { c₃ with buffer := c₃.buffer.write 0 7 }
  let c₅ : Context Nat := { c₄ with buffer := c₄.buffer.finishInsert }
  let c₆ : Context Nat := { c₅ with hasValue := .posted }
  let c₇ := c₆.unlock .writeValue
  let c₈ : Context Nat := { c₇ with buffer := c₇.buffer.front.2 }
  let c₉ : Context Nat := { c₈ with buffer := c₈.buffer.keepFront }
  let h₀ : Side → Handle := Function.update (fun _ => ⟨false, false⟩) .promise ⟨true, true⟩
  let h₁ : Side → Handle := Function.update h₀ .future ⟨true, true⟩
  -- none of the steps below is a `Get`'s drain, a `Reset`'s drain or the destructor
  have hstep : ∀ {s s' : Context Nat} {x x' : Thread Nat} {l : Label Nat}, Atom id s x l s' x' →
      l ≠ .destroyStarted → x.pc.stage ≠ .emptying →
        Step id (DrainsInOrder false) (Pool.two s x .init) (false, l) (.two s' x' .init) := by
    intro s s' x x' l ha hl hs
    refine .atom (.first ⟨fun _ => rfl, hl, fun v hpc => ?_, fun hpc => ?_⟩ ha)
    · exact absurd (congrArg Pc.stage (show x.pc = _ from hpc)) hs
    · exact absurd (congrArg Pc.stage (show x.pc = _ from hpc)) hs
  have hreach : Reaches (Step id (DrainsInOrder false))
      (initial (fun _ => 0) (.handle .promise false)) (.two c₇ ⟨h₁, .idle⟩ .init) := by
    rw [Pool.eq_two (initial _ _)]
    refine .head (hstep (.acquireLock .future true rfl rfl) nofun nofun) ?_
    refine .head (hstep (.acquireCasOk .future true rfl rfl) nofun nofun) ?_
    refine .head (hstep (.acquireUnlock .future true rfl rfl) nofun nofun) ?_
    refine .head (hstep (.setLock 7 rfl rfl rfl) nofun nofun) ?_
    refine .head (hstep (.setLoad 7 rfl rfl) nofun nofun) ?_
    refine .head (hstep (.setPrepare 7 0 rfl rfl rfl) nofun nofun) ?_
    refine .head (hstep (.setWrite 7 0 rfl) nofun nofun) ?_
    refine .head (hstep (.setFinish 7 0 rfl rfl) nofun nofun) ?_
    refine .head (hstep (.setPost 7 rfl) nofun nofun) ?_
    exact .single (hstep (.setUnlock 7 rtOkStatus rfl rfl rfl) nofun nofun)
  have hwait : Run (Step id (DrainsInOrder false)) (.two c₇ ⟨h₁, .idle⟩ .init)
      [(false, .waitStarted), (false, .waitReturned okStatus), (false, .internal),
        (false, .internal), (false, .internal), (false, .peekReturned (.ok 7))]
      (.two c₉ ⟨h₁, .idle⟩ .init) := by
    refine .cons (hstep (.waitStart rfl rfl rfl) nofun nofun) ?_
    refine .cons (hstep (.waitHasValue rfl rfl) nofun nofun) ?_
    refine .cons (hstep (.peekLoad rfl rfl rfl) nofun nofun) ?_
    refine .cons (hstep (.peekFront 0 rfl rfl rfl) nofun nofun) ?_
    refine .cons (hstep (.peekKeep 0 rfl rfl) nofun nofun) ?_
    exact .single (hstep (.peekCopy 0 rfl) nofun nofun)
  obtain ⟨w, hw⟩ := hreach
  refine ⟨w, _, _, hw, hwait, value_after_wait (f := false) hw ?_
    (show Run _ _ (_ :: ([_, _, _, _] ++ [_])) _ from hwait) ?_ ?_ (.inr rfl)⟩
  · intro u; cases u <;> rfl
  · decide
  · intro l' hm
    simp only [List.mem_cons, Prod.mk.injEq, true_and, List.not_mem_nil, or_false] at hm
    rcases hm with rfl | rfl | rfl | rfl
    · exact fun _ => rfl
    all_goals exact nofun

/-- Of two threads the first one sets, the second one gets, and neither cancels or
resets. -/
def PlainUse (c : Config Bool α) (t : Bool) (l : Label α) : Prop :=
  OneEach (fun s => decide (s = .future)) c t l ∧ l.disturbs = false

/-- **A stale token.**  The consumer gets the value between the insertion and the
post of `Set`.  The post then announces a value that is gone: the next wait
returns ok and the `Get` after it finds nothing, although nobody ever cancels or
resets. -/
theorem stale_value_token :
    ∃ (w : List (Bool × Label Nat)) (c d : Config Bool Nat),
      Run (Step id PlainUse) (initial (fun _ => 0) (.handle .promise false)) w c ∧
      Run (Step id PlainUse) c
        [(true, .waitStarted), (true, .internal), (true, .internal),
          (true, .waitReturned okStatus), (true, .getStarted), (true, .internal), (true, .internal),
          (true, .getReturned (.error valueNotAvailable))] d := by
  let c₀ : Context Nat := (Context.make fun _ => 0).setAttached .promise true
  let c₁ := (c₀.lock .getFuture).setAttached .future true
  let c₂ := (c₁.unlock .getFuture).lock .writeValue
  let c₃ : Context Nat := { c₂ with buffer := c₂.buffer.prepareInsert.2 }
  let c₄ : Context Nat := { c₃ with buffer := c₃.buffer.write 0 7 }
  let c₅ : Context Nat := { c₄ with buffer := c₄.buffer.finishInsert }
  let c₆ := c₅.lock .readValue
  let c₇ : Context Nat := { c₆ with buffer := (moveFront id c₆.buffer).2 }
  let c₈ : Context Nat := { c₇ with buffer := c₇.buffer.dropFront }
  let c₉ : Context Nat := { c₈ with hasValue := .ready }
  let c₁₀ : Context Nat := { c₉.unlock .readValue with hasValue := .posted }
  let c₁₁ := c₁₀.unlock .writeValue
  let c₁₂ : Context Nat := { c₁₁ with hasValue := .ready }
  let h₀ : Side → Handle := Function.update (fun _ => ⟨false, false⟩) .promise ⟨true, true⟩
  let h₁ : Side → Handle := Function.update (fun _ => ⟨false, false⟩) .future ⟨true, true⟩
  have hempty : c₈.buffer.empty = true := by
    have hsize : c₈.buffer.size = 1 - 1 :=
      Queue.decreaseSize_size (b := c₇.buffer) (by decide) (by decide)
    rw [RtQueueBuffer.empty, hsize]
    rfl
  -- the producer is the first thread, the consumer the second
  have hprod : ∀ {s s' : Context Nat} {x x' y : Thread Nat} {l : Label Nat}, Atom id s x l s' x' →
      l.starts .future = false → l.disturbs = false →
        Step id PlainUse (Pool.two s x y) (false, l) (.two s' x' y) := by
    intro s s' x x' y l ha hl hd
    refine .atom (.first ⟨fun r hr => ?_, hd⟩ ha)
    cases r with
    | promise => rfl
    | future => rw [hl] at hr; cases hr
  have hcons : ∀ {s s' : Context Nat} {x y y' : Thread Nat} {l : Label Nat}, Atom id s y l s' y' →
      l.starts .promise = false → l.disturbs = false →
        Step id PlainUse (Pool.two s x y) (true, l) (.two s' x y') := by
    intro s s' x y y' l ha hl hd
    refine .atom (.second ⟨fun r hr => ?_, hd⟩ ha)
    cases r with
    | promise => rw [hl] at hr; cases hr
    | future => rfl
  have hreach : Reaches (Step id PlainUse)
      (initial (fun _ => 0) (.handle .promise false)) (.two c₁₁ ⟨h₀, .idle⟩ ⟨h₁, .idle⟩) := by
    rw [Pool.eq_two (initial _ _)]
    refine .head (hcons (.acquireLock .future true rfl rfl) rfl rfl) ?_
    refine .head (hcons (.acquireCasOk .future true rfl rfl) rfl rfl) ?_
    refine .head (hcons (.acquireUnlock .future true rfl rfl) rfl rfl) ?_
    refine .head (hprod (.setLock 7 rfl rfl rfl) rfl rfl) ?_
    refine .head (hprod (.setLoad 7 rfl rfl) rfl rfl) ?_
    refine .head (hprod (.setPrepare 7 0 rfl rfl rfl) rfl rfl) ?_
    refine .head (hprod (.setWrite 7 0 rfl) rfl rfl) ?_
    refine .head (hprod (.setFinish 7 0 rfl rfl) rfl rfl) ?_
    refine .head (hcons (.getLock rfl rfl rfl) rfl rfl) ?_
    refine .head (hcons (.getLoad rfl rfl) rfl rfl) ?_
    refine .head (hcons (.getMove 7 rfl rfl rfl) rfl rfl) ?_
    refine .head (hcons (.getDrop 7 rfl rfl) rfl rfl) ?_
    refine .head (hcons (.getTryWait 7 rfl) rfl rfl) ?_
    refine .head (hcons (.getUnlock 7 rfl rfl rfl) rfl rfl) ?_
    refine .head (hprod (.setPost 7 rfl) rfl rfl) ?_
    exact .single (hprod (.setUnlock 7 rtOkStatus rfl rfl rfl) rfl rfl)
  obtain ⟨w, hw⟩ := hreach
  refine ⟨w, _, .two ((c₁₂.lock .readValue).unlock .readValue) ⟨h₀, .idle⟩ ⟨h₁, .idle⟩, hw, ?_⟩
  refine .cons (hcons (.waitStart rfl rfl rfl) rfl rfl) ?_
  refine .cons (hcons (.waitEmpty rfl (by exact hempty)) rfl rfl) ?_
  refine .cons (hcons (.waitFutex .ready _ rfl .taken rfl) rfl rfl) ?_
  refine .cons (hcons (.waitLoad rfl rfl) rfl rfl) ?_
  refine .cons (hcons (.getLock rfl rfl rfl) rfl rfl) ?_
  refine .cons (hcons (.getLoad rfl rfl) rfl rfl) ?_
  refine .cons (hcons (.getEmpty rfl (by exact hempty)) rfl rfl) ?_
  have hlast : Step id PlainUse
      (.two (c₁₂.lock .readValue) ⟨h₀, .idle⟩ ⟨h₁, .getUnlockFailed valueNotAvailable⟩)
      (true, .getReturned (.error (overwriteIfNotError
        ((c₁₂.lock .readValue).unlockStatus .readValue) valueNotAvailable)))
      (.two ((c₁₂.lock .readValue).unlock .readValue) ⟨h₀, .idle⟩ ⟨h₁, .idle⟩) :=
    hcons (.getUnlockFailed valueNotAvailable rfl) rfl rfl
  have hunlock : ((c₁₂.lock .readValue).unlockStatus .readValue).isOk = true := rfl
  rw [overwriteIfNotError, if_pos hunlock] at hlast
  exact .single hlast

end Intrinsic.Promise
