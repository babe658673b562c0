import IconSharedMemory.LockableFutex
import IconSharedMemory.PromiseUnlock
import IconSharedMemory.PromiseWakeups

/-! # A promise context down to the system calls

A promise context has eight futexes: five mutexes, `has_value_` and the two detach futexes.  The
model of `Promise.lean` takes each operation on them as one step.  Here the calls on a context run
over the code of its futexes: a `WaitUntil` of a future, or a `Reset` that needs a mutex, goes to
sleep in the kernel and is woken up, and the other threads take turns with each of its steps.

A handle that no thread has lies in memory, in a slot of a queue for instance, until a thread
moves it out again (`Members.boxes`).  In the model with one-step futexes these places are
threads that never make a call.

The context over the code refines the one over one-step futexes (`code_refines`), and nobody
oversleeps: when each thread is between two calls or asleep in one, whoever sleeps waits for a
value of a context that has none and is not cancelled, for a handle to be detached that is
attached, or for a `Reset` that does (`sleepers_wait_for_their_users`).
-/
namespace Intrinsic.Promise
open Runs AtomicObjects

/-! ## The program -/

/-- The futexes of a context. -/
inductive Futex
  | lock (k : Lock)
  | hasValue
  | detached (s : Side)
  deriving DecidableEq, Repr

section Program
variable {α : Type}

/-- The other members of a context, and the places in memory where handles lie. -/
structure Members (α : Type) where
  buffer : RtQueueBuffer α
  attached : Side → Bool
  isCancelled : Bool
  boxes : Nat → Side → Handle

/-- A handle is put to a place in memory. -/
def Members.put (m : Members α) (n : Nat) (s : Side) (h : Handle) : Members α :=
  { m with boxes := Function.update m.boxes n (Function.update (m.boxes n) s h) }

/-- A context over these futexes. -/
def Members.with (m : Members α) (f : Futex → BinaryFutex) : Context α :=
  ⟨m.buffer, m.attached, m.isCancelled, fun k => ⟨f (.lock k)⟩, f .hasValue,
    fun s => f (.detached s)⟩

/-- What the steps show: those of the context, handles that are moved to and from memory, and the
end of the process when an `INTR_CHECK` fails. -/
inductive CodeLabel (α : Type)
  | step (l : Option (Label α))
  | give (n : Nat) (s : Side)
  | take (n : Nat) (s : Side)
  | aborted

/-- The places where a futex is called. -/
inductive Call (α : Type)
  -- `TryLock`
  | acquire (s : Side) (reusable : Bool)
  | set (v : α)
  | get
  | cancel
  -- `Lock`, in `Reset`
  | lock (k : Lock)
  -- the two halves of an `Unlock`
  | isHeld (k : Lock)
  | unlock (k : Lock) (th : Thread α)
  -- `Post`
  | detachPost (s : Side) (k : Cont α)
  | setPost (v : α)
  | cancelPost
  | destroyPost
  -- `TryWait`
  | getTryWait (v : α)
  | resetHasValue
  | resetDetached (s : Side)
  -- `WaitUntil`, `WaitFor`
  | waitFutex
  | resetWait (s : Side)
  | destroyWait (s : Side)

/-- How a call goes on after an `Unlock` that returned the status, if no `INTR_CHECK` fails. -/
def afterUnlock (th : Thread α) (st : RealtimeStatus) : Option (Label α × Thread α) :=
  match th.pc with
  | .acquireUnlockFailed s => some (.acquired s s.alreadyAttached, th.goto .idle)
  | .acquireUnlock s reusable =>
    if st.isOk then some (.acquired s rtOkStatus, (th.setHandle s ⟨true, reusable⟩).goto .idle)
    else some (.acquired s st, th.goto .idle)
  | .setUnlockFailed v error =>
    some (.setReturned v (overwriteIfNotError st error), th.goto .idle)
  | .setUnlock v posted =>
    if st.isOk then
      if (th.handle .promise).reusable then some (.setReturned v posted, th.goto .idle)
      else some (.internal, th.goto (.detachExchange .promise (.set v posted)))
    else some (.setReturned v st, th.goto .idle)
  | .getUnlockFailed error =>
    some (.getReturned (.error (overwriteIfNotError st error)), th.goto .idle)
  | .getUnlock v =>
    if st.isOk then
      if (th.handle .future).reusable then some (.getReturned (.ok v), th.goto .idle)
      else some (.internal, th.goto (.detachExchange .future (.get v)))
    else some (.getReturned (.error st), th.goto .idle)
  | .cancelUnlock =>
    if st.isOk then some (.internal, th.goto .cancelPost)
    else some (.cancelReturned st, th.goto .idle)
  | .resetUnlock (_ :: k :: held) result =>
    if st.isOk then some (.internal, th.goto (.resetUnlock (k :: held) result)) else none
  | .resetUnlock [_] result =>
    if st.isOk then some (.resetReturned result, th.goto .idle) else none
  | _ => none

namespace Call

def futex : Call α → Futex
  | .acquire s _ => .lock s.getLock
  | .set _ => .lock .writeValue
  | .get => .lock .readValue
  | .cancel => .lock .cancel
  | .lock k | .isHeld k | .unlock k _ => .lock k
  | .setPost _ | .cancelPost | .destroyPost | .getTryWait _ | .resetHasValue | .waitFutex =>
    .hasValue
  | .detachPost s _ | .resetDetached s | .resetWait s | .destroyWait s => .detached s

def op : Call α → FutexCode.Op
  | .acquire _ _ | .set _ | .get | .cancel | .getTryWait _ | .resetHasValue
  | .resetDetached _ => .tryWait
  | .isHeld _ => .value
  | .unlock _ _ | .detachPost _ _ | .setPost _ | .cancelPost | .destroyPost => .post
  | .lock _ | .waitFutex | .resetWait _ | .destroyWait _ => .wait

/-- What the thread knows about an `Unlock` that it has begun. -/
def checked : Call α → Option Bool
  | .unlock _ _ => some true
  | _ => none

/-- Where a thread makes the call. -/
def At (th : Thread α) : Call α → Prop
  | .acquire _ _ | .cancel => th.pc = .idle
  | .set _ => th.pc = .idle ∧ (th.handle .promise).here = true
  | .get => th.pc = .idle ∧ (th.handle .future).here = true
  | .lock k => th.pc = .resetLock k ∧ k ≠ .getFuture ∨ th.pc = .idle ∧ k = .getFuture
  | .isHeld k => th.pc.unlocks = some k
  | .unlock k th' => th = th' ∧ th.pc.unlocks = some k
  | .detachPost s k => th.pc = .detachPost s k
  | .setPost v => th.pc = .setPost v
  | .cancelPost => th.pc = .cancelPost
  | .destroyPost => th.pc = .destroyPost
  | .getTryWait v => th.pc = .getTryWait v
  | .resetHasValue => th.pc = .resetHasValue
  | .resetDetached s => th.pc = .resetDetached s
  | .waitFutex => th.pc = .waitFutex
  | .resetWait s => th.pc = .resetWait s
  | .destroyWait s => th.pc = .destroyWait s

/-- Where the thread goes on when the call has returned. -/
def next (r : FutexCode.Outcome) (th : Thread α) : Call α → Thread α
  | .acquire s reusable =>
    if LockableFutex.taken r then th.goto (.acquireCas s reusable) else th
  | .set v => if LockableFutex.taken r then th.goto (.setLoad v) else th
  | .get => if LockableFutex.taken r then th.goto .getLoad else th
  | .cancel => if LockableFutex.taken r then th.goto .cancelStore else th
  | .lock k => if r.status.isOk then th.goto k.afterResetLock else th
  | .isHeld _ => th
  | .unlock _ _ => ((afterUnlock th r.status).map Prod.snd).getD th
  | .detachPost s k => th.goto (.detachNull s k r.status)
  | .setPost v => th.goto (.setUnlock v r.status)
  | .cancelPost => th.goto .idle
  | .destroyPost => th.goto (.destroyLoad .future)
  | .getTryWait v => th.goto (.getUnlock v)
  | .resetHasValue => th.goto (.resetDetached .future)
  | .resetDetached s => th.goto s.afterDrain
  | .waitFutex => th.goto (if r.status.isOk then .waitLoad else .idle)
  | .resetWait s =>
    th.goto (if r.status.isOk then s.afterReset
      else .resetUnlock Lock.readValue.heldBefore (s.notDetached r.status))
  | .destroyWait s => th.goto (if r.status.isOk then s.afterDestroy else .destroyFatal)

def resume (r : FutexCode.Outcome) (x : Caller α) (k : Call α) : Caller α :=
  ⟨k.next r x.thread, match k with
    | .isHeld _ => some (LockableFutex.loaded r = FutexCode.kReady)
    | _ => none⟩

def label (r : FutexCode.Outcome) : Call α → CodeLabel α
  | .acquire s _ =>
    .step (some (if LockableFutex.taken r then .internal else .acquired s s.resetInProgress))
  | .set v =>
    .step (some (if LockableFutex.taken r then .setStarted v
      else .setReturned v Side.promise.beingCancelled))
  | .get =>
    .step (some (if LockableFutex.taken r then .getStarted
      else .getReturned (.error Side.future.beingCancelled)))
  | .cancel =>
    .step (some (if LockableFutex.taken r then .cancelStarted
      else .cancelReturned cancelWhileReset))
  | .lock k =>
    if r.status.isOk then .step (some (if k = .getFuture then .resetStarted else .internal))
    else .aborted
  | .isHeld _ => .step none
  | .unlock _ th => ((afterUnlock th r.status).map fun x => .step (some x.1)).getD .aborted
  | .cancelPost => .step (some (.cancelReturned r.status))
  | .waitFutex =>
    .step (some (if r.status.isOk then .internal
      else .waitReturned (newValueNotAvailable r.status)))
  | .detachPost _ _ | .setPost _ | .destroyPost | .getTryWait _ | .resetHasValue
  | .resetDetached _ | .resetWait _ | .destroyWait _ => .step (some .internal)

end Call

/-- The thread waits for a futex. -/
def Pc.blocks : Pc α → Bool
  | .waitFutex | .resetWait _ | .destroyWait _ => true
  | _ => false

/-- **The steps in which no futex takes part**: those of the context that are possible whatever
the futexes are, and handles that are moved to and from memory. -/
inductive OwnStep (movedFrom : α → α) :
    Members α → Caller α → CodeLabel α → Members α → Caller α → Prop
  | step {m m' : Members α} {x x' : Caller α} {l : Option (Label α)}
      (hpc : x.thread.pc.blocks = false) (hboxes : m'.boxes = m.boxes)
      (h : ∀ f, FineAtom movedFrom (m.with f) x l (m'.with f) x') :
      OwnStep movedFrom m x (.step l) m' x'
  | give {m : Members α} {th : Thread α} (n : Nat) (s : Side) (hpc : th.pc = .idle)
      (hempty : (m.boxes n s).here = false) :
      OwnStep movedFrom m ⟨th, none⟩ (.give n s) (m.put n s (th.handle s))
        ⟨th.setHandle s (m.boxes n s), none⟩
  | take {m : Members α} {th : Thread α} (n : Nat) (s : Side) (hpc : th.pc = .idle)
      (hempty : (th.handle s).here = false) :
      OwnStep movedFrom m ⟨th, none⟩ (.take n s) (m.put n s (th.handle s))
        ⟨th.setHandle s (m.boxes n s), none⟩

/-- **The calls on a context as a program over its futexes.** -/
def program (movedFrom : α → α) :
    Program (Members α) (Caller α) Futex FutexCode.Op FutexCode.Outcome (Call α)
      (CodeLabel α) where
  own := OwnStep movedFrom
  calls x k := x.checked = k.checked ∧ k.At x.thread
  object := Call.futex
  op := Call.op
  resume k r x := k.resume r x
  label k r := k.label r

end Program


/-! ## Over one-step futexes it is the context of before -/

section OneStep
variable {α : Type} {movedFrom : α → α} {m : Members α} {f : Futex → BinaryFutex}
  {v : BinaryFutex} {k : Lock} {s : Side} {r : FutexCode.Outcome} {th th' : Thread α}
  {l : Label α} {st : RealtimeStatus}

theorem Members.with_lock : m.with (Function.update f (.lock k) v) =
    { m.with f with locks := Function.update (m.with f).locks k ⟨v⟩ } := by
  have hlocks : (fun j => (⟨Function.update f (.lock k) v (.lock j)⟩ : LockableBinaryFutex)) =
      Function.update (fun j => ⟨f (.lock j)⟩) k ⟨v⟩ := by
    funext j
    by_cases hj : j = k
    · subst hj
      rw [Function.update_self, Function.update_self]
    · rw [Function.update_of_ne hj, Function.update_of_ne fun h => hj (Futex.lock.inj h)]
  unfold Members.with
  rw [hlocks]
  rfl

theorem Members.with_hasValue : m.with (Function.update f .hasValue v) =
    { m.with f with hasValue := v } := rfl

theorem Members.with_detached : m.with (Function.update f (.detached s) v) =
    (m.with f).setDetached s v := by
  have hdetached : (fun j => Function.update f (.detached s) v (.detached j)) =
      Function.update (fun j => f (.detached j)) s v := by
    funext j
    by_cases hj : j = s
    · subst hj
      rw [Function.update_self, Function.update_self]
    · rw [Function.update_of_ne hj, Function.update_of_ne fun h => hj (Futex.detached.inj h)]
  unfold Members.with Context.setDetached
  rw [hdetached]
  rfl

/-- A `TryLock` takes the mutex, or it leaves it alone. -/
theorem tryLock_of_spec (h : FutexCode.spec .tryWait (f (.lock k)) v r) :
    (LockableFutex.taken r = true ∧ (m.with f).canLock k = true ∧
        m.with (Function.update f (.lock k) v) = (m.with f).lock k) ∨
      (LockableFutex.taken r = false ∧ (m.with f).canLock k = false ∧
        m.with (Function.update f (.lock k) v) = m.with f) := by
  obtain ⟨token, rfl, htry⟩ := h
  have hcan : (m.with f).canLock k = (f (.lock k)).tryWait.2.getD false := rfl
  have hlock : (m.with f).lock k = m.with (Function.update f (.lock k) v) := by
    rw [Members.with_lock, Context.lock, show v = (f (.lock k)).tryWait.1 by rw [htry]]
    rfl
  cases htaken : token.getD false with
  | true => exact .inl ⟨htaken, by rw [hcan, htry]; exact htaken, hlock.symm⟩
  | false =>
    have hsame : v = f (.lock k) := by
      cases hf : f (.lock k) <;> rw [hf] at htry <;> obtain ⟨rfl, rfl⟩ := Prod.mk.inj htry
      · rfl
      · cases htaken
      · rfl
    exact .inr ⟨htaken, by rw [hcan, htry]; exact htaken, by rw [hsame, Function.update_eq_self]⟩

/-- A `Lock` that succeeds has taken the mutex. -/
theorem lock_of_spec (h : FutexCode.spec .wait (f (.lock k)) v r) (hok : r.status.isOk = true) :
    (m.with f).canLock k = true ∧
      m.with (Function.update f (.lock k) v) = (m.with f).lock k := by
  obtain ⟨st, rfl, hwait⟩ := h
  obtain ⟨hposted, rfl⟩ := hwait.ok hok
  have hmake : (m.with f).locks k = .make := congrArg LockableBinaryFutex.mk hposted
  refine ⟨canLock_iff.mpr hmake, ?_⟩
  rw [Members.with_lock, Context.lock, hmake]
  rfl

theorem loaded_of_spec (h : FutexCode.spec .value (f (.lock k)) v r) :
    v = f (.lock k) ∧
      decide (LockableFutex.loaded r = FutexCode.kReady) = ((m.with f).locks k).isHeld := by
  obtain ⟨rfl, rfl⟩ := h
  refine ⟨rfl, ?_⟩
  rw [show ((m.with f).locks k).isHeld = decide (f (.lock k) = .ready) from rfl]
  cases f (.lock k) <;> decide

theorem postLock_of_spec (h : FutexCode.spec .post (f (.lock k)) v r) :
    r.status = ((m.with f).locks k).futex.post.2 ∧
      m.with (Function.update f (.lock k) v) = (m.with f).postLock k := by
  obtain ⟨st, rfl, hpost⟩ := h
  obtain ⟨rfl, rfl⟩ := Prod.mk.inj hpost.symm
  exact ⟨rfl, Members.with_lock⟩

/-- **`afterUnlock` is how a call goes on.** -/
theorem unlocked_of_afterUnlock (hk : th.pc.unlocks = some k)
    (h : afterUnlock th st = some (l, th')) : Unlocked th k st l th' := by
  unfold afterUnlock at h
  cases hpc : th.pc with
  | acquireUnlockFailed s =>
    rw [hpc] at h hk
    cases h
    cases hk
    exact .acquireUnlockFailed s hpc
  | setUnlockFailed v error =>
    rw [hpc] at h hk
    cases h
    cases hk
    exact .setUnlockFailed v error hpc
  | getUnlockFailed error =>
    rw [hpc] at h hk
    cases h
    cases hk
    exact .getUnlockFailed error hpc
  | acquireUnlock s reusable =>
    rw [hpc] at h hk
    cases hk
    dsimp only at h
    split at h
    · cases h
      exact .acquireUnlock s reusable hpc ‹_›
    · cases h
      exact .acquireLeaked s reusable hpc (Bool.eq_false_iff.mpr ‹_›)
  | setUnlock v posted =>
    rw [hpc] at h hk
    cases hk
    dsimp only at h
    split at h
    · split at h
      · cases h
        exact .setUnlock v posted hpc ‹_› ‹_›
      · cases h
        exact .setUnlockDetach v posted hpc ‹_› (Bool.eq_false_iff.mpr ‹_›)
    · cases h
      exact .setNotUnlocked v posted hpc (Bool.eq_false_iff.mpr ‹_›)
  | getUnlock v =>
    rw [hpc] at h hk
    cases hk
    dsimp only at h
    split at h
    · split at h
      · cases h
        exact .getUnlock v hpc ‹_› ‹_›
      · cases h
        exact .getUnlockDetach v hpc ‹_› (Bool.eq_false_iff.mpr ‹_›)
    · cases h
      exact .getNotUnlocked v hpc (Bool.eq_false_iff.mpr ‹_›)
  | cancelUnlock =>
    rw [hpc] at h hk
    cases hk
    dsimp only at h
    split at h
    · cases h
      exact .cancelUnlock hpc ‹_›
    · cases h
      exact .cancelNotUnlocked hpc (Bool.eq_false_iff.mpr ‹_›)
  | resetUnlock held result =>
    rw [hpc] at h hk
    cases held with
    | nil => cases hk
    | cons j held =>
      cases hk
      cases held with
      | nil =>
        dsimp only at h
        split at h
        · cases h
          exact .resetReturn k result hpc ‹_›
        · cases h
      | cons j held =>
        dsimp only at h
        split at h
        · cases h
          exact .resetUnlock k j held result hpc ‹_›
        · cases h
  | _ =>
    rw [hpc] at hk
    cases hk

/-- **A call that is one step** does what the model of the context says, or it ends the
process. -/
theorem Call.fine {x : Caller α} {k : Call α} (hchecked : x.checked = k.checked)
    (hat : k.At x.thread) (h : FutexCode.spec k.op (f k.futex) v r) :
    k.label r = .aborted ∨ ∃ l, k.label r = .step l ∧
      FineAtom movedFrom (m.with f) x l (m.with (Function.update f k.futex v))
        (k.resume r x) := by
  obtain ⟨th, checked⟩ := x
  obtain rfl : checked = k.checked := hchecked
  -- a step of the context in which nothing is unlocked
  have hother : ∀ {pc : Pc α} {l : Label α} {c' : Context α} {th' : Thread α}, th.pc = pc →
      pc.unlocks = none → Atom movedFrom (m.with f) th l c' th' →
        ∃ l', CodeLabel.step (some l) = .step l' ∧
          FineAtom movedFrom (m.with f) ⟨th, none⟩ l' c' ⟨th', none⟩ :=
    fun h hpc hatom => ⟨_, rfl, .other (h ▸ hpc) hatom⟩
  -- a `TryLock` at the beginning of a call
  have htryLock : ∀ {j : Lock} {l₁ l₂ : Label α} {pc : Pc α},
      FutexCode.spec .tryWait (f (.lock j)) v r → th.pc = .idle →
        ((m.with f).canLock j = true →
          Atom movedFrom (m.with f) th l₁ ((m.with f).lock j) (th.goto pc)) →
        ((m.with f).canLock j = false → Atom movedFrom (m.with f) th l₂ (m.with f) th) →
        ∃ l, CodeLabel.step (some (if LockableFutex.taken r then l₁ else l₂)) = .step l ∧
          FineAtom movedFrom (m.with f) ⟨th, none⟩ l (m.with (Function.update f (.lock j) v))
            ⟨if LockableFutex.taken r then th.goto pc else th, none⟩ := by
    intro j l₁ l₂ pc h hpc hfree hbusy
    obtain ⟨htaken, hcan, hwith⟩ | ⟨htaken, hcan, hwith⟩ := tryLock_of_spec (m := m) h
    · rw [htaken, hwith]
      exact hother hpc rfl (hfree hcan)
    · rw [htaken, hwith]
      exact hother hpc rfl (hbusy hcan)
  have hpost : ∀ {b : BinaryFutex}, FutexCode.spec .post b v r →
      v = b.post.1 ∧ r = .result (.status b.post.2) := by
    rintro b ⟨st, rfl, hb⟩
    rw [hb]
    exact ⟨rfl, rfl⟩
  have htryWait : ∀ {b : BinaryFutex}, FutexCode.spec .tryWait b v r →
      v = b.tryWait.1 ∧ r = .result (.token b.tryWait.2) := by
    rintro b ⟨token, rfl, hb⟩
    rw [hb]
    exact ⟨rfl, rfl⟩
  cases k with
  | acquire s reusable =>
    exact .inr (htryLock h hat (.acquireLock s reusable hat) (.acquireBusy s hat))
  | set w => exact .inr (htryLock h hat.1 (.setLock w hat.1 hat.2) (.setBusy w hat.1 hat.2))
  | get => exact .inr (htryLock h hat.1 (.getLock hat.1 hat.2) (.getBusy hat.1 hat.2))
  | cancel => exact .inr (htryLock h hat (.cancelLock hat) (.cancelBusy hat))
  | lock k =>
    cases hst : r.status.isOk with
    | false =>
      simp only [Call.label, hst]
      exact .inl rfl
    | true =>
      obtain ⟨hcan, hwith⟩ := lock_of_spec (m := m) h hst
      simp only [Call.label, Call.resume, Call.next, Call.futex, hst, hwith]
      rcases hat with ⟨hpc, hne⟩ | ⟨hpc, rfl⟩
      · rw [if_neg hne]
        exact .inr (hother hpc rfl (.resetLock k hpc hcan))
      · exact .inr (hother hpc rfl (.resetStart hpc hcan))
  | isHeld k =>
    obtain ⟨rfl, hheld⟩ := loaded_of_spec (m := m) h
    refine .inr ⟨none, rfl, ?_⟩
    simp only [Call.resume, Call.next, Call.futex, Function.update_eq_self, hheld]
    exact .isHeld k hat
  | unlock k th₀ =>
    obtain ⟨rfl, hk⟩ : th = th₀ ∧ _ := hat
    obtain ⟨hst, hwith⟩ := postLock_of_spec (m := m) h
    cases hafter : afterUnlock th r.status with
    | none =>
      refine .inl ?_
      rw [Call.label, hafter]
      rfl
    | some y =>
      obtain ⟨l, th'⟩ := y
      have hunlocked := unlocked_of_afterUnlock hk hafter
      rw [hst] at hunlocked
      simp only [Call.label, Call.resume, Call.next, Call.futex, hafter, hwith]
      exact .inr ⟨_, rfl, .post k hunlocked⟩
  | detachPost s k =>
    obtain ⟨rfl, rfl⟩ := hpost h
    rw [Call.futex, Members.with_detached]
    exact .inr (hother hat rfl (.detachPost s k hat))
  | setPost w =>
    obtain ⟨rfl, rfl⟩ := hpost h
    exact .inr (hother hat rfl (.setPost w hat))
  | cancelPost =>
    obtain ⟨rfl, rfl⟩ := hpost h
    exact .inr (hother hat rfl (.cancelPost hat))
  | destroyPost =>
    obtain ⟨rfl, rfl⟩ := hpost h
    exact .inr (hother hat rfl (.destroyPost hat))
  | getTryWait w =>
    obtain ⟨rfl, rfl⟩ := htryWait h
    exact .inr (hother hat rfl (.getTryWait w hat))
  | resetHasValue =>
    obtain ⟨rfl, rfl⟩ := htryWait h
    exact .inr (hother hat rfl (.resetHasValue hat))
  | resetDetached s =>
    obtain ⟨rfl, rfl⟩ := htryWait h
    rw [Call.futex, Members.with_detached]
    exact .inr (hother hat rfl (.resetDetached s hat))
  | waitFutex =>
    obtain ⟨st, rfl, hwait⟩ := h
    rw [Call.futex, Members.with_hasValue]
    cases hst : st.isOk <;>
      simp only [Call.label, Call.resume, Call.next, FutexCode.Outcome.status, hst]
    · exact .inr (hother hat rfl (.waitFailed v st hat hwait hst))
    · exact .inr (hother hat rfl (.waitFutex v st hat hwait hst))
  | resetWait s =>
    obtain ⟨st, rfl, hwait⟩ := h
    rw [Call.futex, Members.with_detached]
    cases hst : st.isOk <;>
      simp only [Call.label, Call.resume, Call.next, FutexCode.Outcome.status, hst]
    · exact .inr (hother hat rfl (.resetTimeout s v st hat hwait hst))
    · exact .inr (hother hat rfl (.resetWait s v st hat hwait hst))
  | destroyWait s =>
    obtain ⟨st, rfl, hwait⟩ := h
    rw [Call.futex, Members.with_detached]
    cases hst : st.isOk <;>
      simp only [Call.label, Call.resume, Call.next, FutexCode.Outcome.status, hst]
    · exact .inr (hother hat rfl (.destroyFatal s v st hat hwait hst))
    · exact .inr (hother hat rfl (.destroyWait s v st hat hwait hst))

end OneStep

/-! ## The context over the code refines the one over one-step futexes -/

/-- A context over the code of its futexes, and its threads. -/
abbrev CodeConfig (Tid α : Type) :=
  CodePool Tid (Members α) (Caller α) Futex (Call α) (FutexCode.Shared Tid) FutexCode.Pc

/-- The steps of the calls on a context and of its futexes. -/
abbrev CodeEvent (α : Type) := AtomicObjects.Event (CodeLabel α) (Call α) FutexCode.Access

section Code
variable {Tid α : Type} [DecidableEq Tid]

/-- A new context, with its futexes as they are constructed.  It belongs to its creator, or to a
handle in a variable of a thread or in memory. -/
def codeInitial (slot : Nat → α) (o : Owner (Tid ⊕ Nat)) : CodeConfig Tid α where
  shared := (⟨(initial slot o).shared.buffer, (initial slot o).shared.attached, false,
      fun n => ((initial slot o).locals (.inr n)).handle⟩,
    fun
      | .lock _ => ⟨FutexCode.word (.make true), []⟩
      | _ => ⟨FutexCode.word (.make false), []⟩)
  locals t := ⟨⟨(initial slot o).locals (.inl t), none⟩, none⟩

/-- The thread over one-step futexes. -/
def place (movedFrom : α → α) (Tid : Type) [DecidableEq Tid]
    (f : Frame (Caller α) (Call α) FutexCode.Pc) : Caller α :=
  (FutexCode.linearization Tid).place (program movedFrom) f

/-- **The context over one-step futexes**, of which the places in memory are threads too. -/
def view (movedFrom : α → α) (c : CodeConfig Tid α) : Config (Tid ⊕ Nat) α :=
  ⟨c.shared.1.with fun o => FutexCode.futexOf (c.shared.2 o).val,
    Sum.elim (fun t => (place movedFrom Tid (c.locals t)).thread)
      fun n => ⟨c.shared.1.boxes n, .idle⟩⟩

/-- What is promised about the steps, calls of a futex counting when they are decided: no
`INTR_CHECK` fails, and what `ok` says of the context over one-step futexes. -/
def Promises (movedFrom : α → α) (ok : Config (Tid ⊕ Nat) α → Tid ⊕ Nat → Label α → Prop)
    (c : CodeConfig Tid α) (t : Tid) (x : CodeEvent α) : Prop :=
  ∀ l, (FutexCode.linearization Tid).shows (program movedFrom) x = some l →
    l ≠ .aborted ∧ ∀ l', l = .step (some l') → ok (view movedFrom c) (.inl t) l'

/-- The context is used tidily. -/
abbrev Promised (movedFrom : α → α) : CodeConfig Tid α → Tid → CodeEvent α → Prop :=
  Promises movedFrom Tidy

/-- **One step of a call on the context or of a futex.** -/
abbrev CodeStep (movedFrom : α → α) : CodeConfig Tid α → Tid × CodeEvent α → CodeConfig Tid α →
    Prop :=
  (program movedFrom).Step (FutexCode.implementation Tid) (Promised movedFrom)

/-- What is seen of a step over one-step futexes. -/
def CodeLabel.seen (t : Tid) : CodeLabel α → Option ((Tid ⊕ Nat) × Label α)
  | .step l => l.map fun l => (.inl t, l)
  | .give _ s => some (.inl t, .moved s)
  | .take n s => some (.inr n, .moved s)
  | .aborted => none

def shown (movedFrom : α → α) (x : Tid × CodeEvent α) : Option ((Tid ⊕ Nat) × Label α) :=
  ((FutexCode.linearization Tid).shown (program movedFrom) x).bind fun y => y.2.seen y.1

end Code

section Refines
variable {Tid α : Type} {movedFrom : α → α} {slot : Nat → α} {o : Owner (Tid ⊕ Nat)}

/-- The context over one-step futexes, its members apart. -/
abbrev Apart (Tid α : Type) := Pool Tid (Members α × (Futex → BinaryFutex)) (Caller α)

/-- The members put together, and the places in memory among the threads. -/
def joined (d : Apart Tid α) : Callers (Tid ⊕ Nat) α :=
  ⟨d.shared.1.with d.shared.2,
    Sum.elim d.locals fun n => ⟨⟨d.shared.1.boxes n, .idle⟩, none⟩⟩

/-- What is promised, over one-step futexes. -/
def Kept (ok : Config (Tid ⊕ Nat) α → Tid ⊕ Nat → Label α → Prop) (d : Apart Tid α) (t : Tid)
    (l : CodeLabel α) : Prop :=
  l ≠ .aborted ∧ ∀ l', l = .step (some l') → ok (coarse (joined d)) (.inl t) l'

/-- Handles may change hands at any time. -/
def LetsMove (ok : Config (Tid ⊕ Nat) α → Tid ⊕ Nat → Label α → Prop) : Prop :=
  ∀ c t s, (c.locals t).pc = .idle → ok c t (.moved s)

variable [DecidableEq Tid] {ok : Config (Tid ⊕ Nat) α → Tid ⊕ Nat → Label α → Prop}

theorem moveHandle_comm (c : Config Tid α) {t u : Tid} (s : Side) (hne : t ≠ u) :
    moveHandle c t u s = moveHandle c u t s := by
  unfold moveHandle
  rw [Function.update_comm hne.symm]

/-- The handle of a thread and one that lies in memory are swapped. -/
theorem joined_swap {m : Members α} {f : Futex → BinaryFutex} {locals : Tid → Caller α} {t : Tid}
    {th : Thread α} (n : Nat) (s : Side) (ht : locals t = ⟨th, none⟩) :
    joined ⟨(m.put n s (th.handle s), f),
        Function.update locals t ⟨th.setHandle s (m.boxes n s), none⟩⟩ =
      ⟨m.with f, fun y =>
        ⟨(moveHandle (coarse (joined ⟨(m, f), locals⟩)) (.inl t) (.inr n) s).locals y,
          ((joined ⟨(m, f), locals⟩).locals y).checked⟩⟩ := by
  have hthread : (coarse (joined ⟨(m, f), locals⟩)).locals (.inl t) = th :=
    congrArg Caller.thread ht
  refine congrArg (Pool.mk _) (funext fun y => ?_)
  simp only [moveHandle, hthread]
  cases y with
  | inl u =>
    by_cases hu : u = t
    · subst hu
      simp only [joined, Sum.elim_inl, Function.update_self, ht]
      rfl
    · rw [Function.update_of_ne fun h => hu (Sum.inl.inj h), Function.update_of_ne Sum.inl_ne_inr]
      simp only [joined, Sum.elim_inl, Function.update_of_ne hu]
      rfl
  | inr k =>
    rw [Function.update_of_ne Sum.inr_ne_inl]
    by_cases hk : k = n
    · subst hk
      simp only [joined, Members.put, Sum.elim_inr, Function.update_self]
      rfl
    · rw [Function.update_of_ne fun h => hk (Sum.inr.inj h)]
      simp only [joined, Members.put, Sum.elim_inr, Function.update_of_ne hk]
      rfl

/-- A step of a thread that leaves what lies in memory alone. -/
theorem joined_update {d : Apart Tid α} {t : Tid} {y : Members α × (Futex → BinaryFutex)}
    {x : Caller α} (hboxes : y.1.boxes = d.shared.1.boxes) :
    joined ⟨y, Function.update d.locals t x⟩ =
      ⟨y.1.with y.2, Function.update (joined d).locals (.inl t) x⟩ := by
  unfold joined
  rw [Sum.update_elim_inl, hboxes]

omit [DecidableEq Tid] in
theorem letsMove_attachesCleanly : LetsMove (@AttachesCleanly (Tid ⊕ Nat) α) :=
  fun _ _ _ hpc _ _ hcas => by cases hpc.symm.trans hcas

omit [DecidableEq Tid] in
theorem letsMove_tidy : LetsMove (@Tidy (Tid ⊕ Nat) α) :=
  fun c t s hpc => ⟨letsMove_attachesCleanly c t s hpc, nofun, nofun⟩

/-- **One step** of the program over one-step futexes. -/
theorem joined_atom {d : Apart Tid α} {t : Tid} {l : CodeLabel α}
    {y : Members α × (Futex → BinaryFutex)} {before x : Caller α} (hbefore : d.locals t = before)
    (hmove : LetsMove ok) (hkept : Kept ok d t l)
    (h : (program movedFrom).Atom FutexCode.spec d.shared before l y x) :
    ∃ u l', FineStep movedFrom (joined d) (u, l') (joined ⟨y, Function.update d.locals t x⟩) ∧
      l.seen t = l'.map (fun l => (u, l)) ∧
        ∀ l'', l' = some l'' → ok (coarse (joined d)) u l'' := by
  obtain ⟨sh, locals⟩ := d
  cases h with
  | @own m m' f _ _ _ hown =>
    have hpc : ∀ {pc : Pc α}, before.thread.pc = pc →
        ((joined ⟨(m, f), locals⟩).locals (.inl t)).thread.pc = pc :=
      fun h => (congrArg (fun x : Caller α => x.thread.pc) hbefore).trans h
    cases hown with
    | @step _ _ _ l _ hboxes hfine =>
      refine ⟨.inl t, l, ?_, rfl, fun l'' hl => hkept.2 l'' (hl ▸ rfl)⟩
      rw [joined_update hboxes]
      refine .atom (.mk trivial ?_)
      rw [show (joined ⟨(m, f), locals⟩).locals (.inl t) = before from hbefore]
      exact hfine f
    | @give th n s hidle hempty =>
      refine ⟨.inl t, some (.moved s), ?_, rfl, ?_⟩
      · rw [joined_swap n s hbefore]
        exact .move (t := Sum.inl t) (Sum.inr n) s Sum.inr_ne_inl (hpc hidle) rfl hempty
      · rintro _ ⟨⟩
        exact hmove _ _ s (hpc hidle)
    | @take th n s hidle hempty =>
      refine ⟨.inr n, some (.moved s), ?_, rfl, ?_⟩
      · rw [joined_swap n s hbefore, moveHandle_comm _ _ Sum.inl_ne_inr]
        refine .move (t := Sum.inr n) (Sum.inl t) s Sum.inl_ne_inr rfl (hpc hidle) ?_
        rw [show (joined ⟨(m, f), locals⟩).locals (.inl t) = _ from hbefore]
        exact hempty
      · rintro _ ⟨⟩
        exact hmove _ _ s rfl
  | @call m f _ k v r hk hspec =>
    obtain habort | ⟨l, hl, hfine⟩ := @Call.fine _ movedFrom m _ _ _ _ _ hk.1 hk.2 hspec
    · exact absurd habort hkept.1
    · refine ⟨.inl t, l, ?_, ?_, fun l'' hl'' => hkept.2 l'' (hl.trans (congrArg _ hl''))⟩
      · rw [joined_update (d := ⟨(m, f), locals⟩) (y := (m, Function.update f _ v)) rfl]
        refine .atom (.mk trivial ?_)
        rw [show (joined ⟨(m, f), locals⟩).locals (.inl t) = before from hbefore]
        exact hfine
      · rw [show (program movedFrom).label k r = .step l from hl]
        rfl

theorem Step.strengthen {ok : Config Tid α → Tid → Label α → Prop} {c d : Config Tid α} {t : Tid}
    {l : Label α} (h : Step movedFrom Pool.free c (t, l) d) (hok : ok c t l) :
    Step movedFrom ok c (t, l) d := by
  cases h with
  | atom hp =>
    cases hp with
    | mk _ hatom => exact .atom (.mk hok hatom)
  | move u s _ hne ht hu hhere => exact .move u s hok hne ht hu hhere

/-- A new context over one-step futexes, its members apart. -/
def apart (slot : Nat → α) (o : Owner (Tid ⊕ Nat)) : Apart Tid α where
  shared := ((codeInitial slot o).shared.1, fun
    | .lock _ => .make true
    | _ => .make false)
  locals t := ⟨(initial slot o).locals (.inl t), none⟩

theorem joined_apart : joined (apart slot o) = (Traced.initial slot o).pool := by
  have hlocals : (joined (apart slot o)).locals = (Traced.initial slot o).pool.locals := by
    funext y
    cases y with
    | inl t => rfl
    | inr n =>
      have hpc := initial_pc slot o (.inr n)
      show (⟨⟨((initial slot o).locals (.inr n)).handle, .idle⟩, none⟩ : Caller α) = _
      rw [← hpc]
      rfl
  have hshared : (joined (apart slot o)).shared = (Traced.initial slot o).pool.shared := by
    cases o <;> rfl
  exact congrArg₂ Pool.mk hshared hlocals

theorem joined_run {d : Apart Tid α} {v : List (Tid × CodeLabel α)} (hmove : LetsMove ok)
    (h : Run (Pool.Step ((program movedFrom).Atom FutexCode.spec) (Kept ok)) (apart slot o) v d) :
    Run (Step movedFrom ok) (initial slot o) (v.filterMap fun x => x.2.seen x.1)
      (coarse (joined d)) := by
  have hsim : ∃ a, (FineInv (joined d) ∧ a = coarse (joined d)) ∧
      Run (Step movedFrom ok) (initial slot o) (v.filterMap fun x => x.2.seen x.1) a := by
    refine h.simulate (R := fun d a => FineInv (joined d) ∧ a = coarse (joined d)) ?_ ?_
    · rw [joined_apart]
      exact ⟨fineInv_initial slot o, rfl⟩
    · rintro d _ ⟨t, l⟩ d' ⟨hinv, rfl⟩ hs
      cases hs with
      | mk hkept hatom =>
        obtain ⟨u, l', hfine, hseen, hok⟩ := joined_atom rfl hmove hkept hatom
        refine ⟨_, ⟨hinv.step hfine, rfl⟩, ?_⟩
        obtain ⟨l'', rfl, hcoarse⟩ | ⟨rfl, hsame⟩ := hfine.coarse hinv
        · exact .inr ⟨(u, l''), hseen, hcoarse.strengthen (hok l'' rfl)⟩
        · exact .inl ⟨hseen, hsame⟩
  obtain ⟨_, ⟨-, rfl⟩, hrun⟩ := hsim
  exact hrun

/-- What a context over one-step futexes looks like is seen in the one over their code. -/
theorem view_eq {c : CodeConfig Tid α} {d : Apart Tid α}
    (h : (FutexCode.linearization Tid).Related (program movedFrom) c d) :
    view movedFrom c = coarse (joined d) := by
  have hfutexes : (fun o => FutexCode.futexOf (c.shared.2 o).val) = d.shared.2 := by
    funext o
    rw [show (c.shared.2 o).val = FutexCode.word (d.shared.2 o) from h.value o,
      FutexCode.futexOf_word]
  have hlocals : (view movedFrom c).locals = (coarse (joined d)).locals := by
    funext y
    cases y with
    | inl t => exact (congrArg Caller.thread (h.locals t)).symm
    | inr n =>
      show (⟨c.shared.1.boxes n, .idle⟩ : Thread α) = ⟨d.shared.1.boxes n, .idle⟩
      rw [h.own]
  refine congrArg₂ Pool.mk ?_ hlocals
  rw [hfutexes, ← h.own]
  rfl

theorem related_initial : (FutexCode.linearization Tid).Related (program movedFrom)
    (codeInitial slot o) (apart slot o) where
  own := rfl
  value
    | .lock _ => rfl
    | .hasValue => rfl
    | .detached _ => rfl
  locals _ := rfl
  sound _ _ _ h := by cases h

/-- **The context over the code of its futexes refines the one over one-step futexes**, whatever
is promised about it. -/
theorem code_refines {ok' : CodeConfig Tid α → Tid → CodeEvent α → Prop}
    {w : List (Tid × CodeEvent α)} {c : CodeConfig Tid α} (hmove : LetsMove ok)
    (hok : ∀ c t x, ok' c t x → Promises movedFrom ok c t x)
    (h : Run ((program movedFrom).Step (FutexCode.implementation Tid) ok') (codeInitial slot o)
      w c) :
    Run (Step movedFrom ok) (initial slot o) (w.filterMap (shown movedFrom)) (view movedFrom c) ∧
      ∀ t, (c.locals t).Sound (program movedFrom) := by
  have hcode : ∃ d, (FutexCode.linearization Tid).Related (program movedFrom) c d ∧
      Run (Pool.Step ((program movedFrom).Atom FutexCode.spec) (Kept ok)) (apart slot o)
        (w.filterMap ((FutexCode.linearization Tid).shown (program movedFrom))) d :=
    (FutexCode.linearization Tid).refines
      (fun _ _ _ _ l _ _ hrel hpromise _ hshows => by
        have hkept := hok _ _ _ hpromise l hshows
        rwa [view_eq hrel] at hkept) related_initial h
  obtain ⟨d, hrel, hrun⟩ := hcode
  refine ⟨?_, hrel.sound⟩
  have hjoined := joined_run hmove hrun
  rw [List.filterMap_filterMap] at hjoined
  rw [view_eq hrel]
  exact hjoined

/-- A context that is used tidily over the code of its futexes is one over one-step futexes. -/
theorem tidy_refines {w : List (Tid × CodeEvent α)} {c : CodeConfig Tid α}
    (h : Run (CodeStep movedFrom) (codeInitial slot o) w c) :
    Run (Step movedFrom Tidy) (initial slot o) (w.filterMap (shown movedFrom))
        (view movedFrom c) ∧
      ∀ t, (c.locals t).Sound (program movedFrom) :=
  code_refines letsMove_tidy (fun _ _ _ hok => hok) h

end Refines

/-! ## Nobody oversleeps -/

section Sleepers
variable {Tid α : Type} [DecidableEq Tid] {movedFrom : α → α} {slot : Nat → α}
  {o : Owner (Tid ⊕ Nat)} {w : List (Tid × CodeEvent α)} {c : CodeConfig Tid α} {t : Tid}

/-- The thread is between two calls on the context, or it sleeps in one. -/
def Rests (movedFrom : α → α) (c : CodeConfig Tid α) (t : Tid) : Prop :=
  FutexCode.AtRest (program movedFrom) c t ∧ ((c.locals t).inside = none →
    (c.locals t).here.thread.pc = .idle ∨ (c.locals t).here.thread.pc = .destroyed)

/-- Where a thread can rest. -/
def Pc.rests : Pc α → Bool
  | .idle | .waitFutex | .resetLock _ | .resetWait _ | .destroyWait _ | .destroyed => true
  | _ => false

theorem Pc.rests_quiet {pc : Pc α} (h : pc.rests = true) :
    pc.rouses = false ∧ (∀ s k, pc ≠ .detachPost s k) ∧ ∀ s, pc.acquired s = false := by
  cases pc with
  | idle | waitFutex | resetLock | resetWait | destroyWait | destroyed =>
    exact ⟨rfl, nofun, fun _ => rfl⟩
  | _ => cases h

/-- Whoever waits is where a thread can rest. -/
theorem Call.rests_of_wait {k : Call α} {th : Thread α} (hop : k.op = .wait) (hat : k.At th) :
    th.pc.rests = true := by
  cases k with
  | lock k =>
    rcases hat with ⟨hpc, -⟩ | ⟨hpc, -⟩
    · rw [hpc]
      rfl
    · rw [hpc]
      rfl
  | waitFutex | resetWait | destroyWait =>
    have hpc : th.pc = _ := hat
    rw [hpc]
    rfl
  | _ => cases hop

/-- The attached handle of a side lies somewhere, with a thread or in memory. -/
def Occupied (movedFrom : α → α) (c : CodeConfig Tid α) (s : Side) : Prop :=
  c.shared.1.attached s = true ∧ ∃ y, (((view movedFrom c).locals y).handle s).here = true

/-- What is known of a run that has come to rest. -/
structure Resting (movedFrom : α → α) (c : CodeConfig Tid α) : Prop where
  place : ∀ t, ((view movedFrom c).locals (.inl t)).pc = .idle ∨
    ((view movedFrom c).locals (.inl t)).pc = .destroyed ∨
    ∃ k : Call α, k.op = .wait ∧ k.At ((view movedFrom c).locals (.inl t)) ∧
      FutexCode.Asleep c k.futex t
  asleep : ∀ f t, FutexCode.Asleep c f t → ∃ k : Call α, k.futex = f ∧ k.op = .wait ∧
    k.At ((view movedFrom c).locals (.inl t)) ∧ (c.locals t).inside = some (k, .inKernel)
  /-- Nobody sleeps on a futex with a token. -/
  posted : ∀ f, FutexCode.futexOf (c.shared.2 f).val = .posted → ∀ t, ¬ FutexCode.Asleep c f t

theorem resting_run (h : Run (CodeStep movedFrom) (codeInitial slot o) w c)
    (hrest : ∀ t, Rests movedFrom c t) : Resting movedFrom c := by
  have hsound := (tidy_refines h).2
  have hwithin := FutexCode.within_run (fun _ => rfl) h
  have hplace : ∀ t, (view movedFrom c).locals (.inl t) = (c.locals t).here.thread :=
    fun t => congrArg Caller.thread (hrest t).1.place
  have hinitial : ∀ f, ∃ posted, alone (program movedFrom) (FutexCode.implementation Tid) f
      (codeInitial slot o) = FutexCode.initial Tid posted := by
    rintro (k | _ | s)
    · exact ⟨true, rfl⟩
    · exact ⟨false, rfl⟩
    · exact ⟨false, rfl⟩
  refine ⟨fun t => ?_, fun f t ht => ?_, fun f hposted => ?_⟩
  · rw [hplace t]
    obtain ⟨hnone | ⟨k, hk, hasleep⟩, hidle⟩ := hrest t
    · exact (hidle hnone).imp id .inl
    · exact .inr (.inr ⟨k, hwithin t k _ hk, (hsound t k _ hk).2, hasleep⟩)
  · obtain ⟨posted, h₀⟩ := hinitial f
    obtain ⟨k, hk, hfutex⟩ := FutexCode.inside_of_asleep h₀ h ht
    rw [hplace t]
    exact ⟨k, hfutex, hwithin t k _ hk, (hsound t k _ hk).2, hk⟩
  · obtain ⟨posted, h₀⟩ := hinitial f
    refine FutexCode.nobody_sleeps h₀ h (fun t => (hrest t).1) fun hready => ?_
    rw [hready] at hposted
    cases hposted

namespace Resting
variable (h : Resting movedFrom c) {q : List α} {s : Side}
include h

theorem rests (y : Tid ⊕ Nat) : ((view movedFrom c).locals y).pc.rests = true := by
  cases y with
  | inl t =>
    obtain hpc | hpc | ⟨k, hop, hat, -⟩ := h.place t
    · rw [hpc]
      rfl
    · rw [hpc]
      rfl
    · exact Call.rests_of_wait hop hat
  | inr n => rfl

/-- At rest nobody is about to post `has_value_`. -/
theorem posted_of_roused (hr : Roused (view movedFrom c)) :
    ∀ t, ¬ FutexCode.Asleep c .hasValue t := by
  obtain hposted | ⟨y, hy⟩ := hr
  · exact h.posted .hasValue hposted
  · cases (Pc.rests_quiet (h.rests y)).1.symm.trans hy

theorem posted_of_withdrawn (hw : Withdrawn (view movedFrom c) s) :
    ∀ t, ¬ FutexCode.Asleep c (.detached s) t := by
  obtain hposted | ⟨y, k, hy⟩ := hw
  · exact h.posted (.detached s) hposted
  · exact absurd hy ((Pc.rests_quiet (h.rests y)).2.1 s k)

/-- A future sleeps only while there is no value and no cancellation. -/
theorem future (hawake : Awake movedFrom (view movedFrom c) q)
    (ht : FutexCode.Asleep c .hasValue t) : q = [] ∧ c.shared.1.isCancelled = false := by
  have hpc : ((view movedFrom c).locals (.inl t)).pc = .waitFutex := by
    obtain ⟨k, hfutex, hop, hat, -⟩ := h.asleep _ t ht
    cases k with
    | waitFutex => exact hat
    | lock | resetWait | destroyWait => cases hfutex
    | _ => cases hop
  constructor
  · by_contra hq
    exact h.posted_of_roused (hawake.alert.value hq _ hpc) t ht
  · by_contra hcancel
    have hwaits : ((view movedFrom c).locals (.inl t)).pc.waits = true := by
      rw [hpc]
      rfl
    exact h.posted_of_roused
      (hawake.alert.cancelled (Bool.not_eq_false _ ▸ hcancel) _ hwaits) t ht

/-- `Reset` and the destructor sleep only while there is a handle to wait for. -/
theorem occupied (hawake : Awake movedFrom (view movedFrom c) q)
    (ht : FutexCode.Asleep c (.detached s) t) : Occupied movedFrom c s := by
  have hawaits : ((view movedFrom c).locals (.inl t)).pc.awaits s = true := by
    obtain ⟨k, hfutex, hop, hat, -⟩ := h.asleep _ t ht
    cases k with
    | resetWait r | destroyWait r =>
      obtain rfl := Futex.detached.inj hfutex
      rw [show ((view movedFrom c).locals (.inl t)).pc = _ from hat]
      exact decide_eq_true rfl
    | lock | waitFutex => cases hfutex
    | _ => cases hop
  have hattached : c.shared.1.attached s = true :=
    (hawake.alert.detached s _ hawaits).resolve_right fun hw => h.posted_of_withdrawn hw t ht
  refine ⟨hattached, ?_⟩
  obtain ⟨y, hacquired | ⟨hhere, -⟩⟩ := (hawake.call.inv.attach.owned s).held
    (Bool.not_eq_false _ ▸ hattached : ¬ (view movedFrom c).shared.attached s = false)
  · cases ((Pc.rests_quiet (h.rests y)).2.2 s).symm.trans hacquired
  · exact ⟨y, hhere⟩

/-- **Whoever sleeps on a mutex waits for a `Reset` that sleeps on a detach futex.**  A `Reset`
that has the mutex sleeps there, or on a mutex further on in the order. -/
theorem reset (hlock : LockInv (view movedFrom c)) {k : Lock}
    (ht : FutexCode.Asleep c (.lock k) t) : ∃ s u, FutexCode.Asleep c (.detached s) u := by
  suffices ∀ n k t, k.rank + n = 6 → FutexCode.Asleep c (.lock k) t →
      ∃ s u, FutexCode.Asleep c (.detached s) u by
    have hrank : k.rank ≤ 6 := by cases k <;> decide
    exact this (6 - k.rank) k t (by omega) ht
  intro n
  induction n using Nat.strong_induction_on with
  | _ n ih =>
    intro k t hn ht
    have hheld : (view movedFrom c).shared.locks k ≠ .make :=
      fun hmake => h.posted (.lock k) (congrArg LockableBinaryFutex.futex hmake) t ht
    obtain ⟨y, hy⟩ := (hlock.owned k).held hheld
    cases y with
    | inr n => exact absurd hy List.not_mem_nil
    | inl u =>
      obtain hpc | hpc | ⟨j, hop, hat, hasleep⟩ := h.place u
      · rw [hpc] at hy
        exact absurd hy List.not_mem_nil
      · rw [hpc] at hy
        exact absurd hy List.not_mem_nil
      · cases j with
        | lock j =>
          have hrank := rank_of_mem hy
          rcases hat with ⟨hpc, -⟩ | ⟨hpc, rfl⟩
          · rw [hpc] at hrank
            have hlast : j.rank ≤ 6 := by cases j <;> decide
            have hlt : k.rank < j.rank := hrank
            exact ih (6 - j.rank) (by omega) j u (by omega) hasleep
          · rw [hpc] at hy
            exact absurd hy List.not_mem_nil
        | resetWait s => exact ⟨s, u, hasleep⟩
        | waitFutex | destroyWait =>
          rw [show ((view movedFrom c).locals (.inl u)).pc = _ from hat] at hy
          exact absurd hy List.not_mem_nil
        | _ => cases hop

end Resting

/-- **Whoever sleeps in a call on a context waits for its users.**  Whenever each thread is
between two calls or asleep in one, in any run in which handles are acquired cleanly and a
destructor runs alone: the values that were stored and removed went through a queue of one place;
a future sleeps only while that queue is empty and the context is not cancelled; a `Reset` or a
destructor sleeps only while there is an attached handle that nobody is detaching; and a `Reset`
that sleeps on a mutex waits for another one that sleeps because of such a handle. -/
theorem sleepers_wait_for_their_users (h : Run (CodeStep movedFrom) (codeInitial slot o) w c)
    (hrest : ∀ t, Rests movedFrom c t) :
    ∃ q, Run (BoundedFifo.Step 1) []
        ((w.filterMap (shown movedFrom)).filterMap fun x => x.2.event) q ∧
      (∀ t, FutexCode.Asleep c .hasValue t → q = [] ∧ c.shared.1.isCancelled = false) ∧
      (∀ s t, FutexCode.Asleep c (.detached s) t → Occupied movedFrom c s) ∧
      ∀ k t, FutexCode.Asleep c (.lock k) t →
        ∃ s u, u ≠ t ∧ FutexCode.Asleep c (.detached s) u ∧ Occupied movedFrom c s := by
  obtain ⟨q, hawake, hfifo⟩ := awake_run (tidy_refines h).1
  have hresting := resting_run h hrest
  refine ⟨q, hfifo, fun t ht => hresting.future hawake ht,
    fun s t ht => hresting.occupied hawake ht, fun k t ht => ?_⟩
  obtain ⟨s, u, hu⟩ := hresting.reset hawake.call.inv.lock ht
  refine ⟨s, u, ?_, hu, hresting.occupied hawake hu⟩
  rintro rfl
  -- a thread sleeps on one futex at a time
  obtain ⟨j, hj, -, -, hinside⟩ := hresting.asleep _ u ht
  obtain ⟨j', hj', -, -, hinside'⟩ := hresting.asleep _ u hu
  obtain ⟨rfl, -⟩ := Prod.mk.inj (Option.some.inj (hinside.symm.trans hinside'))
  cases hj.symm.trans hj'

end Sleepers

/-- Three threads that use a context. -/
inductive User
  | consumer | first | second
  deriving DecidableEq, Repr

/-- The consumer waits for a value, the first `Reset` for the consumer's future to be detached,
and the second one for a mutex. -/
def threeWait : List (User × CodeEvent Nat) :=
  [(.consumer, .own (.step (some .waitStarted))), (.consumer, .own (.step (some .internal))),
    (.consumer, .invoke .waitFutex), (.consumer, .object .waitFutex (.code .waitReady)),
    (.consumer, .object .waitFutex (.code .futexSleep)), (.first, .invoke (.lock .getFuture)),
    (.first, .object (.lock .getFuture) (.code .waitTaken)), (.first, .invoke (.lock .getPromise)),
    (.first, .object (.lock .getPromise) (.code .waitTaken)), (.first, .invoke (.lock .cancel)),
    (.first, .object (.lock .cancel) (.code .waitTaken)), (.first, .own (.step (some .internal))),
    (.first, .invoke (.resetWait .future)),
    (.first, .object (.resetWait .future) (.code .waitReady)),
    (.first, .object (.resetWait .future) (.code .futexSleep)),
    (.second, .invoke (.lock .getFuture)),
    (.second, .object (.lock .getFuture) (.code .waitReady)),
    (.second, .object (.lock .getFuture) (.code .futexSleep))]

theorem threeWait_run : ∃ c : CodeConfig User Nat,
    Run (CodeStep id) (codeInitial (fun _ => 0) (.handle .future (.inl .consumer))) threeWait c ∧
      (c.locals .consumer).inside = some (.waitFutex, .inKernel) ∧
      (c.locals .first).inside = some (.resetWait .future, .inKernel) ∧
      (c.locals .second).inside = some (.lock .getFuture, .inKernel) ∧
      (c.shared.2 .hasValue).queue = [.consumer] ∧
      (c.shared.2 (.detached .future)).queue = [.first] ∧
      (c.shared.2 (.lock .getFuture)).queue = [.second] := by
  have hquiet : ∀ {t : User} {c : CodeConfig User Nat} {x : CodeEvent Nat},
      (FutexCode.linearization User).shows (program id) x = none → Promised id c t x :=
    fun h l hl => by cases h.symm.trans hl
  have hshows : ∀ {t : User} {c : CodeConfig User Nat} {x : CodeEvent Nat} {l : Label Nat},
      (FutexCode.linearization User).shows (program id) x = some (.step (some l)) →
        (∀ s reusable, ((view id c).locals (.inl t)).pc ≠ .acquireCas s reusable) →
        l ≠ .destroyStarted →
        (l = .resetStarted → ∀ y, ((view id c).locals y).pc.destroying = false) →
        Promised id c t x := by
    intro t c x l h hcas hdestroy hreset l' hl'
    obtain rfl := Option.some.inj (h.symm.trans hl')
    refine ⟨nofun, ?_⟩
    rintro _ ⟨⟩
    exact ⟨fun s reusable hpc => absurd hpc (hcas s reusable), fun hl => absurd hl hdestroy,
      hreset⟩
  refine ⟨_,
    .cons (.mk (hshows rfl (by exact nofun) nofun nofun)
      (.own (.step rfl rfl fun _ => .other rfl (.waitStart rfl rfl rfl)))) <|
    .cons (.mk (hshows rfl (by exact nofun) nofun nofun)
      (.own (.step rfl rfl fun _ => .other rfl (.waitEmpty rfl rfl)))) <|
    .cons (.mk (hquiet rfl) (.invoke ⟨rfl, rfl⟩)) <|
    .cons (.mk (hquiet rfl) (.object rfl (.code (.waitReady trivial rfl)) (.inside nofun))) <|
    .cons (.mk (hquiet rfl) (.object rfl (.code (.futexSleep rfl)) (.inside nofun))) <|
    .cons (.mk (hquiet rfl) (.invoke ⟨rfl, .inr ⟨rfl, rfl⟩⟩)) <|
    .cons (.mk (hshows rfl (by exact nofun) nofun (by
        rintro - (t | n)
        · cases t <;> rfl
        · rfl))
      (.object rfl (.code (.waitTaken trivial rfl)) (.back rfl rfl))) <|
    .cons (.mk (hquiet rfl) (.invoke ⟨rfl, .inl ⟨rfl, nofun⟩⟩)) <|
    .cons (.mk (hshows rfl (by exact nofun) nofun nofun)
      (.object rfl (.code (.waitTaken trivial rfl)) (.back rfl rfl))) <|
    .cons (.mk (hquiet rfl) (.invoke ⟨rfl, .inl ⟨rfl, nofun⟩⟩)) <|
    .cons (.mk (hshows rfl (by exact nofun) nofun nofun)
      (.object rfl (.code (.waitTaken trivial rfl)) (.back rfl rfl))) <|
    .cons (.mk (hshows rfl (by exact nofun) nofun nofun)
      (.own (.step rfl rfl fun _ => .other rfl (.resetLoad .future rfl rfl)))) <|
    .cons (.mk (hquiet rfl) (.invoke ⟨rfl, rfl⟩)) <|
    .cons (.mk (hquiet rfl) (.object rfl (.code (.waitReady trivial rfl)) (.inside nofun))) <|
    .cons (.mk (hquiet rfl) (.object rfl (.code (.futexSleep rfl)) (.inside nofun))) <|
    .cons (.mk (hquiet rfl) (.invoke ⟨rfl, .inr ⟨rfl, rfl⟩⟩)) <|
    .cons (.mk (hquiet rfl) (.object rfl (.code (.waitReady trivial rfl)) (.inside nofun))) <|
    .single (.mk (hquiet rfl) (.object rfl (.code (.futexSleep rfl)) (.inside nofun))), ?_⟩
  exact ⟨rfl, rfl, rfl, rfl, rfl, rfl⟩

/-- All three sleep, there is no value, and both `Reset`s wait because of the future. -/
theorem sleepers_wait_for_their_users_three :
    ∃ c : CodeConfig User Nat,
      Run (CodeStep id) (codeInitial (fun _ => 0) (.handle .future (.inl .consumer))) threeWait c ∧
        (∀ t, Rests id c t) ∧ FutexCode.Asleep c .hasValue .consumer ∧
        FutexCode.Asleep c (.detached .future) .first ∧
        FutexCode.Asleep c (.lock .getFuture) .second ∧
        c.shared.1.isCancelled = false ∧ Occupied id c .future ∧
        ∃ s u, u ≠ .second ∧ FutexCode.Asleep c (.detached s) u := by
  obtain ⟨c, hrun, hin₀, hin₁, hin₂, hvalue, hdetached, hlock⟩ := threeWait_run
  have hsleep₀ : FutexCode.Asleep c .hasValue .consumer := by
    unfold FutexCode.Asleep
    rw [hvalue]
    exact List.mem_singleton_self _
  have hsleep₁ : FutexCode.Asleep c (.detached .future) .first := by
    unfold FutexCode.Asleep
    rw [hdetached]
    exact List.mem_singleton_self _
  have hsleep₂ : FutexCode.Asleep c (.lock .getFuture) .second := by
    unfold FutexCode.Asleep
    rw [hlock]
    exact List.mem_singleton_self _
  have hrests : ∀ {t : User} {k : Call Nat}, (c.locals t).inside = some (k, .inKernel) →
      FutexCode.Asleep c k.futex t → Rests id c t := by
    intro t k hin hasleep
    refine ⟨.inr ⟨k, hin, hasleep⟩, fun hnone => ?_⟩
    cases hnone.symm.trans hin
  have hrest : ∀ t, Rests id c t := by
    intro t
    cases t with
    | consumer => exact hrests hin₀ hsleep₀
    | first => exact hrests hin₁ hsleep₁
    | second => exact hrests hin₂ hsleep₂
  obtain ⟨q, -, hfuture, hoccupied, hreset⟩ := sleepers_wait_for_their_users hrun hrest
  obtain ⟨s, u, hne, hu, -⟩ := hreset .getFuture .second hsleep₂
  exact ⟨c, hrun, hrest, hsleep₀, hsleep₁, hsleep₂, (hfuture .consumer hsleep₀).2,
    hoccupied .future .first hsleep₁, s, u, hne, hu⟩

end Intrinsic.Promise
