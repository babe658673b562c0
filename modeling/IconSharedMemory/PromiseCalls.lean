import IconSharedMemory.Promise

/-! # Calls on a promise context

The calls on a `FuturePromiseContext` (`platform/common/buffers/rt_promise.h`) as functions, for
a program in which one call ends before the next one begins.  A failing `INTR_CHECK`, and a wait
that nobody ends, are no result at all.
-/
namespace Intrinsic.Promise
open Runs

/-! ## The calls -/

theorem moveFront_dropFront_size {α : Type} (movedFrom : α → α) {b : RtQueueBuffer α}
    (h : b.size ≠ 0) : (moveFront movedFrom b).2.dropFront.size < b.size := by
  have hempty : b.empty = false := beq_false_of_ne h
  have hsize : (moveFront movedFrom b).2.dropFront.size =
      (b.size + (sizeModulus - 1)) % sizeModulus := by
    simp [moveFront, RtQueueBuffer.front, hempty, RtQueueBuffer.dropFront,
      RtQueueBuffer.advanceTail, RtQueueBuffer.decreaseSize, RtQueueBuffer.write]
  rw [hsize, sizeModulus]
  omega

/-- `Reset` empties the queue. -/
def clearBuffer {α : Type} (movedFrom : α → α) (b : RtQueueBuffer α) : Option (RtQueueBuffer α) :=
  if h : b.size = 0 then some b
  else if b.frontAccessed then none
  else
    have := moveFront_dropFront_size movedFrom h
    clearBuffer movedFrom (moveFront movedFrom b).2.dropFront
termination_by b.size

namespace Context
variable {α : Type} (movedFrom : α → α) (c : Context α)

/-- `INTR_RETURN_STATUS_IF_ERROR` of an `Unlock`, and what the call returns after it. -/
def unlockThen {β : Type} (l : Lock) (result : Except RealtimeStatus β) :
    Context α × Except RealtimeStatus β :=
  (c.unlock l, if (c.unlockStatus l).isOk then result else .error (c.unlockStatus l))

/-- `GetPromise()` and `GetFuture()`, up to the handle that they return. -/
def getHandle (s : Side) : Context α × RealtimeStatus :=
  if c.canLock s.getLock then
    let locked := c.lock s.getLock
    if locked.attached s then (locked.unlock s.getLock, s.alreadyAttached)
    else
      let attached := locked.setAttached s true
      (attached.unlock s.getLock, attached.unlockStatus s.getLock)
  else (c, s.resetInProgress)

/-- `DetachPromise()` and `DetachFuture()` -/
def detach (s : Side) : Context α × RealtimeStatus :=
  let exchanged := c.setAttached s false
  if c.attached s then
    (exchanged.setDetached s (c.detached s).post.1, (c.detached s).post.2)
  else (exchanged, s.wasNotAttached)

/-- `RealtimePromise::Set`, up to the detachment that may follow a value that was stored. -/
def set (v : α) : Option (Context α × Except RealtimeStatus RealtimeStatus) :=
  if c.canLock .writeValue then
    let c := c.lock .writeValue
    if c.isCancelled then some (c.unlockThen .writeValue (.error Side.promise.wasCancelled))
    else if c.buffer.insertInProgress then none
    else
      match c.buffer.prepareInsert with
      | (none, _) => some (c.unlockThen .writeValue (.error valueAlreadySet))
      | (some slot, b) =>
        let c := { c with buffer := (b.write slot v).finishInsert }
        some ({ c with hasValue := c.hasValue.post.1 }.unlockThen .writeValue
          (.ok c.hasValue.post.2))
  else some (c, .error Side.promise.beingCancelled)

/-- `RealtimeFuture::Get`, up to the detachment that may follow a value that was removed. -/
def get : Option (Context α × Except RealtimeStatus α) :=
  if c.canLock .readValue then
    let c := c.lock .readValue
    if c.isCancelled then some (c.unlockThen .readValue (.error Side.future.wasCancelled))
    else
      match moveFront movedFrom c.buffer with
      | (none, _) => some (c.unlockThen .readValue (.error valueNotAvailable))
      | (some v, b) =>
        if c.buffer.frontAccessed then none
        else
          let c := { c with buffer := b.dropFront, hasValue := c.hasValue.tryWait.1 }
          some (c.unlockThen .readValue (.ok v))
  else some (c, .error Side.future.beingCancelled)

/-- `Cancel()` -/
def cancel : Context α × RealtimeStatus :=
  if c.canLock .cancel then
    let c := { c.lock .cancel with isCancelled := true }
    let unlocked := c.unlock .cancel
    if (c.unlockStatus .cancel).isOk then
      ({ unlocked with hasValue := c.hasValue.post.1 }, c.hasValue.post.2)
    else (unlocked, c.unlockStatus .cancel)
  else (c, cancelWhileReset)

/-- The constructors of `BinaryFutexLock`s, one after the other. -/
def lockAll : List Lock → Context α → Option (Context α)
  | [], c => some c
  | l :: ls, c => if c.canLock l then lockAll ls (c.lock l) else none

/-- Their destructors check that unlocking succeeds. -/
def unlockAll : List Lock → Context α → Option (Context α)
  | [], c => some c
  | l :: ls, c => if (c.unlockStatus l).isOk then unlockAll ls (c.unlock l) else none

/-- `Reset` waits for a side; `failed` is the error that the wait ends with, if it fails. -/
def awaitDetached (s : Side) (failed : Option RealtimeStatus) :
    Option (Context α × Option RealtimeStatus) :=
  if c.attached s then
    match failed with
    | some st => some (c, some st)
    | none => if c.detached s = .posted then some (c.setDetached s .ready, none) else none
  else some (c, none)

/-- `Reset`, once no handle is attached or the waits have succeeded. -/
def clear : Option (Context α) := do
  let c ← lockAll [.readValue, .writeValue] c
  let buffer ← clearBuffer movedFrom c.buffer
  let c := { c with buffer := buffer, hasValue := c.hasValue.tryWait.1 }
  let c := c.setDetached .future (c.detached .future).tryWait.1
  let c := c.setDetached .promise (c.detached .promise).tryWait.1
  unlockAll [.writeValue, .readValue] { c with isCancelled := false }

/-- `Reset`, under the first three of its mutexes. -/
def resetLocked (failed : Side → Option RealtimeStatus) : Option (Context α × Status) := do
  let (c, future) ← c.awaitDetached .future (failed .future)
  match future with
  | some st => return (c, Side.future.notDetached st)
  | none =>
    let (c, promise) ← c.awaitDetached .promise (failed .promise)
    match promise with
    | some st => return (c, Side.promise.notDetached st)
    | none => return (← c.clear movedFrom, okStatus)

/-- `Reset()` -/
def reset (failed : Side → Option RealtimeStatus) : Option (Context α × Status) := do
  let c ← lockAll [.getFuture, .getPromise, .cancel] c
  let (c, status) ← c.resetLocked movedFrom failed
  return (← unlockAll [.cancel, .getPromise, .getFuture] c, status)

end Context

namespace Context
variable {α : Type} {movedFrom : α → α} {c c' : Context α} {s : Side}

/-! ### Attached flags -/

theorem cancel_attached (c : Context α) : c.cancel.1.attached = c.attached := by
  unfold cancel
  dsimp only
  split
  · split <;> rfl
  · rfl

theorem lockAll_attached {ls : List Lock} (h : lockAll ls c = some c') :
    c'.attached = c.attached := by
  induction ls generalizing c with
  | nil =>
    cases h
    rfl
  | cons l ls ih =>
    unfold lockAll at h
    split at h
    · exact (ih h).trans rfl
    · cases h

theorem unlockAll_attached {ls : List Lock} (h : unlockAll ls c = some c') :
    c'.attached = c.attached := by
  induction ls generalizing c with
  | nil =>
    cases h
    rfl
  | cons l ls ih =>
    unfold unlockAll at h
    split at h
    · exact (ih h).trans rfl
    · cases h

theorem awaitDetached_attached {failed st : Option RealtimeStatus}
    (h : c.awaitDetached s failed = some (c', st)) : c'.attached = c.attached := by
  unfold awaitDetached at h
  split at h
  · split at h
    · cases h
      rfl
    · split at h <;> cases h
      rfl
  · cases h
    rfl

theorem clear_attached (h : c.clear movedFrom = some c') : c'.attached = c.attached := by
  obtain ⟨c₁, hlock, h⟩ := Option.bind_eq_some_iff.mp h
  obtain ⟨buffer, -, h⟩ := Option.bind_eq_some_iff.mp h
  have hlocked : c₁.attached = c.attached := lockAll_attached hlock
  exact (unlockAll_attached h).trans hlocked

theorem resetLocked_attached {failed : Side → Option RealtimeStatus} {st : Status}
    (h : c.resetLocked movedFrom failed = some (c', st)) : c'.attached = c.attached := by
  obtain ⟨⟨c₁, future⟩, hfuture, h⟩ := Option.bind_eq_some_iff.mp h
  refine Eq.trans ?_ (awaitDetached_attached hfuture)
  cases future with
  | some st =>
    cases h
    rfl
  | none =>
    obtain ⟨⟨c₂, promise⟩, hpromise, h⟩ := Option.bind_eq_some_iff.mp h
    refine Eq.trans ?_ (awaitDetached_attached hpromise)
    cases promise with
    | some st =>
      cases h
      rfl
    | none =>
      obtain ⟨c₃, hclear, h⟩ := Option.bind_eq_some_iff.mp h
      cases h
      exact clear_attached hclear

/-- **`Reset` leaves the attached flags alone**, whether or not it succeeds. -/
theorem reset_attached {failed : Side → Option RealtimeStatus} {st : Status}
    (h : c.reset movedFrom failed = some (c', st)) : c'.attached = c.attached := by
  obtain ⟨c₁, hlock, h⟩ := Option.bind_eq_some_iff.mp h
  obtain ⟨⟨c₂, status⟩, hlocked, h⟩ := Option.bind_eq_some_iff.mp h
  obtain ⟨c₃, hunlock, h⟩ := Option.bind_eq_some_iff.mp h
  cases h
  calc c'.attached = c₂.attached := unlockAll_attached hunlock
    _ = c₁.attached := resetLocked_attached hlocked
    _ = c.attached := lockAll_attached hlock

theorem unlockStatus_of_lock {l : Lock} (h : c.canLock l = true) :
    (c.lock l).unlockStatus l = rtOkStatus := by
  unfold canLock LockableBinaryFutex.tryLock at h
  unfold unlockStatus lock
  dsimp only
  rw [Function.update_self]
  cases hl : c.locks l with
  | mk f =>
    rw [hl] at h
    cases f with
    | posted => rfl
    | ready | closed => cases h

/-- **`GetPromise` and `GetFuture`** set the flag of their side if it was not set, and return an
error and leave the flags alone otherwise. -/
theorem getHandle_cases (c : Context α) (s : Side) :
    (c.getHandle s).2.isOk = false ∧ (c.getHandle s).1.attached = c.attached ∨
      (c.getHandle s).2.isOk = true ∧ c.attached s = false ∧
        (c.getHandle s).1.attached = Function.update c.attached s true := by
  unfold getHandle
  dsimp only
  by_cases hlock : c.canLock s.getLock = true
  · rw [if_pos hlock]
    by_cases hatt : (c.lock s.getLock).attached s = true
    · rw [if_pos hatt]
      exact .inl ⟨by cases s <;> rfl, rfl⟩
    · rw [if_neg hatt]
      refine .inr ⟨?_, Bool.eq_false_of_not_eq_true hatt, rfl⟩
      exact congrArg RealtimeStatus.isOk (unlockStatus_of_lock hlock)
  · rw [if_neg hlock]
    exact .inl ⟨by cases s <;> rfl, rfl⟩

theorem detach_attached (c : Context α) (s : Side) :
    (c.detach s).1.attached = Function.update c.attached s false := by
  unfold detach
  dsimp only
  split <;> rfl

/-! ### Status codes

Only a detachment that finds its flag not set returns `kInternal`. -/

theorem wasNotAttached_code (s : Side) : s.wasNotAttached.code = .internal := by
  cases s <;> rfl

theorem post_code (f : BinaryFutex) : f.post.2.code ≠ .internal := by
  cases f <;> exact nofun

theorem unlockStatus_code (c : Context α) (l : Lock) : (c.unlockStatus l).code ≠ .internal := by
  unfold unlockStatus LockableBinaryFutex.unlock
  split
  · exact post_code _
  · exact nofun

theorem detach_code (hatt : c.attached s = true) : (c.detach s).2.code ≠ .internal := by
  unfold detach
  dsimp only
  rw [if_pos hatt]
  exact post_code _

theorem getHandle_code (c : Context α) (s : Side) : (c.getHandle s).2.code ≠ .internal := by
  unfold getHandle
  dsimp only
  split
  · split
    · cases s <;> exact nofun
    · exact unlockStatus_code _ _
  · cases s <;> exact nofun

theorem cancel_code (c : Context α) : c.cancel.2.code ≠ .internal := by
  unfold cancel
  dsimp only
  split
  · split
    · exact post_code _
    · exact unlockStatus_code _ _
  · exact nofun

/-- What a call does before a detachment: it leaves the flags alone, and returns an error with
another code or a result with the property. -/
structure Returns {β : Type} (P : β → Prop) (c : Context α)
    (x : Context α × Except RealtimeStatus β) : Prop where
  attached : x.1.attached = c.attached
  error : ∀ st, x.2 = .error st → st.code ≠ .internal
  ok : ∀ a, x.2 = .ok a → P a

theorem returns_error {β : Type} {P : β → Prop} {st : RealtimeStatus}
    (hatt : c'.attached = c.attached) (hst : st.code ≠ .internal) :
    Returns P c (c', .error st) := by
  refine ⟨hatt, ?_, nofun⟩
  rintro _ ⟨⟩
  exact hst

theorem returns_ok {β : Type} {P : β → Prop} {a : β} (hatt : c'.attached = c.attached)
    (ha : P a) : Returns P c (c', .ok a) := by
  refine ⟨hatt, nofun, ?_⟩
  rintro _ ⟨⟩
  exact ha

theorem Returns.unlockThen {β : Type} {P : β → Prop} {result : Except RealtimeStatus β}
    (h : Returns P c (c', result)) (l : Lock) : Returns P c (c'.unlockThen l result) := by
  unfold Context.unlockThen
  split
  · exact ⟨h.attached, h.error, h.ok⟩
  · refine ⟨h.attached, ?_, nofun⟩
    rintro _ ⟨⟩
    exact unlockStatus_code c' l

/-- **`Set`**, up to the detachment. -/
theorem set_returns {v : α} {x : Context α × Except RealtimeStatus RealtimeStatus}
    (h : c.set v = some x) : Returns (·.code ≠ .internal) c x := by
  unfold set at h
  dsimp only at h
  split at h
  · split at h
    · cases h
      refine .unlockThen ?_ _
      exact returns_error rfl nofun
    · split at h
      · cases h
      · split at h
        · cases h
          refine .unlockThen ?_ _
          exact returns_error rfl nofun
        · cases h
          refine .unlockThen ?_ _
          exact returns_ok rfl (post_code _)
  · cases h
    exact returns_error rfl nofun

/-- **`Get`**, up to the detachment. -/
theorem get_returns {x : Context α × Except RealtimeStatus α}
    (h : c.get movedFrom = some x) : Returns (fun _ => True) c x := by
  unfold get at h
  dsimp only at h
  split at h
  · split at h
    · cases h
      refine .unlockThen ?_ _
      exact returns_error rfl nofun
    · split at h
      · cases h
        refine .unlockThen ?_ _
        exact returns_error rfl nofun
      · split at h
        · cases h
        · cases h
          refine .unlockThen ?_ _
          exact returns_ok rfl trivial
  · cases h
    exact returns_error rfl nofun

end Context

end Intrinsic.Promise
