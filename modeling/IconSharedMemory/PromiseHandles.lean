import IconSharedMemory.PromiseCalls
import IconSharedMemory.Holdings

/-! # Handles of many contexts

`RealtimePromise` and `RealtimeFuture` (`platform/common/buffers/rt_promise.h`) are handles to a
`FuturePromiseContext`.  A handle has a pointer `context_` to the context it is attached to, and
it may own a context, `internal_context_`, which its constructor made.  Moving a handle detaches
the target and exchanges the members of the two, so a handle that was moved from may own a
context without being attached to it.

The model is a world of contexts and handles in which the calls are made one after the other.
An access to a context that does not exist is no result at all, and a context is destroyed only
while nothing is attached to it.

Two books are kept (`Accounts`): the attached flags of a context say which sides have a handle,
and each context that a handle has made is owned by one.
-/
namespace Intrinsic.PromiseHandles
open Runs Holdings Promise

/-! ## Handles -/

/-- A `RealtimePromise` or a `RealtimeFuture`, depending on the side. -/
structure RealtimeHandle (Ctx : Type) where
  side : Side
  context : Option Ctx
  internalContext : Option Ctx
  isReusable : Bool
  deriving DecidableEq, Repr

/-- `GetDetachedPromise()` and `GetDetachedFuture()`; also the members of a handle before the
body of its move constructor. -/
def RealtimeHandle.empty {Ctx : Type} (s : Side) : RealtimeHandle Ctx := ⟨s, none, none, false⟩

/-- The other class of handles. -/
def opposite : Side → Side
  | .promise => .future
  | .future => .promise

/-- What a call shows to an observer. -/
inductive Event (α : Type)
  /-- `DetachPromise` or `DetachFuture` returned this status. -/
  | detached (st : RealtimeStatus)
  /-- The call returned this status, on its own or in place of a value. -/
  | returned (st : RealtimeStatus)
  /-- `Get` returned this value. -/
  | got (v : α)
  | resetReturned (st : Status)

/-- The contexts and the handles that are alive. -/
structure World (Ctx H α : Type) where
  contexts : Ctx → Option (Context α)
  /-- Whether a handle's constructor made the context. -/
  internal : Ctx → Bool
  handles : H → Option (RealtimeHandle Ctx)

namespace World
variable {Ctx H α : Type} [DecidableEq Ctx] [DecidableEq H]

def init : World Ctx H α := ⟨fun _ => none, fun _ => false, fun _ => none⟩

def setContext (w : World Ctx H α) (x : Ctx) (c : Context α) : World Ctx H α :=
  { w with contexts := Function.update w.contexts x (some c) }

def setHandle (w : World Ctx H α) (h : H) (o : RealtimeHandle Ctx) : World Ctx H α :=
  { w with handles := Function.update w.handles h (some o) }

def removeHandle (w : World Ctx H α) (h : H) : World Ctx H α :=
  { w with handles := Function.update w.handles h none }

/-- The constructor of a context. -/
def newContext (w : World Ctx H α) (x : Ctx) (internal : Bool) (c : Context α) :
    World Ctx H α :=
  { w with
    contexts := Function.update w.contexts x (some c)
    internal := Function.update w.internal x internal }

/-- The destructor of a context, to which nothing is attached. -/
def destroyContext (w : World Ctx H α) (x : Ctx) : Option (World Ctx H α) := do
  let c ← w.contexts x
  if c.attached .promise || c.attached .future then none
  else return { w with contexts := Function.update w.contexts x none }

/-- `Detach()` -/
def detach (w : World Ctx H α) (h : H) : Option (World Ctx H α × RealtimeStatus) := do
  let this ← w.handles h
  match this.context with
  | none => return (w, this.side.notAttached)
  | some x =>
    let c ← w.contexts x
    return ((w.setContext x (c.detach this.side).1).setHandle h { this with context := none },
      (c.detach this.side).2)

/-- The destructor and the move assignment detach a handle that is attached, and log an
error. -/
def detachAttached (w : World Ctx H α) (h : H) : Option (World Ctx H α × List (Event α)) := do
  let this ← w.handles h
  if this.context.isSome then
    let (w, st) ← w.detach h
    return (w, [.detached st])
  else return (w, [])

/-- The move assignment of `source` to `h`: after the detachment the members are swapped. -/
def moveAssign (w : World Ctx H α) (h source : H) :
    Option (World Ctx H α × List (Event α)) := do
  let this ← w.handles h
  let other ← w.handles source
  if this.side ≠ other.side then none
  else if h = source then return (w, [])
  else
    let (w, events) ← w.detachAttached h
    let this ← w.handles h
    return ((w.setHandle h other).setHandle source this, events)

/-- The move constructor calls the move assignment. -/
def moveConstruct (w : World Ctx H α) (h source : H) :
    Option (World Ctx H α × List (Event α)) := do
  let other ← w.handles source
  if (w.handles h).isSome then none
  else (w.setHandle h (.empty other.side)).moveAssign h source

/-- `internal_context_ = nullptr` -/
def destroyInternal (w : World Ctx H α) : Option Ctx → Option (World Ctx H α)
  | some x => w.destroyContext x
  | none => some w

/-- The destructor of a handle. -/
def destroy (w : World Ctx H α) (h : H) : Option (World Ctx H α × List (Event α)) := do
  let (w, events) ← w.detachAttached h
  let this ← w.handles h
  let w ← w.destroyInternal this.internalContext
  return (w.removeHandle h, events)

/-- `std::swap`, by way of a temporary. -/
def swap (w : World Ctx H α) (h g temporary : H) :
    Option (World Ctx H α × List (Event α)) := do
  let (w, e₁) ← w.moveConstruct temporary h
  let (w, e₂) ← w.moveAssign h g
  let (w, e₃) ← w.moveAssign g temporary
  let (w, e₄) ← w.destroy temporary
  return (w, e₁ ++ e₂ ++ e₃ ++ e₄)

/-- `GetPromise()` and `GetFuture()` of a context, into the new handle `h`. -/
def getHandle (w : World Ctx H α) (h : H) (s : Side) (x : Ctx) (isReusable : Bool) :
    Option (World Ctx H α × List (Event α)) := do
  let c ← w.contexts x
  if (w.handles h).isSome then none
  else
    let w := w.setContext x (c.getHandle s).1
    return (if (c.getHandle s).2.isOk then w.setHandle h ⟨s, some x, none, isReusable⟩ else w,
      [.returned (c.getHandle s).2])

/-- `RealtimePromise::Set` -/
def set (w : World Ctx H α) (h : H) (v : α) : Option (World Ctx H α × List (Event α)) := do
  let this ← w.handles h
  if this.side ≠ .promise then none
  else
    match this.context with
    | none => return (w, [.returned Side.promise.notAttached])
    | some x =>
      let c ← w.contexts x
      let (c, result) ← c.set v
      let w := w.setContext x c
      match result with
      | .error st => return (w, [.returned st])
      | .ok st =>
        if this.isReusable then return (w, [.returned st])
        else
          let (w, detached) ← w.detach h
          return (w, [.detached detached, .returned (overwriteIfNotError st detached)])

/-- `RealtimeFuture::Get` -/
def get (movedFrom : α → α) (w : World Ctx H α) (h : H) :
    Option (World Ctx H α × List (Event α)) := do
  let this ← w.handles h
  if this.side ≠ .future then none
  else
    match this.context with
    | none => return (w, [.returned Side.future.notAttached])
    | some x =>
      let c ← w.contexts x
      let (c, result) ← c.get movedFrom
      let w := w.setContext x c
      match result with
      | .error st => return (w, [.returned st])
      | .ok v =>
        if this.isReusable then return (w, [.got v])
        else
          let (w, detached) ← w.detach h
          return (w, [.detached detached, if detached.isOk then .got v else .returned detached])

end World

/-- What a program can do with contexts and handles. -/
inductive Op (Ctx H α : Type)
  | newContext (x : Ctx)
  | destroyContext (x : Ctx)
  /-- The default constructor, with the context that it makes. -/
  | construct (h : H) (s : Side) (x : Ctx)
  | getDetached (h : H) (s : Side)
  | getHandle (h : H) (s : Side) (x : Ctx) (isReusable : Bool)
  /-- `RealtimePromise::GetFuture` and `RealtimeFuture::GetPromise`, of the handle `g`. -/
  | getOpposite (h g : H) (isReusable : Bool)
  | moveConstruct (h source : H)
  | moveAssign (h source : H)
  | swap (h g temporary : H)
  | set (h : H) (v : α)
  | get (h : H)
  /-- `Cancel()` of a handle. -/
  | cancel (h : H)
  | cancelContext (x : Ctx)
  /-- `Reset()`, with the errors that its waits end with, if they fail. -/
  | reset (x : Ctx) (failed : Side → Option RealtimeStatus)
  | destroy (h : H)

section Apply
variable {Ctx H α : Type} [DecidableEq Ctx] [DecidableEq H] (movedFrom : α → α) (slot : Nat → α)

/-- **The effect of a call.** -/
def World.apply (w : World Ctx H α) : Op Ctx H α → Option (World Ctx H α × List (Event α))
  | .newContext x =>
    if (w.contexts x).isSome then none else some (w.newContext x false (.make slot), [])
  | .destroyContext x => if w.internal x then none else (w.destroyContext x).map (·, [])
  | .construct h s x =>
    if (w.handles h).isSome || (w.contexts x).isSome then none
    else
      let w := w.newContext x true ((Context.make slot).setAttached s true)
      some (w.setHandle h ⟨s, some x, some x, true⟩, [])
  | .getDetached h s =>
    if (w.handles h).isSome then none else some (w.setHandle h (.empty s), [])
  | .getHandle h s x isReusable => w.getHandle h s x isReusable
  | .getOpposite h g isReusable => do
    let this ← w.handles g
    match this.context with
    | none => return (w, [.returned this.side.notAttached])
    | some x => w.getHandle h (opposite this.side) x isReusable
  | .moveConstruct h source => w.moveConstruct h source
  | .moveAssign h source => w.moveAssign h source
  | .swap h g temporary => w.swap h g temporary
  | .set h v => w.set h v
  | .get h => w.get movedFrom h
  | .cancel h => do
    let this ← w.handles h
    match this.context with
    | none => return (w, [.returned this.side.notAttached])
    | some x =>
      let c ← w.contexts x
      return (w.setContext x c.cancel.1, [.returned c.cancel.2])
  | .cancelContext x => do
    let c ← w.contexts x
    return (w.setContext x c.cancel.1, [.returned c.cancel.2])
  | .reset x failed => do
    let c ← w.contexts x
    let (c, st) ← c.reset movedFrom failed
    return (w.setContext x c, [.resetReturned st])
  | .destroy h => w.destroy h

/-- The calls are made one after the other. -/
def Step (w : World Ctx H α) (x : Op Ctx H α × List (Event α)) (w' : World Ctx H α) : Prop :=
  w.apply movedFrom slot x.1 = some (w', x.2)

end Apply

/-! ## The books -/

section Books
variable {Ctx H α : Type}

/-- The side and the context of an attached handle. -/
def RealtimeHandle.refers (o : RealtimeHandle Ctx) : Option (Side × Ctx) :=
  o.context.map (o.side, ·)

def World.refers (w : World Ctx H α) (h : H) : Option (Side × Ctx) := (w.handles h).bind (·.refers)

def World.owns (w : World Ctx H α) (h : H) : Option Ctx := (w.handles h).bind (·.internalContext)

/-- The flag of the side is set. -/
def World.isAttached (w : World Ctx H α) (p : Side × Ctx) : Prop :=
  ∃ c, w.contexts p.2 = some c ∧ c.attached p.1 = true

/-- The context exists and was made by the constructor of a handle. -/
def World.isInternal (w : World Ctx H α) (x : Ctx) : Prop :=
  w.contexts x ≠ none ∧ w.internal x = true

/-- **The invariant.** -/
structure Accounts (w : World Ctx H α) : Prop where
  handles : Tracked w.refers w.isAttached
  owners : Tracked w.owns w.isInternal

variable {w w' : World Ctx H α} {h g : H} {x y : Ctx} {o : RealtimeHandle Ctx} {c c' : Context α}
  {s : Side}

theorem accounts_init : Accounts (World.init : World Ctx H α) := by
  refine ⟨tracked_of_none (fun _ => rfl) ?_, tracked_of_none (fun _ => rfl) ?_⟩
  · rintro p ⟨c, hc, -⟩
    cases hc
  · rintro x ⟨hx, -⟩
    exact hx rfl

theorem Accounts.congr (hw : Accounts w) (hhandles : w'.handles = w.handles)
    (hattached : ∀ p, w'.isAttached p ↔ w.isAttached p)
    (hinternal : ∀ x, w'.isInternal x ↔ w.isInternal x) : Accounts w' := by
  have hrefers : w'.refers = w.refers := by
    funext h
    rw [World.refers, World.refers, hhandles]
  have howns : w'.owns = w.owns := by
    funext h
    rw [World.owns, World.owns, hhandles]
  exact ⟨hrefers ▸ hw.handles.congr hattached, howns ▸ hw.owners.congr hinternal⟩

theorem World.isAttached_iff (hx : w.contexts x = some c) :
    w.isAttached (s, x) ↔ c.attached s = true := by
  constructor
  · rintro ⟨c', hc', hatt⟩
    cases hx.symm.trans hc'
    exact hatt
  · exact fun hatt => ⟨c, hx, hatt⟩

/-- The context of a handle exists, and its flag is set. -/
theorem Accounts.attached (hw : Accounts w) (hh : w.handles h = some o)
    (ho : o.context = some x) : ∃ c, w.contexts x = some c ∧ c.attached o.side = true := by
  refine (hw.handles.held (o.side, x)).mpr ⟨h, ?_⟩
  simp [World.refers, RealtimeHandle.refers, hh, ho]

theorem World.not_isAttached_of_none (hx : w.contexts x = none) :
    ¬ w.isAttached (s, x) := by
  rintro ⟨c, hc, -⟩
  cases hx.symm.trans hc

section
variable [DecidableEq H]

theorem World.refers_setHandle :
    (w.setHandle h o).refers = Function.update w.refers h o.refers := by
  funext g
  by_cases hg : g = h
  · subst hg
    simp [refers, setHandle]
  · simp [refers, setHandle, hg]

theorem World.owns_setHandle :
    (w.setHandle h o).owns = Function.update w.owns h o.internalContext := by
  funext g
  by_cases hg : g = h
  · subst hg
    simp [owns, setHandle]
  · simp [owns, setHandle, hg]

theorem World.refers_removeHandle :
    (w.removeHandle h).refers = Function.update w.refers h none := by
  funext g
  by_cases hg : g = h
  · subst hg
    simp [refers, removeHandle]
  · simp [refers, removeHandle, hg]

theorem World.owns_removeHandle :
    (w.removeHandle h).owns = Function.update w.owns h none := by
  funext g
  by_cases hg : g = h
  · subst hg
    simp [owns, removeHandle]
  · simp [owns, removeHandle, hg]

/-- A handle that is not attached comes to life. -/
theorem Accounts.setEmpty (hw : Accounts w) (hh : w.handles h = none) (s : Side) :
    Accounts (w.setHandle h (.empty s)) := by
  have hrefers : w.refers h = none := by rw [World.refers, hh, Option.bind_none]
  have howns : w.owns h = none := by rw [World.owns, hh, Option.bind_none]
  refine ⟨?_, ?_⟩
  · rw [World.refers_setHandle, Function.update_eq_self_iff.mpr hrefers.symm]
    exact hw.handles
  · rw [World.owns_setHandle, Function.update_eq_self_iff.mpr howns.symm]
    exact hw.owners

/-- **Exchanging** the members of two handles is exchanging their names. -/
theorem Accounts.exchange {o' : RealtimeHandle Ctx} (hw : Accounts w)
    (hh : w.handles h = some o) (hg : w.handles g = some o') :
    Accounts ((w.setHandle h o').setHandle g o) := by
  have heq : (w.setHandle h o').setHandle g o =
      { w with handles := w.handles ∘ Equiv.swap g h } := by
    rw [Equiv.comp_swap_eq_update, hh, hg]
    rfl
  rw [heq]
  exact ⟨hw.handles.comp _, hw.owners.comp _⟩

end

variable [DecidableEq Ctx]

theorem World.isAttached_update {contexts : Ctx → Option (Context α)}
    (hw' : w'.contexts = Function.update contexts x (some c)) :
    w'.isAttached (s, x) ↔ c.attached s = true := by
  refine World.isAttached_iff ?_
  rw [hw', Function.update_self]

theorem World.isAttached_of_ne {a : Option (Context α)}
    (hw' : w'.contexts = Function.update w.contexts x a) (hy : y ≠ x) :
    w'.isAttached (s, y) ↔ w.isAttached (s, y) := by
  unfold World.isAttached
  rw [hw', Function.update_of_ne hy]

theorem World.isInternal_setContext (hx : w.contexts x = some c) :
    (w.setContext x c').isInternal y ↔ w.isInternal y := by
  unfold World.isInternal World.setContext
  dsimp only
  by_cases hy : y = x
  · subst hy
    rw [Function.update_self, hx]
    exact and_congr_left fun _ => iff_of_true (Option.some_ne_none _) (Option.some_ne_none _)
  · rw [Function.update_of_ne hy]

/-- A call that leaves the flags alone. -/
theorem Accounts.setContext (hw : Accounts w) (hx : w.contexts x = some c)
    (hatt : c'.attached = c.attached) : Accounts (w.setContext x c') := by
  refine hw.congr rfl ?_ fun y => World.isInternal_setContext hx
  rintro ⟨s, y⟩
  by_cases hy : y = x
  · subst hy
    rw [World.isAttached_update rfl, World.isAttached_iff hx, hatt]
  · exact World.isAttached_of_ne rfl hy

/-- A program makes a context. -/
theorem Accounts.newContext (hw : Accounts w) (hx : w.contexts x = none) (slot : Nat → α) :
    Accounts (w.newContext x false (.make slot)) := by
  refine hw.congr rfl ?_ ?_
  · rintro ⟨s, y⟩
    by_cases hy : y = x
    · subst hy
      rw [World.isAttached_update rfl]
      exact iff_of_false Bool.false_ne_true (World.not_isAttached_of_none hx)
    · exact World.isAttached_of_ne rfl hy
  · intro y
    unfold World.isInternal World.newContext
    by_cases hy : y = x
    · simp [hy, hx]
    · simp [hy]

theorem World.destroyContext_eq (hd : w.destroyContext x = some w') :
    w' = { w with contexts := Function.update w.contexts x none } ∧ ∀ s, ¬ w.isAttached (s, x) := by
  obtain ⟨c, hc, hd⟩ := Option.bind_eq_some_iff.mp hd
  split at hd
  case isTrue => cases hd
  case isFalse hno =>
    cases hd
    refine ⟨rfl, fun s => ?_⟩
    rw [World.isAttached_iff hc]
    cases s <;> simp_all

/-- What is not attached to a context that is destroyed stays attached. -/
theorem World.isAttached_destroy (hno : ∀ s, ¬ w.isAttached (s, x))
    (hw' : w'.contexts = Function.update w.contexts x none) (p : Side × Ctx) :
    w'.isAttached p ↔ w.isAttached p := by
  obtain ⟨s, y⟩ := p
  by_cases hy : y = x
  · subst hy
    refine iff_of_false (World.not_isAttached_of_none ?_) (hno s)
    rw [hw', Function.update_self]
  · exact World.isAttached_of_ne hw' hy

/-- A program destroys a context that it made. -/
theorem Accounts.destroyContext (hw : Accounts w) (hint : w.internal x = false)
    (hd : w.destroyContext x = some w') : Accounts w' := by
  obtain ⟨rfl, hno⟩ := World.destroyContext_eq hd
  refine hw.congr rfl (World.isAttached_destroy hno rfl) fun y => ?_
  unfold World.isInternal
  by_cases hy : y = x
  · simp [hy, hint]
  · simp [hy]

variable [DecidableEq H]

/-- **Attaching** a new handle to a context whose flag was not set. -/
theorem Accounts.attach (hw : Accounts w) (hh : w.handles h = none)
    (hx : w.contexts x = some c) (hatt : c.attached s = false)
    (hatt' : c'.attached = Function.update c.attached s true) (isReusable : Bool) :
    Accounts ((w.setContext x c').setHandle h ⟨s, some x, none, isReusable⟩) := by
  refine ⟨?_, ?_⟩
  · rw [World.refers_setHandle]
    refine hw.handles.acquire (r := (s, x)) ?_ ?_ ?_
    · rw [World.refers, hh, Option.bind_none]
    · rw [World.isAttached_iff hx, hatt]
      exact Bool.false_ne_true
    · rintro ⟨r, y⟩
      by_cases hy : y = x
      · subst hy
        rw [World.isAttached_iff hx]
        refine (World.isAttached_update rfl).trans ?_
        rw [hatt']
        by_cases hr : r = s
        · simp [hr]
        · simp [hr]
      · refine (World.isAttached_of_ne rfl hy).trans ?_
        simp [hy]
  · rw [World.owns_setHandle]
    have howns : (w.setContext x c').owns h = none := by
      rw [World.owns, World.setContext, hh, Option.bind_none]
    rw [Function.update_eq_self_iff.mpr howns.symm]
    exact hw.owners.congr fun y => World.isInternal_setContext hx

/-- **Detaching** a handle clears the flag of its side, which was set. -/
theorem Accounts.detach (hw : Accounts w) (hh : w.handles h = some o)
    (ho : o.context = some x) (hx : w.contexts x = some c) :
    Accounts ((w.setContext x (c.detach o.side).1).setHandle h { o with context := none }) := by
  refine ⟨?_, ?_⟩
  · rw [World.refers_setHandle]
    refine hw.handles.release (r := (o.side, x)) ?_ ?_
    · simp [World.refers, RealtimeHandle.refers, hh, ho]
    · rintro ⟨r, y⟩
      by_cases hy : y = x
      · subst hy
        rw [World.isAttached_iff hx]
        refine (World.isAttached_update rfl).trans ?_
        rw [Context.detach_attached]
        by_cases hr : r = o.side
        · simp [hr]
        · simp [hr]
      · refine (World.isAttached_of_ne rfl hy).trans ?_
        simp [hy]
  · rw [World.owns_setHandle]
    have howns : (w.setContext x (c.detach o.side).1).owns h = o.internalContext := by
      rw [World.owns, World.setContext, hh, Option.bind_some]
    rw [Function.update_eq_self_iff.mpr howns.symm]
    exact hw.owners.congr fun y => World.isInternal_setContext hx

/-- **The default constructor** attaches the new handle and makes it the owner. -/
theorem Accounts.construct (hw : Accounts w) (hh : w.handles h = none)
    (hx : w.contexts x = none) (slot : Nat → α) (s : Side) :
    Accounts ((w.newContext x true ((Context.make slot).setAttached s true)).setHandle h
      ⟨s, some x, some x, true⟩) := by
  have hmake : ∀ r, ((Context.make slot).setAttached s true).attached r = true ↔ r = s := by
    intro r
    by_cases hr : r = s
    · simp [hr]
    · rw [Context.setAttached_of_ne _ hr]
      exact iff_of_false Bool.false_ne_true hr
  refine ⟨?_, ?_⟩
  · rw [World.refers_setHandle]
    refine hw.handles.acquire (r := (s, x)) ?_ (World.not_isAttached_of_none hx) ?_
    · rw [World.refers, hh, Option.bind_none]
    · rintro ⟨r, y⟩
      by_cases hy : y = x
      · subst hy
        refine (World.isAttached_update rfl).trans ((hmake r).trans ?_)
        simp [World.not_isAttached_of_none hx]
      · refine (World.isAttached_of_ne rfl hy).trans ?_
        simp [hy]
  · rw [World.owns_setHandle]
    refine hw.owners.acquire (r := x) ?_ (fun hint => hint.1 hx) ?_
    · rw [World.owns, hh, Option.bind_none]
    · intro y
      unfold World.isInternal World.newContext World.setHandle
      by_cases hy : y = x
      · simp [hy]
      · simp [hy]

/-- **The destructor of a handle** that is not attached destroys the context that the handle
owns. -/
theorem Accounts.destroy (hw : Accounts w) (hh : w.handles h = some o) (ho : o.context = none)
    (hd : w.destroyInternal o.internalContext = some w') : Accounts (w'.removeHandle h) := by
  have hrefers : w.refers h = none := by
    simp [World.refers, RealtimeHandle.refers, hh, ho]
  have howns : w.owns h = o.internalContext := by rw [World.owns, hh, Option.bind_some]
  cases hint : o.internalContext with
  | none =>
    rw [hint] at hd howns
    cases hd
    refine ⟨?_, ?_⟩
    · rw [World.refers_removeHandle, Function.update_eq_self_iff.mpr hrefers.symm]
      exact hw.handles
    · rw [World.owns_removeHandle, Function.update_eq_self_iff.mpr howns.symm]
      exact hw.owners
  | some x =>
    rw [hint] at hd howns
    obtain ⟨rfl, hno⟩ := World.destroyContext_eq hd
    refine ⟨?_, ?_⟩
    · rw [World.refers_removeHandle, Function.update_eq_self_iff.mpr hrefers.symm]
      exact hw.handles.congr (World.isAttached_destroy hno rfl)
    · rw [World.owns_removeHandle]
      refine hw.owners.release howns fun y => ?_
      unfold World.isInternal World.removeHandle
      by_cases hy : y = x
      · simp [hy]
      · simp [hy]

end Books

/-! ## The calls keep the books -/

section Calls
variable {Ctx H α : Type} {movedFrom : α → α} {slot : Nat → α} {w w' : World Ctx H α} {h g : H}
  {x : Ctx} {r : World Ctx H α × List (Event α)}

/-- The status that an event shows. -/
def Event.status : Event α → Option RealtimeStatus
  | .detached st | .returned st => some st
  | .got _ | .resetReturned _ => none

/-- The books are kept, and no status is that of a detachment that found its flag not set. -/
structure Sound (r : World Ctx H α × List (Event α)) : Prop where
  accounts : Accounts r.1
  statuses : ∀ e ∈ r.2, ∀ st, e.status = some st → st.code ≠ .internal

theorem sound_silent (hw : Accounts w) : Sound (w, []) := ⟨hw, nofun⟩

theorem sound_event {e : Event α} (hw : Accounts w)
    (he : ∀ st, e.status = some st → st.code ≠ .internal) : Sound (w, [e]) := by
  refine ⟨hw, fun e' he' => ?_⟩
  rwa [List.mem_singleton.mp he']

theorem sound_detached {st : RealtimeStatus} (hw : Accounts w) (hst : st.code ≠ .internal) :
    Sound (w, [.detached st]) := by
  refine sound_event hw ?_
  rintro _ ⟨⟩
  exact hst

theorem sound_returned {st : RealtimeStatus} (hw : Accounts w) (hst : st.code ≠ .internal) :
    Sound (w, [.returned st]) := by
  refine sound_event hw ?_
  rintro _ ⟨⟩
  exact hst

theorem Sound.append {e : List (Event α)} (h : Sound (w, e)) (hr : Sound r) :
    Sound (r.1, e ++ r.2) := by
  refine ⟨hr.accounts, fun x hx => ?_⟩
  rcases List.mem_append.mp hx with hx | hx
  · exact h.statuses x hx
  · exact hr.statuses x hx

theorem notAttached_code (s : Side) : s.notAttached.code ≠ .internal := by
  cases s <;> exact nofun

variable [DecidableEq Ctx] [DecidableEq H]

/-- **`Detach`** of a handle: it is not attached afterwards, and nothing else about the handles
changes. -/
theorem detach_spec {st : RealtimeStatus} (hw : Accounts w) (hd : w.detach h = some (w', st)) :
    Accounts w' ∧ st.code ≠ .internal ∧ ∃ o, w.handles h = some o ∧
      w'.handles = Function.update w.handles h (some { o with context := none }) := by
  obtain ⟨o, ho, hd⟩ := Option.bind_eq_some_iff.mp hd
  cases hctx : o.context with
  | none =>
    rw [hctx] at hd
    cases hd
    refine ⟨hw, notAttached_code _, o, ho, ?_⟩
    have hsame : { o with context := none } = o := by rw [← hctx]
    rw [hsame, ← ho, Function.update_eq_self]
  | some x =>
    rw [hctx] at hd
    obtain ⟨c, hc, hd⟩ := Option.bind_eq_some_iff.mp hd
    cases hd
    obtain ⟨c', hc', hatt⟩ := hw.attached ho hctx
    cases hc.symm.trans hc'
    exact ⟨hw.detach ho hctx hc, Context.detach_code hatt, o, ho, rfl⟩

theorem detachAttached_spec (hw : Accounts w) (hd : w.detachAttached h = some r) :
    Sound r ∧ ∃ o, w.handles h = some o ∧
      r.1.handles = Function.update w.handles h (some { o with context := none }) := by
  obtain ⟨o, ho, hd⟩ := Option.bind_eq_some_iff.mp hd
  split at hd
  case isTrue =>
    obtain ⟨⟨w', st⟩, hdetach, hd⟩ := Option.bind_eq_some_iff.mp hd
    cases hd
    obtain ⟨hw', hst, hhandles⟩ := detach_spec hw hdetach
    exact ⟨sound_detached hw' hst, hhandles⟩
  case isFalse hnone =>
    cases hd
    refine ⟨sound_silent hw, o, ho, ?_⟩
    have hsame : { o with context := none } = o := by
      rw [← Option.not_isSome_iff_eq_none.mp hnone]
    rw [hsame, ← ho, Function.update_eq_self]

/-- The move assignment does nothing, or it detaches a handle and exchanges it with another. -/
theorem moveAssign_cases (hm : w.moveAssign h g = some r) :
    r = (w, []) ∨ ∃ other w₁ events this, h ≠ g ∧ w.handles g = some other ∧
      w.detachAttached h = some (w₁, events) ∧ w₁.handles h = some this ∧
      r = ((w₁.setHandle h other).setHandle g this, events) := by
  obtain ⟨_, -, hm⟩ := Option.bind_eq_some_iff.mp hm
  obtain ⟨other, hother, hm⟩ := Option.bind_eq_some_iff.mp hm
  split at hm
  · cases hm
  · split at hm
    · cases hm
      exact .inl rfl
    · rename_i hne
      obtain ⟨⟨w₁, events⟩, hd, hm⟩ := Option.bind_eq_some_iff.mp hm
      obtain ⟨this, hthis, hm⟩ := Option.bind_eq_some_iff.mp hm
      cases hm
      exact .inr ⟨other, w₁, events, this, hne, hother, hd, hthis, rfl⟩

theorem moveAssign_sound (hw : Accounts w) (hm : w.moveAssign h g = some r) : Sound r := by
  rcases moveAssign_cases hm with rfl | ⟨other, w₁, events, this, hne, hother, hd, hthis, rfl⟩
  · exact sound_silent hw
  · obtain ⟨hsound, o, -, hhandles⟩ := detachAttached_spec hw hd
    refine ⟨hsound.accounts.exchange hthis ?_, hsound.statuses⟩
    rw [hhandles, Function.update_of_ne (Ne.symm hne), hother]

theorem moveConstruct_sound (hw : Accounts w) (hm : w.moveConstruct h g = some r) : Sound r := by
  obtain ⟨other, -, hm⟩ := Option.bind_eq_some_iff.mp hm
  split at hm
  case isTrue => cases hm
  case isFalse hnone =>
    exact moveAssign_sound (hw.setEmpty (Option.not_isSome_iff_eq_none.mp hnone) _) hm

theorem destroy_sound (hw : Accounts w) (hd : w.destroy h = some r) : Sound r := by
  obtain ⟨⟨w₁, events⟩, hdetach, hd⟩ := Option.bind_eq_some_iff.mp hd
  obtain ⟨this, hthis, hd⟩ := Option.bind_eq_some_iff.mp hd
  obtain ⟨w₂, hinternal, hd⟩ := Option.bind_eq_some_iff.mp hd
  cases hd
  obtain ⟨hsound, o, -, hhandles⟩ := detachAttached_spec hw hdetach
  have hnone : this.context = none := by
    have hthis : w₁.handles h = some this := hthis
    rw [show w₁.handles = _ from hhandles, Function.update_self] at hthis
    cases hthis
    rfl
  exact ⟨hsound.accounts.destroy hthis hnone hinternal, hsound.statuses⟩

/-- **`std::swap`** is made of moves. -/
theorem swap_sound {temporary : H} (hw : Accounts w) (hs : w.swap h g temporary = some r) :
    Sound r := by
  obtain ⟨⟨w₁, e₁⟩, h₁, hs⟩ := Option.bind_eq_some_iff.mp hs
  obtain ⟨⟨w₂, e₂⟩, h₂, hs⟩ := Option.bind_eq_some_iff.mp hs
  obtain ⟨⟨w₃, e₃⟩, h₃, hs⟩ := Option.bind_eq_some_iff.mp hs
  obtain ⟨⟨w₄, e₄⟩, h₄, hs⟩ := Option.bind_eq_some_iff.mp hs
  cases hs
  have hs₁ := moveConstruct_sound hw h₁
  have hs₂ := moveAssign_sound hs₁.accounts h₂
  have hs₃ := moveAssign_sound hs₂.accounts h₃
  have hs₄ := destroy_sound hs₃.accounts h₄
  exact ((hs₁.append hs₂).append hs₃).append hs₄

theorem getHandle_sound {s : Side} {isReusable : Bool} (hw : Accounts w)
    (hg : w.getHandle h s x isReusable = some r) : Sound r := by
  obtain ⟨c, hc, hg⟩ := Option.bind_eq_some_iff.mp hg
  split at hg
  case isTrue => cases hg
  case isFalse hnone =>
    have hh : w.handles h = none := Option.not_isSome_iff_eq_none.mp hnone
    obtain rfl := Option.some.inj hg
    refine sound_returned ?_ (Context.getHandle_code c s)
    rcases Context.getHandle_cases c s with ⟨hst, hatt⟩ | ⟨hst, hold, hatt⟩
    · rw [hst]
      exact hw.setContext hc hatt
    · rw [hst]
      exact hw.attach hh hc hold hatt isReusable

/-- **`Set`** -/
theorem set_sound {v : α} (hw : Accounts w) (hs : w.set h v = some r) : Sound r := by
  obtain ⟨this, hthis, hs⟩ := Option.bind_eq_some_iff.mp hs
  split at hs
  · cases hs
  · split at hs
    · cases hs
      exact sound_returned hw (notAttached_code _)
    · obtain ⟨c, hc, hs⟩ := Option.bind_eq_some_iff.mp hs
      obtain ⟨⟨c', result⟩, hset, hs⟩ := Option.bind_eq_some_iff.mp hs
      have hret := Context.set_returns hset
      have hw' := hw.setContext hc hret.attached
      cases result with
      | error st =>
        obtain rfl := Option.some.inj hs
        exact sound_returned hw' (hret.error st rfl)
      | ok st =>
        dsimp only at hs
        split at hs
        · obtain rfl := Option.some.inj hs
          exact sound_returned hw' (hret.ok st rfl)
        · obtain ⟨⟨w₁, detached⟩, hd, hs⟩ := Option.bind_eq_some_iff.mp hs
          obtain rfl := Option.some.inj hs
          obtain ⟨hw₁, hdetached, -⟩ := detach_spec hw' hd
          refine (sound_detached hw₁ hdetached).append (sound_returned hw₁ ?_)
          unfold overwriteIfNotError
          split
          · exact hdetached
          · exact hret.ok st rfl

/-- **`Get`** -/
theorem get_sound (hw : Accounts w) (hg : w.get movedFrom h = some r) : Sound r := by
  obtain ⟨this, hthis, hg⟩ := Option.bind_eq_some_iff.mp hg
  split at hg
  · cases hg
  · split at hg
    · cases hg
      exact sound_returned hw (notAttached_code _)
    · obtain ⟨c, hc, hg⟩ := Option.bind_eq_some_iff.mp hg
      obtain ⟨⟨c', result⟩, hget, hg⟩ := Option.bind_eq_some_iff.mp hg
      have hret := Context.get_returns hget
      have hw' := hw.setContext hc hret.attached
      cases result with
      | error st =>
        obtain rfl := Option.some.inj hg
        exact sound_returned hw' (hret.error st rfl)
      | ok v =>
        dsimp only at hg
        split at hg
        · obtain rfl := Option.some.inj hg
          exact sound_event hw' nofun
        · obtain ⟨⟨w₁, detached⟩, hd, hg⟩ := Option.bind_eq_some_iff.mp hg
          obtain rfl := Option.some.inj hg
          obtain ⟨hw₁, hdetached, -⟩ := detach_spec hw' hd
          refine (sound_detached hw₁ hdetached).append (r := (w₁, [_])) ?_
          dsimp only
          split
          · exact sound_event hw₁ nofun
          · exact sound_returned hw₁ hdetached

/-- **Every call keeps the books.** -/
theorem apply_sound {op : Op Ctx H α} (hw : Accounts w)
    (hs : w.apply movedFrom slot op = some r) : Sound r := by
  cases op with
  | newContext x =>
    dsimp only [World.apply] at hs
    split at hs
    case isTrue => cases hs
    case isFalse hnone =>
      obtain rfl := Option.some.inj hs
      exact sound_silent (hw.newContext (Option.not_isSome_iff_eq_none.mp hnone) slot)
  | destroyContext x =>
    dsimp only [World.apply] at hs
    split at hs
    case isTrue => cases hs
    case isFalse hint =>
      obtain ⟨w', hd, rfl⟩ := Option.map_eq_some_iff.mp hs
      exact sound_silent (hw.destroyContext (Bool.eq_false_of_not_eq_true hint) hd)
  | construct h s x =>
    dsimp only [World.apply] at hs
    split at hs
    case isTrue => cases hs
    case isFalse hnone =>
      obtain rfl := Option.some.inj hs
      simp only [Bool.or_eq_true, not_or, Option.not_isSome_iff_eq_none] at hnone
      exact sound_silent (hw.construct hnone.1 hnone.2 slot s)
  | getDetached h s =>
    dsimp only [World.apply] at hs
    split at hs
    case isTrue => cases hs
    case isFalse hnone =>
      obtain rfl := Option.some.inj hs
      exact sound_silent (hw.setEmpty (Option.not_isSome_iff_eq_none.mp hnone) s)
  | getHandle h s x isReusable => exact getHandle_sound hw hs
  | getOpposite h g isReusable =>
    obtain ⟨this, -, hs⟩ := Option.bind_eq_some_iff.mp hs
    split at hs
    · cases hs
      exact sound_returned hw (notAttached_code _)
    · exact getHandle_sound hw hs
  | moveConstruct h source => exact moveConstruct_sound hw hs
  | moveAssign h source => exact moveAssign_sound hw hs
  | swap h g temporary => exact swap_sound hw hs
  | set h v => exact set_sound hw hs
  | get h => exact get_sound hw hs
  | cancel h =>
    obtain ⟨this, -, hs⟩ := Option.bind_eq_some_iff.mp hs
    split at hs
    · cases hs
      exact sound_returned hw (notAttached_code _)
    · obtain ⟨c, hc, hs⟩ := Option.bind_eq_some_iff.mp hs
      obtain rfl := Option.some.inj hs
      exact sound_returned (hw.setContext hc (Context.cancel_attached c)) (Context.cancel_code c)
  | cancelContext x =>
    obtain ⟨c, hc, hs⟩ := Option.bind_eq_some_iff.mp hs
    obtain rfl := Option.some.inj hs
    exact sound_returned (hw.setContext hc (Context.cancel_attached c)) (Context.cancel_code c)
  | reset x failed =>
    obtain ⟨c, hc, hs⟩ := Option.bind_eq_some_iff.mp hs
    obtain ⟨⟨c', st⟩, hreset, hs⟩ := Option.bind_eq_some_iff.mp hs
    obtain rfl := Option.some.inj hs
    exact sound_event (hw.setContext hc (Context.reset_attached hreset)) nofun
  | destroy h => exact destroy_sound hw hs

theorem sound_run {ops : List (Op Ctx H α × List (Event α))}
    (hrun : Run (Step movedFrom slot) World.init ops w) :
    Accounts w ∧ ∀ op ∈ ops, ∀ e ∈ op.2, ∀ st, e.status = some st → st.code ≠ .internal := by
  refine hrun.invariant (I := fun ops w => Accounts w ∧ ∀ op ∈ ops, ∀ e ∈ op.2, ∀ st,
    e.status = some st → st.code ≠ .internal) ⟨accounts_init, nofun⟩ ?_
  rintro ops w op w' ⟨hw, hold⟩ hs
  have hsound := apply_sound hw hs
  refine ⟨hsound.accounts, fun op' hop' => ?_⟩
  rcases List.mem_append.mp hop' with hop' | hop'
  · exact hold op' hop'
  · rw [List.mem_singleton.mp hop']
    exact hsound.statuses

end Calls

/-! ## Attachments -/

section Attachments
variable {Ctx H α : Type} {movedFrom : α → α} {slot : Nat → α} {w : World Ctx H α} {h g : H}
  {x : Ctx} {s : Side} {o o' : RealtimeHandle Ctx}

/-- The handle is alive, and its `context_` points to the context. -/
def World.AttachedTo (w : World Ctx H α) (s : Side) (x : Ctx) (h : H) : Prop :=
  ∃ o, w.handles h = some o ∧ o.side = s ∧ o.context = some x

theorem World.refers_iff : w.refers h = some (s, x) ↔ w.AttachedTo s x h := by
  unfold World.refers World.AttachedTo RealtimeHandle.refers
  cases w.handles h with
  | none => simp
  | some o => simp [and_comm]

theorem Accounts.attached_iff {c : Context α} (hw : Accounts w) (hx : w.contexts x = some c) :
    c.attached s = true ↔ ∃! h, w.AttachedTo s x h := by
  rw [← World.isAttached_iff hx, hw.handles.held, ← hw.handles.unshared.existsUnique_iff]
  exact existsUnique_congr fun h => World.refers_iff

theorem Accounts.detached_iff {c : Context α} (hw : Accounts w) (hx : w.contexts x = some c) :
    c.attached s = false ↔ ∀ h, ¬ w.AttachedTo s x h := by
  rw [← Bool.not_eq_true, ← World.isAttached_iff hx, hw.handles.not_flag_iff]
  exact forall_congr' fun h => not_congr World.refers_iff

theorem Accounts.owner (hw : Accounts w) (hh : w.handles h = some o)
    (ho : o.internalContext = some x) : w.owns h = some x ∧ w.contexts x ≠ none := by
  have howns : w.owns h = some x := by rw [World.owns, hh, Option.bind_some, ho]
  exact ⟨howns, ((hw.owners.held x).mpr ⟨h, howns⟩).1⟩

variable [DecidableEq Ctx] [DecidableEq H]

/-- A handle that is not attached takes the members of another one, which takes its. -/
theorem moveAssign_of_detached (hh : w.handles h = some o) (ho : o.context = none)
    (hg : w.handles g = some o') (hside : o.side = o'.side) (hne : h ≠ g) :
    w.moveAssign h g = some ((w.setHandle h o').setHandle g o, []) := by
  unfold World.moveAssign World.detachAttached
  simp [hh, hg, ho, hside, hne]

theorem destroy_of_empty (hh : w.handles h = some (.empty s)) :
    w.destroy h = some (w.removeHandle h, []) := by
  unfold World.destroy World.detachAttached
  simp [hh, RealtimeHandle.empty, World.destroyInternal]

/-- The move constructor takes the members of the other handle and leaves it empty. -/
theorem moveConstruct_eq (hh : w.handles h = none) (hg : w.handles g = some o) :
    w.moveConstruct h g = some ((w.setHandle h o).setHandle g (.empty o.side), []) := by
  have hne : h ≠ g := by
    rintro rfl
    cases hh.symm.trans hg
  have hassign := moveAssign_of_detached (w := w.setHandle h (.empty o.side))
    (Function.update_self ..) rfl ((Function.update_of_ne (Ne.symm hne) ..).trans hg) rfl hne
  unfold World.moveConstruct
  rw [hg, Option.bind_eq_bind, Option.bind_some, hh]
  refine hassign.trans ?_
  simp [World.setHandle]

/-- **`std::swap`** exchanges two handles and detaches neither of them. -/
theorem swap_exchanges {temporary : H} (hh : w.handles h = some o) (hg : w.handles g = some o')
    (ht : w.handles temporary = none) (hside : o.side = o'.side) (hne : h ≠ g) :
    w.swap h g temporary = some ({ w with handles := w.handles ∘ Equiv.swap h g }, []) := by
  have hth : temporary ≠ h := by
    rintro rfl
    cases ht.symm.trans hh
  have htg : temporary ≠ g := by
    rintro rfl
    cases ht.symm.trans hg
  let w₁ := (w.setHandle temporary o).setHandle h (.empty o.side)
  let w₂ := (w₁.setHandle h o').setHandle g (.empty o.side)
  have hassign : w₁.moveAssign h g = some (w₂, []) := by
    refine moveAssign_of_detached ?_ rfl ?_ hside hne
    · simp [w₁, World.setHandle]
    · simp [w₁, World.setHandle, hg, Ne.symm hne, Ne.symm htg]
  have hassign' : w₂.moveAssign g temporary =
      some ((w₂.setHandle g o).setHandle temporary (.empty o.side), []) := by
    refine moveAssign_of_detached ?_ rfl ?_ rfl (Ne.symm htg)
    · simp [w₂, World.setHandle]
    · simp [w₂, w₁, World.setHandle, hth, htg]
  have hhandles : (((w₂.setHandle g o).setHandle temporary (.empty o.side)).removeHandle
      temporary).handles = w.handles ∘ Equiv.swap h g := by
    rw [Equiv.comp_swap_eq_update, hh, hg]
    funext a
    simp only [w₂, w₁, World.setHandle, World.removeHandle, Function.update_idem]
    by_cases hat : a = temporary
    · simp [hat, hth, htg, ht]
    · by_cases hag : a = g
      · simp [hag, Ne.symm hne, Ne.symm htg]
      · simp [hat, hag, Function.update_apply]
  unfold World.swap
  rw [moveConstruct_eq ht hh]
  simp only [Option.bind_eq_bind, Option.bind_some]
  rw [hassign]
  simp only [Option.bind_some]
  rw [hassign']
  simp only [Option.bind_some]
  rw [destroy_of_empty (s := o.side) (Function.update_self ..)]
  exact congrArg (fun f => some ({ w with handles := f }, [])) hhandles

/-- **The attachments are accounted for**, after any sequence of calls: the flag of a side is
set exactly if one handle of the side points to the context, and clear if none does.  The
contexts that handles point to or own exist and have no other owner.  No detachment finds its
flag not set. -/
theorem attachments_accounted {ops : List (Op Ctx H α × List (Event α))}
    (hrun : Run (Step movedFrom slot) World.init ops w) :
    (∀ x c s, w.contexts x = some c →
      (c.attached s = true ↔ ∃! h, w.AttachedTo s x h) ∧
      (c.attached s = false ↔ ∀ h, ¬ w.AttachedTo s x h)) ∧
    (∀ s x h g, w.AttachedTo s x h → w.AttachedTo s x g → h = g) ∧
    (∀ s x h, w.AttachedTo s x h → w.contexts x ≠ none) ∧
    (∀ h o x, w.handles h = some o → o.internalContext = some x → w.contexts x ≠ none ∧
      ∀ g o', w.handles g = some o' → o'.internalContext = some x → g = h) ∧
    ∀ op ∈ ops, ∀ e ∈ op.2, ∀ s : Side, e.status ≠ some s.wasNotAttached := by
  obtain ⟨hw, hstatuses⟩ := sound_run hrun
  refine ⟨?_, ?_, ?_, ?_, ?_⟩
  · exact fun x c s hx => ⟨hw.attached_iff hx, hw.detached_iff hx⟩
  · intro s x h g hh hg
    exact hw.handles.unshared h g (s, x) (World.refers_iff.mpr hh) (World.refers_iff.mpr hg)
  · rintro s x h ⟨o, hh, -, ho⟩
    obtain ⟨c, hc, -⟩ := hw.attached hh ho
    rw [hc]
    exact Option.some_ne_none c
  · intro h o x hh ho
    obtain ⟨howns, hlive⟩ := hw.owner hh ho
    exact ⟨hlive, fun g o' hg ho' => hw.owners.unshared g h x (hw.owner hg ho').1 howns⟩
  · intro op hop e he s hst
    exact hstatuses op hop e he _ hst (Context.wasNotAttached_code s)

end Attachments

/-- A promise that owns the context of a future is assigned the promise of another context. -/
def reassigning : List (Op Nat Nat Nat × List (Event Nat)) :=
  [(.construct 0 .promise 0, []), (.getOpposite 1 0 false, [.returned rtOkStatus]),
    (.newContext 1, []), (.getHandle 2 .promise 1 false, [.returned rtOkStatus]),
    (.moveAssign 0 2, [.detached rtOkStatus])]

/-- The promise that was moved from owns the first context then, to which no promise is
attached. -/
theorem attachments_accounted_reassigning : ∃ w : World Nat Nat Nat,
    Run (Step id fun _ => 0) World.init reassigning w ∧
      w.handles 2 = some ⟨.promise, none, some 0, true⟩ ∧
      (∀ h, ¬ w.AttachedTo .promise 0 h) ∧ (∃! h, w.AttachedTo .future 0 h) ∧
      ∃! h, w.AttachedTo .promise 1 h := by
  have hrun : ∃ w : World Nat Nat Nat, Run (Step id fun _ => 0) World.init reassigning w ∧
      w.handles 2 = some ⟨.promise, none, some 0, true⟩ ∧
      (∃ c, w.contexts 0 = some c ∧ c.attached .promise = false ∧ c.attached .future = true) ∧
      ∃ c, w.contexts 1 = some c ∧ c.attached .promise = true := by
    refine ⟨_, .cons rfl (.cons rfl (.cons rfl (.cons rfl (.single rfl)))), rfl, ?_, ?_⟩
    · exact ⟨_, rfl, rfl, rfl⟩
    · exact ⟨_, rfl, rfl⟩
  obtain ⟨w, hrun, hmoved, ⟨c, hc, hpromise, hfuture⟩, c', hc', hpromise'⟩ := hrun
  have haccounts := (attachments_accounted hrun).1
  exact ⟨w, hrun, hmoved, (haccounts 0 c _ hc).2.mp hpromise, (haccounts 0 c _ hc).1.mp hfuture,
    (haccounts 1 c' _ hc').1.mp hpromise'⟩

end Intrinsic.PromiseHandles
