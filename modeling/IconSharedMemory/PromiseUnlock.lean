import Mathlib.Logic.Relation
import IconSharedMemory.PromiseLocks

/-! # Unlocking the mutexes of a promise context

`LockableBinaryFutex::Unlock` (`icon/interprocess/lockable_binary_futex.h`) is not one atomic
operation: it looks whether the futex is held and then posts it, and it does not know who holds
it.  Here an `Unlock` is two steps, between which any other thread may move.  As the mutex that a
call is about to unlock is its own, nobody interferes, and the steps of this model are steps of
the one in which an `Unlock` is indivisible (`FineStep.coarse`).

Who has taken a mutex is read off the run (`Traced`): the thread whose step changed it from
unlocked to locked.  It turns out to be the one thread that is between its lock and its unlock.

The only calls that wait for a mutex are `Reset`s, and they take the mutexes in one order
(`Pc.rank`).
-/
namespace Intrinsic.Promise
open Runs

/-! ## `Unlock` in two steps -/

section Fine
variable {Tid α : Type}

/-- The error of an `Unlock` that finds the futex not held. -/
def notLocked : RealtimeStatus :=
  formatRealtimeStatus .failedPrecondition (ascii "Futex is not locked")

/-- The `Post` of an `Unlock`. -/
def Context.postLock (c : Context α) (k : Lock) : Context α :=
  { c with locks := Function.update c.locks k ⟨(c.locks k).futex.post.1⟩ }

/-- The mutex that the thread is about to unlock. -/
def Pc.unlocks : Pc α → Option Lock
  | .acquireUnlock s _ | .acquireUnlockFailed s => some s.getLock
  | .setUnlock _ _ | .setUnlockFailed _ _ => some .writeValue
  | .getUnlock _ | .getUnlockFailed _ => some .readValue
  | .cancelUnlock => some .cancel
  | .resetUnlock held _ => held.head?
  | _ => none

/-- **How a call goes on** after an `Unlock` of a mutex that returned the status `st`. -/
inductive Unlocked : Thread α → Lock → RealtimeStatus → Label α → Thread α → Prop
  | acquireUnlockFailed {th : Thread α} {st : RealtimeStatus} (s : Side)
      (hpc : th.pc = .acquireUnlockFailed s) :
      Unlocked th s.getLock st (.acquired s s.alreadyAttached) (th.goto .idle)
  | acquireUnlock {th : Thread α} {st : RealtimeStatus} (s : Side) (reusable : Bool)
      (hpc : th.pc = .acquireUnlock s reusable) (hst : st.isOk = true) :
      Unlocked th s.getLock st (.acquired s rtOkStatus)
        ((th.setHandle s ⟨true, reusable⟩).goto .idle)
  | acquireLeaked {th : Thread α} {st : RealtimeStatus} (s : Side) (reusable : Bool)
      (hpc : th.pc = .acquireUnlock s reusable) (hst : st.isOk = false) :
      Unlocked th s.getLock st (.acquired s st) (th.goto .idle)
  | setUnlockFailed {th : Thread α} {st : RealtimeStatus} (v : α) (error : RealtimeStatus)
      (hpc : th.pc = .setUnlockFailed v error) :
      Unlocked th .writeValue st (.setReturned v (overwriteIfNotError st error)) (th.goto .idle)
  | setNotUnlocked {th : Thread α} {st : RealtimeStatus} (v : α) (posted : RealtimeStatus)
      (hpc : th.pc = .setUnlock v posted) (hst : st.isOk = false) :
      Unlocked th .writeValue st (.setReturned v st) (th.goto .idle)
  | setUnlock {th : Thread α} {st : RealtimeStatus} (v : α) (posted : RealtimeStatus)
      (hpc : th.pc = .setUnlock v posted) (hst : st.isOk = true)
      (hreusable : (th.handle .promise).reusable = true) :
      Unlocked th .writeValue st (.setReturned v posted) (th.goto .idle)
  | setUnlockDetach {th : Thread α} {st : RealtimeStatus} (v : α) (posted : RealtimeStatus)
      (hpc : th.pc = .setUnlock v posted) (hst : st.isOk = true)
      (hreusable : (th.handle .promise).reusable = false) :
      Unlocked th .writeValue st .internal (th.goto (.detachExchange .promise (.set v posted)))
  | getUnlockFailed {th : Thread α} {st : RealtimeStatus} (error : RealtimeStatus)
      (hpc : th.pc = .getUnlockFailed error) :
      Unlocked th .readValue st (.getReturned (.error (overwriteIfNotError st error)))
        (th.goto .idle)
  | getNotUnlocked {th : Thread α} {st : RealtimeStatus} (v : α) (hpc : th.pc = .getUnlock v)
      (hst : st.isOk = false) :
      Unlocked th .readValue st (.getReturned (.error st)) (th.goto .idle)
  | getUnlock {th : Thread α} {st : RealtimeStatus} (v : α) (hpc : th.pc = .getUnlock v)
      (hst : st.isOk = true) (hreusable : (th.handle .future).reusable = true) :
      Unlocked th .readValue st (.getReturned (.ok v)) (th.goto .idle)
  | getUnlockDetach {th : Thread α} {st : RealtimeStatus} (v : α) (hpc : th.pc = .getUnlock v)
      (hst : st.isOk = true) (hreusable : (th.handle .future).reusable = false) :
      Unlocked th .readValue st .internal (th.goto (.detachExchange .future (.get v)))
  | cancelNotUnlocked {th : Thread α} {st : RealtimeStatus} (hpc : th.pc = .cancelUnlock)
      (hst : st.isOk = false) :
      Unlocked th .cancel st (.cancelReturned st) (th.goto .idle)
  | cancelUnlock {th : Thread α} {st : RealtimeStatus} (hpc : th.pc = .cancelUnlock)
      (hst : st.isOk = true) :
      Unlocked th .cancel st .internal (th.goto .cancelPost)
  -- the destructor of a `BinaryFutexLock` checks the status
  | resetUnlock {th : Thread α} {st : RealtimeStatus} (l k : Lock) (held : List Lock)
      (result : Status) (hpc : th.pc = .resetUnlock (l :: k :: held) result)
      (hcheck : st.isOk = true) :
      Unlocked th l st .internal (th.goto (.resetUnlock (k :: held) result))
  | resetReturn {th : Thread α} {st : RealtimeStatus} (l : Lock) (result : Status)
      (hpc : th.pc = .resetUnlock [l] result) (hcheck : st.isOk = true) :
      Unlocked th l st (.resetReturned result) (th.goto .idle)

/-- A thread, and what `IsHeld` returned to an `Unlock` that it has begun. -/
structure Caller (α : Type) where
  thread : Thread α
  checked : Option Bool

/-- **The atomic steps of one thread**, with an `Unlock` in two of them.  Looking at the futex
shows nothing to an observer. -/
inductive FineAtom (movedFrom : α → α) :
    Context α → Caller α → Option (Label α) → Context α → Caller α → Prop
  | other {c c' : Context α} {th th' : Thread α} {l : Label α} (hpc : th.pc.unlocks = none)
      (h : Atom movedFrom c th l c' th') :
      FineAtom movedFrom c ⟨th, none⟩ (some l) c' ⟨th', none⟩
  | isHeld {c : Context α} {th : Thread α} (k : Lock) (hpc : th.pc.unlocks = some k) :
      FineAtom movedFrom c ⟨th, none⟩ none c ⟨th, some (c.locks k).isHeld⟩
  | refused {c : Context α} {th th' : Thread α} {l : Label α} (k : Lock)
      (h : Unlocked th k notLocked l th') :
      FineAtom movedFrom c ⟨th, some false⟩ (some l) c ⟨th', none⟩
  | post {c : Context α} {th th' : Thread α} {l : Label α} (k : Lock)
      (h : Unlocked th k (c.locks k).futex.post.2 l th') :
      FineAtom movedFrom c ⟨th, some true⟩ (some l) (c.postLock k) ⟨th', none⟩

abbrev Callers (Tid α : Type) := Pool Tid (Context α) (Caller α)

/-- The threads without what they know about an `Unlock` in progress. -/
def coarse (c : Callers Tid α) : Config Tid α := ⟨c.shared, fun t => (c.locals t).thread⟩

variable [DecidableEq Tid]

/-- One step of the system; as in the model with indivisible `Unlock`s, a handle may change
hands. -/
inductive FineStep (movedFrom : α → α) :
    Callers Tid α → Tid × Option (Label α) → Callers Tid α → Prop
  | atom {c d : Callers Tid α} {x : Tid × Option (Label α)}
      (h : Pool.Step (FineAtom movedFrom) Pool.free c x d) : FineStep movedFrom c x d
  | move {c : Callers Tid α} {t : Tid} (u : Tid) (s : Side) (hne : u ≠ t)
      (ht : (c.locals t).thread.pc = .idle) (hu : (c.locals u).thread.pc = .idle)
      (hhere : ((c.locals u).thread.handle s).here = false) :
      FineStep movedFrom c (t, some (.moved s))
        ⟨c.shared, fun v => ⟨(moveHandle (coarse c) t u s).locals v, (c.locals v).checked⟩⟩

/-- The threads, and for each mutex the thread that has taken it. -/
structure Traced (Tid α : Type) where
  pool : Callers Tid α
  holder : Lock → Option Tid

/-- A step of `t` that locks a mutex takes it, and one that unlocks it gives it back. -/
def record (t : Tid) (c c' : Context α) (holder : Lock → Option Tid) (k : Lock) : Option Tid :=
  if c.locks k = .make ∧ c'.locks k ≠ .make then some t
  else if c.locks k ≠ .make ∧ c'.locks k = .make then none
  else holder k

def Traced.Step (movedFrom : α → α) (c : Traced Tid α) (x : Tid × Option (Label α))
    (d : Traced Tid α) : Prop :=
  FineStep movedFrom c.pool x d.pool ∧ d.holder = record x.1 c.pool.shared d.pool.shared c.holder

/-- A new context, of which no mutex has been taken. -/
def Traced.initial (slot : Nat → α) (o : Owner Tid) : Traced Tid α :=
  ⟨⟨(Promise.initial slot o).shared, fun t => ⟨(Promise.initial slot o).locals t, none⟩⟩,
    fun _ => none⟩

end Fine

/-! ## Nobody interferes -/

section Simulation
variable {Tid α : Type} {movedFrom : α → α} {c c' : Context α} {th th' : Thread α} {l : Label α}
  {x x' : Caller α} {k : Lock}

theorem Pc.unlocks_mem {pc : Pc α} (h : pc.unlocks = some k) : k ∈ pc.locks := by
  cases pc with
  | acquireUnlock | acquireUnlockFailed | setUnlock | setUnlockFailed | getUnlock
  | getUnlockFailed | cancelUnlock =>
    cases h
    exact List.mem_singleton.mpr rfl
  | resetUnlock held st => exact List.mem_of_mem_head? h
  | _ => cases h

theorem Unlocked.unlocks {st : RealtimeStatus} (h : Unlocked th k st l th') :
    th.pc.unlocks = some k := by
  cases h with
  | acquireUnlockFailed _ hpc | acquireUnlock _ _ hpc | acquireLeaked _ _ hpc
  | setUnlockFailed _ _ hpc | setNotUnlocked _ _ hpc | setUnlock _ _ hpc
  | setUnlockDetach _ _ hpc | getUnlockFailed _ hpc | getNotUnlocked _ hpc | getUnlock _ hpc
  | getUnlockDetach _ hpc | cancelNotUnlocked hpc | cancelUnlock hpc | resetUnlock _ _ _ _ hpc
  | resetReturn _ _ hpc =>
    rw [hpc]
    rfl

/-- An `Unlock` that nobody interferes with is one step. -/
theorem Unlocked.atom (h : Unlocked th k (c.unlockStatus k) l th') :
    Atom movedFrom c th l (c.unlock k) th' := by
  cases h with
  | acquireUnlockFailed s hpc => exact .acquireUnlockFailed s hpc
  | acquireUnlock s reusable hpc hst => exact .acquireUnlock s reusable hpc hst
  | acquireLeaked s reusable hpc hst => exact .acquireLeaked s reusable hpc hst
  | setUnlockFailed v error hpc => exact .setUnlockFailed v error hpc
  | setNotUnlocked v posted hpc hst => exact .setNotUnlocked v posted hpc hst
  | setUnlock v posted hpc hst hreusable => exact .setUnlock v posted hpc hst hreusable
  | setUnlockDetach v posted hpc hst hreusable => exact .setUnlockDetach v posted hpc hst hreusable
  | getUnlockFailed error hpc => exact .getUnlockFailed error hpc
  | getNotUnlocked v hpc hst => exact .getNotUnlocked v hpc hst
  | getUnlock v hpc hst hreusable => exact .getUnlock v hpc hst hreusable
  | getUnlockDetach v hpc hst hreusable => exact .getUnlockDetach v hpc hst hreusable
  | cancelNotUnlocked hpc hst => exact .cancelNotUnlocked hpc hst
  | cancelUnlock hpc hst => exact .cancelUnlock hpc hst
  | resetUnlock _ j held result hpc hcheck => exact .resetUnlock _ j held result hpc hcheck
  | resetReturn _ result hpc hcheck => exact .resetReturn _ result hpc hcheck

/-- The thread's mutexes are locked, and it has not seen anything else. -/
structure Caller.Sound (c : Context α) (x : Caller α) : Prop where
  locked : ∀ k ∈ x.thread.pc.locks, c.locks k = ⟨.ready⟩
  checked : x.checked ≠ some false

/-- **The second half of an `Unlock`** does what the whole would do. -/
theorem Caller.Sound.post (hx : x.Sound c) (hk : x.thread.pc.unlocks = some k) :
    c.unlockStatus k = (c.locks k).futex.post.2 ∧ c.unlock k = c.postLock k := by
  have hready := hx.locked k (Pc.unlocks_mem hk)
  unfold Context.unlockStatus Context.unlock Context.postLock
  rw [hready]
  exact ⟨rfl, rfl⟩

/-- A step is a step of the model with indivisible `Unlock`s, or the first half of an
`Unlock`. -/
theorem FineAtom.cases {l : Option (Label α)} (h : FineAtom movedFrom c x l c' x')
    (hx : x.Sound c) :
    (∃ l', l = some l' ∧ Atom movedFrom c x.thread l' c' x'.thread ∧ x'.checked = none) ∨
      l = none ∧ c' = c ∧ x'.thread = x.thread ∧ x'.checked = some true := by
  cases h with
  | other hpc h => exact .inl ⟨_, rfl, h, rfl⟩
  | isHeld k hpc =>
    have hready := hx.locked k (Pc.unlocks_mem hpc)
    exact .inr ⟨rfl, rfl, rfl, by rw [hready]; rfl⟩
  | refused k h => exact absurd rfl hx.checked
  | post k h =>
    obtain ⟨hst, hc⟩ := hx.post h.unlocks
    rw [← hst] at h
    exact .inl ⟨_, rfl, hc ▸ h.atom, rfl⟩

/-- **The two ownership facts** of the context, and no `Unlock` that found its mutex
unlocked. -/
structure FineInv (c : Callers Tid α) : Prop where
  inv : Inv (coarse c)
  checked : ∀ t, (c.locals t).checked ≠ some false

theorem FineInv.sound {c : Callers Tid α} (h : FineInv c) (t : Tid) :
    (c.locals t).Sound c.shared :=
  ⟨fun _ hk => h.inv.lock.held (c := coarse c) (t := t) hk, h.checked t⟩

variable [DecidableEq Tid]

/-- **Simulation**: an `Unlock` in two steps is an indivisible one and a step that shows
nothing. -/
theorem FineStep.coarse {c d : Callers Tid α} {t : Tid} {l : Option (Label α)} (h : FineInv c)
    (hs : FineStep movedFrom c (t, l) d) :
    (∃ l', l = some l' ∧ Step movedFrom Pool.free (coarse c) (t, l') (coarse d)) ∨
      l = none ∧ Promise.coarse d = Promise.coarse c := by
  cases hs with
  | atom hp =>
    cases hp with
    | @mk _ _ sh x' hok hatom =>
      have hlocals : (fun u => (Function.update c.locals t x' u).thread) =
          Function.update (fun u => (c.locals u).thread) t x'.thread := by
        funext u
        by_cases hu : u = t
        · rw [hu, Function.update_self, Function.update_self]
        · rw [Function.update_of_ne hu, Function.update_of_ne hu]
      unfold Promise.coarse
      dsimp only
      rw [hlocals]
      obtain ⟨l', rfl, hcoarse, -⟩ | ⟨rfl, rfl, hthread, -⟩ := hatom.cases (h.sound t)
      · exact .inl ⟨l', rfl, .atom (.mk trivial hcoarse)⟩
      · refine .inr ⟨rfl, ?_⟩
        rw [hthread, Function.update_eq_self]
  | move u s hne ht hu hhere => exact .inl ⟨_, rfl, .move u s trivial hne ht hu hhere⟩

theorem FineInv.step {c d : Callers Tid α} {t : Tid} {l : Option (Label α)} (h : FineInv c)
    (hs : FineStep movedFrom c (t, l) d) : FineInv d := by
  refine ⟨?_, ?_⟩
  · obtain ⟨l', -, hcoarse⟩ | ⟨-, hsame⟩ := hs.coarse h
    · exact inv_step h.inv hcoarse
    · exact hsame ▸ h.inv
  · cases hs with
    | atom hp =>
      cases hp with
      | mk hok hatom =>
        refine forall_update (fun x : Caller α => x.checked ≠ some false) ?_
          fun u _ => h.checked u
        obtain ⟨l', -, -, hnone⟩ | ⟨-, -, -, htrue⟩ := hatom.cases (h.sound t)
        · rw [hnone]
          exact nofun
        · rw [htrue]
          exact nofun
    | move u s => exact h.checked

theorem fineInv_initial (slot : Nat → α) (o : Owner Tid) :
    FineInv (Traced.initial slot o).pool :=
  ⟨⟨lockInv_initial slot o, attachInv_initial slot o⟩, fun _ => nofun⟩

end Simulation

/-! ## Who holds a mutex -/

section Discipline
variable {Tid α : Type} {movedFrom : α → α} {c d : Traced Tid α} {t u : Tid} {k : Lock}

def Traced.pc (c : Traced Tid α) (t : Tid) : Pc α := (c.pool.locals t).thread.pc

/-- The threads that are between their lock and their unlock of a mutex are those that have
taken it. -/
structure TracedInv (c : Traced Tid α) : Prop where
  fine : FineInv c.pool
  holder : ∀ k t, c.holder k = some t ↔ k ∈ (c.pc t).locks

theorem TracedInv.lock (h : TracedInv c) : LockInv (coarse c.pool) := h.fine.inv.lock

/-- A mutex is unlocked exactly if nobody has taken it. -/
theorem TracedInv.unlocked_iff (h : TracedInv c) :
    c.pool.shared.locks k = .make ↔ c.holder k = none := by
  constructor
  · intro hfree
    rw [Option.eq_none_iff_forall_ne_some]
    exact fun t ht => (h.lock.owned k).free_none hfree t ((h.holder k t).mp ht)
  · intro hnone
    by_contra hlocked
    obtain ⟨t, ht⟩ := (h.lock.owned k).held hlocked
    cases hnone.symm.trans ((h.holder k t).mpr ht)

variable [DecidableEq Tid]

omit [DecidableEq Tid] in
theorem record_of_same {c c' : Context α} {holder : Lock → Option Tid}
    (h : c'.locks k = c.locks k) : record t c c' holder k = holder k := by
  unfold record
  rw [h, if_neg fun hboth => hboth.2 hboth.1, if_neg fun hboth => hboth.1 hboth.2]

section Effect
variable {sh : Context α} {x : Caller α}

/-- A mutex that the step does not touch. -/
theorem TracedInv.unrecorded (h : TracedInv c) (hsame : sh.locks k = c.pool.shared.locks k)
    (hpc : k ∈ x.thread.pc.locks ↔ k ∈ (c.pc t).locks) (u : Tid) :
    record t c.pool.shared sh c.holder k = some u ↔
      k ∈ (Function.update c.pool.locals t x u).thread.pc.locks := by
  rw [record_of_same hsame, h.holder]
  by_cases hu : u = t
  · subst hu
    rw [Function.update_self, hpc]
  · rw [Function.update_of_ne hu]
    rfl

/-- The mutex that the thread takes. -/
theorem TracedInv.taken (h : TracedInv c) (hmake : c.pool.shared.locks k = .make)
    (hready : sh.locks k ≠ .make) (hmem : k ∈ x.thread.pc.locks) (u : Tid) :
    record t c.pool.shared sh c.holder k = some u ↔
      k ∈ (Function.update c.pool.locals t x u).thread.pc.locks := by
  rw [record, if_pos ⟨hmake, hready⟩, Option.some_inj]
  by_cases hu : u = t
  · subst hu
    rw [Function.update_self]
    exact iff_of_true rfl hmem
  · rw [Function.update_of_ne hu]
    exact iff_of_false (Ne.symm hu) ((h.lock.owned k).free_none hmake u)

/-- The mutex that the thread gives back, which was its own. -/
theorem TracedInv.released (h : TracedInv c) (hlocked : c.pool.shared.locks k ≠ .make)
    (hmake : sh.locks k = .make) (hmem : k ∈ (c.pc t).locks) (hnot : k ∉ x.thread.pc.locks)
    (u : Tid) :
    record t c.pool.shared sh c.holder k = some u ↔
      k ∈ (Function.update c.pool.locals t x u).thread.pc.locks := by
  rw [record, if_neg fun hboth => hlocked hboth.1, if_pos ⟨hlocked, hmake⟩]
  refine iff_of_false nofun ?_
  by_cases hu : u = t
  · subst hu
    rwa [Function.update_self]
  · rw [Function.update_of_ne hu]
    exact fun hmem' => hu (h.lock.exclusive (c := coarse c.pool) hmem' hmem)

/-- **What a step records**: who takes a mutex, and who gives back his own. -/
theorem TracedInv.effect (h : TracedInv c)
    (he : LockEffect c.pool.shared (c.pool.locals t).thread sh x.thread) (k : Lock) (u : Tid) :
    record t c.pool.shared sh c.holder k = some u ↔
      k ∈ (Function.update c.pool.locals t x u).thread.pc.locks := by
  cases he with
  | keep hlocks hpc =>
    refine h.unrecorded (congrFun hlocks k) ?_ u
    rw [hpc]
    rfl
  | take j hfree hlocks hpc =>
    by_cases hk : k = j
    · subst hk
      have hmake := canLock_iff.mp hfree
      refine h.taken hmake ?_ (by rw [hpc]; exact List.mem_cons_self) u
      rw [hlocks, Function.update_self, hmake]
      decide
    · refine h.unrecorded (by rw [hlocks, Function.update_of_ne hk]) ?_ u
      rw [hpc, List.mem_cons]
      exact or_iff_right hk
  | release j hlocks hpc =>
    by_cases hk : k = j
    · subst hk
      have hmem : k ∈ (c.pc t).locks := by
        rw [Traced.pc, hpc]
        exact List.mem_cons_self
      have hready : c.pool.shared.locks k = _ := h.lock.held (c := coarse c.pool) (t := t) hmem
      have hnodup := h.lock.nodup t
      rw [show ((coarse c.pool).locals t).pc.locks = _ from hpc, List.nodup_cons] at hnodup
      refine h.released (by rw [hready]; decide) ?_ hmem hnodup.1 u
      rw [hlocks, Function.update_self, hready]
      rfl
    · refine h.unrecorded (by rw [hlocks, Function.update_of_ne hk]) ?_ u
      rw [Traced.pc, hpc, List.mem_cons]
      exact (or_iff_right hk).symm

end Effect

theorem TracedInv.step {x : Tid × Option (Label α)} (h : TracedInv c)
    (hs : Traced.Step movedFrom c x d) : TracedInv d := by
  obtain ⟨t, l⟩ := x
  obtain ⟨hfine, hholder⟩ := hs
  refine ⟨h.fine.step hfine, fun k u => ?_⟩
  rw [hholder]
  unfold Traced.pc
  generalize d.pool = pool at hfine
  cases hfine with
  | atom hp =>
    cases hp with
    | mk hok hatom =>
      refine h.effect ?_ k u
      obtain ⟨l', -, hcoarse, -⟩ | ⟨-, hc, hthread, -⟩ := hatom.cases (h.fine.sound t)
      · exact hcoarse.lockEffect
      · exact .keep (by rw [hc]) (by rw [hthread])
  | move v s =>
    rw [record_of_same rfl, h.holder]
    dsimp only
    rw [moveHandle_pc]
    rfl

theorem tracedInv_run {slot : Nat → α} {o : Owner Tid} {w : List (Tid × Option (Label α))}
    (h : Run (Traced.Step movedFrom) (Traced.initial slot o) w c) : TracedInv c := by
  refine h.stateInvariant ⟨fineInv_initial slot o, fun k t => ?_⟩ fun _ _ _ hi hs => hi.step hs
  refine iff_of_false nofun ?_
  rw [show (Traced.initial slot o).pc t = _ from initial_pc slot o t]
  exact List.not_mem_nil

/-! ## Waiting -/

/-- Where a `Reset` is that waits for the mutex. -/
def Lock.rank : Lock → Nat
  | .getFuture => 0
  | .getPromise => 1
  | .cancel => 2
  | .readValue => 4
  | .writeValue => 5

/-- How far a `Reset` has got with its waits; any other call does not wait. -/
def Pc.rank : Pc α → Nat
  | .idle => 0
  | .resetLock l => l.rank
  | .resetLoad _ | .resetWait _ => 3
  | _ => 6

omit [DecidableEq Tid] in
/-- **`Reset` takes the mutexes in one order.** -/
theorem rank_of_mem {pc : Pc α} (h : k ∈ pc.locks) : k.rank < pc.rank := by
  have hlast : k.rank < 6 := by cases k <;> decide
  cases pc with
  | idle => exact absurd h List.not_mem_nil
  | resetLock l => cases l <;> cases k <;> simp_all [Pc.locks, Lock.heldBefore, Pc.rank, Lock.rank]
  | resetLoad s | resetWait s =>
    cases k <;> simp_all [Pc.locks, Lock.heldBefore, Pc.rank, Lock.rank]
  | _ => exact hlast

omit [DecidableEq Tid] in
theorem rank_of_uses {pc : Pc α} {s : Side} (h : pc.uses s = true) : pc.rank = 6 := by
  cases pc <;> first | rfl | cases h

/-- **The call of `t` waits for the call of `u`**: `t` is in a `Reset`, or about to begin one,
and needs a mutex that `u` has taken; or it waits for a handle to be detached that `u` uses.
The other calls only try to lock their mutexes. -/
def Waits (c : Traced Tid α) (t u : Tid) : Prop :=
  (∃ k, (c.pc t = .resetLock k ∨ c.pc t = .idle ∧ k = .getFuture) ∧ c.holder k = some u) ∨
    ∃ s, c.pc t = .resetWait s ∧ (c.pc u).uses s = true

omit [DecidableEq Tid] in
theorem Waits.rank (h : TracedInv c) (hw : Waits c t u) : (c.pc t).rank < (c.pc u).rank := by
  rcases hw with ⟨k, ht, hu⟩ | ⟨s, ht, hu⟩
  · have hlt := rank_of_mem ((h.holder k u).mp hu)
    rcases ht with ht | ⟨ht, rfl⟩
    · rw [ht]
      exact hlt
    · rw [ht]
      exact hlt
  · rw [ht, rank_of_uses hu]
    exact (by decide : 3 < 6)

omit [DecidableEq Tid] in
theorem waits_rank (h : TracedInv c) (hw : Relation.TransGen (Waits c) t u) :
    (c.pc t).rank < (c.pc u).rank := by
  induction hw with
  | single hw => exact hw.rank h
  | tail _ hw ih => exact Nat.lt_trans ih (hw.rank h)

/-- The other threads stay where they are. -/
theorem FineStep.others {c d : Callers Tid α} {l : Option (Label α)}
    (h : FineStep movedFrom c (t, l) d) (hu : u ≠ t) :
    (d.locals u).thread.pc = (c.locals u).thread.pc := by
  cases h with
  | atom hp => rw [hp.atomic.2.2 u hu]
  | move v s => exact moveHandle_pc (Promise.coarse c) t v s u

/-- Every run can be traced. -/
theorem Traced.exists_run {w : List (Tid × Option (Label α))} {pool : Callers Tid α}
    (h : Run (FineStep movedFrom) c.pool w pool) :
    ∃ d, Run (Traced.Step movedFrom) c w d ∧ d.pool = pool := by
  induction h with
  | nil => exact ⟨c, .nil, rfl⟩
  | @snoc w _ pool x _ hs ih =>
    obtain ⟨d, hrun, rfl⟩ := ih
    exact ⟨⟨pool, record x.1 d.pool.shared pool.shared d.holder⟩, hrun.snoc ⟨hs, rfl⟩, rfl⟩

/-- **The lock discipline of a promise context**, in every run of any number of threads.  A
mutex is locked exactly while a call has taken it, and the call is the only one between its lock
and its unlock, has not returned, and is the one that unlocks it.  So all mutexes are unlocked
when no call is in progress.  No `Unlock` finds its mutex unlocked, neither when it looks nor when
it posts, and the calls do not wait for each other in a circle. -/
theorem lock_discipline {slot : Nat → α} {o : Owner Tid} {w : List (Tid × Option (Label α))}
    (h : Run (Traced.Step movedFrom) (Traced.initial slot o) w c) :
    (∀ k, c.pool.shared.locks k = .make ↔ c.holder k = none) ∧
    (∀ k t, c.holder k = some t ↔ k ∈ (c.pc t).locks) ∧
    (∀ k t, c.holder k = some t → c.pc t ≠ .idle) ∧
    (∀ x d k, Traced.Step movedFrom c x d → c.pool.shared.locks k ≠ .make →
      d.pool.shared.locks k = .make → c.holder k = some x.1) ∧
    ((∀ t, c.pc t = .idle ∨ c.pc t = .destroyed) → ∀ k, c.pool.shared.locks k = .make) ∧
    (∀ t, (c.pool.locals t).checked ≠ some false) ∧
    (∀ t k, (c.pc t).unlocks = some k → (c.pool.shared.locks k).isHeld = true ∧
      (c.pool.shared.locks k).futex.post.2 = rtOkStatus) ∧
    ∀ t, ¬ Relation.TransGen (Waits c) t t := by
  have hinv := tracedInv_run h
  refine ⟨fun k => hinv.unlocked_iff, hinv.holder, ?_, ?_, ?_, hinv.fine.checked, ?_, ?_⟩
  · intro k t ht hidle
    rw [hinv.holder, hidle] at ht
    exact absurd ht List.not_mem_nil
  · rintro ⟨u, l⟩ d k hs hlocked hfree
    obtain ⟨t, ht⟩ := Option.ne_none_iff_exists'.mp (mt hinv.unlocked_iff.mpr hlocked)
    have hd := hinv.step hs
    rw [ht]
    by_contra hne
    have hpc : d.pc t = c.pc t := hs.1.others fun htu => hne (congrArg some htu)
    have hkept := (hd.holder k t).mpr (hpc ▸ (hinv.holder k t).mp ht)
    cases (hd.unlocked_iff.mp hfree).symm.trans hkept
  · intro hreturned k
    rw [hinv.unlocked_iff, Option.eq_none_iff_forall_ne_some]
    intro t ht
    rw [hinv.holder] at ht
    rcases hreturned t with hpc | hpc
    · rw [hpc] at ht
      exact absurd ht List.not_mem_nil
    · rw [hpc] at ht
      exact absurd ht List.not_mem_nil
  · intro t k hk
    have hready := (hinv.fine.sound t).locked k (Pc.unlocks_mem hk)
    rw [hready]
    exact ⟨rfl, rfl⟩
  · exact fun t hcycle => Nat.lt_irrefl _ (waits_rank hinv hcycle)

end Discipline

/-- Thread `false` gets the promise and is in the middle of its `Unlock`. -/
def gettingPromise : List (Bool × Option (Label Nat)) :=
  [(false, some .internal), (false, some .internal), (false, none)]

/-- It has the mutex, which the `Post` that follows will unlock. -/
theorem lock_discipline_gettingPromise : ∃ c : Traced Bool Nat,
    Run (Traced.Step id) (Traced.initial (fun _ => 0) .user) gettingPromise c ∧
      c.pc false = .acquireUnlock .promise false ∧ c.holder .getPromise = some false ∧
      (c.pool.shared.locks .getPromise).isHeld = true := by
  have hfine : ∃ pool : Callers Bool Nat,
      Run (FineStep id) (Traced.initial (fun _ => 0) .user).pool gettingPromise pool ∧
        (pool.locals false).thread.pc = .acquireUnlock .promise false := by
    refine ⟨_, .cons (.atom (.mk trivial (.other rfl (.acquireLock .promise false rfl rfl)))) <|
      .cons (.atom (.mk trivial (.other rfl (.acquireCasOk .promise false rfl rfl)))) <|
      .single (.atom (.mk trivial (.isHeld .getPromise rfl))), rfl⟩
  obtain ⟨pool, hfine, hpc⟩ := hfine
  obtain ⟨c, hrun, rfl⟩ := Traced.exists_run hfine
  have hpc : c.pc false = .acquireUnlock .promise false := hpc
  have hdiscipline := lock_discipline hrun
  refine ⟨c, hrun, hpc, (hdiscipline.2.1 _ _).mpr ?_, ?_⟩
  · rw [hpc]
    exact List.mem_singleton.mpr rfl
  · exact (hdiscipline.2.2.2.2.2.2.1 false .getPromise (by rw [hpc]; rfl)).1

end Intrinsic.Promise
