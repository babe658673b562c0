import IconSharedMemory.FutexCalls

/-! # Futexes as mutexes

`LockableBinaryFutex` (`icon/interprocess/lockable_binary_futex.h`) is a futex that is
constructed with a token: whoever takes the token has locked the mutex, and unlocking posts
it again.  `Unlock` is two operations on the futex, the load of `IsHeld` and the `Post`, and
other threads may move in between.  The mutex does not know who has locked it; that only a
thread that has locked a mutex unlocks it is the callers' promise (`Owner`), and
`BinaryFutexLock` keeps it.

The model has any number of threads and mutexes, over the code of the futexes: a thread that
finds a mutex locked sleeps in the kernel.  At most one thread is between the return of
its `Lock` or `TryLock` and its call of `Unlock`; an `Unlock` never fails; and a mutex that
nobody has locked has its token, which the destructor checks, and keeps nobody asleep
(`mutex_excludes`).
-/
namespace Intrinsic.LockableFutex
open Runs AtomicObjects

/-! ## The program -/

/-- Where a thread is. -/
inductive Pc (M : Type)
  | idle
  /-- `Unlock`: `IsHeld()` returned true. -/
  | unlockPost (m : M)
  deriving DecidableEq

/-- The mutexes a thread has locked, and its current call. -/
structure Thread (M : Type) where
  held : List M
  pc : Pc M

def Thread.init (M : Type) : Thread M := ⟨[], .idle⟩

/-- The calls of the futex. -/
inductive Call (M : Type)
  | lock (m : M)
  | tryLock (m : M)
  | isHeld (m : M)
  | unlockPost (m : M)
  deriving DecidableEq

/-- What the calls show. -/
inductive Label (M : Type)
  | locked (m : M) (st : RealtimeStatus)
  | tried (m : M) (locked : Bool)
  /-- `Unlock` has loaded the word; other words than 0 make it fail. -/
  | isHeld (m : M) (value : UInt32)
  | unlocked (m : M) (st : RealtimeStatus)

namespace Call
variable {M : Type}

def mutex : Call M → M
  | .lock m | .tryLock m | .isHeld m | .unlockPost m => m

def op : Call M → FutexCode.Op
  | .lock _ => .wait
  | .tryLock _ => .tryWait
  | .isHeld _ => .value
  | .unlockPost _ => .post

def pc : Call M → Pc M
  | .unlockPost m => .unlockPost m
  | _ => .idle

end Call

/-- `TryWait().value_or(false)` -/
def taken : FutexCode.Outcome → Bool
  | .result (.token t) => t.getD false
  | _ => false

/-- What `Value()` returned. -/
def loaded : FutexCode.Outcome → UInt32
  | .value v => v
  | _ => 0

section Program
variable {M : Type} [DecidableEq M]

/-- Where a thread goes on. -/
def Call.resume (r : FutexCode.Outcome) (th : Thread M) : Call M → Thread M
  | .lock m => if r.status.isOk then { th with held := m :: th.held } else th
  | .tryLock m => if taken r then { th with held := m :: th.held } else th
  | .isHeld m => if loaded r = FutexCode.kReady then { th with pc := .unlockPost m } else th
  | .unlockPost m => ⟨th.held.erase m, .idle⟩

/-- Only the `Post` of `Unlock` gives up a mutex. -/
theorem Call.mem_resume (k : Call M) (r : FutexCode.Outcome) {th : Thread M} {m : M}
    (h : m ∈ th.held) (hk : k ≠ .unlockPost m) : m ∈ (k.resume r th).held := by
  cases k with
  | lock m' | tryLock m' =>
    simp only [Call.resume]
    split
    · exact List.mem_cons_of_mem _ h
    · exact h
  | isHeld m' =>
    simp only [Call.resume]
    split <;> exact h
  | unlockPost m' =>
    have hne : m ≠ m' := by
      rintro rfl
      exact hk rfl
    exact (List.mem_erase_of_ne hne).mpr h

def Call.label (r : FutexCode.Outcome) : Call M → Label M
  | .lock m => .locked m r.status
  | .tryLock m => .tried m (taken r)
  | .isHeld m => .isHeld m (loaded r)
  | .unlockPost m => .unlocked m r.status

/-- **Threads that lock and unlock mutexes.**  All they do is call futexes. -/
def program (M : Type) [DecidableEq M] :
    Program Unit (Thread M) M FutexCode.Op FutexCode.Outcome (Call M) (Label M) where
  own _ _ _ _ _ := False
  calls th k := th.pc = k.pc
  object := Call.mutex
  op := Call.op
  resume k r th := k.resume r th
  label k r := k.label r

abbrev Config (Tid M : Type) :=
  CodePool Tid Unit (Thread M) M (Call M) (FutexCode.Shared Tid) FutexCode.Pc

abbrev CodeEvent (M : Type) := Event (Label M) (Call M) FutexCode.Access

/-- Every mutex is constructed with a token. -/
def initial (Tid M : Type) : Config Tid M where
  shared := ((), fun _ => ⟨FutexCode.word (.make true), []⟩)
  locals := fun _ => ⟨.init M, none⟩

/-- **The callers' promise**: only a thread that has locked a mutex calls its `Unlock`. -/
def Owner {Tid : Type} (c : Config Tid M) (t : Tid) : CodeEvent M → Prop
  | .object (.isHeld m) _ => m ∈ (c.locals t).here.held
  | _ => True

end Program

/-! ## Over one-step futexes -/

section OneStep
variable {Tid M : Type} [DecidableEq Tid] [DecidableEq M]

/-- The mutexes and threads over one-step futexes. -/
abbrev OneStep (Tid M : Type) := Pool Tid (Unit × (M → BinaryFutex)) (Thread M)

/-- The promise, over one-step futexes. -/
def Owner' (d : OneStep Tid M) (t : Tid) : Label M → Prop
  | .isHeld m _ => m ∈ (d.locals t).held
  | _ => True

/-- An `Unlock` does not fail. -/
def Label.Fine : Label M → Prop
  | .isHeld _ v => v = FutexCode.kReady
  | .unlocked _ st => st.isOk = true
  | _ => True

/-- **The invariant of the mutexes**: the token is in the futex, or one thread has it. -/
structure Inv (d : OneStep Tid M) : Prop where
  notClosed : ∀ m, d.shared.2 m ≠ .closed
  owned : ∀ m, Owned (d.shared.2 m = .posted) (fun th : Thread M => m ∈ th.held) d.locals
  nodup : ∀ t, (d.locals t).held.Nodup
  unlocking : ∀ t m, (d.locals t).pc = .unlockPost m → m ∈ (d.locals t).held

variable {d : OneStep Tid M} {t : Tid} {m : M}

/-- A step of thread `t` on the futex of the mutex `m`. -/
theorem Inv.change (h : Inv d) {th : Thread M} {f : BinaryFutex} (hf : f ≠ .closed)
    (howned : Owned (f = .posted) (fun th : Thread M => m ∈ th.held)
      (Function.update d.locals t th))
    (hother : ∀ m', m' ≠ m → (m' ∈ th.held ↔ m' ∈ (d.locals t).held)) (hnodup : th.held.Nodup)
    (hpc : ∀ m, th.pc = .unlockPost m → m ∈ th.held) :
    Inv ⟨(d.shared.1, Function.update d.shared.2 m f), Function.update d.locals t th⟩ where
  notClosed := (Function.forall_update_iff d.shared.2 fun _ f => f ≠ .closed).mpr
    ⟨hf, fun m' _ => h.notClosed m'⟩
  owned m' := by
    dsimp only
    by_cases hm : m' = m
    · subst hm
      rwa [Function.update_self]
    · rw [Function.update_of_ne hm]
      exact (h.owned m').frame Iff.rfl (hother m' hm)
  nodup := forall_update (fun th : Thread M => th.held.Nodup) hnodup fun u _ => h.nodup u
  unlocking := forall_update (fun th : Thread M => ∀ m, th.pc = .unlockPost m → m ∈ th.held) hpc
    fun u _ => h.unlocking u

/-- A step that takes no token and posts none. -/
theorem Inv.keep (h : Inv d) {th : Thread M} (hheld : th.held = (d.locals t).held)
    (hpc : ∀ m, th.pc = .unlockPost m → m ∈ th.held) :
    Inv ⟨(d.shared.1, Function.update d.shared.2 m (d.shared.2 m)),
      Function.update d.locals t th⟩ :=
  h.change (h.notClosed m) ((h.owned m).frame Iff.rfl (by rw [hheld])) (fun _ _ => by rw [hheld])
    (hheld ▸ h.nodup t) hpc

/-- A thread takes the token of a mutex. -/
theorem Inv.acquire (h : Inv d) (hposted : d.shared.2 m = .posted)
    (hpc : (d.locals t).pc = .idle) :
    Inv ⟨(d.shared.1, Function.update d.shared.2 m .ready),
      Function.update d.locals t { d.locals t with held := m :: (d.locals t).held }⟩ := by
  have hnot : m ∉ (d.locals t).held := (h.owned m).free_none hposted t
  refine h.change nofun ((h.owned m).acquire hposted nofun (List.mem_cons_self ..))
    (fun m' hm => by simp [hm]) (List.nodup_cons.mpr ⟨hnot, h.nodup t⟩) fun m' hm' => ?_
  cases hpc.symm.trans hm'

/-- The thread that has the token of a mutex posts it. -/
theorem Inv.release (h : Inv d) (hheld : m ∈ (d.locals t).held) :
    Inv ⟨(d.shared.1, Function.update d.shared.2 m .posted),
      Function.update d.locals t ⟨(d.locals t).held.erase m, .idle⟩⟩ :=
  h.change nofun ((h.owned m).release hheld rfl (h.nodup t).not_mem_erase)
    (fun _ hm => List.mem_erase_of_ne hm) ((h.nodup t).erase m) nofun

omit [DecidableEq Tid] [DecidableEq M] in
/-- A mutex that somebody has locked has no token. -/
theorem Inv.ready_of_held (h : Inv d) (hheld : m ∈ (d.locals t).held) : d.shared.2 m = .ready := by
  cases hf : d.shared.2 m with
  | ready => rfl
  | posted => exact absurd hf ((h.owned m).not_free hheld)
  | closed => exact absurd hf (h.notClosed m)

omit [DecidableEq Tid] [DecidableEq M] in
/-- A mutex that nobody has locked has its token. -/
theorem Inv.posted_of_not_held (h : Inv d) (hheld : ∀ t, m ∉ (d.locals t).held) :
    d.shared.2 m = .posted := by
  by_contra hnot
  obtain ⟨t, ht⟩ := (h.owned m).held hnot
  exact hheld t ht

/-- What a call leaves behind that has set the futex of `m` to `f` and returned `r`. -/
def after (d : OneStep Tid M) (t : Tid) (k : Call M) (f : BinaryFutex) (r : FutexCode.Outcome) :
    OneStep Tid M :=
  ⟨(d.shared.1, Function.update d.shared.2 k.mutex f),
    Function.update d.locals t (k.resume r (d.locals t))⟩

variable {f : BinaryFutex}

theorem Inv.lock {st : RealtimeStatus} (h : Inv d) (hpc : (d.locals t).pc = .idle)
    (hwait : (d.shared.2 m).Wait f st) : Inv (after d t (.lock m) f (.result (.status st))) := by
  by_cases hst : st.isOk = true
  · obtain ⟨hposted, rfl⟩ := hwait.ok hst
    simp only [after, Call.resume, FutexCode.Outcome.status, hst, if_true]
    exact h.acquire hposted hpc
  · obtain rfl := hwait.notOk (Bool.eq_false_iff.mpr hst)
    simp only [after, Call.resume, FutexCode.Outcome.status, hst]
    exact h.keep rfl (h.unlocking t)

theorem Inv.tryLock {token : Option Bool} (h : Inv d) (hpc : (d.locals t).pc = .idle)
    (htry : (d.shared.2 m).tryWait = (f, token)) :
    Inv (after d t (.tryLock m) f (.result (.token token))) := by
  cases hf : d.shared.2 m with
  | ready =>
    rw [hf] at htry
    obtain ⟨rfl, rfl⟩ := Prod.mk.inj htry
    have hkeep := h.keep (t := t) (m := m) rfl (h.unlocking t)
    rwa [hf] at hkeep
  | posted =>
    rw [hf] at htry
    obtain ⟨rfl, rfl⟩ := Prod.mk.inj htry
    exact h.acquire hf hpc
  | closed => exact absurd hf (h.notClosed m)

/-- `Unlock` finds the mutex locked. -/
theorem Inv.isHeld (h : Inv d) (hheld : m ∈ (d.locals t).held) :
    FutexCode.word (d.shared.2 m) = FutexCode.kReady ∧
      Inv (after d t (.isHeld m) (d.shared.2 m) (.value (FutexCode.word (d.shared.2 m)))) := by
  have hload : FutexCode.word (d.shared.2 m) = FutexCode.kReady := by
    rw [h.ready_of_held hheld]
    rfl
  refine ⟨hload, ?_⟩
  simp only [after, Call.resume, loaded, hload, if_true]
  refine h.keep rfl ?_
  rintro _ ⟨⟩
  exact hheld

theorem Inv.unlockPost {st : RealtimeStatus} (h : Inv d)
    (hpc : (d.locals t).pc = .unlockPost m) (hpost : (d.shared.2 m).post = (f, st)) :
    st = rtOkStatus ∧ Inv (after d t (.unlockPost m) f (.result (.status st))) := by
  have hheld := h.unlocking t m hpc
  rw [h.ready_of_held hheld] at hpost
  obtain ⟨rfl, rfl⟩ := Prod.mk.inj hpost
  exact ⟨rfl, h.release hheld⟩

/-- **Every call keeps the invariant, and no `Unlock` fails.** -/
theorem Inv.atom (h : Inv d) {l : Label M} {y : Unit × (M → BinaryFutex)} {before th : Thread M}
    (hbefore : d.locals t = before) (hok : Owner' d t l)
    (hatom : (program M).Atom FutexCode.spec d.shared before l y th) :
    Inv ⟨y, Function.update d.locals t th⟩ ∧ l.Fine := by
  obtain ⟨s, locals⟩ := d
  subst hbefore
  cases hatom with
  | own hown => exact hown.elim
  | @call _ _ _ k f r hpc hspec =>
    cases k with
    | lock m =>
      obtain ⟨st, rfl, hwait⟩ := hspec
      exact ⟨h.lock hpc hwait, trivial⟩
    | tryLock m =>
      obtain ⟨token, rfl, htry⟩ := hspec
      exact ⟨h.tryLock hpc htry, trivial⟩
    | isHeld m =>
      obtain ⟨rfl, rfl⟩ := hspec
      exact (h.isHeld hok).symm
    | unlockPost m =>
      obtain ⟨st, rfl, hpost⟩ := hspec
      obtain ⟨rfl, hinv⟩ := h.unlockPost hpc hpost
      exact ⟨hinv, rfl⟩

def oneStep (Tid M : Type) : OneStep Tid M := ⟨((), fun _ => .make true), fun _ => .init M⟩

omit [DecidableEq Tid] [DecidableEq M] in
theorem inv_initial : Inv (oneStep Tid M) where
  notClosed _ := nofun
  owned _ :=
    ⟨fun _ _ => List.not_mem_nil, absurd rfl, fun _ _ h => absurd h List.not_mem_nil⟩
  nodup _ := List.nodup_nil
  unlocking _ _ h := by cases h

/-- The invariant along every run. -/
theorem inv_run {v : List (Tid × Label M)}
    (h : Run (Pool.Step ((program M).Atom FutexCode.spec) Owner') (oneStep Tid M) v d) :
    Inv d ∧ ∀ x ∈ v, x.2.Fine := by
  refine h.invariant (I := fun v d => Inv d ∧ ∀ x ∈ v, Label.Fine x.2)
    ⟨inv_initial, fun _ hx => absurd hx List.not_mem_nil⟩ ?_
  rintro v d ⟨t, l⟩ d' ⟨hinv, hfine⟩ hstep
  cases hstep with
  | mk hok hatom =>
    obtain ⟨hinv', hl⟩ := hinv.atom rfl hok hatom
    refine ⟨hinv', fun x hx => ?_⟩
    rcases List.mem_append.mp hx with hx | hx
    · exact hfine x hx
    · rw [List.mem_singleton.mp hx]
      exact hl

end OneStep

/-! ## Over the code of the futexes -/

section Code
variable {Tid M : Type} [DecidableEq Tid] [DecidableEq M] {c : Config Tid M} {d : OneStep Tid M}
  {t : Tid} {w : List (Tid × CodeEvent M)}

/-- **One step of a thread.** -/
abbrev Step : Config Tid M → Tid × CodeEvent M → Config Tid M → Prop :=
  (program M).Step (FutexCode.implementation Tid) Owner

/-- What is seen of a step over one-step futexes. -/
def shown (x : Tid × CodeEvent M) : Option (Tid × Label M) :=
  (FutexCode.linearization Tid).shown (program M) x

/-- The thread is between the return of its `Lock` or `TryLock` and the `Post` of its
`Unlock`. -/
def Inside (c : Config Tid M) (m : M) (t : Tid) : Prop :=
  m ∈ (c.locals t).here.held ∧ (c.locals t).here.pc ≠ .unlockPost m

/-- The thread is between two calls of mutexes, or it sleeps in a `Lock`. -/
def Rests (c : Config Tid M) (t : Tid) : Prop :=
  FutexCode.AtRest (program M) c t ∧ ((c.locals t).inside = none → (c.locals t).here.pc = .idle)

theorem related_initial :
    (FutexCode.linearization Tid).Related (program M) (initial Tid M) (oneStep Tid M) where
  own := rfl
  value _ := rfl
  locals _ := rfl
  sound _ := nofun

/-- The promise is kept over one-step futexes. -/
theorem owner_shown {e : CodeEvent M} {l : Label M} {y : Unit × (M → FutexCode.Shared Tid)}
    {x : Frame (Thread M) (Call M) FutexCode.Pc}
    (hrel : (FutexCode.linearization Tid).Related (program M) c d) (hok : Owner c t e)
    (hatom : (program M).CodeAtom (FutexCode.implementation Tid) t c.shared (c.locals t) e y x)
    (hshows : (FutexCode.linearization Tid).shows (program M) e = some l) : Owner' d t l := by
  have hplace := hrel.locals t
  obtain ⟨s, locals⟩ := c
  dsimp only at hatom hplace
  generalize hf : locals t = f at hatom hplace
  cases hatom with
  | own hown => exact hown.elim
  | invoke _ => cases hshows
  | @object _ objs th k i i' a z _ hop hatom hlands =>
    obtain ⟨r, -, rfl⟩ := Option.map_eq_some_iff.mp hshows
    cases k with
    | isHeld m =>
      -- `Value()` is one load, so the thread is at the beginning of the call
      cases hatom with
      | code hcode => cases hcode <;> cases hop
      | value =>
        have hheld : m ∈ (locals t).here.held := hok
        rw [hf] at hheld
        show m ∈ (d.locals t).held
        rw [hplace]
        exact hheld
    | _ => trivial

/-- A thread that is inside over the code is inside over one-step futexes. -/
theorem held_of_inside {m : M}
    (hrel : (FutexCode.linearization Tid).Related (program M) c d) (h : Inside c m t) :
    m ∈ (d.locals t).held := by
  have hsound := hrel.sound t
  obtain ⟨hheld, hpc⟩ := h
  rw [hrel.locals t]
  generalize c.locals t = f at hsound hheld hpc
  obtain ⟨th, _ | ⟨k, i⟩⟩ := f
  · exact hheld
  · have hat : th.pc = k.pc := hsound k i rfl
    cases hset : FutexCode.settled i with
    | none =>
      rw [Linearization.place_of_open hset]
      exact hheld
    | some r =>
      rw [Linearization.place_of_settled hset]
      refine k.mem_resume r hheld ?_
      rintro rfl
      exact hpc hat

/-- **A mutex.**  Whatever any number of threads do with any number of mutexes:
* at most one thread is inside a mutex;
* no `Unlock` by a thread that has locked the mutex fails;
* when every thread is between two calls or asleep in a `Lock`, a mutex that nobody has
  locked has its token, and nobody sleeps on it. -/
theorem mutex_excludes (h : Run Step (initial Tid M) w c) :
    (∀ m t u, Inside c m t → Inside c m u → t = u) ∧
      (∀ x ∈ w.filterMap shown, x.2.Fine) ∧
      ∀ m, (∀ t, Rests c t) → (∀ t, m ∉ (c.locals t).here.held) →
        (c.shared.2 m).val = FutexCode.kPosted ∧ ∀ t, ¬ FutexCode.Asleep c m t := by
  obtain ⟨d, hrel, hrun⟩ := (FutexCode.linearization Tid).refines
    (fun _ _ _ _ _ _ _ => owner_shown) related_initial h
  obtain ⟨hinv, hfine⟩ := inv_run hrun
  refine ⟨fun m t u ht hu => ?_, hfine, fun m hrest hfree => ?_⟩
  · exact (hinv.owned m).unique t u (held_of_inside hrel ht) (held_of_inside hrel hu)
  · have hnot : ∀ t, m ∉ (d.locals t).held := by
      intro t
      rw [hrel.locals t, (hrest t).1.place]
      exact hfree t
    have hval : (c.shared.2 m).val = FutexCode.kPosted :=
      (hrel.value m).trans (congrArg FutexCode.word (hinv.posted_of_not_held hnot))
    have hinitial : alone (program M) (FutexCode.implementation Tid) m (initial Tid M) =
        FutexCode.initial Tid true := rfl
    refine ⟨hval, FutexCode.nobody_sleeps hinitial h (fun t => (hrest t).1) ?_⟩
    rw [hval]
    decide

/-- Thread `true` sleeps until thread `false` has unlocked the mutex, locks it and unlocks
it. -/
theorem mutex_excludes_handover :
    ∃ (w : List (Bool × CodeEvent Unit)) (c : Config Bool Unit),
      Run Step (initial Bool Unit) w c ∧
        w.filterMap shown = [(false, .locked () rtOkStatus), (false, .isHeld () 0),
          (false, .unlocked () rtOkStatus), (true, .locked () rtOkStatus), (true, .isHeld () 0),
          (true, .unlocked () rtOkStatus)] ∧
        (∀ x ∈ w.filterMap shown, x.2.Fine) ∧
        (c.shared.2 ()).val = FutexCode.kPosted ∧ ∀ t, ¬ FutexCode.Asleep c () t := by
  have h : ∃ c : Config Bool Unit, Run Step (initial Bool Unit)
      [(false, .invoke (.lock ())), (false, .object (.lock ()) (.code .waitTaken)),
        (true, .invoke (.lock ())), (true, .object (.lock ()) (.code .waitReady)),
        (true, .object (.lock ()) (.code .futexSleep)), (false, .invoke (.isHeld ())),
        (false, .object (.isHeld ()) (.value 0)), (false, .invoke (.unlockPost ())),
        (false, .object (.unlockPost ()) (.code .postEdge)),
        (false, .object (.unlockPost ()) (.code .postWake)),
        (true, .object (.lock ()) (.code .futexReturned)),
        (true, .object (.lock ()) (.code .waitTaken)), (true, .invoke (.isHeld ())),
        (true, .object (.isHeld ()) (.value 0)), (true, .invoke (.unlockPost ())),
        (true, .object (.unlockPost ()) (.code .postEdge)),
        (true, .object (.unlockPost ()) (.code .postWake))] c ∧
      ∀ t, c.locals t = ⟨.init Unit, none⟩ := by
    refine ⟨_,
      .cons (.mk trivial (.invoke rfl)) <|
      .cons (.mk trivial (.object rfl (.code (.waitTaken trivial rfl)) (.back rfl rfl))) <|
      .cons (.mk trivial (.invoke rfl)) <|
      .cons (.mk trivial (.object rfl (.code (.waitReady trivial rfl)) (.inside nofun))) <|
      .cons (.mk trivial (.object rfl (.code (.futexSleep rfl)) (.inside nofun))) <|
      .cons (.mk trivial (.invoke rfl)) <|
      .cons (.mk (List.mem_cons_self ..) (.object rfl .value (.back rfl rfl))) <|
      .cons (.mk trivial (.invoke rfl)) <|
      .cons (.mk trivial (.object rfl (.code (.postEdge rfl)) (.inside nofun))) <|
      .cons (.mk trivial (.object rfl (.code (.postWake true (List.mem_cons_self ..)))
        (.back rfl rfl))) <|
      .cons (.mk trivial (.object rfl (.code (.futexReturned nofun)) (.inside nofun))) <|
      .cons (.mk trivial (.object rfl (.code (.waitTaken trivial rfl)) (.back rfl rfl))) <|
      .cons (.mk trivial (.invoke rfl)) <|
      .cons (.mk (List.mem_cons_self ..) (.object rfl .value (.back rfl rfl))) <|
      .cons (.mk trivial (.invoke rfl)) <|
      .cons (.mk trivial (.object rfl (.code (.postEdge rfl)) (.inside nofun))) <|
      .single (.mk trivial (.object rfl (.code (.postWakeNobody rfl)) (.back rfl rfl))), ?_⟩
    intro t
    cases t <;> rfl
  obtain ⟨c, hrun, hlocals⟩ := h
  obtain ⟨-, hfine, hfree⟩ := mutex_excludes hrun
  have hrest : ∀ t, Rests c t := by
    intro t
    unfold Rests FutexCode.AtRest
    rw [hlocals t]
    exact ⟨.inl rfl, fun _ => rfl⟩
  have hnone : ∀ t, () ∉ (c.locals t).here.held := by
    intro t
    rw [hlocals t]
    exact List.not_mem_nil
  exact ⟨_, c, hrun, rfl, hfine, hfree () hrest hnone⟩

end Code

end Intrinsic.LockableFutex
