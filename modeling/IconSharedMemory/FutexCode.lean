import IconSharedMemory.Runs
import IconSharedMemory.Futex

/-! # The code of `BinaryFutex`

`Futex.lean` treats each operation of a futex as one step.  Here is the code that
implements them (`icon/interprocess/binary_futex.cc`): compare-exchanges of a 32-bit
word, and the system calls that put threads to sleep and wake them up.  The model is
the pool of all threads that use one futex, with the kernel's wait queue in the
shared memory.

Of the kernel only this is assumed.  `FUTEX_WAIT` compares the word with `kReady` and
enqueues the thread in one step.  A sleeping thread may be interrupted, be woken for
no reason, or time out, at any moment.  `FUTEX_WAKE` takes off the queue as many
threads as it is asked to, or all if there are fewer; a thread that was taken off
returns from the system call as woken.  `Close` asks for `INT_MAX` threads, which is
more than a system can have: all of them.

Two results.  Every step does to the word what the one-step operation of `Futex.lean`
does (`Atom.refines`).  And the futex is a closable binary semaphore that loses no
wake-up (`binary_semaphore`).
-/
namespace Intrinsic.FutexCode
open Runs

/-! ## The word -/

def kReady : UInt32 := 0
def kPosted : UInt32 := 1
def kClosed : UInt32 := 2

/-- The word of a futex. -/
def word : BinaryFutex → UInt32
  | .ready => kReady
  | .posted => kPosted
  | .closed => kClosed

/-- The word and the threads that sleep on it. -/
structure Shared (Tid : Type) where
  val : UInt32
  queue : List Tid

/-- Where a thread is in its current call. -/
inductive Pc
  | idle
  /-- `Wait`: `TryWait` saw `kReady`, the system call is next. -/
  | futexWait
  /-- In the kernel: asleep while on the queue, about to return once taken off it. -/
  | inKernel
  /-- `Wait`: woken, about to retry. -/
  | woken
  /-- `Wait`: the system call returned at once, about to retry. -/
  | again
  /-- `Post`: the word was changed, the wake-up is next. -/
  | postWake
  /-- `Close`: the word was changed, the wake-up is next. -/
  | closeWake
  deriving DecidableEq, Repr

/-- The next step of a `Wait` is its `TryWait`: at its beginning, or after the system
call. -/
def Pc.tries : Pc → Prop
  | .idle | .woken | .again => True
  | _ => False

theorem Pc.tries.outside {pc : Pc} (h : pc.tries) :
    pc ≠ .inKernel ∧ pc ≠ .postWake ∧ pc ≠ .closeWake := by
  cases pc <;> first | exact h.elim | decide

/-- The atomic steps, by the call they belong to and by the way they went. -/
inductive Label
  | waitTaken
  | waitReady
  | waitClosed
  | waitUnexpected (value : UInt32)
  | waitClockFailed (error : List UInt8)
  | futexSleep
  | futexAgain
  | futexTimedOut (ms : Nat)
  | futexInterrupted
  | futexFailed (error : List UInt8)
  | futexReturned
  | tryTaken
  | tryReady
  | tryClosed
  | postEdge
  | postNoop
  | postClosed
  | postWake
  | close (old : UInt32)
  | closeWake
  deriving DecidableEq, Repr

/-- What a call returns: a status, or the `std::optional<bool>` of `TryWait`. -/
inductive Result
  | status (st : RealtimeStatus)
  | token (taken : Option Bool)
  deriving DecidableEq, Repr

/-- What the step returns to the caller, if it ends a call that returns something. -/
def Label.returns : Label → Option Result
  | .waitTaken => some (.status rtOkStatus)
  | .waitClosed => some (.status (formatRealtimeStatus .aborted
      (ascii "BinaryFutex is closed, aborting Wait()")))
  | .waitUnexpected value => some (.status (formatRealtimeStatus .internal
      (ascii "BinaryFutex took unexpected value: " ++ ascii (toString value.toNat))))
  | .waitClockFailed error => some (.status (formatRealtimeStatus .internal
      (ascii "clock_gettime failed with error: " ++ error)))
  | .futexTimedOut ms => some (.status (formatRealtimeStatus .deadlineExceeded
      (ascii "Timeout after " ++ ascii (toString ms) ++ ascii " ms")))
  | .futexFailed error => some (.status (formatRealtimeStatus .internal
      (ascii "Futex wait failed with error: " ++ error)))
  | .tryTaken => some (.token (some true))
  | .tryReady => some (.token (some false))
  | .tryClosed => some (.token none)
  | .postNoop => some (.status rtOkStatus)
  | .postClosed => some (.status (formatRealtimeStatus .aborted
      (ascii "BinaryFutex is closed, aborting Post()")))
  | .postWake => some (.status rtOkStatus)
  | _ => none

section Atom
variable {Tid : Type} [DecidableEq Tid]

/-- One atomic step of thread `t`, which is at `pc`. -/
inductive Atom (t : Tid) : Shared Tid → Pc → Label → Shared Tid → Pc → Prop
  -- `Wait`: the compare-exchange of `TryWait`, and what is done with the value it saw
  | waitTaken {s : Shared Tid} {pc : Pc} (hpc : pc.tries) (hv : s.val = kPosted) :
      Atom t s pc .waitTaken { s with val := kReady } .idle
  | waitReady {s : Shared Tid} {pc : Pc} (hpc : pc.tries) (hv : s.val = kReady) :
      Atom t s pc .waitReady s .futexWait
  | waitClosed {s : Shared Tid} {pc : Pc} (hpc : pc.tries) (hv : s.val = kClosed) :
      Atom t s pc .waitClosed s .idle
  | waitUnexpected {s : Shared Tid} {pc : Pc} (hpc : pc.tries)
      (hv : s.val ≠ kReady ∧ s.val ≠ kPosted ∧ s.val ≠ kClosed) :
      Atom t s pc (.waitUnexpected s.val) s .idle
  -- `WaitUntil` reads the clock before it calls `Wait`
  | waitClockFailed {s : Shared Tid} (error : List UInt8) :
      Atom t s .idle (.waitClockFailed error) s .idle
  -- the system call
  | futexSleep {s : Shared Tid} (hv : s.val = kReady) :
      Atom t s .futexWait .futexSleep { s with queue := t :: s.queue } .inKernel
  | futexAgain {s : Shared Tid} (hv : s.val ≠ kReady) :
      Atom t s .futexWait .futexAgain s .again
  | futexTimedOutAtOnce {s : Shared Tid} (ms : Nat) :
      Atom t s .futexWait (.futexTimedOut ms) s .idle
  | futexTimedOut {s : Shared Tid} (ms : Nat) (hq : t ∈ s.queue) :
      Atom t s .inKernel (.futexTimedOut ms) { s with queue := s.queue.erase t } .idle
  | futexInterruptedAtOnce {s : Shared Tid} :
      Atom t s .futexWait .futexInterrupted s .again
  -- `EINTR`, or a return without a reason
  | futexInterrupted {s : Shared Tid} (hq : t ∈ s.queue) :
      Atom t s .inKernel .futexInterrupted { s with queue := s.queue.erase t } .woken
  | futexFailed {s : Shared Tid} (error : List UInt8) :
      Atom t s .futexWait (.futexFailed error) s .idle
  | futexReturned {s : Shared Tid} (hq : t ∉ s.queue) :
      Atom t s .inKernel .futexReturned s .woken
  -- `TryWait`: every value but the first two counts as closed
  | tryTaken {s : Shared Tid} (hv : s.val = kPosted) :
      Atom t s .idle .tryTaken { s with val := kReady } .idle
  | tryReady {s : Shared Tid} (hv : s.val = kReady) : Atom t s .idle .tryReady s .idle
  | tryClosed {s : Shared Tid} (hv : s.val ≠ kReady ∧ s.val ≠ kPosted) :
      Atom t s .idle .tryClosed s .idle
  -- `Post`: wakes up one thread, and only when it changed the word
  | postEdge {s : Shared Tid} (hv : s.val = kReady) :
      Atom t s .idle .postEdge { s with val := kPosted } .postWake
  | postNoop {s : Shared Tid} (hv : s.val ≠ kReady ∧ s.val ≠ kClosed) :
      Atom t s .idle .postNoop s .idle
  | postClosed {s : Shared Tid} (hv : s.val = kClosed) : Atom t s .idle .postClosed s .idle
  | postWakeNobody {s : Shared Tid} (hq : s.queue = []) : Atom t s .postWake .postWake s .idle
  | postWake {s : Shared Tid} (u : Tid) (hq : u ∈ s.queue) :
      Atom t s .postWake .postWake { s with queue := s.queue.erase u } .idle
  | close {s : Shared Tid} :
      Atom t s .idle (.close s.val) { s with val := kClosed }
        (if s.val = kClosed then .idle else .closeWake)
  | closeWake {s : Shared Tid} :
      Atom t s .closeWake .closeWake { s with queue := [] } .idle

/-- A futex and the threads that use it. -/
abbrev Config (Tid : Type) := Pool Tid (Shared Tid) Pc

/-- One step of one thread: no promise restricts what the threads call. -/
def Step (c : Config Tid) (x : Tid × Label) (d : Config Tid) : Prop :=
  Pool.Step (Atom x.1) Pool.free c x d

/-- A new futex, constructed with or without a token. -/
def initial (Tid : Type) (posted : Bool) : Config Tid :=
  ⟨⟨word (.make posted), []⟩, fun _ => .idle⟩

end Atom

/-! ## The code does what the one-step operations do -/

theorem word_injective : Function.Injective word := by
  intro f g h
  cases f <;> cases g <;> first | rfl | (revert h; decide)

theorem eq_of_word {v : UInt32} {f : BinaryFutex} (g : BinaryFutex) (hf : v = word f)
    (hg : v = word g) : f = g :=
  word_injective (hf.symm.trans hg)

/-- What the step does to a futex whose operations are single steps. -/
def Label.Does (f f' : BinaryFutex) (l : Label) : Prop :=
  match l with
  | .waitTaken | .waitClosed | .waitUnexpected _ | .waitClockFailed _ | .futexTimedOut _
  | .futexFailed _ => ∃ st, l.returns = some (.status st) ∧ f.Wait f' st
  | .tryTaken | .tryReady | .tryClosed =>
    ∃ taken, l.returns = some (.token taken) ∧ f.tryWait = (f', taken)
  -- the wake-up that follows `postEdge` does nothing to the word
  | .postEdge => f.post = (f', rtOkStatus)
  | .postNoop | .postClosed => ∃ st, l.returns = some (.status st) ∧ f.post = (f', st)
  | .close _ => f' = .closed
  | .waitReady | .futexSleep | .futexAgain | .futexInterrupted | .futexReturned | .postWake
  | .closeWake => f' = f

section Refines
variable {Tid : Type} [DecidableEq Tid] {t : Tid} {s s' : Shared Tid} {pc pc' : Pc} {l : Label}
  {f : BinaryFutex}

/-- **The code refines the one-step futex**: every step of every call does to the
word what the operation of `Futex.lean` does, and returns what it returns. -/
theorem Atom.refines (h : Atom t s pc l s' pc') (hf : s.val = word f) :
    ∃ f', s'.val = word f' ∧ l.Does f f' := by
  cases h with
  | waitTaken hpc hv =>
    obtain rfl := eq_of_word .posted hf hv
    exact ⟨.ready, rfl, _, rfl, .taken⟩
  | waitClosed hpc hv =>
    obtain rfl := eq_of_word .closed hf hv
    exact ⟨.closed, hf, _, rfl, .closed⟩
  | waitUnexpected hpc hv =>
    -- the word is one of the three
    cases f with
    | ready => exact absurd hf hv.1
    | posted => exact absurd hf hv.2.1
    | closed => exact absurd hf hv.2.2
  | waitClockFailed error => exact ⟨f, hf, _, rfl, .clockFailed f error⟩
  | futexTimedOutAtOnce ms => exact ⟨f, hf, _, rfl, .timedOut f ms⟩
  | futexTimedOut ms hq => exact ⟨f, hf, _, rfl, .timedOut f ms⟩
  | futexFailed error => exact ⟨f, hf, _, rfl, .failed f error⟩
  | tryTaken hv =>
    obtain rfl := eq_of_word .posted hf hv
    exact ⟨.ready, rfl, _, rfl, rfl⟩
  | tryReady hv =>
    obtain rfl := eq_of_word .ready hf hv
    exact ⟨.ready, hf, _, rfl, rfl⟩
  | tryClosed hv =>
    cases f with
    | ready => exact absurd hf hv.1
    | posted => exact absurd hf hv.2
    | closed => exact ⟨.closed, hf, _, rfl, rfl⟩
  | postEdge hv =>
    obtain rfl := eq_of_word .ready hf hv
    exact ⟨.posted, rfl, rfl⟩
  | postNoop hv =>
    cases f with
    | ready => exact absurd hf hv.1
    | posted => exact ⟨.posted, hf, _, rfl, rfl⟩
    | closed => exact absurd hf hv.2
  | postClosed hv =>
    obtain rfl := eq_of_word .closed hf hv
    exact ⟨.closed, hf, _, rfl, rfl⟩
  | close => exact ⟨.closed, rfl, rfl⟩
  | waitReady | futexSleep | futexAgain | futexInterruptedAtOnce | futexInterrupted
  | futexReturned | postWakeNobody | postWake | closeWake => exact ⟨f, hf, rfl⟩

end Refines

/-! ## No wake-up is lost -/

section Wakeups
variable {Tid : Type} [DecidableEq Tid] {c d : Config Tid} {t : Tid} {l : Label}

/-- The thread was woken, by a `Post`, a `Close` or for another reason, and is still
to retry. -/
def Woken (c : Config Tid) (t : Tid) : Prop :=
  c.locals t = .woken ∨ (c.locals t = .inKernel ∧ t ∉ c.shared.queue)

/-- Somebody will see to a posted word: a `Post` that is about to wake up a thread, or
a thread that was woken. -/
def Attended (c : Config Tid) : Prop := ∃ t, c.locals t = .postWake ∨ Woken c t

/-- **The wake-up invariant.**  Every thread on the queue sleeps there; while threads
sleep, a posted word is attended to and a closed one is about to be announced. -/
structure WakeInv (c : Config Tid) : Prop where
  word : ∃ f, c.shared.val = word f
  nodup : c.shared.queue.Nodup
  asleep : ∀ t ∈ c.shared.queue, c.locals t = .inKernel
  posted : c.shared.val = kPosted → c.shared.queue ≠ [] → Attended c
  closed : c.shared.val = kClosed → c.shared.queue ≠ [] → ∃ t, c.locals t = .closeWake

omit [DecidableEq Tid] in
theorem wakeInv_initial (posted : Bool) : WakeInv (initial Tid posted) where
  word := ⟨.make posted, rfl⟩
  nodup := List.nodup_nil
  asleep _ h := absurd h List.not_mem_nil
  posted _ h := absurd rfl h
  closed _ h := absurd rfl h

variable {s' : Shared Tid} {pc' : Pc}

/-- Threads that attend to the word go on doing so while another thread moves and
none is enqueued. -/
theorem Attended.other {u : Tid} (h : c.locals u = .postWake ∨ Woken c u) (hu : u ≠ t)
    (hq : s'.queue ⊆ c.shared.queue) : Attended ⟨s', Function.update c.locals t pc'⟩ := by
  refine ⟨u, ?_⟩
  simp only [Woken, Function.update_of_ne hu]
  rcases h with h | h | ⟨h, hnot⟩
  · exact .inl h
  · exact .inr (.inl h)
  · exact .inr (.inr ⟨h, fun hmem => hnot (hq hmem)⟩)

/-- The threads left on the queue sleep on after the step of a thread that is not
among them. -/
theorem WakeInv.asleep_update (h : WakeInv c) (hq : s'.queue ⊆ c.shared.queue)
    (ht : t ∉ s'.queue) : ∀ u ∈ s'.queue, Function.update c.locals t pc' u = .inKernel := by
  intro u hu
  have hut : u ≠ t := by
    rintro rfl
    exact ht hu
  rw [Function.update_of_ne hut]
  exact h.asleep u (hq hu)

omit [DecidableEq Tid] in
/-- A thread that is not in the kernel is not on the queue. -/
theorem WakeInv.not_queued (h : WakeInv c) (hpc : c.locals t ≠ .inKernel) :
    t ∉ c.shared.queue := fun hq => hpc (h.asleep t hq)

/-- The thread that is going to wake up everybody still is when another thread has moved. -/
theorem WakeInv.closer (h : WakeInv c) (ht : c.locals t ≠ .closeWake)
    (hv : c.shared.val = kClosed) (hq : c.shared.queue ≠ []) :
    ∃ u, Function.update c.locals t pc' u = .closeWake := by
  obtain ⟨u, hu⟩ := h.closed hv hq
  have hut : u ≠ t := by
    rintro rfl
    exact ht hu
  exact ⟨u, (Function.update_of_ne hut ..).trans hu⟩

/-- A step that changes neither the word nor the queue, by a thread that neither
sleeps nor attends to the word. -/
theorem WakeInv.frame (h : WakeInv c) {pc : Pc} (hpc : c.locals t = pc)
    (hout : pc ≠ .inKernel ∧ pc ≠ .postWake ∧ pc ≠ .closeWake)
    (hwoken : c.shared.val = kPosted → pc ≠ .woken) :
    WakeInv ⟨c.shared, Function.update c.locals t pc'⟩ := by
  subst hpc
  refine ⟨h.word, h.nodup, h.asleep_update (List.Subset.refl _) (h.not_queued hout.1),
    fun hv hq => ?_, fun hv hq => ?_⟩
  · obtain ⟨u, hu⟩ := h.posted hv hq
    have hut : u ≠ t := by
      rintro rfl
      rcases hu with hu | hu | hu
      · exact hout.2.1 hu
      · exact hwoken hv hu
      · exact hout.1 hu.1
    exact .other hu hut (List.Subset.refl _)
  · exact h.closer hout.2.2 hv hq

/-- A step that leaves the word at `kReady`. -/
theorem WakeInv.ready (h : WakeInv c) (hv : s'.val = kReady) (hq : s'.queue = c.shared.queue)
    (ht : t ∉ c.shared.queue) : WakeInv ⟨s', Function.update c.locals t pc'⟩ where
  word := ⟨.ready, hv⟩
  nodup := by rw [hq]; exact h.nodup
  asleep := h.asleep_update (by rw [hq]; exact List.Subset.refl _) (by rwa [hq])
  posted hp := absurd (hv.symm.trans hp) (by decide)
  closed hp := absurd (hv.symm.trans hp) (by decide)

/-- A sleeping thread leaves the queue by itself. -/
theorem WakeInv.leave (h : WakeInv c) (ht : t ∈ c.shared.queue) :
    WakeInv ⟨{ c.shared with queue := c.shared.queue.erase t },
      Function.update c.locals t pc'⟩ := by
  have hsub : c.shared.queue.erase t ⊆ c.shared.queue := List.erase_subset
  have hne : c.shared.queue ≠ [] := List.ne_nil_of_mem ht
  have hpc := h.asleep t ht
  refine ⟨h.word, h.nodup.erase t, h.asleep_update hsub (h.nodup.not_mem_erase), fun hv _ => ?_,
    fun hv _ => ?_⟩
  · obtain ⟨u, hu⟩ := h.posted hv hne
    have hut : u ≠ t := by
      rintro rfl
      rcases hu with hu | hu | hu
      · rw [hpc] at hu; cases hu
      · rw [hpc] at hu; cases hu
      · exact hu.2 ht
    exact .other hu hut hsub
  · exact h.closer (by rw [hpc]; exact nofun) hv hne

/-- A `Post` wakes up the sleeping thread `u`. -/
theorem WakeInv.wake (h : WakeInv c) (hpc : c.locals t = .postWake) {u : Tid}
    (hu : u ∈ c.shared.queue) :
    WakeInv ⟨{ c.shared with queue := c.shared.queue.erase u },
      Function.update c.locals t pc'⟩ := by
  have hsub : c.shared.queue.erase u ⊆ c.shared.queue := List.erase_subset
  have ht : t ∉ c.shared.queue := h.not_queued (by rw [hpc]; exact nofun)
  have hut : u ≠ t := fun e => ht (e ▸ hu)
  refine ⟨h.word, h.nodup.erase u, h.asleep_update hsub (fun hq => ht (hsub hq)), fun _ _ => ?_,
    fun hv _ => ?_⟩
  · exact ⟨u, .inr (.inr ⟨(Function.update_of_ne hut ..).trans (h.asleep u hu),
      h.nodup.not_mem_erase⟩)⟩
  · exact h.closer (by rw [hpc]; exact nofun) hv (List.ne_nil_of_mem hu)

/-- **Every step keeps the wake-up invariant.** -/
theorem WakeInv.atom (h : WakeInv c) {pc : Pc} (hpc : c.locals t = pc)
    (hatom : Atom t c.shared pc l s' pc') : WakeInv ⟨s', Function.update c.locals t pc'⟩ := by
  have hout : pc ≠ .inKernel → t ∉ c.shared.queue := fun hne => h.not_queued (hpc ▸ hne)
  cases hatom with
  | waitTaken htries hv => exact h.ready rfl rfl (hout htries.outside.1)
  | waitReady htries hv => exact h.ready hv rfl (hout htries.outside.1)
  | waitClosed htries hv =>
    exact h.frame hpc htries.outside fun hp => absurd (hv.symm.trans hp) (by decide)
  | waitUnexpected htries hv => exact h.frame hpc htries.outside fun hp => absurd hp hv.2.1
  | futexSleep hv =>
    -- a thread goes to sleep only while the word is `kReady`
    have ht := hout nofun
    refine ⟨h.word, List.nodup_cons.mpr ⟨ht, h.nodup⟩, ?_, fun hp => ?_, fun hp => ?_⟩
    · intro u hu
      show Function.update c.locals t _ u = _
      by_cases hut : u = t
      · rw [hut, Function.update_self]
      · rw [Function.update_of_ne hut]
        exact h.asleep u (List.mem_of_ne_of_mem hut hu)
    · exact absurd (hv.symm.trans hp) (by decide)
    · exact absurd (hv.symm.trans hp) (by decide)
  | futexTimedOut ms hq | futexInterrupted hq => exact h.leave hq
  | futexReturned hq =>
    refine ⟨h.word, h.nodup, h.asleep_update (List.Subset.refl _) hq, fun _ _ => ?_,
      fun hv hne => ?_⟩
    · exact ⟨t, .inr (.inl (Function.update_self ..))⟩
    · exact h.closer (by rw [hpc]; exact nofun) hv hne
  | tryTaken hv => exact h.ready rfl rfl (hout nofun)
  | postEdge hv =>
    refine ⟨⟨.posted, rfl⟩, h.nodup, h.asleep_update (List.Subset.refl _) (hout nofun),
      fun _ _ => ⟨t, .inl (Function.update_self ..)⟩,
      fun hp => absurd (show kPosted = kClosed from hp) (by decide)⟩
  | postWake u hu => exact h.wake hpc hu
  | postWakeNobody hq =>
    exact ⟨h.word, h.nodup, h.asleep_update (List.Subset.refl _) (hout nofun),
      fun _ hne => absurd hq hne, fun _ hne => absurd hq hne⟩
  | closeWake =>
    exact ⟨h.word, List.nodup_nil, fun u hu => absurd hu List.not_mem_nil,
      fun _ hne => absurd rfl hne, fun _ hne => absurd rfl hne⟩
  | close =>
    by_cases hv : c.shared.val = kClosed
    · have hs : { c.shared with val := kClosed } = c.shared := by rw [← hv]
      rw [hs]
      exact h.frame hpc ⟨nofun, nofun, nofun⟩ fun _ => nofun
    · refine ⟨⟨.closed, rfl⟩, h.nodup, h.asleep_update (List.Subset.refl _) (hout nofun),
        fun hp => absurd (show kClosed = kPosted from hp) (by decide), fun _ _ => ⟨t, ?_⟩⟩
      show Function.update c.locals t _ t = _
      rw [Function.update_self, if_neg hv]
  | waitClockFailed | futexAgain | futexTimedOutAtOnce | futexInterruptedAtOnce | futexFailed
  | tryReady | tryClosed | postNoop | postClosed =>
    exact h.frame hpc ⟨nofun, nofun, nofun⟩ fun _ => nofun

theorem WakeInv.step {x : Tid × Label} (h : WakeInv c) (hs : Step c x d) : WakeInv d := by
  cases hs with
  | mk _ hatom => exact h.atom rfl hatom

end Wakeups

/-! ## Tokens are neither made nor lost -/

/-- A wait that took the token. -/
def Label.takes : Label → Bool
  | .waitTaken | .tryTaken => true
  | _ => false

/-- A `Post` that changed the word from `kReady` to `kPosted`. -/
def Label.posts : Label → Bool
  | .postEdge => true
  | _ => false

/-- A `Close` that found a token. -/
def Label.discards : Label → Bool
  | .close old => old = kPosted
  | _ => false

/-- A step whose compare-exchange found the futex open. -/
def Label.sawOpen : Label → Bool
  | .waitTaken | .waitReady | .tryTaken | .tryReady | .postEdge | .postNoop => true
  | _ => false

/-- The call failed: a status that is not ok, or no answer from `TryWait`. -/
def Result.failed : Result → Prop
  | .status st => st.isOk = false
  | .token taken => taken = none

/-- How many steps of the word are of a kind. -/
def count {Tid : Type} (p : Label → Bool) (w : List (Tid × Label)) : Nat := w.countP fun y => p y.2

/-- The tokens in the word: 1 or 0. -/
def present (val : UInt32) : Nat := if val = kPosted then 1 else 0

section Tokens
variable {Tid : Type} [DecidableEq Tid] {c d : Config Tid} {t : Tid} {s s' : Shared Tid}
  {pc pc' : Pc} {l : Label} {w v : List (Tid × Label)}

omit [DecidableEq Tid] in
theorem count_snoc (p : Label → Bool) (w : List (Tid × Label)) (y : Tid × Label) :
    count p (w ++ [y]) = count p w + (p y.2).toNat := by
  cases hp : p y.2 <;> simp [count, List.countP_append, hp]

/-- Each step moves tokens between the places they can be: posted, in the word, taken
or discarded. -/
theorem Atom.conserves (h : Atom t s pc l s' pc') :
    present s.val + l.posts.toNat = present s'.val + l.takes.toNat + l.discards.toNat := by
  cases h with
  | waitTaken hpc hv | tryTaken hv => rw [hv]; rfl
  | postEdge hv => rw [hv]; rfl
  | close =>
    by_cases hv : s.val = kPosted
    · rw [hv]; rfl
    · show present s.val + 0 = 0 + 0 + (decide (s.val = kPosted)).toNat
      rw [present, if_neg hv, decide_eq_false hv]
      rfl
  | _ => rfl

/-- A closed futex stays closed; no step finds it open, and every call that ends does
so with a failure, except for a `Post` that changed the word before. -/
theorem Atom.of_closed (h : Atom t s pc l s' pc') (hclosed : s.val = kClosed) :
    s'.val = kClosed ∧ l.sawOpen = false ∧
      ∀ r, l.returns = some r → r.failed ∨ l = .postWake := by
  cases h with
  | waitTaken hpc hv | waitReady hpc hv => exact absurd (hv.symm.trans hclosed) (by decide)
  | tryTaken hv | tryReady hv | postEdge hv => exact absurd (hv.symm.trans hclosed) (by decide)
  | postNoop hv => exact absurd hclosed hv.2
  | waitClosed | waitUnexpected | waitClockFailed | futexTimedOutAtOnce | futexTimedOut
  | futexFailed | tryClosed | postClosed =>
    refine ⟨hclosed, rfl, fun r hr => .inl ?_⟩
    obtain rfl := Option.some.inj hr
    rfl
  | postWakeNobody | postWake => exact ⟨hclosed, rfl, fun _ _ => .inr rfl⟩
  | close => exact ⟨rfl, rfl, nofun⟩
  | futexSleep | futexAgain | futexInterruptedAtOnce | futexInterrupted | futexReturned
  | closeWake => exact ⟨hclosed, rfl, nofun⟩

/-- Tokens along a run: what was there at first or was posted has been taken, was
discarded, or is there. -/
theorem conserved_run {posted : Bool} (h : Run Step (initial Tid posted) w c) :
    count Label.takes w + present c.shared.val + count Label.discards w =
      count Label.posts w + posted.toNat := by
  refine h.invariant (I := fun w c => count Label.takes w + present c.shared.val +
    count Label.discards w = count Label.posts w + posted.toNat) ?_ ?_
  · cases posted <;> rfl
  · intro w c y d hi hs
    cases hs with
    | mk _ hatom =>
      have hstep := hatom.conserves
      simp only [count_snoc] at *
      omega

/-- Along a run a closed futex stays closed and everything fails. -/
theorem closed_run (h : Run Step c v d) (hclosed : c.shared.val = kClosed) :
    d.shared.val = kClosed ∧ ∀ y ∈ v, y.2.sawOpen = false ∧
      ∀ r, y.2.returns = some r → r.failed ∨ y.2 = .postWake := by
  refine h.invariant (I := fun v d => d.shared.val = kClosed ∧ ∀ y ∈ v, y.2.sawOpen = false ∧
    ∀ r, y.2.returns = some r → r.failed ∨ y.2 = .postWake) ?_ ?_
  · exact ⟨hclosed, fun y hy => absurd hy List.not_mem_nil⟩
  · intro v c y d hi hs
    cases hs with
    | mk _ hatom =>
      obtain ⟨hval, hlabel⟩ := hatom.of_closed hi.1
      refine ⟨hval, fun x hx => ?_⟩
      rcases List.mem_append.mp hx with hx | hx
      · exact hi.2 x hx
      · rw [List.mem_singleton.mp hx]
        exact hlabel

/-- **A closable binary semaphore with no lost wake-up.**  Whatever any number of
threads call on a futex, and whenever they are interrupted or time out:
* the word is 0, 1 or 2;
* the successful waits are the `Post`s that changed the word, plus the initial token,
  minus the token that is still there or was discarded by `Close`;
* once closed it stays closed, and every later `Post`, `Wait` and `TryWait` fails;
* if the word is 1 or 2 while a thread sleeps in the kernel, then a `Post` or `Close`
  is about to issue its wake-up or a woken thread is still to retry. -/
theorem binary_semaphore {posted : Bool} (h : Run Step (initial Tid posted) w c) :
    (c.shared.val = 0 ∨ c.shared.val = 1 ∨ c.shared.val = 2) ∧
      count Label.takes w + present c.shared.val + count Label.discards w =
        count Label.posts w + posted.toNat ∧
      (∀ v d, c.shared.val = kClosed → Run Step c v d →
        d.shared.val = kClosed ∧ ∀ y ∈ v, y.2.sawOpen = false ∧
          ∀ r, y.2.returns = some r → r.failed ∨ y.2 = .postWake) ∧
      ¬ ((c.shared.val = 1 ∨ c.shared.val = 2) ∧ c.shared.queue ≠ [] ∧
        (∀ t, c.locals t ≠ .postWake ∧ c.locals t ≠ .closeWake) ∧ ∀ t, ¬ Woken c t) := by
  have hwake : WakeInv c := h.stateInvariant (wakeInv_initial posted) fun _ _ _ => WakeInv.step
  refine ⟨?_, conserved_run h, fun v d hclosed hrun => closed_run hrun hclosed, ?_⟩
  · obtain ⟨f, hf⟩ := hwake.word
    cases f with
    | ready => exact .inl hf
    | posted => exact .inr (.inl hf)
    | closed => exact .inr (.inr hf)
  · rintro ⟨hv | hv, hqueue, hnone, hwoken⟩
    · obtain ⟨t, ht | ht⟩ := hwake.posted hv hqueue
      · exact (hnone t).1 ht
      · exact hwoken t ht
    · obtain ⟨t, ht⟩ := hwake.closed hv hqueue
      exact (hnone t).2 ht

/-- Thread `false` goes to sleep on a futex without a token; thread `true` posts, and
between its two steps the word is 1 while `false` sleeps. -/
theorem binary_semaphore_one_sleeper :
    ∃ (w : List (Bool × Label)) (c : Config Bool),
      Run Step (initial Bool false) w c ∧ c.shared.val = 1 ∧ c.shared.queue = [false] ∧
      (c.shared.val = 0 ∨ c.shared.val = 1 ∨ c.shared.val = 2) ∧
      count Label.takes w + present c.shared.val + count Label.discards w =
        count Label.posts w + Bool.toNat false ∧
      (∀ v d, c.shared.val = kClosed → Run Step c v d →
        d.shared.val = kClosed ∧ ∀ y ∈ v, y.2.sawOpen = false ∧
          ∀ r, y.2.returns = some r → r.failed ∨ y.2 = .postWake) ∧
      ¬ ((c.shared.val = 1 ∨ c.shared.val = 2) ∧ c.shared.queue ≠ [] ∧
        (∀ t, c.locals t ≠ .postWake ∧ c.locals t ≠ .closeWake) ∧ ∀ t, ¬ Woken c t) := by
  have hfirst : ∀ {s s' : Shared Bool} {x x' y : Pc} {l : Label}, Atom false s x l s' x' →
      Step (.two s x y) (false, l) (.two s' x' y) := fun h => by
    unfold Step
    exact .first trivial h
  have hsecond : ∀ {s s' : Shared Bool} {x y y' : Pc} {l : Label}, Atom true s y l s' y' →
      Step (.two s x y) (true, l) (.two s' x y') := fun h => by
    unfold Step
    exact .second trivial h
  have h : Run Step (initial Bool false)
      [(false, .waitReady), (false, .futexSleep), (true, .postEdge)]
      (.two ⟨kPosted, [false]⟩ .inKernel .postWake) := by
    rw [Pool.eq_two (initial Bool false)]
    refine .cons (s := .two ⟨kReady, []⟩ .futexWait .idle) (hfirst (.waitReady (by trivial) rfl)) ?_
    refine .cons (s := .two ⟨kReady, [false]⟩ .inKernel .idle) (hfirst (.futexSleep rfl)) ?_
    exact .single (hsecond (.postEdge rfl))
  exact ⟨_, _, h, rfl, rfl, binary_semaphore h⟩

end Tokens

end Intrinsic.FutexCode
