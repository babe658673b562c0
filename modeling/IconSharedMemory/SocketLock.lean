import IconSharedMemory.Runs

/-! # Who owns the socket

A `DomainSocketServer` (`icon/interprocess/shared_memory_manager/domain_socket_server.cc`)
listens on a socket file whose path is fixed by a directory and a module name.  A file that
is left over from a process that died has to be removed before the path can be bound again,
and nothing in the file system says whether the file is left over or in use.  Therefore every
server first locks a lock file beside it with `flock`, and keeps the lock until its destructor
has removed its own socket file.

The model has any number of servers in any number of processes.  A server's life is its
`Create` with all its error exits, its existence, and its destructor; a step is one system
call, which may fail.  The kernel keeps who holds the lock, by open file description: each
server opens the lock file itself.  A process may die at any step, which ends all its servers
and releases their lock, but leaves the socket file as it is.

`Owner` is the invariant: the servers that have been granted the lock and the holder in the
kernel are the same, and the path is bound by the server that has bound it last as long as
that one has not begun to remove it.
-/
namespace Intrinsic.SocketLock
open Runs

/-- What is at the path of the socket. -/
inductive SocketFile (Tid : Type)
  | absent
  /-- A file from before. -/
  | foreign
  | boundBy (t : Tid)

/-- What the kernel keeps. -/
structure Shared (Tid : Type) where
  /-- The server whose open file description the `flock` belongs to. -/
  lock : Option Tid
  socket : SocketFile Tid

/-- Where a server is in its life: named after the step that follows. -/
inductive Pc
  /-- `Create`: `CreateSocketDirectory` -/
  | createDirectory
  /-- `TryLockPath`: `open` -/
  | openLock
  | flock
  /-- The lock was taken: sleep, and look at the clock. -/
  | retry
  /-- The clean-up of `TryLockPath`. -/
  | closeLock
  | absoluteSocketPath
  | exists
  | unlinkOld
  | socket
  | addressFromAbsolutePath
  | bind
  /-- The clean-ups of `Create`, the last one first. -/
  | closeSocket
  /-- `UnlockPathCloseLockfile`, of `Create`'s clean-up and of the destructor. -/
  | unlock
  | closeUnlocked
  /-- The server has been created. -/
  | listening
  /-- The destructor. -/
  | shutdown
  | closeListening
  | unlink
  /-- `request_handler_.reset()` -/
  | joinHandler
  /-- `std::exit(1)` after a `shutdown` that failed. -/
  | exiting
  | ended
  /-- The lock could not be released: its file descriptor stays open. -/
  | leaked
  /-- The process has died. -/
  | dead
  deriving DecidableEq, Repr

/-- What a system call shows. -/
inductive Label
  | internal
  | locked
  | unlocked
  /-- `unlink` of the socket path, by `Create` or by the destructor. -/
  | unlink (success : Bool)
  | bind (success : Bool)
  deriving DecidableEq, Repr

/-- The call is about the socket path. -/
def Label.touches : Label → Bool
  | .unlink _ | .bind _ => true
  | _ => false

section Model
variable {Tid : Type} [DecidableEq Tid]

/-- **One step of the server `t`.** -/
inductive Atom (t : Tid) : Shared Tid → Pc → Label → Shared Tid → Pc → Prop
  | directoryOk {s : Shared Tid} : Atom t s .createDirectory .internal s .openLock
  | directoryFailed {s : Shared Tid} : Atom t s .createDirectory .internal s .ended
  | openOk {s : Shared Tid} : Atom t s .openLock .internal s .flock
  -- this also stands for a path that is empty or not absolute
  | openFailed {s : Shared Tid} : Atom t s .openLock .internal s .ended
  | flockOk {s : Shared Tid} (hfree : s.lock = none) :
      Atom t s .flock .locked { s with lock := some t } .absoluteSocketPath
  | flockWouldBlock {s : Shared Tid} (htaken : s.lock ≠ none) :
      Atom t s .flock .internal s .retry
  | flockFailed {s : Shared Tid} : Atom t s .flock .internal s .closeLock
  | retry {s : Shared Tid} : Atom t s .retry .internal s .flock
  | timedOut {s : Shared Tid} : Atom t s .retry .internal s .closeLock
  | closeLock {s : Shared Tid} : Atom t s .closeLock .internal s .ended
  | pathOk {s : Shared Tid} : Atom t s .absoluteSocketPath .internal s .exists
  | pathFailed {s : Shared Tid} : Atom t s .absoluteSocketPath .internal s .unlock
  | existsOld {s : Shared Tid} (hfile : s.socket ≠ .absent) :
      Atom t s .exists .internal s .unlinkOld
  | existsNot {s : Shared Tid} (hfile : s.socket = .absent) :
      Atom t s .exists .internal s .socket
  -- `exists` throws, and the clean-up runs
  | existsFailed {s : Shared Tid} : Atom t s .exists .internal s .unlock
  | unlinkOldOk {s : Shared Tid} :
      Atom t s .unlinkOld (.unlink true) { s with socket := .absent } .socket
  | unlinkOldFailed {s : Shared Tid} : Atom t s .unlinkOld (.unlink false) s .unlock
  | socketOk {s : Shared Tid} : Atom t s .socket .internal s .addressFromAbsolutePath
  | socketFailed {s : Shared Tid} : Atom t s .socket .internal s .unlock
  | addressOk {s : Shared Tid} : Atom t s .addressFromAbsolutePath .internal s .bind
  | addressFailed {s : Shared Tid} : Atom t s .addressFromAbsolutePath .internal s .closeSocket
  | bindOk {s : Shared Tid} (hfile : s.socket = .absent) :
      Atom t s .bind (.bind true) { s with socket := .boundBy t } .listening
  | bindFailed {s : Shared Tid} : Atom t s .bind (.bind false) s .closeSocket
  | closeSocket {s : Shared Tid} : Atom t s .closeSocket .internal s .unlock
  | unlockOk {s : Shared Tid} :
      Atom t s .unlock .unlocked { s with lock := s.lock.filter (· ≠ t) } .closeUnlocked
  | unlockFailed {s : Shared Tid} : Atom t s .unlock .internal s .leaked
  | closeUnlocked {s : Shared Tid} : Atom t s .closeUnlocked .internal s .ended
  | destroy {s : Shared Tid} : Atom t s .listening .internal s .shutdown
  | shutdownOk {s : Shared Tid} : Atom t s .shutdown .internal s .closeListening
  | shutdownFailed {s : Shared Tid} : Atom t s .shutdown .internal s .exiting
  | closeListening {s : Shared Tid} : Atom t s .closeListening .internal s .unlink
  | unlinkOk {s : Shared Tid} :
      Atom t s .unlink (.unlink true) { s with socket := .absent } .joinHandler
  | unlinkFailed {s : Shared Tid} : Atom t s .unlink (.unlink false) s .joinHandler
  | joinHandler {s : Shared Tid} : Atom t s .joinHandler .internal s .unlock

/-- The servers, and what the kernel keeps. -/
abbrev Config (Tid : Type) := Pool Tid (Shared Tid) Pc

/-- Nothing has been called yet; the socket file may be there from before. -/
def initial (Tid : Type) (isThere : Bool) : Config Tid :=
  ⟨⟨none, if isThere then .foreign else .absent⟩, fun _ => .createDirectory⟩

/-- A system call of a server, or the death of a process. -/
inductive Event (Tid Pid : Type)
  | server (t : Tid) (l : Label)
  | death (p : Pid)

variable {Pid : Type} [DecidableEq Pid]

/-- The kernel closes the files of a process that has died. -/
def Shared.release (process : Tid → Pid) (p : Pid) (s : Shared Tid) : Shared Tid :=
  { s with lock := s.lock.filter fun t => process t ≠ p }

/-- **One step**: a server makes a system call, or a process dies. -/
inductive Step (process : Tid → Pid) : Config Tid → Event Tid Pid → Config Tid → Prop
  | server {c : Config Tid} {t : Tid} {l : Label} {s' : Shared Tid} {pc' : Pc}
      (hatom : Atom t c.shared (c.locals t) l s' pc') :
      Step process c (.server t l) ⟨s', Function.update c.locals t pc'⟩
  | death {c : Config Tid} (p : Pid) :
      Step process c (.death p)
        ⟨c.shared.release process p, fun t => if process t = p then .dead else c.locals t⟩

end Model

/-! ## The invariant -/

/-- From the `flock` that was granted to the end of the `flock` that gives it back. -/
def Pc.holdsLock : Pc → Prop
  | .absoluteSocketPath | .exists | .unlinkOld | .socket | .addressFromAbsolutePath | .bind
  | .closeSocket | .unlock | .listening | .shutdown | .closeListening | .unlink | .joinHandler
  | .exiting | .leaked => True
  | _ => False

/-- From the `bind` to the destructor's `unlink`. -/
def Pc.bound : Pc → Prop
  | .listening | .shutdown | .closeListening | .unlink | .exiting => True
  | _ => False

theorem Pc.bound.holdsLock {pc : Pc} (h : pc.bound) : pc.holdsLock := by
  cases pc <;> first | exact trivial | exact h.elim

section Owner
variable {Tid Pid : Type} [DecidableEq Tid] {t : Tid} {s s' : Shared Tid} {pc pc' : Pc}
  {l : Label}

/-- **What a step does with the lock and the path**: it gets the lock, gives it back, or
does neither; whatever it does to the path it does while it has the lock. -/
inductive Use (t : Tid) (s : Shared Tid) (pc : Pc) (s' : Shared Tid) (pc' : Pc) : Label → Prop
  | lock (hfree : s.lock = none) (hlock : s'.lock = some t) (hsocket : s'.socket = s.socket)
      (hholds : pc'.holdsLock) (hbound : ¬ pc'.bound) : Use t s pc s' pc' .locked
  | unlock (hlock : s'.lock = s.lock.filter (· ≠ t)) (hsocket : s'.socket = s.socket)
      (hholds : pc.holdsLock) (hholds' : ¬ pc'.holdsLock) : Use t s pc s' pc' .unlocked
  | path {l : Label} (hlock : s'.lock = s.lock) (hholds : pc.holdsLock) (hholds' : pc'.holdsLock)
      (hbound : pc'.bound → s'.socket = .boundBy t) : Use t s pc s' pc' l
  | keep (hlock : s'.lock = s.lock) (hsocket : s'.socket = s.socket)
      (hholds : pc'.holdsLock ↔ pc.holdsLock) (hbound : pc'.bound ↔ pc.bound) :
      Use t s pc s' pc' .internal

theorem Atom.use (h : Atom t s pc l s' pc') : Use t s pc s' pc' l := by
  cases h with
  | flockOk hfree => exact .lock hfree rfl rfl trivial id
  | unlockOk => exact .unlock rfl rfl trivial id
  | unlinkOldOk => exact .path rfl trivial trivial False.elim
  | unlinkOldFailed => exact .path rfl trivial trivial False.elim
  | bindOk => exact .path rfl trivial trivial fun _ => rfl
  | bindFailed => exact .path rfl trivial trivial False.elim
  | unlinkOk => exact .path rfl trivial trivial False.elim
  | unlinkFailed => exact .path rfl trivial trivial False.elim
  | _ => exact .keep rfl rfl Iff.rfl Iff.rfl

/-- A call about the path is made by a server that has the lock. -/
theorem Atom.holdsLock_of_touches (h : Atom t s pc l s' pc') (hl : l.touches = true) :
    pc.holdsLock := by
  cases h.use with
  | path hlock hholds => exact hholds
  | _ => cases hl

/-- A server that has bound the path goes on to its own `unlink`. -/
theorem Atom.bound (h : Atom t s pc l s' pc') (hpc : pc.bound) :
    (pc'.bound ∧ l.touches = false) ∨ ∃ success, l = .unlink success := by
  cases h with
  | unlinkOk => exact .inr ⟨true, rfl⟩
  | unlinkFailed => exact .inr ⟨false, rfl⟩
  | destroy => exact .inl ⟨trivial, rfl⟩
  | shutdownOk => exact .inl ⟨trivial, rfl⟩
  | shutdownFailed => exact .inl ⟨trivial, rfl⟩
  | closeListening => exact .inl ⟨trivial, rfl⟩
  | _ => exact hpc.elim

theorem Atom.bound_of_bind (h : Atom t s pc l s' pc') (hl : l = .bind true) : pc'.bound := by
  cases h with
  | bindOk => exact trivial
  | _ => cases hl

end Owner

section Run
variable {Tid Pid : Type} [DecidableEq Tid] [DecidableEq Pid] {process : Tid → Pid}
  {c d : Config Tid} {e : Event Tid Pid} {w : List (Event Tid Pid)} {isThere : Bool}

/-- **The invariant.** -/
structure Owner (c : Config Tid) : Prop where
  holds : ∀ t, (c.locals t).holdsLock ↔ c.shared.lock = some t
  bound : ∀ t, (c.locals t).bound → c.shared.socket = .boundBy t

omit [DecidableEq Tid] in
theorem owner_initial (isThere : Bool) : Owner (initial Tid isThere) where
  holds _ := iff_of_false id nofun
  bound _ h := h.elim

omit [DecidableEq Tid] in
theorem Owner.unique (h : Owner c) : AtMostOne Pc.holdsLock c.locals := by
  intro t u ht hu
  exact Option.some.inj (((h.holds t).mp ht).symm.trans ((h.holds u).mp hu))

/-- A step that leaves the lock alone. -/
theorem Owner.holds_of_same (h : Owner c) {t : Tid} {s' : Shared Tid} {pc' : Pc}
    (hlock : s'.lock = c.shared.lock) (hholds : pc'.holdsLock ↔ (c.locals t).holdsLock) (u : Tid) :
    (Function.update c.locals t pc' u).holdsLock ↔ s'.lock = some u := by
  rw [hlock, ← h.holds u]
  by_cases hut : u = t
  · rw [hut, Function.update_self]
    exact hholds
  · rw [Function.update_of_ne hut]

theorem Owner.server (h : Owner c) {t : Tid} {l : Label} {s' : Shared Tid} {pc' : Pc}
    (hatom : Atom t c.shared (c.locals t) l s' pc') :
    Owner ⟨s', Function.update c.locals t pc'⟩ := by
  -- who has the lock according to the kernel, the others taken together
  have hother : ∀ u, u ≠ t → (c.locals t).holdsLock → ¬ (c.locals u).holdsLock :=
    fun u hut ht hu => hut (h.unique u t hu ht)
  cases hatom.use with
  | lock hfree hlock hsocket hholds hbound =>
    have hnone : ∀ u, ¬ (c.locals u).holdsLock := by
      intro u hu
      rw [h.holds, hfree] at hu
      cases hu
    refine ⟨fun u => ?_, fun u hu => ?_⟩
    · dsimp only
      by_cases hut : u = t
      · rw [hut, Function.update_self]
        exact iff_of_true hholds hlock
      · rw [Function.update_of_ne hut, hlock]
        exact iff_of_false (hnone u) fun heq => hut (Option.some.inj heq).symm
    · obtain ⟨-, hpc⟩ | ⟨-, hpc⟩ := of_update hu
      · exact absurd hpc hbound
      · exact absurd hpc.holdsLock (hnone u)
  | unlock hlock hsocket hholds hholds' =>
    have hfree : s'.lock = none := by
      rw [hlock, (h.holds t).mp hholds]
      simp
    refine ⟨fun u => ?_, fun u hu => ?_⟩
    · dsimp only
      rw [hfree]
      refine iff_of_false ?_ nofun
      by_cases hut : u = t
      · rwa [hut, Function.update_self]
      · rw [Function.update_of_ne hut]
        exact hother u hut hholds
    · obtain ⟨-, hpc⟩ | ⟨hut, hpc⟩ := of_update hu
      · exact absurd hpc.holdsLock hholds'
      · exact absurd hpc.holdsLock (hother u hut hholds)
  | path hlock hholds hholds' hbound =>
    refine ⟨fun u => ?_, fun u hu => ?_⟩
    · exact h.holds_of_same hlock (iff_of_true hholds' hholds) u
    · obtain ⟨rfl, hpc⟩ | ⟨hut, hpc⟩ := of_update hu
      · exact hbound hpc
      · exact absurd hpc.holdsLock (hother u hut hholds)
  | keep hlock hsocket hholds hbound =>
    refine ⟨fun u => ?_, fun u hu => ?_⟩
    · exact h.holds_of_same hlock hholds u
    · dsimp only
      rw [hsocket]
      obtain ⟨rfl, hpc⟩ | ⟨-, hpc⟩ := of_update hu
      · exact h.bound u (hbound.mp hpc)
      · exact h.bound u hpc

omit [DecidableEq Tid] in
theorem Owner.death (h : Owner c) (p : Pid) :
    Owner ⟨c.shared.release process p, fun t => if process t = p then .dead else c.locals t⟩ := by
  refine ⟨fun t => ?_, fun t ht => ?_⟩ <;> dsimp only [Shared.release] at *
  · by_cases hp : process t = p
    · rw [if_pos hp]
      exact iff_of_false id fun hlock => of_decide_eq_true (Option.filter_eq_some_iff.mp hlock).2 hp
    · rw [if_neg hp, h.holds t, Option.filter_eq_some_iff]
      exact (and_iff_left (decide_eq_true hp)).symm
  · by_cases hp : process t = p
    · rw [if_pos hp] at ht
      exact ht.elim
    · rw [if_neg hp] at ht
      exact h.bound t ht

theorem Owner.step (h : Owner c) (hs : Step process c e d) : Owner d := by
  cases hs with
  | server hatom => exact h.server hatom
  | death p => exact h.death p

theorem owner_run (h : Run (Step process) (initial Tid isThere) w c) : Owner c :=
  h.stateInvariant (owner_initial isThere) fun _ _ _ hi hs => hi.step hs

/-- A server that has bound the path keeps it until it removes it or its process dies; until
then no call about the path is made. -/
theorem Owner.bound_step (h : Owner c) {t : Tid} (ht : (c.locals t).bound)
    (hs : Step process c e d) (hunlink : ∀ success, e ≠ .server t (.unlink success))
    (hdeath : e ≠ .death (process t)) :
    (d.locals t).bound ∧ ∀ u l, e = .server u l → l.touches = false := by
  cases hs with
  | @server u l s' pc' hatom =>
    by_cases hut : u = t
    · subst hut
      obtain ⟨hpc, hl⟩ | ⟨success, rfl⟩ := hatom.bound ht
      · refine ⟨?_, ?_⟩
        · dsimp only
          rwa [Function.update_self]
        · rintro v l' heq
          cases heq
          exact hl
      · exact absurd rfl (hunlink success)
    · refine ⟨?_, ?_⟩
      · dsimp only
        rwa [Function.update_of_ne fun htu => hut htu.symm]
      · rintro v l' heq
        cases heq
        -- otherwise both would have the lock
        rw [Bool.eq_false_iff]
        exact fun hl => hut (h.unique _ _ (hatom.holdsLock_of_touches hl) ht.holdsLock)
  | death p =>
    refine ⟨?_, nofun⟩
    dsimp only
    rwa [if_neg fun hp => hdeath (congrArg Event.death hp.symm)]

/-- The same over a run that begins after the `bind`. -/
theorem Owner.bound_run (h : Owner c) {t : Tid} (ht : (c.locals t).bound)
    (hrun : Run (Step process) c w d)
    (hkept : ∀ e ∈ w, (∀ success, e ≠ .server t (.unlink success)) ∧ e ≠ .death (process t)) :
    (d.locals t).bound ∧ ∀ u l, .server u l ∈ w → l.touches = false := by
  induction hrun with
  | nil => exact ⟨ht, nofun⟩
  | @snoc w c' d e hrun hs ih =>
    have howner : Owner c' := hrun.stateInvariant h fun _ _ _ hi hs => hi.step hs
    obtain ⟨hunlink, hdeath⟩ := hkept e (List.mem_append_right _ (.head _))
    obtain ⟨hbound, htouches⟩ := ih fun e he => hkept e (List.mem_append_left _ he)
    obtain ⟨hbound', he⟩ := howner.bound_step hbound hs hunlink hdeath
    refine ⟨hbound', fun u l hmem => ?_⟩
    rcases List.mem_append.mp hmem with hmem | hmem
    · exact htouches u l hmem
    · exact he u l (List.mem_singleton.mp hmem).symm

/-- **The socket is owned.**  Over all interleavings of the system calls of any number of
servers, whichever of them fail and whichever processes die: at most one server has the lock;
and from a server's successful `bind` on, until its destructor's `unlink` or the death of its
process, no server, itself included, removes or binds the path, and the path stays bound by
this server. -/
theorem socket_owned (h : Run (Step process) (initial Tid isThere) w c) :
    AtMostOne Pc.holdsLock c.locals ∧
    ∀ t w₁ w₂, w = w₁ ++ .server t (.bind true) :: w₂ →
      (∀ e ∈ w₂, (∀ success, e ≠ .server t (.unlink success)) ∧ e ≠ .death (process t)) →
      (∀ u l, .server u l ∈ w₂ → l.touches = false) ∧ c.shared.socket = .boundBy t := by
  refine ⟨(owner_run h).unique, ?_⟩
  rintro t w₁ w₂ rfl hkept
  obtain ⟨c₁, h₁, hrest⟩ := h.split
  obtain ⟨c₂, hbind, h₂⟩ := hrest.uncons
  have hbound : (c₂.locals t).bound := by
    cases hbind with
    | server hatom =>
      dsimp only
      rw [Function.update_self]
      exact hatom.bound_of_bind rfl
  obtain ⟨hstill, htouches⟩ := ((owner_run h₁).step hbind).bound_run hbound h₂ hkept
  exact ⟨htouches, (owner_run h).bound t hstill⟩

end Run

/-- A server is created where a file was left over; meanwhile another one, of another
process, finds the path locked. -/
def takeover : List (Event Bool Bool) :=
  [.server true .internal, .server true .internal, .server true .locked,
    .server false .internal, .server false .internal, .server false .internal,
    .server true .internal, .server true .internal, .server true (.unlink true),
    .server true .internal, .server true .internal, .server true (.bind true),
    .server false .internal, .server false .internal]

section Takeover
variable {s s' : Shared Bool} {x x' y y' : Pc} {l : Label}

theorem Step.first (h : Atom false s x l s' x') :
    Step id (Pool.two s x y) (.server false l) (Pool.two s' x' y) := by
  have hs := @Step.server _ _ _ _ id (Pool.two s x y) _ _ _ _ h
  rw [Pool.eq_two ⟨s', _⟩] at hs
  exact hs

theorem Step.second (h : Atom true s y l s' y') :
    Step id (Pool.two s x y) (.server true l) (Pool.two s' x y') := by
  have hs := @Step.server _ _ _ _ id (Pool.two s x y) _ _ _ _ h
  rw [Pool.eq_two ⟨s', _⟩] at hs
  exact hs

/-- The path then belongs to the first of the two. -/
theorem socket_owned_takeover : ∃ c : Config Bool,
    Run (Step id) (initial Bool true) takeover c ∧ c.shared.socket = .boundBy true := by
  have hrun : Run (Step id) (initial Bool true) takeover
      (Pool.two ⟨some true, .boundBy true⟩ .closeLock .listening) := by
    rw [Pool.eq_two (initial Bool true)]
    refine .cons (.second .directoryOk) ?_
    refine .cons (.second .openOk) ?_
    refine .cons (.second (.flockOk rfl)) ?_
    refine .cons (.first .directoryOk) ?_
    refine .cons (.first .openOk) ?_
    refine .cons (.first (.flockWouldBlock nofun)) ?_
    refine .cons (.second .pathOk) ?_
    refine .cons (.second (.existsOld nofun)) ?_
    refine .cons (.second .unlinkOldOk) ?_
    refine .cons (.second .socketOk) ?_
    refine .cons (.second .addressOk) ?_
    refine .cons (.second (.bindOk rfl)) ?_
    refine .cons (.first .retry) ?_
    exact .single (.first .flockFailed)
  refine ⟨_, hrun, ((socket_owned hrun).2 true (takeover.take 11)
    [.server false .internal, .server false .internal] rfl ?_).2⟩
  intro e he
  simp only [List.mem_cons, List.not_mem_nil, or_false, or_self] at he
  subst he
  exact ⟨nofun, nofun⟩

end Takeover

end Intrinsic.SocketLock
