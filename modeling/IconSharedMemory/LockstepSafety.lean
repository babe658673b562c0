import IconSharedMemory.Lockstep
import Mathlib.Tactic.Cases

/-! # Exclusion, alternation and cancellation in the lockstep

Two results about every interleaving of any number of threads.

**Exclusion and alternation** (`exclusive_and_alternating`).  If operations are
ended by the threads that hold them, and `Reset` is called by one thread at a
time and with no operation in progress, then no two operations are ever in
progress and successful starts alternate A, B, A, B, …  The tokens play no part
in the argument: extra tokens, which `Cancel` and `Reset` create, only let a
start reach its compare-exchange, and that is decided by `state_`.

**Cancellation** (`cancelled_until_reset`).  `EndOperationA` stores `kAFinished`
without looking, so a cancellation that arrives between its second load and its
store is lost (`cancel_overwritten_by_endOperationA`).  A cancellation that does
not fall into that window, nor into the window of a running `Reset`, stays until
a `Reset` called after it.
-/
namespace Intrinsic.Lockstep
open Runs

variable {Tid : Type} [DecidableEq Tid]

/-! ## Alternation -/

/-- The side whose turn it is after `l.length` starts. -/
def turn (l : List Side) : Side := if l.length % 2 = 0 then .a else .b

/-- A, B, A, B, …, beginning with A. -/
def Alternating (l : List Side) : Prop :=
  ∀ i, i < l.length → l[i]? = some (if i % 2 = 0 then .a else .b)

instance (l : List Side) : Decidable (Alternating l) :=
  inferInstanceAs (Decidable (∀ i, i < l.length → l[i]? = some (if i % 2 = 0 then .a else .b)))

theorem alternating_nil : Alternating [] := by simp [Alternating]

theorem Alternating.snoc {l : List Side} {x : Side} (h : Alternating l) (hx : x = turn l) :
    Alternating (l ++ [x]) := by
  intro i hi
  rw [List.length_append, List.length_singleton] at hi
  by_cases hlt : i < l.length
  · rw [List.getElem?_append_left hlt]
    exact h i hlt
  · obtain rfl : i = l.length := by omega
    rw [List.getElem?_append_right (Nat.le_refl _), Nat.sub_self, hx]
    rfl

/-- The other side. -/
def Side.other : Side → Side
  | .a => .b
  | .b => .a

theorem turn_snoc (l : List Side) (x : Side) (hx : x = turn l) : turn (l ++ [x]) = x.other := by
  subst hx
  simp only [turn, List.length_append, List.length_singleton]
  rcases Nat.mod_two_eq_zero_or_one l.length with h | h
  · rw [if_neg (by omega), if_pos h]; rfl
  · rw [if_pos (by omega), if_neg (by omega)]; rfl

/-- The successful starts since construction or since the last state change of a
`Reset`, in order. -/
def starts (w : List (Tid × Label)) : List Side :=
  w.foldl (fun l x => match x.2 with
    | .startOk s => l ++ [s]
    | .resetStore => []
    | _ => l) []

/-- What one label does to the sequence of starts. -/
def Label.onStarts (l : List Side) : Label → List Side
  | .startOk s => l ++ [s]
  | .resetStore => []
  | _ => l

omit [DecidableEq Tid] in
theorem starts_snoc (w : List (Tid × Label)) (t : Tid) (l : Label) :
    starts (w ++ [(t, l)]) = l.onStarts (starts w) := by
  unfold starts
  rw [List.foldl_append]
  cases l <;> rfl

/-! ## What the clients promise -/

/-- Only the thread that holds an operation ends it.  `Reset` is called while no
operation is in progress and no other `Reset` is. -/
def Usage (c : Config Tid) (t : Tid) : Label → Prop
  | .endALoad | .endACancelled => Side.a ∈ (c.locals t).held
  | .endBOk | .endBCancelled | .endBRefused => Side.b ∈ (c.locals t).held
  | .resetCheck | .resetRefused =>
    (∀ u, (c.locals u).held = []) ∧ ∀ u, ¬ (c.locals u).pc.inReset
  | _ => True

/-! ## The invariant -/

/-- The side a state is waiting for, or that is next after the running one. -/
def State.next : State → Option Side
  | .bFinished => some .a
  | .aRunning => some .b
  | .aFinished => some .b
  | .bRunning => some .a
  | .cancelled => none

/-- `EndOperationA` has not changed the state yet. -/
def Pc.endingA : Pc → Prop
  | .endALoad | .endAStore => True
  | _ => False

/-- **The lockstep invariant.**  At most one operation is in progress, and its
holder's presence is visible in `state_` unless a cancellation hides it; while
`Reset` is between its check and its store the state is `kCancelled` and nothing
is in progress; the starts so far alternate, and `state_` knows whose turn it
is. -/
structure Inv (w : List (Tid × Label)) (c : Config Tid) : Prop where
  single : ∀ t, (c.locals t).held.length ≤ 1
  exclusive : AtMostOne (fun th : Thread => th.held ≠ []) c.locals
  holder : ∀ t x, x ∈ (c.locals t).held →
    (c.shared.state = x.running ∨ c.shared.state = .cancelled) ∧ turn (starts w) = x.other
  endingA : ∀ t, (c.locals t).pc.endingA → Side.a ∈ (c.locals t).held
  resetting : ∀ t, (c.locals t).pc.resetting →
    c.shared.state = .cancelled ∧ ∀ u, (c.locals u).held = []
  oneReset : AtMostOne (fun th : Thread => th.pc.inReset) c.locals
  alternating : Alternating (starts w)
  next : ∀ x, c.shared.state.next = some x → turn (starts w) = x

omit [DecidableEq Tid] in
theorem inv_initial : Inv [] (initial Tid) where
  single _ := Nat.zero_le 1
  exclusive _ _ h := absurd rfl h
  holder _ _ h := absurd h List.not_mem_nil
  endingA _ h := h.elim
  resetting _ h := h.elim
  oneReset _ _ h := h.elim
  alternating := alternating_nil
  next _ h := Option.some.inj h

variable {w : List (Tid × Label)} {c : Config Tid} {t : Tid} {l : Label} {sh : Shared}
  {th : Thread}

omit [DecidableEq Tid] in
/-- In a state no operation can be running in, none is in progress. -/
theorem Inv.none_held (h : Inv w c) (hc : c.shared.state ≠ .cancelled)
    (hr : ∀ x : Side, c.shared.state ≠ x.running) : ∀ u, (c.locals u).held = [] := by
  intro u
  cases hh : (c.locals u).held with
  | nil => rfl
  | cons x xs =>
    have hx := (h.holder u x (by rw [hh]; exact List.mem_cons_self ..)).1
    exact (hx.elim (hr x) hc).elim

/-- A step that keeps `state_`, starts nothing, and gives up at most operations
of its own. -/
theorem Inv.frame (h : Inv w c) (hstate : sh.state = c.shared.state)
    (hheld : th.held.Sublist (c.locals t).held) (hend : th.pc.endingA → Side.a ∈ th.held)
    (hres : th.pc.resetting → (c.locals t).pc.resetting)
    (hin : th.pc.inReset → (c.locals t).pc.inReset)
    (hstarts : l.onStarts (starts w) = starts w) :
    Inv (w ++ [(t, l)]) ⟨sh, Function.update c.locals t th⟩ where
  single := forall_update (fun th : Thread => th.held.length ≤ 1)
    (Nat.le_trans hheld.length_le (h.single t)) (fun u _ => h.single u)
  exclusive := h.exclusive.update fun hne he => hne (List.sublist_nil.mp (he ▸ hheld))
  holder := by
    rw [starts_snoc, hstarts, hstate]
    exact forall_update (fun th : Thread => ∀ x, x ∈ th.held →
      (c.shared.state = x.running ∨ c.shared.state = .cancelled) ∧ turn (starts w) = x.other)
      (fun x hx => h.holder t x (hheld.subset hx)) (fun u _ => h.holder u)
  endingA := forall_update (fun th : Thread => th.pc.endingA → Side.a ∈ th.held) hend
    (fun u _ => h.endingA u)
  resetting := by
    have hnone : (∀ u, (c.locals u).held = []) →
        ∀ u, (Function.update c.locals t th u).held = [] := fun hn =>
      forall_update (fun th : Thread => th.held = []) (List.sublist_nil.mp (hn t ▸ hheld))
        (fun u _ => hn u)
    intro u hu
    rcases of_update (P := fun th : Thread => th.pc.resetting) hu with ⟨-, hp⟩ | ⟨-, hp⟩
    · exact ⟨hstate.trans (h.resetting t (hres hp)).1, hnone (h.resetting t (hres hp)).2⟩
    · exact ⟨hstate.trans (h.resetting u hp).1, hnone (h.resetting u hp).2⟩
  oneReset := h.oneReset.update hin
  alternating := by rw [starts_snoc, hstarts]; exact h.alternating
  next := by rw [starts_snoc, hstarts, hstate]; exact h.next

/-- The steps that move between the windows of `Reset` are framed as well. -/
theorem Inv.frame_pc (h : Inv w c) (hstate : sh.state = c.shared.state)
    (hheld : th.held = (c.locals t).held) (hend : ¬ th.pc.endingA)
    (hres : th.pc.resetting → (c.locals t).pc.resetting)
    (hin : th.pc.inReset → (c.locals t).pc.inReset)
    (hstarts : l.onStarts (starts w) = starts w) :
    Inv (w ++ [(t, l)]) ⟨sh, Function.update c.locals t th⟩ :=
  h.frame hstate (hheld ▸ List.Sublist.refl _) (fun he => absurd he hend) hres hin hstarts

/-- A successful start.  It needs a state in which nothing is in progress. -/
theorem Inv.start (h : Inv w c) (x : Side) (hpc : (c.locals t).pc = .startCas x)
    (hs : c.shared.state = x.expected) :
    Inv (w ++ [(t, .startOk x)]) ⟨{ c.shared with state := x.running },
      Function.update c.locals t ⟨x :: (c.locals t).held, .idle⟩⟩ := by
  have hcanc : c.shared.state ≠ .cancelled := by rw [hs]; cases x <;> decide
  have hnone := h.none_held hcanc (fun y => by rw [hs]; cases x <;> cases y <;> decide)
  have hturn : x = turn (starts w) := (h.next x (by rw [hs]; cases x <;> rfl)).symm
  have hstarts : starts (w ++ [(t, .startOk x)]) = starts w ++ [x] := starts_snoc ..
  have hnext : turn (starts w ++ [x]) = x.other := turn_snoc _ _ hturn
  refine ⟨?_, ?_, ?_, ?_, ?_, ?_, ?_, ?_⟩
  · exact forall_update (fun th : Thread => th.held.length ≤ 1) (by rw [hnone t]; simp)
      (fun u _ => h.single u)
  · exact AtMostOne.enter (fun u hu => hu (hnone u))
  · rw [hstarts, hnext]
    refine forall_update (fun th : Thread => ∀ y, y ∈ th.held →
      (x.running = y.running ∨ x.running = .cancelled) ∧ x.other = y.other) ?_ ?_
    · intro y hy
      rw [hnone t, List.mem_singleton] at hy
      subst hy
      exact ⟨.inl rfl, rfl⟩
    · intro u _ y hy
      rw [hnone u] at hy
      exact absurd hy List.not_mem_nil
  · exact forall_update (fun th : Thread => th.pc.endingA → Side.a ∈ th.held) (fun hp => hp.elim)
      (fun u _ => h.endingA u)
  · -- nobody is resetting: the state is not `kCancelled`
    intro u hu
    rcases of_update (P := fun th : Thread => th.pc.resetting) hu with ⟨-, hp⟩ | ⟨-, hp⟩
    · exact hp.elim
    · exact absurd (h.resetting u hp).1 hcanc
  · exact h.oneReset.update fun hp => hp.elim
  · rw [hstarts]; exact h.alternating.snoc hturn
  · intro y hy
    rw [hstarts, hnext]
    cases x <;> exact Option.some.inj hy

/-- An operation ends with a state change: its holder leaves, and the other side
is next. -/
theorem Inv.finish (h : Inv w c) (x : Side) (hx : x ∈ (c.locals t).held) {st : State} {pc : Pc}
    (hnext : st.next = some x.other) (hpc : ¬ pc.endingA) (hres : ¬ pc.inReset)
    (hstarts : l.onStarts (starts w) = starts w) :
    Inv (w ++ [(t, l)]) ⟨{ c.shared with state := st },
      Function.update c.locals t ⟨(c.locals t).held.erase x, pc⟩⟩ := by
  have hnone : ∀ u, (Function.update c.locals t
      (⟨(c.locals t).held.erase x, pc⟩ : Thread) u).held = [] := by
    refine forall_update (fun th : Thread => th.held = []) ?_ ?_
    · have hlen := h.single t
      obtain ⟨y, hy⟩ := List.length_eq_one_iff.mp
        (Nat.le_antisymm hlen (List.length_pos_of_mem hx))
      rw [hy, List.mem_singleton] at hx
      simp [hy, hx]
    · intro u hu
      by_contra hne
      exact hu (h.exclusive u t hne (List.ne_nil_of_mem hx))
  refine ⟨?_, ?_, ?_, ?_, ?_, ?_, ?_, ?_⟩
  · intro u; rw [hnone u]; exact Nat.zero_le 1
  · intro u v hu; exact absurd (hnone u) hu
  · intro u y hy; rw [hnone u] at hy; exact absurd hy List.not_mem_nil
  · -- another thread ending A would hold it
    intro u hu
    rcases of_update (P := fun th : Thread => th.pc.endingA) hu with ⟨-, hp⟩ | ⟨hne, hp⟩
    · exact absurd hp hpc
    · exact absurd (h.exclusive u t (List.ne_nil_of_mem (h.endingA u hp))
        (List.ne_nil_of_mem hx)) hne
  · intro u hu
    rcases of_update (P := fun th : Thread => th.pc.resetting) hu with ⟨-, hp⟩ | ⟨-, hp⟩
    · exact absurd hp.inReset hres
    · rw [(h.resetting u hp).2 t] at hx
      exact absurd hx List.not_mem_nil
  · exact h.oneReset.update fun hp => absurd hp hres
  · rw [starts_snoc, hstarts]; exact h.alternating
  · intro y hy
    rw [starts_snoc, hstarts, (h.holder t x hx).2]
    exact Option.some.inj (hnext.symm.trans hy)

/-- `Cancel` stores `kCancelled`. -/
theorem Inv.cancel (h : Inv w c) {pc : Pc} (hpc : ¬ pc.endingA) (hres : ¬ pc.inReset)
    (hstarts : l.onStarts (starts w) = starts w) :
    Inv (w ++ [(t, l)]) ⟨{ c.shared with state := .cancelled },
      Function.update c.locals t { c.locals t with pc := pc }⟩ := by
  have hframe : Inv (w ++ [(t, l)])
      ⟨c.shared, Function.update c.locals t { c.locals t with pc := pc }⟩ :=
    h.frame_pc rfl rfl hpc (fun hp => absurd hp.inReset hres) (fun hp => absurd hp hres) hstarts
  exact { hframe with
    holder := fun u x hx => ⟨.inr rfl, (hframe.holder u x hx).2⟩
    resetting := fun u hu => ⟨rfl, (hframe.resetting u hu).2⟩
    next := fun x hx => nomatch hx }

/-- `Reset` passes its check. -/
theorem Inv.resetCheck (h : Inv w c) (hs : c.shared.state = .cancelled)
    (hheld : ∀ u, (c.locals u).held = []) (hin : ∀ u, ¬ (c.locals u).pc.inReset) :
    Inv (w ++ [(t, .resetCheck)])
      ⟨c.shared, Function.update c.locals t { c.locals t with pc := .resetWaitA }⟩ where
  single := forall_update (fun th : Thread => th.held.length ≤ 1) (h.single t)
    (fun u _ => h.single u)
  exclusive := h.exclusive.update (l := { c.locals t with pc := .resetWaitA }) id
  holder := by
    rw [starts_snoc]
    exact forall_update (fun th : Thread => ∀ x, x ∈ th.held →
      (c.shared.state = x.running ∨ c.shared.state = .cancelled) ∧ turn (starts w) = x.other)
      (h.holder t) (fun u _ => h.holder u)
  endingA := forall_update (fun th : Thread => th.pc.endingA → Side.a ∈ th.held)
    (fun hp => hp.elim) (fun u _ => h.endingA u)
  resetting := fun _ _ => ⟨hs, forall_update (fun th : Thread => th.held = []) (hheld t)
    (fun u _ => hheld u)⟩
  oneReset := AtMostOne.enter hin
  alternating := by rw [starts_snoc]; exact h.alternating
  next := by rw [starts_snoc]; exact h.next

/-- `Reset` stores `kBFinished`: a new sequence of starts begins. -/
theorem Inv.resetStore (h : Inv w c) (hpc : (c.locals t).pc = .resetStore) :
    Inv (w ++ [(t, .resetStore)]) ⟨{ c.shared with state := .bFinished },
      Function.update c.locals t { c.locals t with pc := .resetPost }⟩ := by
  have hres : (c.locals t).pc.resetting := by rw [hpc]; trivial
  have hheld := (h.resetting t hres).2
  have hnone : ∀ u, (Function.update c.locals t
      { c.locals t with pc := .resetPost } u).held = [] :=
    forall_update (fun th : Thread => th.held = []) (hheld t) (fun u _ => hheld u)
  have hstarts : starts (w ++ [(t, Label.resetStore)]) = [] := starts_snoc ..
  refine ⟨?_, ?_, ?_, ?_, ?_, ?_, ?_, ?_⟩
  · intro u; rw [hnone u]; exact Nat.zero_le 1
  · intro u v hu; exact absurd (hnone u) hu
  · intro u y hy; rw [hnone u] at hy; exact absurd hy List.not_mem_nil
  · intro u hu
    rcases of_update (P := fun th : Thread => th.pc.endingA) hu with ⟨-, hp⟩ | ⟨-, hp⟩
    · exact hp.elim
    · have ha := h.endingA u hp
      rw [hheld u] at ha
      exact absurd ha List.not_mem_nil
  · -- a second `Reset` between its check and its store would be a second `Reset`
    intro u hu
    rcases of_update (P := fun th : Thread => th.pc.resetting) hu with ⟨-, hp⟩ | ⟨hne, hp⟩
    · exact hp.elim
    · exact absurd (h.oneReset u t hp.inReset hres.inReset) hne
  · exact h.oneReset.update fun _ => hres.inReset
  · rw [hstarts]; exact alternating_nil
  · intro x hx; rw [hstarts]; exact Option.some.inj hx

/-- **Every step of every thread keeps the invariant.** -/
theorem inv_step {d : Config Tid} (h : Inv w c) (hs : Pool.Step Atom Usage c (t, l) d) :
    Inv (w ++ [(t, l)]) d := by
  cases hs with
  | mk hok hatom =>
    cases hatom with
    | startWait x f st hpc hwait =>
      refine h.frame_pc (x.setAwaited_state ..) rfl ?_ ?_ ?_ rfl <;> dsimp only <;> split <;>
        exact fun hp => hp.elim
    | startOk x hpc hs => exact h.start x hpc hs
    | startCancelled x hpc hs | startRefused x hpc hs hc =>
      exact h.frame_pc rfl rfl (fun hp => hp) (fun hp => hp.elim) (fun hp => hp.elim) rfl
    | startRepost x hpc =>
      exact h.frame_pc (x.setAwaited_state ..) rfl (fun hp => hp) (fun hp => hp.elim)
        (fun hp => hp.elim) rfl
    | endACancelled hpc hs | endARefused hpc hs | endBCancelled hpc hs | endBRefused hpc hs hc =>
      exact h.frame rfl List.erase_sublist (fun hp => hp.elim) (fun hp => hp.elim)
        (fun hp => hp.elim) rfl
    | endALoad hpc hs =>
      exact h.frame rfl (List.Sublist.refl _) (fun _ => hok) (fun hp => hp.elim)
        (fun hp => hp.elim) rfl
    | endAReload hpc hs =>
      exact h.frame rfl (List.Sublist.refl _) (fun _ => h.endingA t (by rw [hpc]; trivial))
        (fun hp => hp.elim) (fun hp => hp.elim) rfl
    | endAStore hpc =>
      exact h.finish .a (h.endingA t (by rw [hpc]; trivial)) rfl (fun hp => hp) (fun hp => hp) rfl
    | endBOk hpc hs => exact h.finish .b hok rfl (fun hp => hp) (fun hp => hp) rfl
    | endAPost hpc | endBPost hpc | cancelPostA hpc | cancelPostB hpc | resetRefused hpc hs
    | resetPost hpc =>
      exact h.frame_pc rfl rfl (fun hp => hp) (fun hp => hp.elim) (fun hp => hp.elim) rfl
    | cancelStore hpc => exact h.cancel (fun hp => hp) (fun hp => hp) rfl
    | resetCheck hpc hs => exact h.resetCheck hs hok.1 hok.2
    | resetWaitA f st hpc hwait =>
      refine h.frame_pc rfl rfl ?_ (fun _ => by rw [hpc]; trivial) (fun _ => by rw [hpc]; trivial)
        rfl
      dsimp only; split <;> exact fun hp => hp
    | resetWaitB f st hpc hwait =>
      refine h.frame_pc rfl rfl ?_ (fun _ => by rw [hpc]; trivial) (fun _ => by rw [hpc]; trivial)
        rfl
      dsimp only; split <;> exact fun hp => hp
    | resetStore hpc => exact h.resetStore hpc

theorem inv_run (h : Run (Pool.Step Atom Usage) (initial Tid) w c) : Inv w c :=
  h.invariant inv_initial fun _ _ x _ hi hs => inv_step (t := x.1) (l := x.2) hi hs

/-- **Mutual exclusion and strict alternation.**  In every state that any number
of threads can bring the lockstep into, no thread has two operations in
progress, no two threads have one each, and the successful starts since
construction or since the last `Reset` changed the state are A, B, A, B, … -/
theorem exclusive_and_alternating (h : Run (Pool.Step Atom Usage) (initial Tid) w c) :
    (∀ t, (c.locals t).held.length ≤ 1) ∧
      (∀ t u, (c.locals t).held ≠ [] → (c.locals u).held ≠ [] → t = u) ∧
      Alternating (starts w) :=
  ⟨(inv_run h).single, (inv_run h).exclusive, (inv_run h).alternating⟩

/-- Thread `false` has operation A and is about to store `kAFinished`. -/
theorem endingA_run : Run (Pool.Step Atom Usage) (initial Bool)
    [(false, .startWait .a rtOkStatus), (false, .startOk .a), (false, .endALoad),
      (false, .endAReload)]
    (.two ⟨.ready, .ready, .aRunning⟩ ⟨[.a], .endAStore⟩ ⟨[], .idle⟩) := by
  rw [Pool.eq_two (initial Bool)]
  refine .cons (.first trivial (.startWait .a .ready _ rfl .taken)) ?_
  refine .cons (.first trivial (.startOk .a rfl rfl)) ?_
  refine .cons (.first (List.mem_cons_self ..) (.endALoad rfl (by decide))) ?_
  exact .single (.first trivial (.endAReload rfl rfl))

/-- Thread `false` performs operation A and thread `true` starts operation B. -/
theorem exclusive_and_alternating_one_round :
    ∃ (w : List (Bool × Label)) (c : Config Bool),
      Run (Pool.Step Atom Usage) (initial Bool) w c ∧ starts w = [.a, .b] ∧
        (c.locals true).held = [.b] ∧
        (∀ t, (c.locals t).held.length ≤ 1) ∧
        (∀ t u, (c.locals t).held ≠ [] → (c.locals u).held ≠ [] → t = u) ∧
        Alternating (starts w) := by
  have h : Run (Pool.Step Atom Usage) (initial Bool)
      [(false, .startWait .a rtOkStatus), (false, .startOk .a), (false, .endALoad),
        (false, .endAReload), (false, .endAStore), (false, .endAPost rtOkStatus),
        (true, .startWait .b rtOkStatus), (true, .startOk .b)]
      (.two ⟨.ready, .ready, .bRunning⟩ ⟨[], .idle⟩ ⟨[.b], .idle⟩) := by
    refine endingA_run.append ?_
    refine .cons (.first trivial (.endAStore rfl)) ?_
    refine .cons (.first trivial (.endAPost rfl)) ?_
    refine .cons (.second trivial (.startWait .b .ready _ rfl .taken)) ?_
    exact .single (.second trivial (.startOk .b rfl rfl))
  exact ⟨_, _, h, rfl, rfl, exclusive_and_alternating h⟩

/-! ## Cancellation

`Cancel` stores `kCancelled` unconditionally, and two other stores are
unconditional too: `EndOperationA`'s and `Reset`'s.  Each was preceded by a
check, and a cancellation that arrives between the check and the store is
overwritten. -/

/-- The step is the state check of a start. -/
def Label.startCheck : Label → Option Side
  | .startOk x | .startCancelled x | .startRefused x => some x
  | _ => none

/-- No `Cancel` stores `kCancelled` while a thread is in `EndOperationA` between
its second load and its store, or in `Reset` between its check and its store. -/
def CancelOutsideWindows (c : Config Tid) (_t : Tid) (l : Label) : Prop :=
  l = .cancelStore → ∀ u, (c.locals u).pc ≠ .endAStore ∧ ¬ (c.locals u).pc.resetting

/-- A `Reset` that was called in `v` also changed the state in `v`. -/
def ResetAfter (v : List (Tid × Label)) : Prop :=
  ∃ r v₁ v₂ v₃, v = v₁ ++ (r, .resetCheck) :: v₂ ++ (r, .resetStore) :: v₃

omit [DecidableEq Tid] in
theorem ResetAfter.snoc {v : List (Tid × Label)} (h : ResetAfter v) (x : Tid × Label) :
    ResetAfter (v ++ [x]) := by
  obtain ⟨r, v₁, v₂, v₃, rfl⟩ := h
  exact ⟨r, v₁, v₂, v₃ ++ [x], by simp⟩

omit [DecidableEq Tid] in
theorem resetAfter_of_mem {v : List (Tid × Label)} {r : Tid} (h : (r, Label.resetCheck) ∈ v) :
    ResetAfter (v ++ [(r, .resetStore)]) := by
  obtain ⟨v₁, v₂, rfl⟩ := List.append_of_mem h
  exact ⟨r, v₁, v₂, [], rfl⟩

/-- What holds after a cancellation, once the steps `v` have followed it: the
state is `kCancelled`, no store that could overwrite it is pending except that
of a `Reset` called in `v`, and every start checked in `v` saw `kCancelled`. -/
structure Sticky (v : List (Tid × Label)) (c : Config Tid) : Prop where
  state : c.shared.state = .cancelled
  noStore : ∀ u, (c.locals u).pc ≠ .endAStore
  resetIn : ∀ u, (c.locals u).pc.resetting → (u, Label.resetCheck) ∈ v
  checks : ∀ y ∈ v, ∀ x, y.2.startCheck = some x → y.2 = .startCancelled x

theorem Sticky.frame {v : List (Tid × Label)} (h : Sticky v c) (hstate : sh.state = .cancelled)
    (hend : th.pc ≠ .endAStore)
    (hres : th.pc.resetting → (c.locals t).pc.resetting ∨ l = .resetCheck)
    (hcheck : ∀ x, l.startCheck = some x → l = .startCancelled x) :
    Sticky (v ++ [(t, l)]) ⟨sh, Function.update c.locals t th⟩ where
  state := hstate
  noStore := forall_update (fun th : Thread => th.pc ≠ .endAStore) hend (fun u _ => h.noStore u)
  resetIn := by
    intro u hu
    rcases of_update (P := fun th : Thread => th.pc.resetting) hu with ⟨rfl, hp⟩ | ⟨-, hp⟩
    · rcases hres hp with hold | rfl
      · exact List.mem_append_left _ (h.resetIn u hold)
      · exact List.mem_append_right _ (List.mem_singleton.mpr rfl)
    · exact List.mem_append_left _ (h.resetIn u hp)
  checks := by
    intro y hy x hx
    rcases List.mem_append.mp hy with hy | hy
    · exact h.checks y hy x hx
    · rw [List.mem_singleton] at hy
      subst hy
      exact hcheck x hx

/-- A step keeps the cancellation, unless it is the store of a `Reset` called
after it. -/
theorem Sticky.step {v : List (Tid × Label)} {d : Config Tid}
    {ok : Config Tid → Tid → Label → Prop} (h : Sticky v c) (hs : Pool.Step Atom ok c (t, l) d)
    (hno : ¬ ResetAfter (v ++ [(t, l)])) : Sticky (v ++ [(t, l)]) d := by
  cases hs with
  | mk hok hatom =>
    cases hatom with
    | startWait x f st hpc hwait =>
      refine h.frame ((x.setAwaited_state ..).trans h.state) ?_ ?_ (fun y hy => nomatch hy)
      · dsimp only; split <;> simp
      · dsimp only; split <;> exact fun hp => hp.elim
    | startOk x hpc hs =>
      rw [h.state] at hs
      cases x <;> cases hs
    | startRefused x hpc hs hc => exact absurd h.state hc
    | startCancelled x hpc hs =>
      refine h.frame h.state (by simp) (fun hp => hp.elim) (fun y hy => ?_)
      rw [Option.some.inj hy]
    | startRepost x hpc =>
      exact h.frame ((x.setAwaited_state ..).trans h.state) (by simp) (fun hp => hp.elim)
        (fun y hy => nomatch hy)
    | endAReload hpc hs =>
      rw [h.state] at hs
      cases hs
    | endAStore hpc => exact absurd hpc (h.noStore t)
    | endBOk hpc hs =>
      rw [h.state] at hs
      cases hs
    | endACancelled hpc hs | endALoad hpc hs | endARefused hpc hs | endBCancelled hpc hs
    | endBRefused hpc hs hc | resetRefused hpc hs | endAPost hpc | endBPost hpc | cancelPostA hpc
    | cancelPostB hpc | resetPost hpc =>
      exact h.frame h.state (by simp) (fun hp => hp.elim) (fun y hy => nomatch hy)
    | cancelStore hpc =>
      exact h.frame rfl (by simp) (fun hp => hp.elim) (fun y hy => nomatch hy)
    | resetCheck hpc hs =>
      exact h.frame h.state (by simp) (fun _ => .inr rfl) (fun y hy => nomatch hy)
    | resetWaitA f st hpc hwait | resetWaitB f st hpc hwait =>
      refine h.frame h.state ?_ (fun _ => .inl (by rw [hpc]; trivial)) (fun y hy => nomatch hy)
      dsimp only; split <;> simp
    | resetStore hpc =>
      exact absurd (resetAfter_of_mem (h.resetIn t (by rw [hpc]; trivial))) hno

/-- The store of a `Cancel` outside the two windows. -/
theorem sticky_of_cancelStore {d : Config Tid}
    (hs : Pool.Step Atom CancelOutsideWindows c (t, .cancelStore) d) : Sticky [] d := by
  cases hs with
  | mk hok hatom =>
    have hwin := hok rfl
    cases hatom with
    | cancelStore hpc =>
      refine ⟨rfl, ?_, ?_, fun y hy => absurd hy List.not_mem_nil⟩
      · exact forall_update (fun th : Thread => th.pc ≠ .endAStore) (by simp)
          (fun u _ => (hwin u).1)
      · intro u hu
        rcases of_update (P := fun th : Thread => th.pc.resetting) hu with ⟨-, hp⟩ | ⟨-, hp⟩
        · exact hp.elim
        · exact absurd hp (hwin u).2

/-- **A cancellation lasts until a `Reset` called after it.**  In every run in
which no `Cancel` falls into one of the two windows, and after any `Cancel` has
stored `kCancelled`, the state stays `kCancelled` and every start whose state
check follows sees the cancellation, until a `Reset` that was called after that
`Cancel` changes the state. -/
theorem cancelled_until_reset {u v : List (Tid × Label)}
    (h : Run (Pool.Step Atom CancelOutsideWindows) (initial Tid) (u ++ [(t, .cancelStore)] ++ v) c)
    (hno : ¬ ResetAfter v) :
    c.shared.state = .cancelled ∧
      ∀ y ∈ v, ∀ x, y.2.startCheck = some x → y.2 = .startCancelled x := by
  obtain ⟨d, h1, h2⟩ := h.split
  obtain ⟨e, -, hs⟩ := h1.unsnoc
  have hsticky : ¬ ResetAfter v → Sticky v c :=
    h2.invariant (I := fun v c => ¬ ResetAfter v → Sticky v c)
      (fun _ => sticky_of_cancelStore hs)
      (fun v' _ y _ hi hst hn =>
        Sticky.step (t := y.1) (l := y.2) (hi fun hr => hn (hr.snoc y)) hst hn)
  exact ⟨(hsticky hno).state, (hsticky hno).checks⟩

/-- Thread `true` cancels a fresh lockstep and thread `false` then tries to start
operation A. -/
theorem cancelled_until_reset_fresh :
    ∃ c : Config Bool,
      Run (Pool.Step Atom CancelOutsideWindows) (initial Bool)
        ([] ++ [(true, .cancelStore)] ++
          [(false, .startWait .a rtOkStatus), (false, .startCancelled .a)]) c ∧
      c.shared.state = .cancelled := by
  have hfree : ∀ {c : Config Bool} {t : Bool} {l : Label}, l ≠ .cancelStore →
      CancelOutsideWindows c t l := fun hl he => absurd he hl
  have h : Run (Pool.Step Atom CancelOutsideWindows) (initial Bool)
      ([] ++ [(true, .cancelStore)] ++
        [(false, .startWait .a rtOkStatus), (false, .startCancelled .a)])
      (.two ⟨.ready, .ready, .cancelled⟩ ⟨[], .startRepost .a⟩ ⟨[], .cancelPostA⟩) := by
    rw [Pool.eq_two (initial Bool)]
    refine .cons (.second (fun _ u => by cases u <;> decide) (.cancelStore rfl)) ?_
    refine .cons (.first (hfree (by simp)) (.startWait .a .ready _ rfl .taken)) ?_
    exact .single (.first (hfree (by simp)) (.startCancelled .a rfl rfl))
  refine ⟨_, h, (cancelled_until_reset (u := []) h ?_).1⟩
  rintro ⟨r, v₁, v₂, v₃, hv⟩
  have hmem : (r, Label.resetStore) ∈ v₁ ++ (r, Label.resetCheck) :: v₂ ++ (r, .resetStore) :: v₃ :=
    List.mem_append_right _ (List.mem_cons_self ..)
  rw [← hv] at hmem
  simp at hmem

/-- **`EndOperationA` can overwrite a cancellation.**  Thread `false` holds
operation A and has done both loads of `EndOperationA` when thread `true`
cancels.  The store that follows replaces `kCancelled`, and the next start of
operation B succeeds although nobody called `Reset`. -/
theorem cancel_overwritten_by_endOperationA :
    ∃ (u v : List (Bool × Label)) (c : Config Bool),
      Run (Pool.Step Atom Usage) (initial Bool) (u ++ [(true, .cancelStore)] ++ v) c ∧
        (∀ y ∈ v, y.2 ≠ .resetCheck ∧ y.2 ≠ .resetStore) ∧
        c.shared.state = .bRunning ∧ (true, .startOk .b) ∈ v := by
  refine ⟨[(false, .startWait .a rtOkStatus), (false, .startOk .a), (false, .endALoad),
      (false, .endAReload)],
    [(false, .endAStore), (true, .cancelPostA), (true, .cancelPostB),
      (true, .startWait .b rtOkStatus), (true, .startOk .b)],
    .two ⟨.ready, .posted, .bRunning⟩ ⟨[], .endAPost⟩ ⟨[.b], .idle⟩, ?_, by simp, rfl, by simp⟩
  rw [List.append_assoc]
  refine endingA_run.append ?_
  refine .cons (.second trivial (.cancelStore rfl)) ?_
  refine .cons (.first trivial (.endAStore rfl)) ?_
  refine .cons (.second trivial (.cancelPostA rfl)) ?_
  refine .cons (.second trivial (.cancelPostB rfl)) ?_
  refine .cons (.second trivial (.startWait .b .ready _ rfl .taken)) ?_
  exact .single (.second trivial (.startOk .b rfl rfl))

end Intrinsic.Lockstep
