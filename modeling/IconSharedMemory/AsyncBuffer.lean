import IconSharedMemory.Runs
import Mathlib.Data.List.Perm.Basic

/-! # The triple buffer

`AsyncBuffer` (`icon/utils/async_buffer.h`) hands data from one producer to one
consumer without copying it and without either ever waiting.  It owns three
buffers.  One atomic word, `State`, says which of them the consumer reads (the
active one), which the producer fills (the free one) and which is in between (the
mailbox), and whether the mailbox holds something the consumer has not seen.
Both sides change the word with a compare-exchange in a loop.

The first part of the module translates the data and the member functions as one
thread runs them.  The second part is the concurrent buffer: each load and each
compare-exchange is a step, and a compare-exchange fails when the other side has
changed the word since the load.  A word that has changed and changed back makes
the compare-exchange succeed, as in the source.

The result (`asyncBuffer_correct`) is about every interleaving: the two sides
never hold the same buffer, and what the consumer gets is the newest commit at
its compare-exchange and stays as it is until the next one.
-/
namespace Intrinsic
open Runs

namespace AsyncBuffer

/-- `AsyncBuffer::State` -/
structure State where
  activeIndex : Nat
  mailboxIndex : Nat
  freeIndex : Nat
  mailboxFull : Bool
  deriving DecidableEq, Repr

namespace State

def init : State := ⟨0, 1, 2, false⟩

def isConsistent (s : State) : Bool :=
  s.activeIndex < 3 && s.mailboxIndex < 3 && s.freeIndex < 3 &&
    (s.activeIndex != s.mailboxIndex) && (s.mailboxIndex != s.freeIndex) &&
    (s.freeIndex != s.activeIndex)

/-- The next state of `GetActiveBuffer`. -/
def fetched (s : State) : State :=
  if s.mailboxFull then ⟨s.mailboxIndex, s.activeIndex, s.freeIndex, false⟩ else s

/-- The next state of `CommitFreeBuffer`. -/
def committed (s : State) : State := ⟨s.activeIndex, s.freeIndex, s.mailboxIndex, true⟩

end State
end AsyncBuffer

open AsyncBuffer (State)

/-- `AsyncBuffer<T>` -/
structure AsyncBuffer (α : Type) where
  state : State
  freeBufferCheckedOut : Bool
  buffers : Nat → α

namespace AsyncBuffer
variable {α : Type}

/-- A new buffer, with what `T`'s constructor left in the three buffers. -/
def make (buffers : Nat → α) : AsyncBuffer α := ⟨.init, false, buffers⟩

/-- `GetFreeBuffer()`: the index of the buffer it returns. -/
def getFreeBuffer (b : AsyncBuffer α) : Nat × AsyncBuffer α :=
  (b.state.freeIndex, { b with freeBufferCheckedOut := true })

/-- Assignment through the pointer to a buffer. -/
def write (b : AsyncBuffer α) (i : Nat) (v : α) : AsyncBuffer α :=
  { b with buffers := Function.update b.buffers i v }

/-- `CommitFreeBuffer()` without a concurrent consumer. -/
def commitFreeBuffer (b : AsyncBuffer α) : Bool × AsyncBuffer α :=
  if b.freeBufferCheckedOut then
    (true, { b with state := b.state.committed, freeBufferCheckedOut := false })
  else (false, b)

/-- `GetActiveBuffer(&buffer)` without a concurrent producer: the returned flag
and the index of the buffer. -/
def getActiveBuffer (b : AsyncBuffer α) : (Bool × Nat) × AsyncBuffer α :=
  ((b.state.mailboxFull, b.state.fetched.activeIndex), { b with state := b.state.fetched })

/-! ## The concurrent buffer -/

/-- Where the producer is. -/
inductive Producer
  /-- Between calls, with nothing checked out. -/
  | idle
  /-- Between calls, with the buffer `GetFreeBuffer` returned. -/
  | held (i : Nat)
  /-- `CommitFreeBuffer` is about to load the state. -/
  | commitLoad (i : Nat)
  /-- `CommitFreeBuffer` has loaded the state and computed the next one. -/
  | commitCas (i : Nat) (current : State)

/-- Where the consumer is; `last` is the buffer `GetActiveBuffer` returned last. -/
inductive Consumer
  /-- Between calls. -/
  | idle (last : Option Nat)
  /-- `GetActiveBuffer` is about to load the state again. -/
  | load (last : Option Nat)
  /-- `GetActiveBuffer` has loaded the state and computed the next one. -/
  | cas (last : Option Nat) (current : State)

/-- The buffer the producer has checked out. -/
def Producer.slot : Producer → Option Nat
  | .idle => none
  | .held i | .commitLoad i | .commitCas i _ => some i

/-- The buffer last returned to the consumer. -/
def Consumer.slot : Consumer → Option Nat
  | .idle last | .load last | .cas last _ => last

/-- What a step shows to an observer. -/
inductive Label (α : Type)
  | internal
  /-- `CommitFreeBuffer` committed these contents. -/
  | commit (v : α)
  /-- `GetActiveBuffer` returned this buffer and this flag. -/
  | got (i : Nat) (full : Bool)

/-- A triple buffer and its two users. -/
structure System (α : Type) where
  buf : AsyncBuffer α
  prod : Producer
  cons : Consumer

def initial (buffers : Nat → α) : System α := ⟨.make buffers, .idle, .idle none⟩

/-- **The steps of the producer.** -/
inductive ProdStep : AsyncBuffer α × Producer → Label α → AsyncBuffer α × Producer → Prop
  /-- `GetFreeBuffer` loads the state.  It may be called again before a commit. -/
  | getFree {b : AsyncBuffer α} {pc : Producer} (hpc : pc = .idle ∨ ∃ i, pc = .held i) :
      ProdStep (b, pc) .internal (b.getFreeBuffer.2, .held b.getFreeBuffer.1)
  | write {b : AsyncBuffer α} {i : Nat} (v : α) :
      ProdStep (b, .held i) .internal (b.write i v, .held i)
  /-- `CommitFreeBuffer` with nothing checked out returns false. -/
  | commitNothing {b : AsyncBuffer α} (hflag : b.freeBufferCheckedOut = false) :
      ProdStep (b, .idle) .internal (b, .idle)
  | commit {b : AsyncBuffer α} {i : Nat} (hflag : b.freeBufferCheckedOut = true) :
      ProdStep (b, .held i) .internal (b, .commitLoad i)
  | commitLoad {b : AsyncBuffer α} {i : Nat} :
      ProdStep (b, .commitLoad i) .internal (b, .commitCas i b.state)
  | commitOk {b : AsyncBuffer α} {i : Nat} {current : State} (hcas : b.state = current) :
      ProdStep (b, .commitCas i current) (.commit (b.buffers current.freeIndex))
        ({ b with state := current.committed, freeBufferCheckedOut := false }, .idle)
  | commitFail {b : AsyncBuffer α} {i : Nat} {current : State} (hcas : b.state ≠ current) :
      ProdStep (b, .commitCas i current) .internal (b, .commitLoad i)

/-- **The steps of the consumer.** -/
inductive ConsStep : AsyncBuffer α × Consumer → Label α → AsyncBuffer α × Consumer → Prop
  | load {b : AsyncBuffer α} {pc : Consumer} {last : Option Nat}
      (hpc : pc = .idle last ∨ pc = .load last) :
      ConsStep (b, pc) .internal (b, .cas last b.state)
  | casOk {b : AsyncBuffer α} {last : Option Nat} {current : State} (hcas : b.state = current) :
      ConsStep (b, .cas last current) (.got current.fetched.activeIndex current.mailboxFull)
        ({ b with state := current.fetched }, .idle (some current.fetched.activeIndex))
  | casFail {b : AsyncBuffer α} {last : Option Nat} {current : State} (hcas : b.state ≠ current) :
      ConsStep (b, .cas last current) .internal (b, .load last)

/-- **One step of the system.** -/
inductive Step : System α → Label α → System α → Prop
  | prod {s : System α} {l : Label α} {b : AsyncBuffer α} {pc : Producer}
      (h : ProdStep (s.buf, s.prod) l (b, pc)) : Step s l ⟨b, pc, s.cons⟩
  | cons {s : System α} {l : Label α} {b : AsyncBuffer α} {pc : Consumer}
      (h : ConsStep (s.buf, s.cons) l (b, pc)) : Step s l ⟨b, s.prod, pc⟩

/-! ## Commits -/

/-- The contents committed along a word, in order, and how many of them there
were when the consumer last got a buffer. -/
def history (w : List (Label α)) : List α × Nat :=
  w.foldl (fun h l =>
    match l with
    | .internal => h
    | .commit v => (h.1 ++ [v], h.2)
    | .got _ _ => (h.1, h.1.length)) ([], 0)

/-- The contents committed along a word. -/
def commits (w : List (Label α)) : List α := (history w).1

/-- The number of the commit that the consumer got last; 0 stands for the
contents the buffers were constructed with. -/
def lastGot (w : List (Label α)) : Nat := (history w).2

@[simp] theorem history_internal (w : List (Label α)) :
    history (w ++ [.internal]) = history w := by
  simp [history, List.foldl_append]

@[simp] theorem history_commit (w : List (Label α)) (v : α) :
    history (w ++ [.commit v]) = ((history w).1 ++ [v], (history w).2) := by
  simp [history, List.foldl_append]

@[simp] theorem history_got (w : List (Label α)) (i : Nat) (f : Bool) :
    history (w ++ [.got i f]) = ((history w).1, (history w).1.length) := by
  simp [history, List.foldl_append]

/-! ## The invariant -/

variable {buffers₀ : Nat → α} {w : List (Label α)} {s s' : System α} {l : Label α}

/-- The three indices are a permutation of 0, 1, 2. -/
def State.Permutes (s : State) : Prop :=
  [s.activeIndex, s.mailboxIndex, s.freeIndex].Perm [0, 1, 2]

theorem State.Permutes.distinct {s : State} (h : s.Permutes) :
    s.activeIndex ≠ s.mailboxIndex ∧ s.activeIndex ≠ s.freeIndex ∧
      s.mailboxIndex ≠ s.freeIndex := by
  have hnodup := h.nodup_iff.mpr (by decide : [0, 1, 2].Nodup)
  simpa [List.nodup_cons, and_assoc] using hnodup

/-- The consistency check of debug builds passes. -/
theorem State.Permutes.isConsistent {s : State} (h : s.Permutes) : s.isConsistent = true := by
  have hlt : ∀ i ∈ [s.activeIndex, s.mailboxIndex, s.freeIndex], i < 3 := by
    intro i hi
    have hmem := h.subset hi
    simp only [List.mem_cons, List.not_mem_nil, or_false] at hmem
    omega
  obtain ⟨ham, haf, hmf⟩ := h.distinct
  simp [State.isConsistent, hlt, ham, hmf, Ne.symm haf]

theorem State.Permutes.fetched {s : State} (h : s.Permutes) : s.fetched.Permutes := by
  unfold State.fetched
  split
  · exact (List.Perm.swap _ _ _).trans h
  · exact h

theorem State.Permutes.committed {s : State} (h : s.Permutes) : s.committed.Permutes :=
  ((List.Perm.swap _ _ _).cons _).trans h

@[simp] theorem State.fetched_freeIndex (s : State) : s.fetched.freeIndex = s.freeIndex := by
  unfold State.fetched
  split <;> rfl

/-- The contents the consumer could have got so far: those it started with, then
the commits. -/
def versions (buffers₀ : Nat → α) (w : List (Label α)) : List α := buffers₀ 0 :: commits w

/-- **The invariant.**  The side that has a buffer has the right one, the active
buffer holds the version the consumer got last, and a full mailbox holds the
newest one. -/
structure Inv (buffers₀ : Nat → α) (w : List (Label α)) (s : System α) : Prop where
  permutes : s.buf.state.Permutes
  prodSlot : ∀ i, s.prod.slot = some i → i = s.buf.state.freeIndex
  consSlot : ∀ i, s.cons.slot = some i → i = s.buf.state.activeIndex
  active : (versions buffers₀ w)[lastGot w]? = some (s.buf.buffers s.buf.state.activeIndex)
  empty : s.buf.state.mailboxFull = false → lastGot w = (commits w).length
  full : s.buf.state.mailboxFull = true → lastGot w < (commits w).length ∧
    (versions buffers₀ w)[(commits w).length]? = some (s.buf.buffers s.buf.state.mailboxIndex)

theorem inv_initial (buffers₀ : Nat → α) : Inv buffers₀ [] (initial buffers₀) where
  permutes := List.Perm.refl _
  prodSlot := nofun
  consSlot := nofun
  active := rfl
  empty _ := rfl
  full := nofun

theorem Inv.lastGot_le (h : Inv buffers₀ w s) : lastGot w ≤ (commits w).length := by
  cases hf : s.buf.state.mailboxFull with
  | false => exact Nat.le_of_eq (h.empty hf)
  | true => exact Nat.le_of_lt (h.full hf).1

/-- Steps that show nothing and leave the word and the contents alone. -/
theorem Inv.internal {b : AsyncBuffer α} {prod : Producer} {cons : Consumer} (h : Inv buffers₀ w s)
    (hstate : b.state = s.buf.state) (hbuf : b.buffers = s.buf.buffers)
    (hprod : ∀ i, prod.slot = some i → i = s.buf.state.freeIndex)
    (hcons : ∀ i, cons.slot = some i → i = s.buf.state.activeIndex) :
    Inv buffers₀ (w ++ [.internal]) ⟨b, prod, cons⟩ := by
  have hcommits : commits (w ++ [.internal]) = commits w := by simp [commits]
  have hlast : lastGot (w ++ [.internal]) = lastGot w := by simp [lastGot]
  refine ⟨?_, ?_, ?_, ?_, ?_, ?_⟩ <;> dsimp only
  · rw [hstate]; exact h.permutes
  · rw [hstate]; exact hprod
  · rw [hstate]; exact hcons
  · rw [versions, hcommits, hlast, hstate, hbuf]; exact h.active
  · rw [hcommits, hlast, hstate]; exact h.empty
  · rw [versions, hcommits, hlast, hstate, hbuf]; exact h.full

/-- The producer writes the free buffer. -/
theorem Inv.write {i : Nat} (h : Inv buffers₀ w s) (hi : i = s.buf.state.freeIndex) (v : α) :
    Inv buffers₀ (w ++ [.internal]) ⟨s.buf.write i v, .held i, s.cons⟩ := by
  have hcommits : commits (w ++ [.internal]) = commits w := by simp [commits]
  have hlast : lastGot (w ++ [.internal]) = lastGot w := by simp [lastGot]
  obtain ⟨-, haf, hmf⟩ := h.permutes.distinct
  have hactive : (s.buf.write i v).buffers s.buf.state.activeIndex =
      s.buf.buffers s.buf.state.activeIndex := Function.update_of_ne (hi ▸ haf) _ _
  have hmailbox : (s.buf.write i v).buffers s.buf.state.mailboxIndex =
      s.buf.buffers s.buf.state.mailboxIndex := Function.update_of_ne (hi ▸ hmf) _ _
  refine ⟨h.permutes, fun j hj => (Option.some.inj hj).symm.trans hi, h.consSlot, ?_, ?_, ?_⟩
  · rw [versions, hcommits, hlast]
    exact h.active.trans (congrArg some hactive.symm)
  · rw [hcommits, hlast]; exact h.empty
  · rw [versions, hcommits, hlast]
    intro hf
    exact ⟨(h.full hf).1, (h.full hf).2.trans (congrArg some hmailbox.symm)⟩

/-- The producer's compare-exchange succeeds. -/
theorem Inv.commit (h : Inv buffers₀ w s) :
    Inv buffers₀ (w ++ [.commit (s.buf.buffers s.buf.state.freeIndex)])
      ⟨{ s.buf with state := s.buf.state.committed, freeBufferCheckedOut := false }, .idle,
        s.cons⟩ := by
  have hcommits : commits (w ++ [.commit (s.buf.buffers s.buf.state.freeIndex)]) =
      commits w ++ [s.buf.buffers s.buf.state.freeIndex] := by simp [commits]
  have hlast : lastGot (w ++ [.commit (s.buf.buffers s.buf.state.freeIndex)]) = lastGot w := by
    simp [lastGot]
  have hle := h.lastGot_le
  refine ⟨h.permutes.committed, nofun, h.consSlot, ?_, nofun, fun _ => ?_⟩
  · have hlt : lastGot w < (buffers₀ 0 :: commits w).length := by
      rw [List.length_cons]; omega
    rw [versions, hcommits, hlast, ← List.cons_append, List.getElem?_append_left hlt]
    exact h.active
  · rw [versions, hcommits, hlast, List.length_append, List.length_singleton]
    refine ⟨by omega, ?_⟩
    rw [List.getElem?_cons_succ, List.getElem?_append_right (Nat.le_refl _), Nat.sub_self]
    rfl

/-- The consumer's compare-exchange succeeds: it gets the newest version. -/
theorem Inv.newest (h : Inv buffers₀ w s) :
    (versions buffers₀ w)[(commits w).length]? =
      some (s.buf.buffers s.buf.state.fetched.activeIndex) := by
  unfold State.fetched
  split
  · rename_i hf
    exact (h.full hf).2
  · rename_i hf
    have hempty := h.empty (Bool.eq_false_iff.mpr hf)
    rw [← hempty]
    exact h.active

theorem Inv.got (h : Inv buffers₀ w s) (full : Bool) :
    Inv buffers₀ (w ++ [.got s.buf.state.fetched.activeIndex full])
      ⟨{ s.buf with state := s.buf.state.fetched }, s.prod,
        .idle (some s.buf.state.fetched.activeIndex)⟩ := by
  have hcommits : commits (w ++ [.got s.buf.state.fetched.activeIndex full]) = commits w := by
    simp [commits]
  have hlast : lastGot (w ++ [.got s.buf.state.fetched.activeIndex full]) =
      (commits w).length := by simp [lastGot, commits]
  have hnotFull : s.buf.state.fetched.mailboxFull = false := by
    unfold State.fetched
    split
    · rfl
    · rename_i hf; exact Bool.eq_false_iff.mpr hf
  refine ⟨h.permutes.fetched, ?_, fun i hi => (Option.some.inj hi).symm, ?_, fun _ => ?_,
    fun hf => ?_⟩
  · intro i hi
    rw [h.prodSlot i hi]
    exact (State.fetched_freeIndex _).symm
  · rw [versions, hcommits, hlast]
    exact h.newest
  · rw [hcommits, hlast]
  · rw [hnotFull] at hf; cases hf

/-- **Every step keeps the invariant.** -/
theorem inv_step (h : Inv buffers₀ w s) (hs : Step s l s') : Inv buffers₀ (w ++ [l]) s' := by
  obtain ⟨b, prod, cons⟩ := s
  cases hs with
  | prod hp =>
    have hslot := h.prodSlot
    dsimp only at hp hslot
    cases hp with
    | getFree => exact h.internal rfl rfl (fun i hi => (Option.some.inj hi).symm) h.consSlot
    | write v => exact h.write (hslot _ rfl) v
    | commitNothing => exact h.internal rfl rfl nofun h.consSlot
    | commit | commitLoad | commitFail => exact h.internal rfl rfl hslot h.consSlot
    | commitOk hcas => subst hcas; exact h.commit
  | cons hc =>
    have hslot := h.consSlot
    dsimp only at hc hslot
    cases hc with
    | load hpc => rcases hpc with rfl | rfl <;> exact h.internal rfl rfl h.prodSlot hslot
    | casOk hcas => subst hcas; exact h.got _
    | casFail => exact h.internal rfl rfl h.prodSlot hslot

/-- **The invariant holds along every run.** -/
theorem inv_run (h : Run Step (initial buffers₀) w s) : Inv buffers₀ w s :=
  h.invariant (inv_initial buffers₀) fun _ _ _ _ hi hs => inv_step hi hs

/-! ## What the two users can rely on -/

/-- Between two of its compare-exchanges the consumer's buffer stays as it is. -/
theorem Inv.stable_step {i : Nat} (h : Inv buffers₀ w s) (hs : Step s l s')
    (hl : ∀ j f, l ≠ .got j f) (hi : s.cons.slot = some i) :
    s'.cons.slot = some i ∧ s'.buf.buffers i = s.buf.buffers i := by
  obtain ⟨b, prod, cons⟩ := s
  cases hs with
  | prod hp =>
    have hslot := h.prodSlot
    dsimp only at hp hslot
    refine ⟨hi, ?_⟩
    cases hp with
    | @write _ j v =>
      have hfree : j = b.state.freeIndex := hslot j rfl
      have hactive : i = b.state.activeIndex := h.consSlot i hi
      have hne : i ≠ j := by
        rw [hfree, hactive]
        exact h.permutes.distinct.2.1
      exact Function.update_of_ne hne _ _
    | getFree | commitNothing | commit | commitLoad | commitOk | commitFail => rfl
  | cons hc =>
    dsimp only at hc hi
    cases hc with
    | load hpc => rcases hpc with rfl | rfl <;> exact ⟨hi, rfl⟩
    | casOk => exact absurd rfl (hl _ _)
    | casFail => exact ⟨hi, rfl⟩

/-- The same over any number of steps. -/
theorem Inv.stable_run {i : Nat} {v : List (Label α)} (h : Inv buffers₀ w s)
    (hi : s.cons.slot = some i) (hrun : Run Step s v s') (hv : ∀ j f, Label.got j f ∉ v) :
    s'.cons.slot = some i ∧ s'.buf.buffers i = s.buf.buffers i := by
  have key : Inv buffers₀ (w ++ v) s' ∧ ((∀ j f, Label.got j f ∉ v) →
      s'.cons.slot = some i ∧ s'.buf.buffers i = s.buf.buffers i) := by
    refine hrun.invariant (I := fun v s' => Inv buffers₀ (w ++ v) s' ∧
      ((∀ j f, Label.got j f ∉ v) → s'.cons.slot = some i ∧ s'.buf.buffers i = s.buf.buffers i))
      ⟨by rwa [List.append_nil], fun _ => ⟨hi, rfl⟩⟩ ?_
    intro v s₁ l s₂ ⟨hinv, hkeep⟩ hs
    refine ⟨by rw [← List.append_assoc]; exact inv_step hinv hs, fun hno => ?_⟩
    obtain ⟨hi₁, hb₁⟩ := hkeep fun j f hm => hno j f (List.mem_append_left _ hm)
    have hl : ∀ j f, l ≠ .got j f := fun j f he =>
      hno j f (List.mem_append_right _ (List.mem_singleton.mpr he.symm))
    obtain ⟨hi₂, hb₂⟩ := hinv.stable_step hs hl hi₁
    exact ⟨hi₂, hb₂.trans hb₁⟩
  exact key.2 hv

theorem Inv.lastGot_mono (h : Inv buffers₀ w s) (hs : Step s l s') :
    lastGot w ≤ lastGot (w ++ [l]) := by
  have hle := h.lastGot_le
  cases l with
  | internal => simp [lastGot]
  | commit v => simp [lastGot]
  | got i f => simpa [lastGot, commits] using hle

/-- What a successful compare-exchange of the consumer returns. -/
theorem Inv.got_newest {i : Nat} {f : Bool} (h : Inv buffers₀ w s) (hs : Step s (.got i f) s') :
    (versions buffers₀ w)[(commits w).length]? = some (s'.buf.buffers i) ∧
      lastGot (w ++ [.got i f]) = (commits w).length ∧
      (f = true ↔ lastGot w < (commits w).length) := by
  obtain ⟨b, prod, cons⟩ := s
  have hlast : lastGot (w ++ [.got i f]) = (commits w).length := by simp [lastGot, commits]
  cases hs with
  | prod hp =>
    dsimp only at hp
    cases hp
  | cons hc =>
    dsimp only at hc
    cases hc with
    | casOk hcas =>
      subst hcas
      refine ⟨h.newest, hlast, fun hf => (h.full hf).1, fun hlt => ?_⟩
      by_contra hf
      have := h.empty (Bool.eq_false_iff.mpr hf)
      omega

/-- **What the triple buffer guarantees** after the steps `w` have led to `s`.
Versions are numbered: 0 is what the buffers were constructed with, `k` the
`k`-th commit. -/
structure Correct (buffers₀ : Nat → α) (w : List (Label α)) (s : System α) : Prop where
  permutes : s.buf.state.Permutes
  disjoint : ∀ i j, s.prod.slot = some i → s.cons.slot = some j → i ≠ j
  /-- The buffer the consumer has holds the version it got last. -/
  contents : ∀ i, s.cons.slot = some i →
    (versions buffers₀ w)[lastGot w]? = some (s.buf.buffers i)
  /-- It does not change until `GetActiveBuffer` returns again. -/
  stable : ∀ i v s', s.cons.slot = some i → Run Step s v s' → (∀ j f, Label.got j f ∉ v) →
    s'.cons.slot = some i ∧ s'.buf.buffers i = s.buf.buffers i
  ordered : ∀ l s', Step s l s' → lastGot w ≤ lastGot (w ++ [l])
  /-- A successful compare-exchange returns the newest version, and true exactly
  when it is newer than the one returned before. -/
  newest : ∀ i f s', Step s (.got i f) s' →
    (versions buffers₀ w)[(commits w).length]? = some (s'.buf.buffers i) ∧
      lastGot (w ++ [.got i f]) = (commits w).length ∧
      (f = true ↔ lastGot w < lastGot (w ++ [.got i f]))

/-- **The triple buffer is correct in every interleaving.** -/
theorem asyncBuffer_correct (buffers₀ : Nat → α) (h : Run Step (initial buffers₀) w s) :
    Correct buffers₀ w s := by
  have hinv := inv_run h
  refine ⟨hinv.permutes, ?_, ?_, fun i v s' hi hrun hv => hinv.stable_run hi hrun hv,
    fun l s' hs => hinv.lastGot_mono hs, fun i f s' hs => ?_⟩
  · intro i j hi hj
    rw [hinv.prodSlot i hi, hinv.consSlot j hj]
    exact hinv.permutes.distinct.2.1.symm
  · intro i hi
    rw [hinv.consSlot i hi]
    exact hinv.active
  · obtain ⟨hbuf, hlast, hiff⟩ := hinv.got_newest hs
    exact ⟨hbuf, hlast, hlast ▸ hiff⟩

/-- The producer commits 7 while the consumer is between its load and its
compare-exchange: the compare-exchange fails, and the next one returns 7. -/
theorem asyncBuffer_correct_retry :
    ∃ (w : List (Label Nat)) (s : System Nat), Run Step (initial fun _ => 0) w s ∧
      commits w = [7] ∧ lastGot w = 1 ∧ s.buf.buffers 2 = 7 ∧ Correct (fun _ => 0) w s := by
  let b₀ : AsyncBuffer Nat := .make fun _ => 0
  let b₁ := (b₀.getFreeBuffer.2).write 2 7
  let b₂ : AsyncBuffer Nat := { b₁ with state := ⟨0, 2, 1, true⟩, freeBufferCheckedOut := false }
  have h : Run Step (initial fun _ => 0)
      [.internal, .internal, .internal, .internal, .internal, .commit 7, .internal, .internal,
        .got 2 true]
      ⟨{ b₂ with state := ⟨2, 0, 1, false⟩ }, .idle, .idle (some 2)⟩ := by
    refine .cons (.cons (.load (.inl rfl))) ?_
    refine .cons (.prod (.getFree (.inl rfl))) ?_
    refine .cons (.prod (.write 7)) ?_
    refine .cons (.prod (.commit rfl)) ?_
    refine .cons (.prod .commitLoad) ?_
    refine .cons (.prod (.commitOk rfl)) ?_
    refine .cons (.cons (.casFail (by decide))) ?_
    refine .cons (.cons (.load (.inr rfl))) ?_
    exact .single (.cons (.casOk rfl))
  exact ⟨_, _, h, rfl, rfl, rfl, asyncBuffer_correct _ h⟩

end AsyncBuffer
end Intrinsic
