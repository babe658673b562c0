import IconSharedMemory.PromiseLocks
import IconSharedMemory.QueueRefinement

/-! # The queue of a promise context

A promise context keeps its value in a real-time queue of capacity one.  Seen from
the queue, the thread in `Set` is the producer, and the thread in `Get`, `Peek` or
`Reset` that has accessed the front is the consumer.

The first part of the module says what the whole queue operations do to the
simulation relation of the queue (`Slot`): each is a few of the queue's own steps.
The second part places the threads of a context in the queue's picture (`Placed`).
That there is one producer and one consumer at a time is not an assumption: the
checks in `PrepareInsert` and `Front` pass only while nobody else is at it.
-/
namespace Intrinsic.Promise
open Runs BoundedFifo

variable {Tid α : Type} {movedFrom : α → α} {c c' : Context α} {th th' : Thread α} {l : Label α}
  {t u : Tid} {v : α} {i j : Nat} {q q' : List α} {b b' : RtQueueBuffer α}
  {pc pc' : Queue.Producer α} {cons cons' : Queue.Consumer α}

/-! ## The queue of a context -/

/-- How a context uses its queue: one writer at a time and no reset function. -/
def usage (movedFrom : α → α) : Queue.Usage Unit α := ⟨.writer (), none, movedFrom⟩

/-- The queue of the context holds the list `q`, with its producer and its
consumer at these points. -/
def Slot (movedFrom : α → α) (b : RtQueueBuffer α) (pc : Queue.Producer α)
    (cons : Queue.Consumer α) (q : List α) : Prop :=
  Queue.Repr (usage movedFrom) 1 ⟨b, true, fun _ => pc, cons⟩ q

theorem slot_make (slot : Nat → α) (h : 1 < sizeModulus) :
    Slot movedFrom (.make 1 h slot) .idle .idle [] :=
  Queue.repr_initial (usage movedFrom) 1 h slot

theorem Slot.prod {m : Queue.Label Unit α} (h : Slot movedFrom b pc cons q)
    (hs : Queue.ProdStep (usage movedFrom) () (b, true, pc) m (b', true, pc')) :
    ∃ q', Slot movedFrom b' pc' cons q' ∧ Queue.Matched 1 m q q' := by
  obtain ⟨q', hrepr, hmatch⟩ := Queue.Repr.prodStep (t := ()) h rfl hs
  have hfun : Function.update (fun _ : Unit => pc) () pc' = fun _ => pc' := funext fun _ => rfl
  rw [hfun] at hrepr
  exact ⟨q', hrepr, hmatch⟩

theorem Slot.prod_internal (h : Slot movedFrom b pc cons q)
    (hs : Queue.ProdStep (usage movedFrom) () (b, true, pc) .internal (b', true, pc')) :
    Slot movedFrom b' pc' cons q := by
  obtain ⟨q', hslot, ⟨-, rfl⟩ | ⟨e, he, -⟩⟩ := h.prod hs
  · exact hslot
  · cases he

theorem Slot.cons_internal (h : Slot movedFrom b pc cons q)
    (hs : Queue.ConsStep (usage movedFrom) (b, cons) .internal (b', cons')) :
    Slot movedFrom b' pc cons' q := by
  obtain ⟨q', hslot, ⟨-, rfl⟩ | ⟨e, he, -⟩⟩ := Queue.Repr.consStep h hs
  · exact hslot
  · cases he

theorem Slot.length_le (h : Slot movedFrom b pc cons q) : q.length ≤ 1 := by
  have hbound := h.ring.bound
  rwa [show b.capacity = 1 from h.capacity] at hbound

theorem Slot.size (h : Slot movedFrom b pc cons q) : b.size = q.length := h.ring.size

theorem Slot.accessed (h : Slot movedFrom b pc cons q) : b.frontAccessed = cons.accessed :=
  h.ring.accessed

/-- What the producer's program point says about the buffer. -/
theorem Slot.at (h : Slot movedFrom b pc cons q) :
    pc.At b ((Queue.readPosition b cons + q.length) % b.capacity) q.length :=
  h.prods.active () fun _ hu => absurd rfl hu

theorem full_of_prepareInsert_none (h : b.prepareInsert.1 = none) : b.full = true := by
  by_contra hne
  simp [RtQueueBuffer.prepareInsert, hne] at h

theorem not_full_of_prepareInsert (h : b.prepareInsert.1 = some i) : b.full = false := by
  cases hb : b.full with
  | false => rfl
  | true => simp [RtQueueBuffer.prepareInsert, hb] at h

theorem not_empty_of_front (h : b.front.1 = some j) : b.empty = false := by
  cases hb : b.empty with
  | false => rfl
  | true => simp [RtQueueBuffer.front, hb] at h

/-- `PrepareInsert` fails only when a value is stored. -/
theorem Slot.full (h : Slot movedFrom b pc cons q) (hfull : b.prepareInsert.1 = none) :
    q.length = 1 := by
  rw [← h.size, beq_iff_eq.mp (full_of_prepareInsert_none hfull)]
  exact h.capacity

/-- `PrepareInsert` hands out a slot for `v`. -/
theorem Slot.prepare (h : Slot movedFrom b .idle cons q) (hslot : b.prepareInsert.1 = some i)
    (v : α) : Slot movedFrom b.prepareInsert.2 (.write i v) cons q := by
  have hb := not_full_of_prepareInsert hslot
  have hcall := h.prod_internal (.call (some v) rfl)
  have hok := hcall.prod_internal (.prepareOk h.at.1 hb)
  obtain rfl : b.head = i := by simpa [RtQueueBuffer.prepareInsert, hb] using hslot
  unfold RtQueueBuffer.prepareInsert
  rw [hb]
  exact hok

theorem Slot.write (h : Slot movedFrom b (.write i v) cons q) :
    Slot movedFrom (b.write i v) (.finish i) cons q :=
  h.prod_internal .write

/-- `FinishInsert` makes the content of the slot available. -/
theorem Slot.finish (h : Slot movedFrom b (.finish i) cons q) :
    Slot movedFrom b.finishInsert .idle cons (q ++ [b.buffer i]) ∧ q.length < 1 := by
  have hhead := h.prod_internal (.advanceHead (.inr rfl) h.at.1)
  obtain ⟨q', hslot, ⟨hnone, -⟩ | ⟨e, he, hstep⟩⟩ := hhead.prod .increaseSize
  · cases hnone
  · cases he
    cases hstep with
    | enq hlt => exact ⟨hslot, hlt⟩

/-- `MoveFront` on a queue that is not empty. -/
theorem Slot.moveFront (h : Slot movedFrom b pc .idle q)
    (hv : (moveFront movedFrom b).1 = some v) :
    Slot movedFrom (moveFront movedFrom b).2 pc (.moved 0 v) q ∧
      ∀ i, pc.slot = some i → (moveFront movedFrom b).2.buffer i = b.buffer i := by
  have hb : b.empty = false := by
    cases hne : b.empty with
    | false => rfl
    | true => simp [Promise.moveFront, RtQueueBuffer.front, hne] at hv
  have hacc : b.frontAccessed = false := h.accessed
  -- the only slot there is
  have htail : b.tail = 0 := by
    have hcap : b.capacity = 1 := h.capacity
    have hlt := h.ring.tail_lt (hcap ▸ Nat.one_pos)
    exact Nat.lt_one_iff.mp (hcap ▸ hlt)
  have hmove := (h.cons_internal (.moveFront hb)).cons_internal (.moveSlot hacc hb)
  obtain ⟨q', hslot, ⟨-, rfl⟩ | ⟨e, he, -⟩⟩ := Queue.Repr.consStep hmove .moveAccess
  · have hval : b.buffer b.tail = v := by
      simpa [Promise.moveFront, RtQueueBuffer.front, hb] using hv
    subst hval
    refine ⟨?_, fun i hi => ?_⟩
    · unfold Promise.moveFront RtQueueBuffer.front
      rw [hb]
      exact htail ▸ hslot
    · have hne : i ≠ b.tail := Queue.Repr.disjoint (t := ()) hmove hi rfl
      simp [Promise.moveFront, RtQueueBuffer.front, hb, RtQueueBuffer.write, hne]
  · cases he

/-- `DropFront` after `MoveFront`. -/
theorem Slot.drop (h : Slot movedFrom b pc (.moved j v) q) :
    ∃ q', q = v :: q' ∧ Slot movedFrom b.dropFront pc .idle q' := by
  obtain ⟨q', hslot, ⟨hnone, -⟩ | ⟨e, he, hstep⟩⟩ :=
    Queue.Repr.consStep h (.dropTaken (.inl rfl) h.accessed)
  · cases hnone
  · cases he
    cases hstep
    exact ⟨q', rfl, Slot.cons_internal hslot .advanceTail⟩

/-- `Front` on a queue that is not empty. -/
theorem Slot.front (h : Slot movedFrom b pc .idle q) (hj : b.front.1 = some j) :
    Slot movedFrom b.front.2 pc (.front j) q := by
  have hb := not_empty_of_front hj
  obtain rfl : b.tail = j := by simpa [RtQueueBuffer.front, hb] using hj
  simpa [RtQueueBuffer.front, hb] using h.cons_internal (.front h.accessed hb)

theorem Slot.keepFront (h : Slot movedFrom b pc (.front j) q) :
    Slot movedFrom b.keepFront pc .idle q :=
  h.cons_internal (.keepFront h.accessed)

/-! ## Where the threads are in the queue -/

/-- The part of the queue's producer that a thread plays. -/
def Pc.producer : Pc α → Queue.Producer α
  | .setWrite i v => .write i v
  | .setFinish i _ => .finish i
  | _ => .idle

/-- The part of the queue's consumer that a thread plays. -/
def Pc.consumer : Pc α → Queue.Consumer α
  | .getDrop v | .resetDrop v => .moved 0 v
  | .peekKeep j => .front j
  | _ => .idle

/-- The operation on the abstract queue that a step shows. -/
def Label.event : Label α → Option (Event α)
  | .stored v => some (.enq v)
  | .removed v _ => some (.deq v)
  | .setFull _ => some .full
  | _ => none

/-- **What a step can do to the queue.** -/
inductive QueueEffect (movedFrom : α → α) (c : Context α) (th : Thread α) (l : Label α)
    (c' : Context α) (th' : Thread α) : Prop
  | keep (hbuf : c'.buffer = c.buffer) (hprod : th'.pc.producer = th.pc.producer)
      (hcons : th'.pc.consumer = th.pc.consumer)
      (hfin : ∀ i v, th'.pc = .setFinish i v → th.pc = .setFinish i v) (hl : l.event = none)
  | full (v : α) (hbuf : c'.buffer = c.buffer) (hfull : c.buffer.prepareInsert.1 = none)
      (hpc : th.pc = .setPrepare v) (hpc' : th'.pc = .setUnlockFailed v valueAlreadySet)
      (hl : l = .setFull v)
  | prepare (i : Nat) (v : α) (hcheck : c.buffer.insertInProgress = false)
      (hslot : c.buffer.prepareInsert.1 = some i) (hbuf : c'.buffer = c.buffer.prepareInsert.2)
      (hpc : th.pc = .setPrepare v) (hpc' : th'.pc = .setWrite i v) (hl : l = .internal)
  | write (i : Nat) (v : α) (hbuf : c'.buffer = c.buffer.write i v)
      (hpc : th.pc = .setWrite i v) (hpc' : th'.pc = .setFinish i v) (hl : l = .internal)
  | finish (i : Nat) (v : α) (hbuf : c'.buffer = c.buffer.finishInsert)
      (hpc : th.pc = .setFinish i v) (hpc' : th'.pc = .setPost v) (hl : l = .stored v)
  | move (v : α) (hcheck : c.buffer.frontAccessed = false)
      (hv : (moveFront movedFrom c.buffer).1 = some v)
      (hbuf : c'.buffer = (moveFront movedFrom c.buffer).2) (hpc : th.pc.producer = .idle)
      (hpc' : th'.pc.producer = .idle) (hcons' : th'.pc.consumer = .moved 0 v) (hl : l = .internal)
  | drop (v : α) (byReset : Bool) (hbuf : c'.buffer = c.buffer.dropFront)
      (hpc : th.pc.producer = .idle) (hpc' : th'.pc.producer = .idle)
      (hcons : th.pc.consumer = .moved 0 v) (hcons' : th'.pc.consumer = .idle)
      (hl : l = .removed v byReset)
  | front (j : Nat) (hcheck : c.buffer.frontAccessed = false) (hj : c.buffer.front.1 = some j)
      (hbuf : c'.buffer = c.buffer.front.2) (hpc : th.pc = .peekFront)
      (hpc' : th'.pc = .peekKeep j) (hl : l = .internal)
  | keepFront (j : Nat) (hbuf : c'.buffer = c.buffer.keepFront) (hpc : th.pc = .peekKeep j)
      (hpc' : th'.pc = .peekCopy j) (hl : l = .internal)

/-- A program point outside the queue's critical sections. -/
def Pc.outside (pc : Pc α) : Prop :=
  pc.producer = .idle ∧ pc.consumer = .idle

theorem Pc.outside.not_finish {pc : Pc α} (h : pc.outside) : pc ≠ .setFinish i v := by
  rintro rfl
  exact nomatch h.1

/-- The steps between two program points outside. -/
theorem QueueEffect.skip {pc : Pc α} (hbuf : c'.buffer = c.buffer) (hpc : th.pc.outside)
    (hpc' : pc.outside) (hl : l.event = none) :
    QueueEffect movedFrom c th l c' (th.goto pc) :=
  .keep hbuf (hpc'.1.trans hpc.1.symm) (hpc'.2.trans hpc.2.symm)
    (fun _ _ hf => absurd hf hpc'.not_finish) hl

theorem afterResetLock_outside (k : Lock) : (k.afterResetLock : Pc α).outside := by
  cases k <;> exact ⟨rfl, rfl⟩

theorem afterReset_outside (s : Side) : (s.afterReset : Pc α).outside := by
  cases s <;> exact ⟨rfl, rfl⟩

theorem afterDrain_outside (s : Side) : (s.afterDrain : Pc α).outside := by
  cases s <;> exact ⟨rfl, rfl⟩

theorem afterDestroy_outside (s : Side) : (s.afterDestroy : Pc α).outside := by
  cases s <;> exact ⟨rfl, rfl⟩

theorem Cont.label_event (s : Side) (st : RealtimeStatus) (k : Cont α) :
    (k.label s st).event = none := by
  cases k <;> rfl

theorem Atom.queueEffect (h : Atom movedFrom c th l c' th') :
    QueueEffect movedFrom c th l c' th' := by
  cases h with
  | setFull v hpc hcheck hfull => exact .full v rfl hfull hpc rfl rfl
  | setPrepare v i hpc hcheck hslot => exact .prepare i v hcheck hslot rfl hpc rfl rfl
  | setWrite v i hpc => exact .write i v rfl hpc rfl rfl
  | setFinish v i hpc => exact .finish i v rfl hpc rfl rfl
  | getMove v hpc hcheck hv | resetMove v hpc hcheck hv =>
    exact .move v hcheck hv rfl (by rw [hpc]; rfl) rfl rfl rfl
  | getDrop v hpc | resetDrop v hpc =>
    exact .drop v _ rfl (by rw [hpc]; rfl) rfl (by rw [hpc]; rfl) rfl rfl
  | peekFront j hpc hcheck hj => exact .front j hcheck hj rfl hpc rfl rfl
  | peekKeep j hpc => exact .keepFront j rfl hpc rfl rfl
  | acquireUnlock s _ hpc =>
    exact .keep rfl (by rw [hpc]; rfl) (by rw [hpc]; rfl) nofun rfl
  | detachNull s k st hpc =>
    exact .keep rfl (by rw [hpc]; rfl) (by rw [hpc]; rfl) nofun (k.label_event s st)
  | acquireBusy | setNotAttached | setBusy | getNotAttached | getBusy | peekNotAttached
  | peekCancelled | waitNotAttached | waitCancelled | cancelBusy =>
    exact .keep rfl rfl rfl (fun _ _ hf => hf) rfl
  | resetLock k hpc =>
    exact .skip rfl (by rw [hpc]; exact ⟨rfl, rfl⟩) (afterResetLock_outside k) rfl
  | resetLoadFalse s hpc | resetWait s _ _ hpc =>
    exact .skip rfl (by rw [hpc]; exact ⟨rfl, rfl⟩) (afterReset_outside s) rfl
  | resetDetached s hpc =>
    exact .skip rfl (by rw [hpc]; exact ⟨rfl, rfl⟩) (afterDrain_outside s) rfl
  | destroyLoadFalse s hpc | destroyWait s _ _ hpc =>
    exact .skip rfl (by rw [hpc]; exact ⟨rfl, rfl⟩) (afterDestroy_outside s) rfl
  | acquireLock _ _ hpc | acquireCasOk _ _ hpc | acquireCasFailed _ _ hpc
  | acquireUnlockFailed _ hpc | acquireLeaked _ _ hpc | detachStart _ hpc | detachExchange _ _ hpc
  | detachNothing _ _ hpc | detachPost _ _ hpc | setLock _ hpc | setCancelled _ hpc
  | setLoad _ hpc | setPost _ hpc | setUnlockFailed _ _ hpc | setNotUnlocked _ _ hpc
  | setUnlock _ _ hpc | setUnlockDetach _ _ hpc | getTryWait _ hpc | getUnlockFailed _ hpc
  | getNotUnlocked _ hpc | getUnlock _ hpc | getUnlockDetach _ hpc | peekCopy _ hpc
  | waitFailed _ _ hpc | waitFutex _ _ hpc | resetLoad _ hpc | resetTimeout _ _ _ hpc
  | resetUnlock _ _ _ _ hpc | resetReturn _ _ hpc | destroyLoad _ hpc | destroyFatal _ _ _ hpc =>
    exact .skip rfl (by rw [hpc]; exact ⟨rfl, rfl⟩) ⟨rfl, rfl⟩ rfl
  | getLock hpc | getCancelled hpc | getLoad hpc | getEmpty hpc | peekLoad hpc | peekEmpty hpc
  | waitStart hpc | waitHasValue hpc | waitEmpty hpc | waitLoadCancelled hpc | waitLoad hpc
  | cancelLock hpc | cancelStore hpc | cancelNotUnlocked hpc | cancelUnlock hpc | cancelPost hpc
  | resetStart hpc | resetEmpty hpc | resetNotEmpty hpc | resetMoveNone hpc | resetHasValue hpc
  | resetStore hpc | destroyStart hpc | destroyPost hpc =>
    exact .skip rfl (by rw [hpc]; exact ⟨rfl, rfl⟩) ⟨rfl, rfl⟩ rfl

/-- **The queue of the context holds the list `q`**, with the threads where the
queue's producer and consumer are. -/
structure Placed (movedFrom : α → α) (c : Config Tid α) (pc : Queue.Producer α)
    (cons : Queue.Consumer α) (q : List α) : Prop where
  slot : Slot movedFrom c.shared.buffer pc cons q
  prod : Plays (fun th : Thread α => th.pc.producer) .idle pc c.locals
  cons : Plays (fun th : Thread α => th.pc.consumer) .idle cons c.locals
  written : ∀ t i v, (c.locals t).pc = .setFinish i v → c.shared.buffer.buffer i = v

theorem producer_slot (pc : Pc α) (h : pc.producer ≠ .idle) :
    ∃ i, pc.producer.slot = some i ∧ ∀ (b : RtQueueBuffer α) (next len : Nat),
      pc.producer.At b next len → b.insertInProgress = true := by
  cases pc with
  | setWrite i v => exact ⟨i, rfl, fun _ _ _ hat => hat.1⟩
  | setFinish i v => exact ⟨i, rfl, fun _ _ _ hat => hat.1⟩
  | _ => exact absurd rfl h

theorem consumer_accessed (pc : Pc α) (h : pc.consumer ≠ .idle) : pc.consumer.accessed = true := by
  cases pc with
  | getDrop | resetDrop | peekKeep => rfl
  | _ => exact absurd rfl h

section Placed
variable {c : Config Tid α} {sh : Context α}

/-- The check of `PrepareInsert` passes only while no thread is inserting. -/
theorem Placed.prod_idle (h : Placed movedFrom c pc cons q)
    (hcheck : c.shared.buffer.insertInProgress = false) : pc = .idle := by
  by_contra hne
  obtain ⟨t, rfl⟩ := h.prod.played hne
  obtain ⟨i, -, hins⟩ := producer_slot _ hne
  rw [hins _ _ _ h.slot.at] at hcheck
  cases hcheck

/-- The check of `Front` passes only while no thread is accessing the front. -/
theorem Placed.cons_idle (h : Placed movedFrom c pc cons q)
    (hcheck : c.shared.buffer.frontAccessed = false) : cons = .idle := by
  by_contra hne
  obtain ⟨t, rfl⟩ := h.cons.played hne
  rw [h.slot.accessed, consumer_accessed _ hne] at hcheck
  cases hcheck

/-- The thread that inserts is where the queue's producer is. -/
theorem Placed.prod_eq (h : Placed movedFrom c pc cons q)
    (ht : (c.locals t).pc.producer ≠ .idle) : pc = (c.locals t).pc.producer :=
  (h.prod.at_role t ht).symm

theorem Placed.cons_eq (h : Placed movedFrom c pc cons q)
    (ht : (c.locals t).pc.consumer ≠ .idle) : cons = (c.locals t).pc.consumer :=
  (h.cons.at_role t ht).symm

variable [DecidableEq Tid]

/-- A step that leaves the slot of the producer alone and does not end in one
that is filled. -/
theorem Placed.written_frame (h : Placed movedFrom c pc cons q)
    (hbuf : ∀ i, pc.slot = some i → sh.buffer.buffer i = c.shared.buffer.buffer i)
    (hfin : ∀ i v, th'.pc = .setFinish i v → (c.locals t).pc = .setFinish i v) :
    ∀ u i v, (Function.update c.locals t th' u).pc = .setFinish i v → sh.buffer.buffer i = v := by
  intro u i v hu
  have hold : (c.locals u).pc = .setFinish i v := by
    rcases of_update (P := fun th : Thread α => th.pc = .setFinish i v) hu with
      ⟨rfl, hv⟩ | ⟨-, hv⟩
    · exact hfin i v hv
    · exact hv
  have hpc : pc = .finish i := by
    have heq := h.prod_eq (t := u) (by rw [hold]; exact nofun)
    rwa [hold] at heq
  rw [hbuf i (by rw [hpc]; rfl)]
  exact h.written u i v hold

/-- A step of the thread that is, or becomes, the queue's producer. -/
theorem Placed.produce (h : Placed movedFrom c pc cons q)
    (hother : ∀ u, u ≠ t → (c.locals u).pc.producer = .idle)
    (hslot : Slot movedFrom sh.buffer th'.pc.producer cons q')
    (hcons : th'.pc.consumer = (c.locals t).pc.consumer)
    (hfin : ∀ i v, th'.pc = .setFinish i v → sh.buffer.buffer i = v) :
    Placed movedFrom ⟨sh, Function.update c.locals t th'⟩ th'.pc.producer cons q' := by
  refine ⟨hslot, .set hother, h.cons.frame hcons, fun u i v hu => ?_⟩
  rcases of_update (P := fun th : Thread α => th.pc = .setFinish i v) hu with
    ⟨rfl, hv⟩ | ⟨hne, hv⟩
  · exact hfin i v hv
  · have hidle := hother u hne
    rw [hv] at hidle
    cases hidle

/-- A step of the thread that is, or becomes, the queue's consumer. -/
theorem Placed.consume (h : Placed movedFrom c pc cons q)
    (hother : ∀ u, u ≠ t → (c.locals u).pc.consumer = .idle)
    (hslot : Slot movedFrom sh.buffer pc th'.pc.consumer q')
    (hpc : (c.locals t).pc.producer = .idle) (hpc' : th'.pc.producer = .idle)
    (hbuf : ∀ i, pc.slot = some i → sh.buffer.buffer i = c.shared.buffer.buffer i) :
    Placed movedFrom ⟨sh, Function.update c.locals t th'⟩ pc th'.pc.consumer q' := by
  refine ⟨hslot, h.prod.frame (hpc'.trans hpc.symm), .set hother, h.written_frame hbuf ?_⟩
  intro i v hf
  rw [hf] at hpc'
  cases hpc'

/-- **One step of a thread is at most one operation on the abstract queue.** -/
theorem Placed.atom (h : Placed movedFrom c pc cons q)
    (he : QueueEffect movedFrom c.shared (c.locals t) l sh th') :
    ∃ pc' cons' q', Placed movedFrom ⟨sh, Function.update c.locals t th'⟩ pc' cons' q' ∧
      (l.event = none ∧ q' = q ∨ ∃ e, l.event = some e ∧ BoundedFifo.Step 1 q e q') := by
  cases he with
  | keep hbuf hprod hcons hfin hl =>
    refine ⟨pc, cons, q, ⟨?_, h.prod.frame hprod, h.cons.frame hcons, ?_⟩, .inl ⟨hl, rfl⟩⟩
    · rw [hbuf]; exact h.slot
    · exact h.written_frame (fun i _ => by rw [hbuf]) hfin
  | full v hbuf hfull hpc hpc' hl =>
    refine ⟨pc, cons, q, ⟨?_, h.prod.frame ?_, h.cons.frame ?_, ?_⟩, .inr ⟨.full, ?_, ?_⟩⟩
    · rw [hbuf]; exact h.slot
    · rw [hpc, hpc']; rfl
    · rw [hpc, hpc']; rfl
    · exact h.written_frame (fun i _ => by rw [hbuf]) fun _ _ hf => by rw [hpc'] at hf; cases hf
    · rw [hl]; rfl
    · exact .full (h.slot.full hfull)
  | prepare i v hcheck hslot hbuf hpc hpc' hl =>
    obtain rfl := h.prod_idle hcheck
    refine ⟨_, cons, q, h.produce (fun u _ => h.prod.all_idle u) ?_ ?_ ?_, .inl ⟨?_, rfl⟩⟩
    · rw [hbuf, hpc']; exact h.slot.prepare hslot v
    · rw [hpc, hpc']; rfl
    · rw [hpc']; exact nofun
    · rw [hl]; rfl
  | write i v hbuf hpc hpc' hl =>
    have hself : (c.locals t).pc.producer ≠ .idle := by rw [hpc]; exact nofun
    have hslot := h.slot
    rw [h.prod_eq hself, hpc] at hslot
    refine ⟨_, cons, q, h.produce (fun u => h.prod.others t u hself) ?_ ?_ ?_, .inl ⟨?_, rfl⟩⟩
    · rw [hbuf, hpc']; exact hslot.write
    · rw [hpc, hpc']; rfl
    · intro j x hx
      rw [hpc'] at hx
      cases hx
      rw [hbuf]
      exact Function.update_self ..
    · rw [hl]; rfl
  | finish i v hbuf hpc hpc' hl =>
    have hself : (c.locals t).pc.producer ≠ .idle := by rw [hpc]; exact nofun
    have hslot := h.slot
    rw [h.prod_eq hself, hpc] at hslot
    obtain ⟨hslot', hlt⟩ := hslot.finish
    rw [h.written t i v hpc] at hslot'
    refine ⟨_, cons, q ++ [v], h.produce (fun u => h.prod.others t u hself) ?_ ?_ ?_,
      .inr ⟨.enq v, ?_, .enq hlt⟩⟩
    · rw [hbuf, hpc']; exact hslot'
    · rw [hpc, hpc']; rfl
    · rw [hpc']; exact nofun
    · rw [hl]; rfl
  | move v hcheck hv hbuf hpc hpc' hcons' hl =>
    obtain rfl := h.cons_idle hcheck
    obtain ⟨hslot, hsame⟩ := h.slot.moveFront hv
    refine ⟨pc, _, q, h.consume (fun u _ => h.cons.all_idle u) ?_ hpc hpc' ?_, .inl ⟨?_, rfl⟩⟩
    · rw [hbuf, hcons']; exact hslot
    · rw [hbuf]; exact hsame
    · rw [hl]; rfl
  | drop v byReset hbuf hpc hpc' hcons hcons' hl =>
    have hself : (c.locals t).pc.consumer ≠ .idle := by rw [hcons]; exact nofun
    have hslot := h.slot
    rw [h.cons_eq hself, hcons] at hslot
    obtain ⟨q', rfl, hslot'⟩ := hslot.drop
    refine ⟨pc, _, q', h.consume (fun u => h.cons.others t u hself) ?_ hpc hpc' ?_,
      .inr ⟨.deq v, ?_, .deq⟩⟩
    · rw [hbuf, hcons']; exact hslot'
    · rw [hbuf]; exact fun _ _ => rfl
    · rw [hl]; rfl
  | front j hcheck hj hbuf hpc hpc' hl =>
    obtain rfl := h.cons_idle hcheck
    refine ⟨pc, _, q, h.consume (fun u _ => h.cons.all_idle u) ?_ ?_ ?_ ?_, .inl ⟨?_, rfl⟩⟩
    · rw [hbuf, hpc']; exact h.slot.front hj
    · rw [hpc]; rfl
    · rw [hpc']; rfl
    · intro i _
      rw [hbuf]
      unfold RtQueueBuffer.front
      split <;> rfl
    · rw [hl]; rfl
  | keepFront j hbuf hpc hpc' hl =>
    have hself : (c.locals t).pc.consumer ≠ .idle := by rw [hpc]; exact nofun
    have hslot := h.slot
    rw [h.cons_eq hself, hpc] at hslot
    refine ⟨pc, _, q, h.consume (fun u => h.cons.others t u hself) ?_ ?_ ?_ ?_, .inl ⟨?_, rfl⟩⟩
    · rw [hbuf, hpc']; exact hslot.keepFront
    · rw [hpc]; rfl
    · rw [hpc']; rfl
    · rw [hbuf]; exact fun _ _ => rfl
    · rw [hl]; rfl

end Placed

/-- The context stores the list `q`. -/
def Holds (movedFrom : α → α) (c : Config Tid α) (q : List α) : Prop :=
  ∃ pc cons, Placed movedFrom c pc cons q

section Holds
variable [DecidableEq Tid] {ok : Config Tid α → Tid → Label α → Prop} {c d : Config Tid α}
  {x : Tid × Label α}

omit [DecidableEq Tid] in
theorem Holds.size (h : Holds movedFrom c q) : c.shared.buffer.size = q.length := by
  obtain ⟨pc, cons, hp⟩ := h
  exact hp.slot.size

theorem holds_initial (slot : Nat → α) (o : Owner Tid) : Holds movedFrom (initial slot o) [] := by
  have hpc := initial_pc slot o
  have hbuf : (initial slot o).shared.buffer = .make 1 (by decide) slot := by cases o <;> rfl
  refine ⟨.idle, .idle, ?_, .none fun t => ?_, .none fun t => ?_, fun t i v ht => ?_⟩
  · rw [hbuf]; exact slot_make slot _
  · rw [hpc t]; rfl
  · rw [hpc t]; rfl
  · rw [hpc t] at ht; cases ht

theorem Holds.step (h : Holds movedFrom c q) (hs : Step movedFrom ok c x d) :
    ∃ q', Holds movedFrom d q' ∧
      (x.2.event = none ∧ q' = q ∨ ∃ e, x.2.event = some e ∧ BoundedFifo.Step 1 q e q') := by
  obtain ⟨t, l⟩ := x
  obtain ⟨pc, cons, hp⟩ := h
  cases hs with
  | atom hpool =>
    cases hpool with
    | mk hok hatom =>
      obtain ⟨pc', cons', q', hp', hq⟩ := hp.atom hatom.queueEffect
      exact ⟨q', ⟨pc', cons', hp'⟩, hq⟩
  | move u s =>
    have hpc := moveHandle_pc c t u s
    refine ⟨q, ⟨pc, cons, hp.slot, hp.prod.congr fun v => ?_, hp.cons.congr fun v => ?_,
      fun v i x hv => hp.written v i x ((hpc v).symm.trans hv)⟩, .inl ⟨rfl, rfl⟩⟩
    · rw [hpc v]
    · rw [hpc v]

/-- **The context refines a first-in first-out queue of capacity one**, whoever
uses it in whatever way. -/
theorem holds_run {slot : Nat → α} {o : Owner Tid} {w : List (Tid × Label α)}
    (h : Run (Step movedFrom ok) (initial slot o) w c) :
    ∃ q, Holds movedFrom c q ∧
      Run (BoundedFifo.Step 1) [] (w.filterMap fun x => x.2.event) q :=
  h.simulate (holds_initial slot o) fun _ _ _ _ hq hs => hq.step hs

end Holds

end Intrinsic.Promise
