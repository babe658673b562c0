import IconSharedMemory.QueueBuffer

/-! # The queue refines a bounded first-in first-out queue

The simulation relation `Repr` between a queue in use and a list says three
things.  The **ring** (`Ring`): the list is what lies in the slots from the read
position on, `size_` counts it, and what the consumer holds is its first element.
The **producers** (`Prods`): at most one of them is active, and the slot it
fills is the one after the last element of the list, which is free.  And the
two positions of the buffer agree with this up to the half-done updates of
`DropFront` and `FinishInsert`.

An element enters the list when `FinishInsert` increases `size_`, and leaves it
when `DropFront` decreases `size_`.  Between the two halves of `DropFront` the
front slot already belongs to the producers although `tail_` still points to it;
`readPosition` is the position that accounts for that.
-/
namespace Intrinsic.Queue
open Runs BoundedFifo

variable {Tid α : Type} {P : Usage Tid α} {b b' : RtQueueBuffer α} {m m' : Bool}
  {prods : Tid → Producer α} {cons cons' : Consumer α} {q : List α} {t : Tid} {v : α}
  {next len i j : Nat} {l : Label Tid α} {pc pc' : Producer α} {cap : Nat} {s s' : System Tid α}

/-! ## The ring -/

/-- The slot of the first element: `tail_`, or the slot after it once
`DropFront` has given up the front element. -/
def readPosition (b : RtQueueBuffer α) : Consumer α → Nat
  | .dropTail => (b.tail + 1) % b.capacity
  | _ => b.tail

/-- The element the consumer has moved or copied out and not yet dropped. -/
def Consumer.taken : Consumer α → Option α
  | .moved _ v | .popDrop _ v => some v
  | _ => none

/-- The slot the consumer got from `Front` and has neither dropped nor kept. -/
def Consumer.slot : Consumer α → Option Nat
  | .front j | .moveAccess j | .moved j _ | .popCopy j | .popDrop j _ => some j
  | _ => none

/-- The consumer relies on the queue not being empty. -/
def Consumer.needsFront : Consumer α → Bool
  | .front _ | .moveFront | .moveAccess _ | .moved _ _ | .popCopy _ | .popDrop _ _ => true
  | .idle | .dropTail | .crashed => false

/-- The value of `front_accessed_`. -/
def Consumer.accessed : Consumer α → Bool
  | .front _ | .moveAccess _ | .moved _ _ | .popCopy _ | .popDrop _ _ => true
  | .idle | .moveFront | .dropTail | .crashed => false

/-- **The buffer holds the list `q`**, seen from where the consumer is. -/
structure Ring (b : RtQueueBuffer α) (cons : Consumer α) (q : List α) : Prop where
  size : b.size = q.length
  bound : q.length ≤ b.capacity
  tail_lt : 0 < b.capacity → b.tail < b.capacity
  contents : ∀ i, i < q.length → cons.taken = none ∨ 0 < i →
    q[i]? = some (b.buffer ((readPosition b cons + i) % b.capacity))
  taken : ∀ v, cons.taken = some v → q.head? = some v
  slot : ∀ j, cons.slot = some j → j = b.tail
  nonempty : cons.needsFront = true → q ≠ []
  dropping : cons = .dropTail → 0 < b.capacity
  alive : cons ≠ .crashed
  accessed : b.frontAccessed = cons.accessed

theorem ring_make (cap : Nat) (hcap : cap < sizeModulus) (buffer : Nat → α) :
    Ring (.make cap hcap buffer) .idle [] where
  size := rfl
  bound := Nat.zero_le _
  tail_lt h := h
  contents i hi := absurd hi (Nat.not_lt_zero i)
  taken := nofun
  slot := nofun
  nonempty := nofun
  dropping := nofun
  alive := nofun
  accessed := rfl

/-- The ring part speaks of the consumer's half of the buffer and of the slots
only. -/
theorem Ring.congr (h : Ring b cons q) (hsize : b'.size = b.size)
    (hcap : b'.capacity = b.capacity) (htail : b'.tail = b.tail)
    (hacc : b'.frontAccessed = b.frontAccessed)
    (hbuf : ∀ i, i < q.length → b'.buffer ((readPosition b cons + i) % b.capacity) =
      b.buffer ((readPosition b cons + i) % b.capacity)) : Ring b' cons q := by
  have hpos : readPosition b' cons = readPosition b cons := by
    cases cons <;> simp only [readPosition, htail, hcap]
  refine ⟨hsize.trans h.size, hcap ▸ h.bound, ?_, ?_, h.taken, ?_, h.nonempty, ?_, h.alive,
    hacc.trans h.accessed⟩
  · rw [htail, hcap]; exact h.tail_lt
  · intro i hi hor
    rw [hpos, hcap, hbuf i hi]
    exact h.contents i hi hor
  · rw [htail]; exact h.slot
  · rw [hcap]; exact h.dropping

/-- The front slot holds the first element as long as it was not taken. -/
theorem Ring.front (h : Ring b cons q) (hne : q ≠ []) (htaken : cons.taken = none)
    (hdrop : cons ≠ .dropTail) : q.head? = some (b.buffer b.tail) := by
  have hlen : 0 < q.length := List.length_pos_iff.mpr hne
  have hpos : readPosition b cons = b.tail := by
    cases cons <;> first | rfl | exact absurd rfl hdrop
  have hc := h.contents 0 hlen (.inl htaken)
  have hlt := h.tail_lt (by have := h.bound; omega)
  rwa [hpos, Nat.add_zero, Nat.mod_eq_of_lt hlt, ← List.head?_eq_getElem?] at hc

theorem Ring.nonempty_of_load (h : Ring b cons q) (hempty : b.empty = false) : q ≠ [] := by
  rintro rfl
  have hsize := h.size
  simp [RtQueueBuffer.empty, hsize] at hempty

theorem Ring.nil_of_load (h : Ring b cons q) (hempty : b.empty = true) : q = [] := by
  have hsize := h.size
  rw [RtQueueBuffer.empty, beq_iff_eq, hsize] at hempty
  exact List.length_eq_zero_iff.mp hempty

/-- The consumer moves without touching `size_`, `tail_` or a slot.  It may not
give up an element it has taken, and it may start to rely on the front element
when there is one. -/
theorem Ring.move (h : Ring b cons q) (f : Bool) (cons' : Consumer α) (htaken : cons.taken = none)
    (htaken' : ∀ v, cons'.taken = some v → q.head? = some v)
    (hslot : ∀ j, cons'.slot = some j → j = b.tail)
    (hne : cons'.needsFront = true → q ≠ []) (hdrop : cons ≠ .dropTail)
    (hdrop' : cons' ≠ .dropTail) (halive : cons' ≠ .crashed) (hacc : f = cons'.accessed) :
    Ring { b with frontAccessed := f } cons' q := by
  have hpos : readPosition { b with frontAccessed := f } cons' = readPosition b cons := by
    cases cons <;> cases cons' <;> first | rfl | exact absurd rfl hdrop | exact absurd rfl hdrop'
  refine ⟨h.size, h.bound, h.tail_lt, ?_, htaken', hslot, hne, fun he => absurd he hdrop',
    halive, hacc⟩
  intro i hi _
  rw [hpos]
  exact h.contents i hi (.inl htaken)

theorem decreaseSize_size (hpos : 0 < b.size) (hlt : b.size < sizeModulus) :
    b.decreaseSize.size = b.size - 1 := by
  have hsum : b.size + (sizeModulus - 1) = (b.size - 1) + sizeModulus := by omega
  show (b.size + (sizeModulus - 1)) % sizeModulus = b.size - 1
  rw [hsum, Nat.add_mod_right, Nat.mod_eq_of_lt (by omega)]

theorem increaseSize_size (hlt : b.size < b.capacity) : b.increaseSize.size = b.size + 1 :=
  Nat.mod_eq_of_lt (by have := b.capacity_lt; omega)

theorem advance_mod {n : Nat} (hn : n < b.capacity) :
    (n + 1) % sizeModulus % b.capacity = (n + 1) % b.capacity := by
  have := b.capacity_lt
  rw [Nat.mod_eq_of_lt (by omega : n + 1 < sizeModulus)]

/-- `DropFront` gives up the front element. -/
theorem Ring.drop (h : Ring b cons (v :: q)) (hdrop : cons ≠ .dropTail) :
    Ring { b with frontAccessed := false }.decreaseSize .dropTail q := by
  have hsize : b.size = q.length + 1 := h.size
  have hbound : q.length + 1 ≤ b.capacity := h.bound
  have hcap := b.capacity_lt
  have hpos : readPosition b cons = b.tail := by
    cases cons <;> first | rfl | exact absurd rfl hdrop
  have hdec : b.decreaseSize.size = q.length := by
    rw [decreaseSize_size (by omega) (by omega)]; omega
  refine ⟨hdec, show q.length ≤ b.capacity by omega, h.tail_lt, ?_, nofun,
    nofun, nofun, fun _ => show 0 < b.capacity by omega,
    nofun, rfl⟩
  intro i hi _
  have hc := h.contents (i + 1) (by simpa using hi) (.inr (Nat.succ_pos i))
  rw [hpos, List.getElem?_cons_succ, ← ring_succ] at hc
  exact hc

/-- `DropFront` advances `tail_`. -/
theorem Ring.advanceTail (h : Ring b .dropTail q) : Ring b.advanceTail .idle q := by
  have htail : b.tail < b.capacity := h.tail_lt (h.dropping rfl)
  have hadv : (b.tail + 1) % sizeModulus % b.capacity = (b.tail + 1) % b.capacity :=
    advance_mod htail
  refine ⟨h.size, h.bound, fun hc => Nat.mod_lt _ hc, ?_, nofun,
    nofun, nofun, nofun, nofun,
    h.accessed⟩
  intro i hi _
  show q[i]? = some (b.buffer (((b.tail + 1) % sizeModulus % b.capacity + i) % b.capacity))
  rw [hadv]
  exact h.contents i hi (.inl rfl)

/-- `MoveFront` moves the front element out of its slot. -/
theorem Ring.moveOut (h : Ring b (.moveAccess j) q) (f : α → α) :
    Ring (b.write j (f (b.buffer j))) (.moved j (b.buffer j)) q := by
  obtain rfl : j = b.tail := h.slot j rfl
  have hne : q ≠ [] := h.nonempty rfl
  have hhead := h.front hne rfl nofun
  refine ⟨h.size, h.bound, h.tail_lt, ?_, ?_, fun j hj => (Option.some.inj hj).symm, fun _ => hne,
    nofun, nofun, h.accessed⟩
  · intro i hi hor
    have hpos : 0 < i := hor.resolve_left nofun
    have hlt := h.tail_lt (by have := h.bound; omega)
    have hother : (b.tail + i) % b.capacity ≠ b.tail := by
      have hring := ring_ne b.tail hpos (Nat.lt_of_lt_of_le hi h.bound)
      rw [Nat.add_zero, Nat.mod_eq_of_lt hlt] at hring
      exact hring.symm
    show q[i]? = some (Function.update b.buffer b.tail (f (b.buffer b.tail))
      ((b.tail + i) % b.capacity))
    rw [Function.update_of_ne hother]
    exact h.contents i hi (.inl rfl)
  · intro v hv
    rw [hhead, Option.some.inj hv]

/-- A producer writes the slot after the last element. -/
theorem Ring.write (h : Ring b cons q) (hlt : q.length < b.capacity)
    (hslot : i = (readPosition b cons + q.length) % b.capacity) : Ring (b.write i v) cons q := by
  refine h.congr rfl rfl rfl rfl ?_
  intro k hk
  exact Function.update_of_ne (hslot ▸ ring_ne _ hk hlt) _ _

/-- `FinishInsert` increases `size_`: the slot after the last element joins the
list. -/
theorem Ring.insert (h : Ring b cons q) (hlt : q.length < b.capacity) :
    Ring b.increaseSize cons
      (q ++ [b.buffer ((readPosition b cons + q.length) % b.capacity)]) := by
  have hsize : b.increaseSize.size = q.length + 1 := by
    rw [increaseSize_size (by rw [h.size]; exact hlt), h.size]
  have hpos : readPosition b.increaseSize cons = readPosition b cons := by cases cons <;> rfl
  refine ⟨by simpa using hsize, ?_, h.tail_lt, ?_, ?_, h.slot, fun _ => by simp, h.dropping,
    h.alive, h.accessed⟩
  · rw [List.length_append]; exact hlt
  · intro i hi hor
    rw [List.length_append, List.length_singleton] at hi
    rw [hpos]
    by_cases hlast : i = q.length
    · subst hlast
      simp only [List.getElem?_concat_length]
      rfl
    · rw [List.getElem?_append_left (by omega)]
      exact h.contents i (by omega) hor
  · intro v hv
    rw [List.head?_append, h.taken v hv]
    rfl

/-! ## The producers -/

/-- The slot a producer got from `PrepareInsert` and has not yet made available. -/
def Producer.slot : Producer α → Option Nat
  | .resetSlot i _ | .write i _ | .prepared i | .finish i | .finishSize i => some i
  | .idle | .insert _ | .unlock => none

/-- At most one producer is active: the holder of the mutex, or the owner of the
`Writer`. -/
def Exclusive (P : Usage Tid α) (m : Bool) (prods : Tid → Producer α) : Prop :=
  match P.access with
  | .multiWriter => Owned (m = true) (fun pc : Producer α => pc ≠ .idle) prods
  | .writer p => ∀ t, prods t ≠ .idle → t = p

theorem exclusive_multiWriter (hacc : P.access = .multiWriter) :
    Exclusive P m prods ↔ Owned (m = true) (fun pc : Producer α => pc ≠ .idle) prods := by
  unfold Exclusive; rw [hacc]

theorem exclusive_writer {p : Tid} (hacc : P.access = .writer p) :
    Exclusive P m prods ↔ ∀ t, prods t ≠ .idle → t = p := by
  unfold Exclusive; rw [hacc]

theorem Exclusive.atMostOne (h : Exclusive P m prods) :
    AtMostOne (fun pc : Producer α => pc ≠ .idle) prods := by
  cases hacc : P.access with
  | multiWriter => exact ((exclusive_multiWriter hacc).mp h).unique
  | writer p =>
    have hp := (exclusive_writer hacc).mp h
    exact fun t u ht hu => (hp t ht).trans (hp u hu).symm

/-- **What holds of the buffer while a producer is at a program point** and no
other producer is active.  `next` is the slot after the last element, `len` the
number of elements. -/
def Producer.At (b : RtQueueBuffer α) (next len : Nat) : Producer α → Prop
  | .idle | .insert _ | .unlock => b.insertInProgress = false ∧ b.head = next
  | .resetSlot i _ | .write i _ | .prepared i | .finish i =>
    b.insertInProgress = true ∧ b.head = next ∧ i = next ∧ len < b.capacity
  | .finishSize i =>
    b.insertInProgress = false ∧ b.head = (next + 1) % b.capacity ∧ i = next ∧ len < b.capacity

/-- **The producers' half of the simulation relation.** -/
structure Prods (P : Usage Tid α) (b : RtQueueBuffer α) (m : Bool) (prods : Tid → Producer α)
    (next len : Nat) : Prop where
  exclusive : Exclusive P m prods
  active : ∀ t, (∀ u, u ≠ t → prods u = .idle) → (prods t).At b next len

theorem Prods.others (h : Prods P b m prods next len) (ht : prods t ≠ .idle) :
    ∀ u, u ≠ t → prods u = .idle := by
  intro u hu
  by_contra hne
  exact hu (h.exclusive.atMostOne u t hne ht)

/-- An active producer is the only one. -/
theorem Prods.alone (h : Prods P b m prods next len) (hpc : prods t = pc) (hne : pc ≠ .idle) :
    prods t ≠ .idle ∧ (∀ u, u ≠ t → prods u = .idle) ∧ pc.At b next len := by
  subst hpc
  exact ⟨hne, h.others hne, h.active t (h.others hne)⟩

/-- A producer with a slot fills the slot after the last element, and there is
room for it. -/
theorem Prods.slot (h : Prods P b m prods next len) (hi : (prods t).slot = some i) :
    i = next ∧ len < b.capacity := by
  have hne : prods t ≠ .idle := by intro he; rw [he] at hi; cases hi
  have hat := h.active t (h.others hne)
  cases hpc : prods t with
  | idle | insert | unlock => rw [hpc] at hi; cases hi
  | resetSlot k | write k | prepared k | finish k | finishSize k =>
    rw [hpc] at hi hat
    obtain rfl : k = i := Option.some.inj hi
    exact hat.2.2

/-- The consumer changes its half of the buffer, and may make room. -/
theorem Prods.consumer {len' : Nat} (h : Prods P b m prods next len)
    (hins : b'.insertInProgress = b.insertInProgress) (hhead : b'.head = b.head)
    (hcap : b'.capacity = b.capacity) (hlen : len' ≤ len) : Prods P b' m prods next len' := by
  refine ⟨h.exclusive, fun t ht => ?_⟩
  have hat := h.active t ht
  cases hpc : prods t <;> rw [hpc] at hat <;> simp only [Producer.At, hins, hhead, hcap] at hat ⊢
  all_goals first | exact hat | exact ⟨hat.1, hat.2.1, hat.2.2.1, by omega⟩

theorem done_at (hins : b.insertInProgress = false) (hhead : b.head = next) :
    (Producer.done P).At b next len := by
  unfold Producer.done
  split <;> exact ⟨hins, hhead⟩

theorem afterReset_at {v : Option α} (h : (Producer.prepared i).At b next len) :
    (Producer.afterReset i v).At b next len := by
  cases v <;> exact h

theorem afterPrepare_at {v : Option α} (h : (Producer.prepared i).At b next len) :
    (Producer.afterPrepare P i v).At b next len := by
  unfold Producer.afterPrepare
  split
  · exact h
  · exact afterReset_at h

theorem afterReset_ne {v : Option α} : Producer.afterReset i v ≠ .idle := by
  cases v <;> exact nofun

theorem afterPrepare_ne {v : Option α} : Producer.afterPrepare P i v ≠ .idle := by
  unfold Producer.afterPrepare
  split
  · exact nofun
  · exact afterReset_ne

variable [DecidableEq Tid]

/-- A step of the only active producer. -/
theorem Prods.set {next' len' : Nat} (hother : ∀ u, u ≠ t → prods u = .idle)
    (hex : Exclusive P m' (Function.update prods t pc')) (hat : pc'.At b' next' len') :
    Prods P b' m' (Function.update prods t pc') next' len' := by
  refine ⟨hex, fun u hu => ?_⟩
  by_cases hut : u = t
  · subst hut; rwa [Function.update_self]
  · -- another producer is alone only when `t` has become idle
    have hidle : pc' = .idle := by
      have := hu t (fun he => hut he.symm)
      rwa [Function.update_self] at this
    rw [Function.update_of_ne hut, hother u hut, ← hidle]
    exact hat

/-- The active producer moves on. -/
theorem Exclusive.stay (h : Exclusive P m prods) (ht : prods t ≠ .idle) (hpc' : pc' ≠ .idle) :
    Exclusive P m (Function.update prods t pc') := by
  cases hacc : P.access with
  | multiWriter =>
    have hex := (exclusive_multiWriter hacc).mp h
    exact (exclusive_multiWriter hacc).mpr (hex.frame Iff.rfl (iff_of_true hpc' ht))
  | writer p =>
    have hp := (exclusive_writer hacc).mp h
    refine (exclusive_writer hacc).mpr (fun u hu => ?_)
    rcases of_update (P := fun pc : Producer α => pc ≠ .idle) hu with ⟨rfl, -⟩ | ⟨-, hu'⟩
    · exact hp u ht
    · exact hp u hu'

/-- The active producer has finished its insertion. -/
theorem Exclusive.done (h : Exclusive P m prods) (ht : prods t ≠ .idle) :
    Exclusive P m (Function.update prods t (.done P)) := by
  cases hacc : P.access with
  | multiWriter =>
    exact h.stay ht (by simp [Producer.done, hacc])
  | writer p =>
    refine (exclusive_writer hacc).mpr (fun u hu => ?_)
    rcases of_update (P := fun pc : Producer α => pc ≠ .idle) hu with ⟨-, hne⟩ | ⟨-, hu'⟩
    · exact absurd (by simp [Producer.done, hacc]) hne
    · exact (exclusive_writer hacc).mp h u hu'

/-! ## The simulation -/

/-- **The simulation relation** between a queue of capacity `cap` in use and the
list of its elements. -/
structure Repr (P : Usage Tid α) (cap : Nat) (s : System Tid α) (q : List α) : Prop where
  capacity : s.buf.capacity = cap
  ring : Ring s.buf s.cons q
  prods : Prods P s.buf s.mutexFree s.prods
    ((readPosition s.buf s.cons + q.length) % s.buf.capacity) q.length

/-- The step is matched by the abstract queue. -/
def Matched (cap : Nat) (l : Label Tid α) (q q' : List α) : Prop :=
  l.event = none ∧ q' = q ∨ ∃ e, l.event = some e ∧ BoundedFifo.Step cap q e q'

omit [DecidableEq Tid] in
theorem repr_initial (P : Usage Tid α) (cap : Nat) (hcap : cap < sizeModulus)
    (buffer : Nat → α) : Repr P cap (initial Tid cap hcap buffer) [] where
  capacity := rfl
  ring := ring_make cap hcap buffer
  prods := by
    refine ⟨?_, fun t _ => ⟨rfl, (Nat.zero_mod cap).symm⟩⟩
    unfold Exclusive
    split
    · exact ⟨fun _ _ hne => hne rfl, fun hf => absurd rfl hf, fun _ _ hne => absurd rfl hne⟩
    · exact fun _ hne => absurd rfl hne

/-- A producer's step that leaves the list as it is. -/
theorem Repr.produce (h : Repr P cap ⟨b, m, prods, cons⟩ q)
    (hother : ∀ u, u ≠ t → prods u = .idle) (hring : Ring b' cons q)
    (hcap : b'.capacity = b.capacity) (htail : b'.tail = b.tail)
    (hex : Exclusive P m' (Function.update prods t pc'))
    (hat : pc'.At b' ((readPosition b cons + q.length) % b.capacity) q.length) :
    Repr P cap ⟨b', m', Function.update prods t pc', cons⟩ q := by
  have hpos : readPosition b' cons = readPosition b cons := by
    cases cons <;> simp only [readPosition, htail, hcap]
  refine ⟨hcap.trans h.capacity, hring, ?_⟩
  show Prods P b' m' _ ((readPosition b' cons + q.length) % b'.capacity) q.length
  rw [hpos, hcap]
  exact Prods.set hother hex hat

/-- **Every step of a producer is matched.** -/
theorem Repr.prodStep (h : Repr P cap ⟨b, m, prods, cons⟩ q) (hpc : prods t = pc)
    (hs : ProdStep P t (b, m, pc) l (b', m', pc')) :
    ∃ q', Repr P cap ⟨b', m', Function.update prods t pc', cons⟩ q' ∧ Matched cap l q q' := by
  obtain ⟨hcap, hring, hprods⟩ := id h
  dsimp only at hcap hring hprods
  cases hs with
  | lock v hacc =>
    have hex := (exclusive_multiWriter hacc).mp hprods.exclusive
    have hidle : ∀ u, prods u = .idle := fun u => not_not.mp (hex.free_none rfl u)
    have hat := hprods.active t (fun u _ => hidle u)
    rw [hpc] at hat
    exact ⟨q, h.produce (fun u _ => hidle u) hring rfl rfl
      ((exclusive_multiWriter hacc).mpr (hex.acquire rfl (by decide) nofun)) hat, .inl ⟨rfl, rfl⟩⟩
  | call v hacc =>
    have hex := (exclusive_writer hacc).mp hprods.exclusive
    have hother : ∀ u, u ≠ t → prods u = .idle := fun u hu => by
      by_contra hne
      exact hu (hex u hne)
    have hat := hprods.active t hother
    rw [hpc] at hat
    refine ⟨q, h.produce hother hring rfl rfl ((exclusive_writer hacc).mpr ?_) hat,
      .inl ⟨rfl, rfl⟩⟩
    intro u hu
    rcases of_update (P := fun pc : Producer α => pc ≠ .idle) hu with ⟨rfl, -⟩ | ⟨-, hu'⟩
    · rfl
    · exact hex u hu'
  | prepareFull hcheck hfull =>
    obtain ⟨hne, hother, hat⟩ := hprods.alone hpc nofun
    refine ⟨q, h.produce hother hring rfl rfl (hprods.exclusive.done hne)
      (done_at hat.1 hat.2), .inr ⟨.full, rfl, .full ?_⟩⟩
    rw [← hring.size, ← hcap]
    exact beq_iff_eq.mp hfull
  | prepareOk hcheck hfull =>
    obtain ⟨hne, hother, hat⟩ := hprods.alone hpc nofun
    have hlt : q.length < b.capacity := by
      have hsize : b.size ≠ b.capacity := by simpa [RtQueueBuffer.full] using hfull
      have := hring.bound
      rw [hring.size] at hsize
      omega
    exact ⟨q, h.produce hother (hring.congr rfl rfl rfl rfl fun _ _ => rfl) rfl rfl
      (hprods.exclusive.stay hne afterPrepare_ne)
      (afterPrepare_at ⟨rfl, hat.2, hat.2, hlt⟩), .inl ⟨rfl, rfl⟩⟩
  | reset f hf =>
    obtain ⟨hne, hother, hat⟩ := hprods.alone hpc nofun
    exact ⟨q, h.produce hother (hring.write hat.2.2.2 hat.2.2.1) rfl rfl
      (hprods.exclusive.stay hne afterReset_ne) (afterReset_at hat), .inl ⟨rfl, rfl⟩⟩
  | write =>
    obtain ⟨hne, hother, hat⟩ := hprods.alone hpc nofun
    exact ⟨q, h.produce hother (hring.write hat.2.2.2 hat.2.2.1) rfl rfl
      (hprods.exclusive.stay hne nofun) hat, .inl ⟨rfl, rfl⟩⟩
  | clientWrite v =>
    obtain ⟨hne, hother, hat⟩ := hprods.alone hpc nofun
    exact ⟨q, h.produce hother (hring.write hat.2.2.2 hat.2.2.1) rfl rfl
      (hprods.exclusive.stay hne nofun) hat, .inl ⟨rfl, rfl⟩⟩
  | @advanceHead _ _ slot _ hp hcheck =>
    obtain ⟨hne, hother, hat⟩ := hprods.alone hpc (by rcases hp with rfl | rfl <;> exact nofun)
    obtain ⟨-, hhead, hslot, hlt⟩ : (Producer.prepared slot).At b
        ((readPosition b cons + q.length) % b.capacity) q.length := by
      rcases hp with rfl | rfl <;> exact hat
    have hheadlt : b.head < b.capacity := by
      rw [hhead]; exact Nat.mod_lt _ (by omega)
    refine ⟨q, h.produce hother (hring.congr rfl rfl rfl rfl fun _ _ => rfl) rfl rfl
      (hprods.exclusive.stay hne nofun) ⟨rfl, ?_, hslot, hlt⟩, .inl ⟨rfl, rfl⟩⟩
    show (b.head + 1) % sizeModulus % b.capacity = _
    rw [advance_mod hheadlt, hhead]
    rfl
  | @increaseSize _ _ slot =>
    obtain ⟨hne, hother, hat⟩ := hprods.alone hpc nofun
    obtain ⟨hins, hhead, rfl, hlt⟩ := hat
    have hpos : readPosition b.increaseSize cons = readPosition b cons := by cases cons <;> rfl
    refine ⟨_, ⟨hcap, hring.insert hlt, ?_⟩, .inr ⟨.enq _, rfl, .enq (hcap ▸ hlt)⟩⟩
    refine Prods.set hother (hprods.exclusive.done hne) (done_at hins ?_)
    show b.head = _
    rw [hhead, hpos, List.length_append, List.length_singleton, Nat.mod_add_mod, Nat.add_assoc]
    rfl
  | unlock =>
    obtain ⟨hne, hother, hat⟩ := hprods.alone hpc nofun
    refine ⟨q, h.produce hother hring rfl rfl ?_ hat, .inl ⟨rfl, rfl⟩⟩
    cases hacc : P.access with
    | multiWriter =>
      have hex := (exclusive_multiWriter hacc).mp hprods.exclusive
      exact (exclusive_multiWriter hacc).mpr (hex.release hne rfl (fun hn => hn rfl))
    | writer p =>
      refine (exclusive_writer hacc).mpr (fun u hu => ?_)
      rcases of_update (P := fun pc : Producer α => pc ≠ .idle) hu with ⟨-, hn⟩ | ⟨-, hu'⟩
      · exact absurd rfl hn
      · exact (exclusive_writer hacc).mp hprods.exclusive u hu'

omit [DecidableEq Tid] in
/-- A step of the consumer: the slot after the last element stays the same. -/
theorem Repr.consume {q' : List α} (h : Repr P cap ⟨b, m, prods, cons⟩ q)
    (hring : Ring b' cons' q') (hcap : b'.capacity = b.capacity)
    (hins : b'.insertInProgress = b.insertInProgress) (hhead : b'.head = b.head)
    (hlen : q'.length ≤ q.length)
    (hnext : (readPosition b' cons' + q'.length) % b.capacity =
      (readPosition b cons + q.length) % b.capacity) :
    Repr P cap ⟨b', m, prods, cons'⟩ q' := by
  refine ⟨hcap.trans h.capacity, hring, ?_⟩
  show Prods P b' m prods ((readPosition b' cons' + q'.length) % b'.capacity) q'.length
  rw [hcap, hnext]
  exact h.prods.consumer hins hhead hcap hlen

omit [DecidableEq Tid] in
/-- A load of `size_` in `Front` found an element and the consumer got its slot. -/
theorem Repr.access (h : Repr P cap ⟨b, m, prods, cons⟩ q)
    (hcons : cons = .idle ∨ cons = .moveFront)
    (hempty : b.empty = false)
    (hcons' : cons' = .front b.tail ∨ cons' = .popCopy b.tail ∨ cons' = .moveAccess b.tail) :
    Repr P cap ⟨{ b with frontAccessed := true }, m, prods, cons'⟩ q := by
  have hne := h.ring.nonempty_of_load hempty
  have hslot : ∀ j, some b.tail = some j → j = b.tail := fun j hj => (Option.some.inj hj).symm
  rcases hcons with rfl | rfl <;> rcases hcons' with rfl | rfl | rfl <;>
    exact h.consume (h.ring.move true _ rfl nofun hslot (fun _ => hne) nofun nofun nofun rfl)
      rfl rfl rfl (Nat.le_refl _) rfl

omit [DecidableEq Tid] in
/-- `DropFront` removes the first element of the list. -/
theorem Repr.drop (h : Repr P cap ⟨b, m, prods, cons⟩ q) (hhead : q.head? = some v)
    (hdrop : cons ≠ .dropTail) :
    ∃ q', Repr P cap ⟨{ b with frontAccessed := false }.decreaseSize, m, prods, .dropTail⟩ q' ∧
      Matched cap (.removed v : Label Tid α) q q' := by
  obtain ⟨q', rfl⟩ : ∃ q', q = v :: q' := List.head?_eq_some_iff.mp hhead
  refine ⟨q', h.consume (h.ring.drop hdrop) rfl rfl rfl (Nat.le_succ _) ?_,
    .inr ⟨.deq v, rfl, .deq⟩⟩
  have hpos : readPosition b cons = b.tail := by
    cases cons <;> first | rfl | exact absurd rfl hdrop
  rw [hpos, List.length_cons, ← ring_succ]
  rfl

omit [DecidableEq Tid] in
/-- **Every step of the consumer is matched.** -/
theorem Repr.consStep (h : Repr P cap ⟨b, m, prods, cons⟩ q)
    (hs : ConsStep P (b, cons) l (b', cons')) :
    ∃ q', Repr P cap ⟨b', m, prods, cons'⟩ q' ∧ Matched cap l q q' := by
  have hring := h.ring
  dsimp only at hring
  cases hs with
  | empty hcheck hempty =>
    obtain rfl := hring.nil_of_load hempty
    exact ⟨[], h, .inr ⟨.empty, rfl, .empty⟩⟩
  | front hcheck hempty =>
    exact ⟨q, h.access (.inl rfl) hempty (.inl rfl), .inl ⟨rfl, rfl⟩⟩
  | pop hcheck hempty =>
    exact ⟨q, h.access (.inl rfl) hempty (.inr (.inl rfl)), .inl ⟨rfl, rfl⟩⟩
  | moveSlot hcheck hempty =>
    exact ⟨q, h.access (.inr rfl) hempty (.inr (.inr rfl)), .inl ⟨rfl, rfl⟩⟩
  | readFront => exact ⟨q, h, .inl ⟨rfl, rfl⟩⟩
  | keepFront hcheck =>
    have hmove := hring.move false .idle rfl nofun nofun nofun nofun nofun nofun rfl
    exact ⟨q, h.consume hmove rfl rfl rfl (Nat.le_refl _) rfl, .inl ⟨rfl, rfl⟩⟩
  | @dropFront _ slot hcheck =>
    obtain rfl : slot = b.tail := hring.slot slot rfl
    exact h.drop (hring.front (hring.nonempty rfl) rfl nofun) nofun
  | @dropTaken _ _ v _ hpc hcheck =>
    rcases hpc with rfl | rfl
    · exact h.drop (hring.taken v rfl) nofun
    · exact h.drop (hring.taken v rfl) nofun
  | advanceTail =>
    have htail := hring.tail_lt (hring.dropping rfl)
    refine ⟨q, h.consume hring.advanceTail rfl rfl rfl (Nat.le_refl _) ?_, .inl ⟨rfl, rfl⟩⟩
    show ((b.tail + 1) % sizeModulus % b.capacity + q.length) % b.capacity = _
    rw [advance_mod htail]
    rfl
  | @popCopy _ slot =>
    obtain rfl : slot = b.tail := hring.slot slot rfl
    have hhead := hring.front (hring.nonempty rfl) rfl nofun
    have hmove := hring.move true (.popDrop b.tail (b.buffer b.tail)) rfl
      (fun v hv => by rw [hhead, ← hv]; rfl) (fun j hj => (Option.some.inj hj).symm)
      (fun _ => hring.nonempty rfl) nofun nofun nofun
      rfl
    have hacc : b.frontAccessed = true := hring.accessed
    rw [← hacc] at hmove
    exact ⟨q, h.consume hmove rfl rfl rfl (Nat.le_refl _) rfl, .inl ⟨rfl, rfl⟩⟩
  | moveFront hempty =>
    have hacc : b.frontAccessed = false := hring.accessed
    have hmove := hring.move false .moveFront rfl nofun nofun
      (fun _ => hring.nonempty_of_load hempty) nofun nofun nofun rfl
    rw [← hacc] at hmove
    exact ⟨q, h.consume hmove rfl rfl rfl (Nat.le_refl _) rfl, .inl ⟨rfl, rfl⟩⟩
  | moveNull hcheck hempty => exact absurd (hring.nil_of_load hempty) (hring.nonempty rfl)
  | moveAccess =>
    exact ⟨q, h.consume (hring.moveOut _) rfl rfl rfl (Nat.le_refl _) rfl, .inl ⟨rfl, rfl⟩⟩

/-- **The simulation step.** -/
theorem repr_step (h : Repr P cap s q) (hs : Step P s l s') :
    ∃ q', Repr P cap s' q' ∧ Matched cap l q q' := by
  cases hs with
  | prod hp => exact Repr.prodStep h rfl hp
  | cons hc => exact Repr.consStep h hc

/-- **The simulation along a run.** -/
theorem repr_run {hcap : cap < sizeModulus} {buffer : Nat → α} {w : List (Label Tid α)}
    (h : Run (Step P) (initial Tid cap hcap buffer) w s) :
    ∃ q, Repr P cap s q ∧ Run (BoundedFifo.Step cap) [] (w.filterMap Label.event) q :=
  h.simulate (repr_initial P cap hcap buffer) fun _ _ _ _ hR hs => repr_step hR hs

/-! ## The queue is a bounded FIFO -/

/-- The elements made available along a word, in the order of `FinishInsert`. -/
def inserted (w : List (Label Tid α)) : List α := enqs (w.filterMap Label.event)

/-- The elements removed along a word, in the order of `DropFront`. -/
def removed (w : List (Label Tid α)) : List α := deqs (w.filterMap Label.event)

/-- The producer is about to execute `head_ = (head_ + 1) % Capacity()`. -/
def Producer.atModulus : Producer α → Bool
  | .prepared _ | .finish _ => true
  | _ => false

/-- The consumer is about to execute `tail_ = (tail_ + 1) % Capacity()`. -/
def Consumer.atModulus : Consumer α → Bool
  | .dropTail => true
  | _ => false

/-- **What the queue guarantees** after the steps `w` have led to `s`. -/
structure Correct (P : Usage Tid α) (cap : Nat) (w : List (Label Tid α)) (s : System Tid α) :
    Prop where
  /-- What the run shows is a run of the bounded queue, and `size_` counts it. -/
  fifo : ∃ q, Run (BoundedFifo.Step cap) [] (w.filterMap Label.event) q ∧
    inserted w = removed w ++ q ∧ s.buf.size = q.length
  order : removed w <+: inserted w
  /-- A value read from the front is the next one to be removed. -/
  seen : ∀ v s', Step P s (.saw v) s' → (inserted w)[(removed w).length]? = some v
  size_le : s.buf.size ≤ cap
  noUnderflow : ∀ v s', Step P s (.removed v) s' → s'.buf.size + 1 = s.buf.size
  disjoint : ∀ t i j, (s.prods t).slot = some i → s.cons.slot = some j → i ≠ j
  /-- On a full queue, an insertion's load of `size_` fails, and nothing else can
  happen in its place. -/
  fullFails : s.buf.size = cap → ∀ t v, s.prods t = .insert v → ∀ l b m pc,
    ProdStep P t (s.buf, s.mutexFree, s.prods t) l (b, m, pc) ↔
      l = .full t ∧ b = s.buf ∧ m = s.mutexFree ∧ pc = .done P
  modulus : (∃ t, (s.prods t).atModulus = true) ∨ s.cons.atModulus = true → cap ≠ 0
  noNullDereference : s.cons ≠ .crashed

omit [DecidableEq Tid] in
theorem Repr.disjoint (h : Repr P cap s q) (hi : (s.prods t).slot = some i)
    (hj : s.cons.slot = some j) : i ≠ j := by
  have hne : s.cons.needsFront = true := by
    cases hc : s.cons <;> rw [hc] at hj <;> first | rfl | cases hj
  have hdrop : readPosition s.buf s.cons = s.buf.tail := by
    cases hc : s.cons <;> rw [hc] at hj <;> first | rfl | cases hj
  obtain ⟨hslot, hlt⟩ := h.prods.slot hi
  obtain rfl : j = s.buf.tail := h.ring.slot j hj
  have hpos : 0 < q.length := List.length_pos_iff.mpr (h.ring.nonempty hne)
  have htail := h.ring.tail_lt (by omega)
  have hring := ring_ne s.buf.tail hpos hlt
  rw [Nat.add_zero, Nat.mod_eq_of_lt htail] at hring
  rw [hslot, hdrop]
  exact hring.symm

omit [DecidableEq Tid] in
theorem Repr.fullFails {v : Option α} (h : Repr P cap s q) (hfull : s.buf.size = cap)
    (hpc : s.prods t = .insert v) :
    ProdStep P t (s.buf, s.mutexFree, s.prods t) l (b', m', pc') ↔
      l = .full t ∧ b' = s.buf ∧ m' = s.mutexFree ∧ pc' = .done P := by
  obtain ⟨b, m, prods, cons⟩ := s
  dsimp only at hfull hpc ⊢
  have hat := (h.prods.alone hpc nofun).2.2
  have hfull' : b.full = true := beq_iff_eq.mpr (hfull.trans h.capacity.symm)
  rw [hpc]
  constructor
  · intro hs
    cases hs with
    | prepareFull => exact ⟨rfl, rfl, rfl, rfl⟩
    | prepareOk hcheck hnot => rw [hfull'] at hnot; cases hnot
    | advanceHead hp => rcases hp with hp | hp <;> cases hp
  · rintro ⟨rfl, rfl, rfl, rfl⟩
    exact .prepareFull hat.1 hfull'

omit [DecidableEq Tid] in
theorem Repr.modulus (h : Repr P cap s q)
    (hm : (∃ t, (s.prods t).atModulus = true) ∨ s.cons.atModulus = true) : cap ≠ 0 := by
  rw [← h.capacity]
  rcases hm with ⟨t, ht⟩ | hc
  · have hslot : ∃ i, (s.prods t).slot = some i := by
      cases hpc : s.prods t <;> rw [hpc] at ht <;> first | exact ⟨_, rfl⟩ | cases ht
    obtain ⟨i, hi⟩ := hslot
    have := (h.prods.slot hi).2
    omega
  · have hdrop : s.cons = .dropTail := by
      cases hc' : s.cons <;> rw [hc'] at hc <;> first | rfl | cases hc
    have := h.ring.dropping hdrop
    omega

/-- The front slot is read only while the first element is in it. -/
theorem Repr.saw (h : Repr P cap s q) (hs : Step P s (.saw v) s') : q.head? = some v := by
  obtain ⟨b, m, prods, cons⟩ := s
  have hring := h.ring
  cases hs with
  | prod hp =>
    dsimp only at hp
    generalize prods _ = pc at hp
    cases hp
  | cons hc =>
    dsimp only at hc hring
    cases hc with
    | @readFront _ slot | @popCopy _ slot | @moveAccess _ slot =>
      obtain rfl : slot = b.tail := hring.slot slot rfl
      exact hring.front (hring.nonempty rfl) rfl nofun

/-- **The ring buffer refines a bounded FIFO**: for every capacity, element type,
number of producers and interleaving. -/
theorem queue_refines_fifo (P : Usage Tid α) (cap : Nat) (hcap : cap < sizeModulus)
    (buffer : Nat → α) {w : List (Label Tid α)}
    (h : Run (Step P) (initial Tid cap hcap buffer) w s) : Correct P cap w s := by
  obtain ⟨q, hrepr, hrun⟩ := repr_run h
  have heq : inserted w = removed w ++ q := enqs_eq hrun
  refine ⟨⟨q, hrun, heq, hrepr.ring.size⟩, deqs_isPrefix_enqs hrun, ?_, ?_, ?_,
    fun t i j => hrepr.disjoint, fun hfull t v hpc l b m pc => hrepr.fullFails hfull hpc,
    hrepr.modulus, hrepr.ring.alive⟩
  · intro v s' hs
    rw [heq, List.getElem?_append_right (Nat.le_refl _), Nat.sub_self, ← List.head?_eq_getElem?]
    exact hrepr.saw hs
  · rw [hrepr.ring.size]
    exact length_le hrun
  · intro v s' hs
    obtain ⟨q', hrepr', ⟨hnone, -⟩ | ⟨e, he, hstep⟩⟩ := repr_step hrepr hs
    · cases hnone
    · cases he
      cases hstep
      rw [hrepr.ring.size, hrepr'.ring.size, List.length_cons]

/-- A queue of capacity one with one producer behind the mutex: the value 7 goes
through it. -/
theorem queue_refines_fifo_one_value :
    ∃ (w : List (Label Unit Nat)) (s : System Unit Nat),
      Run (Step ⟨.multiWriter, none, fun _ => 0⟩)
        (initial Unit 1 (by decide) (fun _ => 0)) w s ∧
      removed w = [7] ∧ Correct ⟨.multiWriter, none, fun _ => 0⟩ 1 w s := by
  have hone : ∀ {b b' : RtQueueBuffer Nat} {m m' : Bool} {pc pc' : Producer Nat}
      {c : Consumer Nat} {l : Label Unit Nat},
      ProdStep ⟨.multiWriter, none, fun _ => 0⟩ () (b, m, pc) l (b', m', pc') →
      Step ⟨.multiWriter, none, fun _ => 0⟩ ⟨b, m, fun _ => pc, c⟩ l ⟨b', m', fun _ => pc', c⟩ := by
    intro b b' m m' pc pc' c l hs
    have hstep := Step.prod (s := ⟨b, m, fun _ => pc, c⟩) hs
    rwa [show Function.update (fun _ => pc) () pc' = fun _ => pc' from funext fun _ => rfl] at hstep
  let b₀ : RtQueueBuffer Nat := .make 1 (by decide) (fun _ => 0)
  let b₁ : RtQueueBuffer Nat := { b₀ with insertInProgress := true }
  let b₂ := b₁.write 0 7
  let b₃ := b₂.advanceHead.increaseSize
  let b₄ := { b₃ with frontAccessed := true }
  have h : Run (Step ⟨.multiWriter, none, fun _ => 0⟩)
      (initial Unit 1 (by decide) (fun _ => 0))
      [.internal, .internal, .internal, .internal, .inserted () 7, .internal, .saw 7, .removed 7]
      ⟨{ b₄ with frontAccessed := false }.decreaseSize, false, fun _ => .unlock, .dropTail⟩ := by
    refine .cons (hone (.lock 7 rfl)) ?_
    refine .cons (hone (.prepareOk rfl rfl)) ?_
    refine .cons (hone .write) ?_
    refine .cons (hone (.advanceHead (.inr rfl) rfl)) ?_
    refine .cons (hone .increaseSize) ?_
    refine .cons (.cons (.pop rfl rfl)) ?_
    refine .cons (.cons .popCopy) ?_
    exact .single (.cons (.dropTaken (.inr rfl) rfl))
  exact ⟨_, _, h, rfl, queue_refines_fifo _ 1 (by decide) _ h⟩

end Intrinsic.Queue
