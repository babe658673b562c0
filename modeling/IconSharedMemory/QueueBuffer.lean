import IconSharedMemory.Runs
import IconSharedMemory.BoundedFifo

/-! # The real-time queue

`RtQueueBuffer` (`platform/common/buffers/rt_queue_buffer.h`) is a ring of
`capacity_` slots with a write position `head_`, a read position `tail_` and an
atomic element count `size_`.  The first part of the module translates its member
functions.  Each is a composition of the accesses another thread can observe:
the load of `size_`, the updates of `head_` and `tail_`, and the
`fetch_add`/`fetch_sub` on `size_`.

The second part is the queue in use (`rt_queue.h`, `rt_queue_multi_writer.h`):
any number of producers that go through the mutex of one
`RealtimeQueueMultiWriter`, or one producer that owns the `Writer`, and one
consumer that owns the `Reader`.  A step of the system is one of the accesses
above, one slot access, or one mutex operation.  A failing `INTR_CHECK` aborts
the process, so the step it guards does not exist.
-/
namespace Intrinsic
open Runs

/-- The number of values of a `size_t`. -/
def sizeModulus : Nat := 2 ^ 64

/-- `internal::RtQueueBuffer<T>` -/
structure RtQueueBuffer (α : Type) where
  insertInProgress : Bool
  head : Nat
  frontAccessed : Bool
  tail : Nat
  size : Nat
  capacity : Nat
  /-- The capacity is a `size_t`. -/
  capacity_lt : capacity < sizeModulus
  /-- The slots; only the first `capacity` of them exist. -/
  buffer : Nat → α

namespace RtQueueBuffer
variable {α : Type}

/-- The constructor: the slots hold whatever `T`'s constructor or the
`init_function` left in them. -/
def make (capacity : Nat) (h : capacity < sizeModulus) (buffer : Nat → α) : RtQueueBuffer α :=
  ⟨false, 0, false, 0, 0, capacity, h, buffer⟩

def empty (b : RtQueueBuffer α) : Bool := b.size == 0

def full (b : RtQueueBuffer α) : Bool := b.size == b.capacity

/-- `fetch_add(1)` -/
def increaseSize (b : RtQueueBuffer α) : RtQueueBuffer α :=
  { b with size := (b.size + 1) % sizeModulus }

/-- `fetch_sub(1)` -/
def decreaseSize (b : RtQueueBuffer α) : RtQueueBuffer α :=
  { b with size := (b.size + (sizeModulus - 1)) % sizeModulus }

/-- `head_ = (head_ + 1) % Capacity()`, with the flag `FinishInsert` clears before it. -/
def advanceHead (b : RtQueueBuffer α) : RtQueueBuffer α :=
  { b with
    insertInProgress := false
    head := (b.head + 1) % sizeModulus % b.capacity }

/-- `tail_ = (tail_ + 1) % Capacity()` -/
def advanceTail (b : RtQueueBuffer α) : RtQueueBuffer α :=
  { b with tail := (b.tail + 1) % sizeModulus % b.capacity }

/-- Assignment through the pointer to a slot. -/
def write (b : RtQueueBuffer α) (slot : Nat) (v : α) : RtQueueBuffer α :=
  { b with buffer := Function.update b.buffer slot v }

/-- `Front()`: the slot of the front element, unless the queue is empty. -/
def front (b : RtQueueBuffer α) : Option Nat × RtQueueBuffer α :=
  if b.empty then (none, b) else (some b.tail, { b with frontAccessed := true })

def keepFront (b : RtQueueBuffer α) : RtQueueBuffer α := { b with frontAccessed := false }

def dropFront (b : RtQueueBuffer α) : RtQueueBuffer α :=
  advanceTail (decreaseSize { b with frontAccessed := false })

/-- `PrepareInsert()`: the slot to fill, unless the queue is full. -/
def prepareInsert (b : RtQueueBuffer α) : Option Nat × RtQueueBuffer α :=
  if b.full then (none, b) else (some b.head, { b with insertInProgress := true })

def finishInsert (b : RtQueueBuffer α) : RtQueueBuffer α := b.advanceHead.increaseSize

end RtQueueBuffer

namespace Queue
variable {Tid α : Type}

/-! ## The queue in use -/

/-- Who inserts: any thread through `RealtimeQueueMultiWriter`, or the one thread
that owns the `Writer`. -/
inductive Access (Tid : Type)
  | multiWriter
  | writer (p : Tid)

/-- What the users of a queue fix: the producers' access, the element reset
function of the `Writer`, and the value that moving from an element leaves
behind. -/
structure Usage (Tid α : Type) where
  access : Access Tid
  resetFunction : Option (α → α)
  movedFrom : α → α

/-- Where a producer is. -/
inductive Producer (α : Type)
  | idle
  /-- About to call `PrepareInsert`, in `Insert` of a value or, for `none`, for
  itself. -/
  | insert (v : Option α)
  /-- `PrepareInsert` got a slot and is about to apply the reset function. -/
  | resetSlot (slot : Nat) (v : Option α)
  /-- `Insert` is about to assign the value. -/
  | write (slot : Nat) (v : α)
  /-- `PrepareInsert` returned the slot to the producer. -/
  | prepared (slot : Nat)
  /-- `Insert` is about to call `FinishInsert`. -/
  | finish (slot : Nat)
  /-- `FinishInsert` has advanced `head_` and not yet increased `size_`. -/
  | finishSize (slot : Nat)
  /-- `RealtimeQueueMultiWriter::Insert` is about to unlock its mutex. -/
  | unlock

/-- Where the consumer is. -/
inductive Consumer (α : Type)
  | idle
  /-- `Front` returned this slot; it was neither kept nor dropped yet. -/
  | front (slot : Nat)
  /-- `MoveFront` found the queue not empty and is about to call `Front`. -/
  | moveFront
  /-- `MoveFront` is about to move the element out of this slot. -/
  | moveAccess (slot : Nat)
  /-- `MoveFront` returned the value of this slot; the next call must be `DropFront`. -/
  | moved (slot : Nat) (v : α)
  /-- `Pop` is about to copy this slot. -/
  | popCopy (slot : Nat)
  /-- `Pop` copied the value of this slot and is about to call `DropFront`. -/
  | popDrop (slot : Nat) (v : α)
  /-- `DropFront` has decreased `size_` and not yet advanced `tail_`. -/
  | dropTail
  /-- `MoveFront` dereferenced a null pointer. -/
  | crashed

/-- What a step shows to an observer. -/
inductive Label (Tid α : Type)
  /-- A step of a producer or of the consumer that shows nothing. -/
  | internal
  /-- `PrepareInsert` of thread `t` returned a null pointer. -/
  | full (t : Tid)
  /-- `FinishInsert` of thread `t` made the element available. -/
  | inserted (t : Tid) (v : α)
  /-- The consumer found the queue empty. -/
  | empty
  /-- The consumer read this value from the front slot. -/
  | saw (v : α)
  /-- `DropFront` removed the element. -/
  | removed (v : α)

/-- A queue, its producers and its consumer. -/
structure System (Tid α : Type) where
  buf : RtQueueBuffer α
  mutexFree : Bool
  prods : Tid → Producer α
  cons : Consumer α

/-- A new queue of the given capacity. -/
def initial (Tid : Type) (capacity : Nat) (h : capacity < sizeModulus) (buffer : Nat → α) :
    System Tid α :=
  ⟨.make capacity h buffer, true, fun _ => .idle, .idle⟩

/-- What follows the reset of the slot. -/
def Producer.afterReset (slot : Nat) : Option α → Producer α
  | some v => .write slot v
  | none => .prepared slot

/-- What follows a successful `PrepareInsert` of the buffer. -/
def Producer.afterPrepare (P : Usage Tid α) (slot : Nat) (v : Option α) : Producer α :=
  if P.resetFunction.isSome then .resetSlot slot v else .afterReset slot v

/-- What follows the end of an insertion. -/
def Producer.done (P : Usage Tid α) : Producer α :=
  match P.access with
  | .multiWriter => .unlock
  | .writer _ => .idle

/-- **The steps of producer `t`**, on the buffer, the mutex and its own program
point. -/
inductive ProdStep (P : Usage Tid α) (t : Tid) :
    RtQueueBuffer α × Bool × Producer α → Label Tid α →
      RtQueueBuffer α × Bool × Producer α → Prop
  /-- `RealtimeQueueMultiWriter::Insert` locks its mutex. -/
  | lock {b : RtQueueBuffer α} (v : α) (hacc : P.access = .multiWriter) :
      ProdStep P t (b, true, .idle) .internal (b, false, .insert (some v))
  /-- The owner of the `Writer` calls `Insert` or `PrepareInsert`. -/
  | call {b : RtQueueBuffer α} {m : Bool} (v : Option α) (hacc : P.access = .writer t) :
      ProdStep P t (b, m, .idle) .internal (b, m, .insert v)
  /-- `PrepareInsert` loads `size_` and finds the buffer full. -/
  | prepareFull {b : RtQueueBuffer α} {m : Bool} {v : Option α}
      (hcheck : b.insertInProgress = false) (hfull : b.full = true) :
      ProdStep P t (b, m, .insert v) (.full t) (b, m, .done P)
  /-- `PrepareInsert` loads `size_` and hands out the slot at `head_`. -/
  | prepareOk {b : RtQueueBuffer α} {m : Bool} {v : Option α}
      (hcheck : b.insertInProgress = false) (hfull : b.full = false) :
      ProdStep P t (b, m, .insert v) .internal
        ({ b with insertInProgress := true }, m, .afterPrepare P b.head v)
  | reset {b : RtQueueBuffer α} {m : Bool} {slot : Nat} {v : Option α} (f : α → α)
      (hf : P.resetFunction = some f) :
      ProdStep P t (b, m, .resetSlot slot v) .internal
        (b.write slot (f (b.buffer slot)), m, .afterReset slot v)
  /-- `Insert` assigns its value to the slot. -/
  | write {b : RtQueueBuffer α} {m : Bool} {slot : Nat} {v : α} :
      ProdStep P t (b, m, .write slot v) .internal (b.write slot v, m, .finish slot)
  /-- The producer assigns to the slot `PrepareInsert` returned. -/
  | clientWrite {b : RtQueueBuffer α} {m : Bool} {slot : Nat} (v : α) :
      ProdStep P t (b, m, .prepared slot) .internal (b.write slot v, m, .prepared slot)
  /-- `FinishInsert` advances `head_`. -/
  | advanceHead {b : RtQueueBuffer α} {m : Bool} {slot : Nat} {pc : Producer α}
      (hpc : pc = .prepared slot ∨ pc = .finish slot) (hcheck : b.insertInProgress = true) :
      ProdStep P t (b, m, pc) .internal (b.advanceHead, m, .finishSize slot)
  /-- `FinishInsert` increases `size_`. -/
  | increaseSize {b : RtQueueBuffer α} {m : Bool} {slot : Nat} :
      ProdStep P t (b, m, .finishSize slot) (.inserted t (b.buffer slot))
        (b.increaseSize, m, .done P)
  | unlock {b : RtQueueBuffer α} :
      ProdStep P t (b, false, .unlock) .internal (b, true, .idle)

/-- **The steps of the consumer**, on the buffer and its own program point. -/
inductive ConsStep (P : Usage Tid α) :
    RtQueueBuffer α × Consumer α → Label Tid α → RtQueueBuffer α × Consumer α → Prop
  /-- `Front` or `Pop` loads `size_`, or `MoveFront` does in `Empty`: nothing there. -/
  | empty {b : RtQueueBuffer α} (hcheck : b.frontAccessed = false) (hempty : b.empty = true) :
      ConsStep P (b, .idle) .empty (b, .idle)
  | front {b : RtQueueBuffer α} (hcheck : b.frontAccessed = false) (hempty : b.empty = false) :
      ConsStep P (b, .idle) .internal ({ b with frontAccessed := true }, .front b.tail)
  /-- The consumer reads the element through the pointer `Front` returned. -/
  | readFront {b : RtQueueBuffer α} {slot : Nat} :
      ConsStep P (b, .front slot) (.saw (b.buffer slot)) (b, .front slot)
  | keepFront {b : RtQueueBuffer α} {slot : Nat} (hcheck : b.frontAccessed = true) :
      ConsStep P (b, .front slot) .internal (b.keepFront, .idle)
  /-- `DropFront` decreases `size_`, called with the element still in its slot. -/
  | dropFront {b : RtQueueBuffer α} {slot : Nat} (hcheck : b.frontAccessed = true) :
      ConsStep P (b, .front slot) (.removed (b.buffer slot))
        ({ b with frontAccessed := false }.decreaseSize, .dropTail)
  /-- `DropFront` decreases `size_`, called with the element moved or copied out. -/
  | dropTaken {b : RtQueueBuffer α} {slot : Nat} {v : α} {pc : Consumer α}
      (hpc : pc = .moved slot v ∨ pc = .popDrop slot v) (hcheck : b.frontAccessed = true) :
      ConsStep P (b, pc) (.removed v) ({ b with frontAccessed := false }.decreaseSize, .dropTail)
  | advanceTail {b : RtQueueBuffer α} :
      ConsStep P (b, .dropTail) .internal (b.advanceTail, .idle)
  | pop {b : RtQueueBuffer α} (hcheck : b.frontAccessed = false) (hempty : b.empty = false) :
      ConsStep P (b, .idle) .internal ({ b with frontAccessed := true }, .popCopy b.tail)
  | popCopy {b : RtQueueBuffer α} {slot : Nat} :
      ConsStep P (b, .popCopy slot) (.saw (b.buffer slot)) (b, .popDrop slot (b.buffer slot))
  /-- `MoveFront`: `Empty` returned false. -/
  | moveFront {b : RtQueueBuffer α} (hempty : b.empty = false) :
      ConsStep P (b, .idle) .internal (b, .moveFront)
  | moveSlot {b : RtQueueBuffer α} (hcheck : b.frontAccessed = false) (hempty : b.empty = false) :
      ConsStep P (b, .moveFront) .internal
        ({ b with frontAccessed := true }, .moveAccess b.tail)
  /-- `MoveFront`: the second load found nothing and the null pointer is
  dereferenced. -/
  | moveNull {b : RtQueueBuffer α} (hcheck : b.frontAccessed = false) (hempty : b.empty = true) :
      ConsStep P (b, .moveFront) .internal (b, .crashed)
  | moveAccess {b : RtQueueBuffer α} {slot : Nat} :
      ConsStep P (b, .moveAccess slot) (.saw (b.buffer slot))
        (b.write slot (P.movedFrom (b.buffer slot)), .moved slot (b.buffer slot))

/-- **One step of the system.** -/
inductive Step [DecidableEq Tid] (P : Usage Tid α) :
    System Tid α → Label Tid α → System Tid α → Prop
  | prod {s : System Tid α} {t : Tid} {l : Label Tid α} {b : RtQueueBuffer α} {m : Bool}
      {pc : Producer α} (h : ProdStep P t (s.buf, s.mutexFree, s.prods t) l (b, m, pc)) :
      Step P s l ⟨b, m, Function.update s.prods t pc, s.cons⟩
  | cons {s : System Tid α} {l : Label Tid α} {b : RtQueueBuffer α} {pc : Consumer α}
      (h : ConsStep P (s.buf, s.cons) l (b, pc)) :
      Step P s l ⟨b, s.mutexFree, s.prods, pc⟩

/-- The operation on the abstract queue that a step shows. -/
def Label.event : Label Tid α → Option (BoundedFifo.Event α)
  | .inserted _ v => some (.enq v)
  | .removed v => some (.deq v)
  | .full _ => some .full
  | .empty => some .empty
  | .internal | .saw _ => none

end Queue
end Intrinsic
