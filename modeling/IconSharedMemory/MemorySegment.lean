import IconSharedMemory.Runs
import IconSharedMemory.Holdings

/-! # Handles to shared memory

`ReadOnlyMemorySegment` and `ReadWriteMemorySegment`
(`icon/interprocess/shared_memory_manager/memory_segment.cc`) are handles to a shared memory
segment.  A handle that `Get` returns has a mapping of its own, and the header at the
beginning of the mapped memory counts the handles of either kind, over all processes.  Moving
a handle moves its mapping; the destructor and the move assignment unmap what the handle
referred to and count it down (`CleanUpSharedMemory`).

The model is a world of handles, mappings and segments, in which the operations are performed
one after the other: the counts are changed under the header's semaphore.  Mappings are known
by their address, which the kernel may reuse, and numbered as they are made.  An access to
memory that is not mapped is no result at all, and neither is the increment of a count that is
the largest `int`.

The world is accounted for (`Accounts`): the handles refer to the mappings one to one, and
each count is the number of handles.  Every operation is made of three steps, taking up a
mapping, handing it over and giving it back, and preserves this.
-/
namespace Intrinsic.SharedMemory
open Runs Holdings

/-! ## Headers and handles -/

/-- `MemorySegment::ReadWriteKind` -/
inductive ReadWriteKind
  | unknown | readOnly | readWrite
  deriving DecidableEq, Repr

/-- The reference counts of a `SegmentHeader`. -/
structure SegmentHeader where
  refCountReader : Int32
  refCountWriter : Int32
  deriving DecidableEq, Repr

/-- `++` of an `int`, which is undefined for the largest one and wraps around here. -/
def incrementRefCount (counter : Int32) : Int32 := counter + 1

/-- A count is not lowered below zero. -/
def decrementRefCount (counter : Int32) : Int32 := if counter > 0 then counter - 1 else counter

namespace SegmentHeader

/-- A new header. -/
def init : SegmentHeader := ⟨0, 0⟩

def readerRefCount (header : SegmentHeader) : Int32 := header.refCountReader

def writerRefCount (header : SegmentHeader) : Int32 := header.refCountWriter

/-- The `switch` of `MemorySegment`'s constructor. -/
def increment (header : SegmentHeader) : ReadWriteKind → SegmentHeader
  | .readOnly => { header with refCountReader := incrementRefCount header.refCountReader }
  | .readWrite => { header with refCountWriter := incrementRefCount header.refCountWriter }
  | .unknown => header

/-- The `switch` of `CleanUpSharedMemory`. -/
def decrement (header : SegmentHeader) : ReadWriteKind → SegmentHeader
  | .readWrite => { header with refCountWriter := decrementRefCount header.refCountWriter }
  | .readOnly => { header with refCountReader := decrementRefCount header.refCountReader }
  | .unknown => header

end SegmentHeader

/-- The members of a `MemorySegment`; the logger is left out. -/
structure MemorySegment where
  name : String
  /-- The address of the mapping, unless it is null. -/
  header : Option Nat
  value : Option Nat
  size : Nat
  readWriteKind : ReadWriteKind
  deriving DecidableEq, Repr

namespace MemorySegment

/-- What a default-constructed handle holds, and what is left of one that was moved from. -/
def empty : MemorySegment := ⟨"", none, none, 0, .unknown⟩

def isValid (m : MemorySegment) : Bool := m.value.isSome

end MemorySegment

/-- The two classes of handles. -/
inductive HandleClass
  | readOnly | readWrite
  deriving DecidableEq, Repr

def HandleClass.kind : HandleClass → ReadWriteKind
  | .readOnly => .readOnly
  | .readWrite => .readWrite

/-- The count of the handles of a class. -/
def SegmentHeader.count (header : SegmentHeader) : HandleClass → Int32
  | .readOnly => header.readerRefCount
  | .readWrite => header.writerRefCount

/-- A handle: an object of one of the two classes. -/
structure Handle where
  cls : HandleClass
  segment : MemorySegment
  deriving DecidableEq, Repr

/-- A mapping of a segment.  It has a number and the class of the handle it was made for. -/
structure Mapping (S : Type) where
  id : Nat
  segment : S
  size : Nat
  cls : HandleClass

/-- Segments, mappings and handles. -/
structure World (S H : Type) where
  headers : S → SegmentHeader
  /-- What is mapped at an address. -/
  maps : Nat → Option (Mapping S)
  /-- How many mappings have been made. -/
  created : Nat
  /-- The mappings for which `munmap` was called, in this order. -/
  unmapped : List Nat
  /-- The handles that are alive. -/
  handles : H → Option Handle

namespace World
variable {S H : Type} [DecidableEq S] [DecidableEq H]

/-- Nothing is mapped. -/
def init : World S H := ⟨fun _ => .init, fun _ => none, 0, [], fun _ => none⟩

/-- `mmap`, which has chosen the address. -/
def mmap (w : World S H) (address : Nat) (segment : S) (size : Nat) (cls : HandleClass) :
    World S H :=
  { w with
    maps := Function.update w.maps address (some ⟨w.created, segment, size, cls⟩)
    created := w.created + 1 }

/-- `munmap` of a whole mapping. -/
def munmap (w : World S H) (address size : Nat) : Option (World S H) :=
  match w.maps address with
  | some m =>
    if m.size = size then
      some { w with
        maps := Function.update w.maps address none
        unmapped := w.unmapped ++ [m.id] }
    else none
  | none => none

/-- An access to the header at an address. -/
def updateHeader (w : World S H) (address : Nat) (update : SegmentHeader → SegmentHeader) :
    Option (World S H) :=
  match w.maps address with
  | some m =>
    some { w with headers := Function.update w.headers m.segment (update (w.headers m.segment)) }
  | none => none

/-- `CleanUpSharedMemory()` -/
def cleanUpSharedMemory (w : World S H) (m : MemorySegment) : Option (World S H) :=
  match m.header with
  | some address => do
    let w ← w.updateHeader address (·.decrement m.readWriteKind)
    w.munmap address m.size
  | none => some w

/-- A handle gets a new content, or comes to life with it. -/
def put (w : World S H) (h : H) (handle : Handle) : World S H :=
  { w with handles := Function.update w.handles h (some handle) }

def remove (w : World S H) (h : H) : World S H :=
  { w with handles := Function.update w.handles h none }

end World

/-- What a program can do with handles. -/
inductive Op (S H : Type)
  /-- A successful `Get`: the name is that of the segment, whose size is `size`, and `mmap`
  has returned `address`. -/
  | get (h : H) (cls : HandleClass) (name : String) (segment : S) (address size : Nat)
  | construct (h : H) (cls : HandleClass)
  | moveConstruct (h source : H)
  | moveAssign (h source : H)
  | destroy (h : H)

section Apply
variable {S H : Type} [DecidableEq S] [DecidableEq H] (sizeofSegmentHeader : Nat)

/-- **The effect of an operation.**  There is none if the operation is not possible, if it
accesses memory that is not mapped, or if a count would overflow. -/
def World.apply (w : World S H) : Op S H → Option (World S H)
  | .get h cls name segment address size =>
    if w.handles h = none ∧ w.maps address = none ∧ sizeofSegmentHeader < size ∧
        (w.headers segment).count cls ≠ Int32.maxValue then do
      let w ← (w.mmap address segment size cls).updateHeader address (·.increment cls.kind)
      return w.put h
        ⟨cls, name, some address, some (address + sizeofSegmentHeader), size, cls.kind⟩
    else none
  | .construct h cls => if w.handles h = none then some (w.put h ⟨cls, .empty⟩) else none
  | .moveConstruct h source =>
    match w.handles h, w.handles source with
    | none, some other => some ((w.put h other).put source ⟨other.cls, .empty⟩)
    | _, _ => none
  | .moveAssign h source =>
    match w.handles h, w.handles source with
    | some this, some other =>
      if this.cls ≠ other.cls then none
      else if h = source then some w
      else do
        let w ← w.cleanUpSharedMemory this.segment
        return (w.put h other).put source ⟨other.cls, .empty⟩
    | _, _ => none
  | .destroy h =>
    match w.handles h with
    | some this => do
      let w ← w.cleanUpSharedMemory this.segment
      return w.remove h
    | none => none

/-- The operations are performed one after the other. -/
def Step (w : World S H) (op : Op S H) (w' : World S H) : Prop :=
  w.apply sizeofSegmentHeader op = some w'

end Apply

/-- `SharedMemoryLockstep::Connected()`, of a lockstep with this handle: there is no result
if the handle is not alive or its header is not mapped. -/
def World.connected {S H : Type} (w : World S H) (h : H) : Option Bool := do
  let handle ← w.handles h
  if handle.segment.isValid then do
    let address ← handle.segment.header
    let m ← w.maps address
    return (w.headers m.segment).writerRefCount = 2
  else return false

/-! ## The accounts -/

theorem toInt_ne_max_iff {counter : Int32} :
    counter ≠ Int32.maxValue ↔ counter.toInt < 2 ^ 31 - 1 := by
  have hlt := counter.toInt_lt
  rw [Ne, ← Int32.toInt_inj, Int32.toInt_maxValue]
  omega

theorem toInt_incrementRefCount {counter : Int32} (h : counter ≠ Int32.maxValue) :
    (incrementRefCount counter).toInt = counter.toInt + 1 := by
  have hlt := toInt_ne_max_iff.mp h
  have hle := counter.le_toInt
  rw [incrementRefCount, Int32.toInt_add, show (1 : Int32).toInt = 1 from rfl, Int.bmod_eq_of_le]
  · omega
  · omega

theorem toInt_decrementRefCount {counter : Int32} (h : 0 < counter.toInt) :
    (decrementRefCount counter).toInt = counter.toInt - 1 := by
  have hlt := counter.toInt_lt
  have hpos : (0 : Int32) < counter := Int32.lt_iff_toInt_lt.mpr h
  rw [decrementRefCount, if_pos hpos, Int32.toInt_sub, show (1 : Int32).toInt = 1 from rfl,
    Int.bmod_eq_of_le]
  · omega
  · omega

theorem SegmentHeader.count_increment {header : SegmentHeader} {cls : HandleClass}
    (hmax : header.count cls ≠ Int32.maxValue) (c : HandleClass) :
    ((header.increment cls.kind).count c).toInt =
      (header.count c).toInt + if cls = c then 1 else 0 := by
  cases cls with
  | readOnly =>
    cases c with
    | readOnly => exact toInt_incrementRefCount hmax
    | readWrite => exact (Int.add_zero _).symm
  | readWrite =>
    cases c with
    | readOnly => exact (Int.add_zero _).symm
    | readWrite => exact toInt_incrementRefCount hmax

theorem SegmentHeader.count_decrement {header : SegmentHeader} {cls : HandleClass}
    (hpos : 0 < (header.count cls).toInt) (c : HandleClass) :
    ((header.decrement cls.kind).count c).toInt =
      (header.count c).toInt - if cls = c then 1 else 0 := by
  cases cls with
  | readOnly =>
    cases c with
    | readOnly => exact toInt_decrementRefCount hpos
    | readWrite => exact (Int.sub_zero _).symm
  | readWrite =>
    cases c with
    | readOnly => exact (Int.sub_zero _).symm
    | readWrite => exact toInt_decrementRefCount hpos

/-- **The numbers of the mappings.**  What has been made is mapped or was unmapped, once. -/
structure Numbered {S : Type} (maps : Nat → Option (Mapping S)) (created : Nat)
    (unmapped : List Nat) : Prop where
  number : ∀ a m, maps a = some m → m.id < created ∧ m.id ∉ unmapped
  unique : ∀ a b m m', maps a = some m → maps b = some m' → m.id = m'.id → a = b
  nodup : unmapped.Nodup
  bounded : ∀ i ∈ unmapped, i < created
  complete : ∀ i < created, i ∈ unmapped ∨ ∃ a m, maps a = some m ∧ m.id = i

section Numbered
variable {S : Type} {maps : Nat → Option (Mapping S)} {created a : Nat} {unmapped : List Nat}
  {m : Mapping S}

theorem Numbered.mmap (h : Numbered maps created unmapped) (ha : maps a = none)
    (hm : m.id = created) :
    Numbered (Function.update maps a (some m)) (created + 1) unmapped := by
  -- what is mapped at an address is new, or it was there before
  have hcases : ∀ b m', Function.update maps a (some m) b = some m' →
      b = a ∧ m' = m ∨ maps b = some m' := by
    intro b m' hb
    by_cases hba : b = a
    · rw [hba, Function.update_self] at hb
      exact .inl ⟨hba, (Option.some.inj hb).symm⟩
    · rw [Function.update_of_ne hba] at hb
      exact .inr hb
  refine ⟨?_, ?_, h.nodup, fun i hi => Nat.lt_succ_of_lt (h.bounded i hi), ?_⟩
  · intro b m' hb
    obtain ⟨-, rfl⟩ | hb := hcases b m' hb
    · rw [hm]
      exact ⟨Nat.lt_succ_self _, fun hi => Nat.lt_irrefl _ (h.bounded _ hi)⟩
    · exact ⟨Nat.lt_succ_of_lt (h.number b m' hb).1, (h.number b m' hb).2⟩
  · intro b b' m₁ m₂ hb hb' hid
    obtain ⟨hba, rfl⟩ | hold := hcases b m₁ hb
    · obtain ⟨hba', -⟩ | hold' := hcases b' m₂ hb'
      · exact hba.trans hba'.symm
      · have hlt := (h.number b' m₂ hold').1
        omega
    · obtain ⟨-, rfl⟩ | hold' := hcases b' m₂ hb'
      · have hlt := (h.number b m₁ hold).1
        omega
      · exact h.unique b b' m₁ m₂ hold hold' hid
  · intro i hi
    by_cases hnew : i = created
    · exact .inr ⟨a, m, Function.update_self .., hm.trans hnew.symm⟩
    · refine (h.complete i (by omega)).imp_right ?_
      rintro ⟨b, m', hb, hid⟩
      refine ⟨b, m', ?_, hid⟩
      rwa [Function.update_of_ne]
      rintro rfl
      cases ha.symm.trans hb

theorem Numbered.munmap (h : Numbered maps created unmapped) (ha : maps a = some m) :
    Numbered (Function.update maps a none) created (unmapped ++ [m.id]) := by
  have hold : ∀ b m', Function.update maps a none b = some m' → b ≠ a ∧ maps b = some m' := by
    intro b m' hb
    by_cases hba : b = a
    · rw [hba, Function.update_self] at hb
      cases hb
    · rw [Function.update_of_ne hba] at hb
      exact ⟨hba, hb⟩
  obtain ⟨hlt, hnot⟩ := h.number a m ha
  refine ⟨?_, ?_, ?_, ?_, ?_⟩
  · intro b m' hb
    obtain ⟨hba, hb⟩ := hold b m' hb
    refine ⟨(h.number b m' hb).1, fun hmem => ?_⟩
    rcases List.mem_append.mp hmem with hmem | hmem
    · exact (h.number b m' hb).2 hmem
    · exact hba (h.unique b a m' m hb ha (List.mem_singleton.mp hmem))
  · intro b b' m₁ m₂ hb hb'
    exact h.unique b b' m₁ m₂ (hold b m₁ hb).2 (hold b' m₂ hb').2
  · exact h.nodup.append (List.nodup_singleton _) (List.disjoint_singleton.mpr hnot)
  · intro i hi
    rcases List.mem_append.mp hi with hi | hi
    · exact h.bounded i hi
    · exact List.mem_singleton.mp hi ▸ hlt
  · intro i hi
    obtain hmem | ⟨b, m', hb, hid⟩ := h.complete i hi
    · exact .inl (List.mem_append_left _ hmem)
    · by_cases hba : b = a
      · subst hba
        cases ha.symm.trans hb
        exact .inl (List.mem_append_right _ (hid ▸ .head _))
      · exact .inr ⟨b, m', by rwa [Function.update_of_ne hba], hid⟩

end Numbered

section Accounts
variable {S H : Type} [DecidableEq H]

/-- The address of the mapping that a handle refers to. -/
def World.refers (w : World S H) (h : H) : Option Nat := (w.handles h).bind (·.segment.header)

/-- What is mapped at an address is the segment, for a handle of the class. -/
def World.isFor (w : World S H) (segment : S) (cls : HandleClass) (a : Nat) : Prop :=
  ∃ m, w.maps a = some m ∧ m.segment = segment ∧ m.cls = cls

variable {sizeofSegmentHeader : Nat} {w w' : World S H} {h source : H} {o : Handle}

/-- The members of a handle agree with its mapping, or say that there is none. -/
def Handle.Coherent (sizeofSegmentHeader : Nat) (maps : Nat → Option (Mapping S))
    (o : Handle) : Prop :=
  match o.segment.header with
  | none => o.segment.value = none
  | some a =>
    o.segment.value = some (a + sizeofSegmentHeader) ∧ o.segment.readWriteKind = o.cls.kind ∧
      ∃ m, maps a = some m ∧ m.size = o.segment.size ∧ m.cls = o.cls

/-- **The invariant.** -/
structure Accounts (sizeofSegmentHeader : Nat) (w : World S H) : Prop where
  finite : Finitely w.refers
  unshared : Unshared w.refers
  held : ∀ a m, w.maps a = some m → Held w.refers a
  coherent : ∀ h o, w.handles h = some o → o.Coherent sizeofSegmentHeader w.maps
  counts : ∀ segment cls, ((w.headers segment).count cls).toInt =
    (holders w.refers (w.isFor segment cls)).ncard
  numbered : Numbered w.maps w.created w.unmapped

theorem World.refers_put : (w.put h o).refers = Function.update w.refers h o.segment.header := by
  funext g
  by_cases hg : g = h
  · subst hg
    simp [refers, put]
  · simp [refers, put, hg]

theorem World.refers_remove : (w.remove h).refers = Function.update w.refers h none := by
  funext g
  by_cases hg : g = h
  · subst hg
    simp [refers, remove]
  · simp [refers, remove, hg]

omit [DecidableEq H] in
theorem Accounts.mapping (hw : Accounts sizeofSegmentHeader w) {a : Nat}
    (hh : w.handles h = some o) (ha : o.segment.header = some a) :
    o.segment.value = some (a + sizeofSegmentHeader) ∧ o.segment.readWriteKind = o.cls.kind ∧
      ∃ m, w.maps a = some m ∧ m.size = o.segment.size ∧ m.cls = o.cls := by
  have hco := hw.coherent h o hh
  unfold Handle.Coherent at hco
  rwa [ha] at hco

omit [DecidableEq H] in
theorem World.refers_eq_some {a : Nat} (hr : w.refers h = some a) :
    ∃ o, w.handles h = some o ∧ o.segment.header = some a := by
  obtain ⟨o, ho, ha⟩ := Option.bind_eq_some_iff.mp hr
  exact ⟨o, ho, ha⟩

omit [DecidableEq H] in
theorem Accounts.mapped (hw : Accounts sizeofSegmentHeader w) {a : Nat}
    (hr : w.refers h = some a) : w.maps a ≠ none := by
  obtain ⟨o, ho, ha⟩ := World.refers_eq_some hr
  obtain ⟨-, -, m, hm, -⟩ := hw.mapping ho ha
  rw [hm]
  exact Option.some_ne_none m

omit [DecidableEq H] in
/-- A handle that refers to nothing comes to life, or goes. -/
theorem Accounts.of_refers (hw : Accounts sizeofSegmentHeader w)
    (hmaps : w'.maps = w.maps) (hheaders : w'.headers = w.headers)
    (hcreated : w'.created = w.created) (hunmapped : w'.unmapped = w.unmapped)
    (e : Equiv.Perm H) (hrefers : w'.refers = w.refers ∘ e)
    (hcoherent : ∀ h o, w'.handles h = some o → o.Coherent sizeofSegmentHeader w.maps) :
    Accounts sizeofSegmentHeader w' := by
  have hfor : w'.isFor = w.isFor := by
    funext segment cls a
    rw [World.isFor, World.isFor, hmaps]
  refine ⟨?_, ?_, ?_, ?_, ?_, ?_⟩
  · rw [hrefers]
    exact hw.finite.comp e
  · rw [hrefers]
    exact hw.unshared.comp e
  · intro a m ha
    rw [hrefers, held_comp]
    exact hw.held a m (hmaps ▸ ha)
  · rw [hmaps]
    exact hcoherent
  · intro segment cls
    rw [hheaders, hrefers, hfor, ncard_comp]
    exact hw.counts segment cls
  · rw [hmaps, hcreated, hunmapped]
    exact hw.numbered

omit [DecidableEq H] in
theorem coherent_empty (maps : Nat → Option (Mapping S)) (cls : HandleClass) :
    Handle.Coherent sizeofSegmentHeader maps ⟨cls, .empty⟩ := rfl

omit [DecidableEq H] in
theorem Handle.Coherent.congr {maps maps' : Nat → Option (Mapping S)}
    (ho : o.Coherent sizeofSegmentHeader maps)
    (hmaps : ∀ a, o.segment.header = some a → maps' a = maps a) :
    o.Coherent sizeofSegmentHeader maps' := by
  unfold Coherent at ho ⊢
  cases hheader : o.segment.header with
  | none => rwa [hheader] at ho
  | some a =>
    rw [hheader] at ho
    dsimp only at ho ⊢
    rwa [hmaps a hheader]

omit [DecidableEq H] in
theorem World.refers_of_header {a : Nat} (hh : w.handles h = some o)
    (ha : o.segment.header = some a) : w.refers h = some a := by
  rw [World.refers, hh]
  exact ha

/-- **`h` gets what `source` refers to**, and refers to nothing before. -/
theorem Accounts.transfer (hw : Accounts sizeofSegmentHeader w)
    (hsource : w.handles source = some o) (hh : w.refers h = none) (hne : source ≠ h) :
    Accounts sizeofSegmentHeader ((w.put h o).put source ⟨o.cls, .empty⟩) := by
  refine hw.of_refers rfl rfl rfl rfl (Equiv.swap source h) ?_ ?_
  · rw [← transfer_eq_comp hne hh, World.refers_put, World.refers_put]
    have ho : o.segment.header = w.refers source := by
      rw [World.refers, hsource]
      rfl
    rw [ho]
    rfl
  · intro g o' hg
    dsimp only [World.put] at hg
    by_cases hgs : g = source
    · rw [hgs, Function.update_self] at hg
      cases hg
      exact coherent_empty w.maps o.cls
    · rw [Function.update_of_ne hgs] at hg
      by_cases hgh : g = h
      · rw [hgh, Function.update_self] at hg
        cases hg
        exact hw.coherent source o hsource
      · rw [Function.update_of_ne hgh] at hg
        exact hw.coherent g o' hg

theorem Accounts.put_empty (hw : Accounts sizeofSegmentHeader w) (hh : w.refers h = none)
    (cls : HandleClass) : Accounts sizeofSegmentHeader (w.put h ⟨cls, .empty⟩) := by
  refine hw.of_refers rfl rfl rfl rfl 1 ?_ ?_
  · rw [World.refers_put, show (⟨cls, .empty⟩ : Handle).segment.header = w.refers h from hh.symm]
    exact Function.update_eq_self h w.refers
  · intro g o' hg
    dsimp only [World.put] at hg
    by_cases hgh : g = h
    · rw [hgh, Function.update_self] at hg
      cases hg
      exact coherent_empty w.maps cls
    · rw [Function.update_of_ne hgh] at hg
      exact hw.coherent g o' hg

theorem Accounts.remove (hw : Accounts sizeofSegmentHeader w) (hh : w.refers h = none) :
    Accounts sizeofSegmentHeader (w.remove h) := by
  refine hw.of_refers rfl rfl rfl rfl 1 ?_ ?_
  · rw [World.refers_remove, ← hh]
    exact Function.update_eq_self h w.refers
  · intro g o' hg
    dsimp only [World.remove] at hg
    by_cases hgh : g = h
    · rw [hgh, Function.update_self] at hg
      cases hg
    · rw [Function.update_of_ne hgh] at hg
      exact hw.coherent g o' hg

variable [DecidableEq S]

/-- The world after `CleanUpSharedMemory` of a handle that refers to the mapping `m` at `a`. -/
def World.cleaned (w : World S H) (a : Nat) (m : Mapping S) : World S H :=
  { w with
    headers := Function.update w.headers m.segment ((w.headers m.segment).decrement m.cls.kind)
    maps := Function.update w.maps a none
    unmapped := w.unmapped ++ [m.id] }

omit [DecidableEq H] in
theorem Accounts.cleanUp (hw : Accounts sizeofSegmentHeader w) (hh : w.handles h = some o)
    {a : Nat} (ha : o.segment.header = some a) :
    ∃ m, w.maps a = some m ∧ w.cleanUpSharedMemory o.segment = some (w.cleaned a m) := by
  obtain ⟨-, hkind, m, hm, hsize, hcls⟩ := hw.mapping hh ha
  refine ⟨m, hm, ?_⟩
  simp [World.cleanUpSharedMemory, World.updateHeader, World.munmap, World.cleaned, ha, hm, hkind,
    hcls, hsize]

omit [DecidableEq H] in
theorem World.count_cleaned (a : Nat) {m : Mapping S}
    (hpos : 0 < ((w.headers m.segment).count m.cls).toInt) (segment : S) (c : HandleClass) :
    (((w.cleaned a m).headers segment).count c).toInt =
      ((w.headers segment).count c).toInt - if m.segment = segment ∧ m.cls = c then 1 else 0 := by
  unfold World.cleaned
  dsimp only
  by_cases hs : segment = m.segment
  · subst hs
    rw [Function.update_self, SegmentHeader.count_decrement hpos]
    simp
  · rw [Function.update_of_ne hs, if_neg fun hboth => hs hboth.1.symm, Int.sub_zero]

omit [DecidableEq H] [DecidableEq S] in
theorem World.isFor_iff {a : Nat} {m : Mapping S} (hm : w.maps a = some m) (segment : S)
    (c : HandleClass) : w.isFor segment c a ↔ m.segment = segment ∧ m.cls = c := by
  constructor
  · rintro ⟨m', hm', hboth⟩
    cases hm.symm.trans hm'
    exact hboth
  · exact fun hboth => ⟨m, hm, hboth⟩

/-- **`h` gives back its mapping.** -/
theorem Accounts.release (hw : Accounts sizeofSegmentHeader w) {a : Nat} {m : Mapping S}
    (hr : w.refers h = some a) (hm : w.maps a = some m) (cls : HandleClass) :
    Accounts sizeofSegmentHeader ((w.cleaned a m).put h ⟨cls, .empty⟩) := by
  have hrefers : ((w.cleaned a m).put h ⟨cls, .empty⟩).refers = Function.update w.refers h none :=
    World.refers_put
  have hothers := held_release hw.unshared hr
  have hfor : ∀ segment c b, b ≠ a →
      (((w.cleaned a m).put h ⟨cls, .empty⟩).isFor segment c b ↔ w.isFor segment c b) := by
    intro segment c b hb
    unfold World.isFor World.put World.cleaned
    dsimp only
    rw [Function.update_of_ne hb]
  refine ⟨?_, ?_, ?_, ?_, ?_, hw.numbered.munmap hm⟩
  · rw [hrefers]
    exact hw.finite.update none
  · rw [hrefers]
    exact hw.unshared.release
  · intro b m' hb
    dsimp only [World.put, World.cleaned] at hb
    have hba : b ≠ a := by
      rintro rfl
      rw [Function.update_self] at hb
      cases hb
    rw [Function.update_of_ne hba] at hb
    rw [hrefers, hothers]
    exact ⟨hba, hw.held b m' hb⟩
  · intro g o' hg
    dsimp only [World.put, World.cleaned] at hg ⊢
    by_cases hgh : g = h
    · rw [hgh, Function.update_self] at hg
      cases hg
      exact coherent_empty _ cls
    · rw [Function.update_of_ne hgh] at hg
      refine (hw.coherent g o' hg).congr fun b hb => ?_
      rw [Function.update_of_ne]
      rintro rfl
      exact hgh (hw.unshared g h b (w.refers_of_header hg hb) hr)
  · intro segment c
    have hcard := ncard_release hw.finite hr (w.isFor segment c)
    have hpos : 0 < ((w.headers m.segment).count m.cls).toInt := by
      have hone := ncard_release hw.finite hr (w.isFor m.segment m.cls)
      rw [if_pos ((w.isFor_iff hm _ _).mpr ⟨rfl, rfl⟩)] at hone
      rw [hw.counts, hone]
      omega
    have hcongr : holders (Function.update w.refers h none)
        (((w.cleaned a m).put h ⟨cls, .empty⟩).isFor segment c) =
          holders (Function.update w.refers h none) (w.isFor segment c) :=
      holders_congr fun g b hb => hfor segment c b ((hothers b).mp ⟨g, hb⟩).1
    rw [hrefers, hcongr]
    refine (w.count_cleaned a hpos segment c).trans ?_
    rw [hw.counts, hcard]
    simp only [w.isFor_iff hm]
    split <;> omega

/-- The world after a successful `Get`. -/
def World.got (w : World S H) (sizeofSegmentHeader : Nat) (h : H) (cls : HandleClass)
    (name : String) (segment : S) (a size : Nat) : World S H :=
  ({ w.mmap a segment size cls with
      headers :=
        Function.update w.headers segment ((w.headers segment).increment cls.kind) }).put h
    ⟨cls, name, some a, some (a + sizeofSegmentHeader), size, cls.kind⟩

theorem World.count_got {cls : HandleClass} {segment : S}
    (hmax : (w.headers segment).count cls ≠ Int32.maxValue) (sizeofSegmentHeader : Nat) (h : H)
    (name : String) (a size : Nat) (seg : S) (c : HandleClass) :
    (((w.got sizeofSegmentHeader h cls name segment a size).headers seg).count c).toInt =
      ((w.headers seg).count c).toInt + if segment = seg ∧ cls = c then 1 else 0 := by
  dsimp only [World.got, World.put, World.mmap]
  by_cases hs : seg = segment
  · subst hs
    rw [Function.update_self, SegmentHeader.count_increment hmax]
    simp
  · rw [Function.update_of_ne hs, if_neg fun hboth => hs hboth.1.symm, Int.add_zero]

/-- **`h` takes up a new mapping.** -/
theorem Accounts.acquire (hw : Accounts sizeofSegmentHeader w) (hh : w.handles h = none) {a : Nat}
    (ha : w.maps a = none) {cls : HandleClass} {segment : S}
    (hmax : (w.headers segment).count cls ≠ Int32.maxValue) (name : String) (size : Nat) :
    Accounts sizeofSegmentHeader (w.got sizeofSegmentHeader h cls name segment a size) := by
  have hnone : w.refers h = none := by
    rw [World.refers, hh]
    rfl
  have hnew : ¬ Held w.refers a := fun ⟨g, hg⟩ => hw.mapped hg ha
  have hrefers : (w.got sizeofSegmentHeader h cls name segment a size).refers =
      Function.update w.refers h (some a) := World.refers_put
  have hmaps : (w.got sizeofSegmentHeader h cls name segment a size).maps =
      Function.update w.maps a (some ⟨w.created, segment, size, cls⟩) := rfl
  refine ⟨?_, ?_, ?_, ?_, ?_, hw.numbered.mmap ha rfl⟩
  · rw [hrefers]
    exact hw.finite.update (some a)
  · rw [hrefers]
    exact hw.unshared.acquire hnew
  · intro b m hb
    rw [hrefers, held_acquire hnone]
    by_cases hba : b = a
    · exact .inl hba
    · rw [hmaps, Function.update_of_ne hba] at hb
      exact .inr (hw.held b m hb)
  · intro g o' hg
    rw [hmaps]
    dsimp only [World.got, World.put, World.mmap] at hg
    by_cases hgh : g = h
    · rw [hgh, Function.update_self] at hg
      cases hg
      exact ⟨rfl, rfl, _, Function.update_self .., rfl, rfl⟩
    · rw [Function.update_of_ne hgh] at hg
      refine (hw.coherent g o' hg).congr fun b hb => ?_
      rw [Function.update_of_ne]
      rintro rfl
      exact hnew ⟨g, w.refers_of_header hg hb⟩
  · intro seg c
    have hcard := @ncard_acquire _ _ w.refers h a _ hw.finite hnone
      ((w.got sizeofSegmentHeader h cls name segment a size).isFor seg c)
    have hcongr : holders w.refers
        ((w.got sizeofSegmentHeader h cls name segment a size).isFor seg c) =
          holders w.refers (w.isFor seg c) := by
      refine holders_congr fun g b hb => ?_
      unfold World.isFor
      rw [hmaps, Function.update_of_ne]
      rintro rfl
      exact hnew ⟨g, hb⟩
    rw [hrefers, hcard, hcongr]
    refine (World.count_got hmax sizeofSegmentHeader h name a size seg c).trans ?_
    rw [hw.counts]
    simp only [World.isFor_iff (show (w.got sizeofSegmentHeader h cls name segment a size).maps a =
      some ⟨w.created, segment, size, cls⟩ from Function.update_self ..)]
    split <;> omega

/-- **The clean-up** of a live handle accesses mapped memory only, and leaves a handle that
refers to nothing. -/
theorem Accounts.cleanUpSharedMemory (hw : Accounts sizeofSegmentHeader w)
    (hh : w.handles h = some o) : ∃ w₁, w.cleanUpSharedMemory o.segment = some w₁ ∧
      w₁.handles = w.handles ∧ Accounts sizeofSegmentHeader (w₁.put h ⟨o.cls, .empty⟩) := by
  cases ha : o.segment.header with
  | none =>
    have hnone : w.refers h = none := by
      rw [World.refers, hh]
      exact ha
    refine ⟨w, ?_, rfl, hw.put_empty hnone o.cls⟩
    rw [World.cleanUpSharedMemory, ha]
  | some a =>
    obtain ⟨m, hm, hclean⟩ := hw.cleanUp hh ha
    exact ⟨w.cleaned a m, hclean, rfl, hw.release (w.refers_of_header hh ha) hm o.cls⟩

omit [DecidableEq S] in
theorem World.put_put (w : World S H) (h : H) (x y : Handle) :
    (w.put h x).put h y = w.put h y := by
  simp [World.put]

omit [DecidableEq S] in
theorem World.remove_put (w : World S H) (h : H) (x : Handle) :
    (w.put h x).remove h = w.remove h := by
  simp [World.put, World.remove]

omit [DecidableEq S] in
theorem World.refers_put_empty (w : World S H) (h : H) (cls : HandleClass) :
    (w.put h ⟨cls, .empty⟩).refers h = none := by
  rw [World.refers_put]
  exact Function.update_self ..

theorem World.apply_get {cls : HandleClass} {name : String} {segment : S} {a size : Nat}
    (hh : w.handles h = none) (ha : w.maps a = none) (hsize : sizeofSegmentHeader < size)
    (hmax : (w.headers segment).count cls ≠ Int32.maxValue) :
    w.apply sizeofSegmentHeader (.get h cls name segment a size) =
      some (w.got sizeofSegmentHeader h cls name segment a size) := by
  simp [World.apply, World.updateHeader, World.mmap, World.got, hh, ha, hsize, hmax]

theorem Accounts.step (hw : Accounts sizeofSegmentHeader w) {op : Op S H}
    (hs : Step sizeofSegmentHeader w op w') : Accounts sizeofSegmentHeader w' := by
  unfold Step at hs
  cases op with
  | get h cls name segment a size =>
    by_cases hcond : w.handles h = none ∧ w.maps a = none ∧ sizeofSegmentHeader < size ∧
        (w.headers segment).count cls ≠ Int32.maxValue
    · obtain ⟨hh, ha, hsize, hmax⟩ := hcond
      rw [World.apply_get hh ha hsize hmax] at hs
      cases hs
      exact hw.acquire hh ha hmax name size
    · rw [World.apply, if_neg hcond] at hs
      cases hs
  | construct h cls =>
    unfold World.apply at hs
    dsimp only at hs
    split at hs
    · rename_i hh
      cases hs
      refine hw.put_empty ?_ cls
      rw [World.refers, hh]
      rfl
    · cases hs
  | moveConstruct h source =>
    unfold World.apply at hs
    dsimp only at hs
    split at hs
    · rename_i other hh hsource
      cases hs
      refine hw.transfer hsource ?_ ?_
      · rw [World.refers, hh]
        rfl
      · rintro rfl
        cases hh.symm.trans hsource
    · cases hs
  | moveAssign h source =>
    unfold World.apply at hs
    dsimp only at hs
    split at hs
    · rename_i this other hh hsource
      obtain ⟨w₁, hclean, hhandles, hw₁⟩ := hw.cleanUpSharedMemory hh
      split at hs
      · cases hs
      · split at hs
        · cases hs
          exact hw
        · rename_i hne
          rw [hclean] at hs
          cases hs
          rw [← w₁.put_put h ⟨this.cls, .empty⟩ other]
          refine hw₁.transfer ?_ (w₁.refers_put_empty h this.cls) fun heq => hne heq.symm
          dsimp only [World.put]
          rw [Function.update_of_ne fun heq => hne heq.symm, hhandles]
          exact hsource
    · cases hs
  | destroy h =>
    unfold World.apply at hs
    dsimp only at hs
    split at hs
    · rename_i this hh
      obtain ⟨w₁, hclean, -, hw₁⟩ := hw.cleanUpSharedMemory hh
      rw [hclean] at hs
      cases hs
      rw [← w₁.remove_put h ⟨this.cls, .empty⟩]
      exact hw₁.remove (w₁.refers_put_empty h this.cls)
    · cases hs

omit [DecidableEq S] [DecidableEq H] in
theorem numbered_init : Numbered (fun _ => none : Nat → Option (Mapping S)) 0 [] where
  number _ _ hm := by cases hm
  unique _ _ _ _ hm := by cases hm
  nodup := List.nodup_nil
  bounded _ hi := by cases hi
  complete _ hi := absurd hi (Nat.not_lt_zero _)

omit [DecidableEq S] [DecidableEq H] in
theorem accounts_init : Accounts sizeofSegmentHeader (World.init : World S H) where
  finite := finitely_of_none fun _ => rfl
  unshared _ _ _ hh := by cases hh
  held _ _ hm := by cases hm
  coherent _ _ hh := by cases hh
  counts segment cls := by
    have hnone : holders (World.init : World S H).refers
        ((World.init : World S H).isFor segment cls) = ∅ := by
      refine Set.eq_empty_of_forall_notMem ?_
      rintro h ⟨r, hr, -⟩
      cases hr
    rw [hnone, Set.ncard_empty]
    cases cls <;> rfl
  numbered := numbered_init

theorem accounts_run {ops : List (Op S H)} (hrun : Run (Step sizeofSegmentHeader) .init ops w) :
    Accounts sizeofSegmentHeader w :=
  hrun.stateInvariant accounts_init fun _ _ _ hw hs => hw.step hs

/-! ## The results -/

/-- A live handle refers to a mapping. -/
def World.RefersTo (w : World S H) (h : H) (m : Mapping S) : Prop :=
  ∃ o a, w.handles h = some o ∧ o.segment.header = some a ∧ w.maps a = some m

/-- The live handles of a class that refer to a segment. -/
def World.handlesTo (w : World S H) (segment : S) (cls : HandleClass) : Set H :=
  {h | ∃ o m, w.handles h = some o ∧ o.cls = cls ∧ w.RefersTo h m ∧ m.segment = segment}

omit [DecidableEq S] [DecidableEq H] in
theorem Accounts.handlesTo_eq (hw : Accounts sizeofSegmentHeader w) (segment : S)
    (cls : HandleClass) : w.handlesTo segment cls = holders w.refers (w.isFor segment cls) := by
  ext h
  constructor
  · rintro ⟨o, m, ho, hcls, ⟨o', a, ho', ha, hm⟩, hsegment⟩
    cases ho.symm.trans ho'
    obtain ⟨-, -, m', hm', -, hcls'⟩ := hw.mapping ho ha
    cases hm.symm.trans hm'
    exact ⟨a, w.refers_of_header ho ha, m, hm, hsegment, hcls'.trans hcls⟩
  · rintro ⟨a, ha, m, hm, hsegment, hcls⟩
    obtain ⟨o, ho, hheader⟩ := World.refers_eq_some ha
    obtain ⟨-, -, m', hm', -, hcls'⟩ := hw.mapping ho hheader
    cases hm.symm.trans hm'
    exact ⟨o, m, ho, hcls'.symm.trans hcls, ⟨o, a, ho, hheader, hm⟩, hsegment⟩

omit [DecidableEq S] [DecidableEq H] in
/-- A mapping is there as long as a handle refers to it, and no longer. -/
theorem Accounts.unmapped_iff (hw : Accounts sizeofSegmentHeader w) {i : Nat}
    (hi : i < w.created) : i ∈ w.unmapped ↔ ¬ ∃ h m, w.RefersTo h m ∧ m.id = i := by
  constructor
  · rintro hmem ⟨h, m, ⟨o, a, -, -, hm⟩, rfl⟩
    exact (hw.numbered.number a m hm).2 hmem
  · intro hnot
    refine (hw.numbered.complete i hi).resolve_right ?_
    rintro ⟨a, m, hm, hid⟩
    obtain ⟨h, hr⟩ := hw.held a m hm
    obtain ⟨o, ho, ha⟩ := World.refers_eq_some hr
    exact hnot ⟨h, m, ⟨o, a, ho, ha, hm⟩, hid⟩

omit [DecidableEq S] [DecidableEq H] in
/-- `Connected()` compares the number of handles with two. -/
theorem Accounts.connected_iff (hw : Accounts sizeofSegmentHeader w) (hh : w.handles h = some o) :
    ∃ b, w.connected h = some b ∧ (b = true ↔
      ∃ m, w.RefersTo h m ∧ (w.handlesTo m.segment .readWrite).ncard = 2) := by
  cases ha : o.segment.header with
  | none =>
    have hvalue : o.segment.value = none := by
      have hco := hw.coherent h o hh
      unfold Handle.Coherent at hco
      rwa [ha] at hco
    refine ⟨false, ?_, iff_of_false nofun ?_⟩
    · simp [World.connected, hh, MemorySegment.isValid, hvalue]
    · rintro ⟨m, ⟨o', a, ho', ha', -⟩, -⟩
      cases hh.symm.trans ho'
      cases ha.symm.trans ha'
  | some a =>
    obtain ⟨hvalue, -, m, hm, -⟩ := hw.mapping hh ha
    refine ⟨decide ((w.headers m.segment).writerRefCount = 2), ?_, ?_⟩
    · simp [World.connected, hh, MemorySegment.isValid, hvalue, ha, hm]
    · have hcount : (w.headers m.segment).writerRefCount.toInt =
          ((w.handlesTo m.segment .readWrite).ncard : Int) := by
        rw [hw.handlesTo_eq]
        exact hw.counts m.segment .readWrite
      rw [decide_eq_true_iff, ← Int32.toInt_inj, hcount, show (2 : Int32).toInt = 2 from rfl]
      constructor
      · exact fun htwo => ⟨m, ⟨o, a, hh, ha, hm⟩, by omega⟩
      · rintro ⟨m', ⟨o', a', ho', ha', hm'⟩, htwo⟩
        cases hh.symm.trans ho'
        cases ha.symm.trans ha'
        cases hm.symm.trans hm'
        omega

/-- What a move leaves behind. -/
def Op.movedFrom : Op S H → Option H
  | .moveConstruct _ source => some source
  | .moveAssign h source => if h = source then none else some source
  | _ => none

theorem refers_movedFrom {op : Op S H} (hs : Step sizeofSegmentHeader w op w')
    (hop : op.movedFrom = some source) : w'.refers source = none := by
  unfold Step at hs
  cases op with
  | moveConstruct h g =>
    cases hop
    unfold World.apply at hs
    dsimp only at hs
    split at hs
    · cases hs
      exact World.refers_put_empty ..
    · cases hs
  | moveAssign h g =>
    unfold Op.movedFrom at hop
    dsimp only at hop
    split at hop
    · cases hop
    · rename_i hne
      cases hop
      unfold World.apply at hs
      dsimp only at hs
      split at hs
      · rw [if_neg hne] at hs
        split at hs
        · cases hs
        · obtain ⟨w₁, -, hw'⟩ := Option.bind_eq_some_iff.mp hs
          cases hw'
          exact World.refers_put_empty ..
      · cases hs
  | _ => cases hop

/-- A `Get` has a result as long as the count of its class can be incremented. -/
theorem Accounts.get_isSome_iff (hw : Accounts sizeofSegmentHeader w) (hh : w.handles h = none)
    {a size : Nat} (ha : w.maps a = none) (hsize : sizeofSegmentHeader < size) (cls : HandleClass)
    (name : String) (segment : S) :
    (w.apply sizeofSegmentHeader (.get h cls name segment a size)).isSome = true ↔
      (w.handlesTo segment cls).ncard < 2 ^ 31 - 1 := by
  have hcount : (w.headers segment).count cls ≠ Int32.maxValue ↔
      (w.handlesTo segment cls).ncard < 2 ^ 31 - 1 := by
    rw [toInt_ne_max_iff, hw.counts, hw.handlesTo_eq]
    omega
  rw [← hcount]
  constructor
  · intro hsome hmax
    rw [World.apply, if_neg fun hcond => hcond.2.2.2 hmax] at hsome
    cases hsome
  · intro hmax
    rw [World.apply_get hh ha hsize hmax]
    rfl

/-- **The handles are accounted for.**  After every sequence of operations: each count, a 32-bit
`int`, is the number of live handles of its class that refer to the segment, and there is a
result of a further `Get` exactly if there are fewer than 2³¹ - 1 of them; a mapping is unmapped
once, and it has been unmapped exactly when no live handle refers to it; a handle that is moved
from refers to nothing; the clean-up of a live handle does not touch memory that is not mapped;
and `Connected()` says that there are two read-write handles to the segment of the lockstep. -/
theorem segments_accounted {ops : List (Op S H)}
    (hrun : Run (Step sizeofSegmentHeader) .init ops w) :
    (∀ segment cls, (w.handlesTo segment cls).Finite) ∧
    (∀ segment,
      (w.headers segment).readerRefCount.toInt = (w.handlesTo segment .readOnly).ncard ∧
      (w.headers segment).writerRefCount.toInt = (w.handlesTo segment .readWrite).ncard) ∧
    (∀ h cls name segment a size, w.handles h = none → w.maps a = none →
      sizeofSegmentHeader < size →
      ((w.apply sizeofSegmentHeader (.get h cls name segment a size)).isSome = true ↔
        (w.handlesTo segment cls).ncard < 2 ^ 31 - 1)) ∧
    (w.unmapped.Nodup ∧
      ∀ i < w.created, i ∈ w.unmapped ↔ ¬ ∃ h m, w.RefersTo h m ∧ m.id = i) ∧
    (∀ op w' source, Step sizeofSegmentHeader w op w' → op.movedFrom = some source →
      ∀ m, ¬ w'.RefersTo source m) ∧
    (∀ h o, w.handles h = some o → (w.cleanUpSharedMemory o.segment).isSome) ∧
    ∀ h o, w.handles h = some o → ∃ b, w.connected h = some b ∧
      (b = true ↔ ∃ m, w.RefersTo h m ∧ (w.handlesTo m.segment .readWrite).ncard = 2) := by
  have hw := accounts_run hrun
  refine ⟨?_, ?_, ?_, ⟨hw.numbered.nodup, fun i => hw.unmapped_iff⟩, ?_, ?_, ?_⟩
  · intro segment cls
    rw [hw.handlesTo_eq]
    exact hw.finite.holders _
  · intro segment
    rw [hw.handlesTo_eq, hw.handlesTo_eq]
    exact ⟨hw.counts segment .readOnly, hw.counts segment .readWrite⟩
  · intro h cls name segment a size hh ha hsize
    exact hw.get_isSome_iff hh ha hsize cls name segment
  · rintro op w' source hs hop m ⟨o, a, ho, ha, -⟩
    cases (refers_movedFrom hs hop).symm.trans (w'.refers_of_header ho ha)
  · intro h o hh
    obtain ⟨w₁, hclean, -⟩ := hw.cleanUpSharedMemory hh
    rw [hclean]
    rfl
  · exact fun h o => hw.connected_iff

end Accounts

/-- Two handles to the lockstep's segment, one of which has been moved. -/
def connecting : List (Op Unit (Fin 3)) :=
  [.get 0 .readWrite "lockstep" () 4096 200, .get 1 .readWrite "lockstep" () 8192 200,
    .moveConstruct 2 0]

/-- The lockstep is then connected. -/
theorem segments_accounted_connecting : ∃ w : World Unit (Fin 3),
    Run (Step 100) .init connecting w ∧ w.connected 2 = some true ∧
      (w.handlesTo () .readWrite).ncard = 2 := by
  have hrun : ∃ w : World Unit (Fin 3), Run (Step 100) .init connecting w ∧
      w.connected 2 = some true ∧ (w.headers ()).writerRefCount = 2 := by
    refine ⟨_, .cons rfl (.cons rfl (.single rfl)), rfl, rfl⟩
  obtain ⟨w, hrun, hconnected, hcount⟩ := hrun
  refine ⟨w, hrun, hconnected, ?_⟩
  have hcard := ((segments_accounted hrun).2.1 ()).2
  rw [hcount] at hcard
  exact Int.ofNat_inj.mp hcard.symm

end Intrinsic.SharedMemory
