import Mathlib.Algebra.Ring.Nat
import Mathlib.Data.List.AList
import IconSharedMemory.Runs
import IconSharedMemory.DomainSocket

/-! # The shared memory manager

`SharedMemoryManager` (`icon/interprocess/shared_memory_manager/shared_memory_manager.cc`)
creates the shared memory segments of a hardware module.  It has two maps from the names of its
segments, one to what is known about the segment and one to its file descriptor alone, which is
what other processes are sent.

`InitSegment` checks its arguments, makes five system calls, any of which can fail, and enters
the segment into both maps.  The model is given what the calls return (`SystemCalls`).  Of the
kernel it assumes that a new descriptor is not one that is open, and that a new mapping is not
where something is mapped; other outcomes are no result at all.
-/
namespace Intrinsic.SharedMemoryManager
open Runs
open DomainSocket (Name kMaxSegmentStringSize)

/-! ## Names -/

/-- The number of elements of `SegmentInfo::names`. -/
def kMaxNumberOfSegments : Nat := 300

/-- `SegmentHeader::TypeInfo::kMaxSize` -/
def kMaxTypeIdSize : Nat := 100

/-- The text of a `FormatStatus` with the name in quotes. -/
def quoted (before : String) (name : Name) (after : List UInt8) : List UInt8 :=
  ascii before ++ ascii "'" ++ name ++ ascii "'" ++ after

def verifyName (name : Name) : Status :=
  if name = [] then formatStatus .invalidArgument (ascii "Shm segment name cannot be empty.")
  else if kMaxSegmentStringSize ≤ name.length then
    formatStatus .invalidArgument (quoted "Shm segment name " name
      (ascii " can't exceed " ++ ascii (toString (kMaxSegmentStringSize - 1)) ++
        ascii " characters."))
  else if '/'.toNat.toUInt8 ∈ name then
    formatStatus .invalidArgument
      (quoted "Shm segment name " name (ascii " can't have forward slashes."))
  else okStatus

/-! ## The manager and the kernel -/

structure MemorySegmentInfo where
  /-- The address of the mapping. -/
  data : Nat
  length : Nat
  mustBeUsed : Bool
  fd : Nat
  deriving DecidableEq, Repr

/-- The memory of a segment: the type id in the header and the value, once they have been
constructed. -/
structure Segment (V : Type) where
  typeId : Option (List UInt8)
  value : Option V

/-- `insert` of a `std::unordered_map`, which keeps the entry that is there. -/
def insertNew {β : Type} (m : AList fun _ : Name => β) (name : Name) (b : β) :
    AList fun _ : Name => β :=
  if (m.lookup name).isSome then m else m.insert name b

/-- The maps of a manager, and what the kernel has for its process. -/
structure World (V : Type) where
  segmentNameToFileDescriptorMap : AList fun _ : Name => Nat
  memorySegments : AList fun _ : Name => MemorySegmentInfo
  /-- The sizes of the files with an open descriptor. -/
  files : Nat → Option Nat
  /-- What is mapped at an address. -/
  memory : Nat → Option (Segment V)

/-- What the system calls of one `InitSegment` return: a result, or the text for `errno`.
`mmap` fails if it returns a null pointer or `MAP_FAILED`. -/
structure SystemCalls where
  memfdCreate : Except (List UInt8) Nat
  ftruncate : Except (List UInt8) Unit
  /-- `st_size` -/
  fstat : Except (List UInt8) Nat
  mmap : Except (List UInt8) Nat
  mlock : Except (List UInt8) Unit
  close : Except (List UInt8) Unit

namespace World
variable {V : Type}

/-- A new manager, in any process. -/
def init (files : Nat → Option Nat) (memory : Nat → Option (Segment V)) : World V :=
  ⟨∅, ∅, files, memory⟩

def setFile (w : World V) (fd : Nat) (size : Option Nat) : World V :=
  { w with files := Function.update w.files fd size }

def setMemory (w : World V) (address : Nat) (segment : Segment V) : World V :=
  { w with memory := Function.update w.memory address (some segment) }

/-- `InitSegment` between `memfd_create` and the registration: the address of the mapping, or
an error. -/
def mapSegment (w : World V) (calls : SystemCalls) (name : Name) (fd segmentSize : Nat) :
    Option (World V × Except Status Nat) :=
  match calls.ftruncate with
  | .error errno =>
    some (w, .error (formatStatus .internal
      (quoted "Unable to resize shared memory segment " name (ascii " with error: " ++ errno))))
  | .ok () =>
    let w := w.setFile fd (some segmentSize)
    match calls.fstat with
    | .error errno =>
      some (w, .error (formatStatus .internal
        (quoted "Failed to read size of segment " name
          (ascii ". fstat() failed with: " ++ errno))))
    | .ok size =>
      if size ≠ segmentSize then
        some (w, .error (formatStatus .internal
          (quoted "The size of the shared memory segment " name
            (ascii " (" ++ ascii (toString size) ++ ascii " bytes) is not the expected size (" ++
              ascii (toString segmentSize) ++ ascii " bytes)"))))
      else
        match calls.mmap with
        | .error errno =>
          some (w, .error (formatStatus .internal
            (quoted "Unable to map shared memory segment " name
              (ascii " with error: " ++ errno))))
        | .ok address =>
          if (w.memory address).isSome then none
          else
            let w := w.setMemory address ⟨none, none⟩
            match calls.mlock with
            | .error _ =>
              -- the mapping stays, and the text has no place for `errno`
              some (w, .error (formatStatus .internal
                (quoted "Unable to mlock shared memory segment " name (ascii " with error: "))))
            | .ok () => some (w, .ok address)

/-- The cleanup of a failed `InitSegment`. -/
def closeOnError (w : World V) (calls : SystemCalls) (fd : Nat) : World V :=
  match calls.close with
  | .ok () => w.setFile fd none
  | .error _ => w

/-- The end of `InitSegment`. -/
def register (w : World V) (name : Name) (info : MemorySegmentInfo) (typeId : List UInt8) :
    World V :=
  { w.setMemory info.data ⟨some (typeId.take kMaxTypeIdSize), none⟩ with
    segmentNameToFileDescriptorMap := insertNew w.segmentNameToFileDescriptorMap name info.fd
    memorySegments := insertNew w.memorySegments name info }

/-- `InitSegment` after the checks of its arguments. -/
def createSegment (w : World V) (calls : SystemCalls) (name : Name) (mustBeUsed : Bool)
    (segmentSize : Nat) (typeId : List UInt8) : Option (World V × Status) :=
  match calls.memfdCreate with
  | .error errno =>
    some (w, formatStatus .internal
      (quoted "Failed to create shared memory segment " name (ascii " with error: " ++ errno)))
  | .ok fd =>
    if (w.files fd).isSome then none
    else
      match (w.setFile fd (some 0)).mapSegment calls name fd segmentSize with
      | none => none
      | some (w, .error st) => some (w.closeOnError calls fd, st)
      | some (w, .ok data) =>
        some (w.register name ⟨data, segmentSize, mustBeUsed, fd⟩ typeId, okStatus)

def initSegment (sizeofSegmentHeader : Nat) (w : World V) (calls : SystemCalls) (name : Name)
    (mustBeUsed : Bool) (payloadSize : Nat) (typeId : List UInt8) :
    Option (World V × Status) :=
  if kMaxNumberOfSegments ≤ w.memorySegments.entries.length then
    some (w, formatStatus .resourceExhausted
      (quoted "Unable to add " name (ascii ". Max number of segments (" ++
        ascii (toString kMaxNumberOfSegments) ++ ascii ") exceeded.")))
  else if kMaxTypeIdSize < typeId.length then
    some (w, formatStatus .invalidArgument
      (quoted "Type id " typeId (ascii " for segment " ++ name ++
        ascii " exceeds max size of " ++ ascii (toString kMaxTypeIdSize) ++ ascii " bytes")))
  else if (w.memorySegments.lookup name).isSome then
    some (w, formatStatus .alreadyExists
      (quoted "Shared memory segment " name (ascii " already exists")))
  else if (verifyName name).isOk = false then some (w, verifyName name)
  else
    w.createSegment calls name mustBeUsed ((sizeofSegmentHeader + payloadSize) % 2 ^ 64) typeId

/-- `GetRawSegment`, and the beginning of `GetRawValue` -/
def getRawSegment (w : World V) (name : Name) : Option Nat :=
  (w.memorySegments.lookup name).map (·.data)

/-- `SetSegmentValue`: the value is constructed behind the header.  There is no result if
nothing is mapped there. -/
def setSegmentValue (w : World V) (name : Name) (value : V) : Option (World V × Status) :=
  match w.getRawSegment name with
  | none => some (w, formatStatus .notFound (ascii "memory segment not found: " ++ name))
  | some data =>
    match w.memory data with
    | none => none
    | some segment => some (w.setMemory data { segment with value := some value }, okStatus)

/-- The overloads of `AddSegment` with a value of type `T`, whose size is `sizeof`. -/
def addValue (sizeofSegmentHeader : Nat) (w : World V) (calls : SystemCalls) (name : Name)
    (mustBeUsed : Bool) (sizeof : Nat) (value : V) (typeId : List UInt8) :
    Option (World V × Status) :=
  match w.initSegment sizeofSegmentHeader calls name mustBeUsed sizeof typeId with
  | none => none
  | some (w, st) => if st.isOk then w.setSegmentValue name value else some (w, st)

end World

/-- A type of payloads: `sizeof(T)`, `typeid(T).name()` and `T()`. -/
structure PayloadType (V : Type) where
  sizeof : Nat
  typeName : List UInt8
  defaultValue : V

/-- The calls that add a segment.  A type id that is not given is the name of the type; a value
is passed by reference or moved. -/
inductive AddSegment (V : Type)
  | withDefaultValue (T : PayloadType V) (name : Name) (mustBeUsed : Bool)
      (typeId : Option (List UInt8))
  | withValue (T : PayloadType V) (name : Name) (mustBeUsed : Bool) (value : V)
      (typeId : Option (List UInt8))
  | withPayloadSize (name : Name) (mustBeUsed : Bool) (payloadSize : Nat)
      (typeId : Option (List UInt8))

namespace AddSegment
variable {V : Type}

def name : AddSegment V → Name
  | .withDefaultValue _ name _ _ | .withValue _ name _ _ _ | .withPayloadSize name _ _ _ => name

def mustBeUsed : AddSegment V → Bool
  | .withDefaultValue _ _ mustBeUsed _ | .withValue _ _ mustBeUsed _ _
  | .withPayloadSize _ mustBeUsed _ _ => mustBeUsed

end AddSegment

section AddSegment
variable {V : Type} (sizeofSegmentHeader : Nat) (uint8Name : List UInt8)

/-- **The effect of a call**, given what its system calls return and what
`typeid(uint8_t).name()` is. -/
def World.addSegment (w : World V) (calls : SystemCalls) :
    AddSegment V → Option (World V × Status)
  | .withDefaultValue T name mustBeUsed typeId =>
    w.addValue sizeofSegmentHeader calls name mustBeUsed T.sizeof T.defaultValue
      (typeId.getD T.typeName)
  | .withValue T name mustBeUsed value typeId =>
    w.addValue sizeofSegmentHeader calls name mustBeUsed T.sizeof value (typeId.getD T.typeName)
  | .withPayloadSize name mustBeUsed payloadSize typeId =>
    w.initSegment sizeofSegmentHeader calls name mustBeUsed payloadSize (typeId.getD uint8Name)

/-- A call, what its system calls return and what it returns. -/
structure Called (V : Type) where
  calls : SystemCalls
  op : AddSegment V
  status : Status

def Step (w : World V) (c : Called V) (w' : World V) : Prop :=
  w.addSegment sizeofSegmentHeader uint8Name c.calls c.op = some (w', c.status)

end AddSegment

/-! ## The registry -/

section Registry
variable {V : Type} {w w' w'' : World V} {name : Name} {info : MemorySegmentInfo} {fd : Nat}

/-- **The invariant.** -/
structure Consistent (w : World V) : Prop where
  descriptors : ∀ name, w.segmentNameToFileDescriptorMap.lookup name =
    (w.memorySegments.lookup name).map (·.fd)
  bounded : w.memorySegments.entries.length ≤ kMaxNumberOfSegments
  verified : ∀ name ∈ w.memorySegments, (verifyName name).isOk = true
  /-- The descriptor of a segment is open, and its memory is mapped. -/
  backed : ∀ name info, w.memorySegments.lookup name = some info →
    w.files info.fd = some info.length ∧ w.memory info.data ≠ none

/-- The maps are the same, and so is what has been registered. -/
structure Unchanged (w w' : World V) : Prop where
  descriptors : w'.segmentNameToFileDescriptorMap = w.segmentNameToFileDescriptorMap
  segments : w'.memorySegments = w.memorySegments
  files : ∀ name info, w.memorySegments.lookup name = some info →
    w'.files info.fd = w.files info.fd
  memory : ∀ name info, w.memorySegments.lookup name = some info →
    w'.memory info.data = w.memory info.data

/-- What a failed `InitSegment` may have touched: one descriptor, and memory that was not
mapped. -/
structure Touches (fd : Nat) (w w' : World V) : Prop where
  descriptors : w'.segmentNameToFileDescriptorMap = w.segmentNameToFileDescriptorMap
  segments : w'.memorySegments = w.memorySegments
  files : ∀ g, g ≠ fd → w'.files g = w.files g
  memory : ∀ a, w.memory a ≠ none → w'.memory a = w.memory a

/-- **What a failed call does**: nothing, or it has touched a descriptor that was not open. -/
def Fails (w w' : World V) : Prop := w' = w ∨ ∃ fd, w.files fd = none ∧ Touches fd w w'

theorem consistent_init (files : Nat → Option Nat) (memory : Nat → Option (Segment V)) :
    Consistent (World.init files memory) :=
  ⟨fun _ => rfl, Nat.zero_le _, nofun, nofun⟩

theorem Unchanged.refl (w : World V) : Unchanged w w :=
  ⟨rfl, rfl, fun _ _ _ => rfl, fun _ _ _ => rfl⟩

theorem Touches.refl (fd : Nat) (w : World V) : Touches fd w w :=
  ⟨rfl, rfl, fun _ _ => rfl, fun _ _ => rfl⟩

theorem Touches.trans (h : Touches fd w w') (h' : Touches fd w' w'') : Touches fd w w'' := by
  refine ⟨h'.descriptors.trans h.descriptors, h'.segments.trans h.segments, ?_, ?_⟩
  · exact fun g hg => (h'.files g hg).trans (h.files g hg)
  · intro a ha
    refine (h'.memory a ?_).trans (h.memory a ha)
    rwa [h.memory a ha]

theorem Touches.setFile (fd : Nat) (w : World V) (size : Option Nat) :
    Touches fd w (w.setFile fd size) :=
  ⟨rfl, rfl, fun _ hg => Function.update_of_ne hg .., fun _ _ => rfl⟩

theorem Touches.setMemory {a : Nat} (ha : w.memory a = none) (fd : Nat) (segment : Segment V) :
    Touches fd w (w.setMemory a segment) := by
  refine ⟨rfl, rfl, fun _ _ => rfl, fun b hb => Function.update_of_ne ?_ ..⟩
  rintro rfl
  exact hb ha

theorem Touches.closeOnError (fd : Nat) (w : World V) (calls : SystemCalls) :
    Touches fd w (w.closeOnError calls fd) := by
  unfold World.closeOnError
  split
  · exact .setFile fd w none
  · exact .refl fd w

/-- What is registered is not touched. -/
theorem Touches.unchanged (h : Touches fd w w') (hw : Consistent w) (hfd : w.files fd = none) :
    Unchanged w w' := by
  refine ⟨h.descriptors, h.segments, ?_, ?_⟩
  · intro name info hinfo
    refine h.files info.fd ?_
    rintro rfl
    cases hfd.symm.trans (hw.backed name info hinfo).1
  · exact fun name info hinfo => h.memory info.data (hw.backed name info hinfo).2

theorem Fails.unchanged (h : Fails w w') (hw : Consistent w) : Unchanged w w' := by
  rcases h with rfl | ⟨fd, hfd, htouch⟩
  · exact .refl w'
  · exact htouch.unchanged hw hfd

/-- **The system calls** touch nothing that is in use. -/
theorem mapSegment_spec {calls : SystemCalls} {segmentSize : Nat} {r : Except Status Nat}
    (h : w.mapSegment calls name fd segmentSize = some (w', r)) :
    Touches fd w w' ∧ (∀ st, r = .error st → st.isOk = false) ∧
      ∀ a, r = .ok a → w.memory a = none ∧ w'.files fd = some segmentSize ∧
        w'.memory a ≠ none := by
  have hresize := Touches.setFile fd w (some segmentSize)
  unfold World.mapSegment at h
  dsimp only at h
  split at h
  · cases h
    exact ⟨.refl fd w, by rintro _ ⟨⟩; rfl, nofun⟩
  · split at h
    · cases h
      exact ⟨hresize, by rintro _ ⟨⟩; rfl, nofun⟩
    · split at h
      · cases h
        exact ⟨hresize, by rintro _ ⟨⟩; rfl, nofun⟩
      · split at h
        · cases h
          exact ⟨hresize, by rintro _ ⟨⟩; rfl, nofun⟩
        · split at h
          · cases h
          · rename_i a _ hfree
            have hfree : w.memory a = none := Option.not_isSome_iff_eq_none.mp hfree
            have hmap := hresize.trans
              (.setMemory (w := w.setFile fd (some segmentSize)) hfree fd ⟨none, none⟩)
            split at h
            · cases h
              exact ⟨hmap, by rintro _ ⟨⟩; rfl, nofun⟩
            · cases h
              refine ⟨hmap, nofun, ?_⟩
              rintro _ ⟨⟩
              refine ⟨hfree, Function.update_self .., ?_⟩
              simp [World.setMemory]

/-- What `InitSegment` does once it has made the segment: with a descriptor that was not open
and memory that was not mapped, the segment is entered into both maps. -/
structure Enters (name : Name) (info : MemorySegmentInfo) (w w' : World V) : Prop where
  descriptors : w'.segmentNameToFileDescriptorMap =
    insertNew w.segmentNameToFileDescriptorMap name info.fd
  segments : w'.memorySegments = insertNew w.memorySegments name info
  fresh : w.files info.fd = none ∧ w.memory info.data = none
  backed : w'.files info.fd = some info.length ∧ w'.memory info.data ≠ none
  files : ∀ g, g ≠ info.fd → w'.files g = w.files g
  memory : ∀ a, w.memory a ≠ none → w'.memory a = w.memory a

/-- What is constructed in the new memory. -/
theorem Enters.setMemory (h : Enters name info w w') (segment : Segment V) :
    Enters name info w (w'.setMemory info.data segment) := by
  refine ⟨h.descriptors, h.segments, h.fresh, ⟨h.backed.1, ?_⟩, h.files, ?_⟩
  · simp [World.setMemory]
  · intro a ha
    refine Eq.trans (Function.update_of_ne ?_ ..) (h.memory a ha)
    rintro rfl
    exact ha h.fresh.2

/-- **The registration** comes last, when nothing can fail any more. -/
theorem createSegment_spec {calls : SystemCalls} {mustBeUsed : Bool} {segmentSize : Nat}
    {typeId : List UInt8} {st : Status}
    (h : w.createSegment calls name mustBeUsed segmentSize typeId = some (w', st)) :
    st.isOk = false ∧ Fails w w' ∨
      st = okStatus ∧ ∃ info, info.mustBeUsed = mustBeUsed ∧ Enters name info w w' := by
  unfold World.createSegment at h
  split at h
  · cases h
    exact .inl ⟨rfl, .inl rfl⟩
  · rename_i fd _
    split at h
    · cases h
    · rename_i hclosed
      have hclosed : w.files fd = none := Option.not_isSome_iff_eq_none.mp hclosed
      have hopen := Touches.setFile fd w (some 0)
      split at h
      · cases h
      · rename_i w₁ st' hmap
        cases h
        obtain ⟨htouch, herror, -⟩ := mapSegment_spec hmap
        exact .inl ⟨herror st rfl, .inr ⟨fd, hclosed,
          (hopen.trans htouch).trans (.closeOnError fd w₁ calls)⟩⟩
      · rename_i w₁ data hmap
        cases h
        obtain ⟨htouch, -, hok⟩ := mapSegment_spec hmap
        obtain ⟨hfree, hfile, hmapped⟩ := hok data rfl
        have htouch := hopen.trans htouch
        refine .inr ⟨rfl, ⟨data, segmentSize, mustBeUsed, fd⟩, rfl, ?_, ?_, ⟨hclosed, hfree⟩,
          ⟨hfile, ?_⟩, htouch.files, ?_⟩
        · exact congrArg (insertNew · name fd) htouch.descriptors
        · exact congrArg (insertNew · name _) htouch.segments
        · simp [World.register, World.setMemory]
        · intro a ha
          refine Eq.trans (Function.update_of_ne ?_ ..) (htouch.memory a ha)
          rintro rfl
          exact ha hfree

/-- **What a successful call does**: there is room, and the name is valid and was not
registered. -/
structure Registers (name : Name) (info : MemorySegmentInfo) (w w' : World V) : Prop where
  room : w.memorySegments.entries.length < kMaxNumberOfSegments
  new : w.memorySegments.lookup name = none
  verified : (verifyName name).isOk = true
  enters : Enters name info w w'

theorem initSegment_spec {sizeofSegmentHeader payloadSize : Nat} {calls : SystemCalls}
    {mustBeUsed : Bool} {typeId : List UInt8} {st : Status}
    (h : w.initSegment sizeofSegmentHeader calls name mustBeUsed payloadSize typeId =
      some (w', st)) :
    st.isOk = false ∧ Fails w w' ∨
      st = okStatus ∧ ∃ info, info.mustBeUsed = mustBeUsed ∧ Registers name info w w' := by
  unfold World.initSegment at h
  split at h
  · cases h
    exact .inl ⟨rfl, .inl rfl⟩
  · rename_i hroom
    split at h
    · cases h
      exact .inl ⟨rfl, .inl rfl⟩
    · split at h
      · cases h
        exact .inl ⟨rfl, .inl rfl⟩
      · rename_i hnew
        split at h
        · rename_i hinvalid
          cases h
          exact .inl ⟨hinvalid, .inl rfl⟩
        · rename_i hvalid
          refine (createSegment_spec h).imp_right fun ⟨hst, info, hflag, henters⟩ => ?_
          exact ⟨hst, info, hflag, Nat.lt_of_not_le hroom, Option.not_isSome_iff_eq_none.mp hnew,
            eq_true_of_ne_false hvalid, henters⟩

theorem insertNew_of_none {β : Type} {m : AList fun _ : Name => β} (hnew : m.lookup name = none)
    (b : β) : insertNew m name b = m.insert name b := by
  unfold insertNew
  rw [hnew]
  rfl

theorem lookup_insertNew {β : Type} {m : AList fun _ : Name => β} (hnew : m.lookup name = none)
    (b : β) (name' : Name) :
    (insertNew m name b).lookup name' = if name' = name then some b else m.lookup name' := by
  rw [insertNew_of_none hnew]
  split
  · rename_i heq
    subst heq
    exact AList.lookup_insert m
  · rename_i hne
    exact AList.lookup_insert_ne hne

/-- **A successful call keeps the registry consistent.** -/
theorem Registers.consistent (h : Registers name info w w') (hw : Consistent w) :
    Consistent w' := by
  have hnew : w.segmentNameToFileDescriptorMap.lookup name = none := by
    rw [hw.descriptors, h.new, Option.map_none]
  have hlookup := fun name' => lookup_insertNew h.new info name'
  refine ⟨?_, ?_, ?_, ?_⟩
  · intro name'
    rw [h.enters.descriptors, h.enters.segments, lookup_insertNew hnew, hlookup]
    split
    · rfl
    · exact hw.descriptors name'
  · rw [h.enters.segments, insertNew_of_none h.new,
      AList.entries_insert_of_notMem (AList.lookup_eq_none.mp h.new)]
    exact h.room
  · intro name' hmem
    rw [← AList.lookup_isSome, h.enters.segments, hlookup] at hmem
    split at hmem
    · rename_i heq
      rw [heq]
      exact h.verified
    · exact hw.verified name' (AList.lookup_isSome.mp hmem)
  · intro name' info' hinfo
    rw [h.enters.segments, hlookup] at hinfo
    split at hinfo
    · cases hinfo
      exact h.enters.backed
    · obtain ⟨hfile, hmem⟩ := hw.backed name' info' hinfo
      have hne : info'.fd ≠ info.fd := by
        intro heq
        rw [heq, h.enters.fresh.1] at hfile
        cases hfile
      rw [h.enters.files _ hne, h.enters.memory _ hmem]
      exact ⟨hfile, hmem⟩

theorem Unchanged.consistent (h : Unchanged w w') (hw : Consistent w) : Consistent w' := by
  refine ⟨?_, ?_, ?_, ?_⟩
  · rw [h.descriptors, h.segments]
    exact hw.descriptors
  · rw [h.segments]
    exact hw.bounded
  · rw [h.segments]
    exact hw.verified
  · intro name info hinfo
    rw [h.segments] at hinfo
    rw [h.files name info hinfo, h.memory name info hinfo]
    exact hw.backed name info hinfo

/-- **The value of a new segment** is always set. -/
theorem Registers.setSegmentValue {value : V} {st : Status} (h : Registers name info w w')
    (hset : w'.setSegmentValue name value = some (w'', st)) :
    st = okStatus ∧ Registers name info w w'' := by
  have hdata : w'.getRawSegment name = some info.data := by
    rw [World.getRawSegment, h.enters.segments, lookup_insertNew h.new, if_pos rfl,
      Option.map_some]
  unfold World.setSegmentValue at hset
  rw [hdata] at hset
  dsimp only at hset
  split at hset
  · cases hset
  · cases hset
    exact ⟨rfl, h.room, h.new, h.verified, h.enters.setMemory _⟩

variable {sizeofSegmentHeader : Nat} {uint8Name : List UInt8}

theorem addValue_spec {calls : SystemCalls} {mustBeUsed : Bool} {sizeof : Nat} {value : V}
    {typeId : List UInt8} {st : Status}
    (h : w.addValue sizeofSegmentHeader calls name mustBeUsed sizeof value typeId =
      some (w', st)) :
    st.isOk = false ∧ Fails w w' ∨
      st = okStatus ∧ ∃ info, info.mustBeUsed = mustBeUsed ∧ Registers name info w w' := by
  unfold World.addValue at h
  split at h
  · cases h
  · rename_i w₁ st₁ hinit
    rcases initSegment_spec hinit with ⟨hst, hfails⟩ | ⟨rfl, info, hflag, hreg⟩
    · rw [hst] at h
      cases h
      exact .inl ⟨hst, hfails⟩
    · obtain ⟨hst, hreg⟩ := hreg.setSegmentValue h
      exact .inr ⟨hst, info, hflag, hreg⟩

/-- **A call registers a segment or fails.** -/
theorem addSegment_spec {calls : SystemCalls} {op : AddSegment V} {st : Status}
    (h : w.addSegment sizeofSegmentHeader uint8Name calls op = some (w', st)) :
    st.isOk = false ∧ Fails w w' ∨
      st = okStatus ∧ ∃ info, info.mustBeUsed = op.mustBeUsed ∧ Registers op.name info w w' := by
  cases op with
  | withDefaultValue T name mustBeUsed typeId => exact addValue_spec h
  | withValue T name mustBeUsed value typeId => exact addValue_spec h
  | withPayloadSize name mustBeUsed payloadSize typeId => exact initSegment_spec h

/-- A call that fails changes nothing of a consistent registry. -/
theorem step_spec {c : Called V} (hw : Consistent w)
    (hs : Step sizeofSegmentHeader uint8Name w c w') :
    c.status.isOk = false ∧ Unchanged w w' ∨
      c.status = okStatus ∧
        ∃ info, info.mustBeUsed = c.op.mustBeUsed ∧ Registers c.op.name info w w' :=
  (addSegment_spec hs).imp_left fun ⟨hst, hfails⟩ => ⟨hst, hfails.unchanged hw⟩

theorem consistent_run {files : Nat → Option Nat} {memory : Nat → Option (Segment V)}
    {ops : List (Called V)}
    (hrun : Run (Step sizeofSegmentHeader uint8Name) (World.init files memory) ops w) :
    Consistent w := by
  refine hrun.stateInvariant (consistent_init files memory) ?_
  intro w c w' hw hs
  rcases step_spec hw hs with ⟨-, hsame⟩ | ⟨-, info, -, hreg⟩
  · exact hsame.consistent hw
  · exact hreg.consistent hw

/-- **The registry is consistent**, after any sequence of calls with any of the system calls
failing: the two maps have the same names and the same descriptor for each, there is room for
all of them, and the names are valid and registered once.  A call that returns an error changes
neither the maps nor what is registered. -/
theorem registry_consistent {files : Nat → Option Nat} {memory : Nat → Option (Segment V)}
    {ops : List (Called V)}
    (hrun : Run (Step sizeofSegmentHeader uint8Name) (World.init files memory) ops w) :
    (∀ name, name ∈ w.segmentNameToFileDescriptorMap ↔ name ∈ w.memorySegments) ∧
    (∀ name info, w.memorySegments.lookup name = some info →
      w.segmentNameToFileDescriptorMap.lookup name = some info.fd) ∧
    w.memorySegments.entries.length ≤ kMaxNumberOfSegments ∧
    (∀ name ∈ w.memorySegments, (verifyName name).isOk = true) ∧
    w.memorySegments.keys.Nodup ∧ w.segmentNameToFileDescriptorMap.keys.Nodup ∧
    ∀ c w', Step sizeofSegmentHeader uint8Name w c w' → c.status.isOk = false →
      Unchanged w w' := by
  have hw := consistent_run hrun
  refine ⟨?_, ?_, hw.bounded, hw.verified, AList.keys_nodup _, AList.keys_nodup _, ?_⟩
  · intro name
    rw [← AList.lookup_isSome, ← AList.lookup_isSome, hw.descriptors, Option.isSome_map]
  · intro name info hinfo
    rw [hw.descriptors, hinfo, Option.map_some]
  · intro c w' hs hst
    rcases step_spec hw hs with ⟨-, hsame⟩ | ⟨hok, -⟩
    · exact hsame
    · rw [hok] at hst
      cases hst

end Registry

/-- System calls that succeed. -/
def succeeding (fd address size : Nat) : SystemCalls :=
  ⟨.ok fd, .ok (), .ok size, .ok address, .ok (), .ok ()⟩

/-- One segment is registered; then one that cannot be locked, and the first name again. -/
def registering : List (Called Nat) :=
  [⟨succeeding 3 4096 136, .withPayloadSize (ascii "state") true 8 none, okStatus⟩,
    ⟨{ succeeding 4 8192 136 with mlock := .error (ascii "Cannot allocate memory") },
      .withValue ⟨8, ascii "m", 0⟩ (ascii "command") true 7 none,
      formatStatus .internal (quoted "Unable to mlock shared memory segment " (ascii "command")
        (ascii " with error: "))⟩,
    ⟨succeeding 4 12288 136, .withPayloadSize (ascii "state") true 8 none,
      formatStatus .alreadyExists
        (quoted "Shared memory segment " (ascii "state") (ascii " already exists"))⟩]

/-- The first segment is what is registered in the end. -/
theorem registry_consistent_registering : ∃ w : World Nat,
    Run (Step 128 (ascii "h")) (World.init (fun _ => none) fun _ => none) registering w ∧
      w.memorySegments.lookup (ascii "state") = some ⟨4096, 136, true, 3⟩ ∧
      w.segmentNameToFileDescriptorMap.lookup (ascii "state") = some 3 := by
  have hrun : ∃ w : World Nat,
      Run (Step 128 (ascii "h")) (World.init (fun _ => none) fun _ => none) registering w ∧
        w.memorySegments.lookup (ascii "state") = some ⟨4096, 136, true, 3⟩ := by
    refine ⟨_, .cons rfl (.cons rfl (.single rfl)), rfl⟩
  obtain ⟨w, hrun, hlookup⟩ := hrun
  exact ⟨w, hrun, hlookup, (registry_consistent hrun).2.1 _ _ hlookup⟩

end Intrinsic.SharedMemoryManager
