import IconSharedMemory.DomainSocket
import IconSharedMemory.MemorySegment
import IconSharedMemory.SharedMemoryManager

/-! What a failed set-up of a segment leaves behind.  `InitSegment` makes a descriptor and a
mapping; `MemorySegment::Get`, on which the `Get` of both classes of handles rests, makes a
mapping.  The descriptor of a failed `InitSegment` is closed by a cleanup.  Nothing unmaps: when
`mlock` fails, or when the mapped segment turns out to be too small for the type, the mapping
stays (`setup_releases_iff`). -/

namespace Intrinsic
open DomainSocket (Name SegmentNameToFileDescriptorMap)

/-! ## `InitSegment` -/

namespace SharedMemoryManager
variable {V : Type}

/-- The arguments pass the checks. -/
structure World.Accepts (w : World V) (name : Name) (typeId : List UInt8) : Prop where
  room : w.memorySegments.entries.length < kMaxNumberOfSegments
  typeId : typeId.length ≤ kMaxTypeIdSize
  new : w.memorySegments.lookup name = none
  verified : (verifyName name).isOk = true

/-- The file is resized and mapped. -/
structure SystemCalls.Maps (calls : SystemCalls) (segmentSize address : Nat) : Prop where
  ftruncate : calls.ftruncate = .ok ()
  fstat : calls.fstat = .ok segmentSize
  mmap : calls.mmap = .ok address

/-- The kernel gives out descriptors and addresses that are not in use. -/
structure SystemCalls.Fresh (calls : SystemCalls) (w : World V) : Prop where
  memfdCreate : ∀ fd, calls.memfdCreate = .ok fd → w.files fd = none
  mmap : ∀ address, calls.mmap = .ok address → w.memory address = none

/-- **After an error the process has the descriptors and mappings it had before.** -/
def World.Releases (w : World V) (result : Option (World V × Status)) : Prop :=
  ∀ w' st, result = some (w', st) → st.isOk = false → w'.files = w.files ∧ w'.memory = w.memory

section InitSegment
variable {w : World V} {calls : SystemCalls} {name : Name} {mustBeUsed : Bool}
  {fd segmentSize address : Nat} {typeId : List UInt8}

/-- A mapping that cannot be locked stays. -/
theorem mapSegment_of_maps (h : calls.Maps segmentSize address)
    (hfree : w.memory address = none) :
    ∃ r, w.mapSegment calls name fd segmentSize =
        some ((w.setFile fd (some segmentSize)).setMemory address ⟨none, none⟩, r) ∧
      (calls.mlock = .ok () → r = .ok address) ∧
      (calls.mlock ≠ .ok () → ∃ st, r = .error st ∧ st.isOk = false) := by
  have hmemory : ¬ ((w.setFile fd (some segmentSize)).memory address).isSome = true := by
    rw [show (w.setFile fd (some segmentSize)).memory address = none from hfree]
    nofun
  unfold World.mapSegment
  rw [h.ftruncate, h.fstat, h.mmap]
  dsimp only
  rw [if_neg (not_not_intro rfl), if_neg hmemory]
  cases calls.mlock with
  | error errno => exact ⟨_, rfl, nofun, fun _ => ⟨_, rfl, rfl⟩⟩
  | ok u => exact ⟨_, rfl, fun _ => rfl, fun hne => absurd rfl hne⟩

/-- Before the file is mapped, only its size is changed. -/
theorem mapSegment_of_not_maps (h : ∀ address, ¬ calls.Maps segmentSize address) :
    ∃ w' st, w.mapSegment calls name fd segmentSize = some (w', .error st) ∧
      st.isOk = false ∧ (w' = w ∨ w' = w.setFile fd (some segmentSize)) := by
  unfold World.mapSegment
  cases hresize : calls.ftruncate with
  | error errno => exact ⟨w, _, rfl, rfl, .inl rfl⟩
  | ok u =>
    cases hstat : calls.fstat with
    | error errno => exact ⟨_, _, rfl, rfl, .inr rfl⟩
    | ok size =>
      dsimp only
      by_cases hsize : size ≠ segmentSize
      · rw [if_pos hsize]
        exact ⟨_, _, rfl, rfl, .inr rfl⟩
      · rw [if_neg hsize]
        cases hmap : calls.mmap with
        | error errno => exact ⟨_, _, rfl, rfl, .inr rfl⟩
        | ok address =>
          obtain rfl := not_not.mp hsize
          exact absurd ⟨hresize, hstat, hmap⟩ (h address)

theorem closeOnError_memory (w : World V) (calls : SystemCalls) (fd : Nat) :
    (w.closeOnError calls fd).memory = w.memory := by
  unfold World.closeOnError
  split <;> rfl

/-- The cleanup gives back a descriptor that was not open before. -/
theorem closeOnError_files {w' : World V} {size : Nat} (hfile : w.files fd = none)
    (hopen : w'.files = Function.update w.files fd (some size)) :
    (w'.closeOnError calls fd).files = w.files ↔ calls.close = .ok () := by
  unfold World.closeOnError
  cases calls.close with
  | error errno =>
    refine iff_of_false (fun heq => ?_) nofun
    have hsome : w'.files fd = some size := by rw [hopen, Function.update_self]
    cases hsome.symm.trans ((congrFun heq fd).trans hfile)
  | ok u =>
    refine iff_of_true ?_ rfl
    show Function.update w'.files fd none = w.files
    rw [hopen, Function.update_idem, ← hfile, Function.update_eq_self]

/-- `InitSegment` has a descriptor, which was not open before. -/
theorem createSegment_eq (hfresh : calls.Fresh w) (hfd : calls.memfdCreate = .ok fd) :
    w.createSegment calls name mustBeUsed segmentSize typeId =
      match (w.setFile fd (some 0)).mapSegment calls name fd segmentSize with
      | none => none
      | some (w, .error st) => some (w.closeOnError calls fd, st)
      | some (w, .ok data) =>
        some (w.register name ⟨data, segmentSize, mustBeUsed, fd⟩ typeId, okStatus) := by
  unfold World.createSegment
  rw [hfd]
  dsimp only
  rw [hfresh.memfdCreate fd hfd]
  rfl

/-- Once the file is mapped, everything depends on `mlock`. -/
theorem createSegment_releases_of_maps (hfresh : calls.Fresh w)
    (hfd : calls.memfdCreate = .ok fd) (hmaps : calls.Maps segmentSize address) :
    w.Releases (w.createSegment calls name mustBeUsed segmentSize typeId) ↔
      calls.mlock = .ok () := by
  have hfree := hfresh.mmap address hmaps.mmap
  obtain ⟨r, hmap, hlocked, hfailed⟩ := @mapSegment_of_maps _ (w.setFile fd (some 0)) calls
    name fd segmentSize address hmaps hfree
  rw [createSegment_eq hfresh hfd, hmap]
  by_cases hlock : calls.mlock = .ok ()
  · obtain rfl := hlocked hlock
    refine iff_of_true ?_ hlock
    rintro w' st ⟨⟩ hst
    cases hst
  · obtain ⟨st, rfl, hst⟩ := hfailed hlock
    refine iff_of_false (fun hreleases => ?_) hlock
    -- the cleanup closes the descriptor, but the memory is as `mmap` has left it
    obtain ⟨-, hmemory⟩ := hreleases _ _ rfl hst
    have hmapped := congrFun hmemory address
    rw [closeOnError_memory, hfree] at hmapped
    cases (Function.update_self ..).symm.trans hmapped

/-- Before that there is only the descriptor, which is closed. -/
theorem createSegment_releases_of_not_maps (hfresh : calls.Fresh w)
    (hfd : calls.memfdCreate = .ok fd) (hnone : ∀ address, ¬ calls.Maps segmentSize address) :
    w.Releases (w.createSegment calls name mustBeUsed segmentSize typeId) ↔
      calls.close = .ok () := by
  have hfile := hfresh.memfdCreate fd hfd
  obtain ⟨w', st, hmap, hst, hw'⟩ := @mapSegment_of_not_maps _ (w.setFile fd (some 0)) calls
    name fd segmentSize hnone
  have hstate : w'.memory = w.memory ∧
      ∃ size, w'.files = Function.update w.files fd (some size) := by
    rcases hw' with rfl | rfl
    · exact ⟨rfl, 0, rfl⟩
    · exact ⟨rfl, segmentSize, Function.update_idem ..⟩
  obtain ⟨hmemory, size, hfiles⟩ := hstate
  rw [createSegment_eq hfresh hfd, hmap, ← closeOnError_files hfile hfiles]
  constructor
  · intro hreleases
    exact (hreleases _ _ rfl hst).1
  · rintro hclosed _ _ ⟨⟩ -
    exact ⟨hclosed, (closeOnError_memory ..).trans hmemory⟩

theorem createSegment_releases_iff (hfresh : calls.Fresh w) (hfd : calls.memfdCreate = .ok fd) :
    w.Releases (w.createSegment calls name mustBeUsed segmentSize typeId) ↔
      (∀ address, calls.Maps segmentSize address → calls.mlock = .ok ()) ∧
        ((∀ address, ¬ calls.Maps segmentSize address) → calls.close = .ok ()) := by
  by_cases hmaps : ∃ address, calls.Maps segmentSize address
  · obtain ⟨address, hmaps⟩ := hmaps
    rw [createSegment_releases_of_maps hfresh hfd hmaps]
    constructor
    · exact fun hlock => ⟨fun _ _ => hlock, fun hnone => absurd hmaps (hnone address)⟩
    · exact fun h => h.1 address hmaps
  · have hnone : ∀ address, ¬ calls.Maps segmentSize address := not_exists.mp hmaps
    rw [createSegment_releases_of_not_maps hfresh hfd hnone]
    constructor
    · exact fun hclose => ⟨fun address hmaps => absurd hmaps (hnone address), fun _ => hclose⟩
    · exact fun h => h.2 hnone

theorem initSegment_of_not_accepts {sizeofSegmentHeader payloadSize : Nat}
    (h : ¬ w.Accepts name typeId) :
    ∃ st, w.initSegment sizeofSegmentHeader calls name mustBeUsed payloadSize typeId =
      some (w, st) := by
  unfold World.initSegment
  split
  · exact ⟨_, rfl⟩
  · next hroom =>
    split
    · exact ⟨_, rfl⟩
    · next htypeId =>
      split
      · exact ⟨_, rfl⟩
      · next hnew =>
        split
        · exact ⟨_, rfl⟩
        · next hverified =>
          exact absurd ⟨Nat.lt_of_not_le hroom, Nat.le_of_not_lt htypeId,
            Option.not_isSome_iff_eq_none.mp hnew, eq_true_of_ne_false hverified⟩ h

/-- **When `InitSegment` gives back what it has made.** -/
theorem initSegment_releases_iff {sizeofSegmentHeader payloadSize : Nat}
    (hfresh : calls.Fresh w) :
    w.Releases (w.initSegment sizeofSegmentHeader calls name mustBeUsed payloadSize typeId) ↔
      (w.Accepts name typeId → ∀ fd, calls.memfdCreate = .ok fd →
        (∀ address, calls.Maps ((sizeofSegmentHeader + payloadSize) % 2 ^ 64) address →
          calls.mlock = .ok ()) ∧
        ((∀ address, ¬ calls.Maps ((sizeofSegmentHeader + payloadSize) % 2 ^ 64) address) →
          calls.close = .ok ())) := by
  by_cases haccepts : w.Accepts name typeId
  · have hcreate : w.initSegment sizeofSegmentHeader calls name mustBeUsed payloadSize typeId =
        w.createSegment calls name mustBeUsed ((sizeofSegmentHeader + payloadSize) % 2 ^ 64)
          typeId := by
      unfold World.initSegment
      rw [if_neg (Nat.not_le.mpr haccepts.room), if_neg (Nat.not_lt.mpr haccepts.typeId),
        haccepts.new, haccepts.verified]
      rfl
    rw [hcreate]
    cases hfd : calls.memfdCreate with
    | error errno =>
      refine iff_of_true ?_ fun _ _ => nofun
      unfold World.createSegment
      rw [hfd]
      rintro w' st ⟨⟩ -
      exact ⟨rfl, rfl⟩
    | ok fd =>
      rw [createSegment_releases_iff hfresh hfd]
      constructor
      · rintro h - _ ⟨⟩
        exact h
      · intro h
        exact h haccepts fd rfl
  · obtain ⟨st, hsame⟩ := @initSegment_of_not_accepts _ w calls name mustBeUsed typeId
      sizeofSegmentHeader payloadSize haccepts
    rw [hsame]
    refine iff_of_true ?_ fun h => absurd h haccepts
    rintro w' st ⟨⟩ -
    exact ⟨rfl, rfl⟩

end InitSegment

end SharedMemoryManager

/-! ## `Get` -/

namespace SharedMemory

/-- `FormatMap` with its default separators. -/
def formatMap (m : SegmentNameToFileDescriptorMap) : List UInt8 :=
  (ascii ", ").intercalate
    (m.entries.map fun entry => entry.1 ++ ascii "=" ++ ascii (toString entry.2))

/-- What the system calls of one `Get` return: a result, or the text for `errno`. -/
structure GetCalls where
  /-- `st_size` -/
  fstat : Except (List UInt8) Nat
  mmap : Except (List UInt8) Nat
  mlock : Except (List UInt8) Unit

structure SegmentDescriptor where
  segmentStart : Nat
  size : Nat
  deriving DecidableEq, Repr

/-- The name of a handle, a character for each byte. -/
def nameOf (name : Name) : String :=
  String.ofList (name.map fun b => Char.ofNat b.toNat)

section Get
variable {S H : Type} (sizeofSegmentHeader : Nat)

/-- `MemorySegment::Get`, for a handle of either class.  `file` says which segment a descriptor
refers to.  There is no result if something is mapped at the address already. -/
def MemorySegment.get (w : World S H) (file : Int → S) (cls : HandleClass) (calls : GetCalls)
    (m : SegmentNameToFileDescriptorMap) (name : Name) :
    Option (World S H × Except Status SegmentDescriptor) :=
  match m.entries.lookup name with
  | none =>
    some (w, .error (formatStatus .notFound (ascii "No file descriptor found for segment '" ++
      name ++ ascii "'. Available segments: " ++ formatMap m)))
  | some shmFd =>
    if shmFd = -1 then
      some (w, .error (formatStatus .internal
        (ascii "Invalid file descriptor for shared memory segment '" ++ name ++ ascii "'.")))
    else
      match calls.fstat with
      | .error errno =>
        some (w, .error (formatStatus .internal (ascii "Failed to read size of segment '" ++
          name ++ ascii "'. 'fstat' failed with: " ++ errno)))
      | .ok size =>
        if size ≤ sizeofSegmentHeader then
          some (w, .error (formatStatus .internal (ascii "Shared memory segment '" ++ name ++
            ascii "' must be bigger than the SegmentHeader.")))
        else
          match calls.mmap with
          | .error errno =>
            some (w, .error (formatStatus .internal
              (ascii "Unable to map shared memory segment '" ++ name ++
                ascii "' with error: " ++ errno)))
          | .ok address =>
            if (w.maps address).isSome then none
            else
              let w := w.mmap address (file shmFd) size cls
              match calls.mlock with
              | .error errno =>
                -- the mapping stays
                some (w, .error (formatStatus .internal
                  (ascii "Unable to mlock shared memory segment '" ++ name ++
                    ascii "' with error: " ++ errno)))
              | .ok () => some (w, .ok ⟨address, size⟩)

/-- `SharedMemorySegmentFitsLowerSizeBound<T>`, where `T` has `sizeof` bytes. -/
def sharedMemorySegmentFitsLowerSizeBound (sizeof : Nat) (segmentName : Name)
    (segmentSize : Nat) : Status :=
  let minimalSize := (sizeof + sizeofSegmentHeader) % 2 ^ 64
  if segmentSize < minimalSize then
    formatStatus .internal (ascii "Shared memory segment '" ++ segmentName ++
      ascii s!"' of size {segmentSize} bytes must be >= {minimalSize} bytes. This " ++
      ascii "can be due to a version mismatch of your resources.")
  else okStatus

/-- The segment is found, and it is mapped. -/
structure GetCalls.Maps (calls : GetCalls) (m : SegmentNameToFileDescriptorMap)
    (name : Name) (shmFd : Int) (size address : Nat) : Prop where
  found : m.entries.lookup name = some shmFd
  valid : shmFd ≠ -1
  fstat : calls.fstat = .ok size
  size : sizeofSegmentHeader < size
  mmap : calls.mmap = .ok address

/-- The kernel chooses an address where nothing is mapped. -/
def GetCalls.Fresh (calls : GetCalls) (w : World S H) : Prop :=
  ∀ address, calls.mmap = .ok address → w.maps address = none

/-- **After an error the process has the mappings it had before.** -/
def World.Releases {α : Type} (w : World S H) (result : Option (World S H × Except Status α)) :
    Prop :=
  ∀ w' st, result = some (w', .error st) → w'.maps = w.maps

variable [DecidableEq S]

/-- The constructor of a handle counts it in the header. -/
def MemorySegment.construct (w : World S H) (name : Name)
    (segment : SegmentDescriptor) (kind : ReadWriteKind) : Option (World S H × MemorySegment) :=
  (w.updateHeader segment.segmentStart (·.increment kind)).map fun w =>
    (w, ⟨nameOf name, some segment.segmentStart,
      some (segment.segmentStart + sizeofSegmentHeader), segment.size, kind⟩)

/-- `Get` of a class of handles to segments of a type with `sizeof` bytes. -/
def HandleClass.get (cls : HandleClass) (sizeof : Nat) (w : World S H) (file : Int → S)
    (calls : GetCalls) (m : SegmentNameToFileDescriptorMap) (segmentName : Name) :
    Option (World S H × Except Status MemorySegment) :=
  match MemorySegment.get sizeofSegmentHeader w file cls calls m segmentName with
  | none => none
  | some (w, .error st) => some (w, .error st)
  | some (w, .ok segmentInfo) =>
    let status :=
      sharedMemorySegmentFitsLowerSizeBound sizeofSegmentHeader sizeof segmentName segmentInfo.size
    -- no handle owns the mapping yet
    if status.isOk = false then some (w, .error status)
    else
      (MemorySegment.construct sizeofSegmentHeader w segmentName segmentInfo cls.kind).map
        fun (w, segment) => (w, .ok segment)

/-- `ReadOnlyMemorySegment<T>::Get` -/
def ReadOnlyMemorySegment.get (sizeof : Nat) (w : World S H) (file : Int → S) (calls : GetCalls)
    (m : SegmentNameToFileDescriptorMap) (segmentName : Name) :
    Option (World S H × Except Status MemorySegment) :=
  HandleClass.readOnly.get sizeofSegmentHeader sizeof w file calls m segmentName

/-- `ReadWriteMemorySegment<T>::Get` -/
def ReadWriteMemorySegment.get (sizeof : Nat) (w : World S H) (file : Int → S) (calls : GetCalls)
    (m : SegmentNameToFileDescriptorMap) (segmentName : Name) :
    Option (World S H × Except Status MemorySegment) :=
  HandleClass.readWrite.get sizeofSegmentHeader sizeof w file calls m segmentName

end Get

section Released
variable {S H : Type} {sizeofSegmentHeader sizeof size address : Nat}
  {w : World S H} {file : Int → S} {cls : HandleClass} {calls : GetCalls}
  {m : SegmentNameToFileDescriptorMap} {name : Name} {shmFd : Int}

/-- A mapping is there, whether it can be locked or not. -/
theorem get_of_maps (file : Int → S) (cls : HandleClass)
    (h : calls.Maps sizeofSegmentHeader m name shmFd size address)
    (hfree : w.maps address = none) :
    ∃ r, MemorySegment.get sizeofSegmentHeader w file cls calls m name =
        some (w.mmap address (file shmFd) size cls, r) ∧
      (calls.mlock = .ok () → r = .ok ⟨address, size⟩) ∧
      (calls.mlock ≠ .ok () → ∃ st, r = .error st) := by
  have hmaps : ¬ (w.maps address).isSome = true := by
    rw [hfree]
    nofun
  unfold MemorySegment.get
  rw [h.found, h.fstat, h.mmap]
  dsimp only
  rw [if_neg h.valid, if_neg (Nat.not_le.mpr h.size), if_neg hmaps]
  cases calls.mlock with
  | error errno => exact ⟨_, rfl, nofun, fun _ => ⟨_, rfl⟩⟩
  | ok u => exact ⟨_, rfl, fun _ => rfl, fun hne => absurd rfl hne⟩

/-- The errors before `mmap` change nothing. -/
theorem get_of_not_maps (w : World S H) (file : Int → S) (cls : HandleClass)
    (h : ∀ shmFd size address, ¬ calls.Maps sizeofSegmentHeader m name shmFd size address) :
    ∃ st, MemorySegment.get sizeofSegmentHeader w file cls calls m name = some (w, .error st) := by
  unfold MemorySegment.get
  cases hfound : m.entries.lookup name with
  | none => exact ⟨_, rfl⟩
  | some shmFd =>
    dsimp only
    split
    · exact ⟨_, rfl⟩
    · next hvalid =>
      cases hstat : calls.fstat with
      | error errno => exact ⟨_, rfl⟩
      | ok size =>
        dsimp only
        split
        · exact ⟨_, rfl⟩
        · next hsize =>
          cases hmap : calls.mmap with
          | error errno => exact ⟨_, rfl⟩
          | ok address =>
            exact absurd ⟨hfound, hvalid, hstat, Nat.lt_of_not_le hsize, hmap⟩
              (h shmFd size address)

theorem mmap_maps_ne (hfree : w.maps address = none) (segment : S) :
    (w.mmap address segment size cls).maps ≠ w.maps := by
  intro heq
  have hmapped := congrFun heq address
  rw [hfree] at hmapped
  cases (Function.update_self ..).symm.trans hmapped

/-- **When `MemorySegment::Get` gives back the mapping it has made.** -/
theorem get_releases_iff (hfresh : calls.Fresh w) :
    w.Releases (MemorySegment.get sizeofSegmentHeader w file cls calls m name) ↔
      ∀ shmFd size address, calls.Maps sizeofSegmentHeader m name shmFd size address →
        calls.mlock = .ok () := by
  constructor
  · intro hreleases shmFd size address hmaps
    by_contra hlock
    have hfree := hfresh address hmaps.mmap
    obtain ⟨r, hget, -, hfailed⟩ := get_of_maps file cls hmaps hfree
    obtain ⟨st, rfl⟩ := hfailed hlock
    exact mmap_maps_ne hfree _ (hreleases _ _ hget)
  · intro h w' st hget
    by_cases hmaps : ∃ shmFd size address,
        calls.Maps sizeofSegmentHeader m name shmFd size address
    · obtain ⟨shmFd, size, address, hmaps⟩ := hmaps
      obtain ⟨r, hok, hlocked, -⟩ := get_of_maps file cls hmaps (hfresh address hmaps.mmap)
      rw [hlocked (h shmFd size address hmaps)] at hok
      cases hok.symm.trans hget
    · obtain ⟨st', hsame⟩ := get_of_not_maps w file cls
        fun shmFd size address hmaps' => hmaps ⟨shmFd, size, address, hmaps'⟩
      cases hsame.symm.trans hget
      rfl

variable [DecidableEq S]

theorem updateHeader_mmap (w : World S H) (segment : S) (update : SegmentHeader → SegmentHeader) :
    (w.mmap address segment size cls).updateHeader address update =
      some { w.mmap address segment size cls with
        headers := Function.update w.headers segment (update (w.headers segment)) } := by
  unfold World.updateHeader
  rw [show (w.mmap address segment size cls).maps address = some _ from Function.update_self ..]
  rfl

/-- A segment that is locked and large enough becomes a handle. -/
theorem typedGet_ok (h : calls.Maps sizeofSegmentHeader m name shmFd size address)
    (hfree : w.maps address = none) (hlock : calls.mlock = .ok ())
    (hsize : (sizeof + sizeofSegmentHeader) % 2 ^ 64 ≤ size) :
    cls.get sizeofSegmentHeader sizeof w file calls m name =
      some ({ w.mmap address (file shmFd) size cls with
          headers := Function.update w.headers (file shmFd)
            ((w.headers (file shmFd)).increment cls.kind) },
        .ok ⟨nameOf name, some address, some (address + sizeofSegmentHeader), size, cls.kind⟩) := by
  obtain ⟨r, hget, hlocked, -⟩ := get_of_maps file cls h hfree
  unfold HandleClass.get sharedMemorySegmentFitsLowerSizeBound
  rw [hget, hlocked hlock]
  dsimp only
  rw [if_neg (Nat.not_lt.mpr hsize), MemorySegment.construct, updateHeader_mmap]
  rfl

/-- Otherwise the mapping stays. -/
theorem typedGet_error (h : calls.Maps sizeofSegmentHeader m name shmFd size address)
    (hfree : w.maps address = none)
    (hnot : ¬ (calls.mlock = .ok () ∧ (sizeof + sizeofSegmentHeader) % 2 ^ 64 ≤ size)) :
    ∃ st, cls.get sizeofSegmentHeader sizeof w file calls m name =
      some (w.mmap address (file shmFd) size cls, .error st) := by
  obtain ⟨r, hget, hlocked, hfailed⟩ := get_of_maps file cls h hfree
  unfold HandleClass.get
  rw [hget]
  by_cases hlock : calls.mlock = .ok ()
  · have hsize : size < (sizeof + sizeofSegmentHeader) % 2 ^ 64 :=
      Nat.lt_of_not_le fun hsize => hnot ⟨hlock, hsize⟩
    rw [hlocked hlock]
    unfold sharedMemorySegmentFitsLowerSizeBound
    dsimp only
    rw [if_pos hsize]
    exact ⟨_, rfl⟩
  · obtain ⟨st, rfl⟩ := hfailed hlock
    exact ⟨st, rfl⟩

theorem typedGet_of_not_maps (w : World S H) (file : Int → S) (cls : HandleClass) (sizeof : Nat)
    (h : ∀ shmFd size address, ¬ calls.Maps sizeofSegmentHeader m name shmFd size address) :
    ∃ st, cls.get sizeofSegmentHeader sizeof w file calls m name = some (w, .error st) := by
  obtain ⟨st, hget⟩ := get_of_not_maps w file cls h
  unfold HandleClass.get
  rw [hget]
  exact ⟨st, rfl⟩

/-- **When the `Get` of a class of handles gives back the mapping.** -/
theorem typedGet_releases_iff (hfresh : calls.Fresh w) :
    w.Releases (cls.get sizeofSegmentHeader sizeof w file calls m name) ↔
      ∀ shmFd size address, calls.Maps sizeofSegmentHeader m name shmFd size address →
        calls.mlock = .ok () ∧ (sizeof + sizeofSegmentHeader) % 2 ^ 64 ≤ size := by
  constructor
  · intro hreleases shmFd size address hmaps
    by_contra hnot
    have hfree := hfresh address hmaps.mmap
    obtain ⟨st, hget⟩ := typedGet_error hmaps hfree hnot
    exact mmap_maps_ne hfree _ (hreleases _ _ hget)
  · intro h w' st hget
    by_cases hmaps : ∃ shmFd size address,
        calls.Maps sizeofSegmentHeader m name shmFd size address
    · obtain ⟨shmFd, size, address, hmaps⟩ := hmaps
      obtain ⟨hlock, hsize⟩ := h shmFd size address hmaps
      cases (typedGet_ok hmaps (hfresh address hmaps.mmap) hlock hsize).symm.trans hget
    · obtain ⟨st', hsame⟩ := typedGet_of_not_maps w file cls sizeof
        fun shmFd size address hmaps' => hmaps ⟨shmFd, size, address, hmaps'⟩
      cases hsame.symm.trans hget
      rfl

/-- **A successful `Get`** is the operation of that name on handles. -/
theorem typedGet_apply [DecidableEq H] {h : H} {w' : World S H} {segment : MemorySegment}
    (hfresh : calls.Fresh w) (hdead : w.handles h = none)
    (hmax : ∀ segment, (w.headers segment).count cls ≠ Int32.maxValue)
    (hget : cls.get sizeofSegmentHeader sizeof w file calls m name = some (w', .ok segment)) :
    ∃ shmFd size address, calls.Maps sizeofSegmentHeader m name shmFd size address ∧
      w.apply sizeofSegmentHeader (.get h cls (nameOf name) (file shmFd) address size) =
        some (w'.put h ⟨cls, segment⟩) := by
  by_cases hmaps : ∃ shmFd size address,
      calls.Maps sizeofSegmentHeader m name shmFd size address
  · obtain ⟨shmFd, size, address, hmaps⟩ := hmaps
    have hfree := hfresh address hmaps.mmap
    refine ⟨shmFd, size, address, hmaps, ?_⟩
    by_cases hall : calls.mlock = .ok () ∧ (sizeof + sizeofSegmentHeader) % 2 ^ 64 ≤ size
    · cases (typedGet_ok hmaps hfree hall.1 hall.2).symm.trans hget
      rw [World.apply, if_pos ⟨hdead, hfree, hmaps.size, hmax _⟩,
        updateHeader_mmap]
      rfl
    · obtain ⟨st, herror⟩ := typedGet_error hmaps hfree hall
      cases herror.symm.trans hget
  · obtain ⟨st, hsame⟩ := typedGet_of_not_maps w file cls sizeof
      fun shmFd size address hmaps' => hmaps ⟨shmFd, size, address, hmaps'⟩
    cases hsame.symm.trans hget

end Released

section Setup
variable {V S H : Type} [DecidableEq S] {w : World S H} {calls : GetCalls}
  {manager : SharedMemoryManager.World V} {initCalls : SharedMemoryManager.SystemCalls}

/-- **A failed set-up of a segment gives back the descriptors and mappings it has made**, for
every argument and every pattern of failing system calls, if and only if
* `InitSegment`: `mlock` does not fail once the file is mapped, and otherwise `close` does not
  fail;
* `MemorySegment::Get`: `mlock` does not fail once the segment is mapped;
* `Get` of a class of handles: neither does `mlock`, nor is the segment too small. -/
theorem setup_releases_iff (hinit : initCalls.Fresh manager) (hget : calls.Fresh w)
    (sizeofSegmentHeader sizeof payloadSize : Nat) (mustBeUsed : Bool) (typeId : List UInt8)
    (file : Int → S) (cls : HandleClass) (m : SegmentNameToFileDescriptorMap)
    (name : Name) :
    (manager.Releases (manager.initSegment sizeofSegmentHeader initCalls name mustBeUsed
        payloadSize typeId) ↔
      (manager.Accepts name typeId → ∀ fd, initCalls.memfdCreate = .ok fd →
        (∀ address, initCalls.Maps ((sizeofSegmentHeader + payloadSize) % 2 ^ 64) address →
          initCalls.mlock = .ok ()) ∧
        ((∀ address, ¬ initCalls.Maps ((sizeofSegmentHeader + payloadSize) % 2 ^ 64) address) →
          initCalls.close = .ok ()))) ∧
    (w.Releases (MemorySegment.get sizeofSegmentHeader w file cls calls m name) ↔
      ∀ shmFd size address, calls.Maps sizeofSegmentHeader m name shmFd size address →
        calls.mlock = .ok ()) ∧
    (w.Releases (ReadOnlyMemorySegment.get sizeofSegmentHeader sizeof w file calls m name) ↔
      ∀ shmFd size address, calls.Maps sizeofSegmentHeader m name shmFd size address →
        calls.mlock = .ok () ∧ (sizeof + sizeofSegmentHeader) % 2 ^ 64 ≤ size) ∧
    (w.Releases (ReadWriteMemorySegment.get sizeofSegmentHeader sizeof w file calls m name) ↔
      ∀ shmFd size address, calls.Maps sizeofSegmentHeader m name shmFd size address →
        calls.mlock = .ok () ∧ (sizeof + sizeofSegmentHeader) % 2 ^ 64 ≤ size) :=
  ⟨SharedMemoryManager.initSegment_releases_iff hinit, get_releases_iff hget,
    typedGet_releases_iff hget, typedGet_releases_iff hget⟩

end Setup

/-- The file cannot be resized, and the segment cannot be mapped: nothing is left behind. -/
theorem setup_releases_unmapped :
    let manager : SharedMemoryManager.World Unit := .init (fun _ => none) fun _ => none
    let initCalls : SharedMemoryManager.SystemCalls :=
      ⟨.ok 3, .error [], .ok 72, .ok 4096, .ok (), .ok ()⟩
    let w : World Int Unit := .init
    let calls : GetCalls := ⟨.ok 72, .error [], .ok ()⟩
    let m : SegmentNameToFileDescriptorMap := ⟨[(ascii "state", 3)], by decide, by decide⟩
    manager.Releases (manager.initSegment 64 initCalls (ascii "state") true 8 []) ∧
      w.Releases (MemorySegment.get 64 w id .readOnly calls m (ascii "state")) ∧
      w.Releases (ReadOnlyMemorySegment.get 64 8 w id calls m (ascii "state")) ∧
      w.Releases (ReadWriteMemorySegment.get 64 8 w id calls m (ascii "state")) := by
  intro manager initCalls w calls m
  have hinit : initCalls.Fresh manager := ⟨fun _ _ => rfl, fun _ _ => rfl⟩
  have hget : calls.Fresh w := fun _ _ => rfl
  have hmaps : ∀ shmFd size address, ¬ calls.Maps 64 m (ascii "state") shmFd size address :=
    fun _ _ _ h => nomatch h.mmap
  obtain ⟨hmanager, hsegment, hread, hwrite⟩ :=
    setup_releases_iff hinit hget 64 8 8 true [] id .readOnly m (ascii "state")
  refine ⟨hmanager.mpr fun _ fd _ => ⟨fun address h => ?_, fun _ => rfl⟩,
    hsegment.mpr fun fd size address h => absurd h (hmaps fd size address),
    hread.mpr fun fd size address h => absurd h (hmaps fd size address),
    hwrite.mpr fun fd size address h => absurd h (hmaps fd size address)⟩
  nomatch h.ftruncate

/-- **The mapping is left behind** when `InitSegment` cannot lock it, and when `Get` finds the
segment too small for the type. -/
theorem setup_keeps_mapping :
    let manager : SharedMemoryManager.World Unit := .init (fun _ => none) fun _ => none
    let w : World Int Unit := .init
    (∃ manager' st, manager.initSegment 64 ⟨.ok 3, .ok (), .ok 72, .ok 4096, .error [], .ok ()⟩
        (ascii "state") true 8 [] = some (manager', st) ∧ st.isOk = false ∧
      (manager.memory 4096).isSome = false ∧ (manager'.memory 4096).isSome = true) ∧
    ∃ w' st, ReadOnlyMemorySegment.get 64 16 w id ⟨.ok 72, .ok 4096, .ok ()⟩
        ⟨[(ascii "state", 3)], by decide, by decide⟩ (ascii "state") = some (w', .error st) ∧
      (w.maps 4096).isSome = false ∧ (w'.maps 4096).isSome = true :=
  ⟨⟨_, _, rfl, rfl, rfl, rfl⟩, ⟨_, _, rfl, rfl, rfl⟩⟩

end SharedMemory

end Intrinsic
