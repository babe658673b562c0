import IconSharedMemory.SegmentSetup

/-! Objects that are made of two segments.  `RemoteTriggerServer::Create` and
`RealtimeClock::Create` each register two segments with a manager and get a handle to both.  A
part that fails ends the call with its error.  The handles are destroyed then, but a manager
cannot unregister a segment: what was registered before stays, and the next call finds that it
already exists (`create_all_or_nothing_iff`).

The two functions are written with the parts they are made of, each followed by the rest of the
function.  `Creates` says what such a rest does with the registry, and has one rule for each
part. -/

namespace Intrinsic
open DomainSocket (Name SegmentNameToFileDescriptorMap)

/-! ## `AddSegment` and the registry -/

namespace SharedMemoryManager
variable {V : Type}

namespace AddSegment

/-- The type id, or the name of the type. -/
def typeId (uint8Name : List UInt8) : AddSegment V → List UInt8
  | .withDefaultValue T _ _ typeId | .withValue T _ _ _ typeId => typeId.getD T.typeName
  | .withPayloadSize _ _ _ typeId => typeId.getD uint8Name

def payloadSize : AddSegment V → Nat
  | .withDefaultValue T _ _ _ | .withValue T _ _ _ _ => T.sizeof
  | .withPayloadSize _ _ payloadSize _ => payloadSize

end AddSegment

/-- All the system calls of an `InitSegment` succeed. -/
def SystemCalls.Succeed (calls : SystemCalls) (segmentSize : Nat) : Prop :=
  ∃ fd address, calls.memfdCreate = .ok fd ∧ calls.Maps segmentSize address ∧
    calls.mlock = .ok ()

/-- **The registered segments are the same.** -/
structure SameRegistry (w w' : World V) : Prop where
  descriptors : w'.segmentNameToFileDescriptorMap = w.segmentNameToFileDescriptorMap
  segments : w'.memorySegments = w.memorySegments

/-- One more segment is in both maps. -/
structure Entered (name : Name) (w w' : World V) : Prop where
  descriptors : ∃ fd, w'.segmentNameToFileDescriptorMap =
    insertNew w.segmentNameToFileDescriptorMap name fd
  segments : ∃ info, w'.memorySegments = insertNew w.memorySegments name info

/-- Whether an `InitSegment` succeeds depends on the arguments and the system calls. -/
structure Outcome (name : Name) (succeeds : Prop) (w w' : World V) (st : Status) : Prop where
  success : succeeds → st = okStatus ∧ Entered name w w'
  failure : ¬ succeeds → st.isOk = false ∧ SameRegistry w w' ∧
    (st.code = .alreadyExists → name ∈ w.memorySegments)

section Registry
variable {w w' : World V} {calls : SystemCalls} {name : Name} {mustBeUsed : Bool}
  {fd segmentSize sizeofSegmentHeader payloadSize : Nat} {typeId uint8Name : List UInt8}
  {st : Status}

theorem SameRegistry.refl (w : World V) : SameRegistry w w := ⟨rfl, rfl⟩

theorem mem_insertNew {β : Type} {m : AList fun _ : Name => β} {b : β} {name' : Name} :
    name' ∈ insertNew m name b ↔ name' = name ∨ name' ∈ m := by
  unfold insertNew
  split
  · next h =>
    have hmem : name ∈ m := AList.lookup_isSome.mp h
    constructor
    · exact .inr
    · rintro (rfl | h')
      · exact hmem
      · exact h'
  · exact AList.mem_insert m

theorem mapSegment_error_code
    (h : w.mapSegment calls name fd segmentSize = some (w', .error st)) :
    st.code = .internal := by
  unfold World.mapSegment at h
  dsimp only at h
  repeat' split at h
  all_goals
    cases h
    try rfl

theorem mapSegment_free {r : Except Status Nat} {address : Nat}
    (hmaps : calls.Maps segmentSize address)
    (h : w.mapSegment calls name fd segmentSize = some (w', r)) : w.memory address = none := by
  unfold World.mapSegment at h
  rw [hmaps.ftruncate, hmaps.fstat, hmaps.mmap] at h
  dsimp only at h
  rw [if_neg (not_not_intro rfl)] at h
  by_contra hsome
  have hsome : ((w.setFile fd (some segmentSize)).memory address).isSome = true :=
    Option.isSome_iff_ne_none.mpr hsome
  rw [if_pos hsome] at h
  cases h

/-- The segment is mapped if all the system calls succeed. -/
theorem mapSegment_isOk_iff {r : Except Status Nat}
    (h : w.mapSegment calls name fd segmentSize = some (w', r)) :
    (∃ data, r = .ok data) ↔
      (∃ address, calls.Maps segmentSize address) ∧ calls.mlock = .ok () := by
  by_cases hmaps : ∃ address, calls.Maps segmentSize address
  · obtain ⟨address, hmaps⟩ := hmaps
    obtain ⟨r', hmap, hlocked, hfailed⟩ :=
      @mapSegment_of_maps _ w calls name fd _ _ hmaps (mapSegment_free hmaps h)
    cases hmap.symm.trans h
    by_cases hlock : calls.mlock = .ok ()
    · exact iff_of_true ⟨_, hlocked hlock⟩ ⟨⟨address, hmaps⟩, hlock⟩
    · obtain ⟨st, rfl, -⟩ := hfailed hlock
      exact iff_of_false nofun fun hall => hlock hall.2
  · obtain ⟨w₁, st, hmap, -⟩ :=
      @mapSegment_of_not_maps _ w calls name fd _ fun address h => hmaps ⟨address, h⟩
    cases hmap.symm.trans h
    exact iff_of_false nofun fun hall => hmaps hall.1

theorem createSegment_outcome
    (h : w.createSegment calls name mustBeUsed segmentSize typeId = some (w', st)) :
    Outcome name (calls.Succeed segmentSize) w w' st := by
  unfold World.createSegment at h
  split at h
  · next errno hmake =>
    cases h
    refine ⟨?_, fun _ => ⟨rfl, .refl w, nofun⟩⟩
    rintro ⟨fd, address, hfd, -⟩
    cases hmake.symm.trans hfd
  · next fd hmake =>
    split at h
    · cases h
    · split at h
      · cases h
      · next w₁ st' hmap =>
        cases h
        have hnot := (mapSegment_isOk_iff hmap).not.mp nofun
        have hcode := mapSegment_error_code hmap
        have htouch := (mapSegment_spec hmap).1.trans (.closeOnError fd w₁ calls)
        refine ⟨?_, fun _ => ⟨?_, ⟨htouch.descriptors, htouch.segments⟩, ?_⟩⟩
        · rintro ⟨-, address, -, hmaps, hlock⟩
          exact absurd ⟨⟨address, hmaps⟩, hlock⟩ hnot
        · rw [Status.isOk, hcode]
          rfl
        · rw [hcode]
          nofun
      · next w₁ data hmap =>
        cases h
        obtain ⟨⟨address, hmaps⟩, hlock⟩ := (mapSegment_isOk_iff hmap).mp ⟨data, rfl⟩
        have htouch := (mapSegment_spec hmap).1
        refine ⟨fun _ => ⟨rfl, ⟨fd, ?_⟩, ⟨data, segmentSize, mustBeUsed, fd⟩, ?_⟩,
          fun hnot => ?_⟩
        · exact congrArg (insertNew · name fd) htouch.descriptors
        · exact congrArg (insertNew · name _) htouch.segments
        · exact absurd ⟨fd, address, hmake, hmaps, hlock⟩ hnot

theorem verifyName_code (name : Name) : (verifyName name).code ≠ .alreadyExists := by
  unfold verifyName
  split_ifs <;> nofun

theorem initSegment_outcome
    (h : w.initSegment sizeofSegmentHeader calls name mustBeUsed payloadSize typeId =
      some (w', st)) :
    Outcome name (w.Accepts name typeId ∧
      calls.Succeed ((sizeofSegmentHeader + payloadSize) % 2 ^ 64)) w w' st := by
  unfold World.initSegment at h
  split at h
  · next hfull =>
    cases h
    exact ⟨fun hall => absurd hall.1.room (Nat.not_lt.mpr hfull),
      fun _ => ⟨rfl, .refl w, nofun⟩⟩
  · next hroom =>
    split at h
    · next hlong =>
      cases h
      exact ⟨fun hall => absurd hall.1.typeId (Nat.not_le.mpr hlong),
        fun _ => ⟨rfl, .refl w, nofun⟩⟩
    · next htype =>
      split at h
      · next hexists =>
        cases h
        refine ⟨fun hall => ?_,
          fun _ => ⟨rfl, .refl w, fun _ => AList.lookup_isSome.mp hexists⟩⟩
        rw [hall.1.new] at hexists
        cases hexists
      · next hnew =>
        split at h
        · next hinvalid =>
          cases h
          refine ⟨fun hall => ?_,
            fun _ => ⟨hinvalid, .refl w, fun hcode => absurd hcode (verifyName_code name)⟩⟩
          cases hall.1.verified.symm.trans hinvalid
        · next hvalid =>
          have haccepts : w.Accepts name typeId :=
            ⟨Nat.lt_of_not_le hroom, Nat.le_of_not_lt htype,
              Option.not_isSome_iff_eq_none.mp hnew, eq_true_of_ne_false hvalid⟩
          obtain ⟨hsuccess, hfailure⟩ := createSegment_outcome h
          exact ⟨fun hall => hsuccess hall.2, fun hnot => hfailure fun hcalls =>
            hnot ⟨haccepts, hcalls⟩⟩

/-- The value of a segment that is registered is always set. -/
theorem setSegmentValue_of_mem {value : V} (hmem : name ∈ w.memorySegments)
    (h : w.setSegmentValue name value = some (w', st)) : st = okStatus ∧ SameRegistry w w' := by
  obtain ⟨info, hinfo⟩ := Option.isSome_iff_exists.mp (AList.lookup_isSome.mpr hmem)
  unfold World.setSegmentValue World.getRawSegment at h
  rw [hinfo] at h
  dsimp only [Option.map_some] at h
  split at h
  · cases h
  · cases h
    exact ⟨rfl, rfl, rfl⟩

theorem addValue_outcome {sizeof : Nat} {value : V}
    (h : w.addValue sizeofSegmentHeader calls name mustBeUsed sizeof value typeId =
      some (w', st)) :
    Outcome name (w.Accepts name typeId ∧
      calls.Succeed ((sizeofSegmentHeader + sizeof) % 2 ^ 64)) w w' st := by
  unfold World.addValue at h
  split at h
  · cases h
  · next w₁ st₁ hinit =>
    obtain ⟨hsuccess, hfailure⟩ := initSegment_outcome hinit
    constructor
    · intro hall
      obtain ⟨rfl, hdescriptors, info, hsegments⟩ := hsuccess hall
      have hmem : name ∈ w₁.memorySegments := by
        rw [hsegments]
        exact mem_insertNew.mpr (.inl rfl)
      obtain ⟨hst, hsame⟩ := setSegmentValue_of_mem hmem h
      exact ⟨hst, hsame.descriptors ▸ hdescriptors, info, hsame.segments.trans hsegments⟩
    · intro hnot
      have herror := hfailure hnot
      rw [herror.1] at h
      cases h
      exact herror

/-- **`AddSegment` registers the segment or changes nothing.** -/
theorem addSegment_outcome {op : AddSegment V}
    (h : w.addSegment sizeofSegmentHeader uint8Name calls op = some (w', st)) :
    Outcome op.name (w.Accepts op.name (op.typeId uint8Name) ∧
      calls.Succeed ((sizeofSegmentHeader + op.payloadSize) % 2 ^ 64)) w w' st := by
  cases op with
  | withDefaultValue T name mustBeUsed typeId => exact addValue_outcome h
  | withValue T name mustBeUsed value typeId => exact addValue_outcome h
  | withPayloadSize name mustBeUsed payloadSize typeId => exact initSegment_outcome h

end Registry

/-- `SegmentNameToFileDescriptorMap()`.  A map cannot have more elements than a `size_t` can
count. -/
def descriptorMap (m : AList fun _ : Name => Nat) : Option SegmentNameToFileDescriptorMap :=
  if h : m.entries.length < 2 ^ 64 then
    some {
      entries := m.entries.map fun entry => (entry.1, ↑entry.2)
      nodup := by
        rw [List.map_map]
        exact m.nodupKeys
      size_lt := by rwa [List.length_map] }
  else none

theorem lookup_map_entries (entries : List (Sigma fun _ : Name => Nat)) (name : Name) :
    (entries.map fun entry => (entry.1, (↑entry.2 : Int))).lookup name =
      (entries.dlookup name).map fun fd => ↑fd := by
  induction entries with
  | nil => rfl
  | cons entry entries ih =>
    obtain ⟨name', fd⟩ := entry
    by_cases heq : name = name'
    · subst heq
      simp
    · rw [List.map_cons, List.lookup_cons, List.dlookup_cons_ne _ _ heq,
        beq_eq_false_iff_ne.mpr heq]
      exact ih

/-- What is registered is found. -/
theorem descriptorMap_lookup {descriptors : AList fun _ : Name => Nat}
    {m : SegmentNameToFileDescriptorMap} {name : Name} (hm : descriptorMap descriptors = some m)
    (hmem : name ∈ descriptors) :
    ∃ shmFd, m.entries.lookup name = some shmFd ∧ shmFd ≠ -1 := by
  obtain ⟨fd, hfd⟩ := Option.isSome_iff_exists.mp (AList.lookup_isSome.mpr hmem)
  unfold descriptorMap at hm
  split at hm
  · cases hm
    refine ⟨fd, ?_, by omega⟩
    rw [lookup_map_entries]
    exact congrArg (Option.map fun fd : Nat => (↑fd : Int)) hfd
  · cases hm

end SharedMemoryManager

/-! ## `Get` of what is registered -/

namespace SharedMemory
variable {S H : Type} {sizeofSegmentHeader sizeof : Nat} {w w' : World S H}
  {file : Int → S} {cls : HandleClass} {calls : GetCalls} {m : SegmentNameToFileDescriptorMap}
  {name : Name} {r : Except Status MemorySegment} {shmFd : Int}

/-- The system calls of a `Get` succeed, and the segment is large enough. -/
def GetCalls.Succeed (sizeofSegmentHeader : Nat) (calls : GetCalls) (sizeof : Nat) : Prop :=
  ∃ size address, calls.fstat = .ok size ∧ sizeofSegmentHeader < size ∧
    calls.mmap = .ok address ∧ calls.mlock = .ok () ∧
    (sizeof + sizeofSegmentHeader) % 2 ^ 64 ≤ size

theorem get_free {size address : Nat} {r : Except Status SegmentDescriptor}
    (hmaps : calls.Maps sizeofSegmentHeader m name shmFd size address)
    (h : MemorySegment.get sizeofSegmentHeader w file cls calls m name = some (w', r)) :
    w.maps address = none := by
  unfold MemorySegment.get at h
  rw [hmaps.found, hmaps.fstat, hmaps.mmap] at h
  dsimp only at h
  rw [if_neg hmaps.valid, if_neg (Nat.not_le.mpr hmaps.size)] at h
  by_contra hsome
  rw [if_pos (Option.isSome_iff_ne_none.mpr hsome)] at h
  cases h

theorem get_error_code {st : Status}
    (h : MemorySegment.get sizeofSegmentHeader w file cls calls m name = some (w', .error st)) :
    st.code ≠ .alreadyExists := by
  unfold MemorySegment.get at h
  dsimp only at h
  repeat' split at h
  all_goals
    cases h
    try nofun

variable [DecidableEq S]

theorem typedGet_free {size address : Nat}
    (hmaps : calls.Maps sizeofSegmentHeader m name shmFd size address)
    (h : cls.get sizeofSegmentHeader sizeof w file calls m name = some (w', r)) :
    w.maps address = none := by
  unfold HandleClass.get at h
  split at h
  · cases h
  · next hget => exact get_free hmaps hget
  · next hget => exact get_free hmaps hget

theorem typedGet_error_code {st : Status}
    (h : cls.get sizeofSegmentHeader sizeof w file calls m name = some (w', .error st)) :
    st.code ≠ .alreadyExists := by
  unfold HandleClass.get at h
  dsimp only at h
  split at h
  · cases h
  · next hget =>
    cases h
    exact get_error_code hget
  · split at h
    · cases h
      unfold sharedMemorySegmentFitsLowerSizeBound
      dsimp only
      split_ifs <;> nofun
    · obtain ⟨⟨w₁, segment⟩, -, heq⟩ := Option.map_eq_some_iff.mp h
      cases heq

/-- A `Get` of a segment that is found succeeds if its system calls do. -/
theorem typedGet_isOk_iff (hfound : m.entries.lookup name = some shmFd) (hvalid : shmFd ≠ -1)
    (h : cls.get sizeofSegmentHeader sizeof w file calls m name = some (w', r)) :
    (∃ segment, r = .ok segment) ↔ calls.Succeed sizeofSegmentHeader sizeof := by
  by_cases hmaps : ∃ size address,
      calls.Maps sizeofSegmentHeader m name shmFd size address
  · obtain ⟨size, address, hmaps⟩ := hmaps
    have hfree := typedGet_free hmaps h
    by_cases hall : calls.mlock = .ok () ∧ (sizeof + sizeofSegmentHeader) % 2 ^ 64 ≤ size
    · cases (typedGet_ok hmaps hfree hall.1 hall.2).symm.trans h
      exact iff_of_true ⟨_, rfl⟩
        ⟨size, address, hmaps.fstat, hmaps.size, hmaps.mmap, hall.1, hall.2⟩
    · obtain ⟨st, herror⟩ := @typedGet_error _ _ _ _ _ _ w file cls _ _ _ _ _ hmaps hfree hall
      cases herror.symm.trans h
      refine iff_of_false nofun ?_
      rintro ⟨size', -, hstat, -, -, hlock, hsize⟩
      cases hmaps.fstat.symm.trans hstat
      exact hall ⟨hlock, hsize⟩
  · have hnot : ∀ shmFd' size address,
        ¬ calls.Maps sizeofSegmentHeader m name shmFd' size address := by
      intro shmFd' size address hmaps'
      cases hfound.symm.trans hmaps'.found
      exact hmaps ⟨size, address, hmaps'⟩
    obtain ⟨st, herror⟩ := typedGet_of_not_maps w file cls sizeof hnot
    cases herror.symm.trans h
    refine iff_of_false nofun ?_
    rintro ⟨size, address, hstat, hsize, hmap, -⟩
    exact hmaps ⟨size, address, hfound, hvalid, hstat, hsize, hmap⟩

end SharedMemory

/-! ## Parts of a creation -/

/-- A manager, and the handles of its process. -/
structure Process (V S H : Type) where
  manager : SharedMemoryManager.World V
  segments : SharedMemory.World S H

/-- A function, or the rest of one, that returns an object or an error. -/
abbrev Creation (V S H α : Type) := Process V S H → Option (Process V S H × Except Status α)

namespace Creation
open SharedMemoryManager SharedMemory
variable {V S H α : Type} [DecidableEq S] (sizeofSegmentHeader : Nat) (uint8Name : List UInt8)
  (file : Int → S)

def ok (a : α) : Creation V S H α := fun p => some (p, .ok a)

/-- `AddSegment`, whose error is returned. -/
def addSegment (calls : SystemCalls) (op : AddSegment V) (rest : Creation V S H α) :
    Creation V S H α := fun p =>
  match p.manager.addSegment sizeofSegmentHeader uint8Name calls op with
  | none => none
  | some (manager, st) =>
    if st.isOk = false then some ({ p with manager }, .error st) else rest { p with manager }

/-- `SharedMemoryManager::Get<T>`, whose error is returned.  The handle is destroyed if the rest
of the function returns an error. -/
def get (cls : HandleClass) (T : PayloadType V) (calls : GetCalls) (name : Name)
    (rest : MemorySegment → Creation V S H α) : Creation V S H α := fun p =>
  match descriptorMap p.manager.segmentNameToFileDescriptorMap with
  | none => none
  | some m =>
    match cls.get sizeofSegmentHeader T.sizeof p.segments file calls m name with
    | none => none
    | some (segments, .error st) => some ({ p with segments }, .error st)
    | some (segments, .ok segment) =>
      match rest segment { p with segments } with
      | some (p, .error st) =>
        (p.segments.cleanUpSharedMemory segment).map fun segments =>
          ({ p with segments }, .error st)
      | result => result

end Creation

/-! ## What a creation registers -/

section Rules
open SharedMemoryManager SharedMemory
variable {V S H α : Type} {sizeofSegmentHeader : Nat} {uint8Name : List UInt8}
  {w w' w'' : SharedMemoryManager.World V} {name : Name}
  {names added : List Name}

/-- `w'` has the segments of `w`, and `names`. -/
structure Adds (w : SharedMemoryManager.World V) (names : List Name)
    (w' : SharedMemoryManager.World V) : Prop where
  length : w'.memorySegments.entries.length = w.memorySegments.entries.length + names.length
  segments : ∀ name, name ∈ w'.memorySegments ↔ name ∈ w.memorySegments ∨ name ∈ names
  descriptors : ∀ name ∈ names, name ∈ w'.segmentNameToFileDescriptorMap

theorem Adds.refl (w : SharedMemoryManager.World V) : Adds w [] w :=
  ⟨rfl, fun _ => ⟨.inl, fun h => h.resolve_right List.not_mem_nil⟩, nofun⟩

theorem Adds.entered (h : Adds w names w') (hnew : name ∉ w'.memorySegments)
    (hentered : Entered name w' w'') : Adds w (name :: names) w'' := by
  obtain ⟨⟨fd, hdescriptors⟩, ⟨info, hsegments⟩⟩ := hentered
  constructor
  · rw [hsegments, insertNew_of_none (AList.lookup_eq_none.mpr hnew),
      AList.entries_insert_of_notMem hnew, List.length_cons, List.length_cons, h.length]
    omega
  · intro name'
    rw [hsegments, mem_insertNew, h.segments, List.mem_cons]
    exact or_left_comm
  · intro name' hmem
    rw [hdescriptors, mem_insertNew]
    rcases List.mem_cons.mp hmem with heq | hmem
    · exact .inl heq
    · exact .inr (h.descriptors name' hmem)

/-- **`AddSegment` succeeds** on a manager that has the segments of `w`, and `names`. -/
structure SharedMemoryManager.World.Fits (sizeofSegmentHeader : Nat) (uint8Name : List UInt8)
    (w : SharedMemoryManager.World V) (names : List Name)
    (calls : SystemCalls) (op : AddSegment V) : Prop where
  room : w.memorySegments.entries.length + names.length < kMaxNumberOfSegments
  typeId : (op.typeId uint8Name).length ≤ kMaxTypeIdSize
  new : op.name ∉ w.memorySegments ∧ op.name ∉ names
  verified : (verifyName op.name).isOk = true
  calls : calls.Succeed ((sizeofSegmentHeader + op.payloadSize) % 2 ^ 64)

theorem Adds.fits_iff {calls : SystemCalls} {op : AddSegment V} (h : Adds w names w') :
    w'.Accepts op.name (op.typeId uint8Name) ∧
        calls.Succeed ((sizeofSegmentHeader + op.payloadSize) % 2 ^ 64) ↔
      w.Fits sizeofSegmentHeader uint8Name names calls op := by
  have hnew : w'.memorySegments.lookup op.name = none ↔
      op.name ∉ w.memorySegments ∧ op.name ∉ names := by
    rw [AList.lookup_eq_none, h.segments, not_or]
  constructor
  · rintro ⟨haccepts, hcalls⟩
    exact ⟨h.length ▸ haccepts.room, haccepts.typeId, hnew.mp haccepts.new, haccepts.verified,
      hcalls⟩
  · intro hfits
    exact ⟨⟨h.length ▸ hfits.room, hfits.typeId, hnew.mpr hfits.new, hfits.verified⟩,
      hfits.calls⟩

/-- **What a creation does with the registry** when it is called on a manager that has the
segments of `w`, and `names`: it returns an object if and only if `condition` holds, nothing is
unregistered, and an error says that a segment already exists only if it is one of `added`. -/
structure Creates (w : SharedMemoryManager.World V) (names added : List Name)
    (condition : Prop) (creation : Creation V S H α) : Prop where
  isOk_iff : ∀ p p' r, Adds w names p.manager → creation p = some (p', r) →
    ((∃ a, r = .ok a) ↔ condition)
  keeps : ∀ p p' r, creation p = some (p', r) →
    ∀ name ∈ p.manager.memorySegments, name ∈ p'.manager.memorySegments
  alreadyExists : ∀ p p' st, creation p = some (p', .error st) → st.code = .alreadyExists →
    ∃ name ∈ added, name ∈ p.manager.memorySegments

theorem Creates.ok (a : α) : Creates w names [] True (Creation.ok a : Creation V S H α) := by
  constructor
  · rintro p p' r - ⟨⟩
    exact iff_of_true ⟨a, rfl⟩ trivial
  · rintro p p' r ⟨⟩ name hmem
    exact hmem
  · nofun

/-- `AddSegment` returns its error, or the rest of the function is called with one more
segment. -/
theorem Creation.addSegment_cases {calls : SystemCalls} {op : AddSegment V}
    {rest : Creation V S H α} {p p' : Process V S H} {r : Except Status α}
    (h : Creation.addSegment sizeofSegmentHeader uint8Name calls op rest p = some (p', r)) :
    let accepted := p.manager.Accepts op.name (op.typeId uint8Name) ∧
      calls.Succeed ((sizeofSegmentHeader + op.payloadSize) % 2 ^ 64)
    (¬ accepted ∧ ∃ st, r = .error st ∧ SameRegistry p.manager p'.manager ∧
      (st.code = .alreadyExists → op.name ∈ p.manager.memorySegments)) ∨
    accepted ∧ ∃ manager, Entered op.name p.manager manager ∧
      rest { p with manager } = some (p', r) := by
  intro accepted
  unfold Creation.addSegment at h
  split at h
  · cases h
  · next manager st hadd =>
    obtain ⟨hsuccess, hfailure⟩ := addSegment_outcome hadd
    by_cases haccepted : accepted
    · obtain ⟨rfl, hentered⟩ := hsuccess haccepted
      exact .inr ⟨haccepted, manager, hentered, h⟩
    · obtain ⟨hst, hsame, hcode⟩ := hfailure haccepted
      rw [if_pos hst] at h
      cases h
      exact .inl ⟨haccepted, st, rfl, hsame, hcode⟩

theorem Creates.addSegment {calls : SystemCalls} {op : AddSegment V} {rest : Creation V S H α}
    {condition : Prop} (hop : op.name = name) (hadded : name ∉ added)
    (h : Creates w (name :: names) added condition rest) :
    Creates w names (name :: added)
      (w.Fits sizeofSegmentHeader uint8Name names calls op ∧ condition)
      (Creation.addSegment sizeofSegmentHeader uint8Name calls op rest) := by
  subst hop
  constructor
  · intro p p' r hadds hcreate
    rw [← hadds.fits_iff]
    rcases Creation.addSegment_cases hcreate with
      ⟨hnot, st, rfl, -⟩ | ⟨haccepted, manager, hentered, hrest⟩
    · exact iff_of_false nofun fun hall => hnot hall.1
    · have hnew := AList.lookup_eq_none.mp haccepted.1.new
      rw [h.isOk_iff _ _ _ (hadds.entered hnew hentered) hrest]
      exact ⟨fun hcondition => ⟨haccepted, hcondition⟩, And.right⟩
  · intro p p' r hcreate name hmem
    rcases Creation.addSegment_cases hcreate with
      ⟨-, st, -, hsame, -⟩ | ⟨-, manager, ⟨-, info, hsegments⟩, hrest⟩
    · rwa [hsame.segments]
    · refine h.keeps _ _ _ hrest name ?_
      rw [hsegments]
      exact mem_insertNew.mpr (.inr hmem)
  · intro p p' st hcreate hcode
    rcases Creation.addSegment_cases hcreate with
      ⟨-, st', ⟨⟩, -, hexists⟩ | ⟨-, manager, ⟨-, info, hsegments⟩, hrest⟩
    · exact ⟨op.name, List.mem_cons_self, hexists hcode⟩
    · obtain ⟨name, hname, hmem⟩ := h.alreadyExists _ _ _ hrest hcode
      rw [hsegments, mem_insertNew] at hmem
      -- the rest does not add the same segment again
      have hne : name ≠ op.name := fun heq => hadded (heq ▸ hname)
      exact ⟨name, List.mem_cons_of_mem _ hname, hmem.resolve_left hne⟩

variable [DecidableEq S] {file : Int → S}

/-- `Get` leaves the manager alone, and so does the destructor of its handle. -/
theorem Creation.get_cases {cls : HandleClass} {T : PayloadType V} {calls : GetCalls}
    {rest : MemorySegment → Creation V S H α} {p p' : Process V S H} {r : Except Status α}
    (h : Creation.get sizeofSegmentHeader file cls T calls name rest p = some (p', r)) :
    (∃ st, r = .error st ∧ p'.manager = p.manager ∧ st.code ≠ .alreadyExists ∧
      (name ∈ p.manager.segmentNameToFileDescriptorMap →
        ¬ calls.Succeed sizeofSegmentHeader T.sizeof)) ∨
    ∃ segment segments p'', rest segment { p with segments } = some (p'', r) ∧
      p'.manager = p''.manager ∧
      (name ∈ p.manager.segmentNameToFileDescriptorMap →
        calls.Succeed sizeofSegmentHeader T.sizeof) := by
  unfold Creation.get at h
  split at h
  · cases h
  · next m hm =>
    split at h
    · cases h
    · next segments st hget =>
      cases h
      refine .inl ⟨st, rfl, rfl, typedGet_error_code hget, fun hmem => ?_⟩
      obtain ⟨shmFd, hfound, hvalid⟩ := descriptorMap_lookup hm hmem
      exact (typedGet_isOk_iff hfound hvalid hget).not.mp nofun
    · next segments segment hget =>
      have hsucceed : name ∈ p.manager.segmentNameToFileDescriptorMap →
          calls.Succeed sizeofSegmentHeader T.sizeof := by
        intro hmem
        obtain ⟨shmFd, hfound, hvalid⟩ := descriptorMap_lookup hm hmem
        exact (typedGet_isOk_iff hfound hvalid hget).mp ⟨segment, rfl⟩
      split at h
      · next p'' st hrest =>
        obtain ⟨segments', -, heq⟩ := Option.map_eq_some_iff.mp h
        cases heq
        exact .inr ⟨segment, segments, p'', hrest, rfl, hsucceed⟩
      · exact .inr ⟨segment, segments, p', h, rfl, hsucceed⟩

theorem Creates.get {cls : HandleClass} {T : PayloadType V} {calls : GetCalls}
    {rest : MemorySegment → Creation V S H α} {condition : Prop} (hname : name ∈ names)
    (h : ∀ segment, Creates w names added condition (rest segment)) :
    Creates w names added (calls.Succeed sizeofSegmentHeader T.sizeof ∧ condition)
      (Creation.get sizeofSegmentHeader file cls T calls name rest) := by
  constructor
  · intro p p' r hadds hcreate
    have hmem := hadds.descriptors name hname
    rcases Creation.get_cases hcreate with
      ⟨st, rfl, -, -, hnot⟩ | ⟨segment, segments, p'', hrest, -, hsucceed⟩
    · exact iff_of_false nofun fun hall => hnot hmem hall.1
    · rw [(h segment).isOk_iff { p with segments } _ _ hadds hrest]
      exact ⟨fun hcondition => ⟨hsucceed hmem, hcondition⟩, And.right⟩
  · intro p p' r hcreate name' hmem
    rcases Creation.get_cases hcreate with
      ⟨st, -, hsame, -⟩ | ⟨segment, segments, p'', hrest, hsame, -⟩
    · rwa [hsame]
    · rw [hsame]
      exact (h segment).keeps _ _ _ hrest name' hmem
  · intro p p' st hcreate hcode
    rcases Creation.get_cases hcreate with
      ⟨st', ⟨⟩, -, hne, -⟩ | ⟨segment, segments, p'', hrest, -⟩
    · exact absurd hcode hne
    · exact (h segment).alreadyExists { p with segments } _ _ hrest hcode

/-- **After an error the manager has the segments it had before**, and the same call, whatever
its system calls return then, finds that a segment already exists only if one of `names` was
registered before the first call. -/
structure AllOrNothing {Calls : Type} (create : Calls → Creation V S H α)
    (names : List Name) (p p' : Process V S H) (r : Except Status α) :
    Prop where
  same : ∀ st, r = .error st → SameRegistry p.manager p'.manager
  again : ∀ st, r = .error st → ∀ calls p'' st', create calls p' = some (p'', .error st') →
    st'.code = .alreadyExists → ∃ name ∈ names, name ∈ p.manager.memorySegments

omit [DecidableEq S] in
/-- Once the first segment is registered, every other part has to succeed. -/
theorem sameRegistry_iff {calls : SystemCalls} {op : AddSegment V} {rest : Creation V S H α}
    {condition : Prop} {p p' : Process V S H} {r : Except Status α} (hop : op.name = name)
    (hrest : Creates p.manager [name] added condition rest)
    (h : Creation.addSegment sizeofSegmentHeader uint8Name calls op rest p = some (p', r)) :
    (∀ st, r = .error st → SameRegistry p.manager p'.manager) ↔
      (p.manager.Fits sizeofSegmentHeader uint8Name [] calls op → condition) := by
  subst hop
  have hself := Adds.refl p.manager
  rw [← hself.fits_iff]
  rcases Creation.addSegment_cases h with
    ⟨hnot, st, rfl, hsame, -⟩ | ⟨haccepted, manager, hentered, hrest'⟩
  · exact iff_of_true (fun _ _ => hsame) fun hall => absurd hall hnot
  · have hnew := AList.lookup_eq_none.mp haccepted.1.new
    have hok := hrest.isOk_iff _ _ _ (hself.entered hnew hentered) hrest'
    cases r with
    | ok a => exact iff_of_true nofun fun _ => hok.mp ⟨a, rfl⟩
    | error st =>
      refine iff_of_false (fun hsame => hnew ?_) fun hcondition => ?_
      · -- the first segment is still there
        rw [← (hsame st rfl).segments]
        refine hrest.keeps _ _ _ hrest' op.name ?_
        obtain ⟨-, info, hsegments⟩ := hentered
        rw [hsegments]
        exact mem_insertNew.mpr (.inl rfl)
      · obtain ⟨a, ha⟩ := hok.mpr (hcondition haccepted)
        cases ha

omit [DecidableEq S] in
/-- **When a function that begins with `AddSegment` is all-or-nothing.** -/
theorem allOrNothing_iff {Calls : Type} {create : Calls → Creation V S H α}
    (addCalls : Calls → SystemCalls) (op : AddSegment V) (rest : Calls → Creation V S H α)
    {condition : Calls → Prop} {calls : Calls} {p p' : Process V S H} {r : Except Status α}
    (hcreate : ∀ calls, create calls =
      .addSegment sizeofSegmentHeader uint8Name (addCalls calls) op (rest calls))
    (hadded : op.name ∉ added)
    (hrest : ∀ calls, Creates p.manager [op.name] added (condition calls) (rest calls))
    (h : create calls p = some (p', r)) :
    AllOrNothing create (op.name :: added) p p' r ↔
      (p.manager.Fits sizeofSegmentHeader uint8Name [] (addCalls calls) op →
        condition calls) := by
  rw [hcreate] at h
  rw [← sameRegistry_iff rfl (hrest calls) h]
  refine ⟨AllOrNothing.same, fun hsame => ⟨hsame, ?_⟩⟩
  intro st hst calls' p'' st' hcall hcode
  rw [hcreate] at hcall
  obtain ⟨name, hname, hmem⟩ :=
    (Creates.addSegment rfl hadded (hrest calls')).alreadyExists _ _ _ hcall hcode
  rw [(hsame st hst).segments] at hmem
  exact ⟨name, hname, hmem⟩

end Rules

/-- What the system calls of a creation return. -/
structure CreateCalls where
  firstAdd : SharedMemoryManager.SystemCalls
  secondAdd : SharedMemoryManager.SystemCalls
  firstGet : SharedMemory.GetCalls
  secondGet : SharedMemory.GetCalls

section Create
open SharedMemoryManager SharedMemory
variable {V S H : Type} [DecidableEq S] (sizeofSegmentHeader : Nat) (uint8Name : List UInt8)
  (file : Int → S)

def kSemRequestSuffix : List UInt8 := ascii ".req"

def kSemResponseSuffix : List UInt8 := ascii ".res"

/-- `AddSegment<T>(name, /*must_be_used=*/false, T())` -/
def SharedMemoryManager.AddSegment.withNewValue (T : PayloadType V)
    (name : Name) : AddSegment V :=
  .withValue T name false T.defaultValue none

/-- A `RemoteTriggerServer`, without its callback and its thread. -/
structure RemoteTriggerServer where
  serverMemoryName : Name
  requestFutex : MemorySegment
  responseFutex : MemorySegment

/-- `RemoteTriggerServer::Create`, where `T` is the type `BinaryFutex`. -/
def RemoteTriggerServer.create (T : PayloadType V) (serverMemoryName : Name)
    (calls : CreateCalls) : Creation V S H RemoteTriggerServer :=
  let requestName := serverMemoryName ++ kSemRequestSuffix
  let responseName := serverMemoryName ++ kSemResponseSuffix
  .addSegment sizeofSegmentHeader uint8Name calls.firstAdd
    (.withNewValue T requestName) <|
  .addSegment sizeofSegmentHeader uint8Name calls.secondAdd
    (.withNewValue T responseName) <|
  .get sizeofSegmentHeader file .readOnly T calls.firstGet requestName fun requestFutex =>
  .get sizeofSegmentHeader file .readWrite T calls.secondGet responseName fun responseFutex =>
  .ok ⟨serverMemoryName, requestFutex, responseFutex⟩

/-- `CreateSharedMemoryLockstep`, where `T` is the type `Lockstep`. -/
def createSharedMemoryLockstep {α : Type} (T : PayloadType V) (addCalls : SystemCalls)
    (getCalls : GetCalls) (memoryName : Name)
    (rest : MemorySegment → Creation V S H α) : Creation V S H α :=
  .addSegment sizeofSegmentHeader uint8Name addCalls
    (.withNewValue T memoryName) <|
  .get sizeofSegmentHeader file .readWrite T getCalls memoryName rest

def kRealtimeClockLockstepInterfaceName : List UInt8 := ascii "realtime_clock_lockstep"

def kRealtimeClockUpdateInterfaceName : List UInt8 := ascii "realtime_clock_update"

/-- The segments of a `RealtimeClock`. -/
structure RealtimeClock where
  lockstep : MemorySegment
  update : MemorySegment

/-- `RealtimeClock::Create`, where the types are `Lockstep` and `RealtimeClockUpdate`.  The
constructor, which then starts operation A, returns no error. -/
def RealtimeClock.create (L U : PayloadType V) (calls : CreateCalls) :
    Creation V S H RealtimeClock :=
  createSharedMemoryLockstep sizeofSegmentHeader uint8Name file L calls.firstAdd calls.firstGet
    kRealtimeClockLockstepInterfaceName fun lockstep =>
  .addSegment sizeofSegmentHeader uint8Name calls.secondAdd
    (.withDefaultValue U kRealtimeClockUpdateInterfaceName false none) <|
  .get sizeofSegmentHeader file .readWrite U calls.secondGet
    kRealtimeClockUpdateInterfaceName fun update =>
  .ok ⟨lockstep, update⟩

variable {sizeofSegmentHeader uint8Name file} {w : SharedMemoryManager.World V}

/-- What `RemoteTriggerServer::Create` does after the first segment. -/
theorem RemoteTriggerServer.creates_rest (T : PayloadType V) (name : Name)
    (calls : CreateCalls) :
    let requestName := name ++ kSemRequestSuffix
    let responseName := name ++ kSemResponseSuffix
    Creates w [requestName] [responseName]
      (w.Fits sizeofSegmentHeader uint8Name [requestName] calls.secondAdd
          (.withNewValue T responseName) ∧
        calls.firstGet.Succeed sizeofSegmentHeader T.sizeof ∧
        calls.secondGet.Succeed sizeofSegmentHeader T.sizeof ∧ True)
      (.addSegment sizeofSegmentHeader uint8Name calls.secondAdd (.withNewValue T responseName) <|
      .get sizeofSegmentHeader file .readOnly T calls.firstGet requestName fun requestFutex =>
      .get sizeofSegmentHeader file .readWrite T calls.secondGet responseName fun responseFutex =>
      .ok ⟨name, requestFutex, responseFutex⟩ : Creation V S H RemoteTriggerServer) :=
  .addSegment rfl List.not_mem_nil <| .get (List.mem_cons_of_mem _ List.mem_cons_self) fun _ =>
    .get List.mem_cons_self fun _ => .ok _

/-- What `RealtimeClock::Create` does after the first segment. -/
theorem RealtimeClock.creates_rest (L U : PayloadType V) (calls : CreateCalls) :
    let lockstepName := kRealtimeClockLockstepInterfaceName
    let updateName := kRealtimeClockUpdateInterfaceName
    Creates w [lockstepName] [updateName]
      (calls.firstGet.Succeed sizeofSegmentHeader L.sizeof ∧
        w.Fits sizeofSegmentHeader uint8Name [lockstepName] calls.secondAdd
          (.withDefaultValue U updateName false none) ∧
        calls.secondGet.Succeed sizeofSegmentHeader U.sizeof ∧ True)
      (.get sizeofSegmentHeader file .readWrite L calls.firstGet lockstepName fun lockstep =>
      .addSegment sizeofSegmentHeader uint8Name calls.secondAdd
        (.withDefaultValue U updateName false none) <|
      .get sizeofSegmentHeader file .readWrite U calls.secondGet updateName fun update =>
      .ok ⟨lockstep, update⟩ : Creation V S H RealtimeClock) :=
  .get List.mem_cons_self fun _ =>
    .addSegment rfl List.not_mem_nil <| .get List.mem_cons_self fun _ => .ok _

/-- **`RemoteTriggerServer::Create` and `RealtimeClock::Create` are all-or-nothing**, for every
manager and every pattern of failing system calls, if and only if, once the first of their two
segments can be registered, none of the other parts fails:
* there is room for the second segment too, it is new, and its name and type id are valid;
* the system calls of its registration succeed;
* so do those of either `Get`, and the segments are large enough. -/
theorem create_all_or_nothing_iff (T L U : PayloadType V) (name : Name)
    (calls : CreateCalls) (p : Process V S H) :
    (∀ p' r, RemoteTriggerServer.create sizeofSegmentHeader uint8Name file T name calls p =
        some (p', r) →
      (AllOrNothing (RemoteTriggerServer.create sizeofSegmentHeader uint8Name file T name)
          [name ++ kSemRequestSuffix, name ++ kSemResponseSuffix] p p' r ↔
        (p.manager.Fits sizeofSegmentHeader uint8Name [] calls.firstAdd
            (.withNewValue T (name ++ kSemRequestSuffix)) →
          p.manager.Fits sizeofSegmentHeader uint8Name [name ++ kSemRequestSuffix] calls.secondAdd
              (.withNewValue T (name ++ kSemResponseSuffix)) ∧
            calls.firstGet.Succeed sizeofSegmentHeader T.sizeof ∧
            calls.secondGet.Succeed sizeofSegmentHeader T.sizeof))) ∧
    (∀ p' r, RealtimeClock.create sizeofSegmentHeader uint8Name file L U calls p = some (p', r) →
      (AllOrNothing (RealtimeClock.create sizeofSegmentHeader uint8Name file L U)
          [kRealtimeClockLockstepInterfaceName, kRealtimeClockUpdateInterfaceName] p p' r ↔
        (p.manager.Fits sizeofSegmentHeader uint8Name [] calls.firstAdd
            (.withNewValue L kRealtimeClockLockstepInterfaceName) →
          calls.firstGet.Succeed sizeofSegmentHeader L.sizeof ∧
            p.manager.Fits sizeofSegmentHeader uint8Name [kRealtimeClockLockstepInterfaceName]
              calls.secondAdd (.withDefaultValue U kRealtimeClockUpdateInterfaceName false none) ∧
            calls.secondGet.Succeed sizeofSegmentHeader U.sizeof))) := by
  constructor
  · intro p' r hserver
    have hne : name ++ kSemRequestSuffix ∉ [name ++ kSemResponseSuffix] := by
      rw [List.mem_singleton]
      exact fun heq => absurd (List.append_cancel_left heq) (by decide)
    have hiff := allOrNothing_iff CreateCalls.firstAdd
      (.withNewValue T (name ++ kSemRequestSuffix)) _ (fun _ => rfl) hne
      (RemoteTriggerServer.creates_rest T name) hserver
    rwa [and_true] at hiff
  · intro p' r hclock
    have hne : kRealtimeClockLockstepInterfaceName ∉ [kRealtimeClockUpdateInterfaceName] := by
      decide
    have hiff := allOrNothing_iff CreateCalls.firstAdd
      (.withNewValue L kRealtimeClockLockstepInterfaceName) _ (fun _ => rfl) hne
      (RealtimeClock.creates_rest L U) hclock
    rwa [and_true] at hiff

end Create

section Example
open SharedMemoryManager SharedMemory

/-- A process without segments. -/
def Process.new : Process Unit Int Unit :=
  ⟨SharedMemoryManager.World.init (fun _ => none) fun _ => none, SharedMemory.World.init⟩

/-- All the system calls succeed, for types of eight bytes and headers of 64. -/
def CreateCalls.succeeding : CreateCalls :=
  ⟨SharedMemoryManager.succeeding 3 4096 72, SharedMemoryManager.succeeding 4 8192 72,
    ⟨.ok 72, .ok 12288, .ok ()⟩, ⟨.ok 72, .ok 16384, .ok ()⟩⟩

/-- The first segment cannot be created: nothing is registered. -/
theorem create_all_or_nothing_first_fails :
    let T : PayloadType Unit := ⟨8, ascii "T", ()⟩
    let calls : CreateCalls := { CreateCalls.succeeding with
      firstAdd := ⟨.error [], .ok (), .ok 72, .ok 4096, .ok (), .ok ()⟩ }
    ∃ p₁ r₁ p₂ r₂,
      RemoteTriggerServer.create 64 (ascii "h") id T (ascii "clear") calls Process.new =
        some (p₁, .error r₁) ∧
      RealtimeClock.create 64 (ascii "h") id T T calls Process.new = some (p₂, .error r₂) ∧
      AllOrNothing (RemoteTriggerServer.create 64 (ascii "h") id T (ascii "clear"))
        [ascii "clear" ++ kSemRequestSuffix, ascii "clear" ++ kSemResponseSuffix]
        Process.new p₁ (.error r₁) ∧
      AllOrNothing (RealtimeClock.create 64 (ascii "h") id T T)
        [kRealtimeClockLockstepInterfaceName, kRealtimeClockUpdateInterfaceName]
        Process.new p₂ (.error r₂) := by
  intro T calls
  have hnot : ∀ size, ¬ calls.firstAdd.Succeed size := by
    rintro size ⟨fd, address, hfd, -⟩
    cases hfd
  obtain ⟨hserver, hclock⟩ := @create_all_or_nothing_iff _ _ _ _ 64 (ascii "h") id T T T
    (ascii "clear") calls Process.new
  exact ⟨_, _, _, _, rfl, rfl, (hserver _ _ rfl).mpr fun h => absurd h.calls (hnot _),
    (hclock _ _ rfl).mpr fun h => absurd h.calls (hnot _)⟩

/-- **The second segment cannot be created: the first stays registered**, and the next call
fails because of it. -/
theorem create_keeps_first_segment :
    let T : PayloadType Unit := ⟨8, ascii "T", ()⟩
    let calls : CreateCalls := { CreateCalls.succeeding with
      secondAdd := ⟨.error [], .ok (), .ok 72, .ok 8192, .ok (), .ok ()⟩ }
    let create := RemoteTriggerServer.create 64 (ascii "h") id T (ascii "clear")
    let createClock := RealtimeClock.create 64 (ascii "h") id T T
    Process.new.manager.memorySegments.keys = [] ∧
    (∃ p₁ st₁ p₂ st₂, create calls Process.new = some (p₁, .error st₁) ∧
      p₁.manager.memorySegments.keys = [ascii "clear.req"] ∧
      create .succeeding p₁ = some (p₂, .error st₂) ∧ st₂.code = .alreadyExists) ∧
    ∃ p₁ st₁ p₂ st₂, createClock calls Process.new = some (p₁, .error st₁) ∧
      p₁.manager.memorySegments.keys = [ascii "realtime_clock_lockstep"] ∧
      createClock .succeeding p₁ = some (p₂, .error st₂) ∧ st₂.code = .alreadyExists :=
  ⟨rfl, ⟨_, _, _, _, rfl, rfl, rfl, rfl⟩, ⟨_, _, _, _, rfl, rfl, rfl, rfl⟩⟩

end Example

end Intrinsic
