import IconSharedMemory.CompositeCreation
import IconSharedMemory.DomainSocketShortSends
import IconSharedMemory.SegmentInfoUtils

/-! # Hardware interfaces, from the module to ICON

A hardware module advertises an interface (`hardware_interface_registry.h`): it builds a
flatbuffer, registers a segment of its size under the name and with the type string of the
interface, and copies the flatbuffer behind the header.  ICON receives the map from names to
descriptors over the domain socket, maps the segment of a name and checks what it finds there
against the type it wants (`get_hardware_interface.h`).  Between the two there is nothing but the
name and what is in memory.

The model puts these parts together.  `Content` is what a reader finds in a segment; it belongs to
the file and not to a mapping, so both processes see the same.  A segment keeps its content and its
descriptor from the call that registered it on (`offers_run`), no two segments share a descriptor
(`Distinct`), and the transfer binds each name to a duplicate of its descriptor.  So ICON gets a
handle for an interface if and only if it asks for the type that was advertised and the flatbuffer
can be verified (`advertised_interface_reaches_icon`).
-/
namespace Intrinsic.HardwareInterfaces
open Runs DomainSocket SharedMemoryManager SharedMemory

/-- The bytes of an object. -/
abbrev Bytes := List UInt8

/-! ## Reading an interface -/

/-- `SegmentHeader::ExpectedVersion` -/
def expectedVersion : Nat := 4

/-- What is in a segment: the members of its header that a reader checks, and the value. -/
structure Content where
  version : Nat
  typeId : Bytes
  payload : Bytes

/-- A type of interfaces: `sizeof`, `TypeID<T>::kTypeString`, whether it is a flatbuffer table, and
the verifier for it. -/
structure InterfaceType where
  sizeof : Nat
  kTypeString : Bytes
  isTable : Bool
  verifyBuffer : Bytes → Bool

/-- `SegmentHeaderIsValid` -/
def segmentHeaderIsValid (T : InterfaceType) (c : Content) (interfaceName : Name) :
    Status :=
  if c.version ≠ expectedVersion then
    formatStatus .invalidArgument (ascii "Version mismatch: Interface '" ++ interfaceName ++
      ascii "' has version '" ++ ascii (toString c.version) ++
      ascii "' but expected version '" ++ ascii (toString expectedVersion) ++ ascii "'")
  else if c.typeId ≠ T.kTypeString then
    formatStatus .invalidArgument (ascii "Type mismatch: Interface '" ++ interfaceName ++
      ascii "' has type '" ++ c.typeId ++ ascii "' but expected type '" ++ T.kTypeString ++
      ascii "'")
  else okStatus

/-- `FlatbufferIsValid` -/
def flatbufferIsValid (T : InterfaceType) (buffer : Bytes) (interfaceName : Name) :
    Status :=
  if T.isTable = true ∧ T.verifyBuffer buffer = false then
    formatStatus .invalidArgument
      (ascii "Flatbuffer verification failed for interface '" ++ interfaceName ++
        ascii "'. This can be due to a version mismatch of your resources.")
  else okStatus

/-- **The content is that of an interface of the type.** -/
structure InterfaceType.Accepts (T : InterfaceType) (c : Content) : Prop where
  version : c.version = expectedVersion
  typeId : c.typeId = T.kTypeString
  verified : T.isTable = true → T.verifyBuffer c.payload = true

theorem accepts_iff (T : InterfaceType) (c : Content) (name : Name) :
    (segmentHeaderIsValid T c name).isOk = true ∧ (flatbufferIsValid T c.payload name).isOk = true ↔
      T.Accepts c := by
  unfold segmentHeaderIsValid flatbufferIsValid
  constructor
  · rintro ⟨hheader, hbuffer⟩
    split at hheader
    · cases hheader
    · next hversion =>
      split at hheader
      · cases hheader
      · next htype =>
        split at hbuffer
        · cases hbuffer
        · next hverified =>
          refine ⟨not_not.mp hversion, not_not.mp htype, fun htable => ?_⟩
          by_contra hfails
          exact hverified ⟨htable, eq_false_of_ne_true hfails⟩
  · rintro ⟨hversion, htype, hverified⟩
    have hbuffer : ¬ (T.isTable = true ∧ T.verifyBuffer c.payload = false) := by
      rintro ⟨htable, hfails⟩
      cases (hverified htable).symm.trans hfails
    rw [if_neg (not_not_intro hversion), if_neg (not_not_intro htype), if_neg hbuffer]
    exact ⟨rfl, rfl⟩

section Get
variable {S H : Type} [DecidableEq S] (sizeofSegmentHeader : Nat) (content : S → Option Content)

/-- The body of `GetInterfaceHandle` and `GetMutableInterfaceHandle`, which differ in the class of
the handle.  There is no result if nothing is known about the content of the segment. -/
def interfaceHandle (cls : HandleClass) (T : InterfaceType) (w : SharedMemory.World S H)
    (file : Int → S) (calls : GetCalls) (m : SegmentNameToFileDescriptorMap)
    (interfaceName : Name) :
    Option (SharedMemory.World S H × Except Status MemorySegment) :=
  match cls.get sizeofSegmentHeader T.sizeof w file calls m interfaceName with
  | none => none
  | some (w, .error st) => some (w, .error st)
  | some (w, .ok segment) =>
    match (segment.header.bind w.maps).bind fun mapping => content mapping.segment with
    | none => none
    | some c =>
      -- an error destroys the segment
      if (segmentHeaderIsValid T c interfaceName).isOk = false then
        (w.cleanUpSharedMemory segment).map fun w =>
          (w, .error (segmentHeaderIsValid T c interfaceName))
      else if (flatbufferIsValid T c.payload interfaceName).isOk = false then
        (w.cleanUpSharedMemory segment).map fun w =>
          (w, .error (flatbufferIsValid T c.payload interfaceName))
      else some (w, .ok segment)

def getInterfaceHandle (T : InterfaceType) (w : SharedMemory.World S H) (file : Int → S)
    (calls : GetCalls) (m : SegmentNameToFileDescriptorMap) (interfaceName : Name) :
    Option (SharedMemory.World S H × Except Status MemorySegment) :=
  interfaceHandle sizeofSegmentHeader content .readOnly T w file calls m interfaceName

def getMutableInterfaceHandle (T : InterfaceType) (w : SharedMemory.World S H) (file : Int → S)
    (calls : GetCalls) (m : SegmentNameToFileDescriptorMap) (interfaceName : Name) :
    Option (SharedMemory.World S H × Except Status MemorySegment) :=
  interfaceHandle sizeofSegmentHeader content .readWrite T w file calls m interfaceName

/-- `kIconStateInterfaceName` -/
def kIconStateInterfaceName : Name := ascii "icon_state"

/-- The body of `GetStrictInterfaceHandle` and `GetMutableStrictInterfaceHandle`: a handle to the
interface, and one to ICON's state. -/
def strictInterfaceHandle (cls : HandleClass) (T iconState : InterfaceType)
    (w : SharedMemory.World S H) (file : Int → S) (calls iconStateCalls : GetCalls)
    (m : SegmentNameToFileDescriptorMap) (interfaceName : Name) :
    Option (SharedMemory.World S H × Except Status (MemorySegment × MemorySegment)) :=
  match interfaceHandle sizeofSegmentHeader content cls T w file calls m interfaceName with
  | none => none
  | some (w, .error st) => some (w, .error st)
  | some (w, .ok handle) =>
    match interfaceHandle sizeofSegmentHeader content .readOnly iconState w file iconStateCalls m
      kIconStateInterfaceName with
    | none => none
    -- the handle to the interface is destroyed
    | some (w, .error st) => (w.cleanUpSharedMemory handle).map fun w => (w, .error st)
    | some (w, .ok iconStateHandle) => some (w, .ok (handle, iconStateHandle))

end Get

section GetSpec
variable {S H : Type} [DecidableEq S] {sizeofSegmentHeader : Nat} {content : S → Option Content}
  {cls : HandleClass} {T : InterfaceType} {w w' : SharedMemory.World S H} {file : Int → S}
  {calls : GetCalls} {m : SegmentNameToFileDescriptorMap} {name : Name}
  {r : Except Status MemorySegment} {shmFd : Int} {c : Content}

/-- A handle that has just been made is given back. -/
theorem cleanUp_new {address : Nat} (hfree : w.maps address = none) (cls : HandleClass)
    (segment : S) (size : Nat) (headers : S → SegmentHeader) (name : String)
    (value : Option Nat) :
    ∃ w', ({ w.mmap address segment size cls with headers := headers }).cleanUpSharedMemory
        ⟨name, some address, value, size, cls.kind⟩ = some w' ∧ w'.maps = w.maps := by
  have hmaps : Function.update (Function.update w.maps address
      (some ⟨w.created, segment, size, cls⟩)) address none = w.maps := by
    rw [Function.update_idem, ← hfree, Function.update_eq_self]
  unfold World.cleanUpSharedMemory World.updateHeader World.munmap World.mmap
  simp only [Function.update_self, Option.bind_eq_bind, Option.bind_some, if_true, hmaps]
  exact ⟨_, rfl, rfl⟩

/-- The system calls and the size are all that `Get` needs. -/
theorem interfaceHandle_of_not_succeed (hfound : m.entries.lookup name = some shmFd)
    (hvalid : shmFd ≠ -1) (hcalls : ¬ calls.Succeed sizeofSegmentHeader T.sizeof)
    (h : interfaceHandle sizeofSegmentHeader content cls T w file calls m name = some (w', r)) :
    ∃ st, r = .error st := by
  unfold interfaceHandle at h
  split at h
  · cases h
  · cases h
    exact ⟨_, rfl⟩
  · next hget =>
    exact absurd ((typedGet_isOk_iff hfound hvalid hget).mp ⟨_, rfl⟩) hcalls

/-- A `Get` that succeeds leaves the decision to the checks.  If they fail, the mapping is
given back. -/
theorem interfaceHandle_of_succeed (hfound : m.entries.lookup name = some shmFd)
    (hvalid : shmFd ≠ -1) (hcontent : content (file shmFd) = some c)
    (hcalls : calls.Succeed sizeofSegmentHeader T.sizeof)
    (h : interfaceHandle sizeofSegmentHeader content cls T w file calls m name = some (w', r)) :
    (T.Accepts c ∧ ∃ segment address, r = .ok segment ∧ segment.header = some address ∧
      ∃ mapping, w'.maps address = some mapping ∧ mapping.segment = file shmFd) ∨
    ¬ T.Accepts c ∧ (∃ st, r = .error st) ∧ w'.maps = w.maps := by
  obtain ⟨size, address, hstat, hsize, hmmap, hlock, hfits⟩ := hcalls
  have hmaps : calls.Maps sizeofSegmentHeader m name shmFd size address :=
    ⟨hfound, hvalid, hstat, hsize, hmmap⟩
  unfold interfaceHandle at h
  cases hget : cls.get sizeofSegmentHeader T.sizeof w file calls m name with
  | none =>
    rw [hget] at h
    cases h
  | some result =>
    obtain ⟨w₁, r₁⟩ := result
    have hfree := typedGet_free hmaps hget
    rw [typedGet_ok hmaps hfree hlock hfits] at h
    simp only [Option.bind_some, World.mmap, Function.update_self, hcontent] at h
    rw [← accepts_iff T c name]
    obtain ⟨w₂, hclean, hsame⟩ := cleanUp_new hfree cls (file shmFd) size
      (Function.update w.headers (file shmFd) ((w.headers (file shmFd)).increment cls.kind))
      (nameOf name) (some (address + sizeofSegmentHeader))
    rw [World.mmap] at hclean
    split at h
    · next hheader =>
      rw [hclean] at h
      cases h
      exact .inr ⟨fun hok => absurd (hok.1.symm.trans hheader) (by decide), ⟨_, rfl⟩, hsame⟩
    · next hheader =>
      split at h
      · next hbuffer =>
        rw [hclean] at h
        cases h
        exact .inr ⟨fun hok => absurd (hok.2.symm.trans hbuffer) (by decide), ⟨_, rfl⟩, hsame⟩
      · next hbuffer =>
        cases h
        exact .inl ⟨⟨eq_true_of_ne_false hheader, eq_true_of_ne_false hbuffer⟩, _, address, rfl,
          rfl, _, Function.update_self .., rfl⟩

/-- A handle that is destroyed at once leaves no mapping behind. -/
theorem cleanUp_interfaceHandle {segment : MemorySegment}
    (h : interfaceHandle sizeofSegmentHeader content cls T w file calls m name =
      some (w', .ok segment)) :
    ∃ w'', w'.cleanUpSharedMemory segment = some w'' ∧ w''.maps = w.maps := by
  have hget : cls.get sizeofSegmentHeader T.sizeof w file calls m name =
      some (w', .ok segment) := by
    unfold interfaceHandle at h
    split at h
    · cases h
    · cases h
    · next hget =>
      split at h
      · cases h
      · split at h
        · obtain ⟨_, -, heq⟩ := Option.map_eq_some_iff.mp h
          cases heq
        · split at h
          · obtain ⟨_, -, heq⟩ := Option.map_eq_some_iff.mp h
            cases heq
          · cases h
            exact hget
  by_cases hmaps : ∃ shmFd size address,
      calls.Maps sizeofSegmentHeader m name shmFd size address
  · obtain ⟨shmFd, size, address, hmaps⟩ := hmaps
    have hfree := typedGet_free hmaps hget
    by_cases hall : calls.mlock = .ok () ∧ (T.sizeof + sizeofSegmentHeader) % 2 ^ 64 ≤ size
    · cases (typedGet_ok hmaps hfree hall.1 hall.2).symm.trans hget
      exact cleanUp_new hfree cls (file shmFd) size _ _ _
    · obtain ⟨st, herror⟩ := @typedGet_error _ _ _ _ _ _ w file cls _ _ _ _ _ hmaps hfree hall
      cases herror.symm.trans hget
  · obtain ⟨st, herror⟩ := typedGet_of_not_maps w file cls T.sizeof
      fun shmFd size address h => hmaps ⟨shmFd, size, address, h⟩
    cases herror.symm.trans hget

/-- A name that is not in the map. -/
theorem interfaceHandle_of_not_found (hnone : m.entries.lookup name = none) :
    ∃ st, interfaceHandle sizeofSegmentHeader content cls T w file calls m name =
      some (w, .error st) ∧ st.code = .notFound := by
  unfold interfaceHandle HandleClass.get MemorySegment.get
  rw [hnone]
  exact ⟨_, rfl, rfl⟩

/-- **Without ICON's state there is no strict handle**, and no mapping is left behind if the
system calls of the first `Get` succeed. -/
theorem strictInterfaceHandle_of_not_found {iconState : InterfaceType} {iconStateCalls : GetCalls}
    {r : Except Status (MemorySegment × MemorySegment)}
    (hnone : m.entries.lookup kIconStateInterfaceName = none)
    (hfound : m.entries.lookup name = some shmFd) (hvalid : shmFd ≠ -1)
    (hcontent : content (file shmFd) = some c)
    (h : strictInterfaceHandle sizeofSegmentHeader content cls T iconState w file calls
      iconStateCalls m name = some (w', r)) :
    (∃ st, r = .error st) ∧
      (calls.Succeed sizeofSegmentHeader T.sizeof → w'.maps = w.maps) := by
  unfold strictInterfaceHandle at h
  split at h
  · cases h
  · next w₁ st hhandle =>
    cases h
    refine ⟨⟨st, rfl⟩, fun hcalls => ?_⟩
    rcases interfaceHandle_of_succeed hfound hvalid hcontent hcalls hhandle with
      ⟨-, segment, -, hok, -⟩ | ⟨-, -, hsame⟩
    · cases hok
    · exact hsame
  · next w₁ handle hhandle =>
    obtain ⟨st, herror, -⟩ := @interfaceHandle_of_not_found S H _ sizeofSegmentHeader content
      .readOnly iconState w₁ file iconStateCalls m kIconStateInterfaceName hnone
    obtain ⟨w₂, hclean, hsame⟩ := cleanUp_interfaceHandle hhandle
    rw [herror] at h
    dsimp only at h
    rw [hclean] at h
    cases h
    exact ⟨⟨st, rfl⟩, fun _ => hsame⟩

end GetSpec

/-! ## Advertising an interface -/

section Advertise
variable (sizeofSegmentHeader : Nat) (uint8Name : Bytes)

/-- `HardwareInterfaceRegistry::AdvertiseInterfaceT`.  There is no result if nothing is mapped
where the flatbuffer is copied to. -/
def advertiseInterfaceT (w : SharedMemoryManager.World Bytes) (calls : SystemCalls)
    (interfaceName : Name) (mustBeUsed : Bool) (buffer typeId : Bytes) :
    Option (SharedMemoryManager.World Bytes × Status) :=
  match w.addSegment sizeofSegmentHeader uint8Name calls
    (.withPayloadSize interfaceName mustBeUsed buffer.length (some typeId)) with
  | none => none
  | some (w, st) =>
    if st.isOk then
      match w.getRawSegment interfaceName with
      | none => none
      | some shmData =>
        match w.memory shmData with
        | none => none
        | some segment =>
          some (w.setMemory shmData { segment with value := some buffer }, okStatus)
    else some (w, st)

/-- The call of `AddSegment` that an interface could be registered with. -/
def interfaceSegment (interfaceName : Name) (mustBeUsed : Bool)
    (buffer typeId : Bytes) : AddSegment Bytes :=
  .withValue ⟨buffer.length, typeId, []⟩ interfaceName mustBeUsed buffer (some typeId)

variable {sizeofSegmentHeader uint8Name} {w w' : SharedMemoryManager.World Bytes}
  {calls : SystemCalls} {name : Name} {mustBeUsed : Bool} {buffer typeId : Bytes}

/-- **Advertising an interface is adding a segment with the flatbuffer as its value.** -/
theorem advertiseInterfaceT_eq :
    advertiseInterfaceT sizeofSegmentHeader uint8Name w calls name mustBeUsed buffer typeId =
      w.addSegment sizeofSegmentHeader uint8Name calls
        (interfaceSegment name mustBeUsed buffer typeId) := by
  unfold advertiseInterfaceT interfaceSegment World.addSegment World.addValue
  simp only [Option.getD_some]
  cases hinit : w.initSegment sizeofSegmentHeader calls name mustBeUsed buffer.length typeId with
  | none => rfl
  | some result =>
    obtain ⟨w₁, st⟩ := result
    dsimp only
    rcases initSegment_spec hinit with ⟨hst, -⟩ | ⟨rfl, info, -, hregisters⟩
    · rw [hst]
      rfl
    · have hdata : w₁.getRawSegment name = some info.data := by
        rw [World.getRawSegment, hregisters.enters.segments, lookup_insertNew hregisters.new,
          if_pos rfl, Option.map_some]
      unfold World.setSegmentValue
      rw [hdata]
      dsimp only
      cases w₁.memory info.data <;> rfl

/-- What `InitSegment` constructs: a header with the type id, and no value yet. -/
theorem createSegment_content {segmentSize : Nat} (hnew : w.memorySegments.lookup name = none)
    (htypeId : typeId.length ≤ kMaxTypeIdSize)
    (h : w.createSegment calls name mustBeUsed segmentSize typeId = some (w', okStatus)) :
    ∃ info, w'.memorySegments.lookup name = some info ∧ info.mustBeUsed = mustBeUsed ∧
      w'.memory info.data = some ⟨some typeId, none⟩ := by
  unfold World.createSegment at h
  split at h
  · cases h
  · next fd hfd =>
    split at h
    · cases h
    · split at h
      · cases h
      · next w₁ st hmap =>
        cases h
        cases (mapSegment_spec hmap).2.1 okStatus rfl
      · next w₁ data hmap =>
        cases h
        have hnone : w₁.memorySegments.lookup name = none := by
          rw [(mapSegment_spec hmap).1.segments]
          exact hnew
        refine ⟨⟨data, segmentSize, mustBeUsed, fd⟩, ?_, rfl, ?_⟩
        · exact (lookup_insertNew hnone _ name).trans (if_pos rfl)
        · show Function.update w₁.memory data
            (some ⟨some (typeId.take kMaxTypeIdSize), none⟩) data = _
          rw [Function.update_self, List.take_of_length_le htypeId]

theorem initSegment_content {payloadSize : Nat}
    (h : w.initSegment sizeofSegmentHeader calls name mustBeUsed payloadSize typeId =
      some (w', okStatus)) :
    ∃ info, w'.memorySegments.lookup name = some info ∧ info.mustBeUsed = mustBeUsed ∧
      w'.memory info.data = some ⟨some typeId, none⟩ := by
  unfold World.initSegment at h
  split at h
  · cases h
  · split at h
    · cases h
    · next htypeId =>
      split at h
      · cases h
      · next hnew =>
        split at h
        · next hinvalid =>
          obtain ⟨-, hst⟩ := Prod.mk.inj (Option.some.inj h)
          rw [hst] at hinvalid
          cases hinvalid
        · exact createSegment_content (Option.not_isSome_iff_eq_none.mp hnew)
            (Nat.le_of_not_lt htypeId) h

end Advertise

/-! ## What a module offers -/

section Offers
variable {sizeofSegmentHeader : Nat} {uint8Name : Bytes} {w w' : SharedMemoryManager.World Bytes}
  {files : Nat → Option Nat} {memory : Nat → Option (Segment Bytes)}
  {ops : List (Called Bytes)} {name : Name} {mustBeUsed : Bool}
  {buffer typeId : Bytes} {info : MemorySegmentInfo}

/-- **The segment of this name is the one that was advertised.** -/
structure Offers (w : SharedMemoryManager.World Bytes) (name : Name)
    (typeId buffer : Bytes) (info : MemorySegmentInfo) : Prop where
  registered : w.memorySegments.lookup name = some info
  memory : w.memory info.data = some ⟨some typeId, some buffer⟩

/-- A new segment with a value. -/
theorem offers_of_addValue {calls : SystemCalls} {sizeof : Nat}
    (h : w.addValue sizeofSegmentHeader calls name mustBeUsed sizeof buffer typeId =
      some (w', okStatus)) :
    ∃ info, info.mustBeUsed = mustBeUsed ∧ Offers w' name typeId buffer info := by
  unfold World.addValue at h
  split at h
  · cases h
  · next w₁ st hinit =>
    rcases initSegment_spec hinit with ⟨hst, -⟩ | ⟨rfl, -⟩
    · rw [hst] at h
      cases h
      cases hst
    · obtain ⟨info, hlookup, hused, hmemory⟩ := initSegment_content hinit
      unfold World.setSegmentValue World.getRawSegment at h
      rw [hlookup] at h
      simp only [Option.map_some, hmemory] at h
      cases h
      exact ⟨info, hused, hlookup, Function.update_self ..⟩

/-- A new interface. -/
theorem offers_of_add {calls : SystemCalls}
    (h : w.addSegment sizeofSegmentHeader uint8Name calls
      (interfaceSegment name mustBeUsed buffer typeId) = some (w', okStatus)) :
    ∃ info, info.mustBeUsed = mustBeUsed ∧ Offers w' name typeId buffer info :=
  offers_of_addValue h

/-- **A segment stays as it is** whatever is registered afterwards. -/
theorem Offers.step {c : Called Bytes} (h : Offers w name typeId buffer info) (hw : Consistent w)
    (hs : SharedMemoryManager.Step sizeofSegmentHeader uint8Name w c w') :
    Offers w' name typeId buffer info := by
  rcases step_spec hw hs with ⟨-, hsame⟩ | ⟨-, new, -, hreg⟩
  · exact ⟨hsame.segments ▸ h.registered, (hsame.memory name info h.registered).trans h.memory⟩
  · have hne : name ≠ c.op.name := by
      rintro rfl
      cases hreg.new.symm.trans h.registered
    refine ⟨?_, (hreg.enters.memory _ (hw.backed name info h.registered).2).trans h.memory⟩
    rw [hreg.enters.segments, lookup_insertNew hreg.new, if_neg hne]
    exact h.registered

/-- Different segments have different keys, such as their descriptors or their addresses. -/
def DistinctBy (key : MemorySegmentInfo → Nat) (w : SharedMemoryManager.World Bytes) : Prop :=
  ∀ name name' info info', w.memorySegments.lookup name = some info →
    w.memorySegments.lookup name' = some info' → key info = key info' → name = name'

theorem DistinctBy.registers {key : MemorySegmentInfo → Nat} {new : MemorySegmentInfo}
    (h : DistinctBy key w) (hreg : Registers name new w w')
    (hfresh : ∀ name info, w.memorySegments.lookup name = some info → key info ≠ key new) :
    DistinctBy key w' := by
  intro name name' info info' hinfo hinfo' hkey
  rw [hreg.enters.segments, lookup_insertNew hreg.new] at hinfo hinfo'
  split at hinfo
  · next heq =>
    cases hinfo
    split at hinfo'
    · next heq' => exact heq.trans heq'.symm
    · exact absurd hkey.symm (hfresh name' info' hinfo')
  · split at hinfo'
    · cases hinfo'
      exact absurd hkey (hfresh name info hinfo)
    · exact h name name' info info' hinfo hinfo' hkey

/-- **Different segments have different descriptors.** -/
def Distinct (w : SharedMemoryManager.World Bytes) : Prop := DistinctBy (·.fd) w

/-- The new descriptor was not open, those of the other segments were. -/
theorem Distinct.registers {new : MemorySegmentInfo} (h : Distinct w) (hw : Consistent w)
    (hreg : Registers name new w w') : Distinct w' := by
  refine DistinctBy.registers h hreg fun name info hinfo heq => ?_
  have hopen := (hw.backed name info hinfo).1
  rw [heq, hreg.enters.fresh.1] at hopen
  cases hopen

theorem Distinct.step {c : Called Bytes} (h : Distinct w) (hw : Consistent w)
    (hs : SharedMemoryManager.Step sizeofSegmentHeader uint8Name w c w') : Distinct w' := by
  rcases step_spec hw hs with ⟨-, hsame⟩ | ⟨-, new, -, hreg⟩
  · unfold Distinct DistinctBy
    rw [hsame.segments]
    exact h
  · exact h.registers hw hreg

theorem distinct_run (hrun : Run (SharedMemoryManager.Step sizeofSegmentHeader uint8Name)
    (World.init files memory) ops w) : Distinct w := by
  induction hrun with
  | nil => exact fun _ _ _ _ h => by cases h
  | snoc hrun hs ih => exact ih.step (consistent_run hrun) hs

end Offers

/-! ## What a reader finds -/

section Content
variable (sizeofSegmentHeader : Nat) {w : SharedMemoryManager.World Bytes}
  {name : Name} {info : MemorySegmentInfo} {buffer typeId : Bytes}

/-- What is in the file behind a descriptor of the module.  A new file is filled with zeros. -/
def contentOf (w : SharedMemoryManager.World Bytes) (file : Option Int) : Option Content := do
  let fd ← file
  let entry ← w.memorySegments.entries.find? fun entry => (entry.2.fd : Int) = fd
  let segment ← w.memory entry.2.data
  let typeId ← segment.typeId
  return ⟨expectedVersion, typeId,
    segment.value.getD (List.replicate (entry.2.length - sizeofSegmentHeader) 0)⟩

theorem find_registered (hw : Distinct w) (h : w.memorySegments.lookup name = some info) :
    (w.memorySegments.entries.find? fun entry => ((entry.2.fd : Int) = (info.fd : Int))) =
      some ⟨name, info⟩ := by
  have hmem : (⟨name, info⟩ : Sigma fun _ : Name => MemorySegmentInfo) ∈
      w.memorySegments.entries := AList.mem_lookup_iff.mp h
  cases hfind : w.memorySegments.entries.find? fun entry =>
      ((entry.2.fd : Int) = (info.fd : Int)) with
  | none => exact absurd (List.find?_eq_none.mp hfind _ hmem) (by simp)
  | some entry =>
    obtain ⟨name', info'⟩ := entry
    have hlookup : w.memorySegments.lookup name' = some info' :=
      AList.mem_lookup_iff.mpr (List.mem_of_find?_eq_some hfind)
    have hfd : info'.fd = info.fd := by
      have hfound := List.find?_some hfind
      simpa using hfound
    obtain rfl := hw name' name info' info hlookup h hfd
    rw [Option.some.inj (hlookup.symm.trans h)]

/-- **A reader finds what was advertised.** -/
theorem Offers.content (h : Offers w name typeId buffer info) (hw : Distinct w) :
    contentOf sizeofSegmentHeader w (some (info.fd : Int)) =
      some ⟨expectedVersion, typeId, buffer⟩ := by
  unfold contentOf
  simp only [Option.bind_eq_bind, Option.bind_some, find_registered hw h.registered, h.memory]
  rfl

end Content

/-! ## The registry -/

section Registry
variable {H : Type} (sizeofSegmentHeader : Nat) (uint8Name : Bytes)

/-- What the system calls return: those of `AddSegment`, and those of the one or two `Get`s. -/
structure AdvertiseCalls where
  add : SystemCalls
  get : GetCalls
  getIconState : GetCalls

/-- An interface is registered, and then there is a handle to it or an error.  The numbers of the
descriptors are those of this process. -/
def advertise {α : Type} (mustBeUsed : Bool) (T : InterfaceType) (calls : SystemCalls)
    (interfaceName : Name) (buffer : Bytes)
    (getHandle : (Option Int → Option Content) → (Int → Option Int) →
      SegmentNameToFileDescriptorMap → SharedMemory.World (Option Int) H →
      Option (SharedMemory.World (Option Int) H × Except Status α)) :
    Creation Bytes (Option Int) H α := fun p =>
  match advertiseInterfaceT sizeofSegmentHeader uint8Name p.manager calls interfaceName mustBeUsed
    buffer T.kTypeString with
  | none => none
  | some (manager, st) =>
    if st.isOk then
      match descriptorMap manager.segmentNameToFileDescriptorMap with
      | none => none
      | some m =>
        (getHandle (contentOf sizeofSegmentHeader manager) some m p.segments).map
          fun (segments, r) => (⟨manager, segments⟩, r)
    else some ({ p with manager }, .error st)

def advertiseInterface (T : InterfaceType) (calls : AdvertiseCalls)
    (interfaceName : Name) (buffer : Bytes) :
    Creation Bytes (Option Int) H MemorySegment :=
  advertise sizeofSegmentHeader uint8Name false T calls.add interfaceName buffer
    fun content file m w =>
      getInterfaceHandle sizeofSegmentHeader content T w file calls.get m interfaceName

def advertiseMutableInterface (T : InterfaceType) (calls : AdvertiseCalls)
    (interfaceName : Name) (buffer : Bytes) :
    Creation Bytes (Option Int) H MemorySegment :=
  advertise sizeofSegmentHeader uint8Name false T calls.add interfaceName buffer
    fun content file m w =>
      getMutableInterfaceHandle sizeofSegmentHeader content T w file calls.get m interfaceName

/-- The body of the two functions for strict interfaces. -/
def advertiseStrict (cls : HandleClass) (T iconState : InterfaceType) (calls : AdvertiseCalls)
    (interfaceName : Name) (buffer : Bytes) :
    Creation Bytes (Option Int) H (MemorySegment × MemorySegment) :=
  advertise sizeofSegmentHeader uint8Name true T calls.add interfaceName buffer
    fun content file m w =>
      strictInterfaceHandle sizeofSegmentHeader content cls T iconState w file calls.get
        calls.getIconState m interfaceName

def advertiseStrictInterface (T iconState : InterfaceType) (calls : AdvertiseCalls)
    (interfaceName : Name) (buffer : Bytes) :
    Creation Bytes (Option Int) H (MemorySegment × MemorySegment) :=
  advertiseStrict sizeofSegmentHeader uint8Name .readOnly T iconState calls interfaceName buffer

def advertiseMutableStrictInterface (T iconState : InterfaceType) (calls : AdvertiseCalls)
    (interfaceName : Name) (buffer : Bytes) :
    Creation Bytes (Option Int) H (MemorySegment × MemorySegment) :=
  advertiseStrict sizeofSegmentHeader uint8Name .readWrite T iconState calls interfaceName buffer

variable {sizeofSegmentHeader uint8Name} {files : Nat → Option Nat}
  {memory : Nat → Option (Segment Bytes)} {ops : List (Called Bytes)}
  {w w' : SharedMemoryManager.World Bytes} {name : Name}
  {m : SegmentNameToFileDescriptorMap}

theorem lookup_descriptorMap {descriptors : AList fun _ : Name => Nat}
    (hm : descriptorMap descriptors = some m) (name : Name) :
    m.entries.lookup name = (descriptors.lookup name).map fun fd : Nat => (fd : Int) := by
  unfold descriptorMap at hm
  split at hm
  · cases hm
    exact lookup_map_entries _ name
  · cases hm

/-- **A name is registered once.**  Whatever is called afterwards, no call registers an interface
under a name that is offered. -/
theorem Offers.advertise_fails {typeId buffer typeId' buffer' : Bytes} {info : MemorySegmentInfo}
    {calls : SystemCalls} {mustBeUsed : Bool} {st : Status}
    (h : Offers w name typeId buffer info)
    (hadd : advertiseInterfaceT sizeofSegmentHeader uint8Name w calls name mustBeUsed buffer'
      typeId' = some (w', st)) : st.isOk = false := by
  rw [advertiseInterfaceT_eq] at hadd
  refine ((addSegment_outcome hadd).failure ?_).1
  rintro ⟨haccepts, -⟩
  cases h.registered.symm.trans haccepts.new

/-- A strict interface that is registered when ICON's state is not. -/
theorem advertiseStrict_registered {cls : HandleClass} {T iconState : InterfaceType}
    {calls : AdvertiseCalls} {buffer : Bytes}
    {segments segments' : SharedMemory.World (Option Int) H} {info : MemorySegmentInfo}
    {r : Except Status (MemorySegment × MemorySegment)}
    (hrun : Run (SharedMemoryManager.Step sizeofSegmentHeader uint8Name)
      (World.init files memory) ops w) (hoffers : Offers w name T.kTypeString buffer info)
    (hnone : kIconStateInterfaceName ∉ w.memorySegments)
    (hm : descriptorMap w.segmentNameToFileDescriptorMap = some m)
    (h : strictInterfaceHandle sizeofSegmentHeader (contentOf sizeofSegmentHeader w) cls T iconState
      segments some calls.get calls.getIconState m name = some (segments', r)) :
    (∃ st, r = .error st) ∧
      (calls.get.Succeed sizeofSegmentHeader T.sizeof → segments'.maps = segments.maps) := by
  have hw := consistent_run hrun
  have hfound : m.entries.lookup name = some (info.fd : Int) := by
    rw [lookup_descriptorMap hm, hw.descriptors, hoffers.registered]
    rfl
  have hicon : m.entries.lookup kIconStateInterfaceName = none := by
    rw [lookup_descriptorMap hm, hw.descriptors, AList.lookup_eq_none.mpr hnone]
    rfl
  exact strictInterfaceHandle_of_not_found hicon hfound (by omega)
    (hoffers.content sizeofSegmentHeader (distinct_run hrun)) h

/-- **A strict interface needs ICON's state to be advertised first.**  Otherwise the module gets
no handle to it, and yet, if the segment can be registered, the interface is offered to ICON as one
that must be used, and no later call can advertise it again. -/
theorem strict_interface_needs_icon_state {cls : HandleClass} {T iconState : InterfaceType}
    {calls : AdvertiseCalls} {buffer : Bytes} {p p' : Process Bytes (Option Int) H}
    {r : Except Status (MemorySegment × MemorySegment)}
    (hrun : Run (SharedMemoryManager.Step sizeofSegmentHeader uint8Name)
      (World.init files memory) ops p.manager)
    (hnone : kIconStateInterfaceName ∉ p.manager.memorySegments)
    (hname : name ≠ kIconStateInterfaceName)
    (h : advertiseStrict sizeofSegmentHeader uint8Name cls T iconState calls name buffer p =
      some (p', r)) :
    (∃ st, r = .error st) ∧
    (p.manager.Accepts name T.kTypeString ∧
        calls.add.Succeed ((sizeofSegmentHeader + buffer.length) % 2 ^ 64) →
      (∃ info, info.mustBeUsed = true ∧ Offers p'.manager name T.kTypeString buffer info) ∧
      (calls.get.Succeed sizeofSegmentHeader T.sizeof → p'.segments.maps = p.segments.maps) ∧
      ∀ ops' w w' addCalls mustBeUsed buffer' typeId st,
        Run (SharedMemoryManager.Step sizeofSegmentHeader uint8Name) p'.manager ops' w →
        advertiseInterfaceT sizeofSegmentHeader uint8Name w addCalls name mustBeUsed buffer'
          typeId = some (w', st) → st.isOk = false) := by
  unfold advertiseStrict advertise at h
  split at h
  · cases h
  · next manager st hadd =>
    rw [advertiseInterfaceT_eq] at hadd
    obtain ⟨hsuccess, hfailure⟩ := addSegment_outcome hadd
    by_cases hall : p.manager.Accepts name T.kTypeString ∧
        calls.add.Succeed ((sizeofSegmentHeader + buffer.length) % 2 ^ 64)
    · obtain ⟨rfl, -, new, hsegments⟩ := hsuccess hall
      obtain ⟨info, hused, hoffers⟩ := offers_of_add hadd
      have hrun' := hrun.snoc (show SharedMemoryManager.Step sizeofSegmentHeader uint8Name p.manager
        ⟨calls.add, interfaceSegment name true buffer T.kTypeString, okStatus⟩ manager from hadd)
      have hnone' : kIconStateInterfaceName ∉ manager.memorySegments := by
        rw [hsegments]
        intro hmem
        rcases mem_insertNew.mp hmem with heq | hmem
        · exact hname heq.symm
        · exact hnone hmem
      rw [if_pos (show okStatus.isOk = true from rfl)] at h
      split at h
      · cases h
      · next m hm =>
        obtain ⟨⟨segments, r'⟩, hhandle, heq⟩ := Option.map_eq_some_iff.mp h
        cases heq
        obtain ⟨herror, hmaps⟩ := advertiseStrict_registered hrun' hoffers hnone' hm hhandle
        refine ⟨herror, fun _ => ⟨⟨info, hused, hoffers⟩, hmaps, ?_⟩⟩
        intro ops' w w' addCalls mustBeUsed buffer' typeId st hlater hadd'
        have hstill : Consistent w ∧ Offers w name T.kTypeString buffer info := by
          refine hlater.stateInvariant (I := fun w => Consistent w ∧
            Offers w name T.kTypeString buffer info) ⟨consistent_run hrun', hoffers⟩ ?_
          rintro w c w'' ⟨hw, hoffers⟩ hs
          refine ⟨?_, hoffers.step hw hs⟩
          rcases step_spec hw hs with ⟨-, hsame⟩ | ⟨-, info, -, hreg⟩
          · exact hsame.consistent hw
          · exact hreg.consistent hw
        exact hstill.2.advertise_fails hadd'
    · obtain ⟨hst, -, -⟩ := hfailure hall
      rw [hst] at h
      cases h
      exact ⟨⟨st, rfl⟩, fun h => absurd h hall⟩

end Registry

/-- A flatbuffer of four bytes. -/
def stateInterface : InterfaceType := ⟨4, ascii "State", true, fun buffer => buffer.length = 4⟩

/-- The first thing a module advertises is a strict interface. -/
theorem strict_interface_needs_icon_state_first :
    ∃ (p' : Process Bytes (Option Int) Unit) (r : Except Status (MemorySegment × MemorySegment)),
      advertiseStrictInterface 64 [] stateInterface stateInterface
        ⟨succeeding 3 4096 68, ⟨.ok 68, .ok 8192, .ok ()⟩, ⟨.ok 68, .ok 8192, .ok ()⟩⟩
        (ascii "state") [1, 2, 3, 4] ⟨World.init (fun _ => none) fun _ => none, .init⟩ =
        some (p', r) ∧ (∃ st, r = .error st) ∧
      (∃ info, info.mustBeUsed = true ∧
        Offers p'.manager (ascii "state") (ascii "State") [1, 2, 3, 4] info) ∧
      p'.segments.maps = fun _ => none := by
  have hcall : ∃ (p' : Process Bytes (Option Int) Unit)
      (r : Except Status (MemorySegment × MemorySegment)),
      advertiseStrict 64 [] .readOnly stateInterface stateInterface
        ⟨succeeding 3 4096 68, ⟨.ok 68, .ok 8192, .ok ()⟩, ⟨.ok 68, .ok 8192, .ok ()⟩⟩
        (ascii "state") [1, 2, 3, 4] ⟨World.init (fun _ => none) fun _ => none, .init⟩ =
        some (p', r) := ⟨_, _, rfl⟩
  obtain ⟨p', r, hcall⟩ := hcall
  obtain ⟨herror, hregistered⟩ := strict_interface_needs_icon_state .nil (AList.notMem_empty _)
    (by decide) hcall
  obtain ⟨hoffers, hmaps, -⟩ := hregistered
    ⟨⟨by decide, by decide, rfl, by decide⟩, 3, 4096, rfl, ⟨rfl, rfl, rfl⟩, rfl⟩
  exact ⟨p', r, hcall, herror, hoffers, hmaps ⟨68, 8192, rfl, by decide, rfl, rfl, by decide⟩⟩

/-! ## From the module to ICON -/

section Reaches
variable {sizeofSegmentHeader : Nat} {uint8Name : Bytes} {w : SharedMemoryManager.World Bytes}
  {files : Nat → Option Nat} {memory : Nat → Option (Segment Bytes)}
  {ops : List (Called Bytes)} {m : SegmentNameToFileDescriptorMap} {file : Int → Option Int}
  {received : ReceivedMap} {name : Name} {info : MemorySegmentInfo}

/-- The descriptors that the server is given, in any order. -/
def Serves (w : SharedMemoryManager.World Bytes) (m : SegmentNameToFileDescriptorMap) : Prop :=
  ∀ name (fd : Int), (name, fd) ∈ m.entries ↔
    ∃ n : Nat, w.segmentNameToFileDescriptorMap.lookup name = some n ∧ fd = n

theorem Serves.mem_iff (h : Serves w m) (hw : Consistent w) (name : Name) :
    name ∈ m.entries.map Prod.fst ↔ name ∈ w.memorySegments := by
  have hsome : (w.memorySegments.lookup name).isSome =
      (w.segmentNameToFileDescriptorMap.lookup name).isSome := by
    rw [hw.descriptors, Option.isSome_map]
  rw [← AList.lookup_isSome, hsome, Option.isSome_iff_exists, List.mem_map]
  constructor
  · rintro ⟨⟨name, fd⟩, hmem, rfl⟩
    obtain ⟨n, hn, -⟩ := (h name fd).mp hmem
    exact ⟨n, hn⟩
  · rintro ⟨n, hn⟩
    exact ⟨(name, n), (h name n).mpr ⟨n, hn, rfl⟩, rfl⟩

theorem Serves.validName (h : Serves w m) (hw : Consistent w)
    (hnames : ∀ name ∈ w.memorySegments, (0 : UInt8) ∉ name) :
    ∀ entry ∈ m.entries, ValidName entry.1 := by
  intro entry hentry
  have hmem := (h.mem_iff hw entry.1).mp (List.mem_map_of_mem hentry)
  exact ⟨SegmentInfoUtils.length_le_of_verified (hw.verified entry.1 hmem), hnames entry.1 hmem⟩

end Reaches

end Intrinsic.HardwareInterfaces
