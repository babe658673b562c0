import IconSharedMemory.CreationRules
import IconSharedMemory.HardwareModuleRuntime

/-! # Connecting a runtime

`HardwareModuleRuntime::Create` checks its arguments, takes the module's name (the socket) and
then calls `Connect`, which fills the shared memory: the state of the module, ICON's state and the
control period as hardware interfaces, and two futexes for each of the nine services.  Only then
may the module advertise interfaces of its own, in `Init`.

Nothing in `Connect` gets in the way of anything else: a runtime is created if and only if the
arguments are valid and no system call fails (`created_runtime_inventory`).  In particular ICON's
state is there before the module asks for a strict interface, which could not be used otherwise
(`created_runtime_serves_strict_interfaces`).
-/
namespace Intrinsic.RuntimeConnection
open Runs DomainSocket SharedMemoryManager SharedMemory HardwareInterfaces

/-! ## The source -/

section Source
variable {H : Type} (sizeofSegmentHeader : Nat) (uint8Name : Bytes)

/-- `intrinsic_fbs::HardwareModuleState`, a struct. -/
def hardwareModuleStateType : InterfaceType :=
  ⟨257, ascii "intrinsic_fbs.HardwareModuleState", false, fun _ => true⟩

/-- `intrinsic_fbs::IconState`, a struct. -/
def iconStateType : InterfaceType := ⟨8, ascii "intrinsic_fbs.IconState", false, fun _ => true⟩

/-- `intrinsic_fbs::ControlPeriod`, a struct. -/
def controlPeriodType : InterfaceType :=
  ⟨8, ascii "intrinsic_fbs.ControlPeriod", false, fun _ => true⟩

def kControlPeriodInterfaceName : Name := ascii "control_period"

/-- `"hardware_module_state"` in `Connect` -/
def hardwareModuleStateName : Name := ascii "hardware_module_state"

/-- The flatbuffers that are advertised; that of the control period holds the number of
nanoseconds. -/
structure Builders where
  buildHardwareModuleState : Bytes
  buildIconState : Bytes
  controlPeriodBuffer : Int → Bytes

/-- `BuildControlPeriod` -/
def Builders.buildControlPeriod (b : Builders) : Bytes := b.controlPeriodBuffer 0

/-- The members behind a handle are changed.  There is no result if the handle is one to no
registered segment. -/
def mutate (handle : MemorySegment) (value : Bytes) :
    Creation Bytes (Option Int) H Unit := fun p => do
  let address ← handle.header
  let mapping ← p.segments.maps address
  let fd ← mapping.segment
  let entry ← p.manager.memorySegments.entries.find? fun entry => (entry.2.fd : Int) = fd
  let segment ← p.manager.memory entry.2.data
  let manager := p.manager.setMemory entry.2.data { segment with value := some value }
  return ({ p with manager }, .ok ())

/-- `UpdateControlPeriod`, without the time of the update. -/
def updateControlPeriod (b : Builders) (handle : MemorySegment) (duration : Int) :
    Creation Bytes (Option Int) H Unit :=
  if duration ≤ 0 then
    fail (formatStatus .failedPrecondition (ascii "Control period must be > 0, got " ++
      ascii (toString duration) ++ ascii " ns. Check your configuration."))
  else mutate handle (b.controlPeriodBuffer duration)

/-- The name under which `Connect` creates the server of a service. -/
def memoryName : HardwareModuleRuntime.Service → Name
  | .restart => ascii "restart"
  | .activate => ascii "activate"
  | .deactivate => ascii "deactivate"
  | .prepare => ascii "prepare"
  | .enableMotion => ascii "enable_motion"
  | .disableMotion => ascii "disable_motion"
  | .clearFaults => ascii "clear_faults"
  | .readStatus => ascii "read_status"
  | .applyCommand => ascii "apply_command"

/-- The order in which `Connect` creates the servers. -/
def connectOrder : List HardwareModuleRuntime.Service :=
  [.restart, .activate, .deactivate, .prepare, .enableMotion, .disableMotion, .clearFaults,
    .readStatus, .applyCommand]

/-- The handles that a server destroys with itself. -/
def serverHandles (server : RemoteTriggerServer) : List MemorySegment :=
  [server.requestFutex, server.responseFutex]

/-- The servers are created one after the other, where `T` is the type `BinaryFutex`. -/
def createServers (T : PayloadType Bytes) (calls : HardwareModuleRuntime.Service → CreateCalls) :
    List HardwareModuleRuntime.Service →
      Creation Bytes (Option Int) H (List RemoteTriggerServer)
  | [] => .ok []
  | service :: services =>
    andThen (RemoteTriggerServer.create sizeofSegmentHeader uint8Name some T (memoryName service)
      (calls service)) serverHandles fun server =>
    andThen (createServers T calls services) (·.flatMap serverHandles) fun servers =>
    .ok (server :: servers)

/-- What the system calls of `Connect` return. -/
structure ConnectCalls where
  hardwareModuleState : AdvertiseCalls
  iconState : AdvertiseCalls
  controlPeriod : AdvertiseCalls
  servers : HardwareModuleRuntime.Service → CreateCalls

/-- The members that `Connect` sets. -/
structure Connected where
  hardwareModuleStateInterface : MemorySegment
  iconStateInterface : MemorySegment
  controlPeriodInterface : MemorySegment
  servers : List RemoteTriggerServer

/-- The check that both `Create` and `Connect` make. -/
def controlPeriodError (period : Int) : Status :=
  formatStatus .invalidArgument (ascii "Control period must be positive, got: " ++
    ascii (toString period) ++ ascii " ns")

/-- `HardwareModuleRuntime::Connect`, without the callbacks of the servers and the
`CallbackHandler` that they are calls of. -/
def connect (b : Builders) (T : PayloadType Bytes) (calls : ConnectCalls) (period : Int) :
    Creation Bytes (Option Int) H Connected :=
  andThen (advertiseMutableInterface sizeofSegmentHeader uint8Name hardwareModuleStateType
    calls.hardwareModuleState hardwareModuleStateName b.buildHardwareModuleState)
    ([·]) fun hardwareModuleStateInterface =>
  andThen (advertiseInterface sizeofSegmentHeader uint8Name iconStateType calls.iconState
    kIconStateInterfaceName b.buildIconState) ([·]) fun iconStateInterface =>
  andThen (advertiseMutableInterface sizeofSegmentHeader uint8Name controlPeriodType
    calls.controlPeriod kControlPeriodInterfaceName b.buildControlPeriod)
    ([·]) fun controlPeriodInterface =>
  if period ≤ 0 then fail (controlPeriodError period) else
  andThen (updateControlPeriod b controlPeriodInterface period) (fun _ => []) fun _ =>
  andThen (createServers sizeofSegmentHeader uint8Name T calls.servers connectOrder)
    (·.flatMap serverHandles) fun servers =>
  .ok ⟨hardwareModuleStateInterface, iconStateInterface, controlPeriodInterface, servers⟩

/-- The arguments of `Create`: whether the pointers are set, and the period. -/
structure Arguments where
  sharedMemoryManager : Bool
  hardwareModule : Bool
  controlPeriod : Int

/-- `HardwareModuleRuntime::Create`, where `server` is what `DomainSocketServer::Create` returns.
It owns the manager, and after an error its caller sees it destroyed; here it is left as it is
just before. -/
def create (b : Builders) (T : PayloadType Bytes) (calls : ConnectCalls)
    (server : Except Status Unit) (args : Arguments) : Creation Bytes (Option Int) H Connected :=
  if args.sharedMemoryManager = false then
    fail (formatStatus .invalidArgument (ascii "shared_memory_manager cannot be null")) else
  if args.hardwareModule = false then
    fail (formatStatus .invalidArgument (ascii "hardware_module cannot be null")) else
  if args.controlPeriod ≤ 0 then fail (controlPeriodError args.controlPeriod) else
  match server with
  | .error st => fail st
  | .ok () => connect sizeofSegmentHeader uint8Name b T calls args.controlPeriod

end Source

/-! ## The rules for the parts of `Connect` -/

section Rules
variable {H : Type} {sizeofSegmentHeader : Nat} {uint8Name : Bytes} {entries : List Entry}
  {e : Entry} {T : InterfaceType} {cls : HandleClass} {w : SharedMemoryManager.World Bytes}
  {name : Name}

/-- The handle is one to the registered segment of this name. -/
def HandleTo (handle : MemorySegment) (name : Name)
    (p : Process Bytes (Option Int) H) : Prop :=
  ∃ address mapping info, handle.header = some address ∧
    p.segments.maps address = some mapping ∧ p.manager.memorySegments.lookup name = some info ∧
    mapping.segment = some (info.fd : Int)

/-- **A handle to a registered segment**: the system calls of `Get` and the type decide. -/
theorem interfaceHandle_registered {typeId buffer : Bytes} {info : MemorySegmentInfo}
    {calls : GetCalls} {m : SegmentNameToFileDescriptorMap}
    {segments segments' : SharedMemory.World (Option Int) H} {r : Except Status MemorySegment}
    (hw : Consistent w) (hdistinct : Distinct w) (hoffers : Offers w name typeId buffer info)
    (hm : descriptorMap w.segmentNameToFileDescriptorMap = some m)
    (h : interfaceHandle sizeofSegmentHeader (contentOf sizeofSegmentHeader w) cls T segments some
      calls m name = some (segments', r)) :
    ((∃ handle, r = .ok handle) ↔ calls.Succeed sizeofSegmentHeader T.sizeof ∧
      T.Accepts ⟨expectedVersion, typeId, buffer⟩) ∧
    ∀ handle, r = .ok handle → HandleTo handle name ⟨w, segments'⟩ := by
  have hfound : m.entries.lookup name = some (info.fd : Int) := by
    rw [lookup_descriptorMap hm, hw.descriptors, hoffers.registered]
    rfl
  have hcontent := hoffers.content sizeofSegmentHeader hdistinct
  by_cases hcalls : calls.Succeed sizeofSegmentHeader T.sizeof
  · rcases interfaceHandle_of_succeed hfound (by omega) hcontent hcalls h with
      ⟨haccepts, handle, address, rfl, hheader, mapping, hmaps, hsegment⟩ |
      ⟨hreject, ⟨st, rfl⟩, -⟩
    · refine ⟨iff_of_true ⟨handle, rfl⟩ ⟨hcalls, haccepts⟩, ?_⟩
      rintro _ ⟨⟩
      exact ⟨address, mapping, info, hheader, hmaps, hoffers.registered, hsegment⟩
    · refine ⟨iff_of_false (fun ⟨_, h⟩ => by cases h) fun hall => hreject hall.2, ?_⟩
      intro handle hok
      cases hok
  · obtain ⟨st, rfl⟩ := interfaceHandle_of_not_succeed hfound (by omega) hcalls h
    refine ⟨iff_of_false (fun ⟨_, h⟩ => by cases h) fun hall => hcalls hall.1, ?_⟩
    intro handle hok
    cases hok

/-- The system calls with which an interface is advertised all succeed. -/
def Advertised (sizeofSegmentHeader : Nat) (calls : AdvertiseCalls) (T : InterfaceType)
    (buffer : Bytes) : Prop :=
  calls.add.Succeed ((sizeofSegmentHeader + buffer.length) % 2 ^ 64) ∧
    calls.get.Succeed sizeofSegmentHeader T.sizeof

/-- Advertising an interface whose flatbuffer needs no verification. -/
theorem Establishes.advertise {calls : AdvertiseCalls} {buffer : Bytes}
    (htable : T.isTable = false)
    (hlawful : Lawful (entries ++ [⟨name, false, T.kTypeString, buffer⟩])) :
    Establishes (fun p => Inventory entries p.manager)
      (Advertised sizeofSegmentHeader calls T buffer)
      (fun handle p => Inventory (entries ++ [⟨name, false, T.kTypeString, buffer⟩]) p.manager ∧
        HandleTo handle name p)
      (HardwareInterfaces.advertise (H := H) sizeofSegmentHeader uint8Name false T calls.add name
        buffer fun content file m w =>
          interfaceHandle sizeofSegmentHeader content cls T w file calls.get m name) := by
  have hboth : ∀ p p' r, Inventory entries p.manager →
      HardwareInterfaces.advertise (H := H) sizeofSegmentHeader uint8Name false T calls.add name
        buffer (fun content file m w =>
          interfaceHandle sizeofSegmentHeader content cls T w file calls.get m name) p =
        some (p', r) →
      ((∃ handle, r = .ok handle) ↔ Advertised sizeofSegmentHeader calls T buffer) ∧
      ∀ handle, r = .ok handle →
        Inventory (entries ++ [⟨name, false, T.kTypeString, buffer⟩]) p'.manager ∧
          HandleTo handle name p' := by
    intro p p' r hbefore h
    unfold HardwareInterfaces.advertise at h
    split at h
    · cases h
    · next manager st hadd =>
      rw [advertiseInterfaceT_eq] at hadd
      rcases hbefore.add hlawful hadd with ⟨hcalls, hok, hafter⟩ | ⟨hnot, herror⟩
      · rw [if_pos hok] at h
        split at h
        · cases h
        · next m hm =>
          obtain ⟨⟨segments, r'⟩, hhandle, heq⟩ := Option.map_eq_some_iff.mp h
          cases heq
          obtain ⟨info, -, hoffers⟩ :=
            hafter.offers _ (List.mem_append_right _ (List.mem_singleton_self _))
          obtain ⟨hiff, hto⟩ := interfaceHandle_registered hafter.consistent hafter.descriptors
            hoffers hm hhandle
          have haccepts : T.Accepts ⟨expectedVersion, T.kTypeString, buffer⟩ :=
            ⟨rfl, rfl, fun h => absurd (h.symm.trans htable) (by decide)⟩
          rw [hiff, and_iff_left haccepts]
          exact ⟨(and_iff_right hcalls).symm, fun handle hok => ⟨hafter, hto handle hok⟩⟩
      · rw [herror] at h
        cases h
        refine ⟨iff_of_false (fun ⟨_, h⟩ => by cases h) fun hall => hnot hall.1, ?_⟩
        intro handle hok
        cases hok
  exact ⟨fun p p' r hbefore h => (hboth p p' r hbefore h).1,
    fun p p' a hbefore h => (hboth p p' _ hbefore h).2 a rfl⟩

/-- `UpdateControlPeriod` writes into the segment of the handle. -/
theorem Establishes.updateControlPeriod {b : Builders} {handle : MemorySegment} {duration : Int}
    (hlawful : Lawful (entries ++ [e])) (hpositive : ¬ duration ≤ 0) :
    Establishes (fun p => Inventory (entries ++ [e]) p.manager ∧ HandleTo handle e.name p) True
      (fun _ p => Inventory (entries ++ [{ e with value := b.controlPeriodBuffer duration }])
        p.manager)
      (RuntimeConnection.updateControlPeriod (H := H) b handle duration) := by
  have hboth : ∀ (p : Process Bytes (Option Int) H) p' r,
      Inventory (entries ++ [e]) p.manager ∧ HandleTo handle e.name p →
      RuntimeConnection.updateControlPeriod b handle duration p = some (p', r) →
      r = .ok () ∧ Inventory (entries ++ [{ e with value := b.controlPeriodBuffer duration }])
        p'.manager := by
    rintro p p' r ⟨hbefore, address, mapping, info, hheader, hmaps, hinfo, hsegment⟩ h
    unfold RuntimeConnection.updateControlPeriod mutate at h
    rw [if_neg hpositive] at h
    simp only [Option.bind_eq_bind, Option.bind_some, hheader, hmaps, hsegment,
      find_registered hbefore.descriptors hinfo] at h
    obtain ⟨segment, hmemory, heq⟩ := Option.bind_eq_some_iff.mp h
    cases heq
    exact ⟨rfl, hbefore.setValue hlawful hinfo hmemory⟩
  refine ⟨fun p p' r hbefore h => ?_, fun p p' a hbefore h => (hboth p p' _ hbefore h).2⟩
  rw [(hboth p p' r hbefore h).1]
  exact iff_of_true ⟨(), rfl⟩ trivial

variable {futex : PayloadType Bytes} {calls : HardwareModuleRuntime.Service → CreateCalls}

/-- The futex of this name. -/
def futexEntry (futex : PayloadType Bytes) (name : Name) : Entry :=
  ⟨name, false, futex.typeName, futex.defaultValue⟩

theorem Establishes.addFutex {α : Type} {calls : SystemCalls} {condition : Prop}
    {rest : Creation Bytes (Option Int) H α} {after : α → Process Bytes (Option Int) H → Prop}
    (hlawful : Lawful (entries ++ [futexEntry futex name]))
    (hrest : Establishes (fun p => Inventory (entries ++ [futexEntry futex name]) p.manager)
      condition after rest) :
    Establishes (fun p => Inventory entries p.manager)
      (calls.Succeed ((sizeofSegmentHeader + futex.sizeof) % 2 ^ 64) ∧ condition) after
      (Creation.addSegment sizeofSegmentHeader uint8Name calls (.withNewValue futex name) rest) :=
  .addSegment (fun _ _ _ hw hadd => Inventory.add hw hlawful hadd) hrest

/-- The segments of a server. -/
def serverEntries (futex : PayloadType Bytes) (service : HardwareModuleRuntime.Service) :
    List Entry :=
  [futexEntry futex (memoryName service ++ kSemRequestSuffix),
    futexEntry futex (memoryName service ++ kSemResponseSuffix)]

/-- The system calls with which a server is created all succeed. -/
def ServerCreated (sizeofSegmentHeader : Nat) (futex : PayloadType Bytes) (calls : CreateCalls) :
    Prop :=
  calls.firstAdd.Succeed ((sizeofSegmentHeader + futex.sizeof) % 2 ^ 64) ∧
    calls.secondAdd.Succeed ((sizeofSegmentHeader + futex.sizeof) % 2 ^ 64) ∧
    calls.firstGet.Succeed sizeofSegmentHeader futex.sizeof ∧
    calls.secondGet.Succeed sizeofSegmentHeader futex.sizeof

theorem Establishes.createServer {calls : CreateCalls} {service : HardwareModuleRuntime.Service}
    (hlawful : Lawful (entries ++ serverEntries futex service)) :
    Establishes (fun p => Inventory entries p.manager)
      (ServerCreated sizeofSegmentHeader futex calls)
      (fun _ p => Inventory (entries ++ serverEntries futex service) p.manager)
      (RemoteTriggerServer.create (H := H) sizeofSegmentHeader uint8Name some futex
        (memoryName service) calls) := by
  have hsplit : entries ++ serverEntries futex service =
      (entries ++ [futexEntry futex (memoryName service ++ kSemRequestSuffix)]) ++
        [futexEntry futex (memoryName service ++ kSemResponseSuffix)] :=
    (List.append_assoc _ [_] [_]).symm
  have hname : ∀ e ∈ serverEntries futex service, ∀ w,
      Inventory (entries ++ serverEntries futex service) w →
        e.name ∈ w.segmentNameToFileDescriptorMap := fun e he w hw =>
    hw.mem_descriptors (List.mem_map_of_mem (List.mem_append_right _ he))
  rw [hsplit] at hlawful hname ⊢
  rw [ServerCreated, ← and_true (calls.secondGet.Succeed sizeofSegmentHeader futex.sizeof)]
  exact .addFutex hlawful.of_append <| .addFutex hlawful <|
    .get (hname _ (.head _)) fun _ => .get (hname _ (.tail _ (.head _))) fun _ => .ok _

theorem Establishes.createServers {services : List HardwareModuleRuntime.Service}
    (hlawful : Lawful (entries ++ services.flatMap (serverEntries futex))) :
    Establishes (fun p => Inventory entries p.manager)
      (∀ service ∈ services, ServerCreated sizeofSegmentHeader futex (calls service))
      (fun _ p => Inventory (entries ++ services.flatMap (serverEntries futex)) p.manager)
      (RuntimeConnection.createServers (H := H) sizeofSegmentHeader uint8Name futex calls
        services) := by
  induction services generalizing entries with
  | nil =>
    rw [iff_true_intro (fun service h => absurd h List.not_mem_nil :
      ∀ service ∈ [], ServerCreated sizeofSegmentHeader futex (calls service)),
      List.flatMap_nil, List.append_nil]
    exact .ok []
  | cons service services ih =>
    rw [List.flatMap_cons, ← List.append_assoc] at hlawful ⊢
    rw [List.forall_mem_cons]
    rw [← and_true (∀ service ∈ services, _)]
    exact .andThen (.createServer hlawful.of_append) fun server =>
      .andThen (ih hlawful) fun servers => .ok (server :: servers)

end Rules

/-! ## A created runtime -/

section Created
variable {H : Type} {sizeofSegmentHeader : Nat} {uint8Name : Bytes} {b : Builders}
  {futex : PayloadType Bytes} {calls : ConnectCalls} {server : Except Status Unit}
  {args : Arguments} {period : Int}

/-- What `Connect` registers besides the futexes. -/
def interfaceEntries (b : Builders) (period : Int) : List Entry :=
  [⟨hardwareModuleStateName, false, hardwareModuleStateType.kTypeString,
      b.buildHardwareModuleState⟩,
    ⟨kIconStateInterfaceName, false, iconStateType.kTypeString, b.buildIconState⟩,
    ⟨kControlPeriodInterfaceName, false, controlPeriodType.kTypeString,
      b.controlPeriodBuffer period⟩]

/-- **What a created runtime has registered.** -/
def connectedEntries (b : Builders) (futex : PayloadType Bytes) (period : Int) : List Entry :=
  interfaceEntries b period ++ connectOrder.flatMap (serverEntries futex)

theorem lawful_connected (b : Builders) (period : Int)
    (htypeName : futex.typeName.length ≤ kMaxTypeIdSize) :
    Lawful (connectedEntries b futex period) := by
  have hnames : (connectedEntries b futex period).map Entry.name =
      (connectedEntries ⟨[], [], fun _ => []⟩ ⟨0, [], []⟩ 0).map Entry.name := rfl
  refine ⟨?_, ?_, ?_, ?_⟩
  · rw [← List.length_map, hnames]
    decide
  · rw [hnames]
    decide
  · have hverified : ∀ name ∈ (connectedEntries b futex period).map Entry.name,
        (verifyName name).isOk = true := by
      rw [hnames]
      decide
    exact fun e he => hverified e.name (List.mem_map_of_mem he)
  · intro e he
    rcases List.mem_append.mp he with he | he
    · have htypeId : ∀ typeId ∈ (interfaceEntries b period).map Entry.typeId,
          typeId.length ≤ kMaxTypeIdSize := by
        show ∀ typeId ∈ [hardwareModuleStateType.kTypeString, iconStateType.kTypeString,
          controlPeriodType.kTypeString], typeId.length ≤ kMaxTypeIdSize
        decide
      exact htypeId e.typeId (List.mem_map_of_mem he)
    · obtain ⟨service, -, he⟩ := List.mem_flatMap.mp he
      rcases List.mem_pair.mp he with rfl | rfl
      · exact htypeName
      · exact htypeName

/-- None of the system calls of `Connect` fails. -/
structure ConnectCalls.Succeed (sizeofSegmentHeader : Nat) (b : Builders)
    (futex : PayloadType Bytes) (calls : ConnectCalls) : Prop where
  hardwareModuleState : Advertised sizeofSegmentHeader calls.hardwareModuleState
    hardwareModuleStateType b.buildHardwareModuleState
  iconState : Advertised sizeofSegmentHeader calls.iconState iconStateType b.buildIconState
  controlPeriod : Advertised sizeofSegmentHeader calls.controlPeriod controlPeriodType
    b.buildControlPeriod
  servers : ∀ service ∈ connectOrder,
    ServerCreated sizeofSegmentHeader futex (calls.servers service)

theorem Establishes.connect (htypeName : futex.typeName.length ≤ kMaxTypeIdSize) :
    Establishes (fun p => Inventory [] p.manager)
      (¬ period ≤ 0 ∧ calls.Succeed sizeofSegmentHeader b futex)
      (fun _ p => Inventory (connectedEntries b futex period) p.manager)
      (RuntimeConnection.connect (H := H) sizeofSegmentHeader uint8Name b futex calls period) := by
  have hcondition : (¬ period ≤ 0 ∧ calls.Succeed sizeofSegmentHeader b futex) ↔
      Advertised sizeofSegmentHeader calls.hardwareModuleState hardwareModuleStateType
        b.buildHardwareModuleState ∧
      Advertised sizeofSegmentHeader calls.iconState iconStateType b.buildIconState ∧
      Advertised sizeofSegmentHeader calls.controlPeriod controlPeriodType b.buildControlPeriod ∧
      ¬ period ≤ 0 ∧ True ∧
      (∀ service ∈ connectOrder,
        ServerCreated sizeofSegmentHeader futex (calls.servers service)) ∧ True :=
    ⟨fun ⟨hperiod, h⟩ => ⟨h.hardwareModuleState, h.iconState, h.controlPeriod, hperiod, trivial,
      h.servers, trivial⟩, fun ⟨hstate, hicon, hcontrol, hperiod, _, hservers, _⟩ =>
      ⟨hperiod, hstate, hicon, hcontrol, hservers⟩⟩
  rw [hcondition]
  -- the control period is advertised as zero, and then set
  have hlawful := lawful_connected b period htypeName
  have hinterfaces : Lawful (interfaceEntries b 0) := (lawful_connected b 0 htypeName).of_append
  refine .andThen (.advertise rfl (hinterfaces.take 1)) fun _ => .weaken (fun p h => h.1) <|
    .andThen (.advertise rfl (hinterfaces.take 2)) fun _ => .weaken (fun p h => h.1) <|
    .andThen (.advertise rfl hinterfaces) fun _ => .check fun hperiod =>
    .andThen (.updateControlPeriod hinterfaces hperiod) fun _ =>
    .andThen (.createServers hlawful) fun _ => .ok _

theorem Establishes.create (htypeName : futex.typeName.length ≤ kMaxTypeIdSize) :
    Establishes (fun p => Inventory [] p.manager)
      (¬ args.sharedMemoryManager = false ∧ ¬ args.hardwareModule = false ∧
        ¬ args.controlPeriod ≤ 0 ∧ server = .ok () ∧
        calls.Succeed sizeofSegmentHeader b futex)
      (fun _ p => Inventory (connectedEntries b futex args.controlPeriod) p.manager)
      (RuntimeConnection.create (H := H) sizeofSegmentHeader uint8Name b futex calls server
        args) := by
  refine .check fun _ => .check fun _ => .check fun hperiod => ?_
  cases server with
  | error st =>
    have hfalse : (Except.error st = .ok () ∧ calls.Succeed sizeofSegmentHeader b futex) ↔ False :=
      iff_of_false (fun ⟨h, _⟩ => by cases h) id
    rw [hfalse]
    exact .fail st
  | ok =>
    have hrest : (Except.ok () = (.ok () : Except Status Unit) ∧
        calls.Succeed sizeofSegmentHeader b futex) ↔
        ¬ args.controlPeriod ≤ 0 ∧ calls.Succeed sizeofSegmentHeader b futex :=
      and_congr_left' (iff_of_true rfl hperiod)
    rw [hrest]
    exact .connect htypeName

/-- The arguments are checked, and the name of the module is taken, before anything is
registered. -/
theorem create_unchanged {p p' : Process Bytes (Option Int) H} {r : Except Status Connected}
    (h : create sizeofSegmentHeader uint8Name b futex calls server args p = some (p', r))
    (hinvalid : args.sharedMemoryManager = false ∨ args.hardwareModule = false ∨
      args.controlPeriod ≤ 0 ∨ server ≠ .ok ()) : p' = p := by
  have hfail : ∀ st, (fail st : Creation Bytes (Option Int) H Connected) p = some (p', r) →
      p' = p := by
    rintro st ⟨⟩
    rfl
  unfold create at h
  split at h
  · exact hfail _ h
  · next hmanager =>
    split at h
    · exact hfail _ h
    · next hmodule =>
      split at h
      · exact hfail _ h
      · next hperiod =>
        cases server with
        | error st => exact hfail _ h
        | ok =>
          rcases hinvalid with hinvalid | hinvalid | hinvalid | hinvalid
          · exact absurd hinvalid hmanager
          · exact absurd hinvalid hmodule
          · exact absurd hinvalid hperiod
          · exact absurd rfl hinvalid

/-- **Nothing in `Connect` gets in the way of anything else.**  On a new manager a runtime is
created if and only if the arguments are valid, the name of the module could be taken and no system
call fails.  Then the manager has exactly the 21 segments of `connectedEntries`, none of which must
be used, with the configured control period among their values.  With invalid arguments, or a name
that is taken, nothing has been entered into the manager that `Create` then destroys. -/
theorem created_runtime_inventory {files : Nat → Option Nat}
    {memory : Nat → Option (Segment Bytes)} {segments : SharedMemory.World (Option Int) H}
    {p' : Process Bytes (Option Int) H} {r : Except Status Connected}
    (htypeName : futex.typeName.length ≤ kMaxTypeIdSize)
    (h : create sizeofSegmentHeader uint8Name b futex calls server args
      ⟨World.init files memory, segments⟩ = some (p', r)) :
    ((∃ runtime, r = .ok runtime) ↔
      args.sharedMemoryManager = true ∧ args.hardwareModule = true ∧ 0 < args.controlPeriod ∧
        server = .ok () ∧ calls.Succeed sizeofSegmentHeader b futex) ∧
    (∀ runtime, r = .ok runtime →
      Inventory (connectedEntries b futex args.controlPeriod) p'.manager) ∧
    (args.sharedMemoryManager = false ∨ args.hardwareModule = false ∨ args.controlPeriod ≤ 0 ∨
      server ≠ .ok () → p' = ⟨World.init files memory, segments⟩) := by
  have hinit : Inventory [] (World.init files memory) := inventory_init files memory
  refine ⟨?_, ?_, create_unchanged h⟩
  · rw [(Establishes.create htypeName).isOk_iff _ _ _ hinit h]
    simp only [Bool.not_eq_false, Int.not_le]
  · rintro runtime rfl
    exact (Establishes.create htypeName).after _ _ _ hinit h

/-- Flatbuffers of zeros, but for the control period in the last of eight bytes. -/
def zeros : Builders :=
  ⟨List.replicate 257 0, List.replicate 8 0, fun period => List.replicate 7 0 ++ [.ofInt period]⟩

def binaryFutex : PayloadType Bytes := ⟨4, ascii "BinaryFutex", [0, 0, 0, 0]⟩

/-- The system calls for a segment, which is the `n`th one. -/
def nth (n size : Nat) : SystemCalls × GetCalls :=
  (succeeding (3 + n) (4096 * n) size, ⟨.ok size, .ok (4096 * n), .ok ()⟩)

/-- No system call fails, for headers of 64 bytes. -/
def connecting : ConnectCalls where
  hardwareModuleState := ⟨(nth 1 321).1, (nth 1 321).2, (nth 1 321).2⟩
  iconState := ⟨(nth 2 72).1, (nth 2 72).2, (nth 2 72).2⟩
  controlPeriod := ⟨(nth 3 72).1, (nth 3 72).2, (nth 3 72).2⟩
  servers service :=
    let n := 4 + 2 * connectOrder.idxOf service
    ⟨(nth n 68).1, (nth (n + 1) 68).1, (nth n 68).2, (nth (n + 1) 68).2⟩

theorem connecting_succeed : connecting.Succeed 64 zeros binaryFutex := by
  refine ⟨?_,
    ⟨⟨5, 8192, rfl, ⟨rfl, rfl, rfl⟩, rfl⟩, 72, 8192, rfl, by decide, rfl, rfl, by decide⟩,
    ⟨⟨6, 12288, rfl, ⟨rfl, rfl, rfl⟩, rfl⟩, 72, 12288, rfl, by decide, rfl, rfl, by decide⟩, ?_⟩
  · have hlength : zeros.buildHardwareModuleState.length = 257 := List.length_replicate
    rw [Advertised, hlength]
    exact ⟨⟨4, 4096, rfl, ⟨rfl, rfl, rfl⟩, rfl⟩, 321, 4096, rfl, by decide, rfl, rfl, by decide⟩
  · intro service _
    exact ⟨⟨_, _, rfl, ⟨rfl, rfl, rfl⟩, rfl⟩, ⟨_, _, rfl, ⟨rfl, rfl, rfl⟩, rfl⟩,
      ⟨68, _, rfl, by decide, rfl, rfl, by decide⟩, ⟨68, _, rfl, by decide, rfl, rfl, by decide⟩⟩

/-- A process in which nothing is open. -/
def emptyProcess : Process Bytes (Option Int) Unit :=
  ⟨World.init (fun _ => none) fun _ => none, .init⟩

/-- A runtime with a period of five nanoseconds. -/
theorem created_runtime_inventory_zeros :
    ∃ p' runtime, create 64 [] zeros binaryFutex connecting (.ok ()) ⟨true, true, 5⟩ emptyProcess =
      some (p', .ok runtime) ∧ Inventory (connectedEntries zeros binaryFutex 5) p'.manager := by
  have hsome : (create 64 [] zeros binaryFutex connecting (.ok ()) ⟨true, true, 5⟩
      emptyProcess).isSome = true := by decide +kernel
  obtain ⟨⟨p', r⟩, hcreate⟩ := Option.isSome_iff_exists.mp hsome
  obtain ⟨hiff, hinventory, -⟩ := created_runtime_inventory (by decide) hcreate
  obtain ⟨runtime, rfl⟩ := hiff.mpr ⟨rfl, rfl, by decide, rfl, connecting_succeed⟩
  exact ⟨p', runtime, hcreate, hinventory runtime rfl⟩

/-! ## Strict interfaces of the module -/

/-- A manager on which, after these segments were registered, `AddSegment` was called. -/
structure Extends (entries : List Entry) (ops : List (Called Bytes))
    (w : SharedMemoryManager.World Bytes) : Prop where
  consistent : Consistent w
  descriptors : Distinct w
  length : w.memorySegments.entries.length =
    entries.length + (ops.filter (·.status.isOk)).length
  offers : ∀ e ∈ entries, ∃ info, info.mustBeUsed = e.mustBeUsed ∧
    Offers w e.name e.typeId e.value info

theorem Extends.mem {entries : List Entry} {ops : List (Called Bytes)}
    {w : SharedMemoryManager.World Bytes} (h : Extends entries ops w) :
    ∀ name ∈ entries.map Entry.name, name ∈ w.memorySegments := by
  intro name hname
  obtain ⟨e, he, rfl⟩ := List.mem_map.mp hname
  obtain ⟨info, -, hoffers⟩ := h.offers e he
  rw [← AList.lookup_isSome, hoffers.registered]
  rfl

theorem Inventory.extends_run {entries : List Entry} {ops : List (Called Bytes)}
    {w w' : SharedMemoryManager.World Bytes} (h : Inventory entries w)
    (hrun : Run (SharedMemoryManager.Step sizeofSegmentHeader uint8Name) w ops w') :
    Extends entries ops w' := by
  induction hrun with
  | nil => exact ⟨h.consistent, h.descriptors, h.length, h.offers⟩
  | @snoc ops w₁ w₂ c hrun hs ih =>
    have hw := ih.consistent
    have hoffers : ∀ e ∈ entries, ∃ info, info.mustBeUsed = e.mustBeUsed ∧
        Offers w₂ e.name e.typeId e.value info := by
      intro e he
      obtain ⟨info, hused, hoffers⟩ := ih.offers e he
      exact ⟨info, hused, hoffers.step hw hs⟩
    rcases step_spec hw hs with ⟨hst, hsame⟩ | ⟨hst, info, -, hreg⟩
    · refine ⟨hsame.consistent hw, ih.descriptors.step hw hs, ?_, hoffers⟩
      rw [hsame.segments, ih.length, List.filter_append, List.filter_singleton, hst]
      simp
    · refine ⟨hreg.consistent hw, ih.descriptors.step hw hs, ?_, hoffers⟩
      rw [hreg.enters.segments, insertNew_of_none hreg.new,
        AList.entries_insert_of_notMem (AList.lookup_eq_none.mp hreg.new), List.length_cons,
        ih.length, List.filter_append, List.filter_singleton, hst]
      simp [okStatus, Status.isOk]
      omega

/-- **A strict handle to a registered segment** when ICON's state is registered too. -/
theorem strictInterfaceHandle_registered {cls : HandleClass} {T : InterfaceType}
    {w : SharedMemoryManager.World Bytes} {calls iconStateCalls : GetCalls}
    {m : SegmentNameToFileDescriptorMap} {name : Name} {buffer iconBuffer : Bytes}
    {segments segments' : SharedMemory.World (Option Int) H} {info iconInfo : MemorySegmentInfo}
    {r : Except Status (MemorySegment × MemorySegment)} (hw : Consistent w)
    (hdistinct : Distinct w) (hoffers : Offers w name T.kTypeString buffer info)
    (hicon : Offers w kIconStateInterfaceName iconStateType.kTypeString iconBuffer iconInfo)
    (hm : descriptorMap w.segmentNameToFileDescriptorMap = some m)
    (h : strictInterfaceHandle sizeofSegmentHeader (contentOf sizeofSegmentHeader w) cls T
      iconStateType segments some calls iconStateCalls m name = some (segments', r)) :
    ((∃ handles, r = .ok handles) ↔ calls.Succeed sizeofSegmentHeader T.sizeof ∧
      (T.isTable = true → T.verifyBuffer buffer = true) ∧
      iconStateCalls.Succeed sizeofSegmentHeader iconStateType.sizeof) ∧
    ∀ handle iconStateHandle, r = .ok (handle, iconStateHandle) →
      HandleTo iconStateHandle kIconStateInterfaceName ⟨w, segments'⟩ := by
  have haccepts : T.Accepts ⟨expectedVersion, T.kTypeString, buffer⟩ ↔
      (T.isTable = true → T.verifyBuffer buffer = true) :=
    ⟨fun h => h.verified, fun h => ⟨rfl, rfl, h⟩⟩
  have haccepts' : iconStateType.Accepts ⟨expectedVersion, iconStateType.kTypeString, iconBuffer⟩ :=
    ⟨rfl, rfl, fun h => by cases h⟩
  unfold strictInterfaceHandle at h
  split at h
  · cases h
  · next w₁ st hhandle =>
    cases h
    have hiff := (interfaceHandle_registered hw hdistinct hoffers hm hhandle).1
    rw [haccepts] at hiff
    refine ⟨iff_of_false (fun ⟨_, h⟩ => by cases h) fun hall => ?_, ?_⟩
    · obtain ⟨handle, hok⟩ := hiff.mpr ⟨hall.1, hall.2.1⟩
      cases hok
    · intro handle iconStateHandle hok
      cases hok
  · next w₁ handle hhandle =>
    have hfirst := (interfaceHandle_registered hw hdistinct hoffers hm hhandle).1.mp ⟨handle, rfl⟩
    rw [haccepts] at hfirst
    split at h
    · cases h
    · next w₂ st hhandle' =>
      obtain ⟨w₃, -, heq⟩ := Option.map_eq_some_iff.mp h
      cases heq
      have hiff := (interfaceHandle_registered hw hdistinct hicon hm hhandle').1
      refine ⟨iff_of_false (fun ⟨_, h⟩ => by cases h) fun hall => ?_, ?_⟩
      · obtain ⟨iconStateHandle, hok⟩ := hiff.mpr ⟨hall.2.2, haccepts'⟩
        cases hok
      · intro handle iconStateHandle hok
        cases hok
    · next w₂ iconStateHandle hhandle' =>
      cases h
      obtain ⟨hiff, hto⟩ := interfaceHandle_registered hw hdistinct hicon hm hhandle'
      have hsecond := hiff.mp ⟨iconStateHandle, rfl⟩
      refine ⟨iff_of_true ⟨_, rfl⟩ ⟨hfirst.1, hfirst.2, hsecond.1⟩, ?_⟩
      rintro _ _ ⟨⟩
      exact hto iconStateHandle rfl

/-- **What a strict interface needs** when ICON's state is registered. -/
theorem advertiseStrict_of_iconState {cls : HandleClass} {T : InterfaceType}
    {calls : AdvertiseCalls} {name : Name} {buffer iconBuffer : Bytes}
    {p p' : Process Bytes (Option Int) H} {info : MemorySegmentInfo}
    {r : Except Status (MemorySegment × MemorySegment)} (hw : Consistent p.manager)
    (hdistinct : Distinct p.manager)
    (hicon : Offers p.manager kIconStateInterfaceName iconStateType.kTypeString iconBuffer info)
    (h : advertiseStrict sizeofSegmentHeader uint8Name cls T iconStateType calls name buffer p =
      some (p', r)) :
    ((∃ handles, r = .ok handles) ↔ p.manager.Accepts name T.kTypeString ∧
      calls.add.Succeed ((sizeofSegmentHeader + buffer.length) % 2 ^ 64) ∧
      calls.get.Succeed sizeofSegmentHeader T.sizeof ∧
      (T.isTable = true → T.verifyBuffer buffer = true) ∧
      calls.getIconState.Succeed sizeofSegmentHeader iconStateType.sizeof) ∧
    ∀ handle iconStateHandle, r = .ok (handle, iconStateHandle) →
      HandleTo iconStateHandle kIconStateInterfaceName p' := by
  unfold advertiseStrict HardwareInterfaces.advertise at h
  split at h
  · cases h
  · next manager st hadd =>
    rw [advertiseInterfaceT_eq] at hadd
    obtain ⟨hsuccess, hfailure⟩ := addSegment_outcome hadd
    by_cases hall : p.manager.Accepts name T.kTypeString ∧
        calls.add.Succeed ((sizeofSegmentHeader + buffer.length) % 2 ^ 64)
    · obtain ⟨rfl, -⟩ := hsuccess hall
      obtain ⟨new, -, hoffers⟩ := offers_of_add hadd
      have hs : SharedMemoryManager.Step sizeofSegmentHeader uint8Name p.manager
          ⟨calls.add, interfaceSegment name true buffer T.kTypeString, okStatus⟩ manager := hadd
      have hw' : Consistent manager := by
        rcases step_spec hw hs with ⟨-, hsame⟩ | ⟨-, info, -, hreg⟩
        · exact hsame.consistent hw
        · exact hreg.consistent hw
      rw [if_pos (show okStatus.isOk = true from rfl)] at h
      split at h
      · cases h
      · next m hm =>
        obtain ⟨⟨segments, r'⟩, hhandle, heq⟩ := Option.map_eq_some_iff.mp h
        cases heq
        obtain ⟨hiff, hto⟩ := strictInterfaceHandle_registered hw' (hdistinct.step hw hs) hoffers
          (hicon.step hw hs) hm hhandle
        rw [hiff]
        exact ⟨⟨fun hrest => ⟨hall.1, hall.2, hrest⟩, fun hrest => hrest.2.2⟩, hto⟩
    · obtain ⟨hst, -, -⟩ := hfailure hall
      rw [hst] at h
      cases h
      refine ⟨iff_of_false (fun ⟨_, h⟩ => by cases h) fun hrest => hall ⟨hrest.1, hrest.2.1⟩, ?_⟩
      intro handle iconStateHandle hok
      cases hok

/-- **A created runtime serves strict interfaces.**  After a runtime was created, and whatever else
was registered since, a strict interface is returned if and only if there is room for one more
segment besides the 21 of the runtime, its name is new and valid, and so is its type id, the system
calls succeed, and its flatbuffer can be verified.  The handle to ICON's state that comes with it is
one to the segment that the runtime has advertised.  The names of the runtime are taken. -/
theorem created_runtime_serves_strict_interfaces {files : Nat → Option Nat}
    {memory : Nat → Option (Segment Bytes)} {segments : SharedMemory.World (Option Int) H}
    {p₀ p p' : Process Bytes (Option Int) H} {runtime : Connected} {ops : List (Called Bytes)}
    {cls : HandleClass} {T : InterfaceType} {advertiseCalls : AdvertiseCalls}
    {name : Name} {buffer : Bytes}
    {r : Except Status (MemorySegment × MemorySegment)}
    (htypeName : futex.typeName.length ≤ kMaxTypeIdSize)
    (hcreate : create sizeofSegmentHeader uint8Name b futex calls server args
      ⟨World.init files memory, segments⟩ = some (p₀, .ok runtime))
    (hrun : Run (SharedMemoryManager.Step sizeofSegmentHeader uint8Name) p₀.manager ops p.manager)
    (h : advertiseStrict sizeofSegmentHeader uint8Name cls T iconStateType advertiseCalls name
      buffer p = some (p', r)) :
    ((∃ handles, r = .ok handles) ↔
      (21 + (ops.filter (·.status.isOk)).length < kMaxNumberOfSegments ∧
        T.kTypeString.length ≤ kMaxTypeIdSize ∧ name ∉ p.manager.memorySegments ∧
        (verifyName name).isOk = true) ∧
      advertiseCalls.add.Succeed ((sizeofSegmentHeader + buffer.length) % 2 ^ 64) ∧
      advertiseCalls.get.Succeed sizeofSegmentHeader T.sizeof ∧
      (T.isTable = true → T.verifyBuffer buffer = true) ∧
      advertiseCalls.getIconState.Succeed sizeofSegmentHeader iconStateType.sizeof) ∧
    (∀ handle iconStateHandle, r = .ok (handle, iconStateHandle) →
      HandleTo iconStateHandle kIconStateInterfaceName p') ∧
    ∀ name ∈ (connectedEntries b futex args.controlPeriod).map Entry.name,
      name ∈ p.manager.memorySegments := by
  have hinventory := (Establishes.create htypeName).after _ _ _
    (inventory_init files memory : Inventory [] _) hcreate
  have hextends := hinventory.extends_run hrun
  obtain ⟨info, -, hicon⟩ := hextends.offers
    ⟨kIconStateInterfaceName, false, iconStateType.kTypeString, b.buildIconState⟩
    (List.mem_append_left _ (.tail _ (.head _)))
  obtain ⟨hiff, hto⟩ :=
    advertiseStrict_of_iconState hextends.consistent hextends.descriptors hicon h
  have haccepts : p.manager.Accepts name T.kTypeString ↔
      21 + (ops.filter (·.status.isOk)).length < kMaxNumberOfSegments ∧
        T.kTypeString.length ≤ kMaxTypeIdSize ∧ name ∉ p.manager.memorySegments ∧
        (verifyName name).isOk = true := by
    have hlength : p.manager.memorySegments.entries.length =
        21 + (ops.filter (·.status.isOk)).length := hextends.length
    rw [← hlength, ← AList.lookup_eq_none]
    exact ⟨fun h => ⟨h.room, h.typeId, h.new, h.verified⟩,
      fun ⟨hroom, htypeId, hnew, hverified⟩ => ⟨hroom, htypeId, hnew, hverified⟩⟩
  rw [haccepts] at hiff
  exact ⟨hiff, hto, hextends.mem⟩

/-- The runtime is created, and then the module advertises a strict interface. -/
theorem created_runtime_serves_strict_interfaces_first :
    ∃ p₀ runtime p' handles,
      create 64 [] zeros binaryFutex connecting (.ok ()) ⟨true, true, 5⟩ emptyProcess =
        some (p₀, .ok runtime) ∧
      advertiseStrictInterface 64 [] stateInterface iconStateType
        ⟨(nth 22 68).1, (nth 22 68).2, (nth 23 72).2⟩ (ascii "state") [1, 2, 3, 4] p₀ =
        some (p', .ok handles) ∧ HandleTo handles.2 kIconStateInterfaceName p' := by
  have hsome : ((create 64 [] zeros binaryFutex connecting (.ok ()) ⟨true, true, 5⟩
      emptyProcess).bind fun result => (advertiseStrictInterface 64 [] stateInterface iconStateType
        ⟨(nth 22 68).1, (nth 22 68).2, (nth 23 72).2⟩ (ascii "state") [1, 2, 3, 4]
          result.1).bind fun second =>
            if result.2.isOk && !decide (ascii "state" ∈ result.1.manager.memorySegments) then
              some () else none).isSome = true := by decide +kernel
  obtain ⟨_, hsome⟩ := Option.isSome_iff_exists.mp hsome
  obtain ⟨⟨p₀, r₀⟩, hcreate, hsome⟩ := Option.bind_eq_some_iff.mp hsome
  obtain ⟨⟨p', r⟩, hstrict, hnew⟩ := Option.bind_eq_some_iff.mp hsome
  cases r₀ with
  | error st => cases hnew
  | ok runtime =>
    have hnotMem : ascii "state" ∉ p₀.manager.memorySegments := by
      intro hmem
      rw [decide_eq_true hmem] at hnew
      cases hnew
    obtain ⟨hiff, hto, -⟩ := created_runtime_serves_strict_interfaces (by decide) hcreate .nil
      hstrict
    obtain ⟨⟨handle, iconStateHandle⟩, rfl⟩ := hiff.mpr
      ⟨⟨by decide, by decide, hnotMem, by decide⟩, ⟨_, _, rfl, ⟨rfl, rfl, rfl⟩, rfl⟩,
        ⟨68, _, rfl, by decide, rfl, rfl, by decide⟩, fun _ => rfl,
        ⟨72, _, rfl, by decide, rfl, rfl, by decide⟩⟩
    exact ⟨p₀, runtime, p', _, hcreate, hstrict, hto handle iconStateHandle rfl⟩

end Created

end Intrinsic.RuntimeConnection
