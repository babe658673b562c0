import IconSharedMemory.ByteLayout
import IconSharedMemory.Futex

/-! # Sending file descriptors over a domain socket

A hardware module offers its shared memory segments as file descriptors.  A
`DomainSocketServer` (`domain_socket_server.cc`) sends the map from segment names to
descriptors in messages of at most 200 entries; the client
(`GetSegmentNameToFileDescriptorMap` in `domain_socket_utils.cc`) receives them one
after the other and puts the map together again.

A message is the memory of a `TransferData` record, names in arrays of fixed size
included, with the descriptors as ancillary data.  The socket is a stream: one
message can take several calls of `recvmsg`, the first of which brings the
descriptors.  A descriptor that arrives is a new number in the receiving process;
the model is given which descriptor of the sender each number is a duplicate of,
and `fcntl` finds a number valid exactly when there is one.
-/
namespace Intrinsic.DomainSocket
open ByteLayout

/-! ## Records -/

/-- A `std::string`. -/
abbrev Name := List UInt8

/-- The number of elements of `SegmentName::value`. -/
def kMaxSegmentStringSize : Nat := 255

/-- The number of elements of `FileDescriptorNames::names`. -/
def kMaxFdsPerMessage : Nat := 200

def kDomainSocketProtocolVersion : Nat := 2

/-- `StringCopy` to an array: the array is cleared, and all but its last byte are
overwritten.  Its only error is a null destination. -/
def stringCopy {size : Nat} (source : List UInt8) : Fin size → UInt8 :=
  fun i => if i.val < min (size - 1) source.length then source.getD i.val 0 else 0

/-- `StringView` of an array: everything before the first zero byte. -/
def stringView {size : Nat} (data : Fin size → UInt8) : List UInt8 :=
  (List.ofFn data).takeWhile (· ≠ 0)

structure SegmentName where
  value : Fin kMaxSegmentStringSize → UInt8
  mustBeUsed : Bool

def SegmentName.zero : SegmentName := ⟨fun _ => 0, false⟩

structure FileDescriptorNames where
  size : Nat
  names : Fin kMaxFdsPerMessage → SegmentName

structure TransferData where
  domainSocketProtocolVersion : Nat
  numMessages : Nat
  messageIndex : Nat
  fileDescriptorNames : FileDescriptorNames

structure ShmDescriptors where
  transferData : TransferData
  fileDescriptorsInOrder : List Int

/-- A default-constructed `ShmDescriptors`. -/
def ShmDescriptors.make : ShmDescriptors :=
  ⟨⟨kDomainSocketProtocolVersion, 0, 0, ⟨0, fun _ => .zero⟩⟩, []⟩

/-! ## The memory of a record -/

def SegmentName.toBytes (n : SegmentName) : List UInt8 :=
  List.ofFn n.value ++ [if n.mustBeUsed then 1 else 0]

def SegmentName.ofBytes (bytes : List UInt8) : SegmentName :=
  ⟨fun i => bytes.getD i.val 0, decide (bytes.getD kMaxSegmentStringSize 0 ≠ 0)⟩

/-- The size of a `SegmentName`. -/
def SegmentName.sizeof : Nat := kMaxSegmentStringSize + 1

/-- The bytes of a `TransferData` before the padding at its end: three numbers of
eight bytes, one of four and the names. -/
def TransferData.toBytes (d : TransferData) : List UInt8 :=
  littleEndian 8 d.domainSocketProtocolVersion ++ (littleEndian 8 d.numMessages ++
    (littleEndian 8 d.messageIndex ++ (littleEndian 4 d.fileDescriptorNames.size ++
      (List.ofFn fun i => (d.fileDescriptorNames.names i).toBytes).flatten)))

def TransferData.ofBytes (bytes : List UInt8) : TransferData where
  domainSocketProtocolVersion := ofLittleEndian (field 0 8 bytes)
  numMessages := ofLittleEndian (field 8 8 bytes)
  messageIndex := ofLittleEndian (field 16 8 bytes)
  fileDescriptorNames :=
    { size := ofLittleEndian (field 24 4 bytes)
      names := fun i =>
        .ofBytes (field (28 + SegmentName.sizeof * i) SegmentName.sizeof bytes) }

/-- The record is padded to a multiple of eight bytes. -/
def TransferData.padding : Nat := 4

def TransferData.sizeof : Nat :=
  28 + kMaxFdsPerMessage * SegmentName.sizeof + TransferData.padding

/-! ## The server -/

/-- A `std::unordered_map<std::string, int>` that is iterated over: its entries in
the order of iteration. -/
structure SegmentNameToFileDescriptorMap where
  entries : List (Name × Int)
  nodup : (entries.map Prod.fst).Nodup
  /-- The size is a `size_t`. -/
  size_lt : entries.length < 2 ^ 64

/-- A control message: its header, and the descriptors as its data. -/
structure ControlMessage where
  len : Nat
  level : Nat
  type : Nat
  data : List Int

def solSocket : Nat := 1

def scmRights : Nat := 1

/-- `CMSG_LEN`: the header has 16 bytes. -/
def cmsgLen (bytes : Nat) : Nat := 16 + bytes

/-- `DomainSocketServer::Message`, as far as `sendmsg` looks at it. -/
structure Message where
  descriptors : ShmDescriptors
  control : ControlMessage

/-- `PrepareMessage`.  There is always room for the header of the control message. -/
def prepareMessage (protocolVersion messageIndex numMessages : Nat)
    (descriptors : ShmDescriptors) : Except Status Message :=
  if messageIndex = 0 then
    .error (formatStatus .outOfRange (ascii "message_index starts at one"))
  else if numMessages = 0 then
    .error (formatStatus .outOfRange (ascii "num_messages starts at one"))
  else if messageIndex > numMessages then
    .error (formatStatus .outOfRange (ascii
      s!"message_index ({messageIndex}) cannot be greater than num_messages ({numMessages})"))
  else
    .ok ⟨{ descriptors with
        transferData := { descriptors.transferData with
          messageIndex := messageIndex
          numMessages := numMessages
          domainSocketProtocolVersion :=
            if protocolVersion ≠ kDomainSocketProtocolVersion then protocolVersion
            else descriptors.transferData.domainSocketProtocolVersion } },
      ⟨cmsgLen (descriptors.fileDescriptorsInOrder.length * 4), solSocket, scmRights,
        descriptors.fileDescriptorsInOrder⟩⟩

/-- `Mutate` of the array of names. -/
def FileDescriptorNames.mutate (n : FileDescriptorNames) (i : Nat) (name : SegmentName) :
    FileDescriptorNames :=
  { n with names := fun j => if j.val = i then name else n.names j }

/-- The body of the loop that fills a message. -/
def ShmDescriptors.add (d : ShmDescriptors) (entry : Name × Int) : ShmDescriptors :=
  let names := d.transferData.fileDescriptorNames
  let names := names.mutate names.size ⟨stringCopy entry.1, false⟩
  { transferData :=
      { d.transferData with fileDescriptorNames := { names with size := names.size + 1 } }
    fileDescriptorsInOrder := d.fileDescriptorsInOrder ++ [entry.2] }

/-- The loop that fills a message, from where the iterator stands: the descriptors
and where the iterator stands afterwards. -/
def fillDescriptors : List (Name × Int) → ShmDescriptors → ShmDescriptors × List (Name × Int)
  | [], d => (d, [])
  | entry :: it, d =>
    -- both bounds are the size of the array
    if d.transferData.fileDescriptorNames.size < kMaxFdsPerMessage ∧
        d.transferData.fileDescriptorNames.size < kMaxFdsPerMessage then
      fillDescriptors it (d.add entry)
    else (d, entry :: it)

/-- The loop over the message indices: the messages and the number of descriptors
in them. -/
def prepareLoop (protocolVersion numMessages : Nat) :
    List Nat → List (Name × Int) → Nat → Except Status (List Message × Nat)
  | [], _, descriptorCount => .ok ([], descriptorCount)
  | messageIndex :: indices, it, descriptorCount => do
    let (descriptors, it) := fillDescriptors it .make
    let descriptorCount := descriptorCount + descriptors.transferData.fileDescriptorNames.size
    let message ← prepareMessage protocolVersion messageIndex numMessages descriptors
    let (messages, descriptorCount) ←
      prepareLoop protocolVersion numMessages indices it descriptorCount
    return (message :: messages, descriptorCount)

/-- `DomainSocketServer::PrepareMessages` -/
def prepareMessages (protocolVersion : Nat) (m : SegmentNameToFileDescriptorMap) :
    Except Status (List Message) :=
  if m.entries.isEmpty then
    .error (formatStatus .invalidArgument (ascii "segment_name_to_file_descriptor_map is empty"))
  else do
    let numMessages := 1 + (m.entries.length - 1) / kMaxFdsPerMessage
    let (messages, descriptorCount) ←
      prepareLoop protocolVersion numMessages (List.range' 1 numMessages) m.entries 0
    if descriptorCount ≠ m.entries.length then
      let size := m.entries.length
      .error (formatStatus .internal
        (ascii s!"Expected {size} descriptors, but only got {descriptorCount}"))
    else return messages

/-- The request handler sends every message; one whose `sendmsg` fails is logged and
skipped. -/
def sendMessages (sendmsgFails : Message → Bool) (messages : List Message) : List Message :=
  messages.filter fun message => !sendmsgFails message

/-! ## The client -/

/-- What a call of `recvmsg` brings: an error, with the text of `errno`, or a chunk
of bytes with or without ancillary data.  When there is nothing left the server has
closed the connection, and `recvmsg` returns zero. -/
inductive Recv
  | failed (error : List UInt8)
  | data (bytes : List UInt8) (control : Option ControlMessage)

/-- How a client call ends without a result: an error, or an access to an array
beyond its end. -/
inductive Stop
  | error (st : Status)
  | outOfBounds

def noDataReceived : Status :=
  ⟨.internal, ascii "No data received. Likely due to shutdown."⟩

/-- The loop around `recvmsg`.  Only the first call has room for ancillary data, and
the client looks at that call's buffer later, which holds zeros if nothing came. -/
def receive (received : List UInt8) (control : ControlMessage) :
    List Recv → Except Stop (List UInt8 × ControlMessage × List Recv)
  | [] =>
    if received.length < TransferData.sizeof then .error (.error noDataReceived)
    else .ok (received, control, [])
  | recv :: socket =>
    if received.length < TransferData.sizeof then
      match recv with
      | .failed error =>
        .error (.error (formatStatus .internal
          (ascii "Failed to receive data with error: " ++ error)))
      | .data bytes ancillary =>
        if bytes.length = 0 then .error (.error noDataReceived)
        else
          let sum := received.length + bytes.length
          if sum > TransferData.sizeof then
            let expected := TransferData.sizeof
            .error (.error (formatStatus .outOfRange
              (ascii s!"Received {sum} bytes but only expected {expected} bytes")))
          else
            receive (received ++ bytes)
              (if received.length > 0 then control else ancillary.getD control) socket
    else .ok (received, control, recv :: socket)

/-- `GetNamesFromFileDescriptorNames` -/
def getNamesFromFileDescriptorNames (n : FileDescriptorNames) : Except Stop (List Name) :=
  (List.range n.size).mapM fun i =>
    if h : i < kMaxFdsPerMessage then .ok (stringView (n.names ⟨i, h⟩).value)
    else .error .outOfBounds

/-- The loop that checks the received descriptors with `fcntl`, which fails with
`EBADF`. -/
def checkDescriptors (file : Int → Option Int) (segmentNames : List Name) (numNames : Nat)
    (data : List Int) : Except Stop (List Int) :=
  (List.range numNames).mapM fun i =>
    let fd := data.getD i 0
    if (file fd).isNone then
      .error (.error (formatStatus .internal (ascii "File descriptor for segment '" ++
        segmentNames.getD i [] ++ ascii "' is not valid. Either the receiving process can't " ++
        ascii "open any more files, or the server sent a closed file descriptor. " ++
        ascii "Error: Bad file descriptor")))
    else .ok fd

/-- `GetSingleMessage` after its loop: what it makes of the bytes and of the control
message. -/
def parseMessage (file : Int → Option Int) (received : List UInt8) (cmsg : ControlMessage) :
    Except Stop ShmDescriptors :=
  let data := TransferData.ofBytes received
  let version := data.domainSocketProtocolVersion
  let index := data.messageIndex
  let count := data.numMessages
  let numNames := data.fileDescriptorNames.size
  if version ≠ kDomainSocketProtocolVersion then
    .error (.error (formatStatus .failedPrecondition
      (ascii s!"Incompatible domain socket protocol version. Got: {version}, " ++
        ascii s!"expected {kDomainSocketProtocolVersion}.")))
  else do
    let segmentNames ← getNamesFromFileDescriptorNames data.fileDescriptorNames
    let len := cmsg.len
    let expected := cmsgLen (numNames * 4)
    let level := cmsg.level
    let type := cmsg.type
    if len ≠ expected then
      .error (.error (formatStatus .internal
        (ascii s!"Unexpected size of control message ({index}/{count}). " ++
          ascii s!"Expected {expected} bytes, got {len} bytes.")))
    else if level ≠ solSocket then
      .error (.error (formatStatus .internal
        (ascii s!"Unexpected level of control message. Expected {solSocket}, got {level}")))
    else if type ≠ scmRights then
      .error (.error (formatStatus .internal
        (ascii s!"Unexpected type of control message. Expected '{scmRights}', got '{type}'")))
    else
      let fds ← checkDescriptors file segmentNames numNames cmsg.data
      return ⟨data, fds⟩

/-- `GetSingleMessage`: the message and what is left on the socket. -/
def getSingleMessage (file : Int → Option Int) (socket : List Recv) :
    Except Stop (ShmDescriptors × List Recv) :=
  match receive [] ⟨0, 0, 0, []⟩ socket with
  | .error stop => .error stop
  | .ok (received, cmsg, socket) =>
    match parseMessage file received cmsg with
    | .error stop => .error stop
    | .ok descriptors => .ok (descriptors, socket)

/-- A call of `recvmsg` is made whenever the record is not complete. -/
theorem receive_shorter {received : List UInt8} {control : ControlMessage} {socket : List Recv}
    {result : List UInt8 × ControlMessage × List Recv}
    (h : receive received control socket = .ok result) :
    result.2.2.length ≤ socket.length ∧
      (received.length < TransferData.sizeof → result.2.2.length < socket.length) := by
  induction socket generalizing received control with
  | nil =>
    unfold receive at h
    split at h
    · cases h
    · cases h
      exact ⟨le_rfl, fun hlt => by contradiction⟩
  | cons recv socket ih =>
    unfold receive at h
    split at h
    · split at h
      · cases h
      · split at h
        · cases h
        · dsimp only at h
          split at h
          · cases h
          · have hle := (ih h).1
            exact ⟨by simp only [List.length_cons]; omega,
              fun _ => by simp only [List.length_cons]; omega⟩
    · cases h
      exact ⟨le_rfl, fun hlt => by contradiction⟩

theorem getSingleMessage_ok {file : Int → Option Int} {socket rest : List Recv}
    {message : ShmDescriptors} (h : getSingleMessage file socket = .ok (message, rest)) :
    ∃ received cmsg, receive [] ⟨0, 0, 0, []⟩ socket = .ok (received, cmsg, rest) ∧
      parseMessage file received cmsg = .ok message := by
  unfold getSingleMessage at h
  split at h
  · cases h
  · rename_i received cmsg left hreceive
    split at h
    · cases h
    · rename_i descriptors hparse
      cases h
      exact ⟨received, cmsg, hreceive, hparse⟩

theorem getSingleMessage_shorter {file : Int → Option Int} {socket rest : List Recv}
    {message : ShmDescriptors} (h : getSingleMessage file socket = .ok (message, rest)) :
    rest.length < socket.length := by
  obtain ⟨received, cmsg, hreceive, -⟩ := getSingleMessage_ok h
  exact (receive_shorter hreceive).2 (by decide)

/-- The map the client fills: what a name is bound to. -/
abbrev ReceivedMap := Name → Option Int

/-- `segment_name_to_file_descriptor_map[name] = fd` for every name of a message. -/
def insertAll (map : ReceivedMap) (bindings : List (Name × Int)) : ReceivedMap :=
  bindings.foldl (fun map binding => Function.update map binding.1 (some binding.2)) map

/-- The loop of `GetSegmentNameToFileDescriptorMap` over the messages. -/
def receiveMessages (file : Int → Option Int) (socket : List Recv)
    (expectedMessageIndex expectedNumMessages : Nat) (map : ReceivedMap) :
    Except Stop ReceivedMap :=
  match _h : getSingleMessage file socket with
  | .error stop => .error stop
  | .ok (message, rest) =>
    let index := message.transferData.messageIndex
    let count := message.transferData.numMessages
    if expectedMessageIndex ≠ index then
      .error (.error (formatStatus .internal
        (ascii s!"Expected message with index {expectedMessageIndex} but got {index}")))
    else
      let expectedNumMessages := if expectedMessageIndex = 1 then count else expectedNumMessages
      if expectedNumMessages ≠ count then
        .error (.error (formatStatus .failedPrecondition
          (ascii s!"Expected {expectedNumMessages} messages, but message {index} " ++
            ascii s!"claims that there are {count}.")))
      else
        -- a subtraction of `size_t`
        let remainingMessages := (expectedNumMessages + (2 ^ 64 - expectedMessageIndex)) % 2 ^ 64
        match getNamesFromFileDescriptorNames message.transferData.fileDescriptorNames with
        | .error stop => .error stop
        | .ok names =>
          let numNames := names.length
          let numFds := message.fileDescriptorsInOrder.length
          if numNames ≠ numFds then
            .error (.error (formatStatus .failedPrecondition
              (ascii s!"Names and file descriptors have different sizes. Got: {numNames} names " ++
                ascii s!"and {numFds} file descriptors")))
          else
            let map := insertAll map (names.zip message.fileDescriptorsInOrder)
            if remainingMessages > 0 then
              receiveMessages file rest (expectedMessageIndex + 1) expectedNumMessages map
            else .ok map
termination_by socket.length
decreasing_by exact getSingleMessage_shorter _h

/-- `GetSegmentNameToFileDescriptorMap` once it is connected. -/
def getSegmentNameToFileDescriptorMap (file : Int → Option Int) (socket : List Recv) :
    Except Stop ReceivedMap :=
  receiveMessages file socket 1 0 fun _ => none

end Intrinsic.DomainSocket
