import IconSharedMemory.DomainSocket
import Mathlib.Data.List.Forall2
import Mathlib.Data.List.GetD
import Mathlib.Data.List.Nodup
import Mathlib.Data.List.Pairwise

/-! # The client gets the server's map, or an error

The messages of a server tile its map: they are numbered from one, each carries the
next entries of the map, and together they carry all of them (`Tiles`).  The client
accepts a message exactly when its number is the next one, so it accepts a stream
only if no message of the tiling is missing, and then it has bound every name to a
duplicate of its descriptor (`map_transfer_exact`).

In between there are two encodings to be undone: a name in an array of fixed size,
and a record in memory that arrives in pieces.
-/
namespace Intrinsic.DomainSocket
open ByteLayout

variable {file : Int → Option Int}

/-! ## Names -/

/-- A name that fits into a `SegmentName` and can be read back from it. -/
def ValidName (name : Name) : Prop := name.length ≤ 254 ∧ (0 : UInt8) ∉ name

theorem ofFn_stringCopy {size : Nat} {source : List UInt8} (h : source.length < size) :
    List.ofFn (stringCopy source : Fin size → UInt8) =
      source ++ List.replicate (size - source.length) 0 := by
  apply List.ext_getElem
  · simp; omega
  · intro i h₁ h₂
    simp only [List.getElem_ofFn, stringCopy]
    by_cases hi : i < source.length
    · rw [if_pos (by omega), List.getElem_append_left hi, List.getD_eq_getElem _ _ hi]
    · rw [if_neg (by omega), List.getElem_append_right (by omega), List.getElem_replicate]

/-- **A name is read back from its array.** -/
theorem stringView_stringCopy {name : Name} (h : ValidName name) :
    stringView (stringCopy name : Fin kMaxSegmentStringSize → UInt8) = name := by
  have hlen : name.length < kMaxSegmentStringSize := by
    have := h.1
    unfold kMaxSegmentStringSize
    omega
  rw [stringView, ofFn_stringCopy hlen, List.takeWhile_append_of_pos]
  · obtain ⟨n, hn⟩ : ∃ n, kMaxSegmentStringSize - name.length = n + 1 :=
      ⟨kMaxSegmentStringSize - name.length - 1, by omega⟩
    simp [hn, List.replicate_succ]
  · intro b hb
    have hne : b ≠ 0 := fun h0 => h.2 (h0 ▸ hb)
    simp [hne]

/-! ## Records -/

theorem SegmentName.length_toBytes (n : SegmentName) : n.toBytes.length = SegmentName.sizeof := by
  simp [SegmentName.toBytes, SegmentName.sizeof]

theorem SegmentName.ofBytes_toBytes (n : SegmentName) : SegmentName.ofBytes n.toBytes = n := by
  obtain ⟨value, mustBeUsed⟩ := n
  unfold SegmentName.ofBytes SegmentName.toBytes
  congr 1
  · funext i
    have hlt : i.val < (List.ofFn value ++ [if mustBeUsed then 1 else 0]).length := by
      rw [List.length_append, List.length_ofFn]
      exact Nat.lt_add_right _ i.isLt
    rw [List.getD_eq_getElem _ _ hlt, List.getElem_append_left (by simp)]
    simp
  · rw [List.getD_eq_getElem _ _ (by simp), List.getElem_append_right (by simp)]
    cases mustBeUsed <;> simp

/-- The numbers of a record fit into their fields. -/
structure TransferData.Fits (d : TransferData) : Prop where
  version : d.domainSocketProtocolVersion < 256 ^ 8
  count : d.numMessages < 256 ^ 8
  index : d.messageIndex < 256 ^ 8
  size : d.fileDescriptorNames.size < 256 ^ 4

theorem TransferData.length_toBytes (d : TransferData) :
    d.toBytes.length + TransferData.padding = TransferData.sizeof := by
  have hnames := length_flatten_ofFn (fun i => (d.fileDescriptorNames.names i).length_toBytes)
  simp only [TransferData.toBytes, List.length_append, length_littleEndian, hnames,
    TransferData.sizeof]
  omega

/-- **A record is read back from its memory**, whatever the padding holds. -/
theorem TransferData.ofBytes_toBytes {d : TransferData} (h : d.Fits) (padding : List UInt8) :
    TransferData.ofBytes (d.toBytes ++ padding) = d := by
  have h8 : ∀ n, (littleEndian 8 n).length = 8 := length_littleEndian 8
  have h4 : ∀ n, (littleEndian 4 n).length = 4 := length_littleEndian 4
  generalize hbytes : d.toBytes ++ padding = bytes
  unfold TransferData.toBytes at hbytes
  simp only [List.append_assoc] at hbytes
  have hversion : ofLittleEndian (field 0 8 bytes) = d.domainSocketProtocolVersion := by
    rw [← hbytes, field_head (h8 _), ofLittleEndian_littleEndian h.version]
  have hcount : ofLittleEndian (field 8 8 bytes) = d.numMessages := by
    rw [← hbytes, field_append (h8 _) 0, field_head (h8 _), ofLittleEndian_littleEndian h.count]
  have hindex : ofLittleEndian (field 16 8 bytes) = d.messageIndex := by
    rw [← hbytes, field_append (h8 _) 8, field_append (h8 _) 0, field_head (h8 _),
      ofLittleEndian_littleEndian h.index]
  have hsize : ofLittleEndian (field 24 4 bytes) = d.fileDescriptorNames.size := by
    rw [← hbytes, field_append (h8 _) 16, field_append (h8 _) 8, field_append (h8 _) 0,
      field_head (h4 _), ofLittleEndian_littleEndian h.size]
  have hname : ∀ i, SegmentName.ofBytes (field (28 + SegmentName.sizeof * i.val)
      SegmentName.sizeof bytes) = d.fileDescriptorNames.names i := by
    intro i
    have hoffset : 28 + SegmentName.sizeof * i.val =
        8 + (8 + (8 + (4 + SegmentName.sizeof * i.val))) := by omega
    rw [← hbytes, hoffset, field_append (h8 _), field_append (h8 _), field_append (h8 _),
      field_append (h4 _), field_flatten_ofFn fun i => SegmentName.length_toBytes _,
      SegmentName.ofBytes_toBytes]
  unfold TransferData.ofBytes
  rw [hversion, hcount, hindex, hsize, funext hname]

/-! ## Messages -/

/-- The message with this index carries a batch of entries. -/
structure Carries (message : Message) (index count : Nat) (batch : List (Name × Int)) :
    Prop where
  version : message.descriptors.transferData.domainSocketProtocolVersion =
    kDomainSocketProtocolVersion
  index : message.descriptors.transferData.messageIndex = index
  count : message.descriptors.transferData.numMessages = count
  size : message.descriptors.transferData.fileDescriptorNames.size = batch.length
  name : ∀ i (h : i < batch.length) (h' : i < kMaxFdsPerMessage),
    stringView (message.descriptors.transferData.fileDescriptorNames.names ⟨i, h'⟩).value =
      (batch.get ⟨i, h⟩).1
  control : message.control =
    ⟨cmsgLen (batch.length * 4), solSocket, scmRights, batch.map Prod.snd⟩
  bound : batch.length ≤ kMaxFdsPerMessage

/-- **The messages tile the entries**: from `index` to `count`, each one carries the
next entries. -/
inductive Tiles (count : Nat) : Nat → List (Name × Int) → List Message → Prop
  | done : Tiles count (count + 1) [] []
  | next {index : Nat} {batch rest : List (Name × Int)} {message : Message}
      {messages : List Message} (h : Carries message index count batch) (hne : batch ≠ [])
      (hmore : Tiles count (index + 1) rest messages) :
      Tiles count index (batch ++ rest) (message :: messages)

/-- The descriptors hold these entries, in order. -/
structure Holds (d : ShmDescriptors) (entries : List (Name × Int)) : Prop where
  version : d.transferData.domainSocketProtocolVersion = kDomainSocketProtocolVersion
  size : d.transferData.fileDescriptorNames.size = entries.length
  name : ∀ i (h : i < entries.length) (h' : i < kMaxFdsPerMessage),
    (d.transferData.fileDescriptorNames.names ⟨i, h'⟩).value =
      stringCopy (entries.get ⟨i, h⟩).1
  fds : d.fileDescriptorsInOrder = entries.map Prod.snd

theorem holds_make : Holds .make [] := ⟨rfl, rfl, nofun, rfl⟩

theorem Holds.add {d : ShmDescriptors} {entries : List (Name × Int)} (h : Holds d entries)
    (entry : Name × Int) : Holds (d.add entry) (entries ++ [entry]) := by
  refine ⟨h.version, ?_, fun i hi hi' => ?_, ?_⟩
  · show d.transferData.fileDescriptorNames.size + 1 = _
    rw [h.size, List.length_append, List.length_singleton]
  · simp only [ShmDescriptors.add, FileDescriptorNames.mutate, h.size, List.get_eq_getElem]
    by_cases hlast : i = entries.length
    · subst hlast
      simp
    · have hold : i < entries.length := by
        simp only [List.length_append, List.length_singleton] at hi
        omega
      rw [if_neg hlast, List.getElem_append_left hold]
      exact h.name i hold hi'
  · show d.fileDescriptorsInOrder ++ [entry.2] = _
    rw [h.fds, List.map_append, List.map_singleton]

/-- **The loop that fills a message takes entries until the message is full.** -/
theorem fillDescriptors_holds {it entries : List (Name × Int)} {d : ShmDescriptors}
    (h : Holds d entries) :
    (fillDescriptors it d).2 = it.drop (kMaxFdsPerMessage - entries.length) ∧
      Holds (fillDescriptors it d).1 (entries ++ it.take (kMaxFdsPerMessage - entries.length)) := by
  induction it generalizing entries d with
  | nil => simpa [fillDescriptors] using h
  | cons entry it ih =>
    rw [fillDescriptors, h.size]
    by_cases hfull : entries.length < kMaxFdsPerMessage
    · rw [if_pos ⟨hfull, hfull⟩]
      obtain ⟨hrest, hholds⟩ := ih (h.add entry)
      obtain ⟨n, hn⟩ : ∃ n, kMaxFdsPerMessage - entries.length = n + 1 :=
        ⟨kMaxFdsPerMessage - entries.length - 1, by omega⟩
      have hn' : kMaxFdsPerMessage - (entries ++ [entry]).length = n := by
        rw [List.length_append, List.length_singleton]
        omega
      rw [hn'] at hrest hholds
      rw [hn, List.drop_succ_cons, List.take_succ_cons]
      rw [List.append_assoc] at hholds
      exact ⟨hrest, hholds⟩
    · rw [if_neg fun hboth => hfull hboth.1, Nat.sub_eq_zero_of_le (by omega)]
      simpa using h

theorem Holds.carries {d : ShmDescriptors} {batch : List (Name × Int)} {index count : Nat}
    {message : Message} (h : Holds d batch) (hvalid : ∀ entry ∈ batch, ValidName entry.1)
    (hbound : batch.length ≤ kMaxFdsPerMessage)
    (hmessage : prepareMessage kDomainSocketProtocolVersion index count d = .ok message) :
    Carries message index count batch := by
  unfold prepareMessage at hmessage
  split at hmessage
  · cases hmessage
  · split at hmessage
    · cases hmessage
    · split at hmessage
      · cases hmessage
      · cases hmessage
        refine ⟨?_, rfl, rfl, h.size, fun i hi hi' => ?_, ?_, hbound⟩
        · show (if kDomainSocketProtocolVersion ≠ kDomainSocketProtocolVersion then
            kDomainSocketProtocolVersion else d.transferData.domainSocketProtocolVersion) = _
          rw [if_neg (not_not_intro rfl), h.version]
        · show stringView (d.transferData.fileDescriptorNames.names ⟨i, hi'⟩).value = _
          rw [h.name i hi hi', stringView_stringCopy (hvalid _ (List.get_mem ..))]
        · rw [h.fds, List.length_map]

theorem prepareMessage_ok {version index count : Nat} {d : ShmDescriptors} (hpos : 1 ≤ index)
    (hle : index ≤ count) : ∃ message, prepareMessage version index count d = .ok message := by
  unfold prepareMessage
  rw [if_neg (by omega), if_neg (by omega), if_neg (by omega)]
  exact ⟨_, rfl⟩

theorem prepareLoop_cons {version count index descriptorCount total : Nat} {indices : List Nat}
    {it rest : List (Name × Int)} {d : ShmDescriptors} {message : Message}
    {messages : List Message} (hfill : fillDescriptors it .make = (d, rest))
    (hmessage : prepareMessage version index count d = .ok message)
    (hloop : prepareLoop version count indices rest
      (descriptorCount + d.transferData.fileDescriptorNames.size) = .ok (messages, total)) :
    prepareLoop version count (index :: indices) it descriptorCount =
      .ok (message :: messages, total) := by
  simp only [prepareLoop, hfill, hmessage, hloop, bind, Except.bind, pure, Except.pure]

/-- **The loop of the server tiles the entries.**  There are enough messages left for
all entries, and not one too many. -/
theorem prepareLoop_tiles {count left index descriptorCount : Nat} {it : List (Name × Int)}
    (hvalid : ∀ entry ∈ it, ValidName entry.1) (hindex : 1 ≤ index)
    (hleft : index + left = count + 1) (henough : it.length ≤ kMaxFdsPerMessage * left)
    (htight : kMaxFdsPerMessage * left < it.length + kMaxFdsPerMessage) :
    ∃ messages, prepareLoop kDomainSocketProtocolVersion count (List.range' index left) it
        descriptorCount = .ok (messages, descriptorCount + it.length) ∧
      Tiles count index it messages := by
  induction left generalizing index it descriptorCount with
  | zero =>
    obtain rfl : it = [] := List.eq_nil_of_length_eq_zero (by omega)
    obtain rfl : index = count + 1 := by omega
    exact ⟨[], rfl, .done⟩
  | succ left ih =>
    obtain ⟨⟨d, rest⟩, hfill⟩ : ∃ p, fillDescriptors it .make = p := ⟨_, rfl⟩
    obtain ⟨hrest, hholds⟩ := @fillDescriptors_holds it [] .make holds_make
    rw [hfill, List.length_nil, Nat.sub_zero] at hrest hholds
    rw [List.nil_append] at hholds
    dsimp only at hrest hholds
    obtain ⟨message, hmessage⟩ : ∃ message,
        prepareMessage kDomainSocketProtocolVersion index count d = .ok message :=
      prepareMessage_ok hindex (by omega)
    have hlen : rest.length = it.length - kMaxFdsPerMessage := by rw [hrest, List.length_drop]
    have hbatch : (it.take kMaxFdsPerMessage).length = min kMaxFdsPerMessage it.length :=
      List.length_take ..
    have hmax : kMaxFdsPerMessage = 200 := rfl
    rw [Nat.mul_succ] at henough htight
    obtain ⟨messages, hloop, htiles⟩ := @ih (index + 1)
      (descriptorCount + d.transferData.fileDescriptorNames.size) rest
      (fun entry he => hvalid entry (List.mem_of_mem_drop (hrest ▸ he)))
      (show 1 ≤ index + 1 by omega) (by omega) (by omega) (by omega)
    refine ⟨message :: messages, ?_, ?_⟩
    · have htotal : descriptorCount + min kMaxFdsPerMessage it.length +
          (it.length - kMaxFdsPerMessage) = descriptorCount + it.length := by omega
      rw [List.range'_succ, prepareLoop_cons hfill hmessage hloop, hholds.size, hbatch, hlen,
        htotal]
    · have hcarries : Carries message index count (it.take kMaxFdsPerMessage) :=
        hholds.carries (fun entry he => hvalid entry (List.mem_of_mem_take he))
          (List.length_take_le ..) hmessage
      have hne : it.take kMaxFdsPerMessage ≠ [] := by
        rw [ne_eq, ← List.length_eq_zero_iff]
        omega
      have htile := Tiles.next hcarries hne htiles
      rwa [hrest, List.take_append_drop] at htile

theorem prepareMessages_tiles {m : SegmentNameToFileDescriptorMap} (hne : m.entries ≠ [])
    (hvalid : ∀ entry ∈ m.entries, ValidName entry.1) :
    ∃ messages, prepareMessages kDomainSocketProtocolVersion m = .ok messages ∧
      Tiles (1 + (m.entries.length - 1) / kMaxFdsPerMessage) 1 m.entries messages := by
  have hpos : 0 < m.entries.length := List.length_pos_iff.mpr hne
  obtain ⟨messages, hloop, htiles⟩ := @prepareLoop_tiles
    (1 + (m.entries.length - 1) / kMaxFdsPerMessage)
    (1 + (m.entries.length - 1) / kMaxFdsPerMessage) 1 0 m.entries hvalid le_rfl
    (Nat.add_comm ..) (by unfold kMaxFdsPerMessage; omega) (by unfold kMaxFdsPerMessage; omega)
  refine ⟨messages, ?_, htiles⟩
  unfold prepareMessages
  rw [if_neg (by simpa using hne)]
  show (prepareLoop _ _ _ _ _ >>= _) = _
  rw [hloop]
  show (if 0 + m.entries.length ≠ m.entries.length then _ else _) = _
  rw [Nat.zero_add, if_neg fun hne => hne rfl]
  rfl

/-! ## The stream -/

/-- A number of the receiving process is a duplicate of the sender's descriptor. -/
def IsDuplicate (file : Int → Option Int) (number fd : Int) : Prop := file number = some fd

/-- **How a message arrives**: its bytes in non-empty chunks, and with the first one
the control message, in which the kernel has put duplicates of the descriptors. -/
inductive Arrives (file : Int → Option Int) (message : Message) : List Recv → Prop
  | mk (first : List UInt8) (more : List (List UInt8)) (padding : List UInt8) (fds : List Int)
      (hpadding : padding.length = TransferData.padding) (hfirst : first ≠ [])
      (hmore : ∀ chunk ∈ more, chunk ≠ [])
      (hjoin : first ++ more.flatten = message.descriptors.transferData.toBytes ++ padding)
      (hfds : List.Forall₂ (IsDuplicate file) fds message.control.data) :
      Arrives file message (.data first (some { message.control with data := fds }) ::
        more.map fun chunk => .data chunk none)

/-- The messages arrive one after the other, and then the connection is closed. -/
inductive Delivers (file : Int → Option Int) : List Message → List Recv → Prop
  | nil : Delivers file [] []
  | cons {message : Message} {messages : List Message} {recvs socket : List Recv}
      (h : Arrives file message recvs) (hmore : Delivers file messages socket) :
      Delivers file (message :: messages) (recvs ++ socket)

theorem receive_complete {received : List UInt8} {control : ControlMessage}
    (h : received.length = TransferData.sizeof) (socket : List Recv) :
    receive received control socket = .ok (received, control, socket) := by
  unfold receive
  cases socket with
  | nil => exact if_neg (by omega)
  | cons recv socket => exact if_neg (by omega)

/-- **The chunks of a record are put together again**, and nothing behind them is
touched. -/
theorem receive_chunks {received : List UInt8} {control : ControlMessage}
    {more : List (List UInt8)} (hmore : ∀ chunk ∈ more, chunk ≠ []) (hpos : 0 < received.length)
    (hsum : received.length + more.flatten.length = TransferData.sizeof) (socket : List Recv) :
    receive received control ((more.map fun chunk => .data chunk none) ++ socket) =
      .ok (received ++ more.flatten, control, socket) := by
  induction more generalizing received with
  | nil =>
    rw [List.flatten_nil, List.length_nil] at hsum
    simpa using receive_complete hsum socket
  | cons chunk more ih =>
    have hchunk : 0 < chunk.length := List.length_pos_iff.mpr (hmore chunk (.head _))
    rw [List.flatten_cons, List.length_append] at hsum
    rw [List.map_cons, List.cons_append]
    unfold receive
    rw [if_pos (by omega)]
    dsimp only
    rw [if_neg (by omega), if_neg (by omega), if_pos hpos,
      ih (fun c hc => hmore c (.tail _ hc)) (by rw [List.length_append]; omega)
        (by rw [List.length_append]; omega),
      List.flatten_cons, List.append_assoc]

theorem receive_first {first : List UInt8} {control : ControlMessage}
    {more : List (List UInt8)} (hfirst : first ≠ []) (hmore : ∀ chunk ∈ more, chunk ≠ [])
    (hsum : (first ++ more.flatten).length = TransferData.sizeof) (socket : List Recv) :
    receive [] ⟨0, 0, 0, []⟩ (.data first (some control) ::
      ((more.map fun chunk => .data chunk none) ++ socket)) =
        .ok (first ++ more.flatten, control, socket) := by
  have hpos : 0 < first.length := List.length_pos_iff.mpr hfirst
  rw [List.length_append] at hsum
  unfold receive
  rw [if_pos (by decide)]
  dsimp only
  rw [if_neg (by omega), if_neg (by rw [List.length_nil]; omega), List.length_nil,
    if_neg (by omega)]
  exact receive_chunks hmore hpos hsum socket

theorem Carries.names {message : Message} {index count : Nat} {batch : List (Name × Int)}
    (h : Carries message index count batch) :
    getNamesFromFileDescriptorNames message.descriptors.transferData.fileDescriptorNames =
      .ok (batch.map Prod.fst) := by
  unfold getNamesFromFileDescriptorNames
  rw [h.size, mapM_ok (g := fun i => (batch.map Prod.fst).getD i [])]
  · rw [← List.length_map Prod.fst, range_map_getD]
  · intro i hi
    have hlt : i < batch.length := List.mem_range.mp hi
    have hmax : i < kMaxFdsPerMessage := lt_of_lt_of_le hlt h.bound
    rw [dif_pos hmax, h.name i hlt hmax, List.getD_eq_getElem _ _ (by simpa using hlt),
      List.getElem_map]
    rfl

theorem checkDescriptors_ok {names : List Name} {fds data : List Int}
    (h : List.Forall₂ (IsDuplicate file) fds data) :
    checkDescriptors file names data.length fds = .ok fds := by
  unfold checkDescriptors
  rw [mapM_ok (g := fun i => fds.getD i 0)]
  · rw [← h.length_eq, range_map_getD]
  · intro i hi
    have hlt : i < data.length := List.mem_range.mp hi
    have hlt' : i < fds.length := h.length_eq ▸ hlt
    have hdup : file (fds.getD i 0) = some (data.get ⟨i, hlt⟩) := by
      rw [List.getD_eq_getElem _ _ hlt']
      exact h.get hlt' hlt
    dsimp only
    rw [hdup]
    rfl

/-- **A message that arrives is received as it was sent**, with duplicates in place of
the descriptors. -/
theorem getSingleMessage_arrives {message : Message} {index count : Nat}
    {batch : List (Name × Int)} {recvs : List Recv} (h : Carries message index count batch)
    (hcount : count < 2 ^ 64) (hindex : index ≤ count) (ha : Arrives file message recvs)
    (socket : List Recv) :
    ∃ fds, getSingleMessage file (recvs ++ socket) =
        .ok (⟨message.descriptors.transferData, fds⟩, socket) ∧
      List.Forall₂ (IsDuplicate file) fds (batch.map Prod.snd) := by
  cases ha with
  | mk first more padding fds hpadding hfirst hmore hjoin hfds =>
    have hmax := h.bound
    unfold kMaxFdsPerMessage at hmax
    have hfits : message.descriptors.transferData.Fits := by
      refine ⟨?_, ?_, ?_, ?_⟩
      · rw [h.version]; decide
      · rw [h.count]; omega
      · rw [h.index]; omega
      · rw [h.size]; omega
    have hlen : (first ++ more.flatten).length = TransferData.sizeof := by
      rw [hjoin, List.length_append, hpadding, TransferData.length_toBytes]
    have hsize : batch.length = (batch.map Prod.snd).length := by rw [List.length_map]
    rw [h.control] at hfds ⊢
    refine ⟨fds, ?_, hfds⟩
    unfold getSingleMessage
    rw [List.cons_append, receive_first hfirst hmore hlen, hjoin]
    dsimp only
    have hparse : parseMessage file (message.descriptors.transferData.toBytes ++ padding)
        ⟨cmsgLen (batch.length * 4), solSocket, scmRights, fds⟩ =
          .ok ⟨message.descriptors.transferData, fds⟩ := by
      unfold parseMessage
      rw [TransferData.ofBytes_toBytes hfits]
      dsimp only
      rw [if_neg (not_not_intro h.version), h.names]
      simp only [bind, Except.bind]
      rw [h.size, if_neg (not_not_intro rfl), if_neg (not_not_intro rfl),
        if_neg (not_not_intro rfl), hsize, checkDescriptors_ok hfds]
      rfl
    rw [hparse]

/-! ## The loop of the client -/

/-- **The map binds exactly the names of the entries**, each to a duplicate of its
descriptor. -/
structure Exact (file : Int → Option Int) (entries : List (Name × Int)) (map : ReceivedMap) :
    Prop where
  bound : ∀ name fd, (name, fd) ∈ entries → ∃ number, map name = some number ∧
    IsDuplicate file number fd
  only : ∀ name, name ∉ entries.map Prod.fst → map name = none

theorem Exact.insert {entries : List (Name × Int)} {map : ReceivedMap} {name : Name}
    {fd number : Int} (h : Exact file entries map) (hnew : name ∉ entries.map Prod.fst)
    (hdup : IsDuplicate file number fd) :
    Exact file (entries ++ [(name, fd)]) (Function.update map name (some number)) := by
  refine ⟨fun other fd' hmem => ?_, fun other hother => ?_⟩
  · rcases List.mem_append.mp hmem with hold | hlast
    · have hne : other ≠ name := by
        rintro rfl
        exact hnew (List.mem_map_of_mem hold)
      rw [Function.update_of_ne hne]
      exact h.bound other fd' hold
    · obtain ⟨rfl, rfl⟩ := Prod.mk.inj (List.mem_singleton.mp hlast)
      exact ⟨number, Function.update_self .., hdup⟩
  · rw [List.map_append, List.mem_append, not_or] at hother
    have hne : other ≠ name := by
      rintro rfl
      exact hother.2 (.head _)
    rw [Function.update_of_ne hne]
    exact h.only other hother.1

theorem Exact.insertAll {batch entries : List (Name × Int)} {map : ReceivedMap} {fds : List Int}
    (h : Exact file entries map) (hnodup : ((entries ++ batch).map Prod.fst).Nodup)
    (hfds : List.Forall₂ (IsDuplicate file) fds (batch.map Prod.snd)) :
    Exact file (entries ++ batch) (insertAll map ((batch.map Prod.fst).zip fds)) := by
  induction batch generalizing entries map fds with
  | nil => simpa [DomainSocket.insertAll] using h
  | cons entry batch ih =>
    obtain ⟨name, fd⟩ := entry
    cases hfds with
    | @cons number _ fds _ hdup hrest =>
      have hnew : name ∉ entries.map Prod.fst := by
        rw [List.map_append, List.nodup_append] at hnodup
        exact fun hmem => hnodup.2.2 name hmem name (.head _) rfl
      rw [List.append_cons] at hnodup ⊢
      exact ih (h.insert hnew hdup) hnodup hrest

theorem receiveMessages_error {socket : List Recv} {stop : Stop} {index count : Nat}
    {map : ReceivedMap} (h : getSingleMessage file socket = .error stop) :
    receiveMessages file socket index count map = .error stop := by
  unfold receiveMessages
  split
  · rename_i heq
    rw [h] at heq
    cases heq
    rfl
  · rename_i heq
    rw [h] at heq
    cases heq

/-- The client takes a message only if it is the next one. -/
theorem receiveMessages_wrong_index {socket rest : List Recv} {message : ShmDescriptors}
    {index count : Nat} {map : ReceivedMap}
    (h : getSingleMessage file socket = .ok (message, rest))
    (hindex : index ≠ message.transferData.messageIndex) :
    ∃ st, receiveMessages file socket index count map = .error (.error st) := by
  unfold receiveMessages
  split
  · rename_i heq
    rw [h] at heq
    cases heq
  · rename_i heq
    rw [h] at heq
    cases heq
    exact ⟨_, if_pos hindex⟩

/-- The client takes the next message, and goes on if it is not the last one. -/
theorem receiveMessages_next {socket rest : List Recv} {message : ShmDescriptors}
    {index count expected : Nat} {map : ReceivedMap} {names : List Name}
    (h : getSingleMessage file socket = .ok (message, rest))
    (hindex : message.transferData.messageIndex = index)
    (hcount : message.transferData.numMessages = count)
    (hexpected : index = 1 ∨ expected = count) (hle : 1 ≤ index ∧ index ≤ count)
    (hlt : count < 2 ^ 64)
    (hnames : getNamesFromFileDescriptorNames message.transferData.fileDescriptorNames = .ok names)
    (hlen : names.length = message.fileDescriptorsInOrder.length) :
    receiveMessages file socket index expected map =
      let map := insertAll map (names.zip message.fileDescriptorsInOrder)
      if index < count then receiveMessages file rest (index + 1) count map else .ok map := by
  have hcurrent : (if index = 1 then count else expected) = count := by
    rcases hexpected with rfl | rfl
    · exact if_pos rfl
    · exact ite_self _
  have hremaining : (count + (2 ^ 64 - index)) % 2 ^ 64 = count - index := by omega
  rw [receiveMessages]
  split
  · rename_i heq
    rw [h] at heq
    cases heq
  · rename_i heq
    rw [h] at heq
    cases heq
    dsimp only
    rw [if_neg (not_not_intro hindex.symm), hcount, hcurrent, if_neg (not_not_intro rfl), hnames]
    dsimp only
    rw [if_neg (not_not_intro hlen), hremaining]
    by_cases hlast : index < count
    · rw [if_pos (by omega), if_pos hlast]
    · rw [if_neg (by omega), if_neg hlast]

section Tiling
variable {count index : Nat} {tiled : List (Name × Int)} {messages : List Message}

theorem Tiles.length (h : Tiles count index tiled messages) :
    index + messages.length = count + 1 := by
  induction h with
  | done => rfl
  | next _ _ _ ih => rw [List.length_cons]; omega

/-- Every message of a tiling has one of its indices. -/
theorem Tiles.mem (h : Tiles count index tiled messages) {message : Message}
    (hmem : message ∈ messages) :
    ∃ i batch, index ≤ i ∧ i ≤ count ∧ Carries message i count batch := by
  induction h with
  | done => cases hmem
  | @next index batch rest _ messages hcarries hne hmore ih =>
    have hlen := hmore.length
    rcases List.mem_cons.mp hmem with rfl | hmem
    · exact ⟨index, batch, le_rfl, by omega, hcarries⟩
    · obtain ⟨i, b, hi, hle, hb⟩ := ih hmem
      exact ⟨i, b, by omega, hle, hb⟩

/-- **The client takes a tiling as a whole or fails.**  It stops at the first message
that is missing, because the next one has a higher index or the connection is
closed. -/
theorem receiveMessages_tiles {expected : Nat} {done : List (Name × Int)} {map : ReceivedMap}
    {sendmsgFails : Message → Bool} {socket : List Recv}
    (h : Tiles count index tiled messages) (hne : messages ≠ []) (hindex : 1 ≤ index)
    (hcount : count < 2 ^ 64) (hexpected : index = 1 ∨ expected = count)
    (hsocket : Delivers file (sendMessages sendmsgFails messages) socket)
    (hmap : Exact file done map) (hnodup : ((done ++ tiled).map Prod.fst).Nodup) :
    (∃ map', receiveMessages file socket index expected map = .ok map' ∧
      Exact file (done ++ tiled) map') ∨
    (∃ message ∈ messages, sendmsgFails message = true) ∧
      ∃ st, receiveMessages file socket index expected map = .error (.error st) := by
  induction h generalizing expected done map socket with
  | done => exact absurd rfl hne
  | @next index batch rest message messages hcarries hbatch hmore ih =>
    have hlen := hmore.length
    by_cases hfails : sendmsgFails message = true
    · refine .inr ⟨⟨message, .head _, hfails⟩, ?_⟩
      rw [sendMessages, List.filter_cons_of_neg (by simp [hfails])] at hsocket
      cases hs : messages.filter fun message => !sendmsgFails message with
      | nil =>
        rw [hs] at hsocket
        cases hsocket
        exact ⟨_, receiveMessages_error rfl⟩
      | cons later others =>
        rw [hs] at hsocket
        have hlater : later ∈ messages := by
          refine List.mem_of_mem_filter (p := fun message => !sendmsgFails message) ?_
          rw [hs]
          exact .head _
        obtain ⟨i, b, hi, hle, hb⟩ := hmore.mem hlater
        cases hsocket with
        | cons harrives hothers =>
          obtain ⟨fds, hget, -⟩ := getSingleMessage_arrives hb hcount hle harrives _
          refine receiveMessages_wrong_index hget ?_
          show index ≠ later.descriptors.transferData.messageIndex
          rw [hb.index]
          omega
    · rw [sendMessages, List.filter_cons_of_pos (by simp [hfails])] at hsocket
      cases hsocket with
      | cons harrives hothers =>
        obtain ⟨fds, hget, hfds⟩ := getSingleMessage_arrives hcarries hcount (by omega) harrives _
        have hnames : (batch.map Prod.fst).length = fds.length := by
          rw [hfds.length_eq, List.length_map, List.length_map]
        rw [receiveMessages_next hget hcarries.index hcarries.count hexpected
          ⟨hindex, by omega⟩ hcount hcarries.names hnames]
        rw [← List.append_assoc] at hnodup ⊢
        have hfirst : ((done ++ batch).map Prod.fst).Nodup := by
          rw [List.map_append, List.nodup_append] at hnodup
          exact hnodup.1
        have hexact := hmap.insertAll hfirst hfds
        by_cases hlast : index < count
        · rw [if_pos hlast]
          have hmessages : messages ≠ [] := by
            rintro rfl
            rw [List.length_nil] at hlen
            omega
          rcases ih hmessages (by omega) (.inr rfl) hothers hexact hnodup with hok | herr
          · exact .inl hok
          · obtain ⟨⟨failed, hmem, hf⟩, hst⟩ := herr
            exact .inr ⟨⟨failed, .tail _ hmem, hf⟩, hst⟩
        · rw [if_neg hlast]
          obtain rfl : messages = [] := List.eq_nil_of_length_eq_zero (by omega)
          cases hmore
          rw [List.append_nil]
          exact .inl ⟨_, rfl, hexact⟩

/-! ## The whole transfer -/

/-- The entries a message carries. -/
def Message.entries (message : Message) : List (Name × Int) :=
  let names := message.descriptors.transferData.fileDescriptorNames
  (List.ofFn fun i => stringView (names.names i).value).take names.size |>.zip message.control.data

theorem Carries.entries {message : Message} {batch : List (Name × Int)}
    (h : Carries message index count batch) : message.entries = batch := by
  have hmax := h.bound
  have hnames : (List.ofFn fun i => stringView
      (message.descriptors.transferData.fileDescriptorNames.names i).value).take batch.length =
        batch.map Prod.fst := by
    apply List.ext_getElem
    · simp; omega
    · intro i h₁ h₂
      have hlt : i < batch.length := by simpa using h₂
      rw [List.getElem_take, List.getElem_ofFn, h.name i hlt (by omega), List.getElem_map]
      rfl
  have hzip := List.zip_unzip batch
  rw [List.unzip_eq_map] at hzip
  unfold Message.entries
  dsimp only
  rw [h.size, hnames, h.control]
  exact hzip

theorem Tiles.entries (h : Tiles count index tiled messages) :
    (messages.map Message.entries).flatten = tiled := by
  induction h with
  | done => rfl
  | next hcarries _ _ ih => rw [List.map_cons, List.flatten_cons, hcarries.entries, ih]

theorem Tiles.indices (h : Tiles count index tiled messages) :
    messages.map (fun message => message.descriptors.transferData.messageIndex) =
      List.range' index messages.length := by
  induction h with
  | done => rfl
  | next hcarries _ _ ih =>
    rw [List.map_cons, hcarries.index, ih, List.length_cons, List.range'_succ]

/-- The entries of different messages are different. -/
theorem Tiles.unique (h : Tiles count index tiled messages) (hnodup : tiled.Nodup)
    {entry : Name × Int} (hentry : entry ∈ tiled) :
    ∃! message, message ∈ messages ∧ entry ∈ message.entries := by
  rw [← h.entries] at hnodup hentry
  obtain ⟨batch, hbatch, hmem⟩ := List.mem_flatten.mp hentry
  obtain ⟨message, hmessage, rfl⟩ := List.mem_map.mp hbatch
  refine ⟨message, ⟨hmessage, hmem⟩, fun other ⟨hother, hmem'⟩ => ?_⟩
  by_contra hne
  have hpair := (List.nodup_flatten.mp hnodup).2
  rw [List.pairwise_map] at hpair
  have hsymm : Std.Symm fun a b : Message => a.entries.Disjoint b.entries :=
    ⟨fun _ _ hd _ hb ha => hd ha hb⟩
  exact hpair.forall hother hmessage hne hmem' hmem

end Tiling

/-- **The transfer of a map is exact or fails.**  The server makes one message for every
200 entries or part thereof, numbered from one, with each entry in exactly one of
them.  Whichever of them it fails to send, and in whatever pieces the others arrive,
the client returns an error or the map; it returns the map if all are sent. -/
theorem map_transfer_exact (file : Int → Option Int) (m : SegmentNameToFileDescriptorMap)
    (hne : m.entries ≠ []) (hvalid : ∀ entry ∈ m.entries, ValidName entry.1) :
    ∃ messages, prepareMessages kDomainSocketProtocolVersion m = .ok messages ∧
      messages.length = (m.entries.length + (kMaxFdsPerMessage - 1)) / kMaxFdsPerMessage ∧
      messages.map (fun message => message.descriptors.transferData.messageIndex) =
        List.range' 1 messages.length ∧
      (messages.map Message.entries).flatten = m.entries ∧
      (∀ entry ∈ m.entries, ∃! message, message ∈ messages ∧ entry ∈ message.entries) ∧
      ∀ sendmsgFails socket, Delivers file (sendMessages sendmsgFails messages) socket →
        ((∃ st, getSegmentNameToFileDescriptorMap file socket = .error (.error st)) ∨
          ∃ map, getSegmentNameToFileDescriptorMap file socket = .ok map ∧
            Exact file m.entries map) ∧
        ((∀ message ∈ messages, sendmsgFails message = false) →
          ∃ map, getSegmentNameToFileDescriptorMap file socket = .ok map ∧
            Exact file m.entries map) := by
  obtain ⟨messages, hprepare, htiles⟩ := prepareMessages_tiles hne hvalid
  have hpos : 0 < m.entries.length := List.length_pos_iff.mpr hne
  have hlength := htiles.length
  have hsize := m.size_lt
  unfold kMaxFdsPerMessage at hlength
  refine ⟨messages, hprepare, ?_, htiles.indices, htiles.entries,
    fun entry => htiles.unique (List.Nodup.of_map _ m.nodup), fun sendmsgFails socket hsocket => ?_⟩
  · unfold kMaxFdsPerMessage
    omega
  · have hmessages : messages ≠ [] := by
      rintro rfl
      rw [List.length_nil] at hlength
      omega
    have hempty : Exact file [] fun _ => none := ⟨nofun, fun _ _ => rfl⟩
    have hnodup : (([] ++ m.entries).map Prod.fst).Nodup := m.nodup
    have hresult := @receiveMessages_tiles _ _ _ _ _ 0 _ _ _ _ htiles hmessages le_rfl
      (by unfold kMaxFdsPerMessage; omega) (.inl rfl) hsocket hempty hnodup
    rcases hresult with hok | ⟨⟨message, hmem, hfails⟩, hst⟩
    · exact ⟨.inr hok, fun _ => hok⟩
    · refine ⟨.inl hst, fun hall => ?_⟩
      rw [hall message hmem] at hfails
      cases hfails

/-- What `recvmsg` returns for a message that arrives in one piece. -/
def Message.whole (message : Message) : List Recv :=
  [.data (message.descriptors.transferData.toBytes ++ [0, 0, 0, 0]) (some message.control)]

theorem delivers_whole (messages : List Message) :
    Delivers some messages (messages.flatMap Message.whole) := by
  induction messages with
  | nil => exact .nil
  | cons message messages ih =>
    refine .cons (.mk _ [] [0, 0, 0, 0] message.control.data rfl ?_ nofun ?_ ?_) ih
    · exact List.append_ne_nil_of_right_ne_nil _ (List.cons_ne_nil _ _)
    · exact List.append_nil _
    · exact List.forall₂_same.mpr fun fd _ => rfl

/-- Two segments go over the socket in one piece; the receiving process gets the
numbers that the sender has. -/
theorem map_transfer_exact_two_segments :
    ∃ (m : SegmentNameToFileDescriptorMap) (messages : List Message) (socket : List Recv)
      (map : ReceivedMap), m.entries = [(ascii "state", 3), (ascii "command", 4)] ∧
      prepareMessages kDomainSocketProtocolVersion m = .ok messages ∧
      Delivers some messages socket ∧ getSegmentNameToFileDescriptorMap some socket = .ok map ∧
      Exact some m.entries map := by
  let m : SegmentNameToFileDescriptorMap :=
    ⟨[(ascii "state", 3), (ascii "command", 4)], by decide, by decide⟩
  have hvalid : ∀ entry ∈ m.entries, ValidName entry.1 := by
    unfold ValidName
    decide
  obtain ⟨messages, hprepare, -, -, -, -, hreceive⟩ :=
    map_transfer_exact some m (List.cons_ne_nil _ _) hvalid
  have hsent : sendMessages (fun _ => false) messages = messages :=
    List.filter_eq_self.mpr fun _ _ => rfl
  obtain ⟨-, hok⟩ := hreceive (fun _ => false) (messages.flatMap Message.whole)
    (by rw [hsent]; exact delivers_whole messages)
  obtain ⟨map, hmap, hexact⟩ := hok fun _ _ => rfl
  exact ⟨m, messages, _, map, rfl, hprepare, delivers_whole messages, hmap, hexact⟩

end Intrinsic.DomainSocket
