import IconSharedMemory.DescriptorOwnership

/-! # Messages that are sent only in part

The server gives every connection a timeout of one second for sending.  When it runs out,
`sendmsg` returns how much of the message the socket has taken so far; the request handler logs
that number and goes on with the next message.  The socket is a stream, so the client finds the
beginning of that message where it expects the rest of the one before, and everything behind it
is shifted.

No shift makes a map.  The client believes the count of the first record and then reads that many
whole records, which is more than the stream has if a byte of it is missing.  What remains is that
the count could itself come from the wrong place.  But every message begins with its version, the
byte 2 and seven zeros, and a message that is cut off before its count has that byte, or one of
those zeros, where the client looks for the version 2 or for the index 1 (`count_of_header`).
-/
namespace Intrinsic.DomainSocket
open ByteLayout

/-! ## The stream -/

/-- What a call of `sendmsg` puts on the stream: a beginning of the record, which is empty if the
call fails. -/
def Takes (message : Message) (taken : List UInt8) : Prop :=
  ∃ padding, padding.length = TransferData.padding ∧
    taken <+: message.descriptors.transferData.toBytes ++ padding

/-- The socket has taken the whole message. -/
def TakesAll (message : Message) (taken : List UInt8) : Prop :=
  ∃ padding, padding.length = TransferData.padding ∧
    taken = message.descriptors.transferData.toBytes ++ padding

/-- The bytes a call of `recvmsg` brings. -/
def Recv.bytes : Recv → List UInt8
  | .failed _ => []
  | .data bytes _ => bytes

/-- The bytes that arrive at the client. -/
def arriving (socket : List Recv) : List UInt8 := socket.flatMap Recv.bytes

theorem Takes.length_le {message : Message} {taken : List UInt8} (h : Takes message taken) :
    taken.length ≤ TransferData.sizeof := by
  obtain ⟨padding, hpadding, hbegins⟩ := h
  have hlength := hbegins.length_le
  rw [List.length_append, hpadding] at hlength
  exact hlength.trans_eq (TransferData.length_toBytes _)

theorem Takes.all {message : Message} {taken : List UInt8} (h : Takes message taken)
    (hlength : TransferData.sizeof ≤ taken.length) : TakesAll message taken := by
  obtain ⟨padding, hpadding, hbegins⟩ := h
  refine ⟨padding, hpadding, hbegins.eq_of_length_le ?_⟩
  rw [List.length_append, hpadding, TransferData.length_toBytes]
  exact hlength

/-- If the stream is as long as all the records, all of them are in it. -/
theorem takesAll_of_length {messages : List Message} {taken : List (List UInt8)}
    (h : List.Forall₂ Takes messages taken)
    (hlength : messages.length * TransferData.sizeof ≤ taken.flatten.length) :
    List.Forall₂ TakesAll messages taken ∧
      taken.flatten.length = messages.length * TransferData.sizeof := by
  induction h with
  | nil => exact ⟨.nil, (Nat.zero_mul _).symm⟩
  | @cons message first messages taken hfirst hmore ih =>
    have hle := hfirst.length_le
    have hrest : taken.flatten.length ≤ messages.length * TransferData.sizeof := by
      by_contra hlt
      exact hlt (ih (Nat.le_of_not_le hlt)).2.le
    rw [List.flatten_cons, List.length_append, List.length_cons, Nat.succ_mul] at hlength ⊢
    obtain ⟨hall, heq⟩ := ih (by omega)
    exact ⟨.cons (hfirst.all (by omega)) hall, by omega⟩

/-! ## The header of the first record -/

/-- A beginning of a record that announces this many messages. -/
def Begins (total : Nat) (piece : List UInt8) : Prop :=
  ∃ rest, piece <+:
    littleEndian 8 kDomainSocketProtocolVersion ++ (littleEndian 8 total ++ rest)

section Header
variable {total : Nat} {piece : List UInt8} {pieces : List (List UInt8)}

theorem Carries.begins {message : Message} {index : Nat} {batch : List (Name × Int)}
    (h : Carries message index total batch) (htakes : Takes message piece) :
    Begins total piece := by
  obtain ⟨padding, -, hbegins⟩ := htakes
  rw [TransferData.toBytes, h.version, h.count, List.append_assoc, List.append_assoc] at hbegins
  exact ⟨_, hbegins⟩

theorem littleEndian_version :
    littleEndian 8 kDomainSocketProtocolVersion = 2 :: List.replicate 7 0 := rfl

/-- The version of a record: the byte 2 and seven zeros. -/
theorem Begins.version (h : Begins total piece) {i : Nat} (hi : i < piece.length) (h8 : i < 8) :
    piece[i] = if i = 0 then 2 else 0 := by
  obtain ⟨rest, hbegins⟩ := h
  rw [hbegins.getElem hi, List.getElem_append_left (by rw [length_littleEndian]; exact h8)]
  simp only [littleEndian_version]
  cases i with
  | zero => rfl
  | succ i => rw [List.getElem_cons_succ, List.getElem_replicate, if_neg (Nat.succ_ne_zero i)]

/-- **A record that is not cut off before the end of its count** shows it. -/
theorem Begins.field_count (h : Begins total piece) (hlength : 16 ≤ piece.length)
    (more : List UInt8) : field 8 8 (piece ++ more) = littleEndian 8 total := by
  obtain ⟨rest, others, hbegins⟩ := h
  have h8 : ∀ n, (littleEndian 8 n).length = 8 := length_littleEndian 8
  have hfield : field 8 8 (piece ++ others) = littleEndian 8 total := by
    rw [hbegins, field_append (h8 _) 0, field_head (h8 _)]
  rw [field_append_left hlength, ← hfield, field_append_left hlength]

/-- What is sent next starts with the byte 2. -/
theorem flatten_head (h : ∀ piece ∈ pieces, Begins total piece) {byte : UInt8}
    {more : List UInt8} (hbytes : pieces.flatten = byte :: more) : byte = 2 := by
  induction pieces with
  | nil => cases hbytes
  | cons piece pieces ih =>
    cases piece with
    | nil => exact ih (fun piece hmem => h piece (.tail _ hmem)) hbytes
    | cons first piece =>
      obtain ⟨rfl, -⟩ := List.cons.inj hbytes
      have hfirst : 0 < (first :: piece).length := Nat.succ_pos _
      exact (h _ (.head _)).version hfirst (by decide)

/-- **The end of a piece inside a number below 256** would put the byte 2 among its zeros. -/
theorem field_not_across (h : ∀ piece ∈ pieces, Begins total piece) {offset : Nat} {low : UInt8}
    (hbefore : offset < piece.length) (hacross : piece.length < offset + 8) :
    field offset 8 (piece ++ pieces.flatten) ≠ low :: List.replicate 7 0 := by
  intro hfield
  have hbyte : (field offset 8 (piece ++ pieces.flatten))[piece.length - offset]? = some 0 := by
    obtain ⟨i, hi⟩ : ∃ i, piece.length - offset = i + 1 := ⟨piece.length - offset - 1, by omega⟩
    rw [hfield, hi, List.getElem?_cons_succ, List.getElem?_replicate, if_pos (by omega)]
  rw [field, List.getElem?_take, if_pos (by omega), List.getElem?_drop,
    Nat.add_sub_cancel' hbefore.le, List.getElem?_append_right le_rfl, Nat.sub_self] at hbyte
  cases hbytes : pieces.flatten with
  | nil =>
    rw [hbytes] at hbyte
    cases hbyte
  | cons byte more =>
    rw [hbytes, flatten_head h hbytes] at hbyte
    cases hbyte

/-- **No index 1 near a beginning**: the first eight bytes of a record are its version, and behind
them is a count that is not 1. -/
theorem field_ne_one (h : ∀ piece ∈ pieces, Begins total piece) (hone : total ≠ 1)
    (htotal : total < 256 ^ 8) {offset : Nat} (hoffset : offset ≤ 8) :
    field offset 8 pieces.flatten ≠ littleEndian 8 1 := by
  induction pieces generalizing offset with
  | nil =>
    rw [List.flatten_nil, field, List.drop_nil, List.take_nil]
    exact (List.cons_ne_nil _ _).symm
  | cons piece pieces ih =>
    have hpiece := h piece (.head _)
    have hmore : ∀ piece ∈ pieces, Begins total piece := fun piece hmem => h piece (.tail _ hmem)
    rw [List.flatten_cons]
    rcases Nat.lt_or_ge offset piece.length with hinside | hbehind
    · rcases Nat.lt_or_ge piece.length (offset + 8) with hacross | hwhole
      · exact field_not_across hmore hinside hacross
      · rcases Nat.lt_or_eq_of_le hoffset with hversion | rfl
        · intro hfield
          have hbyte : (field offset 8 (piece ++ pieces.flatten))[0]? = some 1 := by
            rw [hfield]
            rfl
          rw [field, List.getElem?_take, if_pos (by decide), List.getElem?_drop,
            Nat.add_zero, List.getElem?_append_left hinside, List.getElem?_eq_getElem hinside,
            hpiece.version hinside hversion] at hbyte
          split at hbyte <;> cases hbyte
        · rw [hpiece.field_count hwhole]
          intro hcount
          have hnumber := congrArg ofLittleEndian hcount
          rw [ofLittleEndian_littleEndian htotal,
            ofLittleEndian_littleEndian (by decide)] at hnumber
          exact hone hnumber
    · obtain ⟨i, rfl⟩ := Nat.exists_eq_add_of_le hbehind
      rw [field_append rfl]
      exact ih hmore (by omega)

/-- **The count of the first record is right** if its version and its index are. -/
theorem count_of_header (h : ∀ piece ∈ pieces, Begins total piece) (hone : total ≠ 1)
    (htotal : total < 256 ^ 8)
    (hversion : field 0 8 pieces.flatten = littleEndian 8 kDomainSocketProtocolVersion)
    (hindex : field 16 8 pieces.flatten = littleEndian 8 1) :
    field 8 8 pieces.flatten = littleEndian 8 total := by
  induction pieces with
  | nil => cases hversion
  | cons piece pieces ih =>
    have hpiece := h piece (.head _)
    have hmore : ∀ piece ∈ pieces, Begins total piece := fun piece hmem => h piece (.tail _ hmem)
    rw [List.flatten_cons] at hversion hindex ⊢
    rcases Nat.eq_zero_or_pos piece.length with hempty | hpos
    · rw [List.eq_nil_of_length_eq_zero hempty] at hversion hindex ⊢
      exact ih hmore hversion hindex
    rcases Nat.lt_or_ge piece.length 8 with hshort | h8
    · exact absurd hversion (field_not_across hmore hpos hshort)
    rcases Nat.lt_or_ge piece.length 16 with hcut | h16
    · obtain ⟨i, hi⟩ : ∃ i, 16 = piece.length + i := Nat.exists_eq_add_of_le hcut.le
      rw [hi, field_append rfl] at hindex
      exact absurd hindex (field_ne_one hmore hone htotal (by omega))
    · exact hpiece.field_count h16 _

end Header

/-! ## What the client needs -/

section Client
variable {file : Int → Option Int} {socket rest : List Recv}

/-- **A record that is received** is what arrives next. -/
theorem receive_ok {received bytes : List UInt8} {control cmsg : ControlMessage}
    (hle : received.length ≤ TransferData.sizeof)
    (h : receive received control socket = .ok (bytes, cmsg, rest)) :
    bytes.length = TransferData.sizeof ∧ received ++ arriving socket = bytes ++ arriving rest := by
  induction socket generalizing received control with
  | nil =>
    unfold receive at h
    split at h
    · cases h
    · next hlength =>
      cases h
      exact ⟨by omega, rfl⟩
  | cons recv socket ih =>
    unfold receive at h
    split at h
    · split at h
      · cases h
      · next chunk ancillary =>
        split at h
        · cases h
        · dsimp only at h
          split at h
          · cases h
          · obtain ⟨hlength, hbytes⟩ := ih (by rw [List.length_append]; omega) h
            rw [List.append_assoc] at hbytes
            exact ⟨hlength, hbytes⟩
    · next hlength =>
      cases h
      exact ⟨by omega, rfl⟩

theorem parseMessage_version {received : List UInt8} {cmsg : ControlMessage}
    {message : ShmDescriptors} (h : parseMessage file received cmsg = .ok message) :
    (TransferData.ofBytes received).domainSocketProtocolVersion =
      kDomainSocketProtocolVersion := by
  unfold parseMessage at h
  dsimp only at h
  split at h
  · cases h
  · next hversion => exact not_not.mp hversion

/-- What the loop has seen when it returns a map: a record with the next index and the expected
count, and the others if it is not the last. -/
theorem receiveMessages_ok {index expected : Nat} {map result : ReceivedMap}
    (h : receiveMessages file socket index expected map = .ok result) :
    ∃ message rest, getSingleMessage file socket = .ok (message, rest) ∧
      message.transferData.messageIndex = index ∧
      (index ≠ 1 → message.transferData.numMessages = expected) ∧
      ((message.transferData.numMessages + (2 ^ 64 - index)) % 2 ^ 64 = 0 ∨
        ∃ map, receiveMessages file rest (index + 1) message.transferData.numMessages map =
          .ok result) := by
  rw [receiveMessages] at h
  split at h
  · cases h
  · next message rest hget =>
    dsimp only at h
    generalize hexpected : (if index = 1 then message.transferData.numMessages else expected) =
      count at h
    split at h
    · cases h
    · next hindex =>
      split at h
      · cases h
      · next hcount =>
        obtain rfl := not_not.mp hcount
        refine ⟨message, rest, hget, (not_not.mp hindex).symm, fun hne => ?_, ?_⟩
        · rw [if_neg hne] at hexpected
          exact hexpected.symm
        · split at h
          · cases h
          · split at h
            · cases h
            · split at h
              · exact .inr ⟨_, h⟩
              · next hlast => exact .inl (Nat.eq_zero_of_not_pos hlast)

/-- The record of a message, and what arrives behind it. -/
theorem getSingleMessage_bytes {message : ShmDescriptors}
    (h : getSingleMessage file socket = .ok (message, rest)) :
    ∃ bytes, bytes.length = TransferData.sizeof ∧ arriving socket = bytes ++ arriving rest ∧
      message.transferData = TransferData.ofBytes bytes ∧
      (TransferData.ofBytes bytes).domainSocketProtocolVersion = kDomainSocketProtocolVersion := by
  obtain ⟨bytes, cmsg, hreceive, hparse⟩ := getSingleMessage_ok h
  obtain ⟨hlength, hbytes⟩ := receive_ok (Nat.zero_le _) hreceive
  exact ⟨bytes, hlength, hbytes, (parseMessage_ok hparse).1, parseMessage_version hparse⟩

/-- **A map needs as many whole records as the first one announces.** -/
theorem receiveMessages_needs {index left expected : Nat} {map result : ReceivedMap}
    (h : receiveMessages file socket index expected map = .ok result) (hindex : 1 ≤ index)
    (hlt : index + left < 2 ^ 64) (hexpected : index ≠ 1 → expected = index + left)
    (hfirst : index = 1 → ∀ message rest, getSingleMessage file socket = .ok (message, rest) →
      message.transferData.numMessages = index + left) :
    (left + 1) * TransferData.sizeof ≤ (arriving socket).length := by
  induction left generalizing socket index expected map with
  | zero =>
    obtain ⟨message, rest, hget, -⟩ := receiveMessages_ok h
    obtain ⟨bytes, hlength, hbytes, -⟩ := getSingleMessage_bytes hget
    rw [hbytes, List.length_append]
    omega
  | succ left ih =>
    obtain ⟨message, rest, hget, -, hcount, hlast⟩ := receiveMessages_ok h
    obtain ⟨bytes, hlength, hbytes, -⟩ := getSingleMessage_bytes hget
    have hcount : message.transferData.numMessages = index + (left + 1) := by
      by_cases hone : index = 1
      · exact hfirst hone message rest hget
      · exact (hcount hone).trans (hexpected hone)
    rcases hlast with hlast | ⟨map, hmore⟩
    · omega
    · have hrest := ih hmore (by omega) (by omega) (fun _ => by omega) (fun hone => by omega)
      rw [hbytes, List.length_append, Nat.succ_mul]
      omega

end Client

/-! ## The whole transfer -/

/-- The numbers in the header of a record are their bytes. -/
theorem header_bytes {bytes more : List UInt8} (hlength : bytes.length = TransferData.sizeof)
    {offset number : Nat} (hoffset : offset + 8 ≤ 24)
    (h : ofLittleEndian (field offset 8 bytes) = number) :
    field offset 8 (bytes ++ more) = littleEndian 8 number := by
  have hsize : 24 ≤ bytes.length := hlength.symm ▸ by decide
  rw [field_append_left (hoffset.trans hsize), ← h, littleEndian_ofLittleEndian]
  rw [field, List.length_take, List.length_drop]
  omega

theorem Tiles.begins {total index : Nat} {tiled : List (Name × Int)} {messages : List Message}
    {taken : List (List UInt8)} (h : Tiles total index tiled messages)
    (htaken : List.Forall₂ Takes messages taken) : ∀ piece ∈ taken, Begins total piece := by
  induction h generalizing taken with
  | done =>
    cases htaken
    nofun
  | next hcarries _ _ ih =>
    cases htaken with
    | cons hfirst hmore =>
      intro piece hmem
      rcases List.mem_cons.mp hmem with rfl | hmem
      · exact hcarries.begins hfirst
      · exact ih hmore piece hmem

section Whole
variable {file : Int → Option Int} {socket rest : List Recv} {messages : List Message}
  {taken : List (List UInt8)} {total : Nat} {tiled : List (Name × Int)}

/-- **The client learns the count**, or it does not accept the first record. -/
theorem Tiles.first_count {message : ShmDescriptors} (h : Tiles total 1 tiled messages)
    (htaken : List.Forall₂ Takes messages taken) (hsocket : arriving socket <+: taken.flatten)
    (hone : total ≠ 1) (htotal : total < 2 ^ 64)
    (hget : getSingleMessage file socket = .ok (message, rest))
    (hindex : message.transferData.messageIndex = 1) :
    message.transferData.numMessages = total := by
  obtain ⟨bytes, hlength, hbytes, hdata, hversion⟩ := getSingleMessage_bytes hget
  obtain ⟨more, hmore⟩ := hsocket
  rw [hbytes, List.append_assoc] at hmore
  rw [hdata] at hindex ⊢
  have hcount := count_of_header (h.begins htaken) hone htotal
    (by rw [← hmore]; exact header_bytes hlength (by decide) hversion)
    (by rw [← hmore]; exact header_bytes hlength (by decide) hindex)
  have hfield : field 8 8 bytes = littleEndian 8 total := by
    rw [← hcount, ← hmore, field_append_left (hlength.symm ▸ by decide)]
  show ofLittleEndian (field 8 8 bytes) = total
  rw [hfield, ofLittleEndian_littleEndian htotal]

/-- **A map is made of whole messages only.** -/
theorem Tiles.all_taken {map : ReceivedMap} (h : Tiles total 1 tiled messages)
    (hne : messages ≠ []) (htotal : total < 2 ^ 64) (htaken : List.Forall₂ Takes messages taken)
    (hsocket : arriving socket <+: taken.flatten)
    (hmap : getSegmentNameToFileDescriptorMap file socket = .ok map) :
    List.Forall₂ TakesAll messages taken := by
  have hlength := h.length
  have hpos : 0 < messages.length := List.length_pos_iff.mpr hne
  obtain ⟨left, rfl⟩ : ∃ left, total = 1 + left := ⟨total - 1, by omega⟩
  have hneeds : messages.length * TransferData.sizeof ≤ (arriving socket).length := by
    obtain ⟨first, rest, hget, hindex, -⟩ := receiveMessages_ok hmap
    by_cases hone : left = 0
    · -- a single message: the client reads a whole record before it returns anything
      obtain ⟨bytes, hsize, hbytes, -⟩ := getSingleMessage_bytes hget
      obtain rfl := hone
      rw [show messages.length = 1 by omega, hbytes, List.length_append]
      omega
    · rw [show messages.length = left + 1 by omega]
      refine receiveMessages_needs hmap le_rfl htotal (fun hne => absurd rfl hne) ?_
      intro _ message rest' hget'
      obtain ⟨rfl, rfl⟩ := Prod.mk.inj (Except.ok.inj (hget.symm.trans hget'))
      exact h.first_count htaken hsocket (by omega) htotal hget hindex
  exact (takesAll_of_length htaken (hneeds.trans hsocket.length_le)).1

/-- Messages that arrive with their descriptors make the map. -/
theorem Tiles.delivered (h : Tiles total 1 tiled messages) (hne : messages ≠ [])
    (htotal : total < 2 ^ 64) (hnodup : (tiled.map Prod.fst).Nodup)
    (hdelivers : Delivers file messages socket) :
    ∃ map, getSegmentNameToFileDescriptorMap file socket = .ok map ∧ Exact file tiled map := by
  have hsent : sendMessages (fun _ => false) messages = messages :=
    List.filter_eq_self.mpr fun _ _ => rfl
  have hempty : Exact file [] fun _ => none := ⟨nofun, fun _ _ => rfl⟩
  rcases @receiveMessages_tiles _ _ _ _ _ 0 _ _ _ _ h hne le_rfl htotal (.inl rfl)
    (hsent.symm ▸ hdelivers) hempty hnodup with hok | ⟨⟨_, _, hfails⟩, _⟩
  · exact hok
  · cases hfails

end Whole

/-- The messages of a map: at least one, and not more than a `size_t` can count. -/
theorem prepareMessages_spec {m : SegmentNameToFileDescriptorMap} (hne : m.entries ≠ [])
    (hvalid : ∀ entry ∈ m.entries, ValidName entry.1) :
    ∃ messages total, prepareMessages kDomainSocketProtocolVersion m = .ok messages ∧
      Tiles total 1 m.entries messages ∧ messages ≠ [] ∧ total < 2 ^ 64 := by
  obtain ⟨messages, hprepare, htiles⟩ := prepareMessages_tiles hne hvalid
  have hlength := htiles.length
  have hsize := m.size_lt
  unfold kMaxFdsPerMessage at hlength
  refine ⟨messages, _, hprepare, htiles, ?_, by unfold kMaxFdsPerMessage; omega⟩
  rintro rfl
  rw [List.length_nil] at hlength
  omega

/-- **No map without all of the messages.**  Whatever beginning of each message the socket has
taken, and however the client gets the bytes and whatever descriptors come with them, it returns a
map only if every message was taken as a whole.  The map is that of the server if the descriptors
came with their messages. -/
theorem map_only_from_whole_messages (file : Int → Option Int)
    (m : SegmentNameToFileDescriptorMap) (hne : m.entries ≠ [])
    (hvalid : ∀ entry ∈ m.entries, ValidName entry.1) :
    ∃ messages, prepareMessages kDomainSocketProtocolVersion m = .ok messages ∧
      ∀ taken socket map, List.Forall₂ Takes messages taken →
        arriving socket <+: taken.flatten →
        getSegmentNameToFileDescriptorMap file socket = .ok map →
        List.Forall₂ TakesAll messages taken ∧
          (Delivers file messages socket → Exact file m.entries map) := by
  obtain ⟨messages, total, hprepare, htiles, hmessages, htotal⟩ := prepareMessages_spec hne hvalid
  refine ⟨messages, hprepare, fun taken socket map htaken hsocket hmap => ?_⟩
  refine ⟨htiles.all_taken hmessages htotal htaken hsocket hmap, fun hdelivers => ?_⟩
  obtain ⟨map', hmap', hexact⟩ := htiles.delivered hmessages htotal m.nodup hdelivers
  obtain rfl := Except.ok.inj (hmap.symm.trans hmap')
  exact hexact

/-- The record of a message, with zeros behind it. -/
def Message.record (message : Message) : List UInt8 :=
  message.descriptors.transferData.toBytes ++ [0, 0, 0, 0]

theorem arriving_whole (messages : List Message) :
    arriving (messages.flatMap Message.whole) = (messages.map Message.record).flatten := by
  induction messages with
  | nil => rfl
  | cons message messages ih =>
    rw [List.map_cons, List.flatten_cons, ← ih]
    rfl

/-- Two segments in one message: the socket takes it in one piece, and the client has the map. -/
theorem map_only_from_whole_messages_two :
    ∃ (m : SegmentNameToFileDescriptorMap) (messages : List Message) (taken : List (List UInt8))
      (socket : List Recv) (map : ReceivedMap),
      m.entries = [(ascii "state", 3), (ascii "command", 4)] ∧
      prepareMessages kDomainSocketProtocolVersion m = .ok messages ∧
      List.Forall₂ Takes messages taken ∧ arriving socket <+: taken.flatten ∧
      getSegmentNameToFileDescriptorMap some socket = .ok map ∧
      List.Forall₂ TakesAll messages taken ∧ Exact some m.entries map := by
  let m : SegmentNameToFileDescriptorMap :=
    ⟨[(ascii "state", 3), (ascii "command", 4)], by decide, by decide⟩
  have hne : m.entries ≠ [] := List.cons_ne_nil _ _
  have hvalid : ∀ entry ∈ m.entries, ValidName entry.1 := by
    unfold ValidName
    decide
  obtain ⟨messages, hprepare, hmap⟩ := map_only_from_whole_messages some m hne hvalid
  have htaken : List.Forall₂ Takes messages (messages.map Message.record) :=
    List.forall₂_map_right_iff.mpr
      (List.forall₂_same.mpr fun message _ => ⟨[0, 0, 0, 0], rfl, List.prefix_rfl⟩)
  have hsocket : arriving (messages.flatMap Message.whole) <+:
      (messages.map Message.record).flatten := arriving_whole messages ▸ List.prefix_rfl
  have hdelivers := delivers_whole messages
  obtain ⟨sent, total, hsent, htiles, hsome, htotal⟩ := prepareMessages_spec hne hvalid
  obtain rfl := Except.ok.inj (hprepare.symm.trans hsent)
  obtain ⟨map, hget, -⟩ := htiles.delivered hsome htotal m.nodup hdelivers
  obtain ⟨hall, hexact⟩ := hmap _ _ map htaken hsocket hget
  exact ⟨m, messages, _, _, map, rfl, hprepare, htaken, hsocket, hget, hall,
    hexact hdelivers⟩

end Intrinsic.DomainSocket
