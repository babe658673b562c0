import IconSharedMemory.DomainSocketReceive

/-! Who owns the descriptors of the client.  A descriptor is the process's own as soon as
`recvmsg` returns.  No error exit of `GetSingleMessage` or of
`GetSegmentNameToFileDescriptorMap` closes one, and the entry of a name in the map is
overwritten when the name comes again.  So nothing is lost just when a complete transfer has no
name twice, and a transfer that is cut short has not brought a descriptor
(`descriptors_accounted_iff`).  What a socket brings to the loop is `arrivalsOf`. -/

namespace Intrinsic.DomainSocket

/-! ## The socket -/

/-- The descriptors that a call of `GetSingleMessage` opens: those that its first `recvmsg`
brings, as far as they are open. -/
def openedDescriptors (file : Int → Option Int) : List Recv → List Int
  | .data _ (some control) :: _ =>
    if control.level = solSocket ∧ control.type = scmRights then
      control.data.filter fun fd => (file fd).isSome
    else []
  | _ => []

/-- What the calls of `GetSingleMessage` bring, up to the first error. -/
def arrivalsOf (file : Int → Option Int) (socket : List Recv) : List Arrival :=
  match _h : getSingleMessage file socket with
  | .error stop => [.failed stop (openedDescriptors file socket)]
  | .ok (message, rest) => .message message :: arrivalsOf file rest
termination_by socket.length
decreasing_by exact getSingleMessage_shorter _h

section Socket
variable {file : Int → Option Int} {socket rest : List Recv} {message : ShmDescriptors}

theorem arrivalsOf_error {stop : Stop} (h : getSingleMessage file socket = .error stop) :
    arrivalsOf file socket = [.failed stop (openedDescriptors file socket)] := by
  rw [arrivalsOf]
  split <;> simp_all

theorem arrivalsOf_ok (h : getSingleMessage file socket = .ok (message, rest)) :
    arrivalsOf file socket = .message message :: arrivalsOf file rest := by
  rw [arrivalsOf]
  split <;> simp_all

/-- **The loop over the arrivals is the loop over the socket**, with enough memory and fewer
messages than there are numbers of type `size_t`. -/
theorem receiveLoop_arrivalsOf {index count : Nat} {map : ReceivedMap}
    (hlength : index + socket.length < 2 ^ 64) :
    (receiveLoop (fun _ => true) (arrivalsOf file socket) index count map).ending =
      .returned (receiveMessages file socket index count map) := by
  -- every call of `GetSingleMessage` takes something from the socket
  induction hl : socket.length using Nat.strong_induction_on
      generalizing socket index count map with
  | _ length ih =>
    rw [receiveMessages]
    split
    · rename_i stop h
      rw [arrivalsOf_error h]
      rfl
    · rename_i message rest h
      have hshorter := getSingleMessage_shorter h
      have hnext : (index + 1) % 2 ^ 64 = index + 1 := Nat.mod_eq_of_lt (by omega)
      rw [arrivalsOf_ok h, receiveLoop]
      dsimp only
      by_cases hindex : index ≠ message.transferData.messageIndex
      · rw [if_pos hindex, if_pos hindex]
      rw [if_neg hindex, if_neg hindex, if_neg fun hthrow => Bool.false_ne_true hthrow.2.symm]
      generalize (if index = 1 then message.transferData.numMessages else count) = expected
      by_cases hcount : expected ≠ message.transferData.numMessages
      · rw [if_pos hcount, if_pos hcount]
      rw [if_neg hcount, if_neg hcount]
      cases getNamesFromFileDescriptorNames message.transferData.fileDescriptorNames with
      | error stop => rfl
      | ok names =>
        dsimp only
        by_cases hsizes : names.length ≠ message.fileDescriptorsInOrder.length
        · rw [if_pos hsizes, if_pos hsizes]
        rw [if_neg hsizes, if_neg hsizes]
        by_cases hmore : (expected + (2 ^ 64 - index)) % 2 ^ 64 > 0
        · rw [if_pos hmore, if_pos hmore, hnext]
          exact ih rest.length (by omega) (by omega) rfl
        · rw [if_neg hmore, if_neg hmore]

theorem parseMessage_ok {received : List UInt8} {cmsg : ControlMessage}
    (h : parseMessage file received cmsg = .ok message) :
    message.transferData = .ofBytes received ∧
      ∃ names count, cmsg.len = cmsgLen (count * 4) ∧ cmsg.level = solSocket ∧
        cmsg.type = scmRights ∧
        checkDescriptors file names count cmsg.data = .ok message.fileDescriptorsInOrder := by
  unfold parseMessage at h
  dsimp only at h
  split at h
  · cases h
  cases hnames : getNamesFromFileDescriptorNames
      (TransferData.ofBytes received).fileDescriptorNames with
  | error stop =>
    rw [hnames] at h
    cases h
  | ok names =>
    rw [hnames] at h
    dsimp only [bind, Except.bind] at h
    split at h
    · cases h
    rename_i hlen
    split at h
    · cases h
    rename_i hlevel
    split at h
    · cases h
    rename_i htype
    split at h
    · cases h
    rename_i fds hfds
    cases h
    exact ⟨rfl, names, _, not_not.mp hlen, not_not.mp hlevel, not_not.mp htype, hfds⟩

/-- The number of messages is of type `size_t`. -/
theorem announced_arrivalsOf_lt : announced (arrivalsOf file socket) < 2 ^ 64 := by
  cases h : getSingleMessage file socket with
  | error stop =>
    rw [arrivalsOf_error h]
    exact Nat.two_pow_pos 64
  | ok result =>
    obtain ⟨message, rest⟩ := result
    obtain ⟨received, cmsg, -, hparse⟩ := getSingleMessage_ok h
    rw [arrivalsOf_ok h]
    show message.transferData.numMessages < 2 ^ 64
    rw [(parseMessage_ok hparse).1]
    exact ByteLayout.ofLittleEndian_field_lt 8 8 received

end Socket

/-! ## The map -/

section InsertAll
variable {map : ReceivedMap} {bindings : List (Name × Int)} {name : Name}

theorem insertAll_cons (binding : Name × Int) : insertAll map (binding :: bindings) =
    insertAll (Function.update map binding.1 (some binding.2)) bindings :=
  rfl

theorem insertAll_of_not_mem (h : name ∉ bindings.map Prod.fst) :
    insertAll map bindings name = map name := by
  induction bindings generalizing map with
  | nil => rfl
  | cons binding bindings ih =>
    rw [List.map_cons, List.mem_cons, not_or] at h
    exact (ih h.2).trans (Function.update_of_ne h.1 _ _)

theorem insertAll_of_mem (h : name ∈ bindings.map Prod.fst) :
    ∃ fd ∈ bindings.map Prod.snd, insertAll map bindings name = some fd := by
  induction bindings generalizing map with
  | nil => cases h
  | cons binding bindings ih =>
    by_cases hlater : name ∈ bindings.map Prod.fst
    · obtain ⟨fd, hfd, hvalue⟩ := @ih (Function.update map binding.1 (some binding.2)) hlater
      exact ⟨fd, .tail _ hfd, hvalue⟩
    · obtain rfl : name = binding.1 := (List.mem_cons.mp h).resolve_right hlater
      exact ⟨binding.2, .head _,
        (insertAll_of_not_mem hlater).trans (Function.update_self _ _ _)⟩

/-- **Every descriptor is a value of the map** if and only if no name comes twice. -/
theorem insertAll_onto_iff (hfds : (bindings.map Prod.snd).Nodup)
    (hmap : ∀ fd ∈ bindings.map Prod.snd, ∀ name, map name ≠ some fd) :
    (∀ fd ∈ bindings.map Prod.snd, ∃ name, insertAll map bindings name = some fd) ↔
      (bindings.map Prod.fst).Nodup := by
  induction bindings generalizing map with
  | nil => simp
  | cons binding bindings ih =>
    rw [List.map_cons, List.nodup_cons] at hfds
    rw [List.map_cons, List.forall_mem_cons] at hmap
    have hfresh : ∀ fd ∈ bindings.map Prod.snd, ∀ name,
        Function.update map binding.1 (some binding.2) name ≠ some fd := by
      intro fd hfd name hvalue
      by_cases hname : name = binding.1
      · subst hname
        rw [Function.update_self] at hvalue
        cases hvalue
        exact hfds.1 hfd
      · rw [Function.update_of_ne hname] at hvalue
        exact hmap.2 fd hfd name hvalue
    rw [List.map_cons, List.map_cons, List.forall_mem_cons, List.nodup_cons]
    refine and_congr ⟨?_, fun hnew => ⟨binding.1, ?_⟩⟩ (ih hfds.2 hfresh)
    · rintro ⟨name, hvalue⟩ hagain
      -- the entry that is overwritten was the only one with this descriptor
      by_cases hlater : name ∈ bindings.map Prod.fst
      · obtain ⟨fd, hfd, hvalue'⟩ := insertAll_of_mem hlater
        cases Option.some.inj (hvalue.symm.trans hvalue')
        exact hfds.1 hfd
      · have hother : name ≠ binding.1 := fun heq => hlater (heq ▸ hagain)
        rw [insertAll_cons, insertAll_of_not_mem hlater, Function.update_of_ne hother] at hvalue
        exact hmap.1 name hvalue
    · exact (insertAll_of_not_mem hnew).trans (Function.update_self _ _ _)

end InsertAll

/-! ## Ownership -/

/-- **No descriptor is lost**: after an error all that were received are closed, and after
success they are the values of the map. -/
structure Accounted (r : Reception) : Prop where
  error : (∀ map, r.ending ≠ .returned (.ok map)) → ∀ fd ∈ r.received, fd ∈ r.closed
  ok : ∀ map, r.ending = .returned (.ok map) → ∀ fd ∈ r.received, ∃ name, map name = some fd

/-- The messages that come first, and they are all that the first one announces. -/
def Completes (arrivals : List Arrival) (messages : List ShmDescriptors) : Prop :=
  (∃ rest, arrivals = messages.map .message ++ rest) ∧
    messages.length = lastMessage (announced arrivals) ∧
    FollowAll (announced arrivals) 1 messages

/-- What arrives is complete and has no name twice, or it is cut short before a descriptor has
arrived. -/
structure Lossless (arrivals : List Arrival) : Prop where
  distinct : ∀ messages, Completes arrivals messages →
    ((messages.flatMap bindingsOf).map Prod.fst).Nodup
  empty : (∀ messages, ¬ Completes arrivals messages) →
    ∀ messages a rest, arrivals = messages.map .message ++ a :: rest →
      FollowAll (announced arrivals) 1 messages → a.descriptors = []

section Ownership
variable {n k : Nat} {messages others : List ShmDescriptors} {arrivals rest rest' : List Arrival}

theorem followAll_append :
    FollowAll n k (messages ++ others) ↔
      FollowAll n k messages ∧ FollowAll n (k + messages.length) others := by
  induction messages generalizing k with
  | nil => simp [FollowAll]
  | cons m messages ih =>
    rw [List.cons_append, FollowAll, FollowAll, ih, and_assoc, List.length_cons,
      show k + 1 + messages.length = k + (messages.length + 1) by omega]

theorem FollowAll.bindings (h : FollowAll n k messages) :
    (messages.flatMap bindingsOf).map Prod.snd = descriptorsOf messages := by
  induction messages generalizing k with
  | nil => rfl
  | cons m messages ih =>
    rw [List.flatMap_cons, List.map_append, h.1.bindings, ih h.2]
    rfl

/-- Of two beginnings of the same arrivals the longer one goes on where the shorter one ends. -/
theorem longer_beginning (h : messages.map .message ++ rest = others.map .message ++ rest')
    (hlt : messages.length < others.length) :
    ∃ m more, others = messages ++ m :: more ∧
      rest = .message m :: (more.map .message ++ rest') := by
  induction messages generalizing others with
  | nil =>
    cases others with
    | nil => cases hlt
    | cons m others => exact ⟨m, others, rfl, h⟩
  | cons m messages ih =>
    cases others with
    | nil => cases hlt
    | cons m' others =>
      obtain ⟨hm, htail⟩ := List.cons.inj h
      cases hm
      obtain ⟨m', more, rfl, hrest⟩ := ih htail (Nat.lt_of_succ_lt_succ hlt)
      exact ⟨m', more, rfl, hrest⟩

/-- Two beginnings of the same length are the same. -/
theorem equal_beginning (h : messages.map .message ++ rest = others.map .message ++ rest')
    (hlength : messages.length = others.length) : messages = others ∧ rest = rest' := by
  obtain ⟨hmap, hrest⟩ := List.append_inj h (by rw [List.length_map, List.length_map, hlength])
  exact ⟨List.map_injective_iff.mpr (fun _ _ => Arrival.message.inj) hmap, hrest⟩

theorem Completes.unique (h : Completes arrivals messages) (h' : Completes arrivals others) :
    messages = others := by
  obtain ⟨⟨rest, heq⟩, hlength, -⟩ := h
  obtain ⟨⟨rest', heq'⟩, hlength', -⟩ := h'
  exact (equal_beginning (heq.symm.trans heq') (hlength.trans hlength'.symm)).1

theorem Completes.lossless_iff (h : Completes arrivals messages) :
    Lossless arrivals ↔ ((messages.flatMap bindingsOf).map Prod.fst).Nodup := by
  refine ⟨fun hlossless => hlossless.distinct messages h, fun hnodup => ⟨?_, ?_⟩⟩
  · intro others hothers
    rwa [← h.unique hothers]
  · intro hnone
    exact absurd h (hnone messages)

/-- A transfer that is complete keeps all descriptors if and only if no name comes twice. -/
theorem accounted_accepted {r : Reception} (harrivals : arrivals = messages.map .message ++ rest)
    (hnew : (arrivals.flatMap Arrival.descriptors).Nodup)
    (hcomplete : Completes arrivals messages)
    (hending : r.ending =
      .returned (.ok (insertAll (fun _ => none) (messages.flatMap bindingsOf))))
    (hreceived : r.received = descriptorsOf messages) : Accounted r ↔ Lossless arrivals := by
  have hbindings := hcomplete.2.2.bindings
  have hfds : ((messages.flatMap bindingsOf).map Prod.snd).Nodup := by
    rw [hbindings]
    rw [harrivals, List.flatMap_append, List.flatMap_map] at hnew
    exact hnew.sublist (List.sublist_append_left ..)
  have honto := @insertAll_onto_iff (fun _ => none) _ hfds fun _ _ _ => nofun
  rw [hbindings, ← hreceived] at honto
  rw [hcomplete.lossless_iff, ← honto]
  constructor
  · intro h
    exact h.ok _ hending
  · intro h
    refine ⟨fun hnot => absurd hending (hnot _), fun map hok => ?_⟩
    rw [hending] at hok
    cases hok
    exact h

/-- No beginning that is as expected goes on behind the message that is not. -/
theorem beginning_length_le (harrivals : arrivals = messages.map .message ++ rest)
    (hnext : ∀ m rest', rest = .message m :: rest' → ¬ Follows n (k + messages.length) m)
    (heq : arrivals = others.map .message ++ rest') (hothers : FollowAll n k others) :
    others.length ≤ messages.length := by
  by_contra hlt
  obtain ⟨m, more, rfl, hrest⟩ :=
    longer_beginning (harrivals.symm.trans heq) (Nat.lt_of_not_le hlt)
  exact hnext m _ hrest (followAll_append.mp hothers).2.1

/-- What the loop has received is empty if and only if nothing on its way has brought a
descriptor. -/
theorem received_eq_nil_iff (harrivals : arrivals = messages.map .message ++ rest)
    (hfollow : FollowAll n k messages)
    (hnext : ∀ m rest', rest = .message m :: rest' → ¬ Follows n (k + messages.length) m) :
    descriptorsOf messages ++ nextDescriptors rest = [] ↔
      ∀ others a rest', arrivals = others.map .message ++ a :: rest' → FollowAll n k others →
        a.descriptors = [] := by
  rw [List.append_eq_nil_iff]
  constructor
  · rintro ⟨hmessages, hrest⟩ others a rest' heq hothers
    rcases Nat.lt_or_eq_of_le (beginning_length_le harrivals hnext heq hothers) with hlt | hsame
    · obtain ⟨m, more, rfl, hcons⟩ := longer_beginning (heq.symm.trans harrivals) hlt
      obtain ⟨rfl, -⟩ := List.cons.inj hcons
      exact List.flatMap_eq_nil_iff.mp hmessages m (by simp)
    · obtain ⟨-, rfl⟩ := equal_beginning (heq.symm.trans harrivals) hsame
      exact hrest
  · intro hall
    constructor
    · refine List.flatMap_eq_nil_iff.mpr fun m hm => ?_
      obtain ⟨before, after, rfl⟩ := List.append_of_mem hm
      refine hall before (.message m) (after.map .message ++ rest) ?_
        (followAll_append.mp hfollow).1
      rw [harrivals, List.map_append, List.append_assoc]
      rfl
    · cases rest with
      | nil => rfl
      | cons a rest => exact hall messages a rest harrivals hfollow

/-- A transfer that is cut short keeps nothing, so it may not have brought a descriptor. -/
theorem accounted_rejected {r : Reception} {stop : Stop}
    (harrivals : arrivals = messages.map .message ++ rest)
    (hlength : 1 + messages.length ≤ lastMessage (announced arrivals))
    (hfollow : FollowAll (announced arrivals) 1 messages)
    (hnext : ∀ m rest', rest = .message m :: rest' →
      ¬ Follows (announced arrivals) (1 + messages.length) m)
    (hending : r.ending = .returned (.error stop)) (hclosed : r.closed = [])
    (hreceived : r.received = descriptorsOf messages ++ nextDescriptors rest) :
    Accounted r ↔ Lossless arrivals := by
  have hincomplete : ∀ others, ¬ Completes arrivals others := by
    rintro others ⟨⟨rest', heq⟩, hall, hothers⟩
    have hle := beginning_length_le harrivals hnext heq hothers
    omega
  have hnotOk : ∀ map, r.ending ≠ .returned (.ok map) := by
    intro map hok
    rw [hending] at hok
    cases hok
  have hempty := received_eq_nil_iff harrivals hfollow hnext
  rw [← hreceived] at hempty
  constructor
  · intro h
    refine ⟨fun others hothers => absurd hothers (hincomplete others), fun _ => hempty.mp ?_⟩
    rw [List.eq_nil_iff_forall_not_mem]
    intro fd hfd
    have hmem := h.error hnotOk fd hfd
    rw [hclosed] at hmem
    cases hmem
  · intro h
    refine ⟨fun _ fd hfd => ?_, fun map hok => absurd hok (hnotOk map)⟩
    rw [hempty.mpr (h.empty hincomplete)] at hfd
    cases hfd

end Ownership

/-! ## The server -/

section Served
variable {file : Int → Option Int} {count index : Nat} {tiled : List (Name × Int)}
  {messages : List Message} {socket : List Recv}

/-- **The messages of the server arrive one after the other**, and then the end of the
connection. -/
theorem arrivalsOf_tiles (h : Tiles count index tiled messages) (hcount : count < 2 ^ 64)
    (hsocket : Delivers file messages socket) :
    ∃ received, arrivalsOf file socket = received.map .message ++ arrivalsOf file [] ∧
      received.length = messages.length ∧ FollowAll count index received ∧
      (received.flatMap bindingsOf).map Prod.fst = tiled.map Prod.fst ∧
      List.Forall₂ (IsDuplicate file) (descriptorsOf received) (tiled.map Prod.snd) := by
  induction h generalizing socket with
  | done =>
    cases hsocket
    exact ⟨[], rfl, rfl, trivial, rfl, .nil⟩
  | @next index batch rest message messages hcarries hne hmore ih =>
    cases hsocket with
    | cons harrives hothers =>
      have hlast := hmore.length
      obtain ⟨fds, hget, hdup⟩ := getSingleMessage_arrives hcarries hcount (by omega) harrives _
      obtain ⟨received, heq, hlength, hfollow, hnames, hfds⟩ := ih hothers
      have hsame : (batch.map Prod.fst).length = fds.length := by
        rw [hdup.length_eq, List.length_map, List.length_map]
      have hbindings : bindingsOf ⟨message.descriptors.transferData, fds⟩ =
          (batch.map Prod.fst).zip fds := by
        rw [bindingsOf, hcarries.names]
      refine ⟨⟨message.descriptors.transferData, fds⟩ :: received, ?_, ?_, ⟨⟨?_, hcarries.count,
        _, hcarries.names, hsame⟩, hfollow⟩, ?_, ?_⟩
      · rw [arrivalsOf_ok hget, heq]
        rfl
      · rw [List.length_cons, List.length_cons, hlength]
      · rw [hcarries.index, Nat.mod_eq_of_lt (by omega)]
      · rw [List.flatMap_cons, List.map_append, hnames, hbindings,
          List.map_fst_zip (Nat.le_of_eq hsame), List.map_append]
      · rw [descriptorsOf, List.flatMap_cons, List.map_append]
        exact List.rel_append hdup hfds

theorem completes_of_tiles (h : Tiles count 1 tiled messages) (hcount : count < 2 ^ 64)
    (hne : messages ≠ []) (hsocket : Delivers file messages socket) :
    ∃ received, arrivalsOf file socket = received.map .message ++ arrivalsOf file [] ∧
      Completes (arrivalsOf file socket) received ∧
      (received.flatMap bindingsOf).map Prod.fst = tiled.map Prod.fst ∧
      List.Forall₂ (IsDuplicate file) (descriptorsOf received) (tiled.map Prod.snd) := by
  obtain ⟨received, heq, hlength, hfollow, hnames, hfds⟩ := arrivalsOf_tiles h hcount hsocket
  have htotal := h.length
  have hpos := List.length_pos_iff.mpr hne
  have hannounced : announced (arrivalsOf file socket) = count := by
    cases received with
    | nil =>
      rw [List.length_nil] at hlength
      omega
    | cons m received =>
      rw [heq]
      exact hfollow.1.count
  refine ⟨received, heq, ⟨⟨_, heq⟩, ?_, ?_⟩, hnames, hfds⟩
  · rw [hannounced, lastMessage, if_neg (by omega)]
    omega
  · rw [hannounced]
    exact hfollow

end Served

/-- **No descriptor is lost**, whatever the socket brings, if and only if what arrives is complete
and has no name twice, or is cut short before a descriptor has arrived.  The kernel gives every
descriptor it opens a number of its own. -/
theorem descriptors_accounted_iff {file : Int → Option Int} {socket : List Recv}
    (hnew : ((arrivalsOf file socket).flatMap Arrival.descriptors).Nodup) :
    Accounted (receiveArrivals (fun _ => true) (arrivalsOf file socket)) ↔
      Lossless (arrivalsOf file socket) := by
  obtain ⟨houtcome, -, hclosed⟩ := @receiveArrivals_outcome (arrivalsOf file socket)
    (fun _ => true) announced_arrivalsOf_lt fun _ _ _ _ => rfl
  cases houtcome with
  | accepted messages rest harrivals hlength hfollow hending hconsumed hreceived =>
    exact accounted_accepted harrivals hnew ⟨⟨rest, harrivals⟩, by omega, hfollow⟩ hending
      hreceived
  | rejected messages rest stop harrivals hlength hfollow hnext hending hstop hconsumed hreceived =>
    exact accounted_rejected harrivals hlength hfollow hnext hending hclosed hreceived

/-- A map with two segments goes over the socket, and both descriptors are in the map of the
client. -/
theorem descriptors_accounted_two_segments :
    ∃ messages : List Message,
      prepareMessages kDomainSocketProtocolVersion
        ⟨[(ascii "state", 3), (ascii "command", 4)], by decide, by decide⟩ = .ok messages ∧
      ((arrivalsOf some (messages.flatMap Message.whole)).flatMap Arrival.descriptors).Nodup ∧
      Accounted (receiveArrivals (fun _ => true)
        (arrivalsOf some (messages.flatMap Message.whole))) := by
  obtain ⟨messages, hprepare, htiles⟩ := @prepareMessages_tiles
    ⟨[(ascii "state", 3), (ascii "command", 4)], by decide, by decide⟩ (List.cons_ne_nil _ _)
    (by unfold ValidName; decide)
  have hne : messages ≠ [] := by
    rintro rfl
    cases htiles.length
  obtain ⟨received, heq, hcomplete, hnames, hfds⟩ :=
    completes_of_tiles htiles (by decide) hne (delivers_whole messages)
  have hsame : descriptorsOf received = [3, 4] := by
    have heach := hfds.imp fun _ _ => Option.some.inj
    rwa [List.forall₂_eq_eq_eq] at heach
  have hend : arrivalsOf some [] = [.failed (.error noDataReceived) []] := arrivalsOf_error rfl
  have hnew : ((arrivalsOf some (messages.flatMap Message.whole)).flatMap
      Arrival.descriptors).Nodup := by
    rw [heq, hend, List.flatMap_append, List.flatMap_map]
    show (descriptorsOf received ++ []).Nodup
    rw [hsame]
    decide
  refine ⟨messages, hprepare, hnew, (descriptors_accounted_iff hnew).mpr ?_⟩
  rw [hcomplete.lossless_iff, hnames]
  decide

/-- **A descriptor is lost** when the connection ends in the middle of a message: the control
message has come with its first byte. -/
theorem descriptor_lost_on_error :
    let socket := [.data [1] (some ⟨cmsgLen 4, solSocket, scmRights, [7]⟩)]
    let r := receiveArrivals (fun _ => true) (arrivalsOf some socket)
    r.ending = .returned (.error (.error noDataReceived)) ∧ 7 ∈ r.received ∧ 7 ∉ r.closed := by
  intro socket r
  have harrivals : arrivalsOf some socket = [.failed (.error noDataReceived) [7]] :=
    arrivalsOf_error rfl
  have hr : r = ⟨.returned (.error (.error noDataReceived)), 0, [], [7], []⟩ := by
    show receiveArrivals _ (arrivalsOf some socket) = _
    rw [harrivals]
    rfl
  rw [hr]
  exact ⟨rfl, .head _, nofun⟩

end Intrinsic.DomainSocket
