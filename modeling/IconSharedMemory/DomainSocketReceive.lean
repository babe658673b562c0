import IconSharedMemory.DomainSocketTransfer

/-! # What the client makes of any sequence of messages

`GetSegmentNameToFileDescriptorMap` calls `GetSingleMessage` in a loop.  What a call brings is
an `Arrival`: a message, or an error after some descriptors have arrived, for the kernel opens
those in this process as soon as `recvmsg` returns.  The model keeps account of what the loop
consumes, subtracts, receives and closes (`Reception`).

The loop expects the message with the next index, announcing as many messages as the first one
did, and ends when the difference of the two numbers is zero.  With a first message that
announces no messages at all that difference is below zero, which for a `size_t` is a very large
number: the loop goes on (`loop_outcome`).

Nothing closes a descriptor.  So an error loses all that have arrived, and a name that occurs
twice loses the first of its descriptors.
-/
namespace Intrinsic.DomainSocket

/-! ## The loop -/

/-- What a call of `GetSingleMessage` brings.  The descriptors of a message are those that have
arrived with it. -/
inductive Arrival
  | message (m : ShmDescriptors)
  | failed (stop : Stop) (descriptors : List Int)

/-- The descriptors that the call has opened in this process. -/
def Arrival.descriptors : Arrival → List Int
  | .message m => m.fileDescriptorsInOrder
  | .failed _ descriptors => descriptors

/-- How the loop ends. -/
inductive Ending
  | returned (result : Except Stop ReceivedMap)
  /-- `reserve` has thrown an exception. -/
  | threw

/-- What the loop does. -/
structure Reception where
  ending : Ending
  /-- The number of messages it has received. -/
  consumed : Nat
  /-- The operands of its subtractions. -/
  differences : List (Nat × Nat)
  received : List Int
  closed : List Int

/-- The loop goes on after a message. -/
def Reception.after (r : Reception) (difference : Nat × Nat) (descriptors : List Int) :
    Reception :=
  { r with
    consumed := r.consumed + 1
    differences := difference :: r.differences
    received := descriptors ++ r.received }

/-- The loop of `GetSegmentNameToFileDescriptorMap`.  `reserve` says whether the map can be made
to have room for that many entries; a call that brings nothing fails. -/
def receiveLoop (reserve : Nat → Bool) :
    List Arrival → Nat → Nat → ReceivedMap → Reception
  | [], _, _, _ => ⟨.returned (.error (.error noDataReceived)), 0, [], [], []⟩
  | .failed stop descriptors :: _, _, _, _ => ⟨.returned (.error stop), 0, [], descriptors, []⟩
  | .message m :: arrivals, expectedMessageIndex, expectedNumMessages, map =>
    let index := m.transferData.messageIndex
    let count := m.transferData.numMessages
    let fds := m.fileDescriptorsInOrder
    if expectedMessageIndex ≠ index then
      ⟨.returned (.error (.error (formatStatus .internal
        (ascii s!"Expected message with index {expectedMessageIndex} but got {index}")))),
        1, [], fds, []⟩
    else
      let expectedNumMessages := if expectedMessageIndex = 1 then count else expectedNumMessages
      if expectedMessageIndex = 1 ∧
          reserve (kMaxFdsPerMessage * expectedNumMessages % 2 ^ 64) = false then
        ⟨.threw, 1, [], fds, []⟩
      else if expectedNumMessages ≠ count then
        ⟨.returned (.error (.error (formatStatus .failedPrecondition
          (ascii s!"Expected {expectedNumMessages} messages, but message {index} " ++
            ascii s!"claims that there are {count}.")))), 1, [], fds, []⟩
      else
        -- a subtraction of `size_t`
        let remainingMessages := (expectedNumMessages + (2 ^ 64 - expectedMessageIndex)) % 2 ^ 64
        let difference := (expectedNumMessages, expectedMessageIndex)
        match getNamesFromFileDescriptorNames m.transferData.fileDescriptorNames with
        | .error stop => ⟨.returned (.error stop), 1, [difference], fds, []⟩
        | .ok names =>
          let numNames := names.length
          let numFds := fds.length
          if numNames ≠ numFds then
            ⟨.returned (.error (.error (formatStatus .failedPrecondition
              (ascii s!"Names and file descriptors have different sizes. Got: {numNames} names " ++
                ascii s!"and {numFds} file descriptors")))), 1, [difference], fds, []⟩
          else
            let map := insertAll map (names.zip fds)
            if remainingMessages > 0 then
              (receiveLoop reserve arrivals ((expectedMessageIndex + 1) % 2 ^ 64)
                expectedNumMessages map).after difference fds
            else ⟨.returned (.ok map), 1, [difference], fds, []⟩

/-- `GetSegmentNameToFileDescriptorMap` once it is connected. -/
def receiveArrivals (reserve : Nat → Bool) (arrivals : List Arrival) : Reception :=
  receiveLoop reserve arrivals 1 0 fun _ => none

/-! ## The message that is expected -/

/-- The names of a message with its descriptors. -/
def bindingsOf (m : ShmDescriptors) : List (Name × Int) :=
  match getNamesFromFileDescriptorNames m.transferData.fileDescriptorNames with
  | .ok names => names.zip m.fileDescriptorsInOrder
  | .error _ => []

/-- **The message is the `k`-th of `n`**, with as many names as descriptors. -/
structure Follows (n k : Nat) (m : ShmDescriptors) : Prop where
  index : m.transferData.messageIndex = k % 2 ^ 64
  count : m.transferData.numMessages = n
  names : ∃ names, getNamesFromFileDescriptorNames m.transferData.fileDescriptorNames = .ok names ∧
    names.length = m.fileDescriptorsInOrder.length

/-- The messages are those of `n` from the `k`-th on. -/
def FollowAll (n : Nat) : Nat → List ShmDescriptors → Prop
  | _, [] => True
  | k, m :: messages => Follows n k m ∧ FollowAll n (k + 1) messages

/-- The loop ends after this many messages when the first announces `n`. -/
def lastMessage (n : Nat) : Nat := if n = 0 then 2 ^ 64 else n

section Step
variable {reserve : Nat → Bool} {n k num : Nat} {m : ShmDescriptors} {arrivals : List Arrival}
  {map : ReceivedMap}

theorem Follows.bindings (h : Follows n k m) :
    (bindingsOf m).map Prod.snd = m.fileDescriptorsInOrder := by
  obtain ⟨names, hnames, hlength⟩ := h.names
  rw [bindingsOf, hnames]
  exact List.map_snd_zip (Nat.le_of_eq hlength.symm)

theorem lastMessage_le (hn : n < 2 ^ 64) : lastMessage n ≤ 2 ^ 64 := by
  unfold lastMessage
  split <;> omega

/-- The difference is zero at the last message. -/
theorem remaining_pos_iff (hn : n < 2 ^ 64) (hk : 1 ≤ k) (hle : k ≤ lastMessage n) :
    (n + (2 ^ 64 - k % 2 ^ 64)) % 2 ^ 64 > 0 ↔ k < lastMessage n := by
  unfold lastMessage at hle ⊢
  split at hle
  · next h0 =>
    rw [if_pos h0]
    omega
  · next h0 =>
    rw [if_neg h0]
    omega

/-- **The message that is expected** is entered into the map. -/
theorem receiveLoop_follows (hn : n < 2 ^ 64) (hk : 1 ≤ k) (hle : k ≤ lastMessage n)
    (hnum : k ≠ 1 → num = n)
    (hreserve : k = 1 → reserve (kMaxFdsPerMessage * n % 2 ^ 64) = true) (h : Follows n k m) :
    receiveLoop reserve (.message m :: arrivals) (k % 2 ^ 64) num map =
      if k < lastMessage n then
        (receiveLoop reserve arrivals ((k + 1) % 2 ^ 64) n (insertAll map (bindingsOf m))).after
          (n, k % 2 ^ 64) m.fileDescriptorsInOrder
      else ⟨.returned (.ok (insertAll map (bindingsOf m))), 1, [(n, k % 2 ^ 64)],
        m.fileDescriptorsInOrder, []⟩ := by
  have hbound := lastMessage_le hn
  have hone : k % 2 ^ 64 = 1 ↔ k = 1 := by omega
  obtain ⟨names, hnames, hlength⟩ := h.names
  have hcount : (if k % 2 ^ 64 = 1 then m.transferData.numMessages else num) = n := by
    rw [h.count]
    split
    · rfl
    · next hne => exact hnum fun heq => hne (hone.mpr heq)
  have hroom : ¬ (k % 2 ^ 64 = 1 ∧ reserve (kMaxFdsPerMessage * n % 2 ^ 64) = false) := by
    rintro ⟨heq, hfull⟩
    cases (hreserve (hone.mp heq)).symm.trans hfull
  have hnext : (k % 2 ^ 64 + 1) % 2 ^ 64 = (k + 1) % 2 ^ 64 := by omega
  have hbindings : bindingsOf m = names.zip m.fileDescriptorsInOrder := by rw [bindingsOf, hnames]
  rw [receiveLoop]
  dsimp only
  rw [if_neg (not_not_intro h.index.symm), hcount, if_neg hroom,
    if_neg (not_not_intro h.count.symm), hnames]
  dsimp only
  rw [if_neg (not_not_intro hlength), hnext, hbindings]
  by_cases hlast : k < lastMessage n
  · rw [if_pos ((remaining_pos_iff hn hk hle).mpr hlast), if_pos hlast]
  · rw [if_neg (fun hpos => hlast ((remaining_pos_iff hn hk hle).mp hpos)), if_neg hlast]

/-- An error other than an access beyond the end of an array. -/
def Stop.isError : Stop → Prop
  | .error _ => True
  | .outOfBounds => False

/-- **A message that can be decoded**: its numbers are of type `size_t`, and it has no more names
than cells and as many descriptors as names.  An error is an error. -/
def Arrival.WellSized : Arrival → Prop
  | .message m =>
    m.transferData.messageIndex < 2 ^ 64 ∧ m.transferData.numMessages < 2 ^ 64 ∧
      m.transferData.fileDescriptorNames.size ≤ kMaxFdsPerMessage ∧
      m.fileDescriptorsInOrder.length = m.transferData.fileDescriptorNames.size
  | .failed stop _ => stop.isError

theorem Arrival.WellSized.names (h : (Arrival.message m).WellSized) :
    ∃ names, getNamesFromFileDescriptorNames m.transferData.fileDescriptorNames = .ok names ∧
      names.length = m.fileDescriptorsInOrder.length := by
  obtain ⟨-, -, hsize, hfds⟩ := h
  have hmod : ∀ i, i % kMaxFdsPerMessage < kMaxFdsPerMessage := fun i => Nat.mod_lt i (by decide)
  refine ⟨_, ByteLayout.mapM_ok (g := fun i => stringView
    (m.transferData.fileDescriptorNames.names ⟨i % kMaxFdsPerMessage, hmod i⟩).value)
    fun i hi => ?_, by rw [List.length_map, List.length_range, hfds]⟩
  have hlt : i < kMaxFdsPerMessage := Nat.lt_of_lt_of_le (List.mem_range.mp hi) hsize
  rw [dif_pos hlt]
  simp only [Nat.mod_eq_of_lt hlt]

/-- **Any other message** ends the loop with an error. -/
theorem receiveLoop_deviates (hn : n < 2 ^ 64) (hk : 1 ≤ k) (hle : k ≤ lastMessage n)
    (hnum : k ≠ 1 → num = n) (hfirst : k = 1 → m.transferData.numMessages = n)
    (hreserve : k = 1 → m.transferData.messageIndex = 1 →
      reserve (kMaxFdsPerMessage * n % 2 ^ 64) = true) (h : ¬ Follows n k m) :
    ∃ stop differences,
      receiveLoop reserve (.message m :: arrivals) (k % 2 ^ 64) num map =
        ⟨.returned (.error stop), 1, differences, m.fileDescriptorsInOrder, []⟩ ∧
      (∀ d ∈ differences, d = (n, k % 2 ^ 64)) ∧
      ((Arrival.message m).WellSized → stop.isError) := by
  have hbound := lastMessage_le hn
  have hone : k % 2 ^ 64 = 1 ↔ k = 1 := by omega
  have hcount : (if k % 2 ^ 64 = 1 then m.transferData.numMessages else num) = n := by
    split
    · next heq => exact hfirst (hone.mp heq)
    · next hne => exact hnum fun heq => hne (hone.mpr heq)
  rw [receiveLoop]
  dsimp only
  by_cases hindex : k % 2 ^ 64 = m.transferData.messageIndex
  · have hroom : ¬ (k % 2 ^ 64 = 1 ∧ reserve (kMaxFdsPerMessage * n % 2 ^ 64) = false) := by
      rintro ⟨heq, hfull⟩
      cases (hreserve (hone.mp heq) (hindex.symm.trans heq)).symm.trans hfull
    rw [if_neg (not_not_intro hindex), hcount, if_neg hroom]
    by_cases hsame : n = m.transferData.numMessages
    · rw [if_neg (not_not_intro hsame)]
      split
      · next stop hnames =>
        refine ⟨stop, _, rfl, fun d => List.mem_singleton.mp, fun hsized => ?_⟩
        obtain ⟨names, hok, -⟩ := hsized.names
        cases hok.symm.trans hnames
      · next names hnames =>
        have hlength : names.length ≠ m.fileDescriptorsInOrder.length :=
          fun hlength => h ⟨hindex.symm, hsame.symm, names, hnames, hlength⟩
        rw [if_pos hlength]
        exact ⟨_, _, rfl, fun d => List.mem_singleton.mp, fun _ => trivial⟩
    · rw [if_pos hsame]
      exact ⟨_, _, rfl, nofun, fun _ => trivial⟩
  · rw [if_pos hindex]
    exact ⟨_, _, rfl, nofun, fun _ => trivial⟩

end Step

/-! ## The whole loop -/

/-- The number of messages that the next call brings. -/
def nextMessages : List Arrival → Nat
  | .message _ :: _ => 1
  | _ => 0

/-- The descriptors that the next call brings. -/
def nextDescriptors : List Arrival → List Int
  | a :: _ => a.descriptors
  | [] => []

/-- The descriptors of some messages. -/
def descriptorsOf (messages : List ShmDescriptors) : List Int :=
  messages.flatMap (·.fileDescriptorsInOrder)

/-- **How the loop can end**, when it expects the `k`-th message of `n`. -/
inductive Outcome (n k : Nat) (map : ReceivedMap) (arrivals : List Arrival) (r : Reception) : Prop
  /-- The messages that are left have arrived. -/
  | accepted (messages : List ShmDescriptors) (rest : List Arrival)
      (harrivals : arrivals = messages.map .message ++ rest)
      (hlength : k + messages.length = lastMessage n + 1) (hfollow : FollowAll n k messages)
      (hending : r.ending = .returned (.ok (insertAll map (messages.flatMap bindingsOf))))
      (hconsumed : r.consumed = messages.length) (hreceived : r.received = descriptorsOf messages)
  /-- After some of them, what comes next is not the message that is expected. -/
  | rejected (messages : List ShmDescriptors) (rest : List Arrival) (stop : Stop)
      (harrivals : arrivals = messages.map .message ++ rest)
      (hlength : k + messages.length ≤ lastMessage n) (hfollow : FollowAll n k messages)
      (hnext : ∀ m rest', rest = .message m :: rest' → ¬ Follows n (k + messages.length) m)
      (hending : r.ending = .returned (.error stop))
      (hstop : (∀ a ∈ rest, a.WellSized) → stop.isError)
      (hconsumed : r.consumed = messages.length + nextMessages rest)
      (hreceived : r.received = descriptorsOf messages ++ nextDescriptors rest)

section Loop
variable {reserve : Nat → Bool} {n k num : Nat} {arrivals : List Arrival} {map : ReceivedMap}
  {r : Reception}

/-- A message that was expected comes before what the rest of the loop does. -/
theorem Outcome.after {m : ShmDescriptors} (h : Follows n k m)
    (hr : Outcome n (k + 1) (insertAll map (bindingsOf m)) arrivals r) (d : Nat × Nat) :
    Outcome n k map (.message m :: arrivals) (r.after d m.fileDescriptorsInOrder) := by
  cases hr with
  | accepted messages rest harrivals hlength hfollow hending hconsumed hreceived =>
    refine .accepted (m :: messages) rest ?_ ?_ ⟨h, hfollow⟩ ?_ ?_ ?_
    · rw [harrivals]
      rfl
    · rw [List.length_cons]
      omega
    · show r.ending = _
      rw [hending, List.flatMap_cons, insertAll, insertAll, insertAll, List.foldl_append]
    · exact congrArg (· + 1) hconsumed
    · exact congrArg (m.fileDescriptorsInOrder ++ ·) hreceived
  | rejected messages rest stop harrivals hlength hfollow hnext hending hstop hconsumed
      hreceived =>
    refine .rejected (m :: messages) rest stop ?_ ?_ ⟨h, hfollow⟩ ?_ hending hstop ?_ ?_
    · rw [harrivals]
      rfl
    · rw [List.length_cons]
      omega
    · intro m' rest' heq
      rw [List.length_cons, Nat.add_comm messages.length 1, ← Nat.add_assoc]
      exact hnext m' rest' heq
    · show r.consumed + 1 = _
      rw [hconsumed, List.length_cons]
      omega
    · show m.fileDescriptorsInOrder ++ r.received = _
      rw [hreceived, descriptorsOf, descriptorsOf, List.flatMap_cons, List.append_assoc]

/-- **The outcome of the loop** when it expects the `k`-th message of `n`, with its subtractions
and without a descriptor closed. -/
theorem loop_outcome (hn : n < 2 ^ 64) (hk : 1 ≤ k) (hle : k ≤ lastMessage n)
    (hnum : k ≠ 1 → num = n)
    (hfirst : k = 1 → ∀ m rest, arrivals = .message m :: rest → m.transferData.numMessages = n)
    (hreserve : k = 1 → ∀ m rest, arrivals = .message m :: rest →
      m.transferData.messageIndex = 1 → reserve (kMaxFdsPerMessage * n % 2 ^ 64) = true) :
    Outcome n k map arrivals (receiveLoop reserve arrivals (k % 2 ^ 64) num map) ∧
      (∀ d ∈ (receiveLoop reserve arrivals (k % 2 ^ 64) num map).differences,
        ∃ j, k ≤ j ∧ j ≤ lastMessage n ∧ d = (n, j % 2 ^ 64)) ∧
      (receiveLoop reserve arrivals (k % 2 ^ 64) num map).closed = [] := by
  induction arrivals generalizing k num map with
  | nil =>
    refine ⟨.rejected [] [] _ rfl hle trivial nofun rfl (fun _ => trivial) rfl rfl, nofun, rfl⟩
  | cons a arrivals ih =>
    cases a with
    | failed stop descriptors =>
      refine ⟨.rejected [] _ stop rfl hle trivial nofun rfl ?_ rfl rfl, nofun, rfl⟩
      exact fun hsized => hsized _ (.head _)
    | message m =>
      have hfirst' : k = 1 → m.transferData.numMessages = n := fun heq => hfirst heq m _ rfl
      by_cases h : Follows n k m
      · have hroom : k = 1 → reserve (kMaxFdsPerMessage * n % 2 ^ 64) = true := by
          intro heq
          refine hreserve heq m _ rfl ?_
          rw [h.index]
          omega
        rw [receiveLoop_follows hn hk hle hnum hroom h]
        by_cases hlast : k < lastMessage n
        · rw [if_pos hlast]
          obtain ⟨hrest, hdifferences, hclosed⟩ := @ih (k + 1) n (insertAll map (bindingsOf m))
            (by omega) hlast (fun _ => rfl) (by omega) (by omega)
          refine ⟨hrest.after h _, fun d hd => ?_, hclosed⟩
          rcases List.mem_cons.mp hd with rfl | hd
          · exact ⟨k, le_rfl, hle, rfl⟩
          · obtain ⟨j, hj, hj', rfl⟩ := hdifferences d hd
            exact ⟨j, by omega, hj', rfl⟩
        · rw [if_neg hlast]
          refine ⟨.accepted [m] arrivals rfl ?_ ⟨h, trivial⟩ ?_ rfl ?_, fun d hd => ?_, rfl⟩
          · rw [List.length_singleton]
            omega
          · rw [List.flatMap_singleton]
          · rw [descriptorsOf, List.flatMap_singleton]
          · exact ⟨k, le_rfl, hle, List.mem_singleton.mp hd⟩
      · obtain ⟨stop, differences, heq, hdifferences, hstop⟩ :=
          @receiveLoop_deviates reserve n k num m arrivals map hn hk hle hnum hfirst'
            (fun heq => hreserve heq m _ rfl) h
        rw [heq]
        refine ⟨.rejected [] _ stop rfl hle trivial ?_ rfl ?_ rfl rfl, fun d hd => ?_, rfl⟩
        · rintro m' rest' ⟨⟩
          exact h
        · exact fun hsized => hstop (hsized _ (.head _))
        · exact ⟨k, le_rfl, hle, hdifferences d hd⟩

end Loop

/-! ## Exactness -/

/-- The number of messages that the first message announces. -/
def announced : List Arrival → Nat
  | .message m :: _ => m.transferData.numMessages
  | _ => 0

/-- The messages have the indices from one on, and all announce `n`. -/
structure Numbered (n : Nat) (messages : List ShmDescriptors) : Prop where
  indices : messages.map (·.transferData.messageIndex) = List.range' 1 messages.length
  counts : ∀ m ∈ messages, m.transferData.numMessages = n

/-- **What the loop should do**, when the first message announces `n`: receive no more than `n`
messages, or one; return a map only for the messages 1 to `n`, of which there is at least one;
reject everything else at the first message that is not the next one, or when there is none; and
never subtract the larger number. -/
structure ExactReception (arrivals : List Arrival) (r : Reception) : Prop where
  bounded : r.consumed ≤ max 1 (announced arrivals)
  accepted : ∀ map, r.ending = .returned (.ok map) → 1 ≤ announced arrivals ∧
    r.consumed = announced arrivals ∧ ∃ messages rest, arrivals = messages.map .message ++ rest ∧
      messages.length = announced arrivals ∧ Numbered (announced arrivals) messages
  rejected : (∀ map, r.ending ≠ .returned (.ok map)) →
    ∃ messages rest st, arrivals = messages.map .message ++ rest ∧
      Numbered (announced arrivals) messages ∧ messages.length < max 1 (announced arrivals) ∧
      (∀ m rest', rest = .message m :: rest' →
        ¬ (1 ≤ announced arrivals ∧ Numbered (announced arrivals) (messages ++ [m]))) ∧
      r.ending = .returned (.error (.error st)) ∧ r.consumed = messages.length + nextMessages rest
  noWrap : ∀ d ∈ r.differences, d.2 ≤ d.1

section Exactness
variable {n k : Nat} {messages : List ShmDescriptors} {arrivals : List Arrival}

theorem followAll_numbered (hk : k + messages.length ≤ 2 ^ 64) (h : FollowAll n k messages) :
    messages.map (·.transferData.messageIndex) = List.range' k messages.length ∧
      ∀ m ∈ messages, m.transferData.numMessages = n := by
  induction messages generalizing k with
  | nil => exact ⟨rfl, nofun⟩
  | cons m messages ih =>
    rw [List.length_cons] at hk
    obtain ⟨hindices, hcounts⟩ := ih (by omega) h.2
    refine ⟨?_, List.forall_mem_cons.mpr ⟨h.1.count, hcounts⟩⟩
    rw [List.map_cons, hindices, h.1.index, List.length_cons, List.range'_succ,
      Nat.mod_eq_of_lt (by omega)]

theorem FollowAll.numbered (hlength : messages.length < 2 ^ 64) (h : FollowAll n 1 messages) :
    Numbered n messages := by
  obtain ⟨hindices, hcounts⟩ := followAll_numbered (by omega) h
  exact ⟨hindices, hcounts⟩

/-- The last of some numbered messages has the next index. -/
theorem Numbered.last {m : ShmDescriptors} (h : Numbered n (messages ++ [m])) :
    m.transferData.messageIndex = 1 + messages.length ∧ m.transferData.numMessages = n := by
  refine ⟨?_, h.counts m (by simp)⟩
  have hindices := h.indices
  rw [List.map_append, List.length_append, List.length_singleton, List.range'_concat] at hindices
  have hlast := congrArg List.getLast? hindices
  simpa using hlast

theorem nextMessages_le (arrivals : List Arrival) : nextMessages arrivals ≤ 1 := by
  unfold nextMessages
  split <;> omega

theorem announced_lt (hsized : ∀ a ∈ arrivals, a.WellSized) : announced arrivals < 2 ^ 64 := by
  unfold announced
  split
  · exact (hsized _ (.head _)).2.1
  · decide

variable {reserve : Nat → Bool}

/-- The outcome of the loop from its beginning. -/
theorem receiveArrivals_outcome (hn : announced arrivals < 2 ^ 64)
    (hreserve : ∀ m rest, arrivals = .message m :: rest → m.transferData.messageIndex = 1 →
      reserve (kMaxFdsPerMessage * announced arrivals % 2 ^ 64) = true) :
    Outcome (announced arrivals) 1 (fun _ => none) arrivals (receiveArrivals reserve arrivals) ∧
      (∀ d ∈ (receiveArrivals reserve arrivals).differences,
        ∃ j, 1 ≤ j ∧ j ≤ lastMessage (announced arrivals) ∧
          d = (announced arrivals, j % 2 ^ 64)) ∧
      (receiveArrivals reserve arrivals).closed = [] := by
  refine loop_outcome hn le_rfl ?_ (fun h => absurd rfl h) ?_ fun _ => hreserve
  · unfold lastMessage
    split <;> omega
  · rintro - m rest heq
    rw [heq]
    rfl

theorem exact_of_announced (hsized : ∀ a ∈ arrivals, a.WellSized) (hpos : 1 ≤ announced arrivals)
    (hreserve : ∀ m rest, arrivals = .message m :: rest → m.transferData.messageIndex = 1 →
      reserve (kMaxFdsPerMessage * announced arrivals % 2 ^ 64) = true) :
    ExactReception arrivals (receiveArrivals reserve arrivals) := by
  have hn := announced_lt hsized
  have hlast : lastMessage (announced arrivals) = announced arrivals := if_neg (by omega)
  obtain ⟨houtcome, hdifferences, -⟩ := receiveArrivals_outcome hn hreserve
  have hnoWrap : ∀ d ∈ (receiveArrivals reserve arrivals).differences, d.2 ≤ d.1 := by
    intro d hd
    obtain ⟨j, hj, hj', rfl⟩ := hdifferences d hd
    show j % 2 ^ 64 ≤ announced arrivals
    omega
  cases houtcome with
  | accepted messages rest harrivals hlength hfollow hending hconsumed =>
    have hlength : messages.length = announced arrivals := by omega
    refine ⟨by omega, fun map _ => ⟨hpos, by omega, messages, rest, harrivals, hlength, ?_⟩,
      fun hnot => absurd hending (hnot _), hnoWrap⟩
    exact hfollow.numbered (by omega)
  | rejected messages rest stop harrivals hlength hfollow hnext hending hstop hconsumed =>
    have hmost := nextMessages_le rest
    have hrest : ∀ a ∈ rest, a.WellSized := by
      intro a ha
      refine hsized a ?_
      rw [harrivals]
      exact List.mem_append_right _ ha
    obtain ⟨st, rfl⟩ : ∃ st, stop = .error st := by
      cases stop with
      | error st => exact ⟨st, rfl⟩
      | outOfBounds => exact (hstop hrest).elim
    refine ⟨by omega, fun map hok => ?_, fun _ => ?_, hnoWrap⟩
    · rw [hending] at hok
      cases hok
    · refine ⟨messages, rest, st, harrivals, hfollow.numbered (by omega), by omega, ?_, hending,
        hconsumed⟩
      rintro m rest' rfl ⟨-, hnumbered⟩
      obtain ⟨hindex, hcount⟩ := hnumbered.last
      refine hnext m rest' rfl ⟨?_, hcount, (hrest _ (.head _)).names⟩
      rw [hindex, Nat.mod_eq_of_lt (by omega)]

/-- A first message with another index is rejected, and so is no message. -/
theorem exact_of_no_first (hsized : ∀ a ∈ arrivals, a.WellSized)
    (hnone : announced arrivals = 0)
    (hfirst : ∀ m rest, arrivals = .message m :: rest → m.transferData.messageIndex ≠ 1) :
    ExactReception arrivals (receiveArrivals reserve arrivals) := by
  have hnumbered : Numbered (announced arrivals) [] := ⟨rfl, nofun⟩
  have hlength : 0 < max 1 (announced arrivals) := Nat.le_max_left 1 _
  have hempty : ∀ m rest', arrivals = .message m :: rest' →
      ¬ (1 ≤ announced arrivals ∧ Numbered (announced arrivals) ([] ++ [m])) := by
    rintro m rest' - ⟨hpos, -⟩
    omega
  match arrivals with
  | [] =>
    exact ⟨Nat.zero_le _, nofun,
      fun _ => ⟨[], [], _, rfl, hnumbered, hlength, hempty, rfl, rfl⟩, nofun⟩
  | .failed (.error st) descriptors :: rest =>
    exact ⟨Nat.zero_le _, nofun,
      fun _ => ⟨[], _, st, rfl, hnumbered, hlength, hempty, rfl, rfl⟩, nofun⟩
  | .failed .outOfBounds descriptors :: rest => exact (hsized _ (.head _)).elim
  | .message m :: rest =>
    have hloop : ∃ st, receiveArrivals reserve (.message m :: rest) =
        ⟨.returned (.error (.error st)), 1, [], m.fileDescriptorsInOrder, []⟩ := by
      rw [receiveArrivals, receiveLoop]
      dsimp only
      exact ⟨_, if_pos (hfirst m rest rfl).symm⟩
    obtain ⟨st, hloop⟩ := hloop
    rw [hloop]
    exact ⟨Nat.le_max_left 1 _, nofun,
      fun _ => ⟨[], _, st, rfl, hnumbered, hlength, hempty, rfl, rfl⟩, nofun⟩

/-- **The loop is exact**, for every sequence of messages that can be decoded, if and only if the
first message does not announce zero messages and there is memory for as many entries as it
announces. -/
theorem reception_exact_iff (hsized : ∀ a ∈ arrivals, a.WellSized) :
    ExactReception arrivals (receiveArrivals reserve arrivals) ↔
      ∀ m rest, arrivals = .message m :: rest → m.transferData.messageIndex = 1 →
        m.transferData.numMessages ≠ 0 ∧
          reserve (kMaxFdsPerMessage * m.transferData.numMessages % 2 ^ 64) = true := by
  constructor
  · rintro h m rest rfl hindex
    have hroom : reserve (kMaxFdsPerMessage * m.transferData.numMessages % 2 ^ 64) = true := by
      by_contra hfull
      have hloop : receiveArrivals reserve (.message m :: rest) =
          ⟨.threw, 1, [], m.fileDescriptorsInOrder, []⟩ := by
        rw [receiveArrivals, receiveLoop]
        dsimp only
        rw [if_neg (not_not_intro hindex.symm), if_pos rfl,
          if_pos ⟨rfl, Bool.eq_false_iff.mpr hfull⟩]
      rw [hloop] at h
      obtain ⟨_, _, _, _, _, _, _, hending, _⟩ := h.rejected nofun
      cases hending
    refine ⟨fun hzero => ?_, hroom⟩
    have hfollows : Follows 0 1 m := ⟨hindex, hzero, (hsized _ (.head _)).names⟩
    rw [hzero] at hroom
    have hloop : receiveArrivals reserve (.message m :: rest) = _ :=
      receiveLoop_follows (by decide) le_rfl (by decide) (fun h => absurd rfl h) (fun _ => hroom)
        hfollows
    have hwrap := h.noWrap (0, 1) (by rw [hloop]; exact .head _)
    omega
  · intro h
    by_cases hpos : 1 ≤ announced arrivals
    · refine exact_of_announced hsized hpos ?_
      rintro m rest rfl hindex
      exact (h m rest rfl hindex).2
    · refine exact_of_no_first hsized (by omega) ?_
      rintro m rest rfl hindex
      have hne := (h m rest rfl hindex).1
      exact hpos (Nat.one_le_iff_ne_zero.mpr hne)

end Exactness

/-- A message without names. -/
def emptyMessage (index count : Nat) : ShmDescriptors :=
  ⟨⟨kDomainSocketProtocolVersion, count, index, ⟨0, fun _ => .zero⟩⟩, []⟩

theorem emptyMessage_wellSized {index count : Nat} (hindex : index < 2 ^ 64)
    (hcount : count < 2 ^ 64) : (Arrival.message (emptyMessage index count)).WellSized :=
  ⟨hindex, hcount, Nat.zero_le _, rfl⟩

/-- Two messages, as the first announces, are received, and what comes then is left. -/
theorem reception_exact_two :
    ∃ arrivals : List Arrival, arrivals.length = 3 ∧ (∀ a ∈ arrivals, a.WellSized) ∧
      ExactReception arrivals (receiveArrivals (fun _ => true) arrivals) ∧
      (receiveArrivals (fun _ => true) arrivals).consumed = 2 := by
  have hsized : ∀ a ∈ [Arrival.message (emptyMessage 1 2), .message (emptyMessage 2 2),
      .message (emptyMessage 3 2)], a.WellSized := by
    intro a ha
    simp only [List.mem_cons, List.not_mem_nil, or_false] at ha
    rcases ha with rfl | rfl | rfl <;> exact emptyMessage_wellSized (by decide) (by decide)
  refine ⟨_, rfl, hsized, (reception_exact_iff hsized).mpr ?_, rfl⟩
  rintro m rest ⟨⟩ -
  exact ⟨nofun, rfl⟩

/-- **A first message that announces no messages** makes the difference wrap around: the loop goes
on and receives another message. -/
theorem reception_wraps :
    let arrivals := [.message (emptyMessage 1 0), .message (emptyMessage 2 0)]
    let r := receiveArrivals (fun _ => true) arrivals
    max 1 (announced arrivals) < r.consumed ∧ r.differences = [(0, 1), (0, 2)] := by
  decide

end Intrinsic.DomainSocket
