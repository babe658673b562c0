import IconSharedMemory.SegmentInfoUtils

/-! # What the readers of name tables access

A `FileDescriptorNames` comes over a socket and a `SegmentInfo` out of shared memory, so all
their bytes are another process's, the number of names included.  Here the readers are followed
access by access (`Traced`): the cells of a table, the bytes of a cell, and the descriptors of
a control message.

Inside a cell the readers stop at the end.  The descriptors are only looked at when the control
message is as long as the number of names says.  But no reader compares that number with the
number of cells, so one that is too large is no error: the readers go on behind the table
(`names_behind_table`).  They stay inside exactly if the number is not larger than the table
(`readers_in_bounds_iff`).
-/
namespace Intrinsic.SegmentInfoUtils
open DomainSocket SharedMemoryManager

/-! ## Accesses -/

inductive Access
  /-- `Get(i)` of the names -/
  | cell (i : Nat)
  /-- A byte of the cell -/
  | byte (j : Nat)
  /-- An element of `CMSG_DATA` -/
  | descriptor (i : Nat)
  deriving DecidableEq, Repr

/-- The access is inside a table of this many cells, inside a cell, or to one of this many
descriptors. -/
def Access.InBounds (cells descriptors : Nat) : Access → Prop
  | .cell i => i < cells
  | .byte j => j < kMaxSegmentStringSize
  | .descriptor i => i < descriptors

/-- A result and the accesses on the way to it. -/
structure Traced (α : Type) where
  reads : List Access
  result : Except Stop α

namespace Traced
variable {α β : Type}

def pure (a : α) : Traced α := ⟨[], .ok a⟩

def bind (t : Traced α) (f : α → Traced β) : Traced β :=
  match t.result with
  | .ok a => ⟨t.reads ++ (f a).reads, (f a).result⟩
  | .error stop => ⟨t.reads, .error stop⟩

variable {t : Traced α} {f : α → Traced β} {a : α}

theorem result_bind : (t.bind f).result = t.result.bind fun a => (f a).result := by
  unfold bind
  split <;> (rename_i h; rw [h]; rfl)

theorem reads_bind (h : t.result = .ok a) : (t.bind f).reads = t.reads ++ (f a).reads := by
  rw [bind, h]

/-- What is made of a result is not read. -/
theorem reads_bind_pure (g : α → β) : (t.bind fun a => pure (g a)).reads = t.reads := by
  unfold bind
  split
  · exact List.append_nil _
  · rfl

theorem reads_bind_error {stop : Stop} (h : t.result = .error stop) :
    (t.bind f).reads = t.reads := by
  rw [bind, h]

end Traced

/-! ## The readers -/

/-- The loop of `StringView` from the `i`-th byte on: what it reads, and the size it finds. -/
def scan : List UInt8 → Nat → List Access × Nat
  | [], i => ([], i)
  | b :: bytes, i =>
    if b = 0 then ([.byte i], i)
    else (.byte i :: (scan bytes (i + 1)).1, (scan bytes (i + 1)).2)

/-- `InterfaceNameFromSegment`: the bytes of the view are copied into a string. -/
def readInterfaceName (name : SegmentName) : Traced Name :=
  let bytes := List.ofFn name.value
  let view := scan bytes 0
  ⟨view.1 ++ (List.range view.2).map .byte, .ok (bytes.take view.2)⟩

section Readers
variable {capacity : Nat} (keep : SegmentName → Bool) (names : Fin capacity → SegmentName)

/-- The loop of the readers. -/
def readNames : List Nat → Traced (List Name)
  | [] => .pure []
  | i :: indices =>
    Traced.bind ⟨[.cell i], getName names i⟩ fun name =>
      if keep name then
        (readInterfaceName name).bind fun text =>
          (readNames indices).bind fun rest => .pure (text :: rest)
      else readNames indices

end Readers

/-- The loop over the descriptors, up to the first that is not valid. -/
def readDescriptors (file : Int → Option Int) (data : List Int) : List Nat → List Access
  | [] => []
  | i :: indices =>
    .descriptor i :: if (file (data.getD i 0)).isNone then [] else readDescriptors file data indices

/-- The accesses of `GetSingleMessage` after its loop. -/
def messageReads (file : Int → Option Int) (received : List UInt8) (cmsg : ControlMessage) :
    List Access :=
  let data := TransferData.ofBytes received
  let numNames := data.fileDescriptorNames.size
  if data.domainSocketProtocolVersion ≠ kDomainSocketProtocolVersion then []
  else
    let names := readNames (fun _ => true) data.fileDescriptorNames.names (List.range numNames)
    match names.result with
    | .error _ => names.reads
    | .ok _ =>
      if cmsg.len ≠ cmsgLen (numNames * 4) ∨ cmsg.level ≠ solSocket ∨ cmsg.type ≠ scmRights then
        names.reads
      else names.reads ++ readDescriptors file cmsg.data (List.range numNames)

/-! ## They are the readers -/

theorem scan_snd (bytes : List UInt8) (i : Nat) :
    (scan bytes i).2 = i + (bytes.takeWhile (· ≠ 0)).length := by
  induction bytes generalizing i with
  | nil => rfl
  | cons b bytes ih =>
    unfold scan
    by_cases hb : b = 0
    · simp [hb]
    · rw [if_neg hb, ih]
      simp [hb]
      omega

theorem readInterfaceName_result (name : SegmentName) :
    (readInterfaceName name).result = .ok (interfaceNameFromSegment name) := by
  have hsize := scan_snd (List.ofFn name.value) 0
  rw [Nat.zero_add] at hsize
  simp only [readInterfaceName, interfaceNameFromSegment, stringView, hsize]
  exact congrArg Except.ok (List.prefix_iff_eq_take.mp (List.takeWhile_prefix _)).symm

section Readers
variable {capacity : Nat} {keep : SegmentName → Bool} {names : Fin capacity → SegmentName}

theorem readNames_result (indices : List Nat) :
    (readNames keep names indices).result = namesLoop keep names indices := by
  induction indices with
  | nil => rfl
  | cons i indices ih =>
    rw [readNames, namesLoop, Traced.result_bind]
    cases hname : getName names i with
    | error stop => rfl
    | ok name =>
      show (if keep name then _ else _ : Traced _).result =
        (namesLoop keep names indices).bind _
      rw [← ih]
      cases hkeep : keep name with
      | true =>
        rw [if_pos rfl, Traced.result_bind, readInterfaceName_result]
        show (Traced.bind _ _).result = _
        rw [Traced.result_bind]
        rfl
      | false =>
        rw [if_neg Bool.false_ne_true]
        cases (readNames keep names indices).result <;> rfl

/-! ## Inside and outside -/

theorem scan_reads {bytes : List UInt8} {i : Nat} {a : Access} (h : a ∈ (scan bytes i).1) :
    ∃ j, a = .byte j ∧ j < i + bytes.length := by
  induction bytes generalizing i with
  | nil => cases h
  | cons b bytes ih =>
    unfold scan at h
    rw [List.length_cons]
    by_cases hb : b = 0
    · rw [if_pos hb, List.mem_singleton] at h
      exact ⟨i, h, by omega⟩
    · rw [if_neg hb, List.mem_cons] at h
      rcases h with rfl | h
      · exact ⟨i, rfl, by omega⟩
      · obtain ⟨j, rfl, hj⟩ := ih h
        exact ⟨j, rfl, by omega⟩

/-- **The bytes of a name are read inside its cell**, with or without a zero byte at the end. -/
theorem readInterfaceName_inBounds {cells descriptors : Nat} {name : SegmentName} {a : Access}
    (h : a ∈ (readInterfaceName name).reads) : a.InBounds cells descriptors := by
  rcases List.mem_append.mp h with h | h
  · obtain ⟨j, rfl, hj⟩ := scan_reads h
    rw [List.length_ofFn, Nat.zero_add] at hj
    exact hj
  · obtain ⟨j, hj, rfl⟩ := List.mem_map.mp h
    have hsize := scan_snd (List.ofFn name.value) 0
    have hle := (List.takeWhile_prefix (p := fun b : UInt8 => decide (b ≠ 0))
      (l := List.ofFn name.value)).length_le
    rw [List.length_ofFn] at hle
    have hlt := List.mem_range.mp hj
    show j < kMaxSegmentStringSize
    omega

/-- The loop at an index inside the table. -/
theorem readNames_cons {i : Nat} (hi : i < capacity) (indices : List Nat) :
    (readNames keep names (i :: indices)).reads = .cell i ::
      ((if keep (names ⟨i, hi⟩) then (readInterfaceName (names ⟨i, hi⟩)).reads else []) ++
        (readNames keep names indices).reads) := by
  have hname : getName names i = .ok (names ⟨i, hi⟩) := dif_pos hi
  rw [readNames, Traced.reads_bind hname]
  cases hkeep : keep (names ⟨i, hi⟩) with
  | true =>
    rw [if_pos rfl, if_pos rfl, Traced.reads_bind (readInterfaceName_result _),
      Traced.reads_bind_pure]
    rfl
  | false => rfl

/-- The loop at an index outside. -/
theorem readNames_cons_outside {i : Nat} (hi : capacity ≤ i) (indices : List Nat) :
    (readNames keep names (i :: indices)).reads = [.cell i] := by
  have hname : getName names i = .error .outOfBounds := dif_neg (Nat.not_lt.mpr hi)
  rw [readNames, Traced.reads_bind_error hname]

/-- **The loop stays inside** exactly if all its indices are inside the table. -/
theorem readNames_inBounds_iff (descriptors : Nat) (indices : List Nat) :
    (∀ a ∈ (readNames keep names indices).reads, a.InBounds capacity descriptors) ↔
      ∀ i ∈ indices, i < capacity := by
  induction indices with
  | nil => simp [readNames, Traced.pure]
  | cons i indices ih =>
    rw [List.forall_mem_cons, ← ih]
    by_cases hi : i < capacity
    · rw [readNames_cons hi, List.forall_mem_cons, List.forall_mem_append]
      refine and_congr_right fun _ => and_iff_right fun a ha => ?_
      split at ha
      · exact readInterfaceName_inBounds ha
      · cases ha
    · rw [readNames_cons_outside (Nat.le_of_not_lt hi), List.forall_mem_singleton]
      exact iff_of_false hi fun h => hi h.1

/-- The accesses after indices inside are made. -/
theorem mem_reads_append {before indices : List Nat} {a : Access}
    (hbefore : ∀ i ∈ before, i < capacity) (h : a ∈ (readNames keep names indices).reads) :
    a ∈ (readNames keep names (before ++ indices)).reads := by
  induction before with
  | nil => exact h
  | cons i before ih =>
    rw [List.forall_mem_cons] at hbefore
    rw [List.cons_append, readNames_cons hbefore.1]
    exact List.mem_cons_of_mem _ (List.mem_append_right _ (ih hbefore.2))

theorem readNames_range_iff (descriptors size : Nat) :
    (∀ a ∈ (readNames keep names (List.range size)).reads, a.InBounds capacity descriptors) ↔
      size ≤ capacity := by
  rw [readNames_inBounds_iff]
  constructor
  · intro h
    by_contra hlt
    exact Nat.lt_irrefl _ (h capacity (List.mem_range.mpr (Nat.lt_of_not_le hlt)))
  · exact fun h i hi => Nat.lt_of_lt_of_le (List.mem_range.mp hi) h

/-- An index outside is no error that the loop returns. -/
theorem namesLoop_outOfBounds {indices : List Nat} {i : Nat} (hi : i ∈ indices)
    (hout : capacity ≤ i) : namesLoop keep names indices = .error .outOfBounds := by
  induction indices with
  | nil => cases hi
  | cons k indices ih =>
    rw [namesLoop, getName]
    split
    · next hk =>
      rcases List.mem_cons.mp hi with rfl | hi
      · exact absurd hk (Nat.not_lt.mpr hout)
      · rw [ih hi]
        rfl
    · rfl

end Readers

/-- The reader of `FileDescriptorNames` is the same loop. -/
theorem getNamesFromFileDescriptorNames_eq (n : FileDescriptorNames) :
    getNamesFromFileDescriptorNames n = namesLoop (fun _ => true) n.names (List.range n.size) := by
  unfold getNamesFromFileDescriptorNames
  induction List.range n.size with
  | nil => rfl
  | cons i indices ih =>
    rw [List.mapM_cons, ih, namesLoop, getName]
    split <;> rfl

theorem readDescriptors_reads {file : Int → Option Int} {data : List Int} {indices : List Nat}
    {a : Access} (h : a ∈ readDescriptors file data indices) :
    ∃ i ∈ indices, a = .descriptor i := by
  induction indices with
  | nil => cases h
  | cons i indices ih =>
    rw [readDescriptors, List.mem_cons] at h
    rcases h with rfl | h
    · exact ⟨i, .head _, rfl⟩
    · split at h
      · cases h
      · obtain ⟨j, hj, rfl⟩ := ih h
        exact ⟨j, .tail _ hj, rfl⟩

/-! ## The readers of foreign data -/

/-- **What a reader of another process's table should do**: access only what is there, and
return an error when the table claims to have more names than cells. -/
structure Guarded {α : Type} (cells descriptors size : Nat) (reads : List Access)
    (result : Except Stop α) : Prop where
  inBounds : ∀ a ∈ reads, a.InBounds cells descriptors
  refused : cells < size → ∃ st, result = .error (.error st)

theorem readNames_guarded_iff {capacity : Nat} (keep : SegmentName → Bool)
    (names : Fin capacity → SegmentName) (size : Nat) :
    Guarded capacity 0 size (readNames keep names (List.range size)).reads
      (readNames keep names (List.range size)).result ↔ size ≤ capacity := by
  constructor
  · exact fun h => (readNames_range_iff 0 size).mp h.inBounds
  · exact fun h => ⟨(readNames_range_iff 0 size).mpr h, fun hlt => absurd h (Nat.not_le.mpr hlt)⟩

/-- The number of descriptors in a control message that fits into the client's buffer. -/
def ControlMessage.descriptors (cmsg : ControlMessage) : Nat :=
  min kMaxFdsPerMessage ((cmsg.len - cmsgLen 0) / 4)

theorem messageReads_cases (file : Int → Option Int) {received : List UInt8}
    (cmsg : ControlMessage)
    (hversion : ¬ (TransferData.ofBytes received).domainSocketProtocolVersion ≠
      kDomainSocketProtocolVersion) :
    let n := (TransferData.ofBytes received).fileDescriptorNames
    messageReads file received cmsg =
        (readNames (fun _ => true) n.names (List.range n.size)).reads ∨
      cmsg.len = cmsgLen (n.size * 4) ∧ messageReads file received cmsg =
        (readNames (fun _ => true) n.names (List.range n.size)).reads ++
          readDescriptors file cmsg.data (List.range n.size) := by
  intro n
  unfold messageReads
  dsimp only
  rw [if_neg hversion]
  split
  · exact .inl rfl
  · split
    · exact .inl rfl
    · next hcontrol =>
      rw [not_or] at hcontrol
      exact .inr ⟨not_not.mp hcontrol.1, rfl⟩

/-- `GetSingleMessage` after its loop. -/
theorem messageReads_guarded_iff (file : Int → Option Int) (received : List UInt8)
    (cmsg : ControlMessage) :
    Guarded kMaxFdsPerMessage (ControlMessage.descriptors cmsg)
      (TransferData.ofBytes received).fileDescriptorNames.size
      (messageReads file received cmsg) (parseMessage file received cmsg) ↔
    (TransferData.ofBytes received).domainSocketProtocolVersion ≠ kDomainSocketProtocolVersion ∨
      (TransferData.ofBytes received).fileDescriptorNames.size ≤ kMaxFdsPerMessage := by
  by_cases hversion : (TransferData.ofBytes received).domainSocketProtocolVersion ≠
      kDomainSocketProtocolVersion
  · have hreads : messageReads file received cmsg = [] := if_pos hversion
    refine iff_of_true ⟨?_, fun _ => ?_⟩ (.inl hversion)
    · rw [hreads]
      exact nofun
    · unfold parseMessage
      dsimp only
      rw [if_pos hversion]
      exact ⟨_, rfl⟩
  · rw [or_iff_right hversion]
    let n := (TransferData.ofBytes received).fileDescriptorNames
    have hnames : (∀ a ∈ (readNames (fun _ => true) n.names (List.range n.size)).reads,
        a.InBounds kMaxFdsPerMessage (ControlMessage.descriptors cmsg)) ↔
        n.size ≤ kMaxFdsPerMessage := readNames_range_iff _ _
    constructor
    · intro h
      -- the names are read before the control message is looked at
      refine hnames.mp fun a ha => h.inBounds a ?_
      rcases messageReads_cases file cmsg hversion with heq | ⟨-, heq⟩
      · rw [heq]
        exact ha
      · rw [heq]
        exact List.mem_append_left _ ha
    · intro hsize
      refine ⟨fun a ha => ?_, fun hlt => absurd hsize (Nat.not_le.mpr hlt)⟩
      rcases messageReads_cases file cmsg hversion with heq | ⟨hlen, heq⟩
      · rw [heq] at ha
        exact hnames.mpr hsize a ha
      · rw [heq] at ha
        rcases List.mem_append.mp ha with ha | ha
        · exact hnames.mpr hsize a ha
        · -- the length of the control message has been compared with the number of names
          obtain ⟨i, hi, rfl⟩ := readDescriptors_reads ha
          have hi := List.mem_range.mp hi
          show i < min _ _
          rw [hlen]
          unfold cmsgLen
          omega

/-- **The readers stay inside** what another process has sent exactly if the table has no more
names than cells.  `GetSingleMessage` does not look at a message of another version. -/
theorem readers_in_bounds_iff (n : FileDescriptorNames) (s : SegmentInfo)
    (file : Int → Option Int) (received : List UInt8) (cmsg : ControlMessage) :
    (Guarded kMaxFdsPerMessage 0 n.size
        (readNames (fun _ => true) n.names (List.range n.size)).reads
        (getNamesFromFileDescriptorNames n) ↔ n.size ≤ kMaxFdsPerMessage) ∧
    (Guarded kMaxNumberOfSegments 0 s.size
        (readNames (fun _ => true) s.names (List.range s.size)).reads
        (getNamesFromSegmentInfo s) ↔ s.size ≤ kMaxNumberOfSegments) ∧
    (Guarded kMaxNumberOfSegments 0 s.size
        (readNames (·.mustBeUsed) s.names (List.range s.size)).reads
        (getRequiredInterfaceNamesFromSegmentInfo s) ↔ s.size ≤ kMaxNumberOfSegments) ∧
    (Guarded kMaxFdsPerMessage (ControlMessage.descriptors cmsg)
        (TransferData.ofBytes received).fileDescriptorNames.size
        (messageReads file received cmsg) (parseMessage file received cmsg) ↔
      (TransferData.ofBytes received).domainSocketProtocolVersion ≠
          kDomainSocketProtocolVersion ∨
        (TransferData.ofBytes received).fileDescriptorNames.size ≤ kMaxFdsPerMessage) := by
  have hloop : ∀ {capacity : Nat} (keep : SegmentName → Bool)
      (names : Fin capacity → SegmentName) (size : Nat),
      Guarded capacity 0 size (readNames keep names (List.range size)).reads
        (namesLoop keep names (List.range size)) ↔ size ≤ capacity := by
    intro capacity keep names size
    rw [← readNames_result]
    exact readNames_guarded_iff keep names size
  rw [getNamesFromFileDescriptorNames_eq]
  exact ⟨hloop _ _ _, hloop _ _ _, hloop _ _ _, messageReads_guarded_iff file received cmsg⟩

/-- A table with 200 empty names that claims to have 201. -/
def overfull : FileDescriptorNames := ⟨201, fun _ => .zero⟩

/-- **The names are read from behind the table**, and no error is returned. -/
theorem names_behind_table :
    (.cell 200 : Access) ∈
        (readNames (fun _ => true) overfull.names (List.range overfull.size)).reads ∧
      ∀ st, getNamesFromFileDescriptorNames overfull ≠ .error (.error st) := by
  have houtside : kMaxFdsPerMessage ≤ 200 := Nat.le_refl 200
  constructor
  · show _ ∈ (readNames _ _ (List.range (200 + 1))).reads
    rw [List.range_succ]
    refine mem_reads_append (fun i => List.mem_range.mp) ?_
    rw [readNames_cons_outside houtside]
    exact List.mem_singleton_self _
  · intro st h
    have hmem : 200 ∈ List.range overfull.size := List.mem_range.mpr (Nat.lt_succ_self 200)
    rw [getNamesFromFileDescriptorNames_eq, namesLoop_outOfBounds hmem houtside] at h
    cases h

end Intrinsic.SegmentInfoUtils
