import Mathlib.Data.List.TakeWhile
import IconSharedMemory.DomainSocketTransfer
import IconSharedMemory.SharedMemoryManager

/-! # The list of segments in shared memory

`GetSegmentInfo` (`shared_memory_manager.cc`) writes the names of all segments of a manager into
a record of fixed size, one name in one cell of 255 bytes, and the readers of
`segment_info_utils.cc` get the names out of it again.  The two know nothing of each other: the
writer cuts a name at its first zero byte and after 254 bytes, and puts as many as there are
into a table of 300 cells; the readers take everything before the first zero byte, from as many
cells as the record says.

They agree because of what `AddSegment` refuses.  Every registered name is shorter than a cell
and there are at most as many as there are cells, so without zero bytes in the names nothing is
cut off or left out (`segmentInfo_round_trip`).

A `std::unordered_map` is iterated over in some order; here it is any order of the entries.
-/
namespace Intrinsic.SegmentInfoUtils
open Runs DomainSocket SharedMemoryManager

/-! ## Writing -/

/-- `SegmentInfo` of `segment_info.fbs` -/
structure SegmentInfo where
  size : Nat
  names : Fin kMaxNumberOfSegments → SegmentName

/-- `SegmentInfo segment_info(size)`, where the size becomes a 32-bit number. -/
def SegmentInfo.make (size : Nat) : SegmentInfo := ⟨size % 2 ^ 32, fun _ => .zero⟩

/-- `Mutate` of the array of names. -/
def SegmentInfo.mutate (s : SegmentInfo) (index : Nat) (segment : SegmentName) :
    Except Stop SegmentInfo :=
  if index < kMaxNumberOfSegments then
    .ok { s with names := fun j => if j.val = index then segment else s.names j }
  else .error .outOfBounds

/-- What a `const char*` points to. -/
def cString (text : List UInt8) : List UInt8 := text.takeWhile (· ≠ 0)

/-- `snprintf(data, size, "%s", text)` -/
def snprintf {size : Nat} (data : Fin size → UInt8) (text : List UInt8) : Fin size → UInt8 :=
  fun i =>
    let printed := min (size - 1) (cString text).length
    if i.val < printed then (cString text).getD i.val 0
    else if i.val = printed then 0
    else data i

/-- An entry of `memory_segments_`. -/
abbrev Entry := Name × MemorySegmentInfo

/-- The cell for a segment: it is cleared, and the name is printed into it. -/
def cellOf (entry : Entry) : SegmentName :=
  ⟨snprintf (fun _ => 0) entry.1, entry.2.mustBeUsed⟩

/-- The loop of `SegmentInfoFromHashMap`. -/
def fillNames : List Entry → Nat → SegmentInfo → Except Stop SegmentInfo
  | [], _, s => .ok s
  | entry :: it, index, s => do
    let s ← s.mutate index (cellOf entry)
    fillNames it ((index + 1) % 2 ^ 32) s

def segmentInfoFromHashMap (segments : List Entry) : Except Stop SegmentInfo :=
  fillNames segments 0 (.make segments.length)

/-- The entries of `memory_segments_` in an order of iteration. -/
def Iterates {V : Type} (w : World V) (segments : List Entry) : Prop :=
  segments.Perm (w.memorySegments.entries.map fun e => (e.1, e.2))

def getRegisteredMemoryNames (segments : List Entry) : List Name :=
  segments.map Prod.fst

/-! ## Reading -/

/-- `Get(i)` of an array of names. -/
def getName {capacity : Nat} (names : Fin capacity → SegmentName) (i : Nat) :
    Except Stop SegmentName :=
  if h : i < capacity then .ok (names ⟨i, h⟩) else .error .outOfBounds

/-- `InterfaceNameFromSegment`, which does not fail because there is an array to read from. -/
def interfaceNameFromSegment (name : SegmentName) : Name := stringView name.value

/-- The loop of the readers over the indices.  Cells that are not to be kept are skipped. -/
def namesLoop {capacity : Nat} (keep : SegmentName → Bool) (names : Fin capacity → SegmentName) :
    List Nat → Except Stop (List Name)
  | [] => .ok []
  | i :: indices => do
    let name ← getName names i
    let rest ← namesLoop keep names indices
    if keep name then return interfaceNameFromSegment name :: rest else return rest

def getNamesFromSegmentInfo (s : SegmentInfo) : Except Stop (List Name) :=
  namesLoop (fun _ => true) s.names (List.range s.size)

def getRequiredInterfaceNamesFromSegmentInfo (s : SegmentInfo) :
    Except Stop (List Name) :=
  namesLoop (·.mustBeUsed) s.names (List.range s.size)

/-! ## What the readers find -/

section Reading
variable {capacity : Nat} {names : Fin capacity → SegmentName} {indices : List Nat}
  {cells : List SegmentName}

/-- The cells at these indices. -/
def Cells (names : Fin capacity → SegmentName) (indices : List Nat) (cells : List SegmentName) :
    Prop :=
  List.Forall₂ (fun i cell => getName names i = .ok cell) indices cells

theorem namesLoop_eq (keep : SegmentName → Bool) (h : Cells names indices cells) :
    namesLoop keep names indices = .ok ((cells.filter keep).map interfaceNameFromSegment) := by
  induction h with
  | nil => rfl
  | @cons i cell _ _ hcell _ ih =>
    rw [namesLoop, hcell, ih]
    cases hkeep : keep cell with
    | true => simp [hkeep, Bind.bind, Except.bind, pure, Except.pure]
    | false => simp [hkeep, Bind.bind, Except.bind, pure, Except.pure]

end Reading

/-! ## What the writer leaves -/

section Writing
variable {s : SegmentInfo} {index : Nat} {it : List Entry}

/-- **The loop fills the cells** from `index` on, if there are enough, and leaves those before. -/
theorem fillNames_spec (h : index + it.length ≤ kMaxNumberOfSegments) :
    ∃ s', fillNames it index s = .ok s' ∧ s'.size = s.size ∧
      (∀ j : Fin kMaxNumberOfSegments, j.val < index → s'.names j = s.names j) ∧
      ∀ (k : Nat) (hk : k < it.length) (hj : index + k < kMaxNumberOfSegments),
        s'.names ⟨index + k, hj⟩ = cellOf it[k] := by
  induction it generalizing index s with
  | nil => exact ⟨s, rfl, rfl, fun _ _ => rfl, fun k hk => absurd hk (Nat.not_lt_zero k)⟩
  | cons entry it ih =>
    rw [List.length_cons] at h
    have hindex : index < kMaxNumberOfSegments := by omega
    have hnext : (index + 1) % 2 ^ 32 = index + 1 := by
      have : kMaxNumberOfSegments < 2 ^ 32 := by decide
      exact Nat.mod_eq_of_lt (by omega)
    obtain ⟨s', hfill, hsize, hbefore, hcells⟩ :=
      @ih { s with names := fun j => if j.val = index then cellOf entry else s.names j }
        (index + 1) (by omega)
    refine ⟨s', ?_, hsize, fun j hj => ?_, fun k hk hj => ?_⟩
    · rw [fillNames, SegmentInfo.mutate, if_pos hindex, hnext]
      exact hfill
    · rw [hbefore j (by omega)]
      exact if_neg (by omega)
    · cases k with
      | zero =>
        rw [hbefore ⟨index + 0, hj⟩ (Nat.lt_succ_self index)]
        exact if_pos rfl
      | succ k =>
        have hk' : k < it.length := Nat.lt_of_succ_lt_succ hk
        have hj' : index + 1 + k < kMaxNumberOfSegments := by omega
        have hcell := hcells k hk' hj'
        have heq : (⟨index + (k + 1), hj⟩ : Fin kMaxNumberOfSegments) = ⟨index + 1 + k, hj'⟩ :=
          Fin.ext (by show index + (k + 1) = index + 1 + k; omega)
        rw [heq, hcell, List.getElem_cons_succ]

/-- **The record has one cell for each entry**, in the order of the iteration. -/
theorem segmentInfoFromHashMap_spec {segments : List Entry}
    (h : segments.length ≤ kMaxNumberOfSegments) :
    ∃ s, segmentInfoFromHashMap segments = .ok s ∧
      Cells s.names (List.range s.size) (segments.map cellOf) := by
  obtain ⟨s, hfill, hsize, -, hcells⟩ :=
    @fillNames_spec (.make segments.length) 0 segments (by omega)
  have hlength : s.size = segments.length := by
    have : kMaxNumberOfSegments < 2 ^ 32 := by decide
    rw [hsize]
    exact Nat.mod_eq_of_lt (by omega)
  refine ⟨s, hfill, ?_⟩
  rw [hlength]
  refine List.forall₂_iff_get.mpr ⟨by simp, fun k hk hk' => ?_⟩
  have hk : k < segments.length := by simpa using hk
  have hk300 : k < kMaxNumberOfSegments := by omega
  have hcell := hcells k hk (by omega)
  simp only [Nat.zero_add] at hcell
  simp [getName, hk300, hcell]

/-- **A name is read back from its cell.** -/
theorem interfaceName_cellOf {entry : Entry} (h : ValidName entry.1) :
    interfaceNameFromSegment (cellOf entry) = entry.1 := by
  have hcString : cString entry.1 = entry.1 := by
    refine List.takeWhile_eq_self_iff.mpr fun b hb => ?_
    have hne : b ≠ 0 := fun h0 => h.2 (h0 ▸ hb)
    simp [hne]
  have hcell : (cellOf entry).value = stringCopy entry.1 := by
    funext i
    unfold cellOf snprintf stringCopy
    dsimp only
    rw [hcString]
    split
    · rfl
    · split <;> rfl
  rw [interfaceNameFromSegment, hcell, stringView_stringCopy h]

end Writing

/-! ## What is registered -/

section Registered
variable {V : Type} {w : World V} {ops : List (Called V)}

/-- The names of the successful calls of `AddSegment`, and whether they must be used. -/
def registered (ops : List (Called V)) : List (Name × Bool) :=
  ops.filterMap fun c => if c.status.isOk then some (c.op.name, c.op.mustBeUsed) else none

variable {sizeofSegmentHeader : Nat} {uint8Name : List UInt8} {files : Nat → Option Nat}
  {memory : Nat → Option (Segment V)}

/-- **The map has what was registered**, the newest first. -/
theorem entries_eq_registered
    (hrun : Run (SharedMemoryManager.Step sizeofSegmentHeader uint8Name) (World.init files memory)
      ops w) :
    (w.memorySegments.entries.map fun e => (e.1, e.2.mustBeUsed)) = (registered ops).reverse := by
  induction hrun with
  | nil => rfl
  | @snoc ops w w' c hrun hs ih =>
    unfold registered at ih ⊢
    rw [List.filterMap_append, List.reverse_append, ← ih]
    rcases step_spec (consistent_run hrun) hs with ⟨hfail, hsame⟩ | ⟨hok, info, hflag, hreg⟩
    · simp [hfail, hsame.segments]
    · have hnew : c.op.name ∉ w.memorySegments := AList.lookup_eq_none.mp hreg.new
      rw [hreg.enters.segments, insertNew_of_none hreg.new, AList.entries_insert_of_notMem hnew]
      simp [hok, hflag, okStatus, Status.isOk]

/-- A registered name is shorter than a cell. -/
theorem length_le_of_verified {name : Name} (h : (verifyName name).isOk = true) :
    name.length ≤ 254 := by
  unfold verifyName at h
  split at h
  · cases h
  · split at h
    · cases h
    · next hlength =>
      unfold kMaxSegmentStringSize at hlength
      omega

variable {segments : List Entry}

/-- What an iteration finds is what was registered. -/
theorem Iterates.perm_registered
    (hrun : Run (SharedMemoryManager.Step sizeofSegmentHeader uint8Name) (World.init files memory)
      ops w) (h : Iterates w segments) :
    (segments.map fun e => (e.1, e.2.mustBeUsed)).Perm (registered ops) := by
  have hperm := h.map fun e : Entry => (e.1, e.2.mustBeUsed)
  rw [List.map_map] at hperm
  refine hperm.trans ?_
  show (w.memorySegments.entries.map fun e => (e.1, e.2.mustBeUsed)).Perm (registered ops)
  rw [entries_eq_registered hrun]
  exact List.reverse_perm _

theorem Iterates.nodup (h : Iterates w segments) : (segments.map Prod.fst).Nodup := by
  have hperm := h.map Prod.fst
  rw [List.map_map] at hperm
  exact hperm.nodup_iff.mpr w.memorySegments.nodupKeys

theorem Iterates.mem (h : Iterates w segments) {e : Entry} (he : e ∈ segments) :
    e.1 ∈ w.memorySegments := by
  obtain ⟨e', he', rfl⟩ := List.mem_map.mp (List.Perm.mem_iff h |>.mp he)
  exact AList.mem_keys.mpr (List.mem_map_of_mem he')

theorem Iterates.validName
    (hrun : Run (SharedMemoryManager.Step sizeofSegmentHeader uint8Name) (World.init files memory)
      ops w) (hnames : ∀ c ∈ ops, (0 : UInt8) ∉ c.op.name) (h : Iterates w segments) {e : Entry}
    (he : e ∈ segments) : ValidName e.1 := by
  refine ⟨length_le_of_verified ((consistent_run hrun).verified e.1 (h.mem he)), ?_⟩
  have hmem := (h.perm_registered hrun).mem_iff.mp (List.mem_map_of_mem he)
  obtain ⟨c, hc, hop⟩ := List.mem_filterMap.mp hmem
  split at hop
  · have hname : c.op.name = e.1 := congrArg Prod.fst (Option.some.inj hop)
    rw [← hname]
    exact hnames c hc
  · cases hop

/-- A segment must be used if it was registered so. -/
theorem Iterates.mustBeUsed_iff
    (hrun : Run (SharedMemoryManager.Step sizeofSegmentHeader uint8Name) (World.init files memory)
      ops w) (h : Iterates w segments) {e : Entry} (he : e ∈ segments) :
    e.2.mustBeUsed = true ↔ (e.1, true) ∈ registered ops := by
  rw [← (h.perm_registered hrun).mem_iff, List.mem_map]
  constructor
  · intro hused
    exact ⟨e, he, by rw [hused]⟩
  · rintro ⟨e', he', heq⟩
    -- the names of the entries are distinct
    obtain ⟨hname, hused⟩ := Prod.mk.inj heq
    rw [← List.inj_on_of_nodup_map h.nodup he' he hname]
    exact hused

/-- **The writer and the readers agree.**  After any calls of `AddSegment` with names without
zero bytes, the record of the segments is written, and what is read from it are the registered
names, each once, and those of them that must be used. -/
theorem segmentInfo_round_trip {segments' : List Entry}
    (hrun : Run (SharedMemoryManager.Step sizeofSegmentHeader uint8Name) (World.init files memory)
      ops w) (hnames : ∀ c ∈ ops, (0 : UInt8) ∉ c.op.name)
    (h : Iterates w segments) (h' : Iterates w segments') :
    ∃ s names, segmentInfoFromHashMap segments = .ok s ∧
      getNamesFromSegmentInfo s = .ok names ∧
      names.Perm (getRegisteredMemoryNames segments') ∧
      names.Perm ((registered ops).map Prod.fst) ∧ names.Nodup ∧
      getRequiredInterfaceNamesFromSegmentInfo s =
        .ok (names.filter fun name => decide ((name, true) ∈ registered ops)) := by
  have hlength : segments.length ≤ kMaxNumberOfSegments := by
    have hlength := List.Perm.length_eq h
    rw [List.length_map] at hlength
    rw [hlength]
    exact (consistent_run hrun).bounded
  obtain ⟨s, hfill, hcells⟩ := segmentInfoFromHashMap_spec hlength
  have hread : ∀ l : List Entry, (∀ e ∈ l, e ∈ segments) →
      (l.map cellOf).map interfaceNameFromSegment = l.map Prod.fst := by
    intro l hl
    rw [List.map_map]
    exact List.map_congr_left fun e he =>
      interfaceName_cellOf (h.validName hrun hnames (hl e he))
  refine ⟨s, segments.map Prod.fst, hfill, ?_, ?_, ?_, h.nodup, ?_⟩
  · rw [getNamesFromSegmentInfo, namesLoop_eq _ hcells, List.filter_true,
      hread segments fun _ => id]
  · exact (List.Perm.trans h (List.Perm.symm h')).map Prod.fst
  · have hperm := (h.perm_registered hrun).map Prod.fst
    rwa [List.map_map] at hperm
  · have hused : segments.filter ((·.mustBeUsed) ∘ cellOf) =
        segments.filter fun e => decide ((e.1, true) ∈ registered ops) := by
      refine List.filter_congr fun e he => ?_
      have hiff := h.mustBeUsed_iff hrun he
      show e.2.mustBeUsed = decide _
      rw [Bool.eq_iff_iff, hiff, decide_eq_true_iff]
    rw [getRequiredInterfaceNamesFromSegmentInfo, namesLoop_eq _ hcells, List.filter_map, hused,
      hread _ fun e he => List.mem_of_mem_filter he, List.filter_map]
    rfl

end Registered

/-- Two segments are added, and the name of the first once more. -/
def adding : List (Called Nat) :=
  [⟨succeeding 3 4096 136, .withPayloadSize (ascii "state") true 8 none, okStatus⟩,
    ⟨succeeding 4 8192 136, .withPayloadSize (ascii "command") false 8 none, okStatus⟩,
    ⟨succeeding 5 12288 136, .withPayloadSize (ascii "state") false 8 none,
      formatStatus .alreadyExists
        (quoted "Shared memory segment " (ascii "state") (ascii " already exists"))⟩]

/-- Both are read from the record, in either order of iteration. -/
theorem segmentInfo_round_trip_adding : ∃ (w : World Nat) (segments : List Entry),
    Run (SharedMemoryManager.Step 128 (ascii "h")) (World.init (fun _ => none) fun _ => none)
      adding w ∧ Iterates w segments ∧ (∀ c ∈ adding, (0 : UInt8) ∉ c.op.name) ∧
      ∃ s names, segmentInfoFromHashMap segments = .ok s ∧
        getNamesFromSegmentInfo s = .ok names ∧
        names.Perm [ascii "state", ascii "command"] ∧
        getRequiredInterfaceNamesFromSegmentInfo s = .ok [ascii "state"] := by
  have hrun : ∃ w : World Nat,
      Run (SharedMemoryManager.Step 128 (ascii "h")) (World.init (fun _ => none) fun _ => none)
        adding w := ⟨_, .cons rfl (.cons rfl (.single rfl))⟩
  obtain ⟨w, hrun⟩ := hrun
  have hnames : ∀ c ∈ adding, (0 : UInt8) ∉ c.op.name := by decide
  have hiterates : Iterates w (w.memorySegments.entries.map fun e => (e.1, e.2)) := .refl _
  obtain ⟨s, names, hfill, hread, -, hperm, hnodup, hrequired⟩ :=
    segmentInfo_round_trip hrun hnames hiterates hiterates
  refine ⟨w, _, hrun, hiterates, hnames, s, names, hfill, hread, hperm, ?_⟩
  have hfilter := hperm.filter fun name => decide ((name, true) ∈ registered adding)
  rw [hrequired]
  exact congrArg Except.ok (List.perm_singleton.mp hfilter)

end Intrinsic.SegmentInfoUtils
