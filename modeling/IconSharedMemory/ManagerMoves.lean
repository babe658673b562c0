import IconSharedMemory.CompositeCreation
import IconSharedMemory.Runs
import IconSharedMemory.Holdings

/-! Moving a `SharedMemoryManager`.  The move constructor and the move assignment are written by
hand: they hand over `memory_segments_`, and nothing else.  The map of descriptors, the module
name and the namespace stay where they are, and a move assignment forgets the segments its target
has had without closing or unmapping them.

The model is a world of managers that are created, moved and destroyed, and that add segments.
In every run a segment belongs to one manager at most (`Owned`), and a destructor releases each
segment of its manager once.  A move does what it should only if there was next to nothing to
move (`move_moves_all_iff`). -/

namespace Intrinsic.SharedMemoryManager
open Runs Holdings
open DomainSocket (Name SegmentNameToFileDescriptorMap)

/-! ## Managers -/

/-- The members of a `SharedMemoryManager`; the logger is left out. -/
structure Manager where
  segmentNameToFileDescriptorMap : AList fun _ : Name => Nat
  memorySegments : AList fun _ : Name => MemorySegmentInfo
  moduleName : List UInt8
  sharedMemoryNamespace : List UInt8

namespace Manager

def getRegisteredMemoryNames (m : Manager) : List Name := m.memorySegments.keys

/-- `Get` of a class of handles to segments of a type with `sizeof` bytes. -/
def get {S H : Type} [DecidableEq S] (m : Manager) (cls : SharedMemory.HandleClass)
    (sizeofSegmentHeader sizeof : Nat) (segments : SharedMemory.World S H) (file : Int → S)
    (calls : SharedMemory.GetCalls) (segmentName : Name) :
    Option (SharedMemory.World S H × Except Status SharedMemory.MemorySegment) :=
  match descriptorMap m.segmentNameToFileDescriptorMap with
  | none => none
  | some descriptors =>
    cls.get sizeofSegmentHeader sizeof segments file calls descriptors segmentName

/-- `SharedMemoryManager(SharedMemoryManager&& other)`: the new manager, and the other one. -/
def moveConstruct (other : Manager) : Manager × Manager :=
  (⟨∅, other.memorySegments, [], []⟩, { other with memorySegments := ∅ })

/-- `operator=(SharedMemoryManager&& other)`, if the other manager is another one. -/
def moveAssign (self other : Manager) : Manager × Manager :=
  ({ self with memorySegments := other.memorySegments }, { other with memorySegments := ∅ })

end Manager

/-! ## The world -/

/-- A call that gives back a descriptor or a mapping. -/
inductive Release
  | close (fd : Nat)
  | munmap (address length : Nat)
  deriving DecidableEq, Repr

/-- The managers that are alive, and what the kernel has for their process. -/
structure Managers (V M : Type) where
  managers : M → Option Manager
  files : Nat → Option Nat
  memory : Nat → Option (Segment V)

/-- What a program can do with managers. -/
inductive Op (V M : Type)
  | create (m : M) (sharedMemoryNamespace moduleName : List UInt8)
  | addSegment (m : M) (c : Called V)
  | moveConstruct (target source : M)
  | moveAssign (target source : M)
  | destroy (m : M)

namespace Managers
variable {V M : Type}

/-- No managers, in any process. -/
def init (files : Nat → Option Nat) (memory : Nat → Option (Segment V)) : Managers V M :=
  ⟨fun _ => none, files, memory⟩

/-- What a manager sees. -/
def world (s : Managers V M) (manager : Manager) : World V :=
  ⟨manager.segmentNameToFileDescriptorMap, manager.memorySegments, s.files, s.memory⟩

/-- The segment a manager has under a name. -/
def info (s : Managers V M) (m : M) (name : Name) : Option MemorySegmentInfo :=
  (s.managers m).bind fun manager => manager.memorySegments.lookup name

/-- The loop of the destructor.  It destroys the headers, which have to be mapped. -/
def release (s : Managers V M) : List MemorySegmentInfo → Option (Managers V M × List Release)
  | [] => some (s, [])
  | info :: infos =>
    match s.memory info.data with
    | none => none
    | some _ =>
      let s := { s with
        files := Function.update s.files info.fd none
        memory := Function.update s.memory info.data none }
      (s.release infos).map fun (s, releases) =>
        (s, .close info.fd :: .munmap info.data info.length :: releases)

variable [DecidableEq M]

def put (s : Managers V M) (m : M) (manager : Manager) : Managers V M :=
  { s with managers := Function.update s.managers m (some manager) }

/-- A manager, and the kernel, after `AddSegment`. -/
def update (s : Managers V M) (m : M) (manager : Manager) (w : World V) : Managers V M :=
  ({ s with files := w.files, memory := w.memory } : Managers V M).put m { manager with
    segmentNameToFileDescriptorMap := w.segmentNameToFileDescriptorMap
    memorySegments := w.memorySegments }

variable (sizeofSegmentHeader : Nat) (uint8Name : List UInt8)

/-- **The effect of an operation**, and what it gives back. -/
def apply (s : Managers V M) : Op V M → Option (Managers V M × List Release)
  | .create m sharedMemoryNamespace moduleName =>
    if (s.managers m).isSome then none
    else if moduleName = [] then some (s, [])
    else some (s.put m ⟨∅, ∅, moduleName, sharedMemoryNamespace⟩, [])
  | .addSegment m c =>
    match s.managers m with
    | none => none
    | some manager =>
      match (s.world manager).addSegment sizeofSegmentHeader uint8Name c.calls c.op with
      | none => none
      | some (w, st) =>
        if st = c.status then some (s.update m manager w, []) else none
  | .moveConstruct target source =>
    match s.managers target, s.managers source with
    | none, some other =>
      let (self, other) := other.moveConstruct
      some ((s.put source other).put target self, [])
    | _, _ => none
  | .moveAssign target source =>
    match s.managers target, s.managers source with
    | some self, some other =>
      if target = source then some (s, [])
      else
        let (self, other) := self.moveAssign other
        some ((s.put source other).put target self, [])
    | _, _ => none
  | .destroy m =>
    match s.managers m with
    | none => none
    | some manager =>
      (s.release (manager.memorySegments.entries.map (·.2))).map fun (s, releases) =>
        ({ s with managers := Function.update s.managers m none }, releases)

def Step (s : Managers V M) (l : Op V M × List Release) (s' : Managers V M) : Prop :=
  s.apply sizeofSegmentHeader uint8Name l.1 = some (s', l.2)

end Managers

/-! ## Who owns a segment -/

section Ownership
variable {V M : Type} {s s' : Managers V M} {m : M} {name : Name} {info : MemorySegmentInfo}

/-- **The invariant**: the descriptor of a segment is open, its memory is mapped, and neither
belongs to another segment. -/
structure Owned (s : Managers V M) : Prop where
  backed : ∀ m name info, s.info m name = some info →
    s.files info.fd ≠ none ∧ s.memory info.data ≠ none
  descriptors : Unshared fun x : M × Name => (s.info x.1 x.2).map (·.fd)
  mappings : Unshared fun x : M × Name => (s.info x.1 x.2).map (·.data)

theorem owned_init (files : Nat → Option Nat) (memory : Nat → Option (Segment V)) :
    Owned (Managers.init files memory : Managers V M) :=
  ⟨nofun, nofun, nofun⟩

/-- What the managers have is what they had before, perhaps under other names. -/
theorem Owned.rename (h : Owned s) (origin : M → M)
    (hinfo : ∀ m name info, s'.info m name = some info → s.info (origin m) name = some info)
    (hinj : ∀ m m' name name' info info', s'.info m name = some info →
      s'.info m' name' = some info' → origin m = origin m' → m = m')
    (hbacked : ∀ m name info, s'.info m name = some info →
      s'.files info.fd ≠ none ∧ s'.memory info.data ≠ none) :
    Owned s' := by
  have hunshared : ∀ part : MemorySegmentInfo → Nat,
      Unshared (fun x : M × Name => (s.info x.1 x.2).map part) →
      Unshared fun x : M × Name => (s'.info x.1 x.2).map part := by
    rintro part hold ⟨m, name⟩ ⟨m', name'⟩ r hm hm'
    obtain ⟨info, hsome, hpart⟩ := Option.map_eq_some_iff.mp hm
    obtain ⟨info', hsome', hpart'⟩ := Option.map_eq_some_iff.mp hm'
    have heq : (origin m, name) = (origin m', name') := by
      refine hold _ _ r ?_ ?_
      · exact Option.map_eq_some_iff.mpr ⟨info, hinfo m name info hsome, hpart⟩
      · exact Option.map_eq_some_iff.mpr ⟨info', hinfo m' name' info' hsome', hpart'⟩
    obtain ⟨horigin, rfl⟩ := Prod.mk.inj heq
    rw [hinj m m' name name info info' hsome hsome' horigin]
  exact ⟨hbacked, hunshared _ h.descriptors, hunshared _ h.mappings⟩

theorem info_eq {manager : Manager} (h : s.managers m = some manager) (name : Name) :
    s.info m name = manager.memorySegments.lookup name := by
  rw [Managers.info, h, Option.bind_some]

variable [DecidableEq M]

theorem info_put (s : Managers V M) (m m' : M) (manager : Manager) (name : Name) :
    (s.put m manager).info m' name =
      if m' = m then manager.memorySegments.lookup name else s.info m' name := by
  unfold Managers.info Managers.put
  dsimp only
  split
  · next heq => rw [heq, Function.update_self, Option.bind_some]
  · next hne => rw [Function.update_of_ne hne]

/-- A manager without segments comes to life. -/
theorem Owned.create (h : Owned s) {manager : Manager} (hempty : manager.memorySegments = ∅) :
    Owned (s.put m manager) := by
  have hinfo : ∀ m' name info, (s.put m manager).info m' name = some info →
      s.info m' name = some info := by
    intro m' name info hsome
    rw [info_put, hempty] at hsome
    split at hsome
    · cases hsome
    · exact hsome
  exact h.rename id hinfo (fun _ _ _ _ _ _ _ _ heq => heq) fun m' name info hsome =>
    h.backed m' name info (hinfo m' name info hsome)

/-- **The segments of one manager become those of another**, whatever that one has had. -/
theorem Owned.move (h : Owned s) {target source : M} {other self' other' : Manager}
    (hsource : s.managers source = some other) (hne : target ≠ source)
    (hself : self'.memorySegments = other.memorySegments) (hempty : other'.memorySegments = ∅) :
    Owned ((s.put source other').put target self') := by
  have hinfo : ∀ m name info, ((s.put source other').put target self').info m name = some info →
      m ≠ source ∧ s.info (if m = target then source else m) name = some info := by
    intro m name info hsome
    rw [info_put, info_put, hempty] at hsome
    split at hsome
    · next heq =>
      rw [if_pos heq, info_eq hsource, ← hself]
      exact ⟨heq ▸ hne, hsome⟩
    · next hm =>
      split at hsome
      · cases hsome
      · next hm' =>
        rw [if_neg hm]
        exact ⟨hm', hsome⟩
  refine h.rename (fun m => if m = target then source else m)
    (fun m name info hsome => (hinfo m name info hsome).2) ?_ ?_
  · intro m m' name name' info info' hsome hsome' heq
    have hm := (hinfo m name info hsome).1
    have hm' := (hinfo m' name' info' hsome').1
    split at heq
    · next htarget =>
      split at heq
      · next htarget' => rw [htarget, htarget']
      · exact absurd heq.symm hm'
    · split at heq
      · exact absurd heq hm
      · exact heq
  · intro m name info hsome
    exact h.backed _ name info (hinfo m name info hsome).2

section AddSegment
variable {manager : Manager} {w : World V}

theorem Owned.fails (h : Owned s) (hm : s.managers m = some manager)
    (hfails : Fails (s.world manager) w) : Owned (s.update m manager w) := by
  have hsegments : w.memorySegments = manager.memorySegments := by
    rcases hfails with rfl | ⟨fd, -, htouch⟩
    · rfl
    · exact htouch.segments
  have hinfo : ∀ m' name info, (s.update m manager w).info m' name = some info →
      s.info m' name = some info := by
    intro m' name info hsome
    rw [Managers.update, info_put, hsegments] at hsome
    split at hsome
    · next heq => rwa [heq, info_eq hm]
    · exact hsome
  refine h.rename id hinfo (fun _ _ _ _ _ _ _ _ heq => heq) ?_
  intro m' name info hsome
  obtain ⟨hfile, hmemory⟩ := h.backed m' name info (hinfo m' name info hsome)
  rcases hfails with rfl | ⟨fd, hclosed, htouch⟩
  · exact ⟨hfile, hmemory⟩
  · have hne : info.fd ≠ fd := fun heq => hfile (heq ▸ hclosed)
    exact ⟨(htouch.files info.fd hne).trans_ne hfile,
      (htouch.memory info.data hmemory).trans_ne hmemory⟩

theorem Owned.registers (h : Owned s) (hm : s.managers m = some manager)
    (hreg : Registers name info (s.world manager) w) : Owned (s.update m manager w) := by
  have hinfo : ∀ x : M × Name, (s.update m manager w).info x.1 x.2 =
      if x = (m, name) then some info else s.info x.1 x.2 := by
    rintro ⟨m', name'⟩
    rw [Managers.update, info_put, hreg.enters.segments, lookup_insertNew hreg.new]
    by_cases hm' : m' = m
    · rw [if_pos hm', hm', info_eq hm]
      by_cases hname : name' = name
      · rw [if_pos hname, hname, if_pos rfl]
      · rw [if_neg hname, if_neg fun heq => hname (Prod.mk.inj heq).2]
        rfl
    · rw [if_neg hm', if_neg fun heq => hm' (Prod.mk.inj heq).1]
      rfl
  have hunshared : ∀ part : MemorySegmentInfo → Nat,
      Unshared (fun x : M × Name => (s.info x.1 x.2).map part) →
      (∀ m name info', s.info m name = some info' → part info' ≠ part info) →
      Unshared fun x : M × Name => ((s.update m manager w).info x.1 x.2).map part := by
    intro part hold hfresh
    have heq : (fun x : M × Name => ((s.update m manager w).info x.1 x.2).map part) =
        Function.update (fun x : M × Name => (s.info x.1 x.2).map part) (m, name)
          (some (part info)) := by
      funext x
      rw [hinfo, Function.update_apply]
      split <;> rfl
    rw [heq]
    refine hold.acquire ?_
    rintro ⟨x, hx⟩
    obtain ⟨info', hsome, hpart⟩ := Option.map_eq_some_iff.mp hx
    exact hfresh x.1 x.2 info' hsome hpart
  -- what is registered is new to the kernel, so it belongs to no other segment
  obtain ⟨hclosed, hfree⟩ := hreg.enters.fresh
  refine ⟨?_, hunshared _ h.descriptors ?_, hunshared _ h.mappings ?_⟩
  · intro m' name' info' hsome
    rw [hinfo (m', name')] at hsome
    split at hsome
    · cases hsome
      rw [show (s.update m manager w).files info.fd = _ from hreg.enters.backed.1]
      exact ⟨nofun, hreg.enters.backed.2⟩
    · obtain ⟨hfile, hmemory⟩ := h.backed m' name' info' hsome
      have hne : info'.fd ≠ info.fd := fun heq => hfile (heq ▸ hclosed)
      exact ⟨(hreg.enters.files _ hne).trans_ne hfile,
        (hreg.enters.memory _ hmemory).trans_ne hmemory⟩
  · exact fun m' name' info' hsome heq => (h.backed m' name' info' hsome).1 (heq ▸ hclosed)
  · exact fun m' name' info' hsome heq => (h.backed m' name' info' hsome).2 (heq ▸ hfree)

end AddSegment

/-! ### The destructor -/

/-- What the destructor calls for a segment. -/
def MemorySegmentInfo.releases (info : MemorySegmentInfo) : List Release :=
  [.close info.fd, .munmap info.data info.length]

omit [DecidableEq M] in
/-- The loop of the destructor releases what it is given, and nothing else. -/
theorem release_spec {infos : List MemorySegmentInfo} {releases : List Release}
    (h : s.release infos = some (s', releases)) :
    s'.managers = s.managers ∧ releases = infos.flatMap (·.releases) ∧
      (∀ fd, fd ∉ infos.map (·.fd) → s'.files fd = s.files fd) ∧
      ∀ a, a ∉ infos.map (·.data) → s'.memory a = s.memory a := by
  induction infos generalizing s s' releases with
  | nil =>
    cases h
    exact ⟨rfl, rfl, fun _ _ => rfl, fun _ _ => rfl⟩
  | cons info infos ih =>
    unfold Managers.release at h
    split at h
    · cases h
    · obtain ⟨⟨s₁, releases₁⟩, hrest, heq⟩ := Option.map_eq_some_iff.mp h
      cases heq
      obtain ⟨hmanagers, rfl, hfiles, hmemory⟩ := ih hrest
      refine ⟨hmanagers, rfl, ?_, ?_⟩
      · intro fd hfd
        rw [List.map_cons, List.mem_cons, not_or] at hfd
        exact (hfiles fd hfd.2).trans (Function.update_of_ne hfd.1 ..)
      · intro a ha
        rw [List.map_cons, List.mem_cons, not_or] at ha
        exact (hmemory a ha.2).trans (Function.update_of_ne ha.1 ..)

omit [DecidableEq M] in
theorem info_of_mem {manager : Manager} (hm : s.managers m = some manager)
    (hmem : info ∈ manager.memorySegments.entries.map (·.2)) :
    ∃ name, s.info m name = some info := by
  obtain ⟨⟨name, info⟩, hentry, rfl⟩ := List.mem_map.mp hmem
  exact ⟨name, (info_eq hm name).trans (AList.mem_lookup_iff.mpr hentry)⟩

theorem Owned.destroy {manager : Manager} {releases : List Release} (h : Owned s)
    (hm : s.managers m = some manager)
    (hrelease : s.release (manager.memorySegments.entries.map (·.2)) = some (s', releases)) :
    Owned { s' with managers := Function.update s'.managers m none } := by
  obtain ⟨hmanagers, -, hfiles, hmemory⟩ := release_spec hrelease
  have hinfo : ∀ m' name info,
      ({ s' with managers := Function.update s'.managers m none } : Managers V M).info m' name =
        some info → m' ≠ m ∧ s.info m' name = some info := by
    intro m' name info hsome
    unfold Managers.info at hsome
    dsimp only at hsome
    by_cases heq : m' = m
    · rw [heq, Function.update_self] at hsome
      cases hsome
    · rw [Function.update_of_ne heq, hmanagers] at hsome
      exact ⟨heq, hsome⟩
  refine h.rename id (fun m' name info hsome => (hinfo m' name info hsome).2)
    (fun _ _ _ _ _ _ _ _ heq => heq) ?_
  intro m' name info hsome
  obtain ⟨hne, hold⟩ := hinfo m' name info hsome
  -- the segments of the other managers are not among those that are released
  have hother : ∀ part : MemorySegmentInfo → Nat,
      Unshared (fun x : M × Name => (s.info x.1 x.2).map part) →
      part info ∉ (manager.memorySegments.entries.map (·.2)).map part := by
    intro part hunshared hmem
    obtain ⟨info', hmem', hpart⟩ := List.mem_map.mp hmem
    obtain ⟨name', hold'⟩ := info_of_mem hm hmem'
    have heq : (m', name) = (m, name') := hunshared _ _ (part info)
      (Option.map_eq_some_iff.mpr ⟨info, hold, rfl⟩)
      (Option.map_eq_some_iff.mpr ⟨info', hold', hpart⟩)
    exact hne (Prod.mk.inj heq).1
  obtain ⟨hfile, hmapped⟩ := h.backed m' name info hold
  exact ⟨(hfiles _ (hother _ h.descriptors)).trans_ne hfile,
    (hmemory _ (hother _ h.mappings)).trans_ne hmapped⟩

section Step
variable {sizeofSegmentHeader : Nat} {uint8Name : List UInt8} {target source : M}
  {releases : List Release}

theorem moveConstruct_cases
    (h : s.apply sizeofSegmentHeader uint8Name (.moveConstruct target source) =
      some (s', releases)) :
    ∃ other, s.managers source = some other ∧ target ≠ source ∧ releases = [] ∧
      s' = (s.put source other.moveConstruct.2).put target other.moveConstruct.1 := by
  dsimp only [Managers.apply] at h
  split at h
  · next other htarget hsource =>
    cases h
    refine ⟨other, hsource, ?_, rfl, rfl⟩
    rintro rfl
    cases htarget.symm.trans hsource
  · cases h

theorem moveAssign_cases
    (h : s.apply sizeofSegmentHeader uint8Name (.moveAssign target source) =
      some (s', releases)) :
    ∃ self other, s.managers target = some self ∧ s.managers source = some other ∧
      releases = [] ∧ (target = source ∧ s' = s ∨ target ≠ source ∧
        s' = (s.put source (self.moveAssign other).2).put target (self.moveAssign other).1) := by
  dsimp only [Managers.apply] at h
  split at h
  · next self other htarget hsource =>
    split_ifs at h with heq
    · cases h
      exact ⟨self, other, htarget, hsource, rfl, .inl ⟨heq, rfl⟩⟩
    · cases h
      exact ⟨self, other, htarget, hsource, rfl, .inr ⟨heq, rfl⟩⟩
  · cases h

theorem destroy_cases
    (h : s.apply sizeofSegmentHeader uint8Name (.destroy m) = some (s', releases)) :
    ∃ manager s₁, s.managers m = some manager ∧
      s.release (manager.memorySegments.entries.map (·.2)) = some (s₁, releases) ∧
      s' = { s₁ with managers := Function.update s₁.managers m none } := by
  dsimp only [Managers.apply] at h
  split at h
  · cases h
  · next manager hm =>
    obtain ⟨⟨s₁, releases₁⟩, hrelease, heq⟩ := Option.map_eq_some_iff.mp h
    cases heq
    exact ⟨manager, s₁, hm, hrelease, rfl⟩

/-- **A step preserves the ownership.** -/
theorem Owned.step {op : Op V M} (h : Owned s)
    (hs : s.apply sizeofSegmentHeader uint8Name op = some (s', releases)) : Owned s' := by
  cases op with
  | create m sharedMemoryNamespace moduleName =>
    dsimp only [Managers.apply] at hs
    split_ifs at hs
    · cases hs
      exact h
    · cases hs
      exact h.create rfl
  | addSegment m c =>
    dsimp only [Managers.apply] at hs
    split at hs
    · cases hs
    · next manager hm =>
      split at hs
      · cases hs
      · next w st hadd =>
        split_ifs at hs
        cases hs
        rcases addSegment_spec hadd with ⟨-, hfails⟩ | ⟨-, info, -, hreg⟩
        · exact h.fails hm hfails
        · exact h.registers hm hreg
  | moveConstruct target source =>
    obtain ⟨other, hsource, hne, -, rfl⟩ := moveConstruct_cases hs
    exact h.move hsource hne rfl rfl
  | moveAssign target source =>
    obtain ⟨self, other, -, hsource, -, ⟨-, rfl⟩ | ⟨hne, rfl⟩⟩ := moveAssign_cases hs
    · exact h
    · exact h.move hsource hne rfl rfl
  | destroy m =>
    obtain ⟨manager, s₁, hm, hrelease, rfl⟩ := destroy_cases hs
    exact h.destroy hm hrelease

/-- **In every run a segment belongs to one manager at most.** -/
theorem owned_run {files : Nat → Option Nat} {memory : Nat → Option (Segment V)}
    {ops : List (Op V M × List Release)}
    (hrun : Run (Managers.Step sizeofSegmentHeader uint8Name) (Managers.init files memory) ops s) :
    Owned s :=
  hrun.stateInvariant (owned_init files memory) fun _ _ _ h hs => h.step hs

end Step

end Ownership

/-! ## The law of moves -/

/-- **`after` answers as `before` does**, through each of the accessors. -/
structure Answers (before after : Manager) : Prop where
  get : ∀ (S H : Type) [DecidableEq S] (cls : SharedMemory.HandleClass)
    (sizeofSegmentHeader sizeof : Nat) (segments : SharedMemory.World S H) (file : Int → S)
    (calls : SharedMemory.GetCalls) (segmentName : Name),
    after.get cls sizeofSegmentHeader sizeof segments file calls segmentName =
      before.get cls sizeofSegmentHeader sizeof segments file calls segmentName
  descriptors : after.segmentNameToFileDescriptorMap = before.segmentNameToFileDescriptorMap
  names : after.getRegisteredMemoryNames = before.getRegisteredMemoryNames
  moduleName : after.moduleName = before.moduleName
  sharedMemoryNamespace : after.sharedMemoryNamespace = before.sharedMemoryNamespace

/-- The manager owns no segment, and reports none. -/
structure Manager.IsEmpty (m : Manager) : Prop where
  segments : m.memorySegments = ∅
  descriptors : m.segmentNameToFileDescriptorMap = ∅
  names : m.getRegisteredMemoryNames = []

/-- The segment is closed and unmapped exactly once. -/
def ReleasedOnce (info : MemorySegmentInfo) (releases : List Release) : Prop :=
  releases.count (.close info.fd) = 1 ∧ releases.count (.munmap info.data info.length) = 1

section Moves
variable {V M : Type} {s s' : Managers V M} {op : Op V M} {releases : List Release}

/-- **A move moves all of a manager**: the target answers as the source did, the source is empty,
and what the target of an assignment owned is released.  An assignment to itself leaves a manager
as it is. -/
def MovesAll (s : Managers V M) (releases : List Release) (s' : Managers V M) : Op V M → Prop
  | .moveConstruct target source => ∀ other, s.managers source = some other →
    ∃ self' other', s'.managers target = some self' ∧ s'.managers source = some other' ∧
      Answers other self' ∧ other'.IsEmpty
  | .moveAssign target source => ∀ self other, s.managers target = some self →
    s.managers source = some other →
    ∃ self' other', s'.managers target = some self' ∧ s'.managers source = some other' ∧
      Answers other self' ∧ (target = source ∧ releases = [] ∨ target ≠ source ∧
        other'.IsEmpty ∧ ∀ name info, self.memorySegments.lookup name = some info →
          ReleasedOnce info releases)
  | _ => True

/-- **There is next to nothing to move**: no descriptors, and names that are not lost.  The target
of an assignment owns no segment, unless it is the source. -/
def NothingToLose (s : Managers V M) : Op V M → Prop
  | .moveConstruct _ source => ∀ other, s.managers source = some other →
    other.segmentNameToFileDescriptorMap = ∅ ∧ other.moduleName = [] ∧
      other.sharedMemoryNamespace = []
  | .moveAssign target source => target = source ∨ ∀ self other,
    s.managers target = some self → s.managers source = some other →
    other.segmentNameToFileDescriptorMap = ∅ ∧ self.segmentNameToFileDescriptorMap = ∅ ∧
      self.moduleName = other.moduleName ∧
      self.sharedMemoryNamespace = other.sharedMemoryNamespace ∧ self.memorySegments = ∅
  | _ => True

theorem Answers.mk' {before after : Manager}
    (hdescriptors : after.segmentNameToFileDescriptorMap = before.segmentNameToFileDescriptorMap)
    (hsegments : after.memorySegments = before.memorySegments)
    (hmodule : after.moduleName = before.moduleName)
    (hnamespace : after.sharedMemoryNamespace = before.sharedMemoryNamespace) :
    Answers before after := by
  refine ⟨?_, hdescriptors, ?_, hmodule, hnamespace⟩
  · intro S H _ cls sizeofSegmentHeader sizeof segments file calls segmentName
    unfold Manager.get
    rw [hdescriptors]
  · unfold Manager.getRegisteredMemoryNames
    rw [hsegments]

variable [DecidableEq M] {sizeofSegmentHeader : Nat} {uint8Name : List UInt8} {target source : M}

omit [DecidableEq M] in
theorem exists_lookup_of_ne_empty {segments : AList fun _ : Name => MemorySegmentInfo}
    (h : segments ≠ ∅) : ∃ name info, segments.lookup name = some info := by
  cases hentries : segments.entries with
  | nil => exact absurd (AList.ext hentries) h
  | cons entry entries =>
    refine ⟨entry.1, entry.2, AList.mem_lookup_iff.mpr ?_⟩
    rw [hentries]
    exact List.mem_cons_self

theorem managers_put_put (self other : Manager) (hne : target ≠ source) :
    ((s.put source other).put target self).managers target = some self ∧
      ((s.put source other).put target self).managers source = some other :=
  ⟨Function.update_self .., (Function.update_of_ne hne.symm ..).trans (Function.update_self ..)⟩

theorem moveConstruct_movesAll_iff
    (h : s.apply sizeofSegmentHeader uint8Name (.moveConstruct target source) =
      some (s', releases)) :
    MovesAll s releases s' (.moveConstruct target source) ↔
      NothingToLose s (.moveConstruct target source) := by
  obtain ⟨other, hsource, hne, rfl, rfl⟩ := moveConstruct_cases h
  obtain ⟨htarget', hsource'⟩ := @managers_put_put _ _ s _ _ _ other.moveConstruct.1
    other.moveConstruct.2 hne
  constructor
  · intro hmoves other₁ hother
    cases hsource.symm.trans hother
    obtain ⟨self', other', hself, -, hanswers, -⟩ := hmoves other hsource
    cases htarget'.symm.trans hself
    exact ⟨hanswers.descriptors.symm, hanswers.moduleName.symm,
      hanswers.sharedMemoryNamespace.symm⟩
  · intro hnothing other₁ hother
    cases hsource.symm.trans hother
    obtain ⟨hdescriptors, hmodule, hnamespace⟩ := hnothing other hsource
    exact ⟨_, _, htarget', hsource', .mk' hdescriptors.symm rfl hmodule.symm hnamespace.symm,
      rfl, hdescriptors, rfl⟩

theorem moveAssign_movesAll_iff
    (h : s.apply sizeofSegmentHeader uint8Name (.moveAssign target source) =
      some (s', releases)) :
    MovesAll s releases s' (.moveAssign target source) ↔
      NothingToLose s (.moveAssign target source) := by
  obtain ⟨self, other, htarget, hsource, rfl, ⟨rfl, rfl⟩ | ⟨hne, rfl⟩⟩ := moveAssign_cases h
  · refine iff_of_true ?_ (.inl rfl)
    intro self₁ other₁ hself hother
    exact ⟨other₁, other₁, hother, hother, .mk' rfl rfl rfl rfl, .inl ⟨rfl, rfl⟩⟩
  · obtain ⟨htarget', hsource'⟩ := @managers_put_put _ _ s _ _ _ (self.moveAssign other).1
      (self.moveAssign other).2 hne
    constructor
    · intro hmoves
      refine .inr fun self₁ other₁ hself hother => ?_
      cases htarget.symm.trans hself
      cases hsource.symm.trans hother
      obtain ⟨self', other', hself', hother', hanswers, ⟨heq, -⟩ | ⟨-, hempty, hreleased⟩⟩ :=
        hmoves self other htarget hsource
      · exact absurd heq hne
      · cases htarget'.symm.trans hself'
        cases hsource'.symm.trans hother'
        have hdescriptors : other.segmentNameToFileDescriptorMap = ∅ := hempty.descriptors
        refine ⟨hdescriptors, hanswers.descriptors.trans hdescriptors, hanswers.moduleName,
          hanswers.sharedMemoryNamespace, ?_⟩
        -- nothing has been released, so there was nothing to release
        by_contra hne
        obtain ⟨name, info, hinfo⟩ := exists_lookup_of_ne_empty hne
        cases (hreleased name info hinfo).1
    · rintro (heq | hnothing)
      · exact absurd heq hne
      · intro self₁ other₁ hself hother
        cases htarget.symm.trans hself
        cases hsource.symm.trans hother
        obtain ⟨hother, hself, hmodule, hnamespace, hempty⟩ := hnothing self other htarget hsource
        refine ⟨_, _, htarget', hsource', .mk' (hself.trans hother.symm) rfl hmodule hnamespace,
          .inr ⟨hne, ⟨rfl, hother, rfl⟩, ?_⟩⟩
        intro name info hinfo
        rw [hempty] at hinfo
        cases hinfo

omit [DecidableEq M] in
/-- Releases of one kind are as many as there are segments with that part. -/
theorem count_releases {P : Type} [BEq P] (part : MemorySegmentInfo → P) {release : Release}
    {p : P} (hone : ∀ info, info.releases.count release = if part info == p then 1 else 0)
    (infos : List MemorySegmentInfo) :
    (infos.flatMap (·.releases)).count release = (infos.map part).count p := by
  induction infos with
  | nil => rfl
  | cons info infos ih =>
    rw [List.flatMap_cons, List.count_append, ih, hone, List.map_cons, List.count_cons,
      Nat.add_comm]

omit [DecidableEq M] in
theorem count_close (infos : List MemorySegmentInfo) (fd : Nat) :
    (infos.flatMap (·.releases)).count (.close fd) = (infos.map (·.fd)).count fd :=
  count_releases (·.fd) (fun info => by simp [MemorySegmentInfo.releases, List.count_cons]) infos

omit [DecidableEq M] in
theorem count_munmap (infos : List MemorySegmentInfo) (address length : Nat) :
    (infos.flatMap (·.releases)).count (.munmap address length) =
      (infos.map fun info => (info.data, info.length)).count (address, length) :=
  count_releases (fun info => (info.data, info.length))
    (fun info => by simp [MemorySegmentInfo.releases, List.count_cons]) infos

/-- **The destructor closes and unmaps each segment of its manager exactly once.** -/
theorem destroy_releasesOnce {m : M} (howned : Owned s)
    (h : s.apply sizeofSegmentHeader uint8Name (.destroy m) = some (s', releases)) :
    ∀ name info, s.info m name = some info → ReleasedOnce info releases := by
  obtain ⟨manager, s₁, hm, hrelease, -⟩ := destroy_cases h
  obtain ⟨-, rfl, -⟩ := release_spec hrelease
  have hnodup : ∀ part : MemorySegmentInfo → Nat,
      Unshared (fun x : M × Name => (s.info x.1 x.2).map part) →
      ((manager.memorySegments.entries.map (·.2)).map part).Nodup := by
    intro part hunshared
    have hkeys := manager.memorySegments.nodupKeys
    rw [List.map_map]
    refine List.Nodup.map_on ?_ hkeys.nodup
    intro x hx y hy heq
    have hinfo : ∀ z ∈ manager.memorySegments.entries, s.info m z.1 = some z.2 :=
      fun z hz => (info_eq hm z.1).trans (AList.mem_lookup_iff.mpr hz)
    have hname : (m, x.1) = (m, y.1) := hunshared _ _ (part x.2)
      (Option.map_eq_some_iff.mpr ⟨x.2, hinfo x hx, rfl⟩)
      (Option.map_eq_some_iff.mpr ⟨y.2, hinfo y hy, heq.symm⟩)
    exact hkeys.eq_of_fst_eq hx hy (Prod.mk.inj hname).2
  intro name info hinfo
  have hmem : info ∈ manager.memorySegments.entries.map (·.2) :=
    List.mem_map.mpr ⟨⟨name, info⟩,
      AList.mem_lookup_iff.mp ((info_eq hm name).symm.trans hinfo), rfl⟩
  constructor
  · rw [count_close]
    exact List.count_eq_one_of_mem (hnodup _ howned.descriptors) (List.mem_map_of_mem hmem)
  · rw [count_munmap]
    refine List.count_eq_one_of_mem ?_ (List.mem_map_of_mem hmem)
    refine List.Nodup.of_map Prod.fst ?_
    rw [List.map_map]
    exact hnodup _ howned.mappings

/-- **Moving a manager moves all of it**, in whatever state any sequence of operations has left
it, if and only if
* the source of a move construction has no descriptors in its map, and no names;
* an assignment is one to the same manager; or neither manager has descriptors in its map, they
  have the same names, and the target has no segments.
In every case a segment belongs to one manager at most. -/
theorem move_moves_all_iff {files : Nat → Option Nat} {memory : Nat → Option (Segment V)}
    {ops : List (Op V M × List Release)}
    (hrun : Run (Managers.Step sizeofSegmentHeader uint8Name) (Managers.init files memory) ops s)
    (hstep : Managers.Step sizeofSegmentHeader uint8Name s (op, releases) s') :
    Owned s' ∧ (MovesAll s releases s' op ↔ NothingToLose s op) := by
  refine ⟨(owned_run hrun).step hstep, ?_⟩
  cases op with
  | moveConstruct target source => exact moveConstruct_movesAll_iff hstep
  | moveAssign target source => exact moveAssign_movesAll_iff hstep
  | create m sharedMemoryNamespace moduleName => exact Iff.rfl
  | addSegment m c => exact Iff.rfl
  | destroy m => exact Iff.rfl

end Moves

/-- A manager with a segment is assigned to itself.  Instead it may be moved to a second one, which
then has the segment and no names to lose, and from there to a third one. -/
theorem move_moves_all_segment :
    let add : Called Unit :=
      ⟨succeeding 3 4096 72, .withPayloadSize (ascii "state") false 8 none, okStatus⟩
    ∃ s s' s₁ s₂ : Managers Unit Nat,
      Run (Managers.Step 64 []) (Managers.init (fun _ => none) fun _ => none)
        [(.create 0 [] (ascii "arm"), []), (.addSegment 0 add, [])] s ∧
      Managers.Step 64 [] s (.moveAssign 0 0, []) s' ∧
      (s'.managers 0).map (fun m => m.memorySegments.keys) = some [ascii "state"] ∧
      MovesAll s [] s' (.moveAssign 0 0) ∧
      Managers.Step 64 [] s (.moveConstruct 1 0, []) s₁ ∧
      Managers.Step 64 [] s₁ (.moveConstruct 2 1, []) s₂ ∧
      (s₂.managers 2).map (fun m => m.memorySegments.keys) = some [ascii "state"] ∧
      MovesAll s₁ [] s₂ (.moveConstruct 2 1) := by
  intro add
  have hmoves : ∃ s s' s₁ s₂ : Managers Unit Nat,
      Run (Managers.Step 64 []) (Managers.init (fun _ => none) fun _ => none)
        [(.create 0 [] (ascii "arm"), []), (.addSegment 0 add, [])] s ∧
      Managers.Step 64 [] s (.moveAssign 0 0, []) s' ∧
      (s'.managers 0).map (fun m => m.memorySegments.keys) = some [ascii "state"] ∧
      Managers.Step 64 [] s (.moveConstruct 1 0, []) s₁ ∧
      Managers.Step 64 [] s₁ (.moveConstruct 2 1, []) s₂ ∧
      (s₂.managers 2).map (fun m => m.memorySegments.keys) = some [ascii "state"] ∧
      NothingToLose s₁ (.moveConstruct 2 1) :=
    ⟨_, _, _, _, .cons rfl (.single rfl), rfl, rfl, rfl, rfl, rfl, fun other hother => by
      cases hother
      exact ⟨rfl, rfl, rfl⟩⟩
  obtain ⟨s, s', s₁, s₂, hrun, hself, hkeys, hmove, hmove', hkeys', hnothing⟩ := hmoves
  exact ⟨s, s', s₁, s₂, hrun, hself, hkeys, (move_moves_all_iff hrun hself).2.mpr (.inl rfl), hmove,
    hmove', hkeys', (move_moves_all_iff (hrun.append (.single hmove)) hmove').2.mpr hnothing⟩

/-- **A move leaves the descriptors and the names behind, and an assignment forgets segments**:
two managers with a segment each, one of which is assigned to the other.  When both have been
destroyed, the second segment is still open and mapped. -/
theorem move_leaves_behind :
    let add (fd address : Nat) (name : String) : Called Unit :=
      ⟨succeeding fd address 72, .withPayloadSize (ascii name) false 8 none, okStatus⟩
    ∃ s s' s'' : Managers Unit Nat,
      Run (Managers.Step 64 []) (Managers.init (fun _ => none) fun _ => none)
        [(.create 0 [] (ascii "arm"), []), (.create 1 [] (ascii "hand"), []),
          (.addSegment 0 (add 3 4096 "state"), []), (.addSegment 1 (add 4 8192 "grip"), [])] s ∧
      Managers.Step 64 [] s (.moveAssign 1 0, []) s' ∧
      (s.managers 0).map (fun m => m.segmentNameToFileDescriptorMap.keys) = some [ascii "state"] ∧
      (s'.managers 1).map (fun m => (m.segmentNameToFileDescriptorMap.keys, m.moduleName)) =
        some ([ascii "grip"], ascii "hand") ∧
      (s'.managers 0).map (fun m => m.segmentNameToFileDescriptorMap.keys) =
        some [ascii "state"] ∧
      Run (Managers.Step 64 []) s' [(.destroy 0, []), (.destroy 1, [.close 3, .munmap 4096 72])]
        s'' ∧
      s''.files 4 = some 72 ∧ (s''.memory 8192).isSome = true :=
  ⟨_, _, _, .cons rfl (.cons rfl (.cons rfl (.cons rfl .nil))), rfl, rfl, rfl, rfl,
    .cons rfl (.cons rfl .nil), rfl, rfl⟩

end Intrinsic.SharedMemoryManager
