import IconSharedMemory.HardwareInterfaces

/-! # Rules for long creations

`HardwareModuleRuntime::Connect` is one long sequence of parts, each of which may fail.
`Establishes` is what such a part does: a condition under which it succeeds, and what holds then.
Its rules follow the sequence.  What holds is mostly an `Inventory`: the manager has exactly these
segments, each with the type and the value it was registered with.
-/
namespace Intrinsic.RuntimeConnection
open DomainSocket SharedMemoryManager SharedMemory HardwareInterfaces

/-! ## Parts of a creation, one after the other -/

section Parts
variable {V S H α β : Type} [DecidableEq S]

/-- The handles are destroyed. -/
def destroy (w : SharedMemory.World S H) : List MemorySegment → Option (SharedMemory.World S H)
  | [] => some w
  | segment :: segments => (w.cleanUpSharedMemory segment).bind fun w => destroy w segments

/-- One part, whose error is returned, and then the rest.  If the rest fails, the members that
the part has set are destroyed with the runtime; the order of these destructors, each of which
gives back a mapping of its own, is not the source's. -/
def andThen (first : Creation V S H α) (handles : α → List MemorySegment)
    (rest : α → Creation V S H β) : Creation V S H β := fun p =>
  match first p with
  | none => none
  | some (p, .error st) => some (p, .error st)
  | some (p, .ok a) =>
    match rest a p with
    | some (p, .error st) =>
      (destroy p.segments (handles a)).map fun segments => ({ p with segments }, .error st)
    | result => result

def fail (st : Status) : Creation V S H α := fun p => some (p, .error st)

/-- **What a part of a creation does**: if `before` holds it succeeds if and only if `condition`
holds, and then `after` holds of what it returns. -/
structure Establishes (before : Process V S H → Prop) (condition : Prop)
    (after : α → Process V S H → Prop) (part : Creation V S H α) : Prop where
  isOk_iff : ∀ p p' r, before p → part p = some (p', r) → ((∃ a, r = .ok a) ↔ condition)
  after : ∀ p p' a, before p → part p = some (p', .ok a) → after a p'

namespace Establishes
variable {before : Process V S H → Prop} {middle : α → Process V S H → Prop}
  {after : β → Process V S H → Prop} {condition condition' : Prop}

omit [DecidableEq S] in
theorem ok (a : α) :
    Establishes before True (fun _ => before) (Creation.ok a : Creation V S H α) := by
  constructor
  · rintro p p' r - ⟨⟩
    exact iff_of_true ⟨a, rfl⟩ trivial
  · rintro p p' _ hbefore ⟨⟩
    exact hbefore

omit [DecidableEq S] in
theorem fail (st : Status) :
    Establishes before False after (RuntimeConnection.fail st : Creation V S H β) := by
  constructor
  · rintro p p' r - ⟨⟩
    exact iff_of_false (fun ⟨_, h⟩ => by cases h) id
  · rintro p p' a - h
    cases h

omit [DecidableEq S] in
theorem weaken {before' : Process V S H → Prop} {part : Creation V S H β}
    (himp : ∀ p, before' p → before p) (h : Establishes before condition after part) :
    Establishes before' condition after part :=
  ⟨fun p p' r hbefore => h.isOk_iff p p' r (himp p hbefore),
    fun p p' a hbefore => h.after p p' a (himp p hbefore)⟩

omit [DecidableEq S] in
/-- A check that returns an error, or else the rest of the function. -/
theorem check {rejected : Prop} [Decidable rejected] {st : Status} {rest : Creation V S H β}
    (hrest : ¬ rejected → Establishes before condition after rest) :
    Establishes before (¬ rejected ∧ condition) after
      (if rejected then RuntimeConnection.fail st else rest) := by
  by_cases h : rejected
  · rw [if_pos h]
    have hfalse : ¬ rejected ∧ condition ↔ False := iff_of_false (fun hboth => hboth.1 h) id
    rw [hfalse]
    exact fail st
  · rw [if_neg h, and_iff_right h]
    exact hrest h

theorem andThen {first : Creation V S H α} {handles : α → List MemorySegment}
    {rest : α → Creation V S H β} (hfirst : Establishes before condition middle first)
    (hrest : ∀ a, Establishes (middle a) condition' after (rest a)) :
    Establishes before (condition ∧ condition') after
      (RuntimeConnection.andThen first handles rest) := by
  constructor
  · intro p p' r hbefore h
    unfold RuntimeConnection.andThen at h
    split at h
    · cases h
    · next q st hq =>
      cases h
      refine iff_of_false (fun ⟨_, h⟩ => by cases h) fun hboth => ?_
      obtain ⟨a, ha⟩ := (hfirst.isOk_iff _ _ _ hbefore hq).mpr hboth.1
      cases ha
    · next q a hq =>
      have hcondition := (hfirst.isOk_iff _ _ _ hbefore hq).mp ⟨a, rfl⟩
      have hmiddle := hfirst.after _ _ _ hbefore hq
      split at h
      · next q' st hq' =>
        obtain ⟨segments, -, heq⟩ := Option.map_eq_some_iff.mp h
        cases heq
        refine iff_of_false (fun ⟨_, h⟩ => by cases h) fun hboth => ?_
        obtain ⟨b, hb⟩ := ((hrest a).isOk_iff _ _ _ hmiddle hq').mpr hboth.2
        cases hb
      · rw [(hrest a).isOk_iff _ _ _ hmiddle h]
        exact (and_iff_right hcondition).symm
  · intro p p' b hbefore h
    unfold RuntimeConnection.andThen at h
    split at h
    · cases h
    · cases h
    · next q a hq =>
      have hmiddle := hfirst.after _ _ _ hbefore hq
      split at h
      · obtain ⟨segments, -, heq⟩ := Option.map_eq_some_iff.mp h
        cases heq
      · exact (hrest a).after _ _ _ hmiddle h

variable {I J : SharedMemoryManager.World V → Prop} {sizeofSegmentHeader : Nat}
  {uint8Name : List UInt8}

omit [DecidableEq S] in
/-- `AddSegment`, and then the rest of the function. -/
theorem addSegment {calls : SystemCalls} {op : AddSegment V} {rest : Creation V S H β}
    (hadd : ∀ w w' st, I w → w.addSegment sizeofSegmentHeader uint8Name calls op = some (w', st) →
      (condition ∧ st.isOk = true ∧ J w') ∨ (¬ condition ∧ st.isOk = false))
    (hrest : Establishes (fun p => J p.manager) condition' after rest) :
    Establishes (fun p => I p.manager) (condition ∧ condition') after
      (Creation.addSegment sizeofSegmentHeader uint8Name calls op rest) := by
  constructor
  · intro p p' r hbefore h
    unfold Creation.addSegment at h
    split at h
    · cases h
    · next manager st hst =>
      rcases hadd _ _ _ hbefore hst with ⟨hcondition, hok, hJ⟩ | ⟨hnot, herror⟩
      · rw [hok, if_neg Bool.noConfusion] at h
        rw [hrest.isOk_iff _ _ _ hJ h]
        exact (and_iff_right hcondition).symm
      · rw [if_pos herror] at h
        cases h
        exact iff_of_false (fun ⟨_, h⟩ => by cases h) fun hboth => hnot hboth.1
  · intro p p' a hbefore h
    unfold Creation.addSegment at h
    split at h
    · cases h
    · next manager st hst =>
      rcases hadd _ _ _ hbefore hst with ⟨-, hok, hJ⟩ | ⟨-, herror⟩
      · rw [hok, if_neg Bool.noConfusion] at h
        exact hrest.after _ _ _ hJ h
      · rw [if_pos herror] at h
        cases h

/-- `Get` of a segment that is registered, and then the rest of the function. -/
theorem get {cls : HandleClass} {T : PayloadType V} {calls : GetCalls} {file : Int → S}
    {name : Name} {rest : MemorySegment → Creation V S H β}
    (hname : ∀ w, I w → name ∈ w.segmentNameToFileDescriptorMap)
    (hrest : ∀ segment, Establishes (fun p => I p.manager) condition (fun _ p => J p.manager)
      (rest segment)) :
    Establishes (fun p => I p.manager) (calls.Succeed sizeofSegmentHeader T.sizeof ∧ condition)
      (fun _ p => J p.manager) (Creation.get sizeofSegmentHeader file cls T calls name rest) := by
  constructor
  · intro p p' r hbefore h
    have hmem := hname _ hbefore
    rcases Creation.get_cases h with
      ⟨st, rfl, -, -, hnot⟩ | ⟨segment, segments, p'', hp'', -, hsucceed⟩
    · exact iff_of_false (fun ⟨_, h⟩ => by cases h) fun hall => hnot hmem hall.1
    · rw [(hrest segment).isOk_iff { p with segments } _ _ hbefore hp'']
      exact (and_iff_right (hsucceed hmem)).symm
  · intro p p' a hbefore h
    rcases Creation.get_cases h with ⟨st, hst, -⟩ | ⟨segment, segments, p'', hp'', hsame, -⟩
    · cases hst
    · show J p'.manager
      rw [hsame]
      exact (hrest segment).after { p with segments } _ _ hbefore hp''

end Establishes
end Parts

/-! ## What is registered -/

/-- A segment as it is registered. -/
structure Entry where
  name : Name
  mustBeUsed : Bool
  typeId : Bytes
  value : Bytes

/-- **The segments of the manager are these**, each as it was registered. -/
structure Inventory (entries : List Entry) (w : SharedMemoryManager.World Bytes) : Prop where
  consistent : Consistent w
  descriptors : Distinct w
  addresses : DistinctBy (·.data) w
  length : w.memorySegments.entries.length = entries.length
  mem_iff : ∀ name, name ∈ w.memorySegments ↔ name ∈ entries.map Entry.name
  offers : ∀ e ∈ entries, ∃ info, info.mustBeUsed = e.mustBeUsed ∧
    Offers w e.name e.typeId e.value info

/-- The manager has room for these segments, and their names and type ids are valid. -/
structure Lawful (entries : List Entry) : Prop where
  room : entries.length ≤ kMaxNumberOfSegments
  nodup : (entries.map Entry.name).Nodup
  verified : ∀ e ∈ entries, (verifyName e.name).isOk = true
  typeId : ∀ e ∈ entries, e.typeId.length ≤ kMaxTypeIdSize

theorem Lawful.of_append {entries more : List Entry} (h : Lawful (entries ++ more)) :
    Lawful entries := by
  obtain ⟨hroom, hnodup, hverified, htypeId⟩ := h
  rw [List.length_append] at hroom
  rw [List.map_append] at hnodup
  exact ⟨by omega, hnodup.of_append_left, fun e he => hverified e (List.mem_append_left _ he),
    fun e he => htypeId e (List.mem_append_left _ he)⟩

theorem Lawful.take {entries : List Entry} (h : Lawful entries) (n : Nat) :
    Lawful (entries.take n) := by
  rw [← List.take_append_drop n entries] at h
  exact h.of_append

section Inventory
variable {sizeofSegmentHeader : Nat} {uint8Name : Bytes} {entries : List Entry} {e : Entry}
  {w w' : SharedMemoryManager.World Bytes} {st : Status} {calls : SystemCalls}

theorem inventory_init (files : Nat → Option Nat) (memory : Nat → Option (Segment Bytes)) :
    Inventory [] (World.init files memory) := by
  refine ⟨consistent_init files memory, ?_, ?_, rfl, ?_, ?_⟩
  · exact fun _ _ _ _ h => by cases h
  · exact fun _ _ _ _ h => by cases h
  · exact fun name => iff_of_false (AList.notMem_empty _) List.not_mem_nil
  · exact fun e he => absurd he List.not_mem_nil

theorem Inventory.accepts (h : Inventory entries w) (hlawful : Lawful (entries ++ [e])) :
    w.Accepts e.name e.typeId := by
  have hlast : e ∈ entries ++ [e] := List.mem_append_right _ (List.mem_singleton_self e)
  obtain ⟨hroom, hnodup, hverified, htypeId⟩ := hlawful
  rw [List.length_append, List.length_singleton, ← h.length] at hroom
  rw [List.map_append, List.nodup_append'] at hnodup
  refine ⟨by omega, htypeId e hlast, ?_, hverified e hlast⟩
  rw [AList.lookup_eq_none, h.mem_iff]
  exact fun hmem => hnodup.2.2 hmem (List.mem_singleton_self _)

/-- A new segment. -/
theorem Inventory.registers {info : MemorySegmentInfo} {c : Called Bytes}
    (h : Inventory entries w)
    (hs : SharedMemoryManager.Step sizeofSegmentHeader uint8Name w c w')
    (hreg : Registers e.name info w w')
    (hoffers : ∃ info, info.mustBeUsed = e.mustBeUsed ∧ Offers w' e.name e.typeId e.value info) :
    Inventory (entries ++ [e]) w' := by
  have hw := h.consistent
  refine ⟨hreg.consistent hw, h.descriptors.registers hw hreg, ?_, ?_, ?_, ?_⟩
  · -- the new mapping is where nothing was mapped
    refine h.addresses.registers hreg fun name info' hinfo' heq => ?_
    have hmapped := (hw.backed name info' hinfo').2
    rw [heq] at hmapped
    exact hmapped hreg.enters.fresh.2
  · rw [hreg.enters.segments, insertNew_of_none hreg.new,
      AList.entries_insert_of_notMem (AList.lookup_eq_none.mp hreg.new), List.length_cons, h.length,
      List.length_append, List.length_singleton]
  · intro name
    rw [hreg.enters.segments, mem_insertNew, h.mem_iff, List.map_append, List.mem_append,
      List.map_singleton, List.mem_singleton]
    exact or_comm
  · intro e' he'
    rcases List.mem_append.mp he' with he' | he'
    · obtain ⟨info', hused, hoffers'⟩ := h.offers e' he'
      exact ⟨info', hused, hoffers'.step hw hs⟩
    · obtain rfl := List.mem_singleton.mp he'
      exact hoffers

/-- **Once there is room, only the system calls decide** whether a segment is registered. -/
theorem Inventory.add {sizeof : Nat} (h : Inventory entries w) (hlawful : Lawful (entries ++ [e]))
    (hadd : w.addValue sizeofSegmentHeader calls e.name e.mustBeUsed sizeof e.value e.typeId =
      some (w', st)) :
    (calls.Succeed ((sizeofSegmentHeader + sizeof) % 2 ^ 64) ∧ st.isOk = true ∧
      Inventory (entries ++ [e]) w') ∨
    (¬ calls.Succeed ((sizeofSegmentHeader + sizeof) % 2 ^ 64) ∧ st.isOk = false) := by
  obtain ⟨hsuccess, hfailure⟩ := addValue_outcome hadd
  by_cases hcalls : calls.Succeed ((sizeofSegmentHeader + sizeof) % 2 ^ 64)
  · obtain ⟨rfl, -⟩ := hsuccess ⟨h.accepts hlawful, hcalls⟩
    have hs : SharedMemoryManager.Step sizeofSegmentHeader [] w
        ⟨calls, .withValue ⟨sizeof, e.typeId, []⟩ e.name e.mustBeUsed e.value none, okStatus⟩ w' :=
      hadd
    rcases step_spec h.consistent hs with ⟨hst, -⟩ | ⟨-, info, -, hreg⟩
    · cases hst
    · exact .inl ⟨hcalls, rfl, h.registers hs hreg (offers_of_addValue hadd)⟩
  · exact .inr ⟨hcalls, (hfailure fun hall => hcalls hall.2).1⟩

theorem Inventory.mem_descriptors (h : Inventory entries w) {name : Name}
    (hmem : name ∈ entries.map Entry.name) : name ∈ w.segmentNameToFileDescriptorMap := by
  rw [← h.mem_iff, ← AList.lookup_isSome] at hmem
  rw [← AList.lookup_isSome, h.consistent.descriptors, Option.isSome_map]
  exact hmem

theorem setMemory_self {address : Nat} {segment : Segment Bytes} :
    (w.setMemory address segment).memory address = some segment := Function.update_self ..

theorem setMemory_of_ne {address address' : Nat} {segment : Segment Bytes}
    (h : address' ≠ address) :
    (w.setMemory address segment).memory address' = w.memory address' := Function.update_of_ne h ..

/-- A new value for the last segment. -/
theorem Inventory.setValue {info : MemorySegmentInfo} {segment : Segment Bytes} {value : Bytes}
    (h : Inventory (entries ++ [e]) w) (hlawful : Lawful (entries ++ [e]))
    (hinfo : w.memorySegments.lookup e.name = some info)
    (hsegment : w.memory info.data = some segment) :
    Inventory (entries ++ [{ e with value }])
      (w.setMemory info.data { segment with value := some value }) := by
  have hnodup := hlawful.nodup
  rw [List.map_append, List.nodup_append'] at hnodup
  refine ⟨⟨h.consistent.descriptors, h.consistent.bounded, h.consistent.verified, ?_⟩,
    h.descriptors, h.addresses, ?_, ?_, ?_⟩
  · intro name info' hinfo'
    refine ⟨(h.consistent.backed name info' hinfo').1, ?_⟩
    by_cases heq : info'.data = info.data
    · rw [heq, setMemory_self]
      exact Option.some_ne_none _
    · rw [setMemory_of_ne heq]
      exact (h.consistent.backed name info' hinfo').2
  · rw [List.length_append, List.length_singleton]
    exact h.length.trans (List.length_append ..)
  · intro name
    rw [List.map_append]
    exact (h.mem_iff name).trans (by rw [List.map_append]; rfl)
  · intro e' he'
    rcases List.mem_append.mp he' with he' | he'
    · -- another segment is in another place
      obtain ⟨info', hused, hoffers⟩ := h.offers e' (List.mem_append_left _ he')
      refine ⟨info', hused, hoffers.registered, ?_⟩
      have hne : info'.data ≠ info.data := by
        intro heq
        have hname := h.addresses _ _ _ _ hoffers.registered hinfo heq
        exact hnodup.2.2 (hname ▸ List.mem_map_of_mem he') (List.mem_singleton_self _)
      rw [setMemory_of_ne hne]
      exact hoffers.memory
    · obtain rfl := List.mem_singleton.mp he'
      obtain ⟨info', hused, hoffers⟩ :=
        h.offers e (List.mem_append_right _ (List.mem_singleton_self e))
      cases hinfo.symm.trans hoffers.registered
      cases hsegment.symm.trans hoffers.memory
      exact ⟨info, hused, hinfo, setMemory_self⟩

end Inventory

end Intrinsic.RuntimeConnection
