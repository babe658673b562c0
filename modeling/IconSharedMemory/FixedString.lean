import Mathlib.Data.List.GetD
import IconSharedMemory.CharArrays
import IconSharedMemory.DomainSocket
import IconSharedMemory.HardwareModuleState

/-! # Strings in flatbuffer arrays

A flatbuffer struct has no strings, only arrays of a fixed size.  `icon/flatbuffers/fixed_string.h`
writes a string to such an array in two ways, and `hardware_module_state_utils.cc` does it in a
third one:

* `StringCopy` to an array clears it and never overwrites the last byte;
* `StringCopy` to a struct with a size overwrites as much as it needs and stores the size;
* `SetState` overwrites as much as it needs, except for the last byte, and clears the rest.

Each of them is modelled access by access, and one outside of the array has no result.  What is
read back depends on the string alone (`string_round_trip`).  The models of the domain socket
protocol and of the hardware module use what the accesses add up to (`stringCopy_refines`,
`stringView_refines`, `setState_refines`, `getMessage_refines`).
-/
namespace Intrinsic.FixedString
open CharArrays

/-! ## Terminated arrays -/

section Terminated
variable {size : Nat}

/-- `StringCopy` to an array, whose size is not zero.  `none` is a null pointer. -/
def stringCopy (destination : Option (CharArray UInt8 size)) (source : List UInt8) :
    Option (Option (CharArray UInt8 size) × RealtimeStatus) :=
  match destination with
  | none =>
    some (none, formatRealtimeStatus .invalidArgument (ascii "destination must not be nullptr"))
  | some array => do
    let array ← array.memset 0 0 size
    let copyCount := min (size - 1) source.length
    let array ← array.memcpy source copyCount
    some (some array, rtOkStatus)

/-- The loop of `StringView` from the index `i` on, with `k` rounds left: the first terminator, or
the size. -/
def stringSize (array : CharArray UInt8 size) : Nat → Nat → Option Nat
  | 0, _ => some size
  | k + 1, i =>
    match array.data[i]? with
    | none => none
    | some c => if c = 0 then some i else stringSize array k (i + 1)

/-- `StringView` of an array -/
def stringView (source : Option (CharArray UInt8 size)) :
    Option (Except RealtimeStatus (List UInt8)) :=
  match source with
  | none =>
    some (.error (formatRealtimeStatus .invalidArgument (ascii "source must not be nullptr")))
  | some array => do
    let stringSize ← stringSize array size 0
    let view ← array.view stringSize
    some (.ok view)

variable {array : CharArray UInt8 size} {source : List UInt8}

theorem stringCopy_spec (hsize : 1 ≤ size) :
    ∃ array', stringCopy (some array) source = some (some array', rtOkStatus) ∧
      array'.data = padded 0 size (source.take (size - 1)) := by
  have hcount : min (size - 1) source.length ≤ size := by omega
  obtain ⟨cleared, hset, hcleared⟩ := array.memset_of_le 0 (Nat.le_of_eq (Nat.zero_add size))
  obtain ⟨array', hcopy, harray'⟩ := cleared.memcpy_of_le hcount (Nat.min_le_right ..)
  refine ⟨array', ?_, ?_⟩
  · unfold stringCopy
    dsimp only
    rw [hset]
    dsimp only [Option.bind_eq_bind, Option.bind_some]
    rw [hcopy]
    rfl
  · have hzeros : cleared.data = List.replicate size 0 := by
      rw [hcleared, List.take_zero, List.nil_append,
        List.drop_of_length_le (by rw [array.sized, Nat.zero_add]), List.append_nil]
    rw [harray', hzeros, List.drop_replicate, padded_take]

theorem stringSize_eq {i k : Nat} (h : i + k = size) :
    stringSize array k i = some (i + ((array.data.drop i).takeWhile (· ≠ 0)).length) := by
  induction k generalizing i with
  | zero =>
    rw [stringSize, List.drop_of_length_le (by rw [array.sized]; omega)]
    exact congrArg some h.symm
  | succ k ih =>
    have hi : i < array.data.length := by
      rw [array.sized]
      omega
    rw [stringSize, List.getElem?_eq_getElem hi, List.drop_eq_getElem_cons hi]
    dsimp only
    by_cases hc : array.data[i] = 0
    · rw [if_pos hc, List.takeWhile_cons_of_neg (by simpa using hc)]
      rfl
    · rw [if_neg hc, List.takeWhile_cons_of_pos (by simpa using hc), ih (by omega),
        List.length_cons]
      congr 1
      omega

theorem stringView_eq :
    stringView (some array) = some (.ok (array.data.takeWhile (· ≠ 0))) := by
  unfold stringView
  dsimp only
  rw [stringSize_eq (Nat.zero_add size), Nat.zero_add, List.drop_zero]
  dsimp only [Option.bind_eq_bind, Option.bind_some]
  rw [array.view_of_takeWhile]
  rfl

/-- The accesses of `StringCopy` leave the array that the protocol sends. -/
theorem stringCopy_refines (hsize : 1 ≤ size) :
    ∃ array', stringCopy (some array) source = some (some array', rtOkStatus) ∧
      array'.data = List.ofFn (DomainSocket.stringCopy source : Fin size → UInt8) := by
  obtain ⟨array', hcopy, hdata⟩ := @stringCopy_spec size array source hsize
  refine ⟨array', hcopy, hdata.trans (List.ext_getElem ?_ fun i hi hi' => ?_)⟩
  · rw [← hdata, array'.sized, List.length_ofFn]
  · rw [List.getElem_ofFn, DomainSocket.stringCopy]
    simp only [padded_take, List.getElem_append, List.getElem_replicate, List.getElem_take,
      List.length_take]
    split
    · next hlt => rw [if_pos (by omega), List.getD_eq_getElem]
    · next hle => rw [if_neg (by omega)]

/-- Those of `StringView` read the string that the protocol receives. -/
theorem stringView_refines (data : Fin size → UInt8) :
    stringView (some ⟨List.ofFn data, List.length_ofFn⟩) =
      some (.ok (DomainSocket.stringView data)) := stringView_eq

end Terminated

/-! ## Arrays with a size -/

section Sized
variable {maxSize width : Nat}

/-- A struct with an array and an unsigned number of `width` bits, the size of what is in use. -/
structure SizedString (maxSize width : Nat) where
  data : CharArray UInt8 maxSize
  size : BitVec width

namespace SizedString

/-- `StringCopy` to a struct with a size.  `mutate_size` converts the size to the type of the
field. -/
def stringCopy (destination : Option (SizedString maxSize width)) (source : List UInt8) :
    Option (Option (SizedString maxSize width)) :=
  match destination with
  | none => some none
  | some obj => do
    let copyCount := min maxSize source.length
    let data ← obj.data.memcpy source copyCount
    some (some ⟨data, BitVec.ofNat width copyCount⟩)

/-- `StringView` of a struct with a size -/
def stringView (source : Option (SizedString maxSize width)) : Option (List UInt8) :=
  match source with
  | none => some []
  | some obj => obj.data.view obj.size.toNat

theorem stringCopy_spec (hfits : maxSize < 2 ^ width) (obj : SizedString maxSize width)
    (source : List UInt8) :
    ∃ obj', stringCopy (some obj) source = some (some obj') ∧
      stringView (some obj') = some (source.take (min maxSize source.length)) := by
  have hcount : min maxSize source.length ≤ maxSize := Nat.min_le_left ..
  obtain ⟨data, hcopy, hdata⟩ := obj.data.memcpy_of_le hcount (Nat.min_le_right ..)
  refine ⟨⟨data, BitVec.ofNat width (min maxSize source.length)⟩, ?_, ?_⟩
  · unfold stringCopy
    dsimp only [Option.bind_eq_bind]
    rw [hcopy]
    rfl
  · unfold stringView
    dsimp only
    rw [BitVec.toNat_ofNat, Nat.mod_eq_of_lt (Nat.lt_of_le_of_lt hcount hfits),
      data.view_of_le hcount, hdata, List.take_left' (by rw [List.length_take]; omega)]

end SizedString

end Sized

/-! ## The state of a hardware module -/

section State
open HardwareModuleState

/-- `SetState`, access by access.  The array is a part of the state and not a null pointer. -/
def setState (hardwareModuleState : Option HardwareModuleState) (code : StateCode)
    (message : List UInt8) : Option (Option HardwareModuleState) :=
  match hardwareModuleState with
  | none => some none
  | some state => do
    let array : CharArray UInt8 kMaxFaultReasonLength := ⟨state.message, state.sized⟩
    let copyLength := min (kMaxFaultReasonLength - 1) message.length
    let array ← array.memcpy message copyLength
    let array ← array.memset copyLength 0 (kMaxFaultReasonLength - copyLength)
    some (some ⟨code, array.data, array.sized⟩)

/-- `GetMessage`, where the conversion to a view looks for the terminator. -/
def getMessage (hardwareModuleState : Option HardwareModuleState) : Option (List UInt8) :=
  match hardwareModuleState with
  | none => some []
  | some state => do
    let array : CharArray UInt8 kMaxFaultReasonLength := ⟨state.message, state.sized⟩
    let length ← strlen 0 array.data
    array.view length

theorem fill_eq_padded (message : List UInt8) :
    fill message = padded 0 kMaxFaultReasonLength (message.take (kMaxFaultReasonLength - 1)) := rfl

/-- The accesses of `SetState` leave the state that is published. -/
theorem setState_refines (state : HardwareModuleState) (code : StateCode) (message : List UInt8) :
    setState (some state) code message =
      some (some (HardwareModuleState.setState code message)) := by
  let array : CharArray UInt8 kMaxFaultReasonLength := ⟨state.message, state.sized⟩
  let copyLength := min (kMaxFaultReasonLength - 1) message.length
  have hcopyLength : copyLength ≤ kMaxFaultReasonLength := by omega
  obtain ⟨copied, hcopy, hcopied⟩ := array.memcpy_of_le hcopyLength (Nat.min_le_right ..)
  have hrest : copyLength + (kMaxFaultReasonLength - copyLength) = kMaxFaultReasonLength := by omega
  obtain ⟨cleared, hset, hcleared⟩ := copied.memset_of_le 0 (Nat.le_of_eq hrest)
  have hmessage : cleared.data = fill message := by
    have hlength : (message.take copyLength).length = copyLength := by
      rw [List.length_take]
      omega
    rw [hcleared, hrest, List.drop_of_length_le (Nat.le_of_eq copied.sized), List.append_nil,
      hcopied, List.take_left' hlength, fill_eq_padded, padded_take]
  unfold setState
  dsimp only [Option.bind_eq_bind]
  rw [hcopy, Option.bind_some, hset, Option.bind_some]
  refine congrArg (fun state => some (some state)) ?_
  exact (HardwareModuleState.mk.injEq ..).mpr ⟨rfl, hmessage⟩

/-- Those of `GetMessage` read the message of a state, if there is a terminator. -/
theorem getMessage_refines {state : HardwareModuleState} (h : 0 ∈ state.message) :
    getMessage (some state) = some state.getMessage := by
  let array : CharArray UInt8 kMaxFaultReasonLength := ⟨state.message, state.sized⟩
  have hview := array.view_of_takeWhile (· ≠ 0)
  unfold getMessage
  dsimp only [Option.bind_eq_bind]
  rw [strlen_of_mem h, Option.bind_some]
  exact hview

theorem nul_mem_setState (code : StateCode) (message : List UInt8) :
    0 ∈ (HardwareModuleState.setState code message).message := by
  have hpos : 0 < kMaxFaultReasonLength := by decide
  refine nul_mem_padded ?_
  rw [List.length_take]
  omega

end State

/-! ## What is read back -/

theorem array_round_trip {size : Nat} (hsize : 1 ≤ size) (source : List UInt8) :
    ∃ view, IsLongest 0 (size - 1) source view ∧
      ∀ array : CharArray UInt8 size, ∃ array',
        stringCopy (some array) source = some (some array', rtOkStatus) ∧
          stringView (some array') = some (.ok view) := by
  refine ⟨_, isLongest_takeWhile, fun array => ?_⟩
  obtain ⟨array', hcopy, hdata⟩ := @stringCopy_spec size array source hsize
  exact ⟨array', hcopy, by rw [stringView_eq, hdata, takeWhile_padded]⟩

theorem state_round_trip (code : StateCode) (message : List UInt8) :
    ∃ view, IsLongest 0 (kMaxFaultReasonLength - 1) message view ∧
      ∀ state : HardwareModuleState, ∃ state',
        setState (some state) code message = some (some state') ∧ state'.code = code ∧
          getMessage (some state') = some view := by
  refine ⟨_, isLongest_takeWhile, fun state => ⟨_, setState_refines state code message, rfl, ?_⟩⟩
  rw [getMessage_refines (nul_mem_setState code message), HardwareModuleState.getMessage]
  exact congrArg some takeWhile_padded

/-- **Strings in arrays round-trip up to truncation.**  No access is outside of the array or of the
string, so that there is always a result.  From an array and from a state the longest beginning is
read that has no terminator and leaves room for one.  From a struct whose size can be stored the
whole string is read, up to the size of the array.  What was there before is not seen: in the first
and the last case what is read is the same for every previous content, and in the second one it is
given by the string. -/
theorem string_round_trip :
    (∀ size, 1 ≤ size → ∀ source, ∃ view, IsLongest 0 (size - 1) source view ∧
      ∀ array : CharArray UInt8 size, ∃ array',
        stringCopy (some array) source = some (some array', rtOkStatus) ∧
          stringView (some array') = some (.ok view)) ∧
    (∀ maxSize width, maxSize < 2 ^ width → ∀ (obj : SizedString maxSize width) source, ∃ obj',
      SizedString.stringCopy (some obj) source = some (some obj') ∧
        SizedString.stringView (some obj') = some (source.take (min maxSize source.length))) ∧
    ∀ code message, ∃ view, IsLongest 0 255 message view ∧
      ∀ state : HardwareModuleState, ∃ state',
        setState (some state) code message = some (some state') ∧ state'.code = code ∧
          getMessage (some state') = some view :=
  ⟨fun _ hsize source => array_round_trip hsize source,
    fun _ _ hfits obj source => SizedString.stringCopy_spec hfits obj source, state_round_trip⟩

/-- An array of three bytes takes two characters of a string, and a struct takes three. -/
theorem string_round_trip_three :
    1 ≤ 3 ∧ 3 < 2 ^ 8 ∧
      (∃ view, IsLongest 0 2 [97, 98, 99, 100] view ∧
        ∀ array : CharArray UInt8 3, ∃ array',
          stringCopy (some array) [97, 98, 99, 100] = some (some array', rtOkStatus) ∧
            stringView (some array') = some (.ok view)) ∧
      ∀ obj : SizedString 3 8, ∃ obj',
        SizedString.stringCopy (some obj) [97, 98, 99, 100] = some (some obj') ∧
          SizedString.stringView (some obj') = some [97, 98, 99] :=
  ⟨by decide, by decide, string_round_trip.1 3 (by decide) _,
    fun obj => string_round_trip.2.1 3 8 (by decide) obj _⟩

end Intrinsic.FixedString
