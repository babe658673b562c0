import Mathlib.Algebra.Ring.Int.Defs
import Mathlib.Algebra.Ring.Nat
import IconSharedMemory.CheckedCopy
import IconSharedMemory.Futex

/-! # Joint limits and joint commands in flatbuffers

`icon/hal/interfaces/joint_limits_utils.cc` copies joint limits to a flatbuffer in shared memory
and back, and `joint_command_utils.cc` copies a command from one flatbuffer to another.  The six
vectors of a `JointLimits` flatbuffer are separate fields: each of them may be absent and has a
size of its own, and four of them have a flag that says whether they are used.  What is in the
vectors does not matter here.

Reading takes the number of joints from one of the vectors and then reads all of them up to there.
An access to an absent vector or behind the end of one has no result (`copyFrom_in_bounds_iff`).
Writing checks and writes one vector after the other (`copy_all_or_nothing_iff`).
-/
namespace Intrinsic.JointLimitsUtils
open CheckedCopy

/-! ## Limits -/

/-- The fields of joint limits, in the order of both structures.  `maxEffort` is `max_effort` of
the flatbuffer and `max_torque` of the limits. -/
inductive LimitField
  | minPosition | maxPosition | maxVelocity | maxAcceleration | maxJerk | maxEffort
  deriving DecidableEq, Repr

namespace LimitField

def all : List LimitField :=
  [minPosition, maxPosition, maxVelocity, maxAcceleration, maxJerk, maxEffort]

/-- The name in the message of an error. -/
def name : LimitField → List UInt8
  | minPosition => ascii "min_position"
  | maxPosition => ascii "max_position"
  | maxVelocity => ascii "max_velocity"
  | maxAcceleration => ascii "max_acceleration"
  | maxJerk => ascii "max_jerk"
  | maxEffort => ascii "max_effort"

theorem mem_all (f : LimitField) : f ∈ all := by cases f <;> decide

theorem nodup_all : all.Nodup := by decide

end LimitField

/-- `JointLimits::kMaxSize` -/
def kMaxSize : Nat := 25

/-- `JointLimits`.  A vector cannot be larger than its storage. -/
@[ext] structure JointLimits (V : Type) where
  vector : LimitField → List V
  bounded : ∀ f, (vector f).length ≤ kMaxSize

namespace JointLimits
variable {V : Type}

def size (limits : JointLimits V) : Nat := (limits.vector .minPosition).length

def isSizeConsistent (limits : JointLimits V) : Bool :=
  LimitField.all.all fun f => (limits.vector f).length = limits.size

/-- `SetSize`: the limits are set to zero, unless there are too many. -/
def setSize [Zero V] (limits : JointLimits V) (size : Nat) : JointLimits V × RealtimeStatus :=
  if h : kMaxSize < size then
    (limits, formatRealtimeStatus .invalidArgument
      (ascii "size=" ++ ascii (toString size) ++ ascii " exceeds max size=" ++
        ascii (toString kMaxSize)))
  else
    (⟨fun _ => List.replicate size 0, fun _ => by
      rw [List.length_replicate]
      exact Nat.le_of_not_lt h⟩, rtOkStatus)

/-- `limits.f[i] = x` -/
def assign (limits : JointLimits V) (f : LimitField) (i : Nat) (x : V) : JointLimits V where
  vector := Function.update limits.vector f ((limits.vector f).set i x)
  bounded g := by
    by_cases hg : g = f
    · subst hg
      rw [Function.update_self, List.length_set]
      exact limits.bounded g
    · rw [Function.update_of_ne hg]
      exact limits.bounded g

end JointLimits

/-- `flatbuffers::Vector`, whose size is a `uint32_t`. -/
@[ext] structure FbVector (V : Type) where
  data : List V
  sized : data.length < 2 ^ 32

namespace FbVector
variable {V : Type}

def size (v : FbVector V) : Nat := v.data.length

/-- `Mutate(i, x)` -/
def mutate (v : FbVector V) (i : Nat) (x : V) : FbVector V :=
  ⟨v.data.set i x, by
    rw [List.length_set]
    exact v.sized⟩

end FbVector

/-- The `JointLimits` flatbuffer.  A vector may be absent, and a flag is only stored if the
flatbuffer was built to have it. -/
@[ext] structure FbJointLimits (V : Type) where
  vector : LimitField → Option (FbVector V)
  velocityFlag : Option Bool
  accelerationFlag : Option Bool
  jerkFlag : Option Bool
  effortFlag : Option Bool

namespace FbJointLimits
variable {V : Type}

/-- The flag of an optional field.  What is not stored is `false`. -/
def flag (fb : FbJointLimits V) : LimitField → Option Bool
  | .minPosition | .maxPosition => some true
  | .maxVelocity => fb.velocityFlag
  | .maxAcceleration => fb.accelerationFlag
  | .maxJerk => fb.jerkFlag
  | .maxEffort => fb.effortFlag

/-- Whether the field is read: `has_velocity_limits()` and so on. -/
def has (fb : FbJointLimits V) (f : LimitField) : Bool := (fb.flag f).getD false

/-- `mutate_has_velocity_limits(true)` and so on.  A flag that is not stored cannot be changed. -/
def mutateFlags (fb : FbJointLimits V) : FbJointLimits V :=
  { fb with
    velocityFlag := fb.velocityFlag.map fun _ => true
    accelerationFlag := fb.accelerationFlag.map fun _ => true
    jerkFlag := fb.jerkFlag.map fun _ => true
    effortFlag := fb.effortFlag.map fun _ => true }

end FbJointLimits

/-! ## Reading -/

section Read
variable {V : Type}

/-- The body of the loop for one index: `limits.f[i] = fb_limits.f()->Get(i)` for the fields that
are used. -/
def readFields (fb : FbJointLimits V) (i : Nat) :
    List LimitField → JointLimits V → Option (JointLimits V)
  | [], limits => some limits
  | f :: fs, limits =>
    if fb.has f then
      match (fb.vector f).bind (·.data[i]?) with
      | none => none
      | some x => readFields fb i fs (limits.assign f i x)
    else readFields fb i fs limits

/-- The loop, up to `n`. -/
def readJoints (fb : FbJointLimits V) : Nat → JointLimits V → Option (JointLimits V)
  | 0, limits => some limits
  | n + 1, limits => (readJoints fb n limits).bind (readFields fb n LimitField.all)

variable [Zero V]

/-- `CopyTo(fb_limits, limits)` -/
def copyFrom (fb : FbJointLimits V) (limits : JointLimits V) :
    Option (JointLimits V × RealtimeStatus) :=
  match fb.vector .minPosition with
  | none => none
  | some minPosition =>
    let numJoints := minPosition.size
    let (limits, status) := limits.setSize numJoints
    if status.isOk = false then some (limits, status)
    else (readJoints fb numJoints limits).map fun limits => (limits, rtOkStatus)

end Read

/-! ## Writing -/

section Write
variable {V : Type}

/-- The conversion of a size to `int`. -/
def toInt (size : Nat) : Int := (size : Int).bmod (2 ^ 32)

/-- The error of a field with another number of values than the flatbuffer. -/
def sizeError (fbNumJoints numJoints : Int) (fieldName : List UInt8) : RealtimeStatus :=
  formatRealtimeStatus .invalidArgument
    (ascii "JointLimits Flatbuffer expects " ++ ascii (toString fbNumJoints) ++
      ascii " joints but the field '" ++ fieldName ++ ascii "' contains " ++
      ascii (toString numJoints) ++ ascii " values")

def checkSizeEqual (field : List V) (fbField : FbVector V) (fieldName : List UInt8) :
    RealtimeStatus :=
  let fbNumJoints := toInt fbField.size
  let numJoints := toInt field.length
  if fbNumJoints ≠ numJoints then sizeError fbNumJoints numJoints fieldName else rtOkStatus

/-- The loop of `ToFlatbufferWithSizeCheck`, up to `n`. -/
def mutateLoop (field : List V) (fbField : FbVector V) : Nat → Option (FbVector V)
  | 0 => some fbField
  | n + 1 =>
    match mutateLoop field fbField n, field[n]? with
    | some fbField, some x => some (fbField.mutate n x)
    | _, _ => none

def toFlatbufferWithSizeCheck (field : List V) (fbField : FbVector V) (fieldName : List UInt8) :
    Option (FbVector V × RealtimeStatus) :=
  let status := checkSizeEqual field fbField fieldName
  if status.isOk = false then some (fbField, status)
  else (mutateLoop field fbField fbField.size).map fun fbField => (fbField, rtOkStatus)

/-- The fields are written one after the other, until one of them has another size. -/
def writeFields (limits : JointLimits V) :
    List LimitField → FbJointLimits V → Option (FbJointLimits V × RealtimeStatus)
  | [], fb => some (fb, rtOkStatus)
  | f :: fs, fb =>
    (fb.vector f).bind fun fbField =>
      (toFlatbufferWithSizeCheck (limits.vector f) fbField f.name).bind fun (fbField, status) =>
        let fb := { fb with vector := Function.update fb.vector f (some fbField) }
        if status.isOk = false then some (fb, status) else writeFields limits fs fb

/-- `CopyTo(limits, fb_limits)` -/
def copyTo (limits : JointLimits V) (fb : FbJointLimits V) :
    Option (FbJointLimits V × RealtimeStatus) :=
  match writeFields limits LimitField.all fb with
  | none => none
  | some (fb, status) =>
    if status.isOk = false then some (fb, status) else some (fb.mutateFlags, rtOkStatus)

/-! ### Commands -/

/-- The fields of a `JointPositionCommand`, in the order of the flatbuffer. -/
inductive CommandField
  | position | velocityFeedforward | accelerationFeedforward
  deriving DecidableEq, Repr

def CommandField.all : List CommandField := [position, velocityFeedforward, accelerationFeedforward]

/-- The `JointPositionCommand` flatbuffer. -/
abbrev JointPositionCommand (V : Type) := CommandField → Option (FbVector V)

/-- The error of a vector with another size. -/
def rangeError (sourceSize destSize : Nat) : RealtimeStatus :=
  formatRealtimeStatus .outOfRange
    (ascii "Vector sizes are not equal: " ++ ascii (toString sourceSize) ++ ascii " != " ++
      ascii (toString destSize))

/-- `CopyFbsVector` -/
def copyFbsVector (source dest : FbVector V) : FbVector V × RealtimeStatus :=
  if source.size ≠ dest.size then (dest, rangeError source.size dest.size)
  else (source, rtOkStatus)

def copyVectors (source : JointPositionCommand V) :
    List CommandField → JointPositionCommand V → Option (JointPositionCommand V × RealtimeStatus)
  | [], dest => some (dest, rtOkStatus)
  | f :: fs, dest =>
    match source f, dest f with
    | some sourceVector, some destVector =>
      let (destVector, status) := copyFbsVector sourceVector destVector
      let dest := Function.update dest f (some destVector)
      if status.isOk = false then some (dest, status) else copyVectors source fs dest
    | _, _ => none

/-- `CopyTo(src, dest)` of a `JointPositionCommand` -/
def JointPositionCommand.copyTo (source dest : JointPositionCommand V) :
    Option (JointPositionCommand V × RealtimeStatus) :=
  copyVectors source CommandField.all dest

end Write

/-! ## What is read -/

section ReadSpec
variable {V : Type} {fb : FbJointLimits V} {limits limits' : JointLimits V} {f : LimitField}
  {fs : List LimitField} {i n : Nat}

/-- The elements of a vector.  One that is absent has none. -/
def FbJointLimits.read (fb : FbJointLimits V) (f : LimitField) : List V :=
  ((fb.vector f).map (·.data)).getD []

theorem getElem?_read (fb : FbJointLimits V) (f : LimitField) (i : Nat) :
    (fb.vector f).bind (·.data[i]?) = (fb.read f)[i]? := by
  unfold FbJointLimits.read
  cases fb.vector f with
  | none => rfl
  | some v => rfl

/-- A list that is overwritten from the beginning, one element further. -/
theorem set_take_append_drop {xs ys : List V} {x : V} (hx : xs[n]? = some x)
    (hn : n < ys.length) :
    (xs.take n ++ ys.drop n).set n x = xs.take (n + 1) ++ ys.drop (n + 1) := by
  have hlength : (xs.take n).length = n := by
    obtain ⟨hlt, -⟩ := List.getElem?_eq_some_iff.mp hx
    rw [List.length_take]
    omega
  rw [List.set_append_right _ _ (Nat.le_of_eq hlength), hlength, Nat.sub_self,
    List.drop_eq_getElem_cons hn, List.set_cons_zero, List.take_add_one, hx, List.append_assoc]
  rfl

theorem assign_vector (limits : JointLimits V) (f g : LimitField) (i : Nat) (x : V) :
    (limits.assign f i x).vector g =
      if g = f then (limits.vector g).set i x else limits.vector g := by
  unfold JointLimits.assign
  dsimp only
  rw [Function.update_apply]
  split
  · next heq => rw [heq]
  · rfl

theorem readFields_cons_of_has (hf : fb.has f = true) :
    readFields fb i (f :: fs) limits =
      (fb.read f)[i]?.bind fun x => readFields fb i fs (limits.assign f i x) := by
  rw [readFields, if_pos hf, getElem?_read]
  cases (fb.read f)[i]? with
  | none => rfl
  | some x => rfl

theorem readFields_cons_of_not_has (hf : ¬ fb.has f = true) :
    readFields fb i (f :: fs) limits = readFields fb i fs limits := by
  rw [readFields, if_neg hf]

/-- One index of the loop reads every vector that is used. -/
theorem readFields_isSome_iff :
    (∃ limits', readFields fb i fs limits = some limits') ↔
      ∀ f ∈ fs, fb.has f = true → i < (fb.read f).length := by
  induction fs generalizing limits with
  | nil => exact iff_of_true ⟨limits, rfl⟩ nofun
  | cons g fs ih =>
    rw [List.forall_mem_cons]
    by_cases hg : fb.has g = true
    · rw [readFields_cons_of_has hg, imp_iff_right hg]
      by_cases hi : i < (fb.read g).length
      · rw [List.getElem?_eq_getElem hi, Option.bind_some, ih, and_iff_right hi]
      · rw [List.getElem?_eq_none (Nat.le_of_not_lt hi), Option.bind_none]
        exact iff_of_false nofun fun h => hi h.1
    · rw [readFields_cons_of_not_has hg, ih]
      exact ⟨fun h => ⟨fun hhas => absurd hhas hg, h⟩, And.right⟩

/-- It leaves an element of each in the limits. -/
theorem readFields_spec (hnodup : fs.Nodup) (h : readFields fb i fs limits = some limits') :
    (∀ f ∈ fs, fb.has f = true → ∃ x, (fb.read f)[i]? = some x ∧
      limits'.vector f = (limits.vector f).set i x) ∧
    ∀ f, ¬ (f ∈ fs ∧ fb.has f = true) → limits'.vector f = limits.vector f := by
  induction fs generalizing limits with
  | nil =>
    cases h
    exact ⟨nofun, fun _ _ => rfl⟩
  | cons g fs ih =>
    obtain ⟨hg, hfs⟩ := List.nodup_cons.mp hnodup
    by_cases hhas : fb.has g = true
    · rw [readFields_cons_of_has hhas] at h
      obtain ⟨x, hx, hrest⟩ := Option.bind_eq_some_iff.mp h
      obtain ⟨hread, hother⟩ := ih hfs hrest
      constructor
      · intro f hf hhasf
        rcases List.mem_cons.mp hf with rfl | hf
        · refine ⟨x, hx, ?_⟩
          rw [hother f fun h => hg h.1, assign_vector, if_pos rfl]
        · obtain ⟨y, hy, hset⟩ := hread f hf hhasf
          have hne : f ≠ g := fun heq => hg (heq ▸ hf)
          exact ⟨y, hy, by rw [hset, assign_vector, if_neg hne]⟩
      · intro f hf
        have hne : f ≠ g := fun heq => hf ⟨heq ▸ List.mem_cons_self, heq ▸ hhas⟩
        rw [hother f fun h => hf ⟨List.mem_cons_of_mem _ h.1, h.2⟩, assign_vector, if_neg hne]
    · rw [readFields_cons_of_not_has hhas] at h
      obtain ⟨hread, hother⟩ := ih hfs h
      constructor
      · intro f hf hhasf
        rcases List.mem_cons.mp hf with rfl | hf
        · exact absurd hhasf hhas
        · exact hread f hf hhasf
      · exact fun f hf => hother f fun h => hf ⟨List.mem_cons_of_mem _ h.1, h.2⟩

/-- **The loop reads every vector that is used up to its end.** -/
theorem readJoints_isSome_iff :
    (∃ limits', readJoints fb n limits = some limits') ↔
      ∀ f, fb.has f = true → n ≤ (fb.read f).length := by
  induction n with
  | zero => exact iff_of_true ⟨limits, rfl⟩ fun _ _ => Nat.zero_le _
  | succ n ih =>
    rw [readJoints]
    constructor
    · rintro ⟨limits', h⟩ f hf
      obtain ⟨limits₁, -, hread⟩ := Option.bind_eq_some_iff.mp h
      exact readFields_isSome_iff.mp ⟨limits', hread⟩ f f.mem_all hf
    · intro h
      obtain ⟨limits₁, hbefore⟩ := ih.mpr fun f hf => Nat.le_of_succ_le (h f hf)
      rw [hbefore, Option.bind_some]
      exact readFields_isSome_iff.mpr fun f _ hf => h f hf

theorem readJoints_spec (hn : ∀ f, n ≤ (limits.vector f).length)
    (h : readJoints fb n limits = some limits') (f : LimitField) :
    limits'.vector f =
      if fb.has f then (fb.read f).take n ++ (limits.vector f).drop n else limits.vector f := by
  induction n generalizing limits' with
  | zero =>
    cases h
    split <;> rfl
  | succ n ih =>
    rw [readJoints] at h
    obtain ⟨limits₁, hbefore, hread⟩ := Option.bind_eq_some_iff.mp h
    have hvector := ih (fun f => Nat.le_of_succ_le (hn f)) hbefore
    obtain ⟨hset, hother⟩ := readFields_spec LimitField.nodup_all hread
    by_cases hf : fb.has f = true
    · obtain ⟨x, hx, hfinal⟩ := hset f f.mem_all hf
      rw [hfinal, hvector, if_pos hf, if_pos hf, set_take_append_drop hx (hn f)]
    · rw [hother f fun hall => hf hall.2, hvector, if_neg hf, if_neg hf]

theorem isSizeConsistent_iff :
    limits.isSizeConsistent = true ↔ ∀ f, (limits.vector f).length = limits.size := by
  unfold JointLimits.isSizeConsistent
  rw [List.all_eq_true]
  exact ⟨fun h f => of_decide_eq_true (h f f.mem_all), fun h f _ => decide_eq_true (h f)⟩

variable [Zero V] {minPosition : FbVector V} {status : RealtimeStatus}

theorem setSize_of_le (limits : JointLimits V) (hn : n ≤ kMaxSize) :
    ∃ zeros, limits.setSize n = (zeros, rtOkStatus) ∧
      ∀ f, zeros.vector f = List.replicate n 0 := by
  unfold JointLimits.setSize
  rw [dif_neg (Nat.not_lt.mpr hn)]
  exact ⟨_, rfl, fun _ => rfl⟩

/-- More joints than the limits have room for are refused before anything is read. -/
theorem copyFrom_of_lt (limits : JointLimits V)
    (hmin : fb.vector .minPosition = some minPosition)
    (hsize : kMaxSize < minPosition.size) :
    ∃ status, copyFrom fb limits = some (limits, status) ∧ status.isOk = false := by
  unfold copyFrom JointLimits.setSize
  rw [hmin]
  dsimp only
  rw [dif_pos hsize]
  exact ⟨_, if_pos rfl, rfl⟩

theorem copyFrom_of_le (limits : JointLimits V)
    (hmin : fb.vector .minPosition = some minPosition)
    (hsize : minPosition.size ≤ kMaxSize) :
    ∃ zeros, (∀ f, zeros.vector f = List.replicate minPosition.size 0) ∧
      copyFrom fb limits =
        (readJoints fb minPosition.size zeros).map fun limits => (limits, rtOkStatus) := by
  obtain ⟨zeros, hset, hzeros⟩ := setSize_of_le limits hsize
  refine ⟨zeros, hzeros, ?_⟩
  unfold copyFrom
  rw [hmin]
  dsimp only
  rw [hset]
  exact if_neg Bool.true_eq_false.mp

theorem copyFrom_isSome_iff (limits : JointLimits V)
    (hmin : fb.vector .minPosition = some minPosition)
    (hsize : minPosition.size ≤ kMaxSize) :
    (∃ result, copyFrom fb limits = some result) ↔
      ∀ f, fb.has f = true → minPosition.size ≤ (fb.read f).length := by
  obtain ⟨zeros, -, hcopy⟩ := copyFrom_of_le limits hmin hsize
  rw [hcopy, ← readJoints_isSome_iff]
  constructor
  · rintro ⟨result, h⟩
    obtain ⟨limits', hread, -⟩ := Option.map_eq_some_iff.mp h
    exact ⟨limits', hread⟩
  · rintro ⟨limits', hread⟩
    exact ⟨_, Option.map_eq_some_iff.mpr ⟨limits', hread, rfl⟩⟩

/-- What is not used is zero, whatever was in the limits before. -/
theorem copyFrom_spec (hmin : fb.vector .minPosition = some minPosition)
    (hsize : minPosition.size ≤ kMaxSize) (h : copyFrom fb limits = some (limits', status)) :
    status = rtOkStatus ∧ ∀ f, limits'.vector f =
      if fb.has f then (fb.read f).take minPosition.size
      else List.replicate minPosition.size 0 := by
  obtain ⟨zeros, hzeros, hcopy⟩ := copyFrom_of_le limits hmin hsize
  rw [hcopy] at h
  obtain ⟨limits₁, hread, heq⟩ := Option.map_eq_some_iff.mp h
  cases heq
  refine ⟨rfl, fun f => ?_⟩
  have hlength : ∀ f, (zeros.vector f).length = minPosition.size := fun f => by
    rw [hzeros f, List.length_replicate]
  rw [readJoints_spec (fun f => Nat.le_of_eq (hlength f).symm) hread f,
    List.drop_of_length_le (Nat.le_of_eq (hlength f)), List.append_nil, hzeros f]

/-- `CopyTo` reads no absent vector and no vector behind its end, and limits that are read all
have the same size. -/
def ReadsInBounds (fb : FbJointLimits V) (limits : JointLimits V) : Prop :=
  ∃ limits' status, copyFrom fb limits = some (limits', status) ∧
    (status.isOk = true → limits'.isSizeConsistent = true)

/-- **Reading is in bounds** if and only if there are minimal positions and, unless they are too
many, every other vector that is used has at least as many elements.  Nothing in the flatbuffer
says so, and `CopyTo` does not check it. -/
theorem copyFrom_in_bounds_iff (fb : FbJointLimits V) (limits : JointLimits V) :
    ReadsInBounds fb limits ↔
      ∃ minPosition, fb.vector .minPosition = some minPosition ∧
        (minPosition.size ≤ kMaxSize →
          ∀ f, fb.has f = true → minPosition.size ≤ (fb.read f).length) := by
  unfold ReadsInBounds
  cases hmin : fb.vector .minPosition with
  | none =>
    refine iff_of_false ?_ nofun
    rintro ⟨limits', status, h, -⟩
    rw [copyFrom, hmin] at h
    cases h
  | some minPosition =>
    by_cases hsize : minPosition.size ≤ kMaxSize
    · simp only [Option.some.injEq, exists_eq_left']
      rw [imp_iff_right hsize, ← copyFrom_isSome_iff limits hmin hsize]
      constructor
      · rintro ⟨limits', status, h, -⟩
        exact ⟨_, h⟩
      · rintro ⟨⟨limits', status⟩, h⟩
        refine ⟨limits', status, h, fun _ => isSizeConsistent_iff.mpr ?_⟩
        obtain ⟨-, hvector⟩ := copyFrom_spec hmin hsize h
        have hlong := (copyFrom_isSome_iff limits hmin hsize).mp ⟨_, h⟩
        have hlength : ∀ f, (limits'.vector f).length = minPosition.size := by
          intro f
          rw [hvector f]
          split
          · next hf => rw [List.length_take, Nat.min_eq_left (hlong f hf)]
          · rw [List.length_replicate]
        exact fun f => (hlength f).trans (hlength .minPosition).symm
    · obtain ⟨status, h, hstatus⟩ := copyFrom_of_lt limits hmin (Nat.lt_of_not_le hsize)
      refine iff_of_true ⟨limits, status, h, fun hok => ?_⟩
        ⟨minPosition, rfl, fun hle => absurd hle hsize⟩
      rw [hstatus] at hok
      cases hok

/-- A flatbuffer with one minimal position, whose other limits are not used. -/
def oneJoint (maxPosition : Option (FbVector Int)) : FbJointLimits Int where
  vector
    | .minPosition => some ⟨[-3], by decide⟩
    | .maxPosition => maxPosition
    | _ => none
  velocityFlag := some false
  accelerationFlag := some false
  jerkFlag := some false
  effortFlag := some false

def noLimits : JointLimits Int := ⟨fun _ => [], fun _ => Nat.zero_le _⟩

/-- A vector of maximal positions that is absent is dereferenced, and one without elements is read
behind its end. -/
theorem copyFrom_out_of_bounds :
    ¬ ReadsInBounds (oneJoint none) noLimits ∧
      ¬ ReadsInBounds (oneJoint (some ⟨[], by decide⟩)) noLimits := by
  have habsent : copyFrom (oneJoint none) noLimits = none := rfl
  have hempty : copyFrom (oneJoint (some ⟨[], by decide⟩)) noLimits = none := rfl
  constructor
  · rintro ⟨limits', status, h, -⟩
    rw [habsent] at h
    cases h
  · rintro ⟨limits', status, h, -⟩
    rw [hempty] at h
    cases h

end ReadSpec

/-! ## What is written -/

section WriteSpec
variable {V : Type} {limits : JointLimits V} {fb fb' : FbJointLimits V} {field : List V}
  {fbField : FbVector V} {f : LimitField} {n : Nat}

theorem toInt_inj {m : Nat} (hm : m < 2 ^ 32) (hn : n < 2 ^ 32) : toInt m = toInt n ↔ m = n := by
  refine ⟨fun h => ?_, congrArg toInt⟩
  unfold toInt at h
  rw [Int.bmod_def, Int.bmod_def] at h
  omega

theorem mutateLoop_spec (hfield : n ≤ field.length) (hsize : n ≤ fbField.size) :
    ∃ v, mutateLoop field fbField n = some v ∧
      v.data = field.take n ++ fbField.data.drop n := by
  induction n with
  | zero => exact ⟨fbField, rfl, rfl⟩
  | succ n ih =>
    obtain ⟨v, hloop, hv⟩ := ih (Nat.le_of_succ_le hfield) (Nat.le_of_succ_le hsize)
    have hx := List.getElem?_eq_getElem (Nat.lt_of_succ_le hfield)
    refine ⟨v.mutate n field[n], ?_, ?_⟩
    · rw [mutateLoop, hloop, hx]
    · rw [← set_take_append_drop hx hsize, ← hv]
      rfl

/-- The error of a field whose sizes differ. -/
abbrev Failure := { status : RealtimeStatus // status.isOk = false }

/-- The status after copying. -/
def report : Option Failure → RealtimeStatus
  | none => rtOkStatus
  | some failure => failure.val

theorem report_isOk_iff (r : Option Failure) : (report r).isOk = false ↔ r ≠ none := by
  cases r with
  | none => exact iff_of_false nofun fun h => h rfl
  | some failure => exact iff_of_true failure.property nofun

/-- A vector of the limits as one of the flatbuffer. -/
def JointLimits.toVector (limits : JointLimits V) (f : LimitField) : FbVector V :=
  ⟨limits.vector f, Nat.lt_of_le_of_lt (limits.bounded f) (by decide)⟩

/-- The vectors of the limits as the fields of a flatbuffer, where none of them is absent. -/
def JointLimits.vectors (limits : JointLimits V) (f : LimitField) : Option (FbVector V) :=
  some (limits.toVector f)

theorem JointLimits.data_toVector (limits : JointLimits V) (f : LimitField) :
    (limits.toVector f).data = limits.vector f := rfl

def sizeFailure (f : LimitField) (source dest : FbVector V) : Failure :=
  ⟨sizeError (toInt dest.size) (toInt source.size) f.name, rfl⟩

theorem checkSizeEqual_eq (v : FbVector V) (f : LimitField) :
    checkSizeEqual v.data fbField f.name =
      if v.size = fbField.size then rtOkStatus else (sizeFailure f v fbField).val := by
  have hint : toInt fbField.size = toInt v.size ↔ fbField.size = v.size :=
    toInt_inj fbField.sized v.sized
  unfold checkSizeEqual
  by_cases hsize : v.size = fbField.size
  · rw [if_pos hsize]
    exact if_neg (not_not_intro (hint.mpr hsize.symm))
  · rw [if_neg hsize]
    exact if_pos (mt hint.mp fun heq => hsize heq.symm)

theorem toFlatbufferWithSizeCheck_eq (v : FbVector V) (f : LimitField) :
    toFlatbufferWithSizeCheck v.data fbField f.name =
      some (if v.size = fbField.size then (v, rtOkStatus)
        else (fbField, (sizeFailure f v fbField).val)) := by
  unfold toFlatbufferWithSizeCheck
  rw [checkSizeEqual_eq]
  by_cases hsize : v.size = fbField.size
  · obtain ⟨w, hloop, hw⟩ := mutateLoop_spec (Nat.le_of_eq hsize.symm) (Nat.le_refl fbField.size)
    have hwv : w = v := by
      ext1
      rw [hw, List.take_of_length_le (Nat.le_of_eq hsize),
        List.drop_of_length_le (Nat.le_refl fbField.size), List.append_nil]
    rw [if_pos hsize, if_pos hsize, hloop, hwv]
    rfl
  · rw [if_neg hsize, if_neg hsize]
    rfl

/-- Writing the fields copies them one by one. -/
theorem writeFields_eq (fs : List LimitField) :
    writeFields limits fs fb =
      (copyFields FbVector.size sizeFailure limits.vectors fs fb.vector).map
        fun (vector, r) => ({ fb with vector }, report r) := by
  induction fs generalizing fb with
  | nil => rfl
  | cons f fs ih =>
    rw [writeFields]
    cases hf : fb.vector f with
    | none =>
      rw [copyFields_of_absent (.inr hf)]
      rfl
    | some fbField =>
      have hvector : limits.vectors f = some (limits.toVector f) := rfl
      rw [Option.bind_some, ← JointLimits.data_toVector, toFlatbufferWithSizeCheck_eq,
        Option.bind_some]
      by_cases hsize : (limits.toVector f).size = fbField.size
      · rw [copyFields_of_fits hvector hf hsize, if_pos hsize]
        exact ih
      · have hsame : Function.update fb.vector f (some fbField) = fb.vector := by
          rw [← hf, Function.update_eq_self]
        rw [copyFields_of_differs hvector hf hsize, if_neg hsize]
        dsimp only
        rw [hsame]
        rfl

/-- A source and a destination vector of a command with different sizes. -/
def rangeFailure (_ : CommandField) (source dest : FbVector V) : Failure :=
  ⟨rangeError source.size dest.size, rfl⟩

/-- So does copying the vectors of a command. -/
theorem copyVectors_eq {source dest : JointPositionCommand V} (fs : List CommandField) :
    copyVectors source fs dest =
      (copyFields FbVector.size rangeFailure source fs dest).map
        fun (dest, r) => (dest, report r) := by
  induction fs generalizing dest with
  | nil => rfl
  | cons f fs ih =>
    rw [copyVectors]
    split
    · next s d hs hd =>
      unfold copyFbsVector
      by_cases hsize : s.size = d.size
      · rw [copyFields_of_fits hs hd hsize, if_neg (not_not_intro hsize)]
        exact ih
      · have hsame : Function.update dest f (some d) = dest := by
          rw [← hd, Function.update_eq_self]
        rw [copyFields_of_differs hs hd hsize, if_pos hsize]
        dsimp only
        rw [hsame]
        rfl
    · next habsent =>
      rw [copyFields_of_absent]
      · rfl
      · cases hs : source f with
        | none => exact .inl rfl
        | some s => exact .inr (Option.eq_none_iff_forall_ne_some.mpr fun d hd => habsent s d hs hd)

/-! ### Commands that are copied -/

/-- After an error of `CopyTo` the command is as it was. -/
def CopiesAllOrNothing (source dest : JointPositionCommand V) : Prop :=
  ∃ dest' status, source.copyTo dest = some (dest', status) ∧
    (status.isOk = false → dest' = dest)

theorem copies_all_or_nothing_iff (source dest : JointPositionCommand V) :
    CopiesAllOrNothing source dest ↔
      (∀ f ∈ CommandField.all, Fits FbVector.size source dest f) ∨
        StopsUnchanged FbVector.size source dest CommandField.all := by
  have hnodup : CommandField.all.Nodup := by decide
  rw [← @unchanged_iff _ _ _ FbVector.size rangeFailure _ _ _ _ hnodup]
  unfold CopiesAllOrNothing JointPositionCommand.copyTo
  rw [copyVectors_eq]
  constructor
  · rintro ⟨dest', status, h, hsame⟩
    obtain ⟨⟨dest₁, r⟩, hcopy, heq⟩ := Option.map_eq_some_iff.mp h
    cases heq
    exact ⟨_, r, hcopy, fun hr => hsame ((report_isOk_iff r).mpr hr)⟩
  · rintro ⟨dest', r, hcopy, hsame⟩
    refine ⟨dest', report r, ?_, fun hr => hsame ((report_isOk_iff r).mp hr)⟩
    rw [hcopy]
    rfl

/-! ### Limits that are written and read again -/

theorem has_mutateFlags (fb : FbJointLimits V) (vector : LimitField → Option (FbVector V))
    (f : LimitField) :
    ({ fb with vector } : FbJointLimits V).mutateFlags.has f = (fb.flag f).isSome := by
  have hflag (flag : Option Bool) : (flag.map fun _ => true).getD false = flag.isSome := by
    cases flag <;> rfl
  cases f with
  | minPosition | maxPosition => rfl
  | maxVelocity => exact hflag fb.velocityFlag
  | maxAcceleration => exact hflag fb.accelerationFlag
  | maxJerk => exact hflag fb.jerkFlag
  | maxEffort => exact hflag fb.effortFlag

/-- The flatbuffer after all fields have been written. -/
def FbJointLimits.holding (fb : FbJointLimits V) (limits : JointLimits V) : FbJointLimits V :=
  ({ fb with vector := limits.vectors } : FbJointLimits V).mutateFlags

theorem has_holding : (fb.holding limits).has f = (fb.flag f).isSome := has_mutateFlags ..

theorem read_holding : (fb.holding limits).read f = limits.vector f := rfl

theorem copyTo_eq :
    copyTo limits fb =
      (copyFields FbVector.size sizeFailure limits.vectors LimitField.all fb.vector).map
        fun (vector, r) =>
          (if r.isNone then ({ fb with vector } : FbJointLimits V).mutateFlags
            else { fb with vector }, report r) := by
  unfold copyTo
  rw [writeFields_eq]
  cases copyFields FbVector.size sizeFailure limits.vectors LimitField.all fb.vector with
  | none => rfl
  | some result =>
    obtain ⟨vector, r⟩ := result
    cases r with
    | none => rfl
    | some failure => exact if_pos failure.property

theorem copyTo_of_forall_fits
    (hfits : ∀ f ∈ LimitField.all, Fits FbVector.size limits.vectors fb.vector f) :
    copyTo limits fb = some (fb.holding limits, rtOkStatus) := by
  obtain ⟨vector, hcopy⟩ :=
    @copyFields_of_forall_fits _ _ _ FbVector.size sizeFailure _ _ _ _ LimitField.nodup_all hfits
  have hvector : vector = limits.vectors :=
    funext fun f => ((copyFields_spec LimitField.nodup_all hcopy).2 rfl f f.mem_all).2
  rw [copyTo_eq, hcopy, hvector]
  rfl

variable [Zero V]

/-- What the flatbuffer has no stored flag for is not read, so that it has to be zero. -/
def Readable (limits : JointLimits V) (fb : FbJointLimits V) : Prop :=
  limits.isSizeConsistent = true ∧
    ∀ f, (fb.flag f).isSome = true ∨ limits.vector f = List.replicate limits.size 0

/-- Limits that have been written are read again if and only if all vectors have the same size and
each of them is zero or has a flag. -/
theorem copyFrom_holding_iff :
    (∀ limits₂, copyFrom (fb.holding limits) limits₂ = some (limits, rtOkStatus)) ↔
      Readable limits fb := by
  have hmin : (fb.holding limits).vector .minPosition = some (limits.toVector .minPosition) := rfl
  have hsize : (limits.toVector .minPosition).size ≤ kMaxSize := limits.bounded .minPosition
  have hlong (limits₂ : JointLimits V) := copyFrom_isSome_iff limits₂ hmin hsize
  simp only [has_holding, read_holding] at hlong
  constructor
  · intro h
    obtain ⟨-, hvector⟩ := copyFrom_spec hmin hsize (h limits)
    simp only [has_holding, read_holding] at hvector
    have hlong := (hlong limits).mp ⟨_, h limits⟩
    constructor
    · refine isSizeConsistent_iff.mpr fun f => ?_
      have hlength := congrArg List.length (hvector f)
      split at hlength
      · next hf =>
        rw [List.length_take] at hlength
        exact hlength.trans (Nat.min_eq_left (hlong f hf))
      · rw [List.length_replicate] at hlength
        exact hlength
    · intro f
      by_cases hf : (fb.flag f).isSome = true
      · exact .inl hf
      · refine .inr ((hvector f).trans ?_)
        rw [if_neg hf]
        rfl
  · rintro ⟨hconsistent, hzero⟩ limits₂
    have hlength := isSizeConsistent_iff.mp hconsistent
    obtain ⟨⟨limits', status⟩, h⟩ := (hlong limits₂).mpr fun f _ => Nat.le_of_eq (hlength f).symm
    obtain ⟨rfl, hvector⟩ := copyFrom_spec hmin hsize h
    simp only [has_holding, read_holding] at hvector
    have hsame : limits' = limits := by
      ext1
      funext f
      rw [hvector f]
      split
      · exact List.take_of_length_le (Nat.le_of_eq (hlength f))
      · next hf => exact ((hzero f).resolve_left hf).symm
    rw [h, hsame]

/-! ### All or nothing -/

/-- After an error of `CopyTo` the flatbuffer is as it was, and otherwise the limits can be read
from it again. -/
def WritesAllOrNothing (limits : JointLimits V) (fb : FbJointLimits V) : Prop :=
  ∃ fb' status, copyTo limits fb = some (fb', status) ∧
    (status.isOk = false → fb' = fb) ∧
    (status.isOk = true → ∀ limits₂, copyFrom fb' limits₂ = some (limits, rtOkStatus))

theorem writes_all_or_nothing_iff (limits : JointLimits V) (fb : FbJointLimits V) :
    WritesAllOrNothing limits fb ↔
      (∀ f ∈ LimitField.all, Fits FbVector.size limits.vectors fb.vector f) ∧ Readable limits fb ∨
        StopsUnchanged FbVector.size limits.vectors fb.vector LimitField.all := by
  constructor
  · rintro ⟨fb', status, h, herror, hok⟩
    have hcopyTo := h
    rw [copyTo_eq] at h
    obtain ⟨⟨vector, r⟩, hcopy, heq⟩ := Option.map_eq_some_iff.mp h
    cases r with
    | none =>
      have hfits := fun f hf => ((copyFields_spec LimitField.nodup_all hcopy).2 rfl f hf).1
      rw [copyTo_of_forall_fits hfits] at hcopyTo
      cases hcopyTo
      exact .inl ⟨hfits, copyFrom_holding_iff.mp (hok rfl)⟩
    | some failure =>
      cases heq
      have hvector : vector = fb.vector :=
        congrArg FbJointLimits.vector (herror failure.property)
      rw [hvector] at hcopy
      exact .inr ((error_unchanged_iff LimitField.nodup_all).mp ⟨failure, hcopy⟩)
  · rintro (⟨hfits, hreadable⟩ | hstops)
    · exact ⟨_, _, copyTo_of_forall_fits hfits, nofun, fun _ => copyFrom_holding_iff.mpr hreadable⟩
    · obtain ⟨failure, hcopy⟩ := (@error_unchanged_iff _ _ _ FbVector.size sizeFailure _ _ _ _
        LimitField.nodup_all).mpr hstops
      refine ⟨fb, failure.val, ?_, fun _ => rfl, fun hok => ?_⟩
      · rw [copyTo_eq, hcopy]
        rfl
      · rw [failure.property] at hok
        cases hok

/-- **Writing is all or nothing and loses nothing** if and only if every vector fits and the limits
can be read again, or the vectors before the first one that does not fit already held the values
that are written to them.  Every vector is checked just before it is written, when those before
it have been overwritten already. -/
theorem copy_all_or_nothing_iff :
    (∀ (limits : JointLimits V) (fb : FbJointLimits V),
      WritesAllOrNothing limits fb ↔
        (∀ f ∈ LimitField.all, Fits FbVector.size limits.vectors fb.vector f) ∧
            Readable limits fb ∨
          StopsUnchanged FbVector.size limits.vectors fb.vector LimitField.all) ∧
      ∀ source dest : JointPositionCommand V,
        CopiesAllOrNothing source dest ↔
          (∀ f ∈ CommandField.all, Fits FbVector.size source dest f) ∨
            StopsUnchanged FbVector.size source dest CommandField.all :=
  ⟨writes_all_or_nothing_iff, copies_all_or_nothing_iff⟩

/-- Limits with one joint. -/
def oneLimit : JointLimits Int := ⟨fun _ => [5], fun _ => by decide⟩

/-- A flatbuffer for limits with one joint, except for two maximal positions. -/
def twoMaxPositions : FbJointLimits Int where
  vector f := some (if f = .maxPosition then ⟨[0, 0], by decide⟩ else ⟨[0], by decide⟩)
  velocityFlag := some false
  accelerationFlag := some false
  jerkFlag := some false
  effortFlag := some false

/-- A command with the same velocities and accelerations. -/
def command (position feedforward : FbVector Int) : JointPositionCommand Int
  | .position => some position
  | _ => some feedforward

/-- The minimal position has been overwritten when the maximal positions turn out not to fit, and
so has the position of a command when its velocities do not. -/
theorem copy_half_written :
    ¬ WritesAllOrNothing oneLimit twoMaxPositions ∧
      ¬ CopiesAllOrNothing (command ⟨[5], by decide⟩ ⟨[], by decide⟩)
        (command ⟨[0], by decide⟩ ⟨[0], by decide⟩) := by
  constructor
  · rintro ⟨fb', status, h, herror, -⟩
    have hresult : (copyTo oneLimit twoMaxPositions).map
        (fun result => (result.1.read .minPosition, result.2.isOk)) = some ([5], false) := by
      rw [copyTo_eq]
      rfl
    rw [h] at hresult
    obtain ⟨hmin, hstatus⟩ := Prod.mk.inj (Option.some.inj hresult)
    rw [herror hstatus] at hmin
    change [(0 : Int)] = [5] at hmin
    exact absurd hmin (by decide)
  · rintro ⟨dest', status, h, herror⟩
    have hresult : (JointPositionCommand.copyTo (command ⟨[5], by decide⟩ ⟨[], by decide⟩)
        (command ⟨[0], by decide⟩ ⟨[0], by decide⟩)).map
        (fun result => ((result.1 .position).map (·.data), result.2.isOk)) =
          some (some [5], false) := rfl
    rw [h] at hresult
    obtain ⟨hposition, hstatus⟩ := Prod.mk.inj (Option.some.inj hresult)
    rw [herror hstatus] at hposition
    change some [(0 : Int)] = some [5] at hposition
    exact absurd hposition (by decide)

end WriteSpec

end Intrinsic.JointLimitsUtils
