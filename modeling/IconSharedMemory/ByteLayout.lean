import Mathlib.Algebra.Ring.Nat
import Mathlib.Data.List.GetD
import Mathlib.Data.List.OfFn

/-! # Fixed layouts of bytes

A record that two programs exchange as raw memory is a sequence of fields of fixed
width.  This module has the two kinds of fields such a record is made of, numbers
in little-endian order and arrays of elements of one size, and says how a field is
found again at its offset (`field`).  A loop over the indices reads an array element by
element (`mapM_ok`, `range_map_getD`).
-/
namespace ByteLayout

/-! ## Numbers -/

/-- The `width` bytes of a number, the least significant one first. -/
def littleEndian : Nat → Nat → List UInt8
  | 0, _ => []
  | width + 1, n => UInt8.ofNat (n % 256) :: littleEndian width (n / 256)

/-- The number that bytes in little-endian order stand for. -/
def ofLittleEndian : List UInt8 → Nat
  | [] => 0
  | b :: bytes => b.toNat + 256 * ofLittleEndian bytes

@[simp] theorem length_littleEndian (width n : Nat) : (littleEndian width n).length = width := by
  induction width generalizing n with
  | zero => rfl
  | succ width ih => simp [littleEndian, ih]

/-- **A number that fits is read back.** -/
theorem ofLittleEndian_littleEndian {width n : Nat} (h : n < 256 ^ width) :
    ofLittleEndian (littleEndian width n) = n := by
  induction width generalizing n with
  | zero =>
    obtain rfl : n = 0 := by simpa using h
    rfl
  | succ width ih =>
    have hdiv : n / 256 < 256 ^ width := by
      rw [Nat.div_lt_iff_lt_mul (by decide)]
      rwa [Nat.pow_succ] at h
    rw [littleEndian, ofLittleEndian, ih hdiv, UInt8.toNat_ofNat_of_lt' (by
      show n % 256 < 256
      omega)]
    omega

/-- **Bytes are the number they stand for.** -/
theorem littleEndian_ofLittleEndian {width : Nat} {bytes : List UInt8}
    (h : bytes.length = width) : littleEndian width (ofLittleEndian bytes) = bytes := by
  induction bytes generalizing width with
  | nil =>
    subst h
    rfl
  | cons b bytes ih =>
    subst h
    have hb : b.toNat < 256 := b.toNat_lt
    have hmod : (b.toNat + 256 * ofLittleEndian bytes) % 256 = b.toNat := by omega
    have hdiv : (b.toNat + 256 * ofLittleEndian bytes) / 256 = ofLittleEndian bytes := by omega
    rw [ofLittleEndian, List.length_cons, littleEndian, hmod, hdiv, UInt8.ofNat_toNat, ih rfl]

/-! ## Fields -/

/-- The `width` bytes at `offset`. -/
def field (offset width : Nat) (bytes : List UInt8) : List UInt8 := (bytes.drop offset).take width

theorem ofLittleEndian_lt (bytes : List UInt8) : ofLittleEndian bytes < 256 ^ bytes.length := by
  induction bytes with
  | nil => exact Nat.one_pos
  | cons b bytes ih =>
    have hb := b.toNat_lt
    rw [ofLittleEndian, List.length_cons, Nat.pow_succ]
    omega

/-- **A field holds a number of its width**, whatever the bytes are. -/
theorem ofLittleEndian_field_lt (offset width : Nat) (bytes : List UInt8) :
    ofLittleEndian (field offset width bytes) < 256 ^ width :=
  Nat.lt_of_lt_of_le (ofLittleEndian_lt _)
    (Nat.pow_le_pow_right (by decide) (List.length_take_le ..))

variable {a b c : List UInt8} {offset width : Nat}

/-- A field behind a part of known length is looked for behind that part. -/
theorem field_append (ha : a.length = offset) (i : Nat) :
    field (offset + i) width (a ++ b) = field i width b := by
  subst ha
  rw [field, List.drop_append, List.drop_eq_nil_of_le (by omega), List.nil_append,
    Nat.add_sub_cancel_left]
  rfl

/-- A field inside the first part. -/
theorem field_append_left (ha : offset + width ≤ a.length) :
    field offset width (a ++ b) = field offset width a := by
  rw [field, List.drop_append_of_le_length (by omega),
    List.take_append_of_le_length (by rw [List.length_drop]; omega)]
  rfl

theorem field_head (ha : a.length = width) : field 0 width (a ++ b) = a := by
  subst ha
  simp [field]

/-- **An element of an array is found at its index.** -/
theorem field_flatten {elements : List (List UInt8)} (hlen : ∀ e ∈ elements, e.length = width)
    {i : Nat} (hi : i < elements.length) :
    field (width * i) width (elements.flatten ++ b) = elements.get ⟨i, hi⟩ := by
  induction elements generalizing i with
  | nil => cases hi
  | cons e elements ih =>
    have he : e.length = width := hlen e (.head _)
    rw [List.flatten_cons, List.append_assoc]
    cases i with
    | zero => exact field_head he
    | succ i =>
      rw [Nat.mul_succ, Nat.add_comm, field_append he]
      exact ih (fun e he => hlen e (.tail _ he)) (Nat.lt_of_succ_lt_succ hi)

theorem field_flatten_ofFn {n : Nat} {element : Fin n → List UInt8}
    (hlen : ∀ i, (element i).length = width) (i : Fin n) :
    field (width * i) width ((List.ofFn element).flatten ++ b) = element i := by
  have hi : i.val < (List.ofFn element).length := by rw [List.length_ofFn]; exact i.isLt
  rw [field_flatten (fun e he => ?_) hi]
  · simp
  · obtain ⟨j, rfl⟩ := (List.mem_ofFn' ..).mp he
    exact hlen j

theorem length_flatten_ofFn {n : Nat} {element : Fin n → List UInt8}
    (hlen : ∀ i, (element i).length = width) :
    (List.ofFn element).flatten.length = n * width := by
  rw [List.length_flatten, List.map_ofFn, funext fun i => show
    (List.length ∘ element) i = width from hlen i]
  simp [List.ofFn_const]

/-! ## Loops over the indices -/

/-- A loop in which no element fails. -/
theorem mapM_ok {β γ ε : Type} {l : List β} {f : β → Except ε γ} {g : β → γ}
    (h : ∀ b ∈ l, f b = .ok (g b)) : l.mapM f = .ok (l.map g) := by
  induction l with
  | nil => rfl
  | cons b l ih =>
    rw [List.mapM_cons, h b (.head _), ih fun c hc => h c (.tail _ hc)]
    rfl

/-- A list is read off by its indices. -/
theorem range_map_getD {β : Type} (l : List β) (b : β) :
    (List.range l.length).map (fun i => l.getD i b) = l := by
  apply List.ext_getElem
  · simp
  · intro i h₁ h₂
    rw [List.getElem_map, List.getElem_range, List.getD_eq_getElem _ _ h₂]

end ByteLayout
