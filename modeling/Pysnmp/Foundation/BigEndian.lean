import Mathlib.Data.Nat.Size
import Mathlib.Tactic

/-!
# Numbers as octets

Octets stand for a number with the most significant octet first. Writing a number that fits into a
width and reading it again gives it back (`fromBytes_toBytes`), and zeros in front change nothing
(`fromBytes_replicate_append`).
-/

set_option autoImplicit false
set_option relaxedAutoImplicit false

namespace Pysnmp.Foundation.BigEndian

/-- The number that octets stand for. -/
def fromBytes (octets : List UInt8) : ℕ :=
  octets.foldl (fun value octet ↦ 256 * value + octet.toNat) 0

/-- The octets of a number, to a width that it fits into. -/
def toBytes : ℕ → ℕ → List UInt8
  | 0, _ => []
  | width + 1, value => UInt8.ofNat (value / 256 ^ width) :: toBytes width (value % 256 ^ width)

/-- The width that a number fits into. -/
def octetLength (value : ℕ) : ℕ :=
  (value.size + 7) / 8

@[simp] theorem length_toBytes (width value : ℕ) : (toBytes width value).length = width := by
  induction width generalizing value with
  | zero => rfl
  | succ width ih => rw [toBytes, List.length_cons, ih]

theorem foldl_fromBytes (octets : List UInt8) (start : ℕ) :
    octets.foldl (fun value octet ↦ 256 * value + octet.toNat) start =
      start * 256 ^ octets.length + fromBytes octets := by
  induction octets generalizing start with
  | nil => simp [fromBytes]
  | cons octet octets ih =>
    rw [fromBytes, List.foldl_cons, List.foldl_cons, ih, ih, List.length_cons, pow_succ]
    ring

theorem fromBytes_cons (octet : UInt8) (octets : List UInt8) :
    fromBytes (octet :: octets) = octet.toNat * 256 ^ octets.length + fromBytes octets := by
  rw [fromBytes, List.foldl_cons, foldl_fromBytes, mul_zero, zero_add]

/-- What fits into a width is read as it was written. -/
theorem fromBytes_toBytes {width value : ℕ} (hfits : value < 256 ^ width) :
    fromBytes (toBytes width value) = value := by
  induction width generalizing value with
  | zero =>
    rw [pow_zero, Nat.lt_one_iff] at hfits
    rw [hfits]
    rfl
  | succ width ih =>
    have hpos : 0 < 256 ^ width := Nat.pow_pos (by decide)
    have hhead : value / 256 ^ width < 256 := by
      rw [Nat.div_lt_iff_lt_mul hpos, mul_comm, ← pow_succ]
      exact hfits
    rw [toBytes, fromBytes_cons, length_toBytes, ih (Nat.mod_lt value hpos),
      UInt8.toNat_ofNat_of_lt' hhead, mul_comm]
    exact Nat.div_add_mod value (256 ^ width)

/-- Zeros in front change nothing. -/
theorem fromBytes_replicate_append (count : ℕ) (octets : List UInt8) :
    fromBytes (List.replicate count 0 ++ octets) = fromBytes octets := by
  induction count with
  | zero => rfl
  | succ count ih =>
    rw [List.replicate_succ, List.cons_append, fromBytes_cons, ih]
    simp

/-- A number fits into its own width, and into every greater one. -/
theorem lt_pow_of_octetLength_le {width value : ℕ} (hwidth : octetLength value ≤ width) :
    value < 256 ^ width := by
  have hsize : value.size ≤ 8 * width := by
    rw [octetLength] at hwidth
    omega
  calc value < 2 ^ value.size := Nat.lt_size_self value
    _ ≤ 2 ^ (8 * width) := Nat.pow_le_pow_right (by decide) hsize
    _ = 256 ^ width := by rw [pow_mul]; norm_num

end Pysnmp.Foundation.BigEndian
