import Mathlib.Data.Nat.Bitwise
import Mathlib.Tactic

/-!
# Strings of bits

A string of octets as a set of naturals: bit zero is the most significant bit of the first octet,
bit eight that of the second. `withBit` adds a bit and lengthens the string as far as it has to, so
the same bits can be set in strings that differ in zero octets at the end, and in no other way.
-/

set_option autoImplicit false
set_option relaxedAutoImplicit false

namespace Pysnmp.Foundation.BitString

/-- The bit is set; beyond the end of the string none is. -/
def isSet (octets : List UInt8) (bit : ℕ) : Bool :=
  (octets.getD (bit / 8) 0).toNat.testBit (7 - bit % 8)

/-- The bits that are set, in increasing order. -/
def setBits (octets : List UInt8) : List ℕ :=
  (List.range (8 * octets.length)).filter (isSet octets)

/-- The string with enough zero octets at its end to hold a bit. -/
def extended (octets : List UInt8) (bit : ℕ) : List UInt8 :=
  octets ++ List.replicate (bit / 8 + 1 - octets.length) 0

/-- The string with one more bit set. -/
def withBit (octets : List UInt8) (bit : ℕ) : List UInt8 :=
  (extended octets bit).modify (bit / 8) fun octet ↦ octet ||| 1 <<< UInt8.ofNat (7 - bit % 8)

/-- The string with these bits and no others, as short as it can be. -/
def packed (bits : List ℕ) : List UInt8 :=
  bits.foldl withBit []

/-! ### One more bit -/

theorem toNat_singleBit {place : ℕ} (hplace : place < 8) :
    (1 <<< UInt8.ofNat place : UInt8).toNat = 2 ^ place := by
  interval_cases place <;> rfl

theorem testBit_or_singleBit (octet : UInt8) {place : ℕ} (hplace : place < 8) (other : ℕ) :
    (octet ||| 1 <<< UInt8.ofNat place).toNat.testBit other =
      (octet.toNat.testBit other || decide (place = other)) := by
  rw [UInt8.toNat_or, toNat_singleBit hplace, Nat.testBit_or, Nat.testBit_two_pow]

@[simp] theorem length_extended (octets : List UInt8) (bit : ℕ) :
    (extended octets bit).length = max octets.length (bit / 8 + 1) := by
  rw [extended, List.length_append, List.length_replicate]
  omega

@[simp] theorem length_withBit (octets : List UInt8) (bit : ℕ) :
    (withBit octets bit).length = max octets.length (bit / 8 + 1) := by
  rw [withBit, List.length_modify, length_extended]

theorem getD_extended (octets : List UInt8) (bit place : ℕ) :
    (extended octets bit).getD place 0 = octets.getD place 0 := by
  unfold extended
  rcases lt_or_ge place octets.length with hlt | hge
  · rw [List.getD_append _ _ _ _ hlt]
  · rw [List.getD_append_right _ _ _ _ hge, List.getD_eq_default octets _ hge,
      List.getD_eq_getElem?_getD, List.getElem?_replicate]
    split_ifs <;> rfl

theorem getD_withBit (octets : List UInt8) (bit place : ℕ) :
    (withBit octets bit).getD place 0 =
      if place = bit / 8 then octets.getD place 0 ||| 1 <<< UInt8.ofNat (7 - bit % 8)
      else octets.getD place 0 := by
  have hlength : bit / 8 < (extended octets bit).length := by
    rw [length_extended]
    omega
  rw [← getD_extended octets bit place, withBit, List.getD_eq_getElem?_getD,
    List.getElem?_modify, List.getD_eq_getElem?_getD]
  by_cases hplace : place = bit / 8
  · subst hplace
    rw [if_pos rfl, List.getElem?_eq_getElem hlength]
    exact if_pos rfl
  · simp only [if_neg hplace, if_neg (Ne.symm hplace), id_map']

theorem isSet_withBit (octets : List UInt8) (bit other : ℕ) :
    isSet (withBit octets bit) other = (isSet octets other || decide (other = bit)) := by
  unfold isSet
  rw [getD_withBit]
  by_cases hplace : other / 8 = bit / 8
  · rw [if_pos hplace, testBit_or_singleBit _ (by omega)]
    congr 2
    rw [eq_iff_iff]
    omega
  · have hne : other ≠ bit := fun heq ↦ hplace (congrArg (· / 8) heq)
    rw [if_neg hplace, decide_eq_false hne, Bool.or_false]

/-! ### All bits of a string -/

theorem isSet_nil (bit : ℕ) : isSet [] bit = false := by
  rw [isSet, List.getD_nil]
  exact Nat.zero_testBit _

theorem isSet_foldl_withBit (octets : List UInt8) (bits : List ℕ) (other : ℕ) :
    isSet (bits.foldl withBit octets) other = (isSet octets other || decide (other ∈ bits)) := by
  induction bits generalizing octets with
  | nil => simp
  | cons bit rest ih =>
    rw [List.foldl_cons, ih, isSet_withBit, Bool.or_assoc, ← Bool.decide_or]
    simp only [List.mem_cons]

theorem isSet_packed (bits : List ℕ) (other : ℕ) :
    isSet (packed bits) other = decide (other ∈ bits) := by
  rw [packed, isSet_foldl_withBit, isSet_nil, Bool.false_or]

theorem length_foldl_withBit_le {octets : List UInt8} {bits : List ℕ} {bound : ℕ}
    (hoctets : octets.length ≤ bound) (hbits : ∀ bit ∈ bits, bit < 8 * bound) :
    (bits.foldl withBit octets).length ≤ bound := by
  induction bits generalizing octets with
  | nil => exact hoctets
  | cons bit rest ih =>
    refine ih ?_ fun other hother ↦ hbits other (List.mem_cons_of_mem bit hother)
    have hbit := hbits bit List.mem_cons_self
    rw [length_withBit]
    omega

theorem mem_setBits_iff {octets : List UInt8} {bit : ℕ} :
    bit ∈ setBits octets ↔ isSet octets bit = true := by
  rw [setBits, List.mem_filter, List.mem_range, and_iff_right_iff_imp]
  intro hset
  by_contra hlength
  rw [isSet, List.getD_eq_default _ _ (by omega)] at hset
  rw [UInt8.toNat_zero, Nat.zero_testBit] at hset
  cases hset

theorem lt_of_mem_setBits {octets : List UInt8} {bit : ℕ} (hmem : bit ∈ setBits octets) :
    bit < 8 * octets.length :=
  List.mem_range.mp (List.mem_of_mem_filter hmem)

/-- An octet is its eight bits. -/
theorem octet_ext {octet other : UInt8}
    (hbits : ∀ place < 8, octet.toNat.testBit place = other.toNat.testBit place) :
    octet = other := by
  apply UInt8.toNat_inj.mp
  apply Nat.eq_of_testBit_eq
  intro place
  rcases lt_or_ge place 8 with hlt | hge
  · exact hbits place hlt
  · have hpow : 2 ^ 8 ≤ 2 ^ place := Nat.pow_le_pow_right (by norm_num) hge
    rw [Nat.testBit_eq_false_of_lt (octet.toNat_lt.trans_le hpow),
      Nat.testBit_eq_false_of_lt (other.toNat_lt.trans_le hpow)]

/-- Strings with the same bits differ in zero octets at the end. -/
theorem eq_append_zeros {octets longer : List UInt8} (hlength : octets.length ≤ longer.length)
    (hbits : ∀ bit, isSet octets bit = isSet longer bit) :
    longer = octets ++ List.replicate (longer.length - octets.length) 0 := by
  have hgetD (place : ℕ) : octets.getD place 0 = longer.getD place 0 := by
    refine octet_ext fun digit hdigit ↦ ?_
    have hbit := hbits (8 * place + (7 - digit))
    have hplace : (8 * place + (7 - digit)) / 8 = place := by omega
    have hmod : 7 - (8 * place + (7 - digit)) % 8 = digit := by omega
    rwa [isSet, isSet, hplace, hmod] at hbit
  refine List.ext_getElem (by simp; omega) fun place hlt _ ↦ ?_
  have heq := hgetD place
  rw [List.getD_eq_getElem _ _ hlt] at heq
  rw [← heq]
  rcases lt_or_ge place octets.length with hshort | hlong
  · rw [List.getElem_append_left hshort, List.getD_eq_getElem _ _ hshort]
  · rw [List.getElem_append_right hlong, List.getElem_replicate, List.getD_eq_default _ _ hlong]

/-- Setting the bits of a string again gives it without the zero octets at its end. -/
theorem eq_packed_setBits (octets : List UInt8) :
    ∃ zeros, octets = packed (setBits octets) ++ List.replicate zeros 0 := by
  have hlength : (packed (setBits octets)).length ≤ octets.length :=
    length_foldl_withBit_le (Nat.zero_le _) fun bit ↦ lt_of_mem_setBits
  refine ⟨_, eq_append_zeros hlength fun bit ↦ ?_⟩
  rw [isSet_packed, Bool.eq_iff_iff, decide_eq_true_iff, mem_setBits_iff]

/-- The bits of the last octet follow those of the octets before it. -/
theorem setBits_append_singleton (octets : List UInt8) (octet : UInt8) :
    setBits (octets ++ [octet]) =
      setBits octets ++
        ((List.range 8).filter fun bit ↦ octet.toNat.testBit (7 - bit)).map
          fun bit ↦ 8 * octets.length + bit := by
  have hlength : 8 * (octets ++ [octet]).length = 8 * octets.length + 8 := by
    rw [List.length_append, List.length_singleton]
    ring
  unfold setBits
  rw [hlength, List.range_add, List.filter_append, List.filter_map]
  congr 1
  · refine List.filter_congr fun bit hbit ↦ ?_
    rw [List.mem_range] at hbit
    rw [isSet, isSet, List.getD_append _ _ _ _ (by omega)]
  · congr 1
    refine List.filter_congr fun bit hbit ↦ ?_
    rw [List.mem_range] at hbit
    have hplace : (8 * octets.length + bit) / 8 = octets.length := by omega
    have hmod : (8 * octets.length + bit) % 8 = bit := by omega
    rw [Function.comp_apply, isSet, hplace, hmod, List.getD_append_right _ _ _ _ le_rfl,
      Nat.sub_self]
    rfl

end Pysnmp.Foundation.BitString
