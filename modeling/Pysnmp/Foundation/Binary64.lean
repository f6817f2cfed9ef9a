import Mathlib.Algebra.Order.Field.Power
import Mathlib.Data.Int.Log
import Mathlib.Data.Rat.Floor
import Mathlib.Tactic

/-!
# Numbers of binary64

The finite numbers of IEEE 754 binary64 as rationals. `roundBinary q` is the nearest one, the even
one of two, without a bound on the exponent, and `nearest q` is that number if it is finite. A zero
has no sign here.

`abs_roundBinary_sub_le` bounds the error, `roundBinary_natCast` says which natural numbers have
none, and `natCast_le_roundBinary_iff` says from where on a number is rounded up to a natural
number: half the way down to the number below it.
-/

set_option autoImplicit false
set_option relaxedAutoImplicit false

namespace Pysnmp.Foundation.Binary64

/-! ### Rounding to integers -/

/-- The nearest integer, the even one of two. -/
def roundHalfEven (q : ℚ) : ℤ :=
  if q - ⌊q⌋ < 1 / 2 then ⌊q⌋
  else if 1 / 2 < q - ⌊q⌋ then ⌊q⌋ + 1
  else if Even ⌊q⌋ then ⌊q⌋
  else ⌊q⌋ + 1

/-- Down in the lower half, up in the upper one. -/
theorem roundHalfEven_cases (q : ℚ) :
    (roundHalfEven q = ⌊q⌋ ∧ q - ⌊q⌋ ≤ 1 / 2) ∨
      (roundHalfEven q = ⌊q⌋ + 1 ∧ 1 / 2 ≤ q - ⌊q⌋) := by
  rw [roundHalfEven]
  split_ifs with hlow hhigh heven
  · exact Or.inl ⟨rfl, hlow.le⟩
  · exact Or.inr ⟨rfl, hhigh.le⟩
  · exact Or.inl ⟨rfl, not_lt.mp hhigh⟩
  · exact Or.inr ⟨rfl, not_lt.mp hlow⟩

/-- Rounding to an integer moves a number by a half at most. -/
theorem abs_roundHalfEven_sub_le (q : ℚ) : |(roundHalfEven q : ℚ) - q| ≤ 1 / 2 := by
  have hfloor := Int.floor_le q
  have hlt := Int.lt_floor_add_one q
  rw [abs_le]
  rcases roundHalfEven_cases q with ⟨heq, hhalf⟩ | ⟨heq, hhalf⟩
  · rw [heq]
    constructor <;> linarith
  · rw [heq]
    push_cast
    constructor <;> linarith

/-- A number less than a half away from an integer rounds to it. -/
theorem roundHalfEven_eq {q : ℚ} {n : ℤ} (hnear : |q - n| < 1 / 2) : roundHalfEven q = n := by
  have hround := abs_le.mp (abs_roundHalfEven_sub_le q)
  have hn := abs_lt.mp hnear
  have hlower : (n : ℚ) - 1 < roundHalfEven q := by linarith [hround.1, hn.1]
  have hupper : (roundHalfEven q : ℚ) < n + 1 := by linarith [hround.2, hn.2]
  have hlower' : n - 1 < roundHalfEven q := by exact_mod_cast hlower
  have hupper' : roundHalfEven q < n + 1 := by exact_mod_cast hupper
  omega

/-- An integer rounds to itself. -/
@[simp] theorem roundHalfEven_intCast (n : ℤ) : roundHalfEven n = n :=
  roundHalfEven_eq (by simp)

@[simp] theorem roundHalfEven_zero : roundHalfEven 0 = 0 := by
  simpa using roundHalfEven_intCast 0

/-- Rounding does not go below an integer that bounds the number. -/
theorem le_roundHalfEven {q : ℚ} {n : ℤ} (hle : (n : ℚ) ≤ q) : n ≤ roundHalfEven q := by
  have hfloor := Int.le_floor.mpr hle
  rcases roundHalfEven_cases q with ⟨heq, -⟩ | ⟨heq, -⟩ <;> omega

/-- Rounding does not go above an integer that bounds the number. -/
theorem roundHalfEven_le {q : ℚ} {n : ℤ} (hle : q ≤ n) : roundHalfEven q ≤ n := by
  rcases roundHalfEven_cases q with ⟨heq, -⟩ | ⟨heq, hhalf⟩
  · rw [heq]
    exact Int.floor_le_iff.mpr (by linarith)
  · have hlt : (⌊q⌋ : ℚ) < n := by linarith
    have hlt' : ⌊q⌋ < n := by exact_mod_cast hlt
    omega

/-- An even integer takes what lies half the way down from it. -/
theorem le_roundHalfEven_iff {q : ℚ} {n : ℤ} (heven : Even n) :
    n ≤ roundHalfEven q ↔ (n : ℚ) - 1 / 2 ≤ q := by
  constructor
  · intro hle
    have hround := abs_le.mp (abs_roundHalfEven_sub_le q)
    have hcast : (n : ℚ) ≤ roundHalfEven q := by exact_mod_cast hle
    linarith [hround.2]
  · intro hhalf
    by_cases hfloor : n ≤ ⌊q⌋
    · exact le_roundHalfEven (Int.le_floor.mp hfloor)
    · have hlt := Int.lt_floor_add_one q
      have hbelow : ⌊q⌋ + 1 ≤ n := by omega
      have habove : n ≤ ⌊q⌋ + 1 := by
        have hlt' : (n : ℚ) < (⌊q⌋ + 1 : ℤ) + 1 := by
          push_cast
          linarith
        have hlt'' : n < ⌊q⌋ + 1 + 1 := by exact_mod_cast hlt'
        omega
      obtain rfl : n = ⌊q⌋ + 1 := by omega
      push_cast at hhalf
      rw [roundHalfEven, if_neg (by linarith)]
      split_ifs with hhigh hodd
      · rfl
      · exact absurd heven (Int.not_even_iff_odd.mpr hodd.add_one)
      · rfl

/-! ### Rounding to the numbers -/

/-- The exponent of the distance of the numbers about a positive one. -/
def ulpExponent (q : ℚ) : ℤ :=
  max (Int.log 2 q - 52) (-1074)

/-- The distance of the numbers about a positive one. -/
def ulp (q : ℚ) : ℚ :=
  2 ^ ulpExponent q

/-- The number nearest to a positive one. -/
def roundMagnitude (q : ℚ) : ℚ :=
  roundHalfEven (q / ulp q) * ulp q

/-- The nearest number, without a bound on the exponent. -/
def roundBinary (q : ℚ) : ℚ :=
  if q < 0 then -roundMagnitude (-q) else roundMagnitude q

/-- The nearest number, if it is finite. -/
def nearest (q : ℚ) : Option ℚ :=
  if |roundBinary q| < 2 ^ 1024 then some (roundBinary q) else none

/-- The smallest positive number. -/
def smallest : ℚ :=
  2 ^ (-1074 : ℤ)

theorem smallest_pos : 0 < smallest :=
  zpow_pos (by norm_num) _

theorem ulp_pos (q : ℚ) : 0 < ulp q :=
  zpow_pos (by norm_num) _

theorem roundBinary_of_nonneg {q : ℚ} (hq : 0 ≤ q) : roundBinary q = roundMagnitude q :=
  if_neg hq.not_gt

@[simp] theorem roundBinary_zero : roundBinary 0 = 0 := by
  simp [roundBinary, roundMagnitude]

/-- Rounding is symmetric about zero. -/
theorem roundBinary_neg (q : ℚ) : roundBinary (-q) = -roundBinary q := by
  rcases lt_trichotomy q 0 with hq | rfl | hq
  · rw [roundBinary, roundBinary, if_pos hq, if_neg (by linarith), neg_neg]
  · simp
  · rw [roundBinary, roundBinary, if_pos (by linarith), if_neg hq.not_gt, neg_neg]

theorem nearest_neg (q : ℚ) : nearest (-q) = (nearest q).map fun number ↦ -number := by
  rw [nearest, nearest, roundBinary_neg, abs_neg]
  split_ifs <;> rfl

theorem roundBinary_nonneg {q : ℚ} (hq : 0 ≤ q) : 0 ≤ roundBinary q := by
  have hulp := ulp_pos q
  have hscaled : ((0 : ℤ) : ℚ) ≤ q / ulp q := by
    rw [Int.cast_zero]
    positivity
  have hinteger : (0 : ℚ) ≤ roundHalfEven (q / ulp q) := by
    exact_mod_cast le_roundHalfEven hscaled
  rw [roundBinary_of_nonneg hq]
  exact mul_nonneg hinteger hulp.le

/-- Rounding moves a magnitude by half a unit in the last place at most. -/
theorem abs_roundMagnitude_sub_le (q : ℚ) : |roundMagnitude q - q| ≤ ulp q / 2 := by
  have hulp := ulp_pos q
  have hscaled : roundMagnitude q - q = (roundHalfEven (q / ulp q) - q / ulp q) * ulp q := by
    rw [roundMagnitude, sub_mul, div_mul_cancel₀ _ hulp.ne']
  rw [hscaled, abs_mul, abs_of_pos hulp]
  calc |(roundHalfEven (q / ulp q) : ℚ) - q / ulp q| * ulp q
      ≤ 1 / 2 * ulp q := mul_le_mul_of_nonneg_right (abs_roundHalfEven_sub_le _) hulp.le
    _ = ulp q / 2 := by ring

/-- A unit in the last place is at most one part in 2⁵² of the number, or the smallest one. -/
theorem ulp_le {q : ℚ} (hq : 0 < q) : ulp q ≤ q / 2 ^ 52 + smallest := by
  have hlog : (2 : ℚ) ^ Int.log 2 q ≤ q := Int.zpow_log_le_self (by norm_num) hq
  have hpos : 0 < q / 2 ^ 52 := by positivity
  have hsmall := smallest_pos
  rw [ulp, ulpExponent]
  rcases max_choice (Int.log 2 q - 52) (-1074) with hmax | hmax
  · have hdiv : (2 : ℚ) ^ Int.log 2 q / 2 ^ 52 ≤ q / 2 ^ 52 := by gcongr
    rw [hmax, zpow_sub₀ (by norm_num), zpow_ofNat]
    linarith
  · show (2 : ℚ) ^ max (Int.log 2 q - 52) (-1074) ≤ q / 2 ^ 52 + 2 ^ (-1074 : ℤ)
    rw [hmax]
    linarith

/-- The error of rounding: half a unit in the last of 53 places, or half the smallest number. -/
theorem abs_roundBinary_sub_le {q : ℚ} (hq : 0 ≤ q) :
    |roundBinary q - q| ≤ q / 2 ^ 53 + smallest / 2 := by
  rcases hq.eq_or_lt with rfl | hpos
  · have hsmall := smallest_pos
    rw [roundBinary_zero, sub_zero, abs_zero]
    positivity
  · have hulp := ulp_le hpos
    rw [roundBinary_of_nonneg hq]
    calc |roundMagnitude q - q| ≤ ulp q / 2 := abs_roundMagnitude_sub_le q
      _ ≤ (q / 2 ^ 52 + smallest) / 2 := by linarith
      _ = q / 2 ^ 53 + smallest / 2 := by ring

/-! ### Multiples of the distance -/

section Multiples

variable {q : ℚ} {n : ℤ}

/-- A multiple of the unit bounds what a magnitude rounds to if it bounds the rounded quotient. -/
theorem le_roundMagnitude_iff_mul :
    n * ulp q ≤ roundMagnitude q ↔ n ≤ roundHalfEven (q / ulp q) := by
  rw [roundMagnitude, mul_le_mul_iff_of_pos_right (ulp_pos q)]
  exact Int.cast_le

/-- Rounding does not go below a multiple of the unit that bounds the magnitude. -/
theorem le_roundMagnitude_of_le (hle : n * ulp q ≤ q) : n * ulp q ≤ roundMagnitude q :=
  le_roundMagnitude_iff_mul.mpr (le_roundHalfEven ((le_div_iff₀ (ulp_pos q)).mpr hle))

/-- Rounding does not go above a multiple of the unit that bounds the magnitude. -/
theorem roundMagnitude_le_of_le (hle : q ≤ n * ulp q) : roundMagnitude q ≤ n * ulp q := by
  have hround := roundHalfEven_le ((div_le_iff₀ (ulp_pos q)).mpr hle)
  have hcast : (roundHalfEven (q / ulp q) : ℚ) ≤ n := by exact_mod_cast hround
  exact mul_le_mul_of_nonneg_right hcast (ulp_pos q).le

/-- A multiple of its own unit is a binary64 magnitude already. -/
theorem roundMagnitude_eq_of_eq (heq : q = n * ulp q) : roundMagnitude q = q := by
  have hscaled : q / ulp q = n := (div_eq_iff (ulp_pos q).ne').mpr heq
  rw [roundMagnitude, hscaled, roundHalfEven_intCast]
  exact heq.symm

/-- An even multiple of the unit is rounded to from half a unit below it on. -/
theorem le_roundMagnitude_iff_of_even (heven : Even n) :
    n * ulp q ≤ roundMagnitude q ↔ n * ulp q - ulp q / 2 ≤ q := by
  rw [le_roundMagnitude_iff_mul, le_roundHalfEven_iff heven, le_div_iff₀ (ulp_pos q)]
  constructor <;> intro hle <;> linarith

/-- A power of two from the distance on is a multiple of it. -/
theorem zpow_eq_mul_ulp {exponent : ℤ} (hexponent : ulpExponent q ≤ exponent) :
    (2 : ℚ) ^ exponent = ((2 ^ (exponent - ulpExponent q).toNat : ℤ) : ℚ) * ulp q := by
  have hnat : ((exponent - ulpExponent q).toNat : ℤ) = exponent - ulpExponent q :=
    Int.toNat_of_nonneg (by omega)
  rw [ulp, Int.cast_pow, Int.cast_ofNat, ← zpow_natCast, hnat, ← zpow_add₀ (by norm_num)]
  congr 1
  omega

/-- Rounding does not go below a power of two that bounds the magnitude. -/
theorem zpow_le_roundMagnitude {exponent : ℤ} (hexponent : ulpExponent q ≤ exponent)
    (hle : (2 : ℚ) ^ exponent ≤ q) : (2 : ℚ) ^ exponent ≤ roundMagnitude q := by
  have heq := zpow_eq_mul_ulp hexponent
  rw [heq] at hle ⊢
  exact le_roundMagnitude_of_le hle

/-- Rounding does not go above a power of two that bounds the magnitude. -/
theorem roundMagnitude_le_zpow {exponent : ℤ} (hexponent : ulpExponent q ≤ exponent)
    (hle : q ≤ (2 : ℚ) ^ exponent) : roundMagnitude q ≤ (2 : ℚ) ^ exponent := by
  have heq := zpow_eq_mul_ulp hexponent
  rw [heq] at hle ⊢
  exact roundMagnitude_le_of_le hle

end Multiples

/-! ### Rounding up to a number -/

/-- A number with an even significand takes what lies half the way down to the number below it. -/
theorem le_roundMagnitude_iff {q : ℚ} (hq : 0 < q) {significand exponent : ℤ}
    (heven : Even significand) (hlow : 2 ^ 52 < significand) (hhigh : significand ≤ 2 ^ 53)
    (hexponent : -1074 ≤ exponent) :
    significand * (2 : ℚ) ^ exponent ≤ roundMagnitude q ↔
      significand * (2 : ℚ) ^ exponent - 2 ^ exponent / 2 ≤ q := by
  have hunit : (0 : ℚ) < 2 ^ exponent := zpow_pos (by norm_num) _
  have hlower : (2 : ℚ) ^ (exponent + 52) = 2 ^ 52 * 2 ^ exponent := by
    rw [zpow_add₀ (by norm_num), mul_comm, zpow_ofNat]
  have hupper : (2 : ℚ) ^ (exponent + 53) = 2 ^ 53 * 2 ^ exponent := by
    rw [zpow_add₀ (by norm_num), mul_comm, zpow_ofNat]
  have hlow' : (2 ^ 52 + 1 : ℚ) ≤ significand := by exact_mod_cast hlow
  have hhigh' : (significand : ℚ) ≤ 2 ^ 53 := by exact_mod_cast hhigh
  have hmulLow := mul_le_mul_of_nonneg_right hlow' hunit.le
  have hmulHigh := mul_le_mul_of_nonneg_right hhigh' hunit.le
  rcases lt_or_ge q (2 ^ (exponent + 52)) with hbelow | habove
  · -- Below the binade of the numbers under it: both sides fail.
    have hlog : Int.log 2 q < exponent + 52 :=
      (Int.lt_zpow_iff_log_lt (by norm_num) hq).mp (by exact_mod_cast hbelow)
    have hround := roundMagnitude_le_zpow (show ulpExponent q ≤ exponent + 52 by
      rw [ulpExponent]
      omega) hbelow.le
    constructor <;> intro hle <;> linarith
  · rcases lt_or_ge q (2 ^ (exponent + 53)) with hinside | hbeyond
    · have hlog : Int.log 2 q = exponent + 52 := by
        have hge : exponent + 52 ≤ Int.log 2 q :=
          (Int.zpow_le_iff_le_log (by norm_num) hq).mp (by exact_mod_cast habove)
        have hlt : Int.log 2 q < exponent + 53 :=
          (Int.lt_zpow_iff_log_lt (by norm_num) hq).mp (by exact_mod_cast hinside)
        omega
      have hulp : ulp q = 2 ^ exponent := by
        rw [ulp, ulpExponent, hlog]
        congr 1
        omega
      rw [← hulp]
      exact le_roundMagnitude_iff_of_even heven
    · -- From the next binade on: both sides hold.
      have hlog : exponent + 53 ≤ Int.log 2 q :=
        (Int.zpow_le_iff_le_log (by norm_num) hq).mp (by exact_mod_cast hbeyond)
      have hround := zpow_le_roundMagnitude (show ulpExponent q ≤ Int.log 2 q by
        rw [ulpExponent]
        omega) (by exact_mod_cast Int.zpow_log_le_self (by norm_num) hq)
      have hbinade : (2 : ℚ) ^ (exponent + 53) ≤ 2 ^ Int.log 2 q :=
        zpow_le_zpow_right₀ (by norm_num) hlog
      constructor <;> intro _ <;> linarith

/-! ### Natural numbers -/

section Natural

variable {number : ℕ}

/-- The distance from a positive natural number down to the number below it. -/
def gapBelow (number : ℕ) : ℚ :=
  2 ^ ((Nat.clog 2 number : ℤ) - 53)

/-- A natural number is a multiple of every smaller power of two. -/
theorem natCast_eq_mul_zpow (number : ℕ) {places : ℕ} {exponent : ℤ}
    (hplaces : (places : ℤ) = -exponent) :
    (number : ℚ) = ((number * 2 ^ places : ℕ) : ℤ) * (2 : ℚ) ^ exponent := by
  have hcancel : (2 : ℚ) ^ places * 2 ^ exponent = 1 := by
    rw [← zpow_natCast, ← zpow_add₀ (by norm_num), hplaces, neg_add_cancel, zpow_zero]
  push_cast
  rw [mul_assoc, hcancel, mul_one]

/-- Natural numbers of up to 53 places are numbers. -/
theorem roundBinary_natCast (hnumber : number < 2 ^ 53) : roundBinary number = number := by
  rcases Nat.eq_zero_or_pos number with rfl | hpos
  · exact roundBinary_zero
  · have hlog : Nat.log 2 number ≤ 52 := by
      have hlt := Nat.log_lt_of_lt_pow hpos.ne' hnumber
      omega
    have hexponent : ulpExponent number = (Nat.log 2 number : ℤ) - 52 := by
      rw [ulpExponent, Int.log_natCast]
      omega
    rw [roundBinary_of_nonneg (Nat.cast_nonneg number)]
    refine roundMagnitude_eq_of_eq (n := ((number * 2 ^ (52 - Nat.log 2 number) : ℕ) : ℤ)) ?_
    rw [ulp, hexponent]
    exact natCast_eq_mul_zpow number (by omega)

/-- A positive natural number takes what lies half the way down to the number below it. -/
theorem natCast_le_roundBinary_iff (hpos : 0 < number) (hnumber : number ≤ 2 ^ 52) {q : ℚ}
    (hq : 0 < q) : (number : ℚ) ≤ roundBinary q ↔ number - gapBelow number / 2 ≤ q := by
  have hclog : Nat.clog 2 number ≤ 52 := (Nat.clog_le_iff_le_pow (by norm_num)).mpr hnumber
  have hbelow : 2 ^ Nat.clog 2 number < 2 * number := by
    rcases Nat.eq_or_lt_of_le hpos with hone | hmore
    · rw [← hone]
      decide
    · have hpred := Nat.pow_pred_clog_lt_self (b := 2) (by norm_num) hmore
      have hclogPos := Nat.clog_pos (b := 2) (by norm_num) hmore
      rw [← Nat.succ_pred_eq_of_pos hclogPos, pow_succ]
      omega
  have habove : number ≤ 2 ^ Nat.clog 2 number := Nat.le_pow_clog (by norm_num) number
  set places := 53 - Nat.clog 2 number with hplaces
  have hpow : 2 ^ Nat.clog 2 number * 2 ^ places = 2 ^ 53 := by
    rw [← pow_add]
    congr 1
    omega
  have hplacesCast : (places : ℤ) = -((Nat.clog 2 number : ℤ) - 53) := by omega
  have heven : Even ((number * 2 ^ places : ℕ) : ℤ) := by
    have hodd : places = (places - 1) + 1 := by omega
    rw [hodd, pow_succ, ← mul_assoc]
    exact_mod_cast even_two.mul_left _
  have hlow : (2 ^ 52 : ℤ) < ((number * 2 ^ places : ℕ) : ℤ) := by
    have hlt := Nat.mul_lt_mul_of_pos_right hbelow (pow_pos (show 0 < 2 by norm_num) places)
    have hlt' : 2 ^ 52 < number * 2 ^ places := by
      rw [hpow, mul_assoc] at hlt
      omega
    exact_mod_cast hlt'
  have hhigh : ((number * 2 ^ places : ℕ) : ℤ) ≤ 2 ^ 53 := by
    have hle := Nat.mul_le_mul_right (2 ^ places) habove
    rw [hpow] at hle
    exact_mod_cast hle
  rw [roundBinary_of_nonneg hq.le, gapBelow, natCast_eq_mul_zpow number hplacesCast]
  exact le_roundMagnitude_iff hq heven hlow hhigh (by omega)

end Natural

/-! ### Powers of ten -/

section PowersOfTen

variable {exponent : ℕ}

theorem smallest_le : smallest ≤ 1 / 2 ^ 53 := by
  calc (2 : ℚ) ^ (-1074 : ℤ) ≤ 2 ^ (-53 : ℤ) := zpow_le_zpow_right₀ (by norm_num) (by norm_num)
    _ = 1 / 2 ^ 53 := by rw [zpow_neg, zpow_ofNat, one_div]

/-- From one on the error is a unit in the last place at most. -/
theorem abs_roundBinary_sub_le_of_one_le {q : ℚ} (hq : 1 ≤ q) :
    |roundBinary q - q| ≤ q / 2 ^ 52 := by
  have herror := abs_roundBinary_sub_le (zero_le_one.trans hq)
  have hsmall := smallest_le
  have hlarge : (1 : ℚ) / 2 ^ 53 ≤ q / 2 ^ 53 := by gcongr
  calc |roundBinary q - q| ≤ q / 2 ^ 53 + smallest / 2 := herror
    _ ≤ q / 2 ^ 53 + q / 2 ^ 53 := by linarith [smallest_pos]
    _ = q / 2 ^ 52 := by ring

/-- The largest power of ten below the bound, with room for rounding. -/
theorem pow_ten_lt : (10 : ℚ) ^ 308 * 3 < 2 ^ 1025 := by
  have hlt : 10 ^ 308 * 3 < 2 ^ 1025 := by decide +kernel
  have hcast : ((10 ^ 308 * 3 : ℕ) : ℚ) < ((2 ^ 1025 : ℕ) : ℚ) := Nat.cast_lt.mpr hlt
  rwa [Nat.cast_mul, Nat.cast_pow, Nat.cast_pow] at hcast

/-- The smallest power of ten above the bound, with room for rounding. -/
theorem lt_pow_ten : (2 : ℚ) ^ 1025 < 10 ^ 309 := by
  have hlt : 2 ^ 1025 < 10 ^ 309 := by decide +kernel
  have hcast : ((2 ^ 1025 : ℕ) : ℚ) < ((10 ^ 309 : ℕ) : ℚ) := Nat.cast_lt.mpr hlt
  rwa [Nat.cast_pow, Nat.cast_pow] at hcast

theorem one_le_pow_ten (exponent : ℕ) : (1 : ℚ) ≤ 10 ^ exponent :=
  one_le_pow₀ (by norm_num)

/-- A power of ten and its number are about the same. -/
theorem roundBinary_pow_ten_bounds (exponent : ℕ) :
    (10 : ℚ) ^ exponent * (1 - 1 / 2 ^ 52) ≤ roundBinary (10 ^ exponent) ∧
      roundBinary (10 ^ exponent) ≤ (10 : ℚ) ^ exponent * (1 + 1 / 2 ^ 52) := by
  have herror := abs_le.mp (abs_roundBinary_sub_le_of_one_le (one_le_pow_ten exponent))
  constructor
  · linarith [herror.1]
  · linarith [herror.2]

/-- A power of ten does not round to zero. -/
theorem roundBinary_pow_ten_pos (exponent : ℕ) : 0 < roundBinary (10 ^ exponent) := by
  have hpos : (0 : ℚ) < 10 ^ exponent * (1 - 1 / 2 ^ 52) := by
    apply mul_pos (pow_pos (by norm_num) exponent)
    norm_num
  exact hpos.trans_le (roundBinary_pow_ten_bounds exponent).1

/-- Powers of ten are finite up to 308. -/
theorem nearest_pow_ten (hexponent : exponent ≤ 308) :
    nearest (10 ^ exponent) = some (roundBinary (10 ^ exponent)) := by
  have hpow : (10 : ℚ) ^ exponent ≤ 10 ^ 308 := pow_le_pow_right₀ (by norm_num) hexponent
  have hbound : (10 : ℚ) ^ 308 * 3 < 2 ^ 1024 * 2 := by
    rw [← pow_succ]
    exact pow_ten_lt
  have hround := (roundBinary_pow_ten_bounds exponent).2
  have hone := one_le_pow_ten exponent
  rw [nearest, abs_of_pos (roundBinary_pow_ten_pos exponent), if_pos]
  generalize (10 : ℚ) ^ exponent = power at hpow hround hone
  generalize (10 : ℚ) ^ 308 = largest at hpow hbound
  generalize (2 : ℚ) ^ 1024 = bound at hbound
  linarith

/-- Powers of ten overflow past 308. -/
theorem nearest_pow_ten_eq_none (hexponent : 308 < exponent) :
    nearest (10 ^ exponent) = none := by
  have hpow : (10 : ℚ) ^ 309 ≤ 10 ^ exponent := pow_le_pow_right₀ (by norm_num) hexponent
  have hbound : (2 : ℚ) ^ 1024 * 2 < 10 ^ 309 := by
    rw [← pow_succ]
    exact lt_pow_ten
  have hround := (roundBinary_pow_ten_bounds exponent).1
  have hone := one_le_pow_ten exponent
  rw [nearest, abs_of_pos (roundBinary_pow_ten_pos exponent), if_neg]
  generalize (10 : ℚ) ^ exponent = power at hpow hround hone
  generalize (10 : ℚ) ^ 309 = smallest at hpow hbound
  generalize (2 : ℚ) ^ 1024 = bound at hbound
  rw [not_lt]
  linarith

/-- The smallest number stays small when a power of ten scales it up. -/
theorem smallest_mul_pow_ten_le (hexponent : exponent ≤ 308) :
    smallest * 10 ^ exponent ≤ 1 / 2 ^ 50 := by
  have hpow : (10 : ℚ) ^ exponent ≤ 10 ^ 308 := pow_le_pow_right₀ (by norm_num) hexponent
  have hbound := pow_ten_lt
  have hten : (0 : ℚ) ≤ 10 ^ 308 := by positivity
  have hsplit : smallest * 2 ^ 1025 = 1 / 2 ^ 49 := by
    rw [smallest, ← zpow_natCast (2 : ℚ) 1025, ← zpow_add₀ (by norm_num), one_div,
      ← zpow_natCast (2 : ℚ) 49, ← zpow_neg]
    congr 1
  have hhalf : (10 : ℚ) ^ exponent ≤ 2 ^ 1025 / 2 := by
    generalize (10 : ℚ) ^ exponent = power at hpow
    generalize (10 : ℚ) ^ 308 = largest at hpow hbound hten
    generalize (2 : ℚ) ^ 1025 = bound at hbound
    linarith
  calc smallest * 10 ^ exponent ≤ smallest * (2 ^ 1025 / 2) :=
        mul_le_mul_of_nonneg_left hhalf smallest_pos.le
    _ = smallest * 2 ^ 1025 / 2 := by rw [mul_div_assoc]
    _ = 1 / 2 ^ 50 := by
      rw [hsplit]
      norm_num

/-- A quotient that has been rounded is scaled up to about the dividend. -/
theorem abs_roundBinary_div_mul_sub_le {divisor : ℚ} (hdivisor : 0 < divisor)
    (hsmall : smallest * divisor ≤ 1 / 2 ^ 49) (number : ℕ) :
    |roundBinary (number / divisor) * divisor - number| ≤ number / 2 ^ 53 + 1 / 2 ^ 50 := by
  have herror := abs_roundBinary_sub_le (div_nonneg (Nat.cast_nonneg number) hdivisor.le)
  have hscaled : roundBinary (number / divisor) * divisor - number =
      (roundBinary (number / divisor) - number / divisor) * divisor := by
    rw [sub_mul, div_mul_cancel₀ _ hdivisor.ne']
  rw [hscaled, abs_mul, abs_of_pos hdivisor]
  calc |roundBinary (number / divisor) - number / divisor| * divisor
      ≤ (number / divisor / 2 ^ 53 + smallest / 2) * divisor :=
        mul_le_mul_of_nonneg_right herror hdivisor.le
    _ = number / divisor * divisor / 2 ^ 53 + smallest * divisor / 2 := by ring
    _ ≤ number / 2 ^ 53 + 1 / 2 ^ 50 := by
      rw [div_mul_cancel₀ _ hdivisor.ne']
      linarith

/-- A number that is scaled by a factor is scaled alike by one near it. -/
theorem abs_mul_sub_le_of_near {quotient factor near : ℚ} {number : ℕ} (hnumber : number ≤ 2 ^ 32)
    (hquotient : 0 ≤ quotient) (hnear : |factor - near| ≤ near / 2 ^ 51)
    (hscaled : |quotient * near - number| ≤ number / 2 ^ 53 + 1 / 2 ^ 50) :
    |quotient * factor - number| ≤ 1 / 2 ^ 10 := by
  have hcast : (number : ℚ) ≤ 2 ^ 32 := by exact_mod_cast hnumber
  have hdifference : |quotient * (factor - near)| ≤ quotient * near / 2 ^ 51 := by
    rw [abs_mul, abs_of_nonneg hquotient, mul_div_assoc]
    exact mul_le_mul_of_nonneg_left hnear hquotient
  have hsum : quotient * factor - number =
      (quotient * near - number) + quotient * (factor - near) := by ring
  have hupper := (abs_le.mp hscaled).2
  calc |quotient * factor - number|
      ≤ |quotient * near - number| + |quotient * (factor - near)| := by
        rw [hsum]
        exact abs_add_le _ _
    _ ≤ (number / 2 ^ 53 + 1 / 2 ^ 50) + quotient * near / 2 ^ 51 := add_le_add hscaled hdifference
    _ ≤ 1 / 2 ^ 10 := by linarith

section Scaling

variable {number : ℕ} (hexponent : exponent ≤ 308) (hnumber : number ≤ 2 ^ 32)

include hexponent hnumber

/-- A number that has been divided by a power of ten, scaled up exactly. -/
theorem abs_roundBinary_div_roundBinary_mul_sub_le :
    |roundBinary (number / roundBinary (10 ^ exponent)) * 10 ^ exponent - number| ≤ 1 / 2 ^ 10 := by
  have hpos := roundBinary_pow_ten_pos exponent
  obtain ⟨hlower, hupper⟩ := roundBinary_pow_ten_bounds exponent
  have hpower := one_le_pow_ten exponent
  have hsmall : smallest * roundBinary (10 ^ exponent) ≤ 1 / 2 ^ 49 := by
    have hdouble : roundBinary (10 ^ exponent) ≤ 10 ^ exponent * 2 := by linarith
    have hmul := mul_le_mul_of_nonneg_left hdouble smallest_pos.le
    have hbound := smallest_mul_pow_ten_le hexponent
    linarith
  have hnear : |(10 : ℚ) ^ exponent - roundBinary (10 ^ exponent)| ≤
      roundBinary (10 ^ exponent) / 2 ^ 51 := by
    rw [abs_le]
    constructor <;> linarith
  have hnonneg := roundBinary_nonneg (div_nonneg (Nat.cast_nonneg number) hpos.le)
  exact abs_mul_sub_le_of_near hnumber hnonneg hnear
    (abs_roundBinary_div_mul_sub_le hpos hsmall number)

/-- A number that has been divided by a power of ten exactly, scaled up. -/
theorem abs_roundBinary_div_mul_roundBinary_sub_le :
    |roundBinary (number / 10 ^ exponent) * roundBinary (10 ^ exponent) - number| ≤ 1 / 2 ^ 10 := by
  obtain ⟨hlower, hupper⟩ := roundBinary_pow_ten_bounds exponent
  have hpower := one_le_pow_ten exponent
  have hpos : (0 : ℚ) < 10 ^ exponent := by linarith
  have hsmall : smallest * 10 ^ exponent ≤ 1 / 2 ^ 49 := by
    have hbound := smallest_mul_pow_ten_le hexponent
    linarith
  have hnear : |roundBinary (10 ^ exponent) - (10 : ℚ) ^ exponent| ≤ 10 ^ exponent / 2 ^ 51 := by
    rw [abs_le]
    constructor <;> linarith
  have hnonneg := roundBinary_nonneg (div_nonneg (Nat.cast_nonneg number) hpos.le)
  exact abs_mul_sub_le_of_near hnumber hnonneg hnear
    (abs_roundBinary_div_mul_sub_le hpos hsmall number)

end Scaling

end PowersOfTen

/-- Numbers of moderate size are finite. -/
theorem nearest_of_le {q : ℚ} (hq : 0 ≤ q) (hle : q ≤ 2 ^ 60) :
    nearest q = some (roundBinary q) := by
  have herror := (abs_le.mp (abs_roundBinary_sub_le hq)).2
  have hsmall := smallest_le
  have hbound : (2 : ℚ) ^ 62 ≤ 2 ^ 1024 := pow_le_pow_right₀ (by norm_num) (by norm_num)
  rw [nearest, abs_of_nonneg (roundBinary_nonneg hq), if_pos]
  refine lt_of_lt_of_le ?_ hbound
  linarith

end Pysnmp.Foundation.Binary64
