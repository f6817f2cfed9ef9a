import Pysnmp.Smi.DisplayHint

/-!
# Numbers under a hint and back

Whether `prettyIn` reads what `prettyOut` has rendered of a number under the hints `x`, `o`, `b`,
`d` and `d-N`. Hexadecimal and plain decimal numbers come back. An octal number does unless it is
negative, since its sign stands behind the leading zero; bits never do, since the `B` is written
behind them and read before them. With decimals the text is exact, but it is scaled up in binary and
cut off: a number comes back if the nearest binary fraction is not too small. All of this is
`roundTrips_iff_preserves`.
-/

set_option autoImplicit false
set_option relaxedAutoImplicit false

namespace Pysnmp.Smi.DisplayHint

open Foundation Foundation.Binary64 Foundation.Decimal Foundation.Numeral Proto

/-! ### Hints for numbers -/

/-- The hints for numbers. -/
inductive NumberHint
  | hexadecimal
  | octal
  | binary
  | decimal
  | decimals (places : ℕ)

/-- The text of a hint. -/
def NumberHint.text : NumberHint → List Char
  | .hexadecimal => ['x']
  | .octal => ['o']
  | .binary => ['b']
  | .decimal => ['d']
  | .decimals places => 'd' :: '-' :: Nat.toDigits 10 places

/-- The binary fraction nearest to a decimal fraction, scaled up, is not so much too small that it
is nearer to the number below. -/
def NotTooSmall (places number : ℕ) : Prop :=
  number - roundBinary (number / 10 ^ places) * roundBinary (10 ^ places) ≤ gapBelow number / 2

/-- The numbers that come back under a hint. -/
def NumberHint.Preserves : NumberHint → ℤ → Prop
  | .hexadecimal, _ => True
  | .octal, number => 0 ≤ number
  | .binary, _ => False
  | .decimal, _ => True
  | .decimals places, number => places ≤ 308 ∧ NotTooSmall places number.natAbs

theorem splitHint_decimals (places : ℕ) :
    splitHint (NumberHint.decimals places).text = (['d'], some (Nat.toDigits 10 places)) := by
  have hminus : ∀ char ∈ Nat.toDigits 10 places, (char == '-') = false := by
    intro char hmem
    obtain ⟨-, -, -, hminus, -⟩ := plain_of_mem_toDigits (by norm_num) (by norm_num) hmem
    exact beq_false_of_ne hminus
  have hsplit : (NumberHint.decimals places).text.splitOn '-' =
      [['d'], Nat.toDigits 10 places] := by
    show List.splitOnP (· == '-') (['d'] ++ '-' :: Nat.toDigits 10 places) = _
    rw [List.splitOnP_append_cons _ _ (by decide), List.splitOnP_eq_singleton hminus]
    rfl
  rw [splitHint, hsplit]

/-! ### Scaling -/

section Scaling

/-- Scaling down is symmetric about zero. -/
theorem scaleDown_neg (value : ℤ) (precision : ℕ) :
    scaleDown (-value) precision = (scaleDown value precision).map fun q ↦ -q := by
  rw [scaleDown, scaleDown, Int.cast_neg, nearest_neg]
  cases nearest value with
  | none => rfl
  | some number =>
    cases nearest ((10 : ℚ) ^ precision) with
    | none => rfl
    | some divisor =>
      show nearest (-number / divisor) = (nearest (number / divisor)).map _
      rw [neg_div, nearest_neg]

theorem truncate_neg (product : ℚ) :
    (if -product < 0 then ⌈-product⌉ else ⌊-product⌋) =
      -(if product < 0 then ⌈product⌉ else ⌊product⌋) := by
  rcases lt_trichotomy product 0 with hneg | rfl | hpos
  · rw [if_neg (by linarith), if_pos hneg, Int.floor_neg]
  · simp
  · rw [if_pos (by linarith), if_neg hpos.not_gt, Int.ceil_neg]

/-- So is scaling up. -/
theorem scaleUp_neg (exact : ℚ) (precision : ℕ) :
    scaleUp (-exact) precision = (scaleUp exact precision).map fun number ↦ -number := by
  rw [scaleUp, scaleUp, nearest_neg]
  cases nearest exact with
  | none => rfl
  | some number =>
    cases nearest ((10 : ℚ) ^ precision) with
    | none => rfl
    | some factor =>
      show (nearest (-number * factor) >>= _) = ((nearest (number * factor)) >>= _).map _
      rw [neg_mul, nearest_neg]
      cases nearest (number * factor) with
      | none => rfl
      | some product => exact congrArg some (truncate_neg product)

variable {places number : ℕ} (hplaces : places ≤ 308) (hnumber : number ≤ 2 ^ 32)

include hplaces hnumber

theorem scaleDown_natCast :
    scaleDown number places = some (roundBinary (number / roundBinary (10 ^ places))) := by
  have hcast : (number : ℚ) ≤ 2 ^ 32 := by exact_mod_cast hnumber
  have hnonneg : (0 : ℚ) ≤ number := Nat.cast_nonneg number
  have hexact : roundBinary number = number := roundBinary_natCast (hnumber.trans_lt (by norm_num))
  have hdivisor : (1 / 2 : ℚ) ≤ roundBinary (10 ^ places) := by
    have hbound := (roundBinary_pow_ten_bounds places).1
    have hone := one_le_pow_ten places
    linarith
  have hquotient : number / roundBinary (10 ^ places) ≤ (2 : ℚ) ^ 60 := by
    rw [div_le_iff₀ (by linarith)]
    linarith
  rw [scaleDown, Int.cast_natCast, nearest_of_le hnonneg (by linarith), hexact,
    nearest_pow_ten hplaces]
  exact nearest_of_le (div_nonneg hnonneg (by linarith)) hquotient

theorem scaleUp_natCast :
    scaleUp (number / 10 ^ places) places =
      some ⌊roundBinary (roundBinary (number / 10 ^ places) * roundBinary (10 ^ places))⌋ := by
  have hcast : (number : ℚ) ≤ 2 ^ 32 := by exact_mod_cast hnumber
  have hnonneg : (0 : ℚ) ≤ number / 10 ^ places := by positivity
  have hpower := one_le_pow_ten places
  have hexact : (number : ℚ) / 10 ^ places ≤ 2 ^ 60 := by
    rw [div_le_iff₀ (by linarith)]
    linarith
  have hproduct := (abs_le.mp (abs_roundBinary_div_mul_roundBinary_sub_le hplaces hnumber)).2
  have hproductNonneg := mul_nonneg (roundBinary_nonneg hnonneg) (roundBinary_pow_ten_pos places).le
  rw [scaleUp, nearest_of_le hnonneg hexact, nearest_pow_ten hplaces]
  show (nearest (roundBinary (number / 10 ^ places) * roundBinary (10 ^ places)) >>= _) = _
  rw [nearest_of_le hproductNonneg (by linarith)]
  exact congrArg some (if_neg (roundBinary_nonneg hproductNonneg).not_gt)

/-- Cutting off gives the number back if rounding comes up to it. -/
theorem floor_eq_iff_notTooSmall :
    ⌊roundBinary (roundBinary (number / 10 ^ places) * roundBinary (10 ^ places))⌋ = (number : ℤ) ↔
      NotTooSmall places number := by
  have hcast : (number : ℚ) ≤ 2 ^ 32 := by exact_mod_cast hnumber
  have hnear := abs_le.mp (abs_roundBinary_div_mul_roundBinary_sub_le hplaces hnumber)
  rw [NotTooSmall]
  rcases Nat.eq_zero_or_pos number with rfl | hpos
  · have hgap : (0 : ℚ) ≤ gapBelow 0 / 2 := by
      rw [gapBelow]
      positivity
    simp [hgap]
  · set product := roundBinary (number / 10 ^ places) * roundBinary (10 ^ places) with hproduct
    have hone : (1 : ℚ) ≤ number := by exact_mod_cast hpos
    have hproductPos : 0 < product := by linarith [hnear.1]
    have herror := (abs_le.mp (abs_roundBinary_sub_le hproductPos.le)).2
    have hsmall := smallest_le
    have hbelow : roundBinary product < number + 1 := by linarith [hnear.2]
    have hround := natCast_le_roundBinary_iff hpos (hnumber.trans (by norm_num)) hproductPos
    rw [Int.floor_eq_iff, Int.cast_natCast]
    constructor
    · rintro ⟨hle, -⟩
      linarith [hround.mp hle]
    · intro hgap
      exact ⟨hround.mpr (by linarith), hbelow⟩

/-- The text has the number of units that was scaled down. -/
theorem roundHalfEven_scaleDown :
    roundHalfEven (roundBinary (number / roundBinary (10 ^ places)) * 10 ^ places) =
      (number : ℤ) := by
  have hnear := abs_roundBinary_div_roundBinary_mul_sub_le hplaces hnumber
  refine roundHalfEven_eq (lt_of_le_of_lt ?_ (show (1 / 2 ^ 10 : ℚ) < 1 / 2 by norm_num))
  rw [Int.cast_natCast]
  exact hnear

omit hplaces in
/-- Without decimals nothing is lost. -/
theorem notTooSmall_zero : NotTooSmall 0 number := by
  have hexact : roundBinary number = number := roundBinary_natCast (hnumber.trans_lt (by norm_num))
  have hone : roundBinary 1 = 1 := by
    exact_mod_cast roundBinary_natCast (show 1 < 2 ^ 53 by norm_num)
  have hgap : (0 : ℚ) ≤ gapBelow number / 2 := by
    rw [gapBelow]
    positivity
  rw [NotTooSmall, pow_zero, div_one, hexact, hone, mul_one, sub_self]
  exact hgap

end Scaling

/-! ### Decimals -/

section Decimals

variable {table : CharacterTable} {places : ℕ} {decimalPrecision : Option (List Char)}

/-- A number of units of the last place, with its sign. -/
def signedDecimals (places : ℕ) (number : ℤ) : List Char :=
  if number < 0 then
    '-' :: decimals places number.natAbs
  else
    decimals places number.natAbs

/-- A number of 32 bits that is scaled down prints as its digits with the point moved. -/
theorem formatFixed_scaleDown {number : ℕ} (hplaces : places ≤ 308) (hnumber : number ≤ 2 ^ 32) :
    formatFixed places (roundBinary (number / roundBinary (10 ^ places))) =
      decimals places number := by
  have hnonneg := roundBinary_nonneg
    (div_nonneg (Nat.cast_nonneg number) (roundBinary_pow_ten_pos places).le)
  rw [formatFixed, if_neg hnonneg.not_gt, roundHalfEven_scaleDown hplaces hnumber,
    Int.toNat_natCast]

/-- So does a negative one, behind its sign. -/
theorem formatFixed_neg_scaleDown {number : ℕ} (hplaces : places ≤ 308) (hnumber : number ≤ 2 ^ 32)
    (hpos : 0 < number) :
    formatFixed places (-roundBinary (number / roundBinary (10 ^ places))) =
      '-' :: decimals places number := by
  have hnonneg := roundBinary_nonneg
    (div_nonneg (Nat.cast_nonneg number) (roundBinary_pow_ten_pos places).le)
  have hunits := roundHalfEven_scaleDown hplaces hnumber
  have hquotient : 0 < roundBinary (number / roundBinary (10 ^ places)) := by
    refine hnonneg.lt_of_ne fun hzero ↦ ?_
    rw [← hzero, zero_mul, roundHalfEven_zero] at hunits
    omega
  rw [formatFixed, if_pos (by linarith), neg_neg, hunits, Int.toNat_natCast]

theorem decimalOut_of_scaleDown (hprecision : readPrecision table decimalPrecision = some places)
    {number : ℤ} {quotient : ℚ} (hscaled : scaleDown number places = some quotient) :
    decimalOut table decimalPrecision number = .ok (formatFixed places quotient) := by
  simp [decimalOut, hprecision, hscaled]

/-- A number is rendered with its decimals, exactly. -/
theorem decimalOut_eq (hprecision : readPrecision table decimalPrecision = some places)
    (hplaces : places ≤ 308) {number : ℤ} (hnumber : number.natAbs ≤ 2 ^ 32) :
    decimalOut table decimalPrecision number = .ok (signedDecimals places number) := by
  have hscaled := scaleDown_natCast hplaces hnumber
  rw [signedDecimals]
  split_ifs with hnegative
  · have habs : number = -(number.natAbs : ℤ) := by omega
    have hneg : scaleDown number places =
        some (-roundBinary (number.natAbs / roundBinary (10 ^ places))) := by
      rw [habs, scaleDown_neg, Int.natAbs_neg, Int.natAbs_natCast, hscaled, Option.map_some]
    rw [decimalOut_of_scaleDown hprecision hneg]
    exact congrArg Except.ok (formatFixed_neg_scaleDown hplaces hnumber (by omega))
  · have habs : number = number.natAbs := by omega
    have hpos : scaleDown number places =
        some (roundBinary (number.natAbs / roundBinary (10 ^ places))) := by
      rw [← hscaled, ← habs]
    rw [decimalOut_of_scaleDown hprecision hpos]
    exact congrArg Except.ok (formatFixed_scaleDown hplaces hnumber)

/-- The decimals read as the exact quotient. -/
theorem readFloat_signedDecimals (number : ℤ) :
    readFloat table (signedDecimals places number) = some ((number : ℚ) / 10 ^ places) := by
  rw [signedDecimals]
  split_ifs with hnegative
  · have habs : number = -(number.natAbs : ℤ) := by omega
    have hcast : (number : ℚ) = -(number.natAbs : ℚ) := by exact_mod_cast habs
    rw [readFloat_neg_decimals, hcast, neg_div]
  · have habs : number = number.natAbs := by omega
    have hcast : (number : ℚ) = (number.natAbs : ℚ) := by rw [← Int.cast_natCast, ← habs]
    rw [readFloat_decimals, hcast]

/-- Reading decimals scales the exact quotient up again. -/
theorem decimalIn_eq (hprecision : readPrecision table decimalPrecision = some places)
    (number : ℤ) : decimalIn table decimalPrecision (signedDecimals places number) =
      scaleUp (number / 10 ^ places) places := by
  rw [decimalIn, readFloat_signedDecimals, hprecision]
  rfl

/-- The number comes back unless the rounding falls short of it. -/
theorem scaleUp_eq_iff (hplaces : places ≤ 308) {number : ℤ} (hnumber : number.natAbs ≤ 2 ^ 32) :
    scaleUp (number / 10 ^ places) places = some number ↔ NotTooSmall places number.natAbs := by
  have hscaled := scaleUp_natCast hplaces hnumber
  have hfloor := floor_eq_iff_notTooSmall hplaces hnumber
  rw [← hfloor]
  rcases le_or_gt 0 number with hnonneg | hnegative
  · have habs : number = number.natAbs := by omega
    have hcast : (number : ℚ) = (number.natAbs : ℚ) := by rw [← Int.cast_natCast, ← habs]
    rw [hcast, hscaled, Option.some_inj, ← habs]
  · have habs : number = -(number.natAbs : ℤ) := by omega
    have hcast : (number : ℚ) = -(number.natAbs : ℚ) := by exact_mod_cast habs
    rw [hcast, neg_div, scaleUp_neg, hscaled, Option.map_some, Option.some_inj]
    omega

/-- The number of decimals of a hint is read from its digits, if there are not too many. -/
theorem readPrecision_toDigits (table : CharacterTable) (places : ℕ) :
    readPrecision table (some (Nat.toDigits 10 places)) = none ∨
      readPrecision table (some (Nat.toDigits 10 places)) = some places := by
  rw [readPrecision, readInt_of_unsigned (plain_toDigits (by norm_num) (by norm_num) places)
    (unsigned_toDigits (by norm_num) (by norm_num) places)]
  have hread : readNat maxStrDigits 10 (Nat.toDigits 10 places) = none ∨
      readNat maxStrDigits 10 (Nat.toDigits 10 places) = some places :=
    readNat_toDigits_or (by decide) places
  rcases hread with hnone | hsome
  · left
    rw [hnone]
    rfl
  · right
    rw [hsome]
    rfl

theorem readPrecision_of_le (hplaces : places ≤ 308) :
    readPrecision table (some (Nat.toDigits 10 places)) = some places := by
  have hlength : (Nat.toDigits 10 places).length ≤ 3 :=
    (Nat.length_toDigits_le_iff (by norm_num) (by norm_num)).mpr (by omega)
  have hread : readNat maxStrDigits 10 (Nat.toDigits 10 places) = some places :=
    readNat_toDigits (by decide) fun _ ↦ hlength.trans (by decide)
  rw [readPrecision, readInt_of_unsigned (plain_toDigits (by norm_num) (by norm_num) places)
    (unsigned_toDigits (by norm_num) (by norm_num) places), hread]
  rfl

/-- With more decimals nothing is rendered. -/
theorem decimalOut_eq_error (hplaces : 308 < places) (number : ℤ) :
    decimalOut table (some (Nat.toDigits 10 places)) number = .error .floatEvaluation := by
  have hscaled : scaleDown number places = none := by
    rw [scaleDown, nearest_pow_ten_eq_none hplaces]
    cases nearest (number : ℚ) <;> rfl
  rcases readPrecision_toDigits table places with hnone | hsome
  · simp [decimalOut, hnone]
  · simp [decimalOut, hsome, hscaled]

end Decimals

/-! ### Octal numbers and bits -/

section Octal

variable {table : CharacterTable}

/-- Octal digits behind a zero read as the number. -/
theorem readNat_octal (number : ℕ) :
    readNat maxStrDigits 8 ('0' :: Nat.toDigits 8 number) = some number := by
  have hprefix : ∀ char ∈ '0' :: Nat.toDigits 8 number, char ∉ basePrefix 8 := by
    intro char hmem
    rcases List.mem_cons.mp hmem with rfl | hdigit
    · decide
    · exact not_mem_basePrefix (by decide) hdigit
  rw [readNat, dropPrefix_of_digits hprefix]
  exact (if_neg (by simp)).trans (readDigits_zero_cons (by norm_num) (by norm_num) number)

/-- A sign behind the zero is no octal digit. -/
theorem readNat_octal_neg (digits : List Char) :
    readNat maxStrDigits 8 ('0' :: '-' :: digits) = none := by
  rfl

/-- The sign of an octal number stands behind the zero, where it is not read. -/
theorem readInt_octal (value : ℤ) : readInt table maxStrDigits 8 ('0' :: numeral 8 value) =
    if 0 ≤ value then some value else none := by
  have hplain : Plain ('0' :: numeral 8 value) := by
    intro char hmem
    rcases List.mem_cons.mp hmem with rfl | hlater
    · decide
    · exact plain_numeral (by norm_num) (by norm_num) value char hlater
  have hzero : ∀ char ∈ ('0' :: numeral 8 value).head?, char ≠ '-' ∧ char ≠ '+' := by
    rintro char ⟨⟩
    decide
  rw [readInt_of_unsigned hplain hzero, numeral]
  rcases le_or_gt 0 value with hnonneg | hnegative
  · rw [if_neg hnonneg.not_gt, if_pos hnonneg, readNat_octal, Option.map_some]
    congr 1
    omega
  · rw [if_pos hnegative, if_neg hnegative.not_ge, readNat_octal_neg, Option.map_none]

end Octal

section Bits

variable {ν : Type} {table : CharacterTable} {convention : TextualConvention ν}

/-- What the loop over bits writes: a `B`, with a bit before it if there is any. -/
def IsBits (text : List Char) : Prop :=
  text = ['B'] ∨ ∃ rest, text = '0' :: rest ∨ text = '1' :: rest

theorem isBits_numeral (value : ℤ) (text : List Char) :
    IsBits (numeral 10 (value % 2) ++ text) := by
  right
  rcases Int.emod_two_eq_zero_or_one value with hzero | hone
  · rw [hzero]
    exact ⟨text, Or.inl rfl⟩
  · rw [hone]
    exact ⟨text, Or.inr rfl⟩

/-- The states of the loop over bits. -/
def InBits : Progress ν → Prop
  | .start _ => False
  | .bits _ outputValue => IsBits outputValue
  | .octets _ => False

/-- The loop over bits goes on writing bits. -/
theorem inBits_next {progress next : Progress ν} (hbits : InBits progress)
    (hturn : turn table convention progress = .inl next) : InBits next := by
  cases progress with
  | start value => exact hbits.elim
  | bits runningValue outputValue =>
    rw [turn] at hturn
    split_ifs at hturn
    cases hturn
    exact isBits_numeral runningValue outputValue
  | octets rendering => exact hbits.elim

/-- What it writes in the end is bits. -/
theorem inBits_last {progress : Progress ν} {result : Except HintError (List Char)}
    (hbits : InBits progress) (hturn : turn table convention progress = .inr result) :
    ∀ text, result = .ok text → IsBits text := by
  cases progress with
  | start value => exact hbits.elim
  | bits runningValue outputValue =>
    rw [turn] at hturn
    split_ifs at hturn
    cases hturn
    rintro text ⟨⟩
    exact hbits
  | octets rendering => exact hbits.elim

/-- The `B` is read before the bits. -/
theorem prettyIn_isBits (hsplit : splitHint convention.displayHint = (['b'], none))
    {text : List Char} (hbits : IsBits text) (value : ℤ) :
    prettyIn table convention text ≠ .ok value := by
  rcases hbits with rfl | ⟨rest, rfl | rfl⟩
  · have hnone : readInt table maxStrDigits 2 [] = none := rfl
    simp [prettyIn, hsplit, hnone]
  · simp [prettyIn, hsplit]
  · simp [prettyIn, hsplit]

end Bits

/-! ### Round trips -/

section RoundTrips

variable {ν : Type} (table : CharacterTable) (convention : TextualConvention ν)

/-- What is rendered of a number is read as the number. -/
def RoundTrips {type : NumericType} (number : type.Number) : Prop :=
  ∃ turns text, prettyOut table convention turns (.numeric type number) = some (.ok text) ∧
    prettyIn table convention text = .ok number.val

variable {table convention} {type : NumericType} {number : type.Number}

theorem natAbs_le (number : type.Number) : number.val.natAbs ≤ 2 ^ 32 := by
  obtain ⟨value, hlower, hupper⟩ := number
  show value.natAbs ≤ 2 ^ 32
  cases type
  · have hlower' : (-2147483648 : ℤ) ≤ value := hlower
    have hupper' : value ≤ 2147483647 := hupper
    omega
  · have hlower' : (0 : ℤ) ≤ value := hlower
    have hupper' : value ≤ 4294967295 := hupper
    omega
  · have hlower' : (0 : ℤ) ≤ value := hlower
    have hupper' : value ≤ 4294967295 := hupper
    omega

/-- Where rendering ends at its beginning. -/
theorem roundTrips_iff_of_startNumber {result : Except HintError (List Char)}
    (hhint : convention.displayHint ≠ [])
    (hstart : startNumber table convention number.val = .inr result) :
    RoundTrips table convention number ↔
      ∃ text, result = .ok text ∧ prettyIn table convention text = .ok number.val := by
  have hturn : turn table convention (.start (.numeric type number)) = .inr result := by
    rw [turn, if_neg hhint, hstart]
  constructor
  · rintro ⟨turns, text, hrendered, hread⟩
    cases turns with
    | zero => cases hrendered
    | succ turns =>
      rw [prettyOut, Loop.within_of_inr hturn] at hrendered
      exact ⟨text, Option.some.inj hrendered, hread⟩
  · rintro ⟨text, rfl, hread⟩
    exact ⟨1, text, Loop.within_of_inr hturn 0, hread⟩

/-- No number comes back from its bits. -/
theorem not_roundTrips_binary (hhint : convention.displayHint = ['b']) :
    ¬ RoundTrips table convention number := by
  have hsplit : splitHint convention.displayHint = (['b'], none) := by
    rw [hhint]
    rfl
  have hturn : turn table convention (.start (.numeric type number)) =
      .inl (.bits number.val ['B']) := by
    rw [turn, if_neg (by simp [hhint])]
    simp [startNumber, hsplit]
  rintro ⟨turns, text, hrendered, hread⟩
  cases turns with
  | zero => cases hrendered
  | succ turns =>
    rw [prettyOut, Loop.within_of_inl hturn] at hrendered
    have hstart : InBits (ν := ν) (.bits number.val ['B']) := Or.inl rfl
    have hbits := Loop.post_of_within (fun _ _ ↦ inBits_next) (fun _ _ ↦ inBits_last) hstart
      hrendered text rfl
    exact prettyIn_isBits hsplit hbits _ hread

variable (hbase : ∀ number, convention.basePrettyIn number = .ok number)

include hbase

/-- Every number comes back from its hexadecimal digits. -/
theorem roundTrips_hexadecimal (hhint : convention.displayHint = ['x']) :
    RoundTrips table convention number := by
  have hread : readInt table maxStrDigits 16 (numeral 16 number.val) = some number.val :=
    readInt_numeral (by decide) fun hten ↦ absurd hten (by decide)
  have hsplit : splitHint convention.displayHint = (['x'], none) := by
    rw [hhint]
    rfl
  have hstart : startNumber table convention number.val =
      .inr (.ok ('0' :: 'x' :: numeral 16 number.val)) := by
    simp [startNumber, hsplit]
  rw [roundTrips_iff_of_startNumber (by simp [hhint]) hstart]
  refine ⟨_, rfl, ?_⟩
  simp [prettyIn, hsplit, hread, hbase]

/-- A number comes back from its octal digits unless it is negative. -/
theorem roundTrips_octal_iff (hhint : convention.displayHint = ['o']) :
    RoundTrips table convention number ↔ 0 ≤ number.val := by
  have hsplit : splitHint convention.displayHint = (['o'], none) := by
    rw [hhint]
    rfl
  have hstart : startNumber table convention number.val =
      .inr (.ok ('0' :: numeral 8 number.val)) := by
    simp [startNumber, hsplit]
  rw [roundTrips_iff_of_startNumber (by simp [hhint]) hstart]
  by_cases hnonneg : 0 ≤ number.val
  · simp [prettyIn, hsplit, readInt_octal, hnonneg, hbase]
  · simp [prettyIn, hsplit, readInt_octal, hnonneg]

/-- A number comes back from its decimals unless the rounding falls short of it. -/
theorem roundTrips_decimals_iff {places : ℕ} {decimalPrecision : Option (List Char)}
    (hsplit : splitHint convention.displayHint = (['d'], decimalPrecision))
    (hprecision : readPrecision table decimalPrecision = some places) (hplaces : places ≤ 308) :
    RoundTrips table convention number ↔ NotTooSmall places number.val.natAbs := by
  have hhint : convention.displayHint ≠ [] := by
    intro hnil
    rw [hnil] at hsplit
    cases hsplit
  have hstart : startNumber table convention number.val =
      .inr (.ok (signedDecimals places number.val)) := by
    simp [startNumber, hsplit, decimalOut_eq hprecision hplaces (natAbs_le number)]
  have hread : prettyIn table convention (signedDecimals places number.val) = .ok number.val ↔
      scaleUp (number.val / 10 ^ places) places = some number.val := by
    simp only [prettyIn, hsplit, decimalIn_eq hprecision]
    cases scaleUp (number.val / 10 ^ places) places with
    | none => simp
    | some value => simp [hbase]
  rw [roundTrips_iff_of_startNumber hhint hstart, ← scaleUp_eq_iff hplaces (natAbs_le number),
    ← hread]
  constructor
  · rintro ⟨text, hrendered, htext⟩
    rwa [Except.ok.inj hrendered]
  · intro htext
    exact ⟨_, rfl, htext⟩

/-- The numbers that come back are those that the hint preserves. -/
theorem roundTrips_iff_preserves (hint : NumberHint) (hhint : convention.displayHint = hint.text) :
    RoundTrips table convention number ↔ hint.Preserves number.val := by
  cases hint with
  | hexadecimal => exact iff_of_true (roundTrips_hexadecimal hbase hhint) trivial
  | octal => exact roundTrips_octal_iff hbase hhint
  | binary => exact iff_of_false (not_roundTrips_binary hhint) id
  | decimal =>
    have hsplit : splitHint convention.displayHint = (['d'], none) := by
      rw [hhint]
      rfl
    rw [roundTrips_decimals_iff hbase hsplit rfl (Nat.zero_le _)]
    exact iff_of_true (notTooSmall_zero (natAbs_le number)) trivial
  | decimals places =>
    have hsplit : splitHint convention.displayHint = (['d'], some (Nat.toDigits 10 places)) := by
      rw [hhint, splitHint_decimals]
    by_cases hplaces : places ≤ 308
    · rw [roundTrips_decimals_iff hbase hsplit (readPrecision_of_le hplaces) hplaces]
      exact (and_iff_right hplaces).symm
    · have hstart : startNumber table convention number.val =
          .inr (.error .floatEvaluation) := by
        simp [startNumber, hsplit, decimalOut_eq_error (not_le.mp hplaces)]
      have hnonempty : convention.displayHint ≠ [] := by
        rw [hhint]
        exact List.cons_ne_nil _ _
      rw [roundTrips_iff_of_startNumber hnonempty hstart]
      refine iff_of_false ?_ fun hpreserved ↦ hplaces hpreserved.1
      rintro ⟨text, hrendered, -⟩
      cases hrendered

end RoundTrips

/-! ### Samples -/

section Samples

/-- No character beyond ASCII is a space or a digit. -/
def plainTable : CharacterTable :=
  ⟨fun _ ↦ false, fun _ ↦ none⟩

/-- A convention for numbers with a hint. -/
def numberConvention (hint : NumberHint) : TextualConvention Unit where
  displayHint := hint.text
  basePrettyOut _ := .error .pyAsn1Error
  basePrettyIn := .ok

/-- An `INTEGER`. -/
abbrev sampleNumber (number : ℤ) (hnumber : -2147483648 ≤ number ∧ number ≤ 2147483647) :
    NumericType.integer.Number :=
  ⟨number, hnumber⟩

theorem roundTrips_iff_preserves_sample :
    RoundTrips plainTable (numberConvention .octal) (sampleNumber (-8) (by decide)) ↔
      NumberHint.octal.Preserves (-8) :=
  roundTrips_iff_preserves (fun _ ↦ rfl) .octal rfl

theorem ulpExponent_sample : ulpExponent (29 / 100) = -54 := by
  have hlower : -2 ≤ Int.log 2 (29 / 100 : ℚ) :=
    (Int.zpow_le_iff_le_log (by norm_num) (by norm_num)).mp (by norm_num)
  have hupper : Int.log 2 (29 / 100 : ℚ) < -1 :=
    (Int.lt_zpow_iff_log_lt (by norm_num) (by norm_num)).mp (by norm_num)
  rw [ulpExponent]
  omega

theorem roundBinary_sample : roundBinary (29 / 100) = 5224175567749775 * 2 ^ (-54 : ℤ) := by
  have hinteger : roundHalfEven ((29 / 100) / 2 ^ (-54 : ℤ)) = 5224175567749775 := by
    refine roundHalfEven_eq ?_
    norm_num [abs_lt]
  rw [roundBinary_of_nonneg (by norm_num), roundMagnitude, ulp, ulpExponent_sample, hinteger]
  norm_num

/-- 0.29 is a little less in binary, which shows once it is scaled up. -/
theorem not_notTooSmall_sample : ¬ NotTooSmall 2 29 := by
  have hfactor : roundBinary (10 ^ 2) = 100 := by
    have hexact := roundBinary_natCast (show 100 < 2 ^ 53 by norm_num)
    norm_num at hexact ⊢
    exact hexact
  have hgap : gapBelow 29 = 2 ^ (-48 : ℤ) := by
    rw [gapBelow, show Nat.clog 2 29 = 5 by decide]
    norm_num
  have hquotient : ((29 : ℕ) : ℚ) / 10 ^ 2 = 29 / 100 := by norm_num
  rw [NotTooSmall, hquotient, roundBinary_sample, hfactor, hgap]
  norm_num

/-- An octal number below zero, a number in bits, and 29 with two decimals do not come back. -/
theorem not_roundTrips_samples :
    ¬ RoundTrips plainTable (numberConvention .octal) (sampleNumber (-8) (by decide)) ∧
      ¬ RoundTrips plainTable (numberConvention .binary) (sampleNumber 5 (by decide)) ∧
      ¬ RoundTrips plainTable (numberConvention (.decimals 2)) (sampleNumber 29 (by decide)) := by
  refine ⟨?_, not_roundTrips_binary rfl, ?_⟩
  · rw [roundTrips_octal_iff (fun _ ↦ rfl) rfl]
    decide
  · have hsplit : splitHint (numberConvention (.decimals 2)).displayHint =
        (['d'], some (Nat.toDigits 10 2)) := splitHint_decimals 2
    rw [roundTrips_decimals_iff (fun _ ↦ rfl) hsplit (readPrecision_of_le (by norm_num))
      (by norm_num)]
    exact not_notTooSmall_sample

end Samples

end Pysnmp.Smi.DisplayHint
