import Pysnmp.Foundation.Binary64
import Pysnmp.Foundation.Numeral

/-!
# Decimal fractions

Numbers as text with a fixed number of decimal places, and a reader of decimal fractions that allows
white space around the text, a sign, single underscores between digits, and an exponent.

`readFloat_decimals`: what is written of a number of units of the last place is read back.
-/

set_option autoImplicit false
set_option relaxedAutoImplicit false

namespace Pysnmp.Foundation.Decimal

open Numeral Binary64

/-! ### Writing and reading -/

/-- The digits after the point. -/
def fractionDigits (places units : ℕ) : List Char :=
  (Nat.toDigits 10 (units % 10 ^ places)).leftpad places '0'

/-- A number of units of the last of some decimal places. -/
def decimals (places units : ℕ) : List Char :=
  Nat.toDigits 10 (units / 10 ^ places) ++
    if places = 0 then [] else '.' :: fractionDigits places units

/-- A number rounded to some decimal places. -/
def formatFixed (places : ℕ) (q : ℚ) : List Char :=
  if q < 0 then
    '-' :: decimals places (roundHalfEven (-q * 10 ^ places)).toNat
  else
    decimals places (roundHalfEven (q * 10 ^ places)).toNat

/-- Drop the underscores that follow a character, each of which has to be between two digits. -/
def dropUnderscores : Char → List Char → Option (List Char)
  | previous, [] => if previous = '_' then none else some []
  | previous, char :: rest =>
    if char = '_' then
      if previous.isDigit then dropUnderscores char rest else none
    else if previous = '_' ∧ ¬ char.isDigit then
      none
    else
      (dropUnderscores char rest).map (List.cons char)

/-- Take the sign off a text. -/
def readSign : List Char → ℤ × List Char
  | '-' :: rest => (-1, rest)
  | '+' :: rest => (1, rest)
  | rest => (1, rest)

/-- Take the digits of a fraction off a text. -/
def readFraction : List Char → List Char × List Char
  | '.' :: rest => (rest.takeWhile Char.isDigit, rest.dropWhile Char.isDigit)
  | rest => ([], rest)

/-- Read the exponent at the end of a text. -/
def readExponent : List Char → Option ℤ
  | [] => some 0
  | char :: rest =>
    let (sign, digits) := readSign rest
    if (char = 'e' ∨ char = 'E') ∧ digits ≠ [] ∧ digits.all Char.isDigit then
      some (sign * Nat.ofDigitChars 10 digits 0)
    else
      none

/-- Read a number without its sign. -/
def readMagnitude (text : List Char) : Option ℚ :=
  let whole := text.takeWhile Char.isDigit
  let (fraction, rest) := readFraction (text.dropWhile Char.isDigit)
  if whole ++ fraction = [] then
    none
  else
    (readExponent rest).map fun exponent : ℤ ↦
      (Nat.ofDigitChars 10 (whole ++ fraction) 0 : ℚ) * 10 ^ (exponent - fraction.length)

/-- Read a finite number. -/
def readFloat (table : CharacterTable) (text : List Char) : Option ℚ :=
  (dropUnderscores ' ' (strip (text.map table.toAscii))).bind fun plain ↦
    let (sign, magnitude) := readSign plain
    (readMagnitude magnitude).map fun q ↦ sign * q

/-! ### What is written is read -/

section RoundTrip

variable {table : CharacterTable} {places units : ℕ}

theorem dropUnderscores_eq_self {previous : Char} {text : List Char} (hprevious : previous ≠ '_')
    (htext : '_' ∉ text) : dropUnderscores previous text = some text := by
  induction text generalizing previous with
  | nil => rw [dropUnderscores, if_neg hprevious]
  | cons char rest ih =>
    have hchar : char ≠ '_' := fun heq ↦ htext (heq ▸ List.mem_cons_self)
    have hrest : '_' ∉ rest := fun hmem ↦ htext (List.mem_cons_of_mem _ hmem)
    rw [dropUnderscores, if_neg hchar, if_neg fun hboth ↦ hprevious hboth.1, ih hchar hrest,
      Option.map_some]

theorem isDigit_of_mem_fractionDigits {char : Char} (hmem : char ∈ fractionDigits places units) :
    char.isDigit := by
  rcases List.mem_append.mp hmem with hzero | hdigit
  · rw [List.eq_of_mem_replicate hzero]
    decide
  · exact Nat.isDigit_of_mem_toDigits (by norm_num) (by norm_num) hdigit

theorem length_fractionDigits (units : ℕ) (hplaces : 0 < places) :
    (fractionDigits places units).length = places := by
  have hlength := (Nat.length_toDigits_le_iff (b := 10) (by norm_num) hplaces).mpr
    (Nat.mod_lt units (pow_pos (by norm_num) places))
  rw [fractionDigits, List.length_leftpad]
  exact max_eq_left hlength

theorem ofDigitChars_fractionDigits (start : ℕ) (hplaces : 0 < places) :
    Nat.ofDigitChars 10 (fractionDigits places units) start =
      10 ^ places * start + units % 10 ^ places := by
  have hlength := length_fractionDigits units hplaces
  rw [Nat.ofDigitChars_eq_ofDigitChars_zero, hlength, fractionDigits, List.leftpad,
    Nat.ofDigitChars_append, Nat.ofDigitChars_replicate_zero, Nat.mul_zero,
    Nat.ofDigitChars_ten_toDigits]

theorem isDigit_or_point {char : Char} (hmem : char ∈ decimals places units) :
    char.isDigit ∨ char = '.' := by
  rcases List.mem_append.mp hmem with hwhole | hfraction
  · exact Or.inl (Nat.isDigit_of_mem_toDigits (by norm_num) (by norm_num) hwhole)
  · split_ifs at hfraction with hplaces
    · exact absurd hfraction List.not_mem_nil
    · rcases List.mem_cons.mp hfraction with rfl | hdigit
      · exact Or.inr rfl
      · exact Or.inl (isDigit_of_mem_fractionDigits hdigit)

/-- Nothing in a decimal fraction is a space, a sign or an underscore. -/
theorem plain_of_isDigit_or_point {char : Char} (hchar : char.isDigit ∨ char = '.') :
    char.toNat < 127 ∧ isAsciiSpace char = false ∧ char ≠ '_' ∧ char ≠ '-' ∧ char ≠ '+' := by
  rcases hchar with hdigit | rfl
  · have hrange : 48 ≤ char.toNat ∧ char.toNat ≤ 57 := Char.isDigit_iff_toNat.mp hdigit
    have hne (other : Char) (hother : other.toNat < 48 ∨ 57 < other.toNat) : char ≠ other := by
      rintro rfl
      omega
    have hspace : isAsciiSpace char = false := by
      have hblank := hne ' ' (by decide)
      simp only [isAsciiSpace, Bool.or_eq_false_iff, Bool.and_eq_false_iff, decide_eq_false_iff_not]
      exact ⟨hblank, Or.inr (by omega)⟩
    exact ⟨by omega, hspace, hne _ (by decide), hne _ (by decide), hne _ (by decide)⟩
  · decide

theorem plain_decimals : Plain (decimals places units) := by
  intro char hmem
  obtain ⟨hascii, hspace, -⟩ := plain_of_isDigit_or_point (isDigit_or_point hmem)
  exact ⟨hascii, hspace⟩

theorem underscore_not_mem_decimals : '_' ∉ decimals places units := fun hmem ↦
  (plain_of_isDigit_or_point (isDigit_or_point hmem)).2.2.1 rfl

theorem readSign_decimals : readSign (decimals places units) = (1, decimals places units) := by
  have hsign (char : Char) (hmem : char ∈ decimals places units) : char ≠ '-' ∧ char ≠ '+' :=
    (plain_of_isDigit_or_point (isDigit_or_point hmem)).2.2.2
  unfold readSign
  split
  · next heq =>
    rw [heq] at hsign
    exact absurd rfl (hsign '-' List.mem_cons_self).1
  · next heq =>
    rw [heq] at hsign
    exact absurd rfl (hsign '+' List.mem_cons_self).2
  · rfl

theorem readMagnitude_decimals :
    readMagnitude (decimals places units) = some ((units : ℚ) / 10 ^ places) := by
  have hwhole (char : Char) (hmem : char ∈ Nat.toDigits 10 (units / 10 ^ places)) : char.isDigit :=
    Nat.isDigit_of_mem_toDigits (by norm_num) (by norm_num) hmem
  have hnonempty : Nat.toDigits 10 (units / 10 ^ places) ≠ [] := Nat.toDigits_ne_nil
  rw [readMagnitude, decimals, List.takeWhile_append_of_pos hwhole,
    List.dropWhile_append_of_pos hwhole]
  split_ifs with hplaces
  · subst hplaces
    simp [readFraction, readExponent]
  · have hplaces' : 0 < places := Nat.pos_of_ne_zero hplaces
    have hdigits (char : Char) (hmem : char ∈ fractionDigits places units) : char.isDigit :=
      isDigit_of_mem_fractionDigits hmem
    have hpoint : ¬ ('.' : Char).isDigit := by decide
    have hfraction : readFraction ('.' :: fractionDigits places units) =
        (fractionDigits places units, []) := by
      rw [readFraction, List.takeWhile_eq_self_iff.mpr hdigits,
        List.dropWhile_eq_nil_iff.mpr hdigits]
    have hvalue : Nat.ofDigitChars 10
        (Nat.toDigits 10 (units / 10 ^ places) ++ fractionDigits places units) 0 = units := by
      rw [Nat.ofDigitChars_append, Nat.ofDigitChars_ten_toDigits,
        ofDigitChars_fractionDigits _ hplaces']
      exact Nat.div_add_mod units (10 ^ places)
    rw [List.takeWhile_cons_of_neg hpoint, List.dropWhile_cons_of_neg hpoint, List.append_nil]
    rw [hfraction]
    show (if Nat.toDigits 10 (units / 10 ^ places) ++ fractionDigits places units = [] then none
      else _) = _
    rw [if_neg (List.append_ne_nil_of_left_ne_nil hnonempty _), hvalue,
      length_fractionDigits units hplaces', readExponent, Option.map_some, zero_sub, zpow_neg,
      zpow_natCast, div_eq_mul_inv]

theorem readFloat_decimals :
    readFloat table (decimals places units) = some ((units : ℚ) / 10 ^ places) := by
  rw [readFloat, strip_map_toAscii plain_decimals,
    dropUnderscores_eq_self (by decide) underscore_not_mem_decimals, Option.bind_some,
    readSign_decimals]
  show (readMagnitude (decimals places units)).map _ = _
  rw [readMagnitude_decimals, Option.map_some, Int.cast_one, one_mul]

theorem readFloat_neg_decimals :
    readFloat table ('-' :: decimals places units) = some (-((units : ℚ) / 10 ^ places)) := by
  have hplain : Plain ('-' :: decimals places units) := by
    intro char hmem
    rcases List.mem_cons.mp hmem with rfl | hlater
    · decide
    · exact plain_decimals char hlater
  have hunderscore : '_' ∉ '-' :: decimals places units := by
    rw [List.mem_cons, not_or]
    exact ⟨by decide, underscore_not_mem_decimals⟩
  rw [readFloat, strip_map_toAscii hplain, dropUnderscores_eq_self (by decide) hunderscore]
  show (readMagnitude (decimals places units)).map (fun q ↦ ((-1 : ℤ) : ℚ) * q) = _
  rw [readMagnitude_decimals, Option.map_some, Int.cast_neg, Int.cast_one, neg_one_mul]

end RoundTrip

end Pysnmp.Foundation.Decimal
