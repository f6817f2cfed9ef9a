import Mathlib.Data.List.DropRight
import Mathlib.Tactic

/-!
# Numerals

Integers as text. `numeral base` writes the sign and the digits. `readInt` is a reader that allows
white space around the text, a prefix that names the base, single underscores between digits, and
spaces and decimal digits of other scripts, which a `CharacterTable` tells; where a base is not a
power of two it takes no more than a given number of digits.

`readInt_numeral`: what is written is read back.
-/

set_option autoImplicit false
set_option relaxedAutoImplicit false

namespace Pysnmp.Foundation.Numeral

/-! ### Characters -/

/-- Which characters beyond ASCII are spaces, and which are decimal digits. -/
structure CharacterTable where
  isSpace : Char → Bool
  decimal : Char → Option (Fin 10)

/-- A character of another script as the space or the digit it stands for. -/
def CharacterTable.toAscii (table : CharacterTable) (char : Char) : Char :=
  if char.toNat < 127 then
    char
  else if table.isSpace char then
    ' '
  else
    match table.decimal char with
    | some digit => Nat.digitChar digit
    | none => '?'

/-- The white space of ASCII. -/
def isAsciiSpace (char : Char) : Bool :=
  char = ' ' || (9 ≤ char.toNat && char.toNat ≤ 13)

/-- A text without the white space at its ends. -/
def strip (text : List Char) : List Char :=
  (text.dropWhile isAsciiSpace).rdropWhile isAsciiSpace

/-- The value of a digit in the bases up to 36. -/
def digitValue (char : Char) : ℕ :=
  if '0' ≤ char ∧ char ≤ '9' then
    char.toNat - '0'.toNat
  else if 'a' ≤ char ∧ char ≤ 'z' then
    char.toNat - 'a'.toNat + 10
  else if 'A' ≤ char ∧ char ≤ 'Z' then
    char.toNat - 'A'.toNat + 10
  else
    36

/-! ### Writing and reading -/

/-- An integer as text. -/
def numeral (base : ℕ) (number : ℤ) : List Char :=
  if number < 0 then
    '-' :: Nat.toDigits base number.natAbs
  else
    Nat.toDigits base number.natAbs

/-- Read digits to the end of the text, an underscore only between two of them. -/
def readDigits (base : ℕ) : ℕ → Bool → List Char → Option ℕ
  | value, afterDigit, [] => if afterDigit then some value else none
  | value, afterDigit, char :: rest =>
    if char = '_' then
      if afterDigit then readDigits base value false rest else none
    else if digitValue char < base then
      readDigits base (value * base + digitValue char) true rest
    else
      none

/-- The character that names a base after a zero. -/
def basePrefix : ℕ → List Char
  | 2 => ['b', 'B']
  | 8 => ['o', 'O']
  | 16 => ['x', 'X']
  | _ => []

/-- A text without the prefix of its base, and an underscore after that. -/
def dropPrefix (base : ℕ) : List Char → List Char
  | '0' :: char :: rest =>
    if char ∈ basePrefix base then
      match rest with
      | '_' :: rest => rest
      | rest => rest
    else
      '0' :: char :: rest
  | text => text

/-- Read a number without its sign. -/
def readNat (maxDigits base : ℕ) (text : List Char) : Option ℕ :=
  let digits := dropPrefix base text
  if base ∉ [2, 4, 8, 16, 32] ∧ maxDigits < (digits.filter (· ≠ '_')).length then
    none
  else
    readDigits base 0 false digits

/-- Python reads and writes no more decimal digits than this as one number. -/
def maxStrDigits : ℕ := 4300

/-- Read an integer. -/
def readInt (table : CharacterTable) (maxDigits base : ℕ) (text : List Char) : Option ℤ :=
  match strip (text.map table.toAscii) with
  | '-' :: rest => (readNat maxDigits base rest).map fun value : ℕ ↦ -(value : ℤ)
  | '+' :: rest => (readNat maxDigits base rest).map Nat.cast
  | rest => (readNat maxDigits base rest).map Nat.cast

/-! ### Digits -/

section Digits

variable {base : ℕ}

theorem digitValue_digitChar {digit : ℕ} (hdigit : digit < 16) :
    digitValue (Nat.digitChar digit) = digit := by
  interval_cases digit <;> rfl

/-- The digits of a base up to 16 are plain characters. -/
theorem digitChar_plain {digit : ℕ} (hdigit : digit < 16) :
    (Nat.digitChar digit).toNat < 127 ∧ isAsciiSpace (Nat.digitChar digit) = false ∧
      Nat.digitChar digit ≠ '_' ∧ Nat.digitChar digit ≠ '-' ∧ Nat.digitChar digit ≠ '+' := by
  interval_cases digit <;> decide

/-- The digits of a number are digits of the base. -/
theorem exists_of_mem_toDigits (hbase : 1 < base) (number : ℕ) {char : Char}
    (hmem : char ∈ Nat.toDigits base number) : ∃ digit < base, char = Nat.digitChar digit := by
  induction number using Nat.strong_induction_on with
  | _ number ih =>
    rw [Nat.toDigits_eq_if hbase] at hmem
    split_ifs at hmem with hsmall
    · exact ⟨number, hsmall, List.mem_singleton.mp hmem⟩
    · rcases List.mem_append.mp hmem with hearlier | hlast
      · exact ih (number / base) (Nat.div_lt_self (by omega) hbase) hearlier
      · exact ⟨number % base, Nat.mod_lt _ (by omega), List.mem_singleton.mp hlast⟩

/-- One more digit is read after what has been read. -/
theorem readDigits_append_digitChar (hbase : base ≤ 16) {digit : ℕ} (hdigit : digit < base)
    {start value : ℕ} {afterDigit : Bool} {text : List Char}
    (hread : readDigits base start afterDigit text = some value) :
    readDigits base start afterDigit (text ++ [Nat.digitChar digit]) =
      some (value * base + digit) := by
  obtain ⟨-, -, hplain, -⟩ := digitChar_plain (hdigit.trans_le hbase)
  have hvalue := digitValue_digitChar (hdigit.trans_le hbase)
  induction text generalizing start afterDigit with
  | nil =>
    rw [readDigits] at hread
    split_ifs at hread
    rw [List.nil_append, readDigits, if_neg hplain, hvalue, if_pos hdigit, readDigits,
      if_pos rfl, Option.some.inj hread]
  | cons char rest ih =>
    rw [readDigits] at hread
    rw [List.cons_append, readDigits]
    split_ifs at hread ⊢
    · exact ih hread
    · exact ih hread

theorem readDigits_toDigits (hbase : 1 < base) (hsixteen : base ≤ 16) (number : ℕ) :
    readDigits base 0 false (Nat.toDigits base number) = some number := by
  induction number using Nat.strong_induction_on with
  | _ number ih =>
    rw [Nat.toDigits_eq_if hbase]
    split_ifs with hsmall
    · obtain ⟨-, -, hplain, -⟩ := digitChar_plain (hsmall.trans_le hsixteen)
      have hvalue := digitValue_digitChar (hsmall.trans_le hsixteen)
      rw [readDigits, if_neg hplain, hvalue, if_pos hsmall, readDigits, if_pos rfl, Nat.zero_mul,
        Nat.zero_add]
    · have hearlier := ih (number / base) (Nat.div_lt_self (by omega) hbase)
      rw [readDigits_append_digitChar hsixteen (Nat.mod_lt _ (by omega)) hearlier,
        Nat.div_add_mod']

/-- Nothing in the digits of a number is a space, a sign or an underscore. -/
theorem plain_of_mem_toDigits (hbase : 1 < base) (hsixteen : base ≤ 16) {number : ℕ} {char : Char}
    (hmem : char ∈ Nat.toDigits base number) :
    char.toNat < 127 ∧ isAsciiSpace char = false ∧ char ≠ '_' ∧ char ≠ '-' ∧ char ≠ '+' := by
  obtain ⟨digit, hdigit, rfl⟩ := exists_of_mem_toDigits hbase number hmem
  exact digitChar_plain (hdigit.trans_le hsixteen)

end Digits

/-! ### What is written is read -/

section RoundTrip

variable {base : ℕ} {table : CharacterTable} {maxDigits : ℕ}

/-- A text of plain characters, without white space. -/
def Plain (text : List Char) : Prop :=
  ∀ char ∈ text, char.toNat < 127 ∧ isAsciiSpace char = false

theorem strip_map_toAscii {text : List Char} (hplain : Plain text) :
    strip (text.map table.toAscii) = text := by
  have hascii : ∀ char ∈ text, table.toAscii char = id char :=
    fun char hchar ↦ if_pos (hplain char hchar).1
  have hleft : text.dropWhile isAsciiSpace = text := by
    cases text with
    | nil => rfl
    | cons first rest =>
      rw [List.dropWhile_cons, (hplain first List.mem_cons_self).2]
      rfl
  rw [List.map_congr_left hascii, List.map_id, strip, hleft, List.rdropWhile_eq_self_iff]
  intro hne
  rw [(hplain _ (List.getLast_mem hne)).2]
  exact Bool.false_ne_true

theorem plain_toDigits (hbase : 1 < base) (hsixteen : base ≤ 16) (number : ℕ) :
    Plain (Nat.toDigits base number) := by
  intro char hmem
  obtain ⟨hascii, hspace, -⟩ := plain_of_mem_toDigits hbase hsixteen hmem
  exact ⟨hascii, hspace⟩

theorem plain_numeral (hbase : 1 < base) (hsixteen : base ≤ 16) (number : ℤ) :
    Plain (numeral base number) := by
  have hdigits := plain_toDigits hbase hsixteen number.natAbs
  unfold numeral
  split_ifs
  · intro char hmem
    rcases List.mem_cons.mp hmem with rfl | hdigit
    · decide
    · exact hdigits char hdigit
  · exact hdigits

/-- The character after a prefix's zero is no digit of the base. -/
theorem not_mem_basePrefix (hbase : base ∈ [2, 8, 10, 16]) {number : ℕ} {char : Char}
    (hmem : char ∈ Nat.toDigits base number) : char ∉ basePrefix base := by
  have hdigits : ∀ base ∈ [2, 8, 10, 16], ∀ digit < base,
      Nat.digitChar digit ∉ basePrefix base := by
    decide
  obtain ⟨digit, hdigit, rfl⟩ := exists_of_mem_toDigits
    (show 1 < base by fin_cases hbase <;> decide) number hmem
  exact hdigits base hbase digit hdigit

/-- The digits of a number do not begin with the prefix of their base. -/
theorem dropPrefix_of_digits {text : List Char} (htext : ∀ char ∈ text, char ∉ basePrefix base) :
    dropPrefix base text = text := by
  unfold dropPrefix
  split
  · next char rest =>
    rw [if_neg (htext char (by simp))]
  · rfl

/-- The digits of a number are read as the number. -/
theorem readNat_toDigits (hbase : base ∈ [2, 8, 10, 16]) {number : ℕ}
    (hdigits : base = 10 → (Nat.toDigits base number).length ≤ maxDigits) :
    readNat maxDigits base (Nat.toDigits base number) = some number := by
  have hone : 1 < base := by fin_cases hbase <;> decide
  have hsixteen : base ≤ 16 := by fin_cases hbase <;> decide
  have hfits : ¬ (base ∉ [2, 4, 8, 16, 32] ∧
      maxDigits < ((Nat.toDigits base number).filter (· ≠ '_')).length) := by
    rintro ⟨hten, hlong⟩
    have hle := hdigits (by fin_cases hbase <;> simp_all)
    exact absurd (hlong.trans_le (List.length_filter_le _ _)) (not_lt.mpr hle)
  rw [readNat, dropPrefix_of_digits fun _ ↦ not_mem_basePrefix hbase]
  exact (if_neg hfits).trans (readDigits_toDigits hone hsixteen number)

/-- A text without a sign is read as its digits. -/
theorem readInt_of_unsigned {text : List Char} (hplain : Plain text)
    (hunsigned : ∀ char ∈ text.head?, char ≠ '-' ∧ char ≠ '+') :
    readInt table maxDigits base text = (readNat maxDigits base text).map Nat.cast := by
  rw [readInt, strip_map_toAscii hplain]
  split
  · exact absurd rfl (hunsigned '-' rfl).1
  · exact absurd rfl (hunsigned '+' rfl).2
  · rfl

theorem readInt_neg {text : List Char} (hplain : Plain text) :
    readInt table maxDigits base ('-' :: text) =
      (readNat maxDigits base text).map fun value : ℕ ↦ -(value : ℤ) := by
  have hsigned : Plain ('-' :: text) := by
    intro char hmem
    rcases List.mem_cons.mp hmem with rfl | hlater
    · decide
    · exact hplain char hlater
  rw [readInt, strip_map_toAscii hsigned]
  rfl

theorem unsigned_toDigits (hbase : 1 < base) (hsixteen : base ≤ 16) (number : ℕ) :
    ∀ char ∈ (Nat.toDigits base number).head?, char ≠ '-' ∧ char ≠ '+' :=
  fun _ hmem ↦ (plain_of_mem_toDigits hbase hsixteen (List.mem_of_head? hmem)).2.2.2

/-- What is written of an integer is read as the integer. -/
theorem readInt_numeral (hbase : base ∈ [2, 8, 10, 16]) {number : ℤ}
    (hdigits : base = 10 → (Nat.toDigits base number.natAbs).length ≤ maxDigits) :
    readInt table maxDigits base (numeral base number) = some number := by
  have hone : 1 < base := by fin_cases hbase <;> decide
  have hsixteen : base ≤ 16 := by fin_cases hbase <;> decide
  have hread := readNat_toDigits hbase hdigits
  have hplain := plain_toDigits hone hsixteen number.natAbs
  rw [numeral]
  split_ifs with hnegative
  · rw [readInt_neg hplain, hread, Option.map_some]
    congr 1
    omega
  · rw [readInt_of_unsigned hplain (unsigned_toDigits hone hsixteen _), hread, Option.map_some]
    congr 1
    omega

/-- Digits that are read are read as the number, however many may be read. -/
theorem readNat_toDigits_or (hbase : base ∈ [2, 8, 10, 16]) (number : ℕ) :
    readNat maxDigits base (Nat.toDigits base number) = none ∨
      readNat maxDigits base (Nat.toDigits base number) = some number := by
  have hone : 1 < base := by fin_cases hbase <;> decide
  have hsixteen : base ≤ 16 := by fin_cases hbase <;> decide
  rw [readNat, dropPrefix_of_digits fun _ ↦ not_mem_basePrefix hbase]
  show (if _ then none else _) = none ∨ (if _ then none else _) = some number
  split_ifs
  · exact Or.inl rfl
  · exact Or.inr (readDigits_toDigits hone hsixteen number)

/-- Before the digits of a number a zero makes no difference. -/
theorem readDigits_zero_cons (hbase : 1 < base) (hsixteen : base ≤ 16) (number : ℕ) :
    readDigits base 0 false ('0' :: Nat.toDigits base number) = some number := by
  have hzero : readDigits base 0 false ('0' :: Nat.toDigits base number) =
      readDigits base 0 true (Nat.toDigits base number) := by
    rw [readDigits, if_neg (by decide), show digitValue '0' = 0 from rfl, if_pos (by omega),
      Nat.zero_mul]
  rw [hzero, ← readDigits_toDigits hbase hsixteen number]
  cases hdigits : Nat.toDigits base number with
  | nil => exact absurd hdigits Nat.toDigits_ne_nil
  | cons digit digits =>
    have hmem : digit ∈ Nat.toDigits base number := by
      rw [hdigits]
      exact List.mem_cons_self
    obtain ⟨-, -, hunderscore, -⟩ := plain_of_mem_toDigits hbase hsixteen hmem
    rw [readDigits, readDigits, if_neg hunderscore, if_neg hunderscore]

end RoundTrip

end Pysnmp.Foundation.Numeral
