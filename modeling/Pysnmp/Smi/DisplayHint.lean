import Pysnmp.Foundation.BigEndian
import Pysnmp.Foundation.Decimal
import Pysnmp.Foundation.Loop
import Pysnmp.Proto.Types

/-!
# Display hints

`TextualConvention` of `SNMPv2-TC`: what `prettyOut` makes of a value under a `DISPLAY-HINT`, and
how `prettyIn` reads the text of a number. Both loops of `prettyOut` are kept as loops: that over
the bits of a number, and that over the octet formats of a hint, which begins again with the first
format as long as there are octets left.
-/

set_option autoImplicit false
set_option relaxedAutoImplicit false

namespace Pysnmp.Smi.DisplayHint

open Foundation Foundation.Binary64 Foundation.Decimal Foundation.Numeral Proto

/-! ### Values and conventions -/

/-- The types whose values a hint renders as numbers: `INTEGER` as far as it has no names for its
values, and two more. -/
inductive NumericType
  | integer
  | unsigned32
  | timeTicks
  deriving DecidableEq, Repr

/-- The least value of a type. -/
def NumericType.least : NumericType → ℤ
  | .integer => -2147483648
  | .unsigned32 => 0
  | .timeTicks => 0

/-- The greatest value of a type. -/
def NumericType.greatest : NumericType → ℤ
  | .integer => 2147483647
  | .unsigned32 => 4294967295
  | .timeTicks => 4294967295

/-- A number of a type. -/
abbrev NumericType.Number (type : NumericType) : Type :=
  {number : ℤ // type.least ≤ number ∧ number ≤ type.greatest}

/-- A value as `prettyOut` tells them apart, with the values of all other types in one. -/
inductive Value (ν : Type)
  | numeric (type : NumericType) (number : type.Number)
  | octetString (octets : {octets : Octets // octets.length ≤ 65535})
  | other (value : ν)

/-- The exceptions of rendering and reading, with what an `SmiError` quotes in its text. -/
inductive HintError
  | floatEvaluation
  | integerEvaluation
  | octalEvaluation
  | binaryEvaluation
  | unsupportedNumericType (displayHintType : List Char)
  | badOctetLength (octetLength : List Char)
  | shortOctetLength (displayHint : List Char)
  | unsupportedDisplayFormat (displayFormat : Char)
  | valueError
  | pyAsn1Error
  deriving DecidableEq, Repr

/-- A textual convention: its hint, and what its base type does without one. -/
structure TextualConvention (ν : Type) where
  displayHint : List Char
  basePrettyOut : Value ν → Except HintError (List Char)
  basePrettyIn : ℤ → Except HintError ℤ

/-! ### Numbers -/

/-- The part of a hint for numbers before the first `-`, and that after it. -/
def splitHint (displayHint : List Char) : List Char × Option (List Char) :=
  match displayHint.splitOn '-' with
  | displayHintType :: decimalPrecision :: _ => (displayHintType, some decimalPrecision)
  | [displayHintType] => (displayHintType, none)
  | [] => ([], none)

/-- The number of decimals. There is no `-` left in its text. -/
def readPrecision (table : CharacterTable) : Option (List Char) → Option ℕ
  | none => some 0
  | some decimalPrecision => (readInt table maxStrDigits 10 decimalPrecision).map Int.toNat

/-- `float(value) / pow(10, precision)` -/
def scaleDown (value : ℤ) (precision : ℕ) : Option ℚ := do
  let number ← nearest value
  let divisor ← nearest (10 ^ precision)
  nearest (number / divisor)

/-- `int(float(value) * 10 ** precision)` for the exact value of a text. -/
def scaleUp (exact : ℚ) (precision : ℕ) : Option ℤ := do
  let number ← nearest exact
  let factor ← nearest (10 ^ precision)
  let product ← nearest (number * factor)
  some (if product < 0 then ⌈product⌉ else ⌊product⌋)

/-- Render a number under a hint `d`. -/
def decimalOut (table : CharacterTable) (decimalPrecision : Option (List Char)) (value : ℤ) :
    Except HintError (List Char) :=
  let rendered : Option (List Char) := do
    let precision ← readPrecision table decimalPrecision
    let quotient ← scaleDown value precision
    some (formatFixed precision quotient)
  match rendered with
  | some text => .ok text
  | none => .error .floatEvaluation

/-- Read a number under a hint `d`. -/
def decimalIn (table : CharacterTable) (decimalPrecision : Option (List Char))
    (text : List Char) : Option ℤ := do
  let exact ← readFloat table text
  let precision ← readPrecision table decimalPrecision
  scaleUp exact precision

/-- `prettyIn` for a text, where the hint renders numbers. -/
def prettyIn {ν : Type} (table : CharacterTable) (convention : TextualConvention ν)
    (text : List Char) : Except HintError ℤ :=
  let (displayHintType, decimalPrecision) := splitHint convention.displayHint
  let evaluate (exception : HintError) (number : Option ℤ) : Except HintError ℤ :=
    match number.map convention.basePrettyIn with
    | some (.ok number) => .ok number
    | _ => .error exception
  if displayHintType = ['x'] ∧ ['0', 'x'] <+: text then
    evaluate .integerEvaluation (readInt table maxStrDigits 16 (text.drop 2))
  else if displayHintType = ['x'] ∧ ['-', '0', 'x'] <+: text then
    evaluate .integerEvaluation
      ((readInt table maxStrDigits 16 (text.drop 3)).map fun number ↦ -number)
  else if displayHintType = ['d'] then
    evaluate .floatEvaluation (decimalIn table decimalPrecision text)
  else if displayHintType = ['o'] ∧ (['0'] <+: text ∨ ['-', '0'] <+: text) then
    evaluate .octalEvaluation (readInt table maxStrDigits 8 text)
  else if displayHintType = ['b'] ∧ (['B'] <+: text ∨ ['-', 'B'] <+: text) then
    if ['-'] <+: text then
      match readInt table maxStrDigits 2 (text.drop 2) with
      | some binValue => convention.basePrettyIn (-binValue)
      | none => .error .binaryEvaluation
    else
      match readInt table maxStrDigits 2 (text.drop 1) with
      | some binValue => convention.basePrettyIn binValue
      | none => .error .binaryEvaluation
  else
    .error (.unsupportedNumericType displayHintType)

/-! ### Octet formats -/

/-- One octet format of a hint. -/
structure OctetFormat where
  repeated : Bool
  octetLength : Option ℕ
  displayFormat : Char
  displaySep : Option Char
  repeatTerminator : Option Char

/-- The octet length that digits give, if there are any. -/
def readOctetLength (digits : List Char) : Except HintError (Option ℕ) :=
  if digits = [] then
    .ok none
  else if maxStrDigits < digits.length then
    .error (.badOctetLength digits)
  else
    .ok (some (Nat.ofDigitChars 10 digits 0))

/-- A character that separates, which no octet format begins with. -/
def IsSeparator (char : Char) : Prop :=
  ¬ char.isDigit ∧ char ≠ '*'

instance (char : Char) : Decidable (IsSeparator char) :=
  inferInstanceAs (Decidable (_ ∧ _))

/-- Take a separator off a hint. -/
def readSeparator : List Char → Option Char × List Char
  | [] => (none, [])
  | char :: rest => if IsSeparator char then (some char, rest) else (none, char :: rest)

/-- Take the terminator of a repetition off a hint, after the separator, which it replaces. -/
def readTerminator (repeated : Bool) (displaySep : Option Char) :
    List Char → Option Char × Option Char × List Char
  | [] => (displaySep, none, [])
  | char :: rest =>
    if displaySep.isSome ∧ repeated then
      (none, some char, rest)
    else
      (displaySep, none, char :: rest)

/-- Take the `*` off a hint. -/
def readStar : List Char → Bool × List Char
  | '*' :: rest => (true, rest)
  | rest => (false, rest)

/-- Take the next octet format off what is left of a hint. -/
def readFormat (hint displayHint : List Char) : Except HintError (OctetFormat × List Char) := do
  let (repeated, afterStar) := readStar displayHint
  let octetLength ← readOctetLength (afterStar.takeWhile Char.isDigit)
  match afterStar.dropWhile Char.isDigit with
  | [] => .error (.shortOctetLength hint)
  | displayFormat :: afterFormat =>
    let (separator, afterSeparator) := readSeparator afterFormat
    let (displaySep, repeatTerminator, rest) := readTerminator repeated separator afterSeparator
    .ok (⟨repeated, octetLength, displayFormat, displaySep, repeatTerminator⟩, rest)

/-! ### Octets -/

/-- `decode("ascii", "ignore")` -/
def decodeAscii (octets : Octets) : List Char :=
  (octets.filter fun octet ↦ octet < 128).map fun octet ↦ Char.ofNat octet.toNat

/-- The character with a lead octet and a number of octets after that, if it needs so many. -/
def utf8Sequence (lead least count : ℕ) (rest : List ℕ) : Option Char :=
  let trail := rest.take count
  let codePoint := trail.foldl (fun value octet ↦ value * 64 + (octet - 128)) lead
  if trail.length = count ∧ (∀ octet ∈ trail, 128 ≤ octet ∧ octet < 192) ∧ least ≤ codePoint ∧
      codePoint.isValidChar then
    some (Char.ofNat codePoint)
  else
    none

/-- The character that octets begin with. -/
def utf8Head (octets : Octets) : Option Char :=
  match octets.map UInt8.toNat with
  | [] => none
  | first :: rest =>
    if first < 128 then some (Char.ofNat first)
    else if first < 192 then none
    else if first < 224 then utf8Sequence (first - 192) 128 1 rest
    else if first < 240 then utf8Sequence (first - 224) 2048 2 rest
    else if first < 248 then utf8Sequence (first - 240) 65536 3 rest
    else none

/-- `decode("utf-8", "ignore")`. No character begins with an octet from within another one. -/
def decodeUtf8 (octets : Octets) : List Char :=
  octets.tails.filterMap utf8Head

/-- Octets in one of the display formats. -/
def renderOctets (displayFormat : Char) (octets : Octets) : Except HintError (List Char) :=
  let number := BigEndian.fromBytes octets
  if displayFormat = 'a' then
    .ok (decodeAscii octets)
  else if displayFormat = 't' then
    .ok (decodeUtf8 octets)
  else if displayFormat = 'x' then
    .ok ((Nat.toDigits 16 number).leftpad 2 '0')
  else if displayFormat = 'o' then
    .ok ((Nat.toDigits 8 number).leftpad 3 '0')
  else if displayFormat = 'd' then
    if maxStrDigits < (Nat.toDigits 10 number).length then
      .error .valueError
    else
      .ok (Nat.toDigits 10 number)
  else
    .error (.unsupportedDisplayFormat displayFormat)

/-- The loop over `repeatCount`. -/
def renderRepeated (format : OctetFormat) (octetLength : ℕ) :
    ℕ → List Char → Octets → Except HintError (List Char × Octets)
  | 0, outputValue, runningValue => .ok (outputValue, runningValue)
  | repeatCount + 1, outputValue, runningValue => do
    let text ← renderOctets format.displayFormat (runningValue.take octetLength)
    let terminator := if runningValue = [] then [] else format.repeatTerminator.toList
    renderRepeated format octetLength repeatCount (outputValue ++ text ++ terminator)
      (runningValue.drop octetLength)

/-! ### `prettyOut` -/

/-- The variables of the loop over octet formats. -/
structure Rendering where
  outputValue : List Char
  runningValue : Octets
  displayHint : List Char

/-- Render octets under a format, the first of them being the number of repetitions after a `*`. -/
def applyFormat (format : OctetFormat) (rendering : Rendering) :
    Except HintError (List Char × Octets) := do
  let runningValue :=
    if format.repeated then rendering.runningValue.tail else rendering.runningValue
  let repeatCount := if format.repeated then (rendering.runningValue.headD 0).toNat else 1
  let octetLength := format.octetLength.getD runningValue.length
  let (outputValue, runningValue) ←
    renderRepeated format octetLength repeatCount rendering.outputValue runningValue
  let separator := if runningValue = [] then [] else format.displaySep.toList
  .ok (outputValue ++ separator, runningValue)

/-- One turn of the loop over octet formats. -/
def renderFormat (hint : List Char) (rendering : Rendering) : Except HintError Rendering := do
  let (format, rest) ← readFormat hint rendering.displayHint
  let (outputValue, runningValue) ← applyFormat format rendering
  .ok ⟨outputValue, runningValue, if rest = [] then hint else rest⟩

/-- Where `prettyOut` is: at its beginning, or before a turn of one of its loops. -/
inductive Progress (ν : Type)
  | start (value : Value ν)
  | bits (runningValue : ℤ) (outputValue : List Char)
  | octets (rendering : Rendering)

section PrettyOut

variable {ν : Type} (table : CharacterTable) (convention : TextualConvention ν)

/-- The beginning of `prettyOut` for a number. -/
def startNumber (value : ℤ) : Progress ν ⊕ Except HintError (List Char) :=
  let (displayHintType, decimalPrecision) := splitHint convention.displayHint
  if displayHintType = ['x'] then
    .inr (.ok ('0' :: 'x' :: numeral 16 value))
  else if displayHintType = ['d'] then
    .inr (decimalOut table decimalPrecision value)
  else if displayHintType = ['o'] then
    .inr (.ok ('0' :: numeral 8 value))
  else if displayHintType = ['b'] then
    .inl (.bits value ['B'])
  else
    .inr (.error (.unsupportedNumericType displayHintType))

/-- What `prettyOut` does next. -/
def turn : Progress ν → Progress ν ⊕ Except HintError (List Char)
  | .start value =>
    if convention.displayHint = [] then
      .inr (convention.basePrettyOut value)
    else
      match value with
      | .numeric _ number => startNumber table convention number.val
      | .octetString octets => .inl (.octets ⟨[], octets.val, convention.displayHint⟩)
      | .other _ => .inr (convention.basePrettyOut value)
  | .bits runningValue outputValue =>
    if runningValue = 0 then
      .inr (.ok outputValue)
    else
      .inl (.bits (runningValue / 2) (numeral 10 (runningValue % 2) ++ outputValue))
  | .octets rendering =>
    if rendering.runningValue = [] ∨ rendering.displayHint = [] then
      .inr (.ok rendering.outputValue)
    else
      match renderFormat convention.displayHint rendering with
      | .ok next => .inl (.octets next)
      | .error exception => .inr (.error exception)

/-- What `prettyOut` has come to in a number of turns. -/
def prettyOut (turns : ℕ) (value : Value ν) : Option (Except HintError (List Char)) :=
  Loop.within (turn table convention) turns (.start value)

end PrettyOut

end Pysnmp.Smi.DisplayHint
