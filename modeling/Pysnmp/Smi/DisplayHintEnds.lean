import Pysnmp.Foundation.Effect
import Pysnmp.Smi.DisplayHint

/-!
# Where rendering ends

`prettyOut` does not end on a negative number under a hint `b`, whose bits are shifted out for ever,
nor on octets under a hint all of whose octet formats take no octet: with `0a[` each turn appends a
bracket and leaves the octets as they are. `ends_iff_not_stuck` says that it ends on everything
else. A turn takes octets, or it takes one of those formats off the hint; what is left of the hint
is either of that kind altogether, and then the whole hint comes next, or it is not, and then a
format that takes octets is reached.
-/

set_option autoImplicit false
set_option relaxedAutoImplicit false

namespace Pysnmp.Smi.DisplayHint

open Foundation Foundation.Numeral Proto

/-! ### Formats that take no octet -/

/-- An octet format with an octet length of zero and no `*`. -/
structure ZeroFormat where
  zeros : ℕ
  displayFormat : Char
  displaySep : Option Char
  zeros_pos : 0 < zeros
  zeros_le : zeros ≤ maxStrDigits
  mem_formats : displayFormat ∈ ['a', 't', 'x', 'o', 'd']
  isSeparator : ∀ char ∈ displaySep, IsSeparator char

/-- The text of a format. -/
def ZeroFormat.text (zero : ZeroFormat) : List Char :=
  List.replicate zero.zeros '0' ++ zero.displayFormat :: zero.displaySep.toList

/-- Formats that take no octet, and nothing else. -/
inductive TakesNothing : List Char → Prop
  | single (zero : ZeroFormat) : TakesNothing zero.text
  | append (zero : ZeroFormat) {rest : List Char} :
    TakesNothing rest → TakesNothing (zero.text ++ rest)

/-- A value on which rendering goes on for ever. -/
def Stuck {ν : Type} (displayHint : List Char) : Value ν → Prop
  | .numeric _ number => (splitHint displayHint).1 = ['b'] ∧ number.val < 0
  | .octetString octets => octets.val ≠ [] ∧ TakesNothing displayHint
  | .other _ => False

/-! ### Reading a format -/

section Reading

variable {hint displayHint rest : List Char} {format : OctetFormat}

/-- A separator is one character, if there is one. -/
theorem readSeparator_eq (text : List Char) :
    text = (readSeparator text).1.toList ++ (readSeparator text).2 ∧
      ∀ char ∈ (readSeparator text).1, IsSeparator char := by
  unfold readSeparator
  split
  · exact ⟨rfl, fun _ hmem ↦ absurd hmem (Option.not_mem_none _)⟩
  · split_ifs with hseparator
    · refine ⟨rfl, fun char hmem ↦ ?_⟩
      rwa [← Option.mem_some_iff.mp hmem]
    · exact ⟨rfl, fun _ hmem ↦ absurd hmem (Option.not_mem_none _)⟩

/-- Reading a terminator takes nothing back. -/
theorem length_readTerminator_le (repeated : Bool) (displaySep : Option Char) (text : List Char) :
    (readTerminator repeated displaySep text).2.2.length ≤ text.length := by
  unfold readTerminator
  split
  · exact le_rfl
  · split_ifs
    · exact Nat.le_succ _
    · exact le_rfl

/-- A format that is not repeated has no terminator. -/
theorem readTerminator_of_single (displaySep : Option Char) (text : List Char) :
    readTerminator false displaySep text = (displaySep, none, text) := by
  unfold readTerminator
  split
  · rfl
  · rw [if_neg fun hboth ↦ Bool.false_ne_true hboth.2]

theorem length_readStar_le (text : List Char) : (readStar text).2.length ≤ text.length := by
  unfold readStar
  split
  · exact Nat.le_succ _
  · exact le_rfl

theorem readStar_of_single {text : List Char} (hstar : (readStar text).1 = false) :
    (readStar text).2 = text := by
  unfold readStar at hstar ⊢
  split at hstar
  · cases hstar
  · rfl

/-- The parts of a format that has been read. -/
theorem readFormat_ok (hread : readFormat hint displayHint = .ok (format, rest)) :
    ∃ digits separator afterSeparator,
      (readStar displayHint).2 = digits ++ format.displayFormat ::
        (separator.toList ++ afterSeparator) ∧
      (readStar displayHint).1 = format.repeated ∧ (∀ char ∈ digits, char.isDigit) ∧
      readOctetLength digits = .ok format.octetLength ∧
      (∀ char ∈ separator, IsSeparator char) ∧
      readTerminator format.repeated separator afterSeparator =
        (format.displaySep, format.repeatTerminator, rest) := by
  unfold readFormat at hread
  generalize readStar displayHint = star at hread ⊢
  obtain ⟨repeated, afterStar⟩ := star
  obtain ⟨octetLength, hlength, hread⟩ := exists_of_bind_eq_ok hread
  have hdigits (char : Char) (hmem : char ∈ afterStar.takeWhile Char.isDigit) : char.isDigit :=
    List.mem_takeWhile_imp hmem
  have hsplit : afterStar.takeWhile Char.isDigit ++ afterStar.dropWhile Char.isDigit = afterStar :=
    List.takeWhile_append_dropWhile
  cases hrest : afterStar.dropWhile Char.isDigit with
  | nil =>
    rw [hrest] at hread
    cases hread
  | cons displayFormat afterFormat =>
    rw [hrest] at hread hsplit
    obtain ⟨hseparator, hseparates⟩ := readSeparator_eq afterFormat
    cases hread
    refine ⟨_, (readSeparator afterFormat).1, (readSeparator afterFormat).2, ?_, rfl, hdigits,
      hlength, hseparates, rfl⟩
    rw [← hseparator]
    exact hsplit.symm

/-- Every format takes something off the hint. -/
theorem length_lt_of_readFormat (hread : readFormat hint displayHint = .ok (format, rest)) :
    rest.length < displayHint.length := by
  obtain ⟨digits, separator, afterSeparator, hparts, -, -, -, -, hterminator⟩ := readFormat_ok hread
  have hstar := length_readStar_le displayHint
  have hafter := length_readTerminator_le format.repeated separator afterSeparator
  rw [hterminator] at hafter
  rw [hparts, List.length_append, List.length_cons, List.length_append] at hstar
  show rest.length < displayHint.length
  have hle : rest.length ≤ afterSeparator.length := hafter
  omega

/-- Digits of the value zero are zeros. -/
theorem eq_replicate_zero {digits : List Char} (hdigits : ∀ char ∈ digits, char.isDigit)
    (hvalue : Nat.ofDigitChars 10 digits 0 = 0) : digits = List.replicate digits.length '0' := by
  induction digits with
  | nil => rfl
  | cons digit digits ih =>
    rw [Nat.ofDigitChars_cons, Nat.ofDigitChars_eq_ofDigitChars_zero, Nat.mul_zero, Nat.zero_add,
      Nat.add_eq_zero_iff, Nat.mul_eq_zero] at hvalue
    obtain ⟨hfirst, hlater⟩ := hvalue
    have hrange : 48 ≤ digit.toNat ∧ digit.toNat ≤ 57 :=
      Char.isDigit_iff_toNat.mp (hdigits digit List.mem_cons_self)
    have hdigit : digit.toNat - 48 = 0 := hfirst.resolve_left (pow_ne_zero _ (by norm_num))
    have hzero : digit = '0' := by
      apply Char.ext
      apply UInt32.toNat_inj.mp
      show digit.toNat = 48
      omega
    have hrest := ih (fun char hmem ↦ hdigits char (List.mem_cons_of_mem _ hmem)) hlater
    rw [List.length_cons, List.replicate_succ, ← hrest, hzero]

/-- What a format with an octet length of zero has taken off the hint. -/
theorem exists_zeroFormat (hread : readFormat hint displayHint = .ok (format, rest))
    (hsingle : format.repeated = false) (hlength : format.octetLength = some 0)
    (hformat : format.displayFormat ∈ ['a', 't', 'x', 'o', 'd']) :
    ∃ zero : ZeroFormat, displayHint = zero.text ++ rest := by
  obtain ⟨digits, separator, afterSeparator, hparts, hstar, hdigits, hoctets, hseparates,
    hterminator⟩ := readFormat_ok hread
  rw [readStar_of_single (hstar.trans hsingle)] at hparts
  rw [hsingle, readTerminator_of_single, Prod.mk.injEq, Prod.mk.injEq] at hterminator
  obtain ⟨-, -, rfl⟩ := hterminator
  rw [readOctetLength, hlength] at hoctets
  split_ifs at hoctets with hnone hlong
  · cases hoctets
  · have hvalue : Nat.ofDigitChars 10 digits 0 = 0 :=
      Option.some.inj (Except.ok.inj hoctets)
    refine ⟨⟨digits.length, format.displayFormat, separator, List.length_pos_of_ne_nil hnone,
      not_lt.mp hlong, hformat, hseparates⟩, ?_⟩
    rw [hparts, ZeroFormat.text, ← eq_replicate_zero hdigits hvalue, List.append_assoc,
      List.cons_append]

/-- A format that takes no octet, as it is read. -/
def ZeroFormat.octetFormat (zero : ZeroFormat) : OctetFormat :=
  ⟨false, some 0, zero.displayFormat, zero.displaySep, none⟩

theorem isDigit_zero : ('0' : Char).isDigit := by
  decide

theorem ZeroFormat.not_isDigit (zero : ZeroFormat) : ¬ zero.displayFormat.isDigit := by
  have hformat := zero.mem_formats
  generalize zero.displayFormat = displayFormat at hformat
  fin_cases hformat <;> decide

theorem ZeroFormat.exists_text_eq (zero : ZeroFormat) : ∃ more, zero.text = '0' :: more := by
  refine ⟨List.replicate (zero.zeros - 1) '0' ++ zero.displayFormat :: zero.displaySep.toList, ?_⟩
  rw [ZeroFormat.text, ← List.cons_append, ← List.replicate_succ,
    Nat.sub_add_cancel zero.zeros_pos]

/-- What comes after a format that takes no octet is read as no part of it. -/
theorem readSeparator_append {separator : Option Char} (hseparates : ∀ char ∈ separator,
    IsSeparator char) (hrest : ∀ char ∈ rest.head?, ¬ IsSeparator char) :
    readSeparator (separator.toList ++ rest) = (separator, rest) := by
  cases separator with
  | none =>
    show readSeparator rest = (none, rest)
    cases rest with
    | nil => rfl
    | cons char rest => exact if_neg (hrest char rfl)
  | some char => exact if_pos (hseparates char rfl)

/-- A format of zero octets is read from its text. -/
theorem readFormat_zero (hint : List Char) (zero : ZeroFormat)
    (hrest : ∀ char ∈ rest.head?, ¬ IsSeparator char) :
    readFormat hint (zero.text ++ rest) = .ok (zero.octetFormat, rest) := by
  obtain ⟨more, hmore⟩ := zero.exists_text_eq
  have hstar : readStar (zero.text ++ rest) = (false, zero.text ++ rest) := by
    rw [hmore]
    rfl
  have hzeros (char : Char) (hmem : char ∈ List.replicate zero.zeros '0') : char.isDigit := by
    rw [List.eq_of_mem_replicate hmem]
    exact isDigit_zero
  have htext : zero.text ++ rest = List.replicate zero.zeros '0' ++
      zero.displayFormat :: (zero.displaySep.toList ++ rest) := by
    rw [ZeroFormat.text, List.append_assoc, List.cons_append]
  have htake : (zero.text ++ rest).takeWhile Char.isDigit = List.replicate zero.zeros '0' := by
    rw [htext, List.takeWhile_append_of_pos hzeros, List.takeWhile_cons_of_neg zero.not_isDigit,
      List.append_nil]
  have hdrop : (zero.text ++ rest).dropWhile Char.isDigit =
      zero.displayFormat :: (zero.displaySep.toList ++ rest) := by
    rw [htext, List.dropWhile_append_of_pos hzeros, List.dropWhile_cons_of_neg zero.not_isDigit]
  have hlength : readOctetLength (List.replicate zero.zeros '0') = .ok (some 0) := by
    have hnonempty : List.replicate zero.zeros '0' ≠ [] := by
      rw [Ne, List.replicate_eq_nil_iff]
      exact zero.zeros_pos.ne'
    rw [readOctetLength, if_neg hnonempty, List.length_replicate, if_neg (not_lt.mpr zero.zeros_le),
      Nat.ofDigitChars_replicate_zero, Nat.mul_zero]
  have hseparator := readSeparator_append zero.isSeparator hrest
  simp only [readFormat, hstar, htake, hlength, hdrop, hseparator, readTerminator_of_single, bind,
    Except.bind]
  rfl

end Reading

/-! ### Turns over octet formats -/

section Turns

variable {hint : List Char} {format : OctetFormat} {rendering next : Rendering}

/-- What repetitions leave of the octets. -/
theorem renderRepeated_ok {octetLength repeatCount : ℕ} {outputValue text : List Char}
    {runningValue left : Octets}
    (hrender : renderRepeated format octetLength repeatCount outputValue runningValue =
      .ok (text, left)) : left = runningValue.drop (repeatCount * octetLength) := by
  induction repeatCount generalizing outputValue runningValue with
  | zero =>
    cases hrender
    rw [Nat.zero_mul, List.drop_zero]
  | succ repeatCount ih =>
    rw [renderRepeated] at hrender
    obtain ⟨rendered, -, hrender⟩ := exists_of_bind_eq_ok hrender
    rw [ih hrender, List.drop_drop, Nat.succ_mul, Nat.add_comm]

theorem mem_formats_of_renderOctets {displayFormat : Char} {octets : Octets} {text : List Char}
    (hrender : renderOctets displayFormat octets = .ok text) :
    displayFormat ∈ ['a', 't', 'x', 'o', 'd'] := by
  unfold renderOctets at hrender
  split_ifs at hrender <;> simp_all

theorem renderRepeated_of_applyFormat {text : List Char} {left : Octets}
    (happly : applyFormat format rendering = .ok (text, left)) :
    ∃ rendered, renderRepeated format
      (format.octetLength.getD (if format.repeated then rendering.runningValue.tail
        else rendering.runningValue).length)
      (if format.repeated then (rendering.runningValue.headD 0).toNat else 1)
      rendering.outputValue
      (if format.repeated then rendering.runningValue.tail else rendering.runningValue) =
        .ok (rendered, left) := by
  unfold applyFormat at happly
  obtain ⟨rendered, hrender, happly⟩ := exists_of_bind_eq_ok happly
  cases happly
  exact ⟨rendered.1, hrender⟩

/-- A format takes octets, unless it is one that takes none. -/
theorem applyFormat_ok {text : List Char} {left : Octets} (hsome : rendering.runningValue ≠ [])
    (happly : applyFormat format rendering = .ok (text, left)) :
    left.length < rendering.runningValue.length ∨
      (left = rendering.runningValue ∧ format.repeated = false ∧ format.octetLength = some 0 ∧
        format.displayFormat ∈ ['a', 't', 'x', 'o', 'd']) := by
  obtain ⟨rendered, hrender⟩ := renderRepeated_of_applyFormat happly
  have hlength := List.length_pos_of_ne_nil hsome
  cases hrepeated : format.repeated with
  | true =>
    -- The octet that counts the repetitions is gone.
    left
    simp only [hrepeated, if_true] at hrender
    rw [renderRepeated_ok hrender, List.length_drop, List.length_tail]
    omega
  | false =>
    simp only [hrepeated, Bool.false_eq_true, if_false] at hrender
    have hleft := renderRepeated_ok hrender
    rw [Nat.one_mul] at hleft
    cases hoctets : format.octetLength with
    | none =>
      left
      rw [hleft, hoctets, Option.getD_none, List.drop_length]
      exact hlength
    | some octetLength =>
      rw [hoctets, Option.getD_some] at hleft hrender
      rcases Nat.eq_zero_or_pos octetLength with rfl | hpos
      · right
        rw [List.drop_zero] at hleft
        refine ⟨hleft, rfl, rfl, ?_⟩
        rw [renderRepeated] at hrender
        obtain ⟨_, hrendered, -⟩ := exists_of_bind_eq_ok hrender
        exact mem_formats_of_renderOctets hrendered
      · left
        rw [hleft, List.length_drop]
        omega

/-- A turn takes octets, or a format off the hint that takes none. -/
theorem renderFormat_ok (hsome : rendering.runningValue ≠ [])
    (hrender : renderFormat hint rendering = .ok next) :
    ∃ rest, next.displayHint = (if rest = [] then hint else rest) ∧
      rest.length < rendering.displayHint.length ∧
      (next.runningValue.length < rendering.runningValue.length ∨
        (next.runningValue = rendering.runningValue ∧
          ∃ zero : ZeroFormat, rendering.displayHint = zero.text ++ rest)) := by
  unfold renderFormat at hrender
  obtain ⟨⟨format, rest⟩, hread, hrender⟩ := exists_of_bind_eq_ok hrender
  obtain ⟨⟨outputValue, runningValue⟩, happly, hrender⟩ := exists_of_bind_eq_ok hrender
  cases hrender
  refine ⟨rest, rfl, length_lt_of_readFormat hread, ?_⟩
  rcases applyFormat_ok hsome happly with hless | ⟨hsame, hsingle, hoctets, hformat⟩
  · exact Or.inl hless
  · exact Or.inr ⟨hsame, exists_zeroFormat hread hsingle hoctets hformat⟩

/-- The display formats render no octet too. -/
theorem exists_renderOctets_nil {displayFormat : Char}
    (hformat : displayFormat ∈ ['a', 't', 'x', 'o', 'd']) :
    ∃ text, renderOctets displayFormat [] = .ok text := by
  fin_cases hformat <;> exact ⟨_, rfl⟩

/-- What a turn makes of a format that takes no octet. -/
theorem renderFormat_zero (hint : List Char) (zero : ZeroFormat) {rest : List Char}
    (hrest : ∀ char ∈ rest.head?, ¬ IsSeparator char)
    (hdisplayHint : rendering.displayHint = zero.text ++ rest) :
    ∃ outputValue, renderFormat hint rendering =
      .ok ⟨outputValue, rendering.runningValue, if rest = [] then hint else rest⟩ := by
  obtain ⟨text, htext⟩ := exists_renderOctets_nil zero.mem_formats
  have hread := readFormat_zero hint zero hrest
  simp [renderFormat, hdisplayHint, hread, applyFormat, ZeroFormat.octetFormat, renderRepeated,
    htext, bind, Except.bind]

end Turns

/-! ### Hints of which every format takes no octet -/

/-- A hint that takes nothing begins with a zero. -/
theorem TakesNothing.head {text : List Char} (htakes : TakesNothing text) :
    ∃ more, text = '0' :: more := by
  cases htakes with
  | single zero => exact zero.exists_text_eq
  | append zero hrest =>
    obtain ⟨more, hmore⟩ := zero.exists_text_eq
    rw [hmore]
    exact ⟨_, rfl⟩

theorem TakesNothing.ne_nil {text : List Char} (htakes : TakesNothing text) : text ≠ [] := by
  obtain ⟨more, rfl⟩ := htakes.head
  exact List.cons_ne_nil _ _

theorem TakesNothing.not_isSeparator {text : List Char} (htakes : TakesNothing text) :
    ∀ char ∈ text.head?, ¬ IsSeparator char := by
  obtain ⟨more, rfl⟩ := htakes.head
  rintro char hchar ⟨hdigit, -⟩
  rw [← Option.mem_some_iff.mp hchar] at hdigit
  exact hdigit isDigit_zero

/-- The first format of such a hint, and the rest, which is empty or again of the kind. -/
theorem TakesNothing.exists_eq_append {text : List Char} (htakes : TakesNothing text) :
    ∃ (zero : ZeroFormat) (rest : List Char), text = zero.text ++ rest ∧
      (rest = [] ∨ TakesNothing rest) := by
  cases htakes with
  | single zero => exact ⟨zero, [], (List.append_nil _).symm, Or.inl rfl⟩
  | append zero hrest => exact ⟨zero, _, rfl, Or.inr hrest⟩

/-- A format of zero octets before such a hint, or before nothing, takes nothing either. -/
theorem TakesNothing.of_rest (zero : ZeroFormat) {rest : List Char}
    (hrest : rest = [] ∨ TakesNothing rest) : TakesNothing (zero.text ++ rest) := by
  rcases hrest with rfl | hrest
  · rw [List.append_nil]
    exact TakesNothing.single zero
  · exact TakesNothing.append zero hrest

/-! ### The loops -/

section Loops

variable {ν : Type} {table : CharacterTable} {convention : TextualConvention ν}

/-- The states that no turn leads out of. -/
def Trapped (hint : List Char) : Progress ν → Prop
  | .start _ => False
  | .bits runningValue _ => runningValue < 0
  | .octets rendering => rendering.runningValue ≠ [] ∧ TakesNothing rendering.displayHint ∧
      TakesNothing hint

/-- In the trap the loop goes on, and stays there. -/
theorem Trapped.turn {progress : Progress ν} (htrapped : Trapped convention.displayHint progress) :
    ∃ next, turn table convention progress = .inl next ∧
      Trapped convention.displayHint next := by
  cases progress with
  | start value => exact htrapped.elim
  | bits runningValue outputValue =>
    have hnegative : runningValue < 0 := htrapped
    refine ⟨_, if_neg hnegative.ne, ?_⟩
    show runningValue / 2 < 0
    omega
  | octets rendering =>
    obtain ⟨hsome, htakes, hhint⟩ := htrapped
    obtain ⟨zero, rest, hdisplayHint, hrest⟩ := htakes.exists_eq_append
    have hseparator : ∀ char ∈ rest.head?, ¬ IsSeparator char := by
      rcases hrest with rfl | hrest
      · exact fun _ hmem ↦ absurd hmem (Option.not_mem_none _)
      · exact hrest.not_isSeparator
    obtain ⟨outputValue, hrender⟩ := renderFormat_zero convention.displayHint zero hseparator
      hdisplayHint
    have hcontinue : ¬ (rendering.runningValue = [] ∨ rendering.displayHint = []) := by
      rw [not_or]
      exact ⟨hsome, htakes.ne_nil⟩
    refine ⟨.octets ⟨outputValue, rendering.runningValue,
      if rest = [] then convention.displayHint else rest⟩, ?_, ?_⟩
    · rw [DisplayHint.turn, if_neg hcontinue, hrender]
    · refine ⟨hsome, ?_, hhint⟩
      show TakesNothing (if rest = [] then convention.displayHint else rest)
      split_ifs with hnil
      · exact hhint
      · exact hrest.resolve_left hnil

/-- The states that the loops end from. -/
def Free (hint : List Char) : Progress ν → Prop
  | .start _ => False
  | .bits runningValue _ => 0 ≤ runningValue
  | .octets rendering => (rendering.runningValue = [] ∨ ¬ TakesNothing hint) ∧
      rendering.displayHint.length ≤ hint.length

open Classical in
/-- What is left of a hint, counted past the whole hint if no octet is taken before that. -/
noncomputable def hintLeft (hint displayHint : List Char) : ℕ :=
  if TakesNothing displayHint then displayHint.length + hint.length + 1 else displayHint.length

/-- What the loop over octet formats has left to do. -/
noncomputable def renderingLeft (hint : List Char) (rendering : Rendering) : ℕ :=
  rendering.runningValue.length * (2 * hint.length + 2) + hintLeft hint rendering.displayHint

/-- What the loops have left to do. -/
noncomputable def workLeft (hint : List Char) : Progress ν → ℕ
  | .start _ => 0
  | .bits runningValue _ => runningValue.toNat
  | .octets rendering => renderingLeft hint rendering

theorem hintLeft_le {hint displayHint : List Char} (hlength : displayHint.length ≤ hint.length) :
    hintLeft hint displayHint ≤ 2 * hint.length + 1 := by
  unfold hintLeft
  split_ifs <;> omega

/-- Reading a format of zero octets leaves less of the hint, if the hint takes something. -/
theorem hintLeft_rest_lt {hint : List Char} (hhint : ¬ TakesNothing hint) (zero : ZeroFormat)
    (rest : List Char) :
    hintLeft hint (if rest = [] then hint else rest) < hintLeft hint (zero.text ++ rest) := by
  have hshorter : rest.length < (zero.text ++ rest).length := by
    obtain ⟨more, hmore⟩ := zero.exists_text_eq
    rw [hmore, List.length_append, List.length_cons]
    omega
  split_ifs with hnil
  · have htakes := TakesNothing.of_rest zero (Or.inl hnil)
    rw [hintLeft, hintLeft, if_neg hhint, if_pos htakes]
    omega
  · by_cases hrest : TakesNothing rest
    · have htakes := TakesNothing.of_rest zero (Or.inr hrest)
      rw [hintLeft, hintLeft, if_pos hrest, if_pos htakes]
      omega
    · rw [hintLeft, hintLeft, if_neg hrest]
      split_ifs <;> omega

/-- Every format that is rendered leaves less to do, if the hint takes something. -/
theorem renderingLeft_lt {hint : List Char} {rendering next : Rendering}
    (hsome : rendering.runningValue ≠ []) (hhint : ¬ TakesNothing hint)
    (hlength : rendering.displayHint.length ≤ hint.length)
    (hrender : renderFormat hint rendering = .ok next) :
    next.displayHint.length ≤ hint.length ∧
      renderingLeft hint next < renderingLeft hint rendering := by
  obtain ⟨rest, hnext, hrest, hprogress⟩ := renderFormat_ok hsome hrender
  have hnextLength : next.displayHint.length ≤ hint.length := by
    rw [hnext]
    split_ifs <;> omega
  refine ⟨hnextLength, ?_⟩
  have hbound := hintLeft_le hnextLength
  rw [renderingLeft, renderingLeft]
  rcases hprogress with hless | ⟨hsame, zero, hzero⟩
  · have hmul := Nat.mul_le_mul_right (2 * hint.length + 2) (Nat.succ_le_of_lt hless)
    rw [Nat.succ_mul] at hmul
    omega
  · have hlower := hintLeft_rest_lt hhint zero rest
    rw [hsame, hnext, hzero]
    omega

/-- Outside the trap every turn leaves less to do. -/
theorem Free.turn {progress next : Progress ν} (hfree : Free convention.displayHint progress)
    (hturn : turn table convention progress = .inl next) :
    Free convention.displayHint next ∧
      workLeft convention.displayHint next < workLeft convention.displayHint progress := by
  cases progress with
  | start value => exact hfree.elim
  | bits runningValue outputValue =>
    have hnonneg : 0 ≤ runningValue := hfree
    rw [DisplayHint.turn] at hturn
    split_ifs at hturn with hzero
    cases hturn
    show 0 ≤ runningValue / 2 ∧ (runningValue / 2).toNat < runningValue.toNat
    omega
  | octets rendering =>
    obtain ⟨hhint, hlength⟩ := hfree
    rw [DisplayHint.turn] at hturn
    split_ifs at hturn with hstop
    rw [not_or] at hstop
    have hhint' := hhint.resolve_left hstop.1
    cases hrender : renderFormat convention.displayHint rendering with
    | error exception =>
      rw [hrender] at hturn
      cases hturn
    | ok rendered =>
      rw [hrender] at hturn
      cases hturn
      obtain ⟨hnext, hless⟩ := renderingLeft_lt hstop.1 hhint' hlength hrender
      exact ⟨⟨Or.inr hhint', hnext⟩, hless⟩

/-- The loops end from there. -/
theorem Free.ends (table : CharacterTable) {progress : Progress ν}
    (hfree : Free convention.displayHint progress) :
    ∃ result, Loop.EndsWith (DisplayHint.turn table convention) progress result := by
  have hnext (state next : Progress ν) (hstate : Free convention.displayHint state)
      (hturn : DisplayHint.turn table convention state = .inl next) :
      Free convention.displayHint next ∧
        workLeft convention.displayHint next < workLeft convention.displayHint state :=
    hstate.turn hturn
  have hlast (state : Progress ν) (result : Except HintError (List Char))
      (_ : Free convention.displayHint state)
      (_ : DisplayHint.turn table convention state = .inr result) : True := trivial
  obtain ⟨result, hresult, -⟩ := Loop.within_of_measure hnext hlast hfree (Nat.lt_succ_self _)
  exact ⟨result, _, hresult⟩

/-! ### The beginning -/

/-- A binary hint starts the loop over bits. -/
theorem startNumber_of_bits {value : ℤ} (hbits : (splitHint convention.displayHint).1 = ['b']) :
    startNumber table convention value = .inl (.bits value ['B']) := by
  simp only [startNumber, hbits]
  rfl

/-- Any other hint of a number is done at once. -/
theorem startNumber_of_ne (table : CharacterTable) (value : ℤ)
    (hbits : (splitHint convention.displayHint).1 ≠ ['b']) :
    ∃ result, startNumber table convention value = .inr result := by
  simp only [startNumber]
  split_ifs <;> exact ⟨_, rfl⟩

/-- A value that rendering does not end on leads into the trap. -/
theorem Stuck.turn_start (table : CharacterTable) {value : Value ν}
    (hstuck : Stuck convention.displayHint value) :
    ∃ next, turn table convention (.start value) = .inl next ∧
      Trapped convention.displayHint next := by
  cases value with
  | numeric type number =>
    obtain ⟨hbits, hnegative⟩ := hstuck
    have hhint : convention.displayHint ≠ [] := by
      intro hnil
      rw [hnil] at hbits
      exact absurd hbits (by decide)
    refine ⟨_, (if_neg hhint).trans (startNumber_of_bits hbits), hnegative⟩
  | octetString octets =>
    obtain ⟨hsome, htakes⟩ := hstuck
    exact ⟨_, if_neg htakes.ne_nil, hsome, htakes, htakes⟩
  | other value => exact hstuck.elim

/-- From every other value the loops end, if they are reached. -/
theorem free_of_not_stuck {value : Value ν} {next : Progress ν}
    (hstuck : ¬ Stuck convention.displayHint value)
    (hturn : turn table convention (.start value) = .inl next) :
    Free convention.displayHint next := by
  cases value with
  | numeric type number =>
    rw [turn] at hturn
    split_ifs at hturn with hnil
    by_cases hbits : (splitHint convention.displayHint).1 = ['b']
    · have hnonneg : 0 ≤ number.val := not_lt.mp fun hnegative ↦ hstuck ⟨hbits, hnegative⟩
      cases (startNumber_of_bits hbits).symm.trans hturn
      exact hnonneg
    · obtain ⟨result, hresult⟩ := startNumber_of_ne table number.val hbits
      cases hresult.symm.trans hturn
  | octetString octets =>
    rw [turn] at hturn
    split_ifs at hturn with hnil
    cases hturn
    refine ⟨?_, le_rfl⟩
    by_cases hnone : octets.val = []
    · exact Or.inl hnone
    · exact Or.inr fun htakes ↦ hstuck ⟨hnone, htakes⟩
  | other value =>
    rw [turn] at hturn
    split_ifs at hturn

end Loops

/-! ### Rendering ends -/

section Ends

variable {ν : Type} (table : CharacterTable) (convention : TextualConvention ν)

/-- `prettyOut` ends, be it with an exception. -/
def Ends (value : Value ν) : Prop :=
  ∃ turns result, prettyOut table convention turns value = some result

/-- A value that gets into the trap never ends. -/
theorem Stuck.not_ends {value : Value ν} (hstuck : Stuck convention.displayHint value) :
    ¬ Ends table convention value := by
  rintro ⟨turns, result, hresult⟩
  obtain ⟨next, hturn, htrapped⟩ := hstuck.turn_start table
  cases turns with
  | zero => cases hresult
  | succ turns =>
    have hnone : Loop.within (turn table convention) turns next = none :=
      Loop.within_eq_none (fun _ hstate ↦ hstate.turn) htrapped turns
    rw [prettyOut, Loop.within_of_inl hturn, hnone] at hresult
    cases hresult

/-- Rendering ends unless a negative number is to be written in bits, or there are octets and no
format of the hint takes any. -/
theorem ends_iff_not_stuck (value : Value ν) :
    Ends table convention value ↔ ¬ Stuck convention.displayHint value := by
  constructor
  · intro hends hstuck
    exact hstuck.not_ends table convention hends
  · intro hfree
    cases hturn : turn table convention (.start value) with
    | inl next =>
      obtain ⟨result, turns, hresult⟩ := (free_of_not_stuck hfree hturn).ends table
      exact ⟨turns + 1, result, (Loop.within_of_inl hturn turns).trans hresult⟩
    | inr result => exact ⟨1, result, Loop.within_of_inr hturn 0⟩

/-- A format of a shipped hint that takes no octet. -/
def bracketFormat : ZeroFormat where
  zeros := 1
  displayFormat := 'a'
  displaySep := some '['
  zeros_pos := by decide
  zeros_le := by decide
  mem_formats := by decide
  isSeparator := by
    rintro char ⟨⟩
    decide

/-- An octet string whose hint is that format alone. -/
def bracketConvention : TextualConvention Unit where
  displayHint := "0a[".toList
  basePrettyOut _ := .error .pyAsn1Error
  basePrettyIn := .ok

/-- Rendering `x` under the hint `0a[` does not end. -/
theorem not_ends_bracketConvention :
    ¬ Ends ⟨fun _ ↦ false, fun _ ↦ none⟩ bracketConvention
      (.octetString ⟨[0x78], by decide⟩) := by
  have htakes : TakesNothing bracketConvention.displayHint := TakesNothing.single bracketFormat
  apply Stuck.not_ends
  exact ⟨List.cons_ne_nil _ _, htakes⟩

end Ends

end Pysnmp.Smi.DisplayHint
