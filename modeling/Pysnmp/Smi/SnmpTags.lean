import Pysnmp.Foundation.Separated
import Pysnmp.Proto.Secmod.Rfc2576

/-!
# Tags and tag lists

`_prettyInTagValue` and `_prettyInTagList` of `smi/mibs/behavior/SNMP-TARGET-MIB.py`. Both look for
delimiters in `str` of what they are given, which is the text itself, the Latin-1 reading of an
`OctetString`, and for `bytes` the literal that Python shows them by. There tabs and line ends are
escapes, and a letter and a quote stand before the octets and a quote behind them. The lists are
later taken apart by `bytes.split`, which knows two more characters of white space. That the values
of both types are at most 255 octets long is a constraint of the types, which is not modelled here.

`tagsChecked_iff` says for which octets none of this matters.
-/

set_option autoImplicit false
set_option relaxedAutoImplicit false

namespace Pysnmp.Smi.SnmpTags

open Foundation.Separated Proto Proto.Secmod.Rfc2576

/-! ### Values and their text -/

/-- A value in the form it comes in. -/
inductive TagInput
  | text (characters : List Char)
  | bytes (octets : Octets)
  | octetString (octets : Octets)
  deriving DecidableEq, Repr

/-- The octets of a value: `OctetString.prettyIn`, a text in UTF-8. -/
def TagInput.octets : TagInput → Octets
  | text characters => characters.flatMap String.utf8EncodeChar
  | bytes octets => octets
  | octetString octets => octets

/-- The apostrophe, the quotation mark and the backslash. -/
def apostrophe : Char := Char.ofNat 39

def quotationMark : Char := Char.ofNat 34

def backslash : Char := Char.ofNat 92

/-- An octet in the literal of `bytes`. -/
def octetLiteral (quote : Char) (octet : UInt8) : List Char :=
  let character := Char.ofNat octet.toNat
  if character = quote ∨ character = backslash then [backslash, character]
  else if octet = 9 then [backslash, 't']
  else if octet = 10 then [backslash, 'n']
  else if octet = 13 then [backslash, 'r']
  else if octet < 32 ∨ 127 ≤ octet then
    [backslash, 'x', Nat.digitChar (octet.toNat / 16), Nat.digitChar (octet.toNat % 16)]
  else [character]

/-- The quote around the literal of `bytes`. -/
def literalQuote (octets : Octets) : Char :=
  if 39 ∈ octets ∧ 34 ∉ octets then quotationMark else apostrophe

/-- `str(value)`. -/
def TagInput.str : TagInput → List Char
  | text characters => characters
  | bytes octets =>
    'b' :: literalQuote octets ::
      (octets.flatMap (octetLiteral (literalQuote octets)) ++ [literalQuote octets])
  | octetString octets => (decode octets).toList

/-! ### The hooks -/

/-- `char in _DELIMITERS`: space, tab, carriage return and line feed. -/
def isDelimiter (char : Char) : Bool :=
  char ∈ [' ', Char.ofNat 9, Char.ofNat 13, Char.ofNat 10]

/-- How the hooks refuse a value. -/
inductive TagError
  | notAllowed (value : TagInput)
  | leadingOrMultiple (value : TagInput)
  | dangling (value : TagInput)
  deriving DecidableEq, Repr

/-- `_prettyInTagValue`. -/
def prettyInTagValue (value : TagInput) : Except TagError Octets :=
  if value.str.any isDelimiter then .error (.notAllowed value) else .ok value.octets

/-- The loop in `_prettyInTagList`. -/
def scanTagList (value : TagInput) : Bool → List Char → Except TagError Bool
  | inDelimiter, [] => .ok inDelimiter
  | inDelimiter, char :: chars =>
    if isDelimiter char then
      if inDelimiter then .error (.leadingOrMultiple value) else scanTagList value true chars
    else scanTagList value false chars

/-- `_prettyInTagList`. -/
def prettyInTagList (value : TagInput) : Except TagError Octets := do
  let inDelimiter ← scanTagList value true value.str
  if value.octets ≠ [] ∧ inDelimiter then .error (.dangling value) else .ok value.octets

/-! ### Tags and lists of tags -/

/-- An octet that delimits tags. -/
def isDelimiterOctet (octet : UInt8) : Bool :=
  octet ∈ [32, 9, 13, 10]

/-- A tag has no delimiter in it. -/
def IsTagValue (octets : Octets) : Prop :=
  ∀ octet ∈ octets, isDelimiterOctet octet = false

/-- A list of tags has no delimiter at its ends and no two in a row. -/
def IsTagList (octets : Octets) : Prop :=
  IsSeparated isDelimiterOctet octets

/-- The tags in a list. -/
def listedTags (octets : Octets) : List Octets :=
  (octets.splitOnP isDelimiterOctet).filter fun tag ↦ !tag.isEmpty

/-- In every form the octets are accepted as a tag and as a list just if they are one; an accepted
tag is found in some accepted list, and so are all tags of an accepted list. -/
structure TagsChecked (octets : Octets) : Prop where
  value : ∀ input : TagInput, input.octets = octets →
    (prettyInTagValue input = .ok octets ↔ IsTagValue octets)
  list : ∀ input : TagInput, input.octets = octets →
    (prettyInTagList input = .ok octets ↔ IsTagList octets)
  matched : ∀ input : TagInput, input.octets = octets → octets ≠ [] →
    prettyInTagValue input = .ok octets →
      ∃ (listInput : TagInput) (tagList : Octets),
        prettyInTagList listInput = .ok tagList ∧ octets ∈ split tagList
  listMatched : ∀ input : TagInput, input.octets = octets →
    prettyInTagList input = .ok octets → ∀ tag ∈ listedTags octets, tag ∈ split octets

/-- A space. -/
def isSpaceOctet (octet : UInt8) : Bool :=
  octet == 32

/-- There is no white space; or there is a space, and two spaces are adjacent, or the octets are a
list of tags without the white space that does not delimit them. -/
def IsUnambiguous (octets : Octets) : Prop :=
  (∀ octet ∈ octets, isSpace octet = false) ∨
    32 ∈ octets ∧
      (¬ octets.IsChain (fun first second ↦ ¬ (isSpaceOctet first ∧ isSpaceOctet second)) ∨
        IsTagList octets ∧ ∀ octet ∈ octets, isSpace octet = isDelimiterOctet octet)

/-! ### Octets and characters -/

/-- A fact about octets is one about the numbers below 256. -/
theorem forall_octet {predicate : UInt8 → Prop}
    (hall : ∀ number < 256, predicate (UInt8.ofNat number)) (octet : UInt8) : predicate octet := by
  have hoctet := hall octet.toNat octet.toNat_lt
  rwa [UInt8.ofNat_toNat] at hoctet

/-- An octet is a delimiter exactly where its character is. -/
theorem isDelimiter_ofNat :
    ∀ octet : UInt8, isDelimiter (Char.ofNat octet.toNat) = isDelimiterOctet octet :=
  forall_octet (by decide +kernel)

/-- An octet with its first bit set is no delimiter. -/
theorem isDelimiterOctet_of_le :
    ∀ octet : UInt8, 128 ≤ octet.toNat → isDelimiterOctet octet = false :=
  forall_octet (by decide +kernel)

/-- The space is a delimiter. -/
theorem isDelimiterOctet_space : isDelimiterOctet 32 = true := by
  decide

/-- `split` breaks at every delimiter. -/
theorem isSpace_of_isDelimiterOctet :
    ∀ octet : UInt8, isDelimiterOctet octet = true → isSpace octet = true :=
  forall_octet (by decide +kernel)

/-- In the literal only a space is a delimiter. -/
theorem octetLiteral_space {quote : Char} (hquote : quote = apostrophe ∨ quote = quotationMark) :
    octetLiteral quote 32 = [' '] := by
  rcases hquote with rfl | rfl <;> decide

/-- No hexadecimal digit is a delimiter. -/
theorem isDelimiter_digitChar : ∀ digit < 16, isDelimiter (Nat.digitChar digit) = false := by
  decide

/-- In a `bytes` literal no octet but the space is written with a delimiter. -/
theorem octetLiteral_other {quote : Char} (hquote : quote = apostrophe ∨ quote = quotationMark)
    (octet : UInt8) (hspace : octet ≠ 32) :
    octetLiteral quote octet ≠ [] ∧
      ∀ char ∈ octetLiteral quote octet, isDelimiter char = false := by
  have hescape : isDelimiter backslash = false := by decide
  have hquoted : isDelimiter quote = false := by
    rcases hquote with rfl | rfl <;> decide
  unfold octetLiteral
  dsimp only
  by_cases hspecial : Char.ofNat octet.toNat = quote ∨ Char.ofNat octet.toNat = backslash
  · rw [if_pos hspecial]
    have hcharacter : isDelimiter (Char.ofNat octet.toNat) = false := by
      rcases hspecial with heq | heq
      · rw [heq, hquoted]
      · rw [heq, hescape]
    simp [hescape, hcharacter]
  rw [if_neg hspecial]
  split_ifs with htab hline hreturn hrange
  · simp [hescape, show isDelimiter 't' = false by decide]
  · simp [hescape, show isDelimiter 'n' = false by decide]
  · simp [hescape, show isDelimiter 'r' = false by decide]
  · have hhigh := isDelimiter_digitChar (octet.toNat / 16) (by have := octet.toNat_lt; omega)
    have hlow := isDelimiter_digitChar (octet.toNat % 16) (Nat.mod_lt _ (by decide))
    simp [hescape, hhigh, hlow, show isDelimiter 'x' = false by decide]
  · simp [isDelimiter_ofNat, isDelimiterOctet, hspace, htab, hline, hreturn]

/-- A character below 128 is one octet. -/
theorem utf8EncodeChar_small {char : Char} (hsmall : char.toNat ≤ 127) :
    String.utf8EncodeChar char = [UInt8.ofNat char.toNat] :=
  if_pos hsmall

/-- Each octet of a character that takes several has its first bit set. -/
theorem utf8EncodeChar_large {char : Char} (hlarge : 127 < char.toNat) :
    ∀ octet ∈ String.utf8EncodeChar char, 128 ≤ octet.toNat := by
  intro octet hoctet
  rw [String.utf8EncodeChar, if_neg (show ¬ char.val.toNat ≤ 127 from not_le.mpr hlarge)] at hoctet
  split_ifs at hoctet <;> simp only [List.mem_cons, List.not_mem_nil, or_false] at hoctet <;>
    rcases hoctet with rfl | rfl | rfl | rfl <;> rw [UInt8.toNat_ofNat'] <;> omega

/-! ### What the hooks accept -/

/-- The forms whose text shows each delimiter as it is. -/
def TagInput.isPlain : TagInput → Bool
  | text _ => true
  | bytes _ => false
  | octetString _ => true

section Hooks

variable {input : TagInput} {octets : Octets}

/-- A tag value is taken where its text has no delimiter. -/
theorem prettyInTagValue_eq_ok_iff (input : TagInput) :
    prettyInTagValue input = .ok input.octets ↔ ∀ char ∈ input.str, isDelimiter char = false := by
  have hany : input.str.any isDelimiter = false ↔
      ∀ char ∈ input.str, isDelimiter char = false := by
    rw [List.any_eq_false]
    simp only [Bool.not_eq_true]
  rw [← hany, prettyInTagValue]
  cases input.str.any isDelimiter with
  | true => exact iff_of_false (fun heq ↦ nomatch heq) (fun heq ↦ nomatch heq)
  | false => exact iff_of_true rfl rfl

/-- The loop over a tag list is a scan for delimiters. -/
theorem scanTagList_eq (value : TagInput) (inDelimiter : Bool) (chars : List Char) :
    scanTagList value inDelimiter chars =
      match scan isDelimiter inDelimiter chars with
      | none => .error (.leadingOrMultiple value)
      | some last => .ok last := by
  induction chars generalizing inDelimiter with
  | nil => rfl
  | cons char chars ih =>
    rw [scanTagList, scan]
    split_ifs
    · rfl
    · exact ih true
    · exact ih false

/-- A tag list is taken where the scan of its text ends outside a delimiter. -/
theorem prettyInTagList_eq_ok_iff (input : TagInput) :
    prettyInTagList input = .ok input.octets ↔
      ∃ last, scan isDelimiter true input.str = some last ∧ (input.octets ≠ [] → last = false) := by
  rw [prettyInTagList, scanTagList_eq]
  cases scan isDelimiter true input.str with
  | none => exact iff_of_false (fun heq ↦ nomatch heq) fun ⟨_, heq, _⟩ ↦ nomatch heq
  | some last =>
    simp only [Option.some.injEq, exists_eq_left', bind, Except.bind]
    by_cases hne : input.octets ≠ []
    · cases last with
      | true =>
        rw [if_pos ⟨hne, rfl⟩]
        exact iff_of_false (fun heq ↦ nomatch heq) fun himp ↦ nomatch himp hne
      | false =>
        rw [if_neg fun hboth ↦ nomatch hboth.2]
        exact iff_of_true rfl fun _ ↦ rfl
    · rw [if_neg fun hboth ↦ hne hboth.1]
      exact iff_of_true rfl fun hall ↦ absurd hall hne

/-! ### Texts and strings off the wire -/

/-- UTF-8 writes a delimiter as one octet and no other character with such an octet. -/
theorem isSpelling_utf8EncodeChar :
    IsSpelling String.utf8EncodeChar isDelimiter isDelimiterOctet := by
  have hsmall : ∀ char : Char, char.toNat ≤ 127 → String.utf8EncodeChar char =
      [UInt8.ofNat char.toNat] ∧ isDelimiterOctet (UInt8.ofNat char.toNat) = isDelimiter char := by
    intro char hchar
    have hback : Char.ofNat (UInt8.ofNat char.toNat).toNat = char := by
      rw [UInt8.toNat_ofNat', Nat.mod_eq_of_lt (by omega), Char.ofNat_toNat]
    refine ⟨utf8EncodeChar_small hchar, ?_⟩
    rw [← isDelimiter_ofNat, hback]
  constructor
  · intro char hdelimiter
    have hchar : char.toNat ≤ 127 := by
      have hmem := of_decide_eq_true hdelimiter
      simp only [List.mem_cons, List.not_mem_nil, or_false] at hmem
      rcases hmem with rfl | rfl | rfl | rfl <;> decide
    obtain ⟨hwrite, hsame⟩ := hsmall char hchar
    exact ⟨_, hwrite, hsame.trans hdelimiter⟩
  · intro char hother
    refine ⟨String.utf8EncodeChar_ne_nil, fun octet hoctet ↦ ?_⟩
    rcases le_or_gt char.toNat 127 with hchar | hchar
    · obtain ⟨hwrite, hsame⟩ := hsmall char hchar
      rw [hwrite] at hoctet
      rw [List.mem_singleton.mp hoctet, hsame, hother]
    · exact isDelimiterOctet_of_le octet (utf8EncodeChar_large hchar octet hoctet)

/-- Octets are spelled by the characters of the same numbers. -/
theorem isSpelling_latin1 :
    IsSpelling (fun octet : UInt8 ↦ [Char.ofNat octet.toNat]) isDelimiterOctet isDelimiter := by
  constructor
  · intro octet hdelimiter
    exact ⟨_, rfl, (isDelimiter_ofNat octet).trans hdelimiter⟩
  · intro octet hother
    refine ⟨List.cons_ne_nil _ _, fun char hchar ↦ ?_⟩
    rw [List.mem_singleton.mp hchar, isDelimiter_ofNat, hother]

/-- The literal of `bytes` writes a space alone as a delimiter. -/
theorem isSpelling_octetLiteral (octets : Octets) :
    IsSpelling (octetLiteral (literalQuote octets)) isSpaceOctet isDelimiter := by
  have hquote : literalQuote octets = apostrophe ∨ literalQuote octets = quotationMark := by
    unfold literalQuote
    split_ifs
    · exact Or.inr rfl
    · exact Or.inl rfl
  constructor
  · intro octet hspace
    rw [beq_iff_eq.mp hspace]
    exact ⟨_, octetLiteral_space hquote, by decide⟩
  · intro octet hother
    exact octetLiteral_other hquote octet (beq_eq_false_iff_ne.mp hother)

/-- A text and a string off the wire are accepted as a tag just if the octets are one. -/
theorem prettyInTagValue_of_plain (hplain : input.isPlain) :
    prettyInTagValue input = .ok input.octets ↔ IsTagValue input.octets := by
  rw [prettyInTagValue_eq_ok_iff, IsTagValue]
  cases input with
  | text characters => exact (forall_mem_flatMap_iff isSpelling_utf8EncodeChar characters).symm
  | bytes octets => exact nomatch hplain
  | octetString octets =>
    rw [TagInput.str, decode, String.toList_ofList, List.map_eq_flatMap]
    exact forall_mem_flatMap_iff isSpelling_latin1 octets

/-- A tag list given as text or as the library's own strings is taken where it is one. -/
theorem prettyInTagList_of_plain (hplain : input.isPlain) :
    prettyInTagList input = .ok input.octets ↔ IsTagList input.octets := by
  have hscan : scan isDelimiter true input.str = scan isDelimiterOctet true input.octets := by
    cases input with
    | text characters => exact (scan_flatMap isSpelling_utf8EncodeChar characters true).symm
    | bytes octets => exact nomatch hplain
    | octetString octets =>
      rw [TagInput.str, decode, String.toList_ofList, List.map_eq_flatMap]
      exact scan_flatMap isSpelling_latin1 octets true
  rw [prettyInTagList_eq_ok_iff, hscan, IsTagList]
  by_cases hne : input.octets = []
  · rw [hne]
    exact iff_of_true ⟨true, rfl, fun hnot ↦ absurd rfl hnot⟩ isSeparated_nil
  · rw [isSeparated_iff_scan hne]
    constructor
    · rintro ⟨last, heq, hlast⟩
      rw [heq, hlast hne]
    · intro heq
      exact ⟨false, heq, fun _ ↦ rfl⟩

/-! ### Octets as Python has them -/

/-- Python's `bytes` are taken for a tag value where they hold no space. -/
theorem prettyInTagValue_bytes :
    prettyInTagValue (.bytes octets) = .ok octets ↔ 32 ∉ octets := by
  have hquote : isDelimiter (literalQuote octets) = false := by
    unfold literalQuote
    split_ifs <;> decide
  have hspaces := forall_mem_flatMap_iff (isSpelling_octetLiteral octets) octets
  refine (prettyInTagValue_eq_ok_iff (.bytes octets)).trans ?_
  rw [TagInput.str]
  simp only [List.mem_cons, List.mem_append, List.not_mem_nil, or_false, or_imp, forall_and,
    forall_eq]
  rw [hspaces]
  constructor
  · rintro ⟨-, -, hnone, -⟩ hmem
    exact nomatch hnone 32 hmem
  · intro hmem
    refine ⟨by decide, hquote, fun octet hoctet ↦ ?_, hquote⟩
    exact beq_eq_false_iff_ne.mpr fun heq ↦ hmem (heq ▸ hoctet)

/-- Python's `bytes` are taken for a tag list where no two spaces stand together. -/
theorem prettyInTagList_bytes :
    prettyInTagList (.bytes octets) = .ok octets ↔
      octets.IsChain fun first second ↦ ¬ (isSpaceOctet first ∧ isSpaceOctet second) := by
  have hquote : isDelimiter (literalQuote octets) = false := by
    unfold literalQuote
    split_ifs <;> decide
  have hb : isDelimiter 'b' = false := by decide
  have hscan : scan isDelimiter true (TagInput.bytes octets).str =
      (scan isSpaceOctet false octets).map fun _ ↦ false := by
    rw [TagInput.str, scan, hb, if_neg Bool.false_ne_true, scan, hquote,
      if_neg Bool.false_ne_true, scan_append, scan_flatMap (isSpelling_octetLiteral octets)]
    cases scan isSpaceOctet false octets with
    | none => rfl
    | some last =>
      rw [Option.bind_some, scan, hquote, if_neg Bool.false_ne_true]
      rfl
  refine (prettyInTagList_eq_ok_iff (.bytes octets)).trans ?_
  rw [hscan]
  constructor
  · rintro ⟨last, heq, -⟩
    obtain ⟨found, hfound, -⟩ := Option.map_eq_some_iff.mp heq
    exact (scan_eq_some_iff.mp hfound).2.1
  · intro hchain
    have hfound : scan isSpaceOctet false octets =
        some ((octets.getLast?.map isSpaceOctet).getD false) :=
      scan_eq_some_iff.mpr ⟨fun heq ↦ absurd heq Bool.false_ne_true, hchain, rfl⟩
    exact ⟨false, by rw [hfound]; rfl, fun _ ↦ rfl⟩

end Hooks

/-! ### In every form -/

section Forms

variable {input : TagInput} {octets : Octets}

/-- Only Python's `bytes` are spelled otherwise than by their octets. -/
theorem isPlain_or_bytes (input : TagInput) : input.isPlain ∨ input = .bytes input.octets := by
  cases input with
  | text characters => exact Or.inl rfl
  | bytes octets => exact Or.inr rfl
  | octetString octets => exact Or.inl rfl

/-- A tag list has no two spaces together. -/
theorem adjacent_spaces (hlist : IsTagList octets) :
    octets.IsChain fun first second ↦ ¬ (isSpaceOctet first ∧ isSpaceOctet second) := by
  have hdelimiter (octet : UInt8) (hspace : isSpaceOctet octet) : isDelimiterOctet octet := by
    rw [beq_iff_eq.mp hspace]
    exact isDelimiterOctet_space
  exact hlist.adjacent.imp fun first second hnot hboth ↦
    hnot ⟨hdelimiter first hboth.1, hdelimiter second hboth.2⟩

/-- What holds a space is no tag value. -/
theorem not_isTagValue_of_mem (hmem : 32 ∈ octets) : ¬ IsTagValue octets :=
  fun htag ↦ Bool.eq_false_iff.mp (htag 32 hmem) isDelimiterOctet_space

/-- A tag is accepted in every form. -/
theorem prettyInTagValue_of_isTagValue (htag : IsTagValue input.octets) :
    prettyInTagValue input = .ok input.octets := by
  rcases isPlain_or_bytes input with hplain | hbytes
  · exact (prettyInTagValue_of_plain hplain).mpr htag
  · rw [hbytes]
    exact prettyInTagValue_bytes.mpr fun hmem ↦ not_isTagValue_of_mem hmem htag

/-- Octets with a space are refused as a tag in every form. -/
theorem not_mem_of_prettyInTagValue (haccepted : prettyInTagValue input = .ok input.octets) :
    32 ∉ input.octets := by
  rcases isPlain_or_bytes input with hplain | hbytes
  · exact fun hmem ↦
      not_isTagValue_of_mem hmem ((prettyInTagValue_of_plain hplain).mp haccepted)
  · rw [hbytes] at haccepted
    exact prettyInTagValue_bytes.mp haccepted

/-- A list of tags is accepted in every form. -/
theorem prettyInTagList_of_isTagList (hlist : IsTagList input.octets) :
    prettyInTagList input = .ok input.octets := by
  rcases isPlain_or_bytes input with hplain | hbytes
  · exact (prettyInTagList_of_plain hplain).mpr hlist
  · rw [hbytes]
    exact prettyInTagList_bytes.mpr (adjacent_spaces hlist)

/-- Octets with two adjacent spaces are refused as a list in every form. -/
theorem adjacent_of_prettyInTagList (haccepted : prettyInTagList input = .ok input.octets) :
    input.octets.IsChain fun first second ↦ ¬ (isSpaceOctet first ∧ isSpaceOctet second) := by
  rcases isPlain_or_bytes input with hplain | hbytes
  · exact adjacent_spaces ((prettyInTagList_of_plain hplain).mp haccepted)
  · rw [hbytes] at haccepted
    exact prettyInTagList_bytes.mp haccepted

end Forms

/-! ### What the lookups find -/

section Lookups

variable {octets tag : Octets}

/-- White space is in no word. -/
theorem isSpace_of_mem_split (hword : tag ∈ split octets) :
    ∀ octet ∈ tag, isSpace octet = false := by
  intro octet hoctet
  obtain ⟨hpiece, -⟩ := List.mem_filter.mp hword
  exact (exists_mem_splitOnP_iff.mp ⟨tag, hpiece, hoctet⟩).2

/-- Without white space there is one word. -/
theorem mem_split_self (hne : octets ≠ []) (hspace : ∀ octet ∈ octets, isSpace octet = false) :
    octets ∈ split octets := by
  rw [split, List.splitOnP_eq_singleton hspace]
  refine List.mem_filter.mpr ⟨List.mem_singleton_self _, ?_⟩
  rw [Bool.not_eq_true', List.isEmpty_eq_false_iff]
  exact hne

/-- A tag that is found in a list has no white space in it. -/
theorem exists_split_iff (hne : octets ≠ []) :
    (∃ (listInput : TagInput) (tagList : Octets),
      prettyInTagList listInput = .ok tagList ∧ octets ∈ split tagList) ↔
        ∀ octet ∈ octets, isSpace octet = false := by
  constructor
  · rintro ⟨-, tagList, -, hmem⟩
    exact isSpace_of_mem_split hmem
  · intro hspace
    refine ⟨.octetString octets, octets, (prettyInTagList_of_plain rfl).mpr ?_,
      mem_split_self hne hspace⟩
    have hdelimiter : ∀ octet ∈ octets, isDelimiterOctet octet = false := by
      intro octet hoctet
      rw [Bool.eq_false_iff]
      exact mt (isSpace_of_isDelimiterOctet octet)
        (Bool.eq_false_iff.mp (hspace octet hoctet))
    exact (isSeparated_iff_scan hne).mpr (scan_of_forall hdelimiter hne true)

/-- The words of a list are its tags, unless there is white space that does not delimit them. -/
theorem listedTags_found_iff :
    (∀ tag ∈ listedTags octets, tag ∈ split octets) ↔
      ∀ octet ∈ octets, isSpace octet = isDelimiterOctet octet := by
  constructor
  · intro hfound octet hoctet
    cases hdelimiter : isDelimiterOctet octet with
    | true => exact isSpace_of_isDelimiterOctet octet hdelimiter
    | false =>
      obtain ⟨piece, hpiece, hmem⟩ := exists_mem_splitOnP_iff.mpr ⟨hoctet, hdelimiter⟩
      have htag : piece ∈ listedTags octets := by
        refine List.mem_filter.mpr ⟨hpiece, ?_⟩
        rw [Bool.not_eq_true', List.isEmpty_eq_false_iff]
        exact List.ne_nil_of_mem hmem
      exact isSpace_of_mem_split (hfound piece htag) octet hmem
  · intro hagree tag htag
    rwa [listedTags, ← splitOnP_congr hagree] at htag

end Lookups

/-- Octets without white space are a tag, and a list of one tag. -/
theorem tagsChecked_of_forall {octets : Octets}
    (hspace : ∀ octet ∈ octets, isSpace octet = false) : TagsChecked octets := by
  have htag : IsTagValue octets := by
    intro octet hoctet
    rw [Bool.eq_false_iff]
    exact mt (isSpace_of_isDelimiterOctet octet) (Bool.eq_false_iff.mp (hspace octet hoctet))
  have hlist : IsTagList octets := by
    rcases eq_or_ne octets [] with rfl | hne
    · exact isSeparated_nil
    · exact (isSeparated_iff_scan hne).mpr (scan_of_forall htag hne true)
  refine ⟨?_, ?_, fun _ _ hne _ ↦ (exists_split_iff hne).mpr hspace, fun _ _ _ ↦ ?_⟩
  · rintro input rfl
    exact iff_of_true (prettyInTagValue_of_isTagValue htag) htag
  · rintro input rfl
    exact iff_of_true (prettyInTagList_of_isTagList hlist) hlist
  · exact listedTags_found_iff.mpr fun octet hoctet ↦
      (hspace octet hoctet).trans (htag octet hoctet).symm

/-- Every form of some octets is checked alike if they are without white space, and otherwise just
if they hold a space and are either no list even in their literal or one without foreign white
space. -/
theorem tagsChecked_iff (octets : Octets) : TagsChecked octets ↔ IsUnambiguous octets := by
  constructor
  · intro hchecked
    by_cases hspace : ∀ octet ∈ octets, isSpace octet = false
    · exact Or.inl hspace
    have hne : octets ≠ [] := by
      rintro rfl
      exact hspace fun octet hoctet ↦ absurd hoctet List.not_mem_nil
    have hmem : 32 ∈ octets := by
      by_contra hnot
      have hmatched := hchecked.matched (.bytes octets) rfl hne (prettyInTagValue_bytes.mpr hnot)
      exact hspace ((exists_split_iff hne).mp hmatched)
    refine Or.inr ⟨hmem, ?_⟩
    by_cases hchain :
        octets.IsChain fun first second ↦ ¬ (isSpaceOctet first ∧ isSpaceOctet second)
    · have haccepted := prettyInTagList_bytes.mpr hchain
      exact Or.inr ⟨(hchecked.list (.bytes octets) rfl).mp haccepted,
        listedTags_found_iff.mp (hchecked.listMatched (.bytes octets) rfl haccepted)⟩
    · exact Or.inl hchain
  · rintro (hspace | ⟨hmem, hlist⟩)
    · exact tagsChecked_of_forall hspace
    · have hvalue : ∀ input : TagInput, input.octets = octets →
          prettyInTagValue input ≠ .ok octets := by
        rintro input rfl haccepted
        exact not_mem_of_prettyInTagValue haccepted hmem
      refine ⟨fun input hinput ↦ iff_of_false (hvalue input hinput) (not_isTagValue_of_mem hmem),
        ?_, fun input hinput _ haccepted ↦ absurd haccepted (hvalue input hinput), ?_⟩
      · rintro input rfl
        refine ⟨fun haccepted ↦ ?_, prettyInTagList_of_isTagList⟩
        rcases hlist with hadjacent | ⟨hlist, -⟩
        · exact absurd (adjacent_of_prettyInTagList haccepted) hadjacent
        · exact hlist
      · rintro input rfl haccepted
        rcases hlist with hadjacent | ⟨-, hagree⟩
        · exact absurd (adjacent_of_prettyInTagList haccepted) hadjacent
        · exact listedTags_found_iff.mpr hagree

/-- A tab in octets that come as `bytes` is not seen. -/
theorem not_tagsChecked_tab : ¬ TagsChecked [97, 9, 98] := by
  intro hchecked
  have haccepted : prettyInTagValue (.bytes [97, 9, 98]) = .ok [97, 9, 98] := by decide
  exact absurd ((hchecked.value (.bytes [97, 9, 98]) rfl).mp haccepted 9 (by decide)) (by decide)

end Pysnmp.Smi.SnmpTags
