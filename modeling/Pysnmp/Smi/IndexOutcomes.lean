import Pysnmp.Smi.IndexDecoding

/-!
# What an index makes of sub-identifiers

An index that is read from the head of an identifier either has a value, or is refused with a
`PyAsn1Error`, or raises something else. Which of these it is depends on its type and on the
sub-identifiers it takes: the octets of a string and of an address must be octets, of which `bytes`
makes a `ValueError`; a BITS takes no sub-identifiers, of which it makes a `KeyError` or a
`TypeError`; an integer and an object identifier are refused at most.

`Reads` and `Breaks` say this of each type, and `setFromName_eq_ok_iff` and `breaks_iff` that
`setFromName` does so. `KeepsWhole` puts the indices of a row together.
-/

set_option autoImplicit false
set_option relaxedAutoImplicit false

namespace Pysnmp.Smi.IndexOutcomes

open Foundation Proto
open IndexEncoding hiding setFromName getAsName readIndices indicesOf instIdOf
  getIndicesFromInstId getInstIdFromIndices
open IndexDecoding

/-! ### Sub-identifiers -/

/-- The sub-identifiers are octets. -/
def IsOctets (arcs : Arcs) : Prop :=
  ∀ arc ∈ arcs, 0 ≤ arc ∧ arc ≤ 255

/-- Sub-identifiers as octets. -/
def octetsOf (arcs : Arcs) : Octets :=
  arcs.map fun arc ↦ UInt8.ofNat arc.toNat

/-- Sub-identifiers with dots between them. -/
def dotted (arcs : Arcs) : String :=
  String.intercalate "." (arcs.map toString)

/-- The characters of a text as octets. -/
def characters (text : String) : Octets :=
  text.toList.map fun character ↦ UInt8.ofNat character.toNat

/-- The sub-identifiers of a string or an object identifier, and those after it: all that there are,
as many as the length is fixed to, or as many as the first one says. -/
def share (impliedFlag : Bool) (fixedLength : Option ℕ) (instId : Arcs) : Arcs × Arcs :=
  if impliedFlag then
    (instId, [])
  else
    match fixedLength with
    | some length => (instId.take length, instId.drop length)
    | none => counted (instId.headD 0) instId

/-- The sub-identifiers of a string, and those after it. -/
def stringShare (index : RowIndex) (instId : Arcs) : Arcs × Arcs :=
  share index.impliedFlag index.syntaxObj.fixedLength instId

/-- The sub-identifiers of an object identifier, and those after it. -/
def oidShare (index : RowIndex) (instId : Arcs) : Arcs × Arcs :=
  share index.impliedFlag none instId

/-! ### One index -/

/-- The index has this value at the head of the identifier, with this after it. An address is four
octets; fewer sub-identifiers whose text has four characters are taken for these characters. -/
inductive Reads : Index → List Value → Arcs → Value → Arcs → Prop
  | integer {index : RowIndex} {parentIndices : List Value} {arc : ℤ} {others : Arcs}
      (htag : index.syntaxObj.baseType.baseTag = .integer)
      (haccepts : index.syntaxObj.accepts (.integer arc)) :
      Reads (.base index) parentIndices (arc :: others) (.integer arc) others
  | address {index : RowIndex} {parentIndices : List Value} {instId : Arcs}
      (htype : index.syntaxObj.baseType = .ipAddress) (hfour : (instId.take 4).length = 4)
      (hoctets : IsOctets (instId.take 4))
      (haccepts : index.syntaxObj.accepts (.octetString (octetsOf (instId.take 4)))) :
      Reads (.base index) parentIndices instId (.octetString (octetsOf (instId.take 4)))
        (instId.drop 4)
  | addressText {index : RowIndex} {parentIndices : List Value} {instId : Arcs}
      (htype : index.syntaxObj.baseType = .ipAddress) (hne : instId ≠ [])
      (htext : (dotted (instId.take 4)).length = 4)
      (haccepts : index.syntaxObj.accepts (.octetString (characters (dotted (instId.take 4))))) :
      Reads (.base index) parentIndices instId
        (.octetString (characters (dotted (instId.take 4)))) (instId.drop 4)
  | string {index : RowIndex} {parentIndices : List Value} {instId : Arcs}
      (htype : index.syntaxObj.baseType = .octetString) (hne : instId ≠ [])
      (hoctets : IsOctets (stringShare index instId).1)
      (haccepts : index.syntaxObj.accepts (.octetString (octetsOf (stringShare index instId).1))) :
      Reads (.base index) parentIndices instId
        (.octetString (octetsOf (stringShare index instId).1)) (stringShare index instId).2
  | bits {index : RowIndex} {parentIndices : List Value} {instId : Arcs} {namedValues : NamedValues}
      (htype : index.syntaxObj.baseType = .bits namedValues) (hne : instId ≠ [])
      (hnone : (stringShare index instId).1 = [])
      (haccepts : index.syntaxObj.accepts (.octetString [])) :
      Reads (.base index) parentIndices instId (.octetString []) (stringShare index instId).2
  | objectIdentifier {index : RowIndex} {parentIndices : List Value} {instId : Arcs}
      (htype : index.syntaxObj.baseType = .objectIdentifier) (hne : instId ≠ [])
      (hnatural : ∀ arc ∈ (oidShare index instId).1, 0 ≤ arc)
      (haccepts : index.syntaxObj.accepts
        (.objectIdentifier ((oidShare index instId).1.map Int.toNat))) :
      Reads (.base index) parentIndices instId
        (.objectIdentifier ((oidShare index instId).1.map Int.toNat)) (oidShare index instId).2
  | networkAddress {convert : Value → Except PythonError Value} {parentIndices : List Value}
      {others : Arcs} (hfour : (others.take 4).length = 4) (hoctets : IsOctets (others.take 4)) :
      Reads (.networkAddress convert) parentIndices (1 :: others)
        (.octetString (octetsOf (others.take 4))) (others.drop 4)
  | inetAddress {address : InetAddress} {parentIndices : List Value} {instId octets rest : Arcs}
      {accepts : Octets → Bool} (hsplit : address.splitIndex instId = .ok (octets, rest))
      (htype : address.concreteType parentIndices octets.length = .ok accepts)
      (hoctets : IsOctets octets) (haccepts : accepts (octetsOf octets)) :
      Reads (.inetAddress address) parentIndices instId (.octetString (octetsOf octets)) rest

/-- The index raises something that is no `PyAsn1Error`: a string or an address has a sub-identifier
that is no octet, or a BITS has any. -/
inductive Breaks : Index → List Value → Arcs → Prop
  | address {index : RowIndex} {parentIndices : List Value} {instId : Arcs}
      (htype : index.syntaxObj.baseType = .ipAddress)
      (htext : (dotted (instId.take 4)).length ≠ 4) (hoctets : ¬ IsOctets (instId.take 4)) :
      Breaks (.base index) parentIndices instId
  | string {index : RowIndex} {parentIndices : List Value} {instId : Arcs}
      (htype : index.syntaxObj.baseType = .octetString)
      (hoctets : ¬ IsOctets (stringShare index instId).1) :
      Breaks (.base index) parentIndices instId
  | bits {index : RowIndex} {parentIndices : List Value} {instId : Arcs} {namedValues : NamedValues}
      (htype : index.syntaxObj.baseType = .bits namedValues)
      (hsome : (stringShare index instId).1 ≠ []) : Breaks (.base index) parentIndices instId
  | networkAddress {convert : Value → Except PythonError Value} {parentIndices : List Value}
      {others : Arcs} (hfour : (others.take 4).length = 4) (hoctets : ¬ IsOctets (others.take 4)) :
      Breaks (.networkAddress convert) parentIndices (1 :: others)
  | inetAddress {address : InetAddress} {parentIndices : List Value} {instId octets rest : Arcs}
      {accepts : Octets → Bool} (hsplit : address.splitIndex instId = .ok (octets, rest))
      (htype : address.concreteType parentIndices octets.length = .ok accepts)
      (hoctets : ¬ IsOctets octets) : Breaks (.inetAddress address) parentIndices instId

/-! ### Constructors -/

section Constructors

variable {syntaxObj : IndexSyntax} {arcs : Arcs}

theorem bytes_eq_ok (hoctets : IsOctets arcs) : bytes arcs = .ok (octetsOf arcs) :=
  if_pos hoctets

/-- A sub-identifier above 255 is a `ValueError`. -/
theorem bytes_eq_error (hoctets : ¬ IsOctets arcs) : bytes arcs = .error .valueError :=
  if_neg hoctets

theorem constrain_eq_ok {value : Value} (haccepts : syntaxObj.accepts value) :
    syntaxObj.constrain value = .ok value :=
  if_pos haccepts

/-- A value that the constraints refuse is a `PyAsn1Error`. -/
theorem constrain_eq_error {value : Value} (haccepts : ¬ syntaxObj.accepts value) :
    syntaxObj.constrain value = .error .pyAsn1Error :=
  if_neg haccepts

/-- A string is made of octets. -/
theorem cloneTuple_string (htype : syntaxObj.baseType = .octetString) (hoctets : IsOctets arcs) :
    syntaxObj.cloneTuple arcs = syntaxObj.constrain (.octetString (octetsOf arcs)) := by
  have hpretty : BaseType.octetString.prettyInTuple arcs = bytes arcs := rfl
  rw [IndexSyntax.cloneTuple, htype, hpretty, bytes_eq_ok hoctets]
  rfl

/-- A string of sub-identifiers above 255 is a `ValueError`. -/
theorem cloneTuple_string_eq_error (htype : syntaxObj.baseType = .octetString)
    (hoctets : ¬ IsOctets arcs) : syntaxObj.cloneTuple arcs = .error .valueError := by
  have hpretty : BaseType.octetString.prettyInTuple arcs = bytes arcs := rfl
  rw [IndexSyntax.cloneTuple, htype, hpretty, bytes_eq_error hoctets]
  rfl

/-- A BITS is made of no sub-identifiers. -/
theorem cloneTuple_bits {namedValues : NamedValues}
    (htype : syntaxObj.baseType = .bits namedValues) :
    syntaxObj.cloneTuple [] = syntaxObj.constrain (.octetString []) := by
  rw [IndexSyntax.cloneTuple, htype]
  rfl

/-- BITS of any sub-identifiers raise what is no `PyAsn1Error`. -/
theorem cloneTuple_bits_eq_error {namedValues : NamedValues}
    (htype : syntaxObj.baseType = .bits namedValues) (hsome : arcs ≠ []) :
    ∃ error, error ≠ .pyAsn1Error ∧ syntaxObj.cloneTuple arcs = .error error := by
  obtain ⟨first, others, rfl⟩ := List.exists_cons_of_ne_nil hsome
  rw [IndexSyntax.cloneTuple, htype, BaseType.prettyInTuple, List.map_cons]
  rcases IndexRoundTrip.bitsPrettyIn_number namedValues first (others.map .number) with
    hfails | hfails
  · exact ⟨.keyError, by decide, by rw [hfails]; rfl⟩
  · exact ⟨.typeError, by decide, by rw [hfails]; rfl⟩

/-- An object identifier is made of numbers. -/
theorem cloneOid_eq (hnatural : ∀ arc ∈ arcs, 0 ≤ arc) :
    syntaxObj.cloneOid arcs = syntaxObj.constrain (.objectIdentifier (arcs.map Int.toNat)) := by
  rw [IndexSyntax.cloneOid, oidPrettyIn, if_pos hnatural]
  rfl

/-- A negative sub-identifier is a `PyAsn1Error`. -/
theorem cloneOid_eq_error (hnatural : ¬ ∀ arc ∈ arcs, 0 ≤ arc) :
    syntaxObj.cloneOid arcs = .error .pyAsn1Error := by
  rw [IndexSyntax.cloneOid, oidPrettyIn, if_neg hnatural]
  rfl

/-- The text of four octets has more than four characters. -/
theorem length_dotted_ne_four (hfour : arcs.length = 4) (hoctets : IsOctets arcs) :
    (dotted arcs).length ≠ 4 := by
  have harcs : arcs = (arcs.map Int.toNat).map (Nat.cast : ℕ → ℤ) := by
    rw [List.map_map]
    exact ((List.map_congr_left fun arc hmem ↦ Int.toNat_of_nonneg (hoctets arc hmem).1).trans
      (List.map_id arcs)).symm
  rw [dotted, harcs]
  exact IndexRoundTrip.length_intercalate_ne_four (by rw [List.length_map, hfour])

/-- An address is made of a text of four characters, or of four octets. -/
theorem cloneDotted_text (htext : (dotted arcs).length = 4) :
    syntaxObj.cloneDotted arcs = syntaxObj.constrain (.octetString (characters (dotted arcs))) := by
  have hpretty : addressPrettyIn arcs = .ok (characters (dotted arcs)) := if_pos htext
  rw [IndexSyntax.cloneDotted, hpretty]
  rfl

/-- An address is made of its octets, unless their text has four characters. -/
theorem addressPrettyIn_eq (htext : (dotted arcs).length ≠ 4) :
    addressPrettyIn arcs = (bytes arcs >>= fun octets ↦
      if octets.length = 4 then .ok octets else .error .pyAsn1Error) := by
  refine (if_neg htext : addressPrettyIn arcs = _).trans ?_
  cases bytes arcs with
  | error error => rfl
  | ok octets => rfl

/-- Four octets are an address. -/
theorem cloneDotted_octets (htext : (dotted arcs).length ≠ 4) (hoctets : IsOctets arcs) :
    syntaxObj.cloneDotted arcs =
      if arcs.length = 4 then syntaxObj.constrain (.octetString (octetsOf arcs))
      else .error .pyAsn1Error := by
  have hlength : (octetsOf arcs).length = arcs.length := List.length_map _
  rw [IndexSyntax.cloneDotted, addressPrettyIn_eq htext, bytes_eq_ok hoctets]
  split_ifs with hfour
  · simp only [bind, Except.bind, hlength, hfour, if_true]
  · simp only [bind, Except.bind, hlength, hfour, if_false]

/-- A sub-identifier above 255 in an address is a `ValueError`. -/
theorem cloneDotted_eq_error (htext : (dotted arcs).length ≠ 4) (hoctets : ¬ IsOctets arcs) :
    syntaxObj.cloneDotted arcs = .error .valueError := by
  rw [IndexSyntax.cloneDotted, addressPrettyIn_eq htext, bytes_eq_error hoctets]
  rfl

end Constructors

/-! ### The branches of `setFromName` -/

section Branches

variable {index : RowIndex} (parentIndices : List Value) {instId : Arcs}

/-- An INTEGER takes one sub-identifier. -/
theorem setFromName_integer (htag : index.syntaxObj.baseType.baseTag = .integer) (arc : ℤ)
    (others : Arcs) :
    (Index.base index).setFromName parentIndices (arc :: others) =
      reading (index.syntaxObj.constrain (.integer arc)) others := by
  simp only [Index.setFromName, IndexEncoding.setFromName, htag, if_true, IndexSyntax.cloneInteger]

/-- An address takes four. -/
theorem setFromName_ipAddress (htype : index.syntaxObj.baseType = .ipAddress) (hne : instId ≠ []) :
    (Index.base index).setFromName parentIndices instId =
      reading (index.syntaxObj.cloneDotted (instId.take 4)) (instId.drop 4) :=
  IndexRoundTrip.setFromName_address hne (by rw [htype]; rfl) (by rw [htype]; rfl)

/-- A string or a BITS is made of its share. -/
theorem setFromName_share (hstring : IndexRoundTrip.IsString index) (hne : instId ≠ []) :
    (Index.base index).setFromName parentIndices instId =
      reading (index.syntaxObj.cloneTuple (stringShare index instId).1)
        (stringShare index instId).2 := by
  obtain ⟨first, others, rfl⟩ := List.exists_cons_of_ne_nil hne
  rw [Index.setFromName, IndexRoundTrip.setFromName_string hstring]
  unfold stringShare share
  cases index.impliedFlag with
  | true => rfl
  | false =>
    cases index.syntaxObj.fixedLength with
    | none => rfl
    | some length => rfl

/-- An object identifier is made of its share. -/
theorem setFromName_oidShare (htype : index.syntaxObj.baseType = .objectIdentifier)
    (hne : instId ≠ []) :
    (Index.base index).setFromName parentIndices instId =
      reading (index.syntaxObj.cloneOid (oidShare index instId).1) (oidShare index instId).2 := by
  obtain ⟨first, others, rfl⟩ := List.exists_cons_of_ne_nil hne
  rw [Index.setFromName, IndexRoundTrip.setFromName_objectIdentifier (by rw [htype]; rfl)
    (by rw [htype]; exact Bool.false_ne_true)]
  unfold oidShare share
  cases index.impliedFlag with
  | true => rfl
  | false => rfl

theorem isString_of_octetString (htype : index.syntaxObj.baseType = .octetString) :
    IndexRoundTrip.IsString index :=
  ⟨by rw [htype]; rfl, by rw [htype]; exact Bool.false_ne_true⟩

theorem isString_of_bits {namedValues : NamedValues}
    (htype : index.syntaxObj.baseType = .bits namedValues) : IndexRoundTrip.IsString index :=
  ⟨by rw [htype]; rfl, by rw [htype]; exact Bool.false_ne_true⟩

theorem stringShare_nil : (stringShare index []).1 = [] := by
  unfold stringShare share
  cases index.impliedFlag with
  | true => rfl
  | false =>
    cases index.syntaxObj.fixedLength with
    | none => rfl
    | some length => exact List.take_nil

/-- A network address takes its kind and four. -/
theorem setFromName_networkAddress {convert : Value → Except PythonError Value} (others : Arcs) :
    (Index.networkAddress convert).setFromName parentIndices (1 :: others) =
      reading (networkOctets (others.take 4)) (others.drop 4) := by
  rw [Index.setFromName, networkFromName]
  exact if_pos rfl

/-- An address is made of what it is split off, by the constraints of its type. -/
theorem setFromName_inetAddress {address : InetAddress} {octets rest : Arcs}
    {accepts : Octets → Bool} (hsplit : address.splitIndex instId = .ok (octets, rest))
    (htype : address.concreteType parentIndices octets.length = .ok accepts) :
    (Index.inetAddress address).setFromName parentIndices instId =
      reading (bytes octets >>= constrainOctets accepts) rest := by
  rw [Index.setFromName, InetAddress.cloneFromName, hsplit]
  simp only [bind, Except.bind, htype]

end Branches

/-! ### The three outcomes -/

section Outcomes

variable {index : Index} {parentIndices : List Value} {instId rest : Arcs} {value : Value}

/-- What an index reads is what `setFromName` returns. -/
theorem Reads.setFromName_eq (hreads : Reads index parentIndices instId value rest) :
    index.setFromName parentIndices instId = .ok (value, rest) := by
  cases hreads with
  | integer htag haccepts =>
    rw [setFromName_integer _ htag, constrain_eq_ok haccepts]
    rfl
  | address htype hfour hoctets haccepts =>
    have hne : instId ≠ [] := by
      rintro rfl
      simp at hfour
    rw [setFromName_ipAddress _ htype hne,
      cloneDotted_octets (length_dotted_ne_four hfour hoctets) hoctets, if_pos hfour,
      constrain_eq_ok haccepts]
    rfl
  | addressText htype hne htext haccepts =>
    rw [setFromName_ipAddress _ htype hne, cloneDotted_text htext, constrain_eq_ok haccepts]
    rfl
  | string htype hne hoctets haccepts =>
    rw [setFromName_share _ (isString_of_octetString htype) hne, cloneTuple_string htype hoctets,
      constrain_eq_ok haccepts]
    rfl
  | bits htype hne hnone haccepts =>
    rw [setFromName_share _ (isString_of_bits htype) hne, hnone, cloneTuple_bits htype,
      constrain_eq_ok haccepts]
    rfl
  | objectIdentifier htype hne hnatural haccepts =>
    rw [setFromName_oidShare _ htype hne, cloneOid_eq hnatural, constrain_eq_ok haccepts]
    rfl
  | networkAddress hfour hoctets =>
    rw [setFromName_networkAddress, networkOctets, if_neg (not_not.mpr hfour), bytes_eq_ok hoctets]
    rfl
  | inetAddress hsplit htype hoctets haccepts =>
    rw [setFromName_inetAddress _ hsplit htype, bytes_eq_ok hoctets]
    simp only [bind, Except.bind, constrainOctets, if_pos haccepts]
    rfl

theorem isPyAsn1Error_python {error : PythonError} (hne : error ≠ .pyAsn1Error) :
    isPyAsn1Error (.python error) = false :=
  decide_eq_false hne

/-- Where an index breaks, `setFromName` raises what is no `PyAsn1Error`. -/
theorem Breaks.setFromName_eq (hbreaks : Breaks index parentIndices instId) :
    ∃ error, index.setFromName parentIndices instId = .error (.python error) ∧
      error ≠ .pyAsn1Error := by
  cases hbreaks with
  | address htype htext hoctets =>
    have hne : instId ≠ [] := by
      rintro rfl
      exact hoctets fun arc hmem ↦ absurd hmem List.not_mem_nil
    refine ⟨.valueError, ?_, by decide⟩
    rw [setFromName_ipAddress _ htype hne, cloneDotted_eq_error htext hoctets]
    rfl
  | string htype hoctets =>
    have hne : instId ≠ [] := by
      rintro rfl
      rw [stringShare_nil] at hoctets
      exact hoctets fun arc hmem ↦ absurd hmem List.not_mem_nil
    refine ⟨.valueError, ?_, by decide⟩
    rw [setFromName_share _ (isString_of_octetString htype) hne,
      cloneTuple_string_eq_error htype hoctets]
    rfl
  | bits htype hsome =>
    have hne : instId ≠ [] := by
      rintro rfl
      exact hsome stringShare_nil
    obtain ⟨error, herror, hfails⟩ := cloneTuple_bits_eq_error htype hsome
    refine ⟨error, ?_, herror⟩
    rw [setFromName_share _ (isString_of_bits htype) hne, hfails]
    rfl
  | networkAddress hfour hoctets =>
    refine ⟨.valueError, ?_, by decide⟩
    rw [setFromName_networkAddress _, networkOctets, if_neg (not_not.mpr hfour),
      bytes_eq_error hoctets]
    rfl
  | inetAddress hsplit htype hoctets =>
    refine ⟨.valueError, ?_, by decide⟩
    rw [setFromName_inetAddress _ hsplit htype, bytes_eq_error hoctets]
    rfl

/-- The index is refused. -/
def IsRefused (index : Index) (parentIndices : List Value) (instId : Arcs) : Prop :=
  ∃ exception, index.setFromName parentIndices instId = .error exception ∧ isPyAsn1Error exception

/-- A value that the constraints refuse is no value of the index. -/
theorem isRefused_of_constrain {plain : Value} {syntaxObj : IndexSyntax}
    (hread : index.setFromName parentIndices instId = reading (syntaxObj.constrain plain) rest)
    (hrefuses : ¬ syntaxObj.accepts plain) : IsRefused index parentIndices instId :=
  ⟨.python .pyAsn1Error, by rw [hread, constrain_eq_error hrefuses]; rfl, rfl⟩

/-- No index has a value at the end of an identifier. -/
theorem isRefused_nil (index : Index) (parentIndices : List Value) :
    IsRefused index parentIndices [] := by
  refine ⟨.smi { kind := .smiError }, ?_, rfl⟩
  cases index with
  | base index => rfl
  | networkAddress convert => rfl
  | inetAddress address => rfl

/-- An index of a base type reads, breaks or refuses. -/
theorem base_outcome (index : RowIndex) (hne : instId ≠ []) :
    (∃ value rest, Reads (.base index) parentIndices instId value rest) ∨
      Breaks (.base index) parentIndices instId ∨ IsRefused (.base index) parentIndices instId := by
  cases htype : index.syntaxObj.baseType with
  | integer =>
    obtain ⟨arc, others, rfl⟩ := List.exists_cons_of_ne_nil hne
    have htag : index.syntaxObj.baseType.baseTag = .integer := by rw [htype]; rfl
    by_cases haccepts : index.syntaxObj.accepts (.integer arc)
    · exact .inl ⟨_, _, .integer htag haccepts⟩
    · have hread := setFromName_integer parentIndices htag arc others
      exact .inr (.inr (isRefused_of_constrain hread haccepts))
  | ipAddress =>
    have hread := setFromName_ipAddress parentIndices htype hne
    by_cases htext : (dotted (instId.take 4)).length = 4
    · rw [cloneDotted_text htext] at hread
      by_cases haccepts :
          index.syntaxObj.accepts (.octetString (characters (dotted (instId.take 4))))
      · exact .inl ⟨_, _, .addressText htype hne htext haccepts⟩
      · exact .inr (.inr (isRefused_of_constrain hread haccepts))
    · by_cases hoctets : IsOctets (instId.take 4)
      · rw [cloneDotted_octets htext hoctets] at hread
        by_cases hfour : (instId.take 4).length = 4
        · rw [if_pos hfour] at hread
          by_cases haccepts :
              index.syntaxObj.accepts (.octetString (octetsOf (instId.take 4)))
          · exact .inl ⟨_, _, .address htype hfour hoctets haccepts⟩
          · exact .inr (.inr (isRefused_of_constrain hread haccepts))
        · rw [if_neg hfour] at hread
          exact .inr (.inr ⟨_, hread, rfl⟩)
      · exact .inr (.inl (.address htype htext hoctets))
  | octetString =>
    have hread := setFromName_share parentIndices
      (isString_of_octetString htype) hne
    by_cases hoctets : IsOctets (stringShare index instId).1
    · rw [cloneTuple_string htype hoctets] at hread
      by_cases haccepts :
          index.syntaxObj.accepts (.octetString (octetsOf (stringShare index instId).1))
      · exact .inl ⟨_, _, .string htype hne hoctets haccepts⟩
      · exact .inr (.inr (isRefused_of_constrain hread haccepts))
    · exact .inr (.inl (.string htype hoctets))
  | bits namedValues =>
    have hread := setFromName_share parentIndices (isString_of_bits htype) hne
    by_cases hnone : (stringShare index instId).1 = []
    · rw [hnone, cloneTuple_bits htype] at hread
      by_cases haccepts : index.syntaxObj.accepts (.octetString [])
      · exact .inl ⟨_, _, .bits htype hne hnone haccepts⟩
      · exact .inr (.inr (isRefused_of_constrain hread haccepts))
    · exact .inr (.inl (.bits htype hnone))
  | objectIdentifier =>
    have hread := setFromName_oidShare parentIndices htype hne
    by_cases hnatural : ∀ arc ∈ (oidShare index instId).1, 0 ≤ arc
    · rw [cloneOid_eq hnatural] at hread
      by_cases haccepts :
          index.syntaxObj.accepts (.objectIdentifier ((oidShare index instId).1.map Int.toNat))
      · exact .inl ⟨_, _, .objectIdentifier htype hne hnatural haccepts⟩
      · exact .inr (.inr (isRefused_of_constrain hread haccepts))
    · rw [cloneOid_eq_error hnatural] at hread
      exact .inr (.inr ⟨_, hread, rfl⟩)

/-- So does a network address. -/
theorem networkAddress_outcome (convert : Value → Except PythonError Value) (kind : ℤ)
    (others : Arcs) :
    (∃ value rest, Reads (.networkAddress convert) parentIndices (kind :: others) value rest) ∨
      Breaks (.networkAddress convert) parentIndices (kind :: others) ∨
        IsRefused (.networkAddress convert) parentIndices (kind :: others) := by
  by_cases hkind : kind = 1
  · subst hkind
    by_cases hfour : (others.take 4).length = 4
    · by_cases hoctets : IsOctets (others.take 4)
      · exact .inl ⟨_, _, .networkAddress hfour hoctets⟩
      · exact .inr (.inl (.networkAddress hfour hoctets))
    · refine .inr (.inr ⟨.python .pyAsn1Error, ?_, rfl⟩)
      rw [setFromName_networkAddress _, networkOctets, if_pos hfour]
      rfl
  · exact .inr (.inr ⟨.smi { kind := .smiError }, if_neg hkind, rfl⟩)

/-- An InetAddress that is cut short is an `SmiError`. -/
theorem splitIndex_error {address : InetAddress} {exception : MibException}
    (hsplit : address.splitIndex instId = .error exception) :
    exception = .smi { kind := .smiError } := by
  cases instId with
  | nil => exact (Except.error.inj hsplit).symm
  | cons length others =>
    rw [InetAddress.splitIndex] at hsplit
    split_ifs at hsplit with himplied hshort
    exact (Except.error.inj hsplit).symm

/-- An InetAddress of an unknown type is an `SmiError`. -/
theorem concreteType_error {address : InetAddress} {length : ℕ} {exception : MibException}
    (htype : address.concreteType parentIndices length = .error exception) :
    exception = .smi { kind := .smiError } := by
  rw [InetAddress.concreteType] at htype
  split at htype
  · split at htype
    · cases htype
    · split_ifs at htype
      exact (Except.error.inj htype).symm
  · cases htype

/-- So does an InetAddress. -/
theorem inetAddress_outcome (address : InetAddress) (instId : Arcs) :
    (∃ value rest, Reads (.inetAddress address) parentIndices instId value rest) ∨
      Breaks (.inetAddress address) parentIndices instId ∨
        IsRefused (.inetAddress address) parentIndices instId := by
  cases hsplit : address.splitIndex instId with
  | error exception =>
    obtain rfl := splitIndex_error hsplit
    refine .inr (.inr ⟨.smi { kind := .smiError }, ?_, rfl⟩)
    rw [Index.setFromName, InetAddress.cloneFromName, hsplit]
    rfl
  | ok found =>
    obtain ⟨octets, rest⟩ := found
    cases htype : address.concreteType parentIndices octets.length with
    | error exception =>
      obtain rfl := concreteType_error htype
      refine .inr (.inr ⟨.smi { kind := .smiError }, ?_, rfl⟩)
      rw [Index.setFromName, InetAddress.cloneFromName, hsplit]
      simp only [bind, Except.bind, htype]
    | ok accepts =>
      by_cases hoctets : IsOctets octets
      · by_cases haccepts : accepts (octetsOf octets)
        · exact .inl ⟨_, _, .inetAddress hsplit htype hoctets haccepts⟩
        · refine .inr (.inr ⟨.python .pyAsn1Error, ?_, rfl⟩)
          rw [setFromName_inetAddress _ hsplit htype, bytes_eq_ok hoctets]
          simp only [bind, Except.bind, constrainOctets, if_neg haccepts]
          rfl
      · exact .inr (.inl (.inetAddress hsplit htype hoctets))

/-- An index has a value, raises something that is no `PyAsn1Error`, or is refused. -/
theorem reads_or_breaks_or_isRefused (index : Index) (parentIndices : List Value) (instId : Arcs) :
    (∃ value rest, Reads index parentIndices instId value rest) ∨
      Breaks index parentIndices instId ∨ IsRefused index parentIndices instId := by
  rcases eq_or_ne instId [] with rfl | hne
  · exact .inr (.inr (isRefused_nil index parentIndices))
  cases index with
  | base index => exact base_outcome index hne
  | networkAddress convert =>
    obtain ⟨kind, others, rfl⟩ := List.exists_cons_of_ne_nil hne
    exact networkAddress_outcome convert kind others
  | inetAddress address => exact inetAddress_outcome address instId

/-- The three outcomes exclude each other. -/
theorem IsRefused.not_breaks (hrefused : IsRefused index parentIndices instId) :
    ¬ Breaks index parentIndices instId := by
  intro hbreaks
  obtain ⟨exception, hraised, hcaught⟩ := hrefused
  obtain ⟨error, herror, hne⟩ := hbreaks.setFromName_eq
  rw [herror] at hraised
  obtain rfl := Except.error.inj hraised
  rw [isPyAsn1Error_python hne] at hcaught
  cases hcaught

theorem IsRefused.not_reads (hrefused : IsRefused index parentIndices instId) :
    ¬ Reads index parentIndices instId value rest := by
  intro hreads
  obtain ⟨exception, hraised, -⟩ := hrefused
  rw [hreads.setFromName_eq] at hraised
  cases hraised

theorem Breaks.not_reads (hbreaks : Breaks index parentIndices instId) :
    ¬ Reads index parentIndices instId value rest := by
  intro hreads
  obtain ⟨error, herror, -⟩ := hbreaks.setFromName_eq
  rw [hreads.setFromName_eq] at herror
  cases herror

/-- `setFromName` reads a value where the index has one. -/
theorem setFromName_eq_ok_iff :
    index.setFromName parentIndices instId = .ok (value, rest) ↔
      Reads index parentIndices instId value rest := by
  refine ⟨fun hread ↦ ?_, Reads.setFromName_eq⟩
  rcases reads_or_breaks_or_isRefused index parentIndices instId with
    ⟨other, left, hreads⟩ | hbreaks | ⟨exception, hraised, -⟩
  · have hsame := hreads.setFromName_eq
    rw [hread] at hsame
    obtain ⟨rfl, rfl⟩ := Prod.mk.inj (Except.ok.inj hsame)
    exact hreads
  · obtain ⟨error, herror, -⟩ := hbreaks.setFromName_eq
    rw [hread] at herror
    cases herror
  · rw [hread] at hraised
    cases hraised

/-- `setFromName` raises something that is no `PyAsn1Error` where the index breaks. -/
theorem breaks_iff :
    Breaks index parentIndices instId ↔
      ∃ exception, index.setFromName parentIndices instId = .error exception ∧
        ¬ isPyAsn1Error exception := by
  constructor
  · intro hbreaks
    obtain ⟨error, herror, hne⟩ := hbreaks.setFromName_eq
    exact ⟨_, herror, by rw [isPyAsn1Error_python hne]; exact Bool.false_ne_true⟩
  · rintro ⟨exception, hraised, hescapes⟩
    rcases reads_or_breaks_or_isRefused index parentIndices instId with
      ⟨other, left, hreads⟩ | hbreaks | ⟨other, hother, hcaught⟩
    · rw [hreads.setFromName_eq] at hraised
      cases hraised
    · exact hbreaks
    · rw [hraised] at hother
      rw [← Except.error.inj hother] at hcaught
      exact absurd hcaught hescapes

end Outcomes

/-! ### The indices of a row -/

/-- After the values of the first indices these indices are left to be read, with the values before
them, from what is left of the identifier. -/
inductive Reaches : List Index → List Value → Arcs → List Index → List Value → Arcs → Prop
  | refl {row : List Index} {parentIndices : List Value} {instId : Arcs} :
      Reaches row parentIndices instId row parentIndices instId
  | read {index : Index} {row later : List Index} {parentIndices values : List Value}
      {instId rest left : Arcs} {value : Value}
      (hreads : Reads index parentIndices instId value rest)
      (hrest : Reaches row (parentIndices ++ [value]) rest later values left) :
      Reaches (index :: row) parentIndices instId later values left

/-- No index that the reading of the identifier comes to raises anything that is no `PyAsn1Error`,
and where one has no value, nothing has been taken from the identifier before it. -/
def KeepsWhole (indexNames : List Index) (instId : Arcs) : Prop :=
  ∀ index row parentIndices rest, Reaches indexNames [] instId (index :: row) parentIndices rest →
    ¬ Breaks index parentIndices rest ∧
      ((∀ value left, ¬ Reads index parentIndices rest value left) → rest = instId)

end Pysnmp.Smi.IndexOutcomes
