import Pysnmp.Smi.IndexEncoding

/-!
# Reading instance identifiers back

The values of the indices of a row are spelled as an instance identifier, and the identifier is read
back as the values, if no index is a BITS with octets to it: `setFromName` hands the octets to a
constructor that takes them for the names of bits. `roundTrips_iff` states this for every content
that calls can leave in the caches. Distinct values have distinct identifiers in any case
(`spell_injective`).
-/

set_option autoImplicit false
set_option relaxedAutoImplicit false

namespace Pysnmp.Smi.IndexRoundTrip

open Foundation Foundation.Effect LimitedCache Proto IndexEncoding

/-! ### Rows and their values -/

/-- The indices of a row, of which only the last one may be implied. -/
structure IndexedRow where
  indexNames : List RowIndex
  implied_last : ∀ index ∈ indexNames.dropLast, index.impliedFlag = false

/-- The syntax of an index accepts the value, which is not empty if it is implied. -/
def Accepts (index : RowIndex) (value : Value) : Prop :=
  index.syntaxObj.accepts value ∧ (index.impliedFlag → asNumbers value ≠ [])

/-- The instance identifier of values that their syntaxes accept. -/
def spell : List RowIndex → List Value → Arcs
  | index :: indexNames, value :: values =>
    getAsName index.syntaxObj value index.impliedFlag ++ spell indexNames values
  | _, _ => []

/-- A string, which may have no sub-identifiers. -/
def IsString (index : RowIndex) : Prop :=
  index.syntaxObj.baseType.baseTag = .octetString ∧ ¬ index.syntaxObj.baseType.isIpAddress

/-- Every BITS among the values is empty, and the last index is not a string of fixed length
zero. -/
structure Readable (indexNames : List RowIndex) (values : List Value) : Prop where
  bits : List.Forall₂ (fun index value ↦ index.syntaxObj.baseType.isBits → value = .octetString [])
    indexNames values
  last : ∀ index ∈ indexNames.getLast?, IsString index → index.syntaxObj.fixedLength ≠ some 0

/-! ### Constructors on what was spelled -/

/-- Octets come back from their numbers. -/
theorem bytes_map_toNat (octets : Octets) :
    bytes (octets.map fun octet ↦ (octet.toNat : ℤ)) = .ok octets := by
  have hrange : ∀ arc ∈ octets.map fun octet ↦ (octet.toNat : ℤ), 0 ≤ arc ∧ arc ≤ 255 := by
    intro arc hmem
    obtain ⟨octet, -, rfl⟩ := List.mem_map.mp hmem
    have hlt := octet.toNat_lt
    omega
  unfold bytes
  rw [if_pos hrange, List.map_map]
  simp [Function.comp_def]

/-- An object identifier comes back from its arcs. -/
theorem oidPrettyIn_map_cast (oid : Oid) :
    oidPrettyIn (oid.map fun arc : ℕ ↦ (arc : ℤ)) = .ok oid := by
  have hrange : ∀ arc ∈ oid.map fun arc : ℕ ↦ (arc : ℤ), 0 ≤ arc := by
    intro arc hmem
    obtain ⟨natural, -, rfl⟩ := List.mem_map.mp hmem
    omega
  unfold oidPrettyIn
  rw [if_pos hrange, List.map_map]
  simp [Function.comp_def]

theorem length_toString_pos (number : ℕ) : 0 < (toString (number : ℤ)).length := by
  show 0 < number.repr.length
  exact Nat.length_repr_pos

/-- Four numbers have three dots between them. -/
theorem length_intercalate_ne_four {numbers : List ℕ} (hlength : numbers.length = 4) :
    (String.intercalate "." ((numbers.map (Nat.cast : ℕ → ℤ)).map toString)).length ≠ 4 := by
  match numbers, hlength with
  | [first, second, third, fourth], _ =>
    have hfirst := length_toString_pos first
    have hsecond := length_toString_pos second
    have hthird := length_toString_pos third
    have hfourth := length_toString_pos fourth
    have hdot : ".".length = 1 := rfl
    simp only [List.map_cons, List.map_nil, String.intercalate_cons_cons,
      String.intercalate_singleton, String.length_append, hdot]
    omega

/-- An address comes back from its four numbers. -/
theorem addressPrettyIn_map_toNat {octets : Octets} (hlength : octets.length = 4) :
    addressPrettyIn (octets.map fun octet ↦ (octet.toNat : ℤ)) = .ok octets := by
  have htext : (String.intercalate "."
      ((octets.map fun octet ↦ (octet.toNat : ℤ)).map toString)).length ≠ 4 := by
    have hfour : (octets.map UInt8.toNat).length = 4 := by rw [List.length_map, hlength]
    simpa only [List.map_map, Function.comp_def] using length_intercalate_ne_four hfour
  unfold addressPrettyIn
  rw [bytes_map_toNat]
  simp only [htext, if_false, hlength, if_true]

/-- What was counted is taken, and the rest left. -/
theorem counted_append (numbers rest : Arcs) :
    counted (numbers.length : ℤ) ((numbers.length : ℤ) :: numbers ++ rest) = (numbers, rest) := by
  have hbound : sliceBound ((numbers.length : ℤ) :: numbers ++ rest).length (numbers.length + 1) =
      numbers.length + 1 := by
    unfold sliceBound
    rw [if_neg (by omega)]
    omega
  unfold counted
  rw [hbound]
  simp

/-- A number is no name of a bit. -/
theorem getItem_number (namedValues : NamedValues) (number : ℤ) :
    namedValues.getItem (.number number) = none ∨
      ∃ name, namedValues.getItem (.number number) = some (.name name) := by
  unfold NamedValues.getItem
  simp only
  cases namedValues.find? fun entry ↦ (entry.2 : ℤ) = number with
  | none => exact Or.inl rfl
  | some entry => exact Or.inr ⟨entry.1, rfl⟩

/-- The first octet of a BITS has no bit number: it is the key of a name, or of nothing. -/
theorem bitsPrettyIn_number (namedValues : NamedValues) (first : ℤ) (others : List BitKey) :
    bitsPrettyIn namedValues (.number first :: others) = .error .keyError ∨
      bitsPrettyIn namedValues (.number first :: others) = .error .typeError := by
  unfold bitsPrettyIn
  rw [List.foldlM_cons]
  unfold setBit
  rcases getItem_number namedValues first with hnone | ⟨name, hname⟩
  · rw [hnone]
    exact Or.inl rfl
  · rw [hname]
    exact Or.inr rfl

/-! ### One index -/

/-- The accepted values of an index, by the branch of `setFromName` and `getAsName` they take. -/
inductive Spelled (index : RowIndex) : Value → Prop
  | integer (number : ℤ) (htag : index.syntaxObj.baseType.baseTag = .integer)
      (hbits : ¬ index.syntaxObj.baseType.isBits) : Spelled index (.integer number)
  | address (octets : Octets) (htag : index.syntaxObj.baseType.baseTag = .octetString)
      (haddress : index.syntaxObj.baseType.isIpAddress)
      (hbits : ¬ index.syntaxObj.baseType.isBits) (hlength : octets.length = 4) :
      Spelled index (.octetString octets)
  | string (octets : Octets) (hstring : IsString index) : Spelled index (.octetString octets)
  | objectIdentifier (oid : Oid) (htag : index.syntaxObj.baseType.baseTag = .objectIdentifier)
      (haddress : ¬ index.syntaxObj.baseType.isIpAddress)
      (hbits : ¬ index.syntaxObj.baseType.isBits) : Spelled index (.objectIdentifier oid)

section Index

variable {index : RowIndex} {value : Value} {rest : Arcs}

/-- A value that is accepted has a spelling. -/
theorem spelled_of_accepts (hvalue : index.syntaxObj.accepts value) : Spelled index value := by
  have hadmits := index.syntaxObj.admits_of_accepts value hvalue
  cases hbase : index.syntaxObj.baseType with
  | integer =>
    cases value with
    | integer number =>
      exact .integer number (by rw [hbase]; rfl) (by rw [hbase]; simp [BaseType.isBits])
    | _ =>
      rw [hbase] at hadmits
      cases hadmits
  | ipAddress =>
    cases value with
    | octetString octets =>
      rw [hbase] at hadmits
      exact .address octets (by rw [hbase]; rfl) (by rw [hbase]; rfl)
        (by rw [hbase]; simp [BaseType.isBits]) (of_decide_eq_true hadmits)
    | _ =>
      rw [hbase] at hadmits
      cases hadmits
  | octetString =>
    cases value with
    | octetString octets =>
      exact .string octets ⟨by rw [hbase]; rfl, by rw [hbase]; simp [BaseType.isIpAddress]⟩
    | _ =>
      rw [hbase] at hadmits
      cases hadmits
  | bits namedValues =>
    cases value with
    | octetString octets =>
      exact .string octets ⟨by rw [hbase]; rfl, by rw [hbase]; simp [BaseType.isIpAddress]⟩
    | _ =>
      rw [hbase] at hadmits
      cases hadmits
  | objectIdentifier =>
    cases value with
    | objectIdentifier oid =>
      exact .objectIdentifier oid (by rw [hbase]; rfl) (by rw [hbase]; simp [BaseType.isIpAddress])
        (by rw [hbase]; simp [BaseType.isBits])
    | _ =>
      rw [hbase] at hadmits
      cases hadmits

theorem constrain_of_accepts (hvalue : index.syntaxObj.accepts value) :
    index.syntaxObj.constrain value = .ok value :=
  if_pos hvalue

/-- An accepted value is one of the values of the type. -/
theorem clone_of_accepts (hvalue : index.syntaxObj.accepts value) :
    index.syntaxObj.clone value = .ok value := by
  unfold IndexSyntax.clone
  rw [if_pos (index.syntaxObj.admits_of_accepts value hvalue), constrain_of_accepts hvalue]

/-- The octets of a string are read back, those of a BITS if there are none. -/
theorem cloneTuple_asNumbers {octets : Octets}
    (hvalue : index.syntaxObj.accepts (.octetString octets))
    (hbits : index.syntaxObj.baseType.isBits → octets = []) :
    index.syntaxObj.cloneTuple (asNumbers (.octetString octets)) = .ok (.octetString octets) := by
  have hbytes : bytes (asNumbers (.octetString octets)) = .ok octets := bytes_map_toNat octets
  have hprettyIn : index.syntaxObj.baseType.prettyInTuple (asNumbers (.octetString octets)) =
      .ok octets := by
    cases hbase : index.syntaxObj.baseType with
    | bits namedValues =>
      rw [hbits (by rw [hbase]; rfl)]
      rfl
    | _ => exact hbytes
  unfold IndexSyntax.cloneTuple
  rw [hprettyIn]
  exact constrain_of_accepts hvalue

/-- An accepted object identifier is made from its arcs. -/
theorem cloneOid_asNumbers {oid : Oid} (hvalue : index.syntaxObj.accepts (.objectIdentifier oid)) :
    index.syntaxObj.cloneOid (asNumbers (.objectIdentifier oid)) =
      .ok (.objectIdentifier oid) := by
  have hoid : oidPrettyIn (asNumbers (.objectIdentifier oid)) = .ok oid := oidPrettyIn_map_cast oid
  unfold IndexSyntax.cloneOid
  rw [hoid]
  exact constrain_of_accepts hvalue

/-- An accepted address is made from its four numbers. -/
theorem cloneDotted_asNumbers {octets : Octets} (hlength : octets.length = 4)
    (hvalue : index.syntaxObj.accepts (.octetString octets)) :
    index.syntaxObj.cloneDotted (asNumbers (.octetString octets)) = .ok (.octetString octets) := by
  have haddress : addressPrettyIn (asNumbers (.octetString octets)) = .ok octets :=
    addressPrettyIn_map_toNat hlength
  unfold IndexSyntax.cloneDotted
  rw [haddress]
  exact constrain_of_accepts hvalue

/-- Only a string of fixed length zero is spelled with no sub-identifiers. -/
theorem getAsName_eq_nil_iff (haccepts : Accepts index value) :
    getAsName index.syntaxObj value index.impliedFlag = [] ↔
      IsString index ∧ index.syntaxObj.fixedLength = some 0 := by
  obtain ⟨hvalue, hfilled⟩ := haccepts
  unfold getAsName
  cases spelled_of_accepts hvalue with
  | integer number htag => simp [htag, asNumbers, IsString]
  | address octets htag haddress hbits hlength =>
    have hne : octets ≠ [] := List.ne_nil_of_length_eq_add_one hlength
    simp [htag, haddress, asNumbers, IsString, hne]
  | string octets hstring =>
    simp only [hstring.1, hstring.2, reduceCtorEq, if_false, if_true, hstring, true_and]
    cases hfixed : index.syntaxObj.fixedLength with
    | none =>
      by_cases himplied : index.impliedFlag = true
      · simp [himplied, hfilled himplied]
      · simp [himplied]
    | some length =>
      have hlength := index.syntaxObj.length_of_accepts length octets hfixed hvalue
      simp [asNumbers, ← hlength]
  | objectIdentifier oid htag haddress =>
    simp only [htag, haddress, reduceCtorEq, if_false, IsString, false_and, iff_false]
    by_cases himplied : index.impliedFlag = true
    · rw [if_pos himplied]
      exact hfilled himplied
    · rw [if_neg himplied]
      exact List.cons_ne_nil _ _

/-- The branches of `getAsName` for an address, a string and an object identifier. -/
theorem getAsName_address (value : Value)
    (htag : index.syntaxObj.baseType.baseTag = .octetString)
    (haddress : index.syntaxObj.baseType.isIpAddress) :
    getAsName index.syntaxObj value index.impliedFlag = asNumbers value := by
  simp only [getAsName, htag, haddress, reduceCtorEq, if_false, if_true]

/-- A string is spelled with its length, unless that is implied or fixed. -/
theorem getAsName_string (value : Value) (hstring : IsString index) :
    getAsName index.syntaxObj value index.impliedFlag =
      if index.impliedFlag || index.syntaxObj.fixedLength.isSome then asNumbers value
      else ((asNumbers value).length : ℤ) :: asNumbers value := by
  simp only [getAsName, hstring.1, hstring.2, reduceCtorEq, if_false, if_true]

/-- An object identifier is spelled with its length, unless that is implied. -/
theorem getAsName_objectIdentifier (value : Value)
    (htag : index.syntaxObj.baseType.baseTag = .objectIdentifier)
    (haddress : ¬ index.syntaxObj.baseType.isIpAddress) :
    getAsName index.syntaxObj value index.impliedFlag =
      if index.impliedFlag then asNumbers value
      else ((asNumbers value).length : ℤ) :: asNumbers value := by
  simp only [getAsName, htag, haddress, reduceCtorEq, if_false]

/-- The branch of `setFromName` for an address. -/
theorem setFromName_address {arcs : Arcs} (hne : arcs ≠ [])
    (htag : index.syntaxObj.baseType.baseTag = .octetString)
    (haddress : index.syntaxObj.baseType.isIpAddress) :
    setFromName index.syntaxObj arcs index.impliedFlag =
      reading (index.syntaxObj.cloneDotted (arcs.take 4)) (arcs.drop 4) := by
  obtain ⟨first, others, rfl⟩ := List.exists_cons_of_ne_nil hne
  simp only [setFromName, htag, reduceCtorEq, if_false, haddress, if_true]

/-- The branches of `setFromName` for a string. -/
theorem setFromName_string {first : ℤ} {others : Arcs} (hstring : IsString index) :
    setFromName index.syntaxObj (first :: others) index.impliedFlag =
      if index.impliedFlag then reading (index.syntaxObj.cloneTuple (first :: others)) []
      else match index.syntaxObj.fixedLength with
        | some fixedLength =>
          reading (index.syntaxObj.cloneTuple ((first :: others).take fixedLength))
            ((first :: others).drop fixedLength)
        | none => reading (index.syntaxObj.cloneTuple (counted first (first :: others)).1)
            (counted first (first :: others)).2 := by
  cases hfixed : index.syntaxObj.fixedLength <;>
    simp only [setFromName, hstring.1, hstring.2, hfixed, reduceCtorEq, if_false, if_true]

/-- The branches of `setFromName` for an object identifier. -/
theorem setFromName_objectIdentifier {first : ℤ} {others : Arcs}
    (htag : index.syntaxObj.baseType.baseTag = .objectIdentifier)
    (haddress : ¬ index.syntaxObj.baseType.isIpAddress) :
    setFromName index.syntaxObj (first :: others) index.impliedFlag =
      if index.impliedFlag then reading (index.syntaxObj.cloneOid (first :: others)) []
      else reading (index.syntaxObj.cloneOid (counted first (first :: others)).1)
        (counted first (first :: others)).2 := by
  simp only [setFromName, htag, haddress, reduceCtorEq, if_false]

theorem reading_ok (rest : Arcs) : reading (.ok value) rest = .ok (value, rest) :=
  rfl

/-- The octets of a string go to the constructor again, with what follows them as the rest. -/
theorem setFromName_string_append {octets : Octets} (hstring : IsString index)
    (haccepts : Accepts index (.octetString octets)) (himplied : index.impliedFlag → rest = [])
    (hnonempty : getAsName index.syntaxObj (.octetString octets) index.impliedFlag ++ rest ≠ []) :
    setFromName index.syntaxObj
        (getAsName index.syntaxObj (.octetString octets) index.impliedFlag ++ rest)
        index.impliedFlag =
      reading (index.syntaxObj.cloneTuple (asNumbers (.octetString octets))) rest := by
  have hname := getAsName_string (.octetString octets) hstring
  obtain ⟨first, others, hcons⟩ := List.exists_cons_of_ne_nil hnonempty
  rw [hcons, setFromName_string hstring, ← hcons, hname]
  by_cases hflag : index.impliedFlag = true
  · rw [if_pos hflag, himplied hflag, hflag, Bool.true_or, if_pos rfl, List.append_nil]
  · rw [if_neg hflag]
    rw [Bool.not_eq_true] at hflag
    cases hfixed : index.syntaxObj.fixedLength with
    | some fixedLength =>
      have hlength : (asNumbers (.octetString octets)).length = fixedLength := by
        rw [← index.syntaxObj.length_of_accepts fixedLength octets hfixed haccepts.1]
        exact List.length_map _
      simp only [hflag, Option.isSome_some, Bool.or_true, if_true]
      rw [← hlength, List.take_left', List.drop_left']
      · rfl
      · rfl
    | none =>
      have hfirst : first = ((asNumbers (.octetString octets)).length : ℤ) := by
        rw [hname, hflag, hfixed] at hcons
        exact (List.cons.inj hcons).1.symm
      simp only [hflag, Option.isSome_none, Bool.or_false, Bool.false_eq_true, if_false]
      rw [hfirst, counted_append]

/-- A value is read back from the head of an identifier, a BITS if it is empty. -/
theorem setFromName_getAsName (haccepts : Accepts index value)
    (hbits : index.syntaxObj.baseType.isBits → value = .octetString [])
    (himplied : index.impliedFlag → rest = [])
    (hnonempty : getAsName index.syntaxObj value index.impliedFlag ++ rest ≠ []) :
    setFromName index.syntaxObj (getAsName index.syntaxObj value index.impliedFlag ++ rest)
      index.impliedFlag = .ok (value, rest) := by
  cases spelled_of_accepts haccepts.1 with
  | integer number htag =>
    have hclone : index.syntaxObj.cloneInteger number = .ok (.integer number) :=
      constrain_of_accepts haccepts.1
    simp only [getAsName, htag, if_true, asNumbers, List.singleton_append, setFromName, hclone]
    rfl
  | address octets htag haddress _ hlength =>
    have hname := getAsName_address (.octetString octets) htag haddress
    have hfour : (asNumbers (.octetString octets)).length = 4 := by
      rw [← hlength]
      exact List.length_map _
    rw [setFromName_address hnonempty htag haddress, hname, List.take_left' hfour,
      List.drop_left' hfour, cloneDotted_asNumbers hlength haccepts.1, reading_ok]
  | string octets hstring =>
    rw [setFromName_string_append hstring haccepts himplied hnonempty,
      cloneTuple_asNumbers haccepts.1 fun hisBits ↦ Value.octetString.inj (hbits hisBits),
      reading_ok]
  | objectIdentifier oid htag haddress =>
    have hname := getAsName_objectIdentifier (.objectIdentifier oid) htag haddress
    obtain ⟨first, others, hcons⟩ := List.exists_cons_of_ne_nil hnonempty
    rw [hcons, setFromName_objectIdentifier htag haddress, ← hcons, hname]
    by_cases hflag : index.impliedFlag = true
    · rw [if_pos hflag, himplied hflag, if_pos hflag, List.append_nil,
        cloneOid_asNumbers haccepts.1, reading_ok]
    · have hfirst : first = ((asNumbers (.objectIdentifier oid)).length : ℤ) := by
        rw [hname, if_neg hflag] at hcons
        exact (List.cons.inj hcons).1.symm
      rw [if_neg hflag, if_neg hflag, hfirst, counted_append, cloneOid_asNumbers haccepts.1,
        reading_ok]

/-- A BITS that is not empty is not read back. -/
theorem setFromName_bits (haccepts : Accepts index value)
    (hbits : index.syntaxObj.baseType.isBits) (hvalue : value ≠ .octetString [])
    (himplied : index.impliedFlag → rest = []) :
    ∃ error, error ≠ .pyAsn1Error ∧ setFromName index.syntaxObj
      (getAsName index.syntaxObj value index.impliedFlag ++ rest) index.impliedFlag =
        .error (.python error) := by
  cases spelled_of_accepts haccepts.1 with
  | integer number _ hnot => exact absurd hbits hnot
  | address octets _ _ hnot => exact absurd hbits hnot
  | objectIdentifier oid _ _ hnot => exact absurd hbits hnot
  | string octets hstring =>
    have hne : octets ≠ [] := fun heq ↦ hvalue (congrArg Value.octetString heq)
    obtain ⟨first, others, rfl⟩ := List.exists_cons_of_ne_nil hne
    have hnonempty : getAsName index.syntaxObj (.octetString (first :: others))
        index.impliedFlag ++ rest ≠ [] := by
      intro hnil
      have hfixed := ((getAsName_eq_nil_iff haccepts).mp (List.append_eq_nil_iff.mp hnil).1).2
      have hlength := index.syntaxObj.length_of_accepts 0 _ hfixed haccepts.1
      cases hlength
    have hpretty : index.syntaxObj.baseType.prettyInTuple
          (asNumbers (.octetString (first :: others))) = .error .keyError ∨
        index.syntaxObj.baseType.prettyInTuple (asNumbers (.octetString (first :: others))) =
          .error .typeError := by
      cases hbase : index.syntaxObj.baseType with
      | bits namedValues => exact bitsPrettyIn_number namedValues _ _
      | _ =>
        rw [hbase] at hbits
        cases hbits
    rw [setFromName_string_append hstring haccepts himplied hnonempty]
    unfold IndexSyntax.cloneTuple
    rcases hpretty with hkey | htype
    · rw [hkey]
      exact ⟨.keyError, nofun, rfl⟩
    · rw [htype]
      exact ⟨.typeError, nofun, rfl⟩

theorem exists_integer (hvalue : index.syntaxObj.accepts value)
    (htag : index.syntaxObj.baseType.baseTag = .integer) : ∃ number, value = .integer number := by
  cases spelled_of_accepts hvalue with
  | integer number => exact ⟨number, rfl⟩
  | address _ hother => exact nomatch htag.symm.trans hother
  | string _ hstring => exact nomatch htag.symm.trans hstring.1
  | objectIdentifier _ hother => exact nomatch htag.symm.trans hother

theorem exists_octets (hvalue : index.syntaxObj.accepts value)
    (htag : index.syntaxObj.baseType.baseTag = .octetString) :
    ∃ octets, value = .octetString octets ∧
      (index.syntaxObj.baseType.isIpAddress → octets.length = 4) := by
  cases spelled_of_accepts hvalue with
  | integer _ hother => exact nomatch htag.symm.trans hother
  | address octets _ _ _ hlength => exact ⟨octets, rfl, fun _ ↦ hlength⟩
  | string octets hstring => exact ⟨octets, rfl, fun haddress ↦ absurd haddress hstring.2⟩
  | objectIdentifier _ hother => exact nomatch htag.symm.trans hother

theorem exists_oid (hvalue : index.syntaxObj.accepts value)
    (htag : index.syntaxObj.baseType.baseTag = .objectIdentifier) :
    ∃ oid, value = .objectIdentifier oid := by
  cases spelled_of_accepts hvalue with
  | integer _ hother => exact nomatch htag.symm.trans hother
  | address _ hother => exact nomatch htag.symm.trans hother
  | string _ hstring => exact nomatch htag.symm.trans hstring.1
  | objectIdentifier oid => exact ⟨oid, rfl⟩

theorem octets_injective {octets others : Octets}
    (hsame : asNumbers (.octetString octets) = asNumbers (.octetString others)) :
    octets = others := by
  refine List.map_injective_iff.mpr (fun first second heq ↦ ?_) hsame
  exact UInt8.toNat_inj.mp (Int.ofNat_inj.mp heq)

theorem oid_injective {oid other : Oid}
    (hsame : asNumbers (.objectIdentifier oid) = asNumbers (.objectIdentifier other)) :
    oid = other :=
  List.map_injective_iff.mpr (fun _ _ heq ↦ Int.ofNat_inj.mp heq) hsame

/-- Numbers that are counted are separated from what follows them by the count. -/
theorem counted_append_inj {numbers others rest rest' : Arcs}
    (hsame : ((numbers.length : ℤ) :: numbers) ++ rest = ((others.length : ℤ) :: others) ++ rest') :
    numbers = others ∧ rest = rest' := by
  obtain ⟨hlength, happend⟩ := List.cons.inj hsame
  exact List.append_inj happend (Int.ofNat_inj.mp hlength)

/-- Two accepted values of an index that are spelled alike, up to what follows, are equal. -/
theorem getAsName_append_inj {other : Value} {rest' : Arcs} (haccepts : Accepts index value)
    (hother : Accepts index other) (himplied : index.impliedFlag → rest = [] ∧ rest' = [])
    (hsame : getAsName index.syntaxObj value index.impliedFlag ++ rest =
      getAsName index.syntaxObj other index.impliedFlag ++ rest') :
    value = other ∧ rest = rest' := by
  cases htag : index.syntaxObj.baseType.baseTag with
  | integer =>
    obtain ⟨number, rfl⟩ := exists_integer haccepts.1 htag
    obtain ⟨number', rfl⟩ := exists_integer hother.1 htag
    simp only [getAsName, htag, if_true, asNumbers, List.singleton_append, List.cons.injEq]
      at hsame
    exact ⟨by rw [hsame.1], hsame.2⟩
  | octetString =>
    obtain ⟨octets, rfl, hfour⟩ := exists_octets haccepts.1 htag
    obtain ⟨others, rfl, hfour'⟩ := exists_octets hother.1 htag
    have hnumbers : asNumbers (.octetString octets) = asNumbers (.octetString others) ∧
        rest = rest' := by
      simp only [getAsName, htag, reduceCtorEq, if_false, if_true] at hsame
      have hlengths (hequal : octets.length = others.length) :
          (asNumbers (.octetString octets)).length = (asNumbers (.octetString others)).length := by
        simpa [asNumbers] using hequal
      by_cases haddress : index.syntaxObj.baseType.isIpAddress = true
      · rw [if_pos haddress, if_pos haddress] at hsame
        exact List.append_inj hsame (hlengths (by rw [hfour haddress, hfour' haddress]))
      · rw [if_neg haddress, if_neg haddress] at hsame
        by_cases hflag : index.impliedFlag = true
        · obtain ⟨rfl, rfl⟩ := himplied hflag
          rw [hflag, Bool.true_or, if_pos rfl, if_pos rfl] at hsame
          exact ⟨List.append_cancel_right hsame, rfl⟩
        · rw [Bool.not_eq_true] at hflag
          cases hfixed : index.syntaxObj.fixedLength with
          | some length =>
            rw [hflag, hfixed] at hsame
            refine List.append_inj hsame (hlengths ?_)
            rw [index.syntaxObj.length_of_accepts length octets hfixed haccepts.1,
              index.syntaxObj.length_of_accepts length others hfixed hother.1]
          | none =>
            rw [hflag, hfixed] at hsame
            exact counted_append_inj hsame
    exact ⟨by rw [octets_injective hnumbers.1], hnumbers.2⟩
  | objectIdentifier =>
    obtain ⟨oid, rfl⟩ := exists_oid haccepts.1 htag
    obtain ⟨oid', rfl⟩ := exists_oid hother.1 htag
    have hnumbers : asNumbers (.objectIdentifier oid) = asNumbers (.objectIdentifier oid') ∧
        rest = rest' := by
      have haddress : ¬ index.syntaxObj.baseType.isIpAddress := by
        cases spelled_of_accepts haccepts.1 with
        | objectIdentifier _ _ haddress => exact haddress
      simp only [getAsName, htag, haddress, reduceCtorEq, if_false] at hsame
      by_cases hflag : index.impliedFlag = true
      · obtain ⟨rfl, rfl⟩ := himplied hflag
        rw [if_pos hflag, if_pos hflag] at hsame
        exact ⟨List.append_cancel_right hsame, rfl⟩
      · rw [if_neg hflag, if_neg hflag] at hsame
        exact counted_append_inj hsame
    exact ⟨by rw [oid_injective hnumbers.1], hnumbers.2⟩

end Index

/-! ### All indices -/

section Flagged

variable {α : Type*} {flagged : α → Bool} {first : α} {others : List α}

/-- Where only the last item may be flagged, a flagged one has nothing after it. -/
theorem eq_nil_of_flagged (hlast : ∀ item ∈ (first :: others).dropLast, flagged item = false)
    (hfirst : flagged first) : others = [] := by
  cases others with
  | nil => rfl
  | cons next others =>
    have hfalse := hlast first (by rw [List.dropLast_cons_cons]; exact List.mem_cons_self)
    rw [hfirst] at hfalse
    cases hfalse

theorem flagged_last_tail (hlast : ∀ item ∈ (first :: others).dropLast, flagged item = false) :
    ∀ item ∈ others.dropLast, flagged item = false := by
  cases others with
  | nil => exact fun _ hmem ↦ by cases hmem
  | cons next others =>
    intro item hmem
    refine hlast item ?_
    rw [List.dropLast_cons_cons]
    exact List.mem_cons_of_mem _ hmem

end Flagged

section Rows

variable {indexNames : List RowIndex} {values : List Value}

/-- Accepted values are spelled one after the other. -/
theorem instIdOf_eq_spell (haccepts : List.Forall₂ Accepts indexNames values) :
    instIdOf indexNames values = .ok (spell indexNames values) := by
  induction haccepts with
  | nil => rfl
  | cons hhead _ ih =>
    unfold instIdOf spell
    rw [clone_of_accepts hhead.1, ih]

/-- An implied index has nothing after it. -/
theorem spell_eq_nil_of_implied {index : RowIndex}
    (hlast : ∀ other ∈ (index :: indexNames).dropLast, other.impliedFlag = false)
    (himplied : index.impliedFlag) : spell indexNames values = [] := by
  obtain rfl := eq_nil_of_flagged hlast himplied
  rfl

/-- Where nothing is spelled, the last index is a string of fixed length zero. -/
theorem not_readable_of_spell_eq_nil {index : RowIndex}
    (haccepts : List.Forall₂ Accepts (index :: indexNames) values)
    (hnil : spell (index :: indexNames) values = []) :
    ¬ Readable (index :: indexNames) values := by
  induction indexNames generalizing index values with
  | nil =>
    cases haccepts with
    | cons hhead _ =>
      intro hreadable
      obtain ⟨hstring, hfixed⟩ :=
        (getAsName_eq_nil_iff hhead).mp (List.append_eq_nil_iff.mp hnil).1
      exact hreadable.last index rfl hstring hfixed
  | cons next others ih =>
    cases haccepts with
    | cons hhead htail =>
      intro hreadable
      refine ih htail (List.append_eq_nil_iff.mp hnil).2 ⟨?_, ?_⟩
      · cases hreadable.bits with
        | cons _ hbits => exact hbits
      · intro last hlast
        exact hreadable.last last (by rw [List.getLast?_cons_cons]; exact hlast)

/-- An identifier reads as values if its first index does, and the others read the rest. -/
theorem readIndices_cons_iff {index : RowIndex} {value : Value} {instId rest : Arcs}
    (hread : setFromName index.syntaxObj instId index.impliedFlag = .ok (value, rest)) :
    readIndices (index :: indexNames) instId = .ok (.values (value :: values), []) ↔
      readIndices indexNames rest = .ok (.values values, []) := by
  simp only [readIndices, hread]
  cases readIndices indexNames rest with
  | error exception => simp
  | ok result =>
    obtain ⟨indices | instId, last⟩ := result
    · simp
    · simp

/-- Where the first index is in order, the others decide. -/
theorem readable_cons_iff {index : RowIndex} {value : Value}
    (hbits : index.syntaxObj.baseType.isBits → value = .octetString [])
    (hend : indexNames = [] → IsString index → index.syntaxObj.fixedLength ≠ some 0) :
    Readable (index :: indexNames) (value :: values) ↔ Readable indexNames values := by
  constructor
  · rintro ⟨_ | ⟨_, htailBits⟩, hlast⟩
    refine ⟨htailBits, fun last hmem ↦ hlast last ?_⟩
    cases indexNames with
    | nil => cases hmem
    | cons next others => rwa [List.getLast?_cons_cons]
  · intro hrest
    refine ⟨.cons hbits hrest.bits, fun last hmem ↦ ?_⟩
    cases indexNames with
    | nil =>
      obtain rfl : index = last := Option.some.inj hmem
      exact hend rfl
    | cons next others =>
      rw [List.getLast?_cons_cons] at hmem
      exact hrest.last last hmem

/-- What an index raises that is no error of `pyasn1` ends the reading. -/
theorem readIndices_cons_of_error {index : RowIndex} {instId : Arcs} {error : PythonError}
    (herror : error ≠ .pyAsn1Error)
    (hread : setFromName index.syntaxObj instId index.impliedFlag = .error (.python error)) :
    readIndices (index :: indexNames) instId = .error (.python error) := by
  unfold readIndices
  rw [hread]
  exact if_neg (by simpa [isPyAsn1Error] using herror)

/-- The values of the indices are read back exactly where they are readable. -/
theorem readIndices_spell_iff
    (hlast : ∀ index ∈ indexNames.dropLast, index.impliedFlag = false)
    (haccepts : List.Forall₂ Accepts indexNames values) :
    readIndices indexNames (spell indexNames values) = .ok (.values values, []) ↔
      Readable indexNames values := by
  induction haccepts with
  | nil => exact ⟨fun _ ↦ ⟨.nil, fun _ hmem ↦ by cases hmem⟩, fun _ ↦ rfl⟩
  | @cons index value indexNames values hhead htail ih =>
    have himplied : index.impliedFlag → spell indexNames values = [] :=
      spell_eq_nil_of_implied hlast
    by_cases hbits : index.syntaxObj.baseType.isBits → value = .octetString []
    · by_cases hnil : spell (index :: indexNames) (value :: values) = []
      · have hshort : readIndices (index :: indexNames) [] = .ok (.remainder [], []) := by
          simp [readIndices, setFromName, isPyAsn1Error]
        rw [hnil, hshort]
        refine ⟨fun heq ↦ (nomatch heq), fun hreadable ↦ ?_⟩
        exact absurd hreadable (not_readable_of_spell_eq_nil (.cons hhead htail) hnil)
      · have hread := setFromName_getAsName hhead hbits himplied hnil
        have hreadable : Readable (index :: indexNames) (value :: values) ↔
            Readable indexNames values := by
          refine readable_cons_iff hbits ?_
          rintro rfl hstring hfixed
          have hname := (getAsName_eq_nil_iff hhead).mpr ⟨hstring, hfixed⟩
          exact hnil (List.append_eq_nil_iff.mpr ⟨hname, rfl⟩)
        rw [hreadable, ← ih (flagged_last_tail hlast)]
        exact readIndices_cons_iff hread
    · rw [Classical.not_imp] at hbits
      obtain ⟨error, herror, hread⟩ := setFromName_bits hhead hbits.1 hbits.2 himplied
      have hfails : readIndices (index :: indexNames) (spell (index :: indexNames)
          (value :: values)) = .error (.python error) :=
        readIndices_cons_of_error herror hread
      rw [hfails]
      refine iff_of_false (fun hok ↦ nomatch hok) ?_
      rintro ⟨_ | ⟨hempty, _⟩, -⟩
      exact absurd (hempty hbits.1) hbits.2

/-- Distinct values of the indices have distinct instance identifiers. -/
theorem spell_injective {others : List Value}
    (hlast : ∀ index ∈ indexNames.dropLast, index.impliedFlag = false)
    (haccepts : List.Forall₂ Accepts indexNames values)
    (hothers : List.Forall₂ Accepts indexNames others)
    (hsame : spell indexNames values = spell indexNames others) : values = others := by
  induction haccepts generalizing others with
  | nil =>
    cases hothers
    rfl
  | cons hhead htail ih =>
    cases hothers with
    | cons hother hothersTail =>
      obtain ⟨rfl, hrest⟩ := getAsName_append_inj hhead hother (fun himplied ↦
        ⟨spell_eq_nil_of_implied hlast himplied, spell_eq_nil_of_implied hlast himplied⟩) hsame
      rw [ih (flagged_last_tail hlast) hothersTail hrest]

end Rows

/-! ### The caches -/

/-- Every entry of the caches is what the function behind it computes. -/
structure Coherent (indicesOf : Arcs → Except MibException Indices)
    (instIdOf : List Value → Except MibException Arcs) (caches : IndexCaches) : Prop where
  idToIdx : caches.idToIdx.Holds fun instId indices ↦ indicesOf instId = .ok (.values indices)
  idxToId : caches.idxToId.Holds fun indices instId ↦ instIdOf indices = .ok instId

section Caches

variable {indicesOf : Arcs → Except MibException Indices}
  {instIdOf : List Value → Except MibException Arcs} {caches : IndexCaches}

theorem coherent_empty : Coherent indicesOf instIdOf .empty where
  idToIdx := Cache.holds_init _ _
  idxToId := Cache.holds_init _ _

/-- A read of a cache counts, and leaves the caches coherent. -/
theorem onIdToIdx_getItem_run (hcoherent : Coherent indicesOf instIdOf caches) (instId : Arcs) :
    ∃ read, Coherent indicesOf instIdOf read ∧
      (onIdToIdx (Cache.getItem instId)).run caches =
        (.ok (caches.idToIdx.find instId), read) :=
  ⟨{ caches with idToIdx := Cache.countRead instId caches.idToIdx },
    ⟨hcoherent.idToIdx.countRead instId, hcoherent.idxToId⟩, rfl⟩

theorem onIdxToId_getItem_run (hcoherent : Coherent indicesOf instIdOf caches)
    (indices : List Value) :
    ∃ read, Coherent indicesOf instIdOf read ∧
      (onIdxToId (Cache.getItem indices)).run caches =
        (.ok (caches.idxToId.find indices), read) :=
  ⟨{ caches with idxToId := Cache.countRead indices caches.idxToId },
    ⟨hcoherent.idToIdx, hcoherent.idxToId.countRead indices⟩, rfl⟩

/-- With or without its cache, `getIndicesFromInstId` gives what it computes. -/
theorem cachedIndices_run (hcoherent : Coherent indicesOf instIdOf caches) (instId : Arcs) :
    ∃ after, Coherent indicesOf instIdOf after ∧
      (cachedIndices indicesOf instId).run caches = (indicesOf instId, after) := by
  obtain ⟨read, hread, hget⟩ := onIdToIdx_getItem_run hcoherent instId
  unfold cachedIndices
  rw [bind_run_of_ok hget]
  cases hfind : caches.idToIdx.find instId with
  | some indices =>
    refine ⟨read, hread, ?_⟩
    rw [hcoherent.idToIdx.of_find hfind]
    rfl
  | none =>
    cases hindices : indicesOf instId with
    | error exception => exact ⟨read, hread, rfl⟩
    | ok indices =>
      cases indices with
      | remainder rest => exact ⟨read, hread, rfl⟩
      | values indices =>
        exact ⟨{ read with idToIdx := read.idToIdx.chop.put instId indices },
          ⟨hread.idToIdx.chop.put hindices, hread.idxToId⟩, rfl⟩

/-- With or without its cache, `getInstIdFromIndices` gives what it computes. -/
theorem cachedInstId_run (hcoherent : Coherent indicesOf instIdOf caches)
    (indices : List Value) :
    ∃ after, Coherent indicesOf instIdOf after ∧
      (cachedInstId instIdOf indices).run caches = (instIdOf indices, after) := by
  obtain ⟨read, hread, hget⟩ := onIdxToId_getItem_run hcoherent indices
  unfold cachedInstId
  rw [bind_run_of_ok hget]
  cases hfind : caches.idxToId.find indices with
  | some instId =>
    refine ⟨read, hread, ?_⟩
    rw [hcoherent.idxToId.of_find hfind]
    rfl
  | none =>
    cases hinstId : instIdOf indices with
    | error exception => exact ⟨read, hread, rfl⟩
    | ok instId =>
      exact ⟨{ read with idxToId := read.idxToId.chop.put indices instId },
        ⟨hread.idToIdx, hread.idxToId.chop.put hinstId⟩, rfl⟩

end Caches

/-! ### Round trips -/

/-- A call of one of the two functions on a row. -/
inductive Call
  | getIndicesFromInstId (instId : Arcs)
  | getInstIdFromIndices (indices : List Value)
  deriving DecidableEq, Repr

/-- What a call leaves in the caches. -/
def call (indexNames : List RowIndex) (caches : IndexCaches) : Call → IndexCaches
  | .getIndicesFromInstId instId => ((getIndicesFromInstId indexNames instId).run caches).2
  | .getInstIdFromIndices indices => ((getInstIdFromIndices indexNames indices).run caches).2

/-- Reading an identifier through the caches gives what reading it anew does. -/
theorem getIndicesFromInstId_run {indexNames : List RowIndex} {caches : IndexCaches}
    (hcoherent : Coherent (indicesOf indexNames) (instIdOf indexNames) caches) (instId : Arcs) :
    ∃ after, Coherent (indicesOf indexNames) (instIdOf indexNames) after ∧
      (getIndicesFromInstId indexNames instId).run caches =
        (indicesOf indexNames instId, after) :=
  cachedIndices_run hcoherent instId

/-- Spelling indices through the caches gives what spelling them anew does. -/
theorem getInstIdFromIndices_run {indexNames : List RowIndex} {caches : IndexCaches}
    (hcoherent : Coherent (indicesOf indexNames) (instIdOf indexNames) caches)
    (indices : List Value) :
    ∃ after, Coherent (indicesOf indexNames) (instIdOf indexNames) after ∧
      (getInstIdFromIndices indexNames indices).run caches =
        (instIdOf indexNames indices, after) :=
  cachedInstId_run hcoherent indices

/-- The caches stay coherent. -/
theorem coherent_call {indexNames : List RowIndex} {caches : IndexCaches}
    (hcoherent : Coherent (indicesOf indexNames) (instIdOf indexNames) caches) (made : Call) :
    Coherent (indicesOf indexNames) (instIdOf indexNames) (call indexNames caches made) := by
  cases made with
  | getIndicesFromInstId instId =>
    obtain ⟨after, hafter, hrun⟩ := getIndicesFromInstId_run hcoherent instId
    simp only [call, hrun]
    exact hafter
  | getInstIdFromIndices indices =>
    obtain ⟨after, hafter, hrun⟩ := getInstIdFromIndices_run hcoherent indices
    simp only [call, hrun]
    exact hafter

/-- The caches are coherent after any calls. -/
theorem coherent_calls (indexNames : List RowIndex) (calls : List Call) :
    Coherent (indicesOf indexNames) (instIdOf indexNames)
      (calls.foldl (call indexNames) .empty) :=
  List.foldlRecOn calls (call indexNames) coherent_empty
    fun _ hcoherent made _ ↦ coherent_call hcoherent made

/-- The values have an instance identifier, the identifier is read back as the values, and no other
values that the syntaxes accept have it. -/
def RoundTrips (row : IndexedRow) (caches : IndexCaches) (values : List Value) : Prop :=
  ∃ instId after, (getInstIdFromIndices row.indexNames values).run caches = (.ok instId, after) ∧
    ((getIndicesFromInstId row.indexNames instId).run after).1 = .ok (.values values) ∧
    ∀ others, List.Forall₂ Accepts row.indexNames others →
      ((getInstIdFromIndices row.indexNames others).run after).1 = .ok instId → others = values

/-- The indices are values if the loop over them ends with nothing left over. -/
theorem indicesOf_eq_values_iff {indexNames : List RowIndex} {instId : Arcs}
    {values : List Value} :
    indicesOf indexNames instId = .ok (.values values) ↔
      readIndices indexNames instId = .ok (.values values, []) := by
  unfold indicesOf
  cases readIndices indexNames instId with
  | error exception => simp
  | ok result =>
    obtain ⟨indices, rest⟩ := result
    by_cases hrest : rest = []
    · simp [hrest]
    · simp [hrest]

/-- Whatever calls were made before, values round trip exactly where they are readable. -/
theorem roundTrips_iff (row : IndexedRow) (calls : List Call) (values : List Value)
    (haccepts : List.Forall₂ Accepts row.indexNames values) :
    RoundTrips row (calls.foldl (call row.indexNames) .empty) values ↔
      Readable row.indexNames values := by
  have hcoherent := coherent_calls row.indexNames calls
  obtain ⟨after, hafter, hrun⟩ := getInstIdFromIndices_run hcoherent values
  rw [instIdOf_eq_spell haccepts] at hrun
  obtain ⟨last, -, hback⟩ :=
    getIndicesFromInstId_run hafter (spell row.indexNames values)
  have hreadable := readIndices_spell_iff row.implied_last haccepts
  constructor
  · rintro ⟨instId, state, hspell, hvalues, -⟩
    obtain ⟨hinstId, rfl⟩ := Prod.mk.inj (hrun.symm.trans hspell)
    obtain rfl := Except.ok.inj hinstId
    rw [hback] at hvalues
    exact hreadable.mp (indicesOf_eq_values_iff.mp hvalues)
  · intro hvalues
    refine ⟨_, after, hrun, ?_, ?_⟩
    · rw [hback]
      exact indicesOf_eq_values_iff.mpr (hreadable.mpr hvalues)
    · intro others hothers hsame
      obtain ⟨_, -, hother⟩ := getInstIdFromIndices_run hafter others
      rw [hother, instIdOf_eq_spell hothers] at hsame
      exact spell_injective row.implied_last hothers haccepts (Except.ok.inj hsame)

/-! ### Sample rows -/

/-- The syntax of a type without constraints. -/
def plainSyntax (baseType : BaseType) : IndexSyntax where
  baseType := baseType
  fixedLength := none
  accepts := baseType.admits
  convert _ := .error .pyAsn1Error
  admits_of_accepts _ haccepts := haccepts
  length_of_accepts _ _ hfixed := nomatch hfixed

/-- `MacAddress` of `SNMPv2-TC.py`, whose identifiers carry no length. -/
def macAddress : IndexSyntax where
  baseType := .octetString
  fixedLength := some 6
  accepts
    | .octetString octets => decide (octets.length = 6)
    | _ => false
  convert _ := .error .pyAsn1Error
  admits_of_accepts
    | .octetString _, _ => rfl
  length_of_accepts
    | _, _, rfl, haccepts => of_decide_eq_true haccepts

/-- A row with an INTEGER and an implied string. -/
def sampleRow : IndexedRow where
  indexNames := [⟨false, plainSyntax .integer⟩, ⟨true, plainSyntax .octetString⟩]
  implied_last index hmem := by
    rw [List.mem_singleton.mp hmem]

/-- A row with a BITS. -/
def bitsRow : IndexedRow where
  indexNames := [⟨false, plainSyntax (.bits [("apple", 0), ("pear", 1)])⟩]
  implied_last _ hmem := absurd hmem List.not_mem_nil

theorem roundTrips_iff_sampleRow :
    RoundTrips sampleRow ([Call.getIndicesFromInstId [7, 300]].foldl (call sampleRow.indexNames)
        .empty) [.integer (-7), .octetString [1, 2]] ↔
      Readable sampleRow.indexNames [.integer (-7), .octetString [1, 2]] :=
  roundTrips_iff sampleRow [.getIndicesFromInstId [7, 300]] _
    (.cons ⟨rfl, nofun⟩ (.cons ⟨rfl, fun _ ↦ by simp [asNumbers]⟩ .nil))

example :
    instIdOf [⟨false, macAddress⟩, ⟨false, plainSyntax .integer⟩]
      [.octetString [0, 1, 2, 3, 4, 5], .integer 9] = .ok [0, 1, 2, 3, 4, 5, 9] :=
  rfl

/-- The bit of an apple is accepted as an index, and is not read back from its identifier `1.128`:
128 is the number of no bit. -/
theorem not_roundTrips_bitsRow :
    ¬ ∀ (row : IndexedRow) (calls : List Call) (values : List Value),
      List.Forall₂ Accepts row.indexNames values →
        RoundTrips row (calls.foldl (call row.indexNames) .empty) values := by
  intro hall
  have haccepts : List.Forall₂ Accepts bitsRow.indexNames [.octetString [128]] :=
    .cons ⟨rfl, nofun⟩ .nil
  obtain ⟨instId, after, hspell, hvalues, -⟩ := hall bitsRow [] _ haccepts
  obtain ⟨hinstId, rfl⟩ := Prod.mk.inj hspell
  obtain rfl := Except.ok.inj hinstId
  cases hvalues

end Pysnmp.Smi.IndexRoundTrip
