import Pysnmp.Smi.IndexDecoding

/-!
# Internet addresses as indices

Rows in which `InetAddress` indices directly follow their `InetAddressType`, anywhere among other
indices, with the types of `INET-ADDRESS-MIB` that `InetAddress.typeMap` knows. What an address is
read as depends on the number of the index before it, which has been read by then.

The addresses and their types are preserved exactly where all indices are read back, which the ones
beside the addresses can prevent (`addressesRoundTrip_iff`). An address part that is too short, or
of a length that does not go with its type, is never read.
-/

set_option autoImplicit false
set_option relaxedAutoImplicit false

namespace Pysnmp.Smi.InetAddressIndices

open Foundation Foundation.Effect Proto IndexDecoding
open IndexEncoding hiding setFromName getAsName readIndices indicesOf instIdOf
  getIndicesFromInstId getInstIdFromIndices
open IndexRoundTrip (Call IsString eq_nil_of_flagged flagged_last_tail)

/-! ### Addresses and their types -/

/-- The names of `InetAddressType`. -/
inductive AddressKind
  | unknown
  | ipv4
  | ipv6
  | ipv4z
  | ipv6z
  | dns
  deriving DecidableEq, Repr

/-- The lengths of an address of a kind; an unknown one is empty. -/
def AddressKind.permits : AddressKind → ℕ → Bool
  | .unknown, length => length = 0
  | .ipv4, length => length = 4
  | .ipv6, length => length = 16
  | .ipv4z, length => length = 8
  | .ipv6z, length => length = 20
  | .dns, length => 1 ≤ length ∧ length ≤ 255

/-- The named values of `InetAddressType`. -/
structure InetAddressMib where
  namedValues : AddressKind → ℤ
  namedValues_injective : Function.Injective namedValues

/-- The kinds that are keys of `InetAddress.typeMap`. -/
def concreteKinds : List AddressKind :=
  [.ipv4, .ipv6, .ipv4z, .ipv6z, .dns]

/-- `_lengthToTypeName`. -/
def lengthToTypeName : List (ℕ × AddressKind) :=
  [(4, .ipv4), (8, .ipv4z), (16, .ipv6), (20, .ipv6z)]

/-- An `InetAddress` index and the `InetAddressType` index in front of it. -/
structure AddressPair where
  addressType : IndexSyntax
  isInteger : addressType.baseType = .integer
  impliedFlag : Bool
  accepts : Octets → Bool
  convert : Value → Except PythonError Value

namespace InetAddressMib

variable (mib : InetAddressMib)

/-- `InetAddress.typeMap`, as the constraints of the types. -/
def typeMap (number : ℤ) : Option (Octets → Bool) :=
  (concreteKinds.find? fun kind ↦ mib.namedValues kind = number).map
    fun kind octets ↦ kind.permits octets.length

/-- `_inferType`. -/
def inferType (length : ℕ) : Option (Octets → Bool) :=
  (lengthToTypeName.lookup length).bind fun kind ↦ mib.typeMap (mib.namedValues kind)

/-- The `InetAddress` of a pair whose `InetAddressType` is at a position of the row. -/
def inetAddress (position : ℕ) (pair : AddressPair) : InetAddress where
  impliedFlag := pair.impliedFlag
  addressType := some position
  accepts := pair.accepts
  classAccepts octets := octets.length ≤ 255
  typeMap := mib.typeMap
  inferType := mib.inferType
  convert := pair.convert

end InetAddressMib

/-! ### Rows with addresses -/

/-- A part of the definition of a row: one index, or an address with its type. -/
inductive RowPart
  | base (index : RowIndex)
  | networkAddress (convert : Value → Except PythonError Value)
  | address (pair : AddressPair)

def RowPart.impliedFlag : RowPart → Bool
  | .base index => index.impliedFlag
  | .networkAddress _ => false
  | .address pair => pair.impliedFlag

/-- The indices of the parts of a row from a position on. -/
def indexNames (mib : InetAddressMib) (position : ℕ) : List RowPart → List Index
  | [] => []
  | .base index :: parts => .base index :: indexNames mib (position + 1) parts
  | .networkAddress convert :: parts =>
    .networkAddress convert :: indexNames mib (position + 1) parts
  | .address pair :: parts =>
    .base ⟨false, pair.addressType⟩ :: .inetAddress (mib.inetAddress position pair) ::
      indexNames mib (position + 2) parts

/-- A row, of which only the last part may be implied. -/
structure InetRow where
  mib : InetAddressMib
  parts : List RowPart
  implied_last : ∀ part ∈ parts.dropLast, part.impliedFlag = false

def InetRow.indexNames (row : InetRow) : List Index :=
  InetAddressIndices.indexNames row.mib 0 row.parts

/-- Values that their syntaxes accept, every address of a length that goes with the type beside it;
the last one is not empty if it is implied. -/
inductive Consistent (mib : InetAddressMib) : List RowPart → List Value → Prop
  | nil : Consistent mib [] []
  | base {index : RowIndex} {value : Value} {parts : List RowPart} {values : List Value}
      (haccepts : IndexRoundTrip.Accepts index value) (hrest : Consistent mib parts values) :
      Consistent mib (.base index :: parts) (value :: values)
  | networkAddress {convert : Value → Except PythonError Value} {octets : Octets}
      {parts : List RowPart} {values : List Value} (hlength : octets.length = 4)
      (hrest : Consistent mib parts values) :
      Consistent mib (.networkAddress convert :: parts) (.octetString octets :: values)
  | address {pair : AddressPair} {kind : AddressKind} {octets : Octets} {parts : List RowPart}
      {values : List Value} (htype : pair.addressType.accepts (.integer (mib.namedValues kind)))
      (haccepts : pair.accepts octets) (hpermits : kind.permits octets.length)
      (hfilled : pair.impliedFlag → octets ≠ []) (hrest : Consistent mib parts values) :
      Consistent mib (.address pair :: parts)
        (.integer (mib.namedValues kind) :: .octetString octets :: values)

/-- The types and addresses among the values of a row. -/
def addresses : List RowPart → List Value → List (Value × Value)
  | .address _ :: parts, addressType :: address :: values =>
    (addressType, address) :: addresses parts values
  | _ :: parts, _ :: values => addresses parts values
  | _, _ => []

/-! ### Bad addresses -/

/-- What is left of an identifier where an address begins does not hold one of the kind: it ends
there, or before as many sub-identifiers as it says, or says a number that the kind does not
permit. -/
def IsBadPart (kind : AddressKind) (impliedFlag : Bool) : Arcs → Prop
  | [] => True
  | length :: others =>
    if impliedFlag then
      ¬ kind.permits (others.length + 1)
    else
      (others.length : ℤ) < length ∨ ¬ kind.permits length.toNat

/-- The indices before an address are read, and what is left is the number of a kind and a part that
holds no address of it. -/
def HasBadAddress (row : InetRow) (instId : Arcs) : Prop :=
  ∃ before pair after values kind part, row.parts = before ++ .address pair :: after ∧
    readIndices (indexNames row.mib 0 before) [] instId =
      .ok (.values values, row.mib.namedValues kind :: part) ∧
    IsBadPart kind pair.impliedFlag part

/-- The types and addresses come back from the identifier of the values, and an identifier with a
bad address is not read. -/
structure AddressesRoundTrip (row : InetRow) (caches : IndexCaches) (values : List Value) :
    Prop where
  preserves : ∃ instId after decoded,
    (getInstIdFromIndices row.indexNames values).run caches = (.ok instId, after) ∧
      ((getIndicesFromInstId row.indexNames instId).run after).1 = .ok (.values decoded) ∧
      addresses row.parts decoded = addresses row.parts values
  rejects : ∀ instId : Oid, HasBadAddress row (instId.map Nat.cast) →
    ∀ decoded, ((getIndicesFromInstId row.indexNames (instId.map Nat.cast)).run caches).1 ≠
      .ok (.values decoded)

/-- The values of the BITS among the indices are empty. -/
def BitsEmpty : List RowPart → List Value → Prop
  | .base index :: parts, value :: values =>
    (index.syntaxObj.baseType.isBits → value = .octetString []) ∧ BitsEmpty parts values
  | .networkAddress _ :: parts, _ :: values => BitsEmpty parts values
  | .address _ :: parts, _ :: _ :: values => BitsEmpty parts values
  | _, _ => True

/-- Every BITS among the values is empty, and the last index is not a string of fixed length
zero. -/
structure Readable (parts : List RowPart) (values : List Value) : Prop where
  bits : BitsEmpty parts values
  last : ∀ index, parts.getLast? = some (.base index) → IsString index →
    index.syntaxObj.fixedLength ≠ some 0

/-! ### One address -/

section Address

variable {mib : InetAddressMib} {position : ℕ} {pair : AddressPair} {kind : AddressKind}
  {parentIndices : List Value} {octets : Octets} {value : Value} {rest : Arcs}

/-- Only the number of the unknown kind is no key of the map. -/
theorem typeMap_namedValues (mib : InetAddressMib) (kind : AddressKind) :
    mib.typeMap (mib.namedValues kind) =
      if kind = .unknown then none else some fun octets ↦ kind.permits octets.length := by
  have hfind : concreteKinds.find? (fun other ↦ mib.namedValues other = mib.namedValues kind) =
      concreteKinds.find? fun other ↦ other = kind := by
    simp only [mib.namedValues_injective.eq_iff]
  rw [InetAddressMib.typeMap, hfind]
  cases kind <;> rfl

@[simp] theorem impliedFlag_inetAddress :
    (mib.inetAddress position pair).impliedFlag = pair.impliedFlag :=
  rfl

/-- The type of a pair is found in the index before the address. -/
theorem typeBeside_append (hposition : parentIndices.length = position) (number : ℤ) :
    (mib.inetAddress position pair).typeBeside (parentIndices ++ [.integer number]) =
      some number := by
  subst hposition
  simp [InetAddress.typeBeside, InetAddressMib.inetAddress]

/-- An address is taken exactly if it is of a length that the kind beside it permits. -/
theorem exists_concreteType_iff
    (hbeside : (mib.inetAddress position pair).typeBeside parentIndices =
      some (mib.namedValues kind)) :
    (∃ accepts, (mib.inetAddress position pair).concreteType parentIndices octets.length =
        .ok accepts ∧ accepts octets) ↔ kind.permits octets.length := by
  have hmap : (mib.inetAddress position pair).typeMap (mib.namedValues kind) = _ :=
    typeMap_namedValues mib kind
  unfold InetAddress.concreteType
  rw [hbeside]
  simp only [hmap]
  by_cases hunknown : kind = .unknown
  · subst hunknown
    rw [if_pos rfl]
    by_cases hempty : octets.length = 0
    · simp [hempty, AddressKind.permits, InetAddressMib.inetAddress]
    · simp [hempty, AddressKind.permits]
  · rw [if_neg hunknown]
    simp

theorem length_asNumbers (octets : Octets) :
    (asNumbers (.octetString octets)).length = octets.length :=
  List.length_map _

/-- An address is taken off the identifier that it is put in front of. -/
theorem splitIndex_joinIndex (address : InetAddress)
    (himplied : address.impliedFlag → octets ≠ [] ∧ rest = []) :
    address.splitIndex (address.joinIndex octets ++ rest) =
      .ok (asNumbers (.octetString octets), rest) := by
  unfold InetAddress.joinIndex
  by_cases hflag : address.impliedFlag = true
  · obtain ⟨hne, rfl⟩ := himplied hflag
    obtain ⟨first, others, rfl⟩ := List.exists_cons_of_ne_nil hne
    rw [if_pos hflag, List.append_nil, asNumbers, List.map_cons, InetAddress.splitIndex,
      if_pos hflag]
  · rw [if_neg hflag, List.cons_append, InetAddress.splitIndex, if_neg hflag, ← List.cons_append,
      IndexRoundTrip.counted_append, if_neg (not_not_intro rfl)]

/-- An address that its kind permits is read back. -/
theorem cloneFromName_joinIndex
    (hbeside : (mib.inetAddress position pair).typeBeside parentIndices =
      some (mib.namedValues kind))
    (hpermits : kind.permits octets.length)
    (himplied : pair.impliedFlag → octets ≠ [] ∧ rest = []) :
    (mib.inetAddress position pair).cloneFromName parentIndices
        ((mib.inetAddress position pair).joinIndex octets ++ rest) =
      .ok (.octetString octets, rest) := by
  obtain ⟨accepts, htype, haccepts⟩ := (exists_concreteType_iff hbeside).mpr hpermits
  have hsplit := splitIndex_joinIndex (mib.inetAddress position pair) himplied
  have hbytes : bytes (asNumbers (.octetString octets)) = .ok octets :=
    IndexRoundTrip.bytes_map_toNat octets
  rw [InetAddress.cloneFromName, hsplit]
  simp only [bind, Except.bind, length_asNumbers, htype, hbytes, constrainOctets, haccepts, if_true,
    reading]

/-- What is read as an address is no bad part. -/
theorem not_isBadPart_of_cloneFromName {part : Arcs}
    (hbeside : (mib.inetAddress position pair).typeBeside parentIndices =
      some (mib.namedValues kind))
    (hread : (mib.inetAddress position pair).cloneFromName parentIndices part =
      .ok (value, rest)) : ¬ IsBadPart kind pair.impliedFlag part := by
  unfold InetAddress.cloneFromName at hread
  obtain ⟨⟨taken, tail⟩, hsplit, hread⟩ := exists_of_bind_eq_ok hread
  obtain ⟨accepts, htype, hread⟩ := exists_of_bind_eq_ok hread
  obtain ⟨octets, hbytes, hclone⟩ := exists_of_bind_eq_ok (reading_eq_ok_iff.mp hread).1
  have haccepts : accepts octets := by
    unfold constrainOctets at hclone
    split_ifs at hclone with haccepts
    exact haccepts
  have hlength : taken.length = octets.length := by
    rw [← asNumbers_of_bytes hbytes, length_asNumbers]
  have hpermits : kind.permits taken.length := by
    rw [hlength]
    exact (exists_concreteType_iff hbeside).mp ⟨accepts, hlength ▸ htype, haccepts⟩
  obtain _ | ⟨length, others⟩ := part
  · cases hsplit
  rw [InetAddress.splitIndex] at hsplit
  rw [IsBadPart]
  by_cases hflag : pair.impliedFlag = true
  · rw [impliedFlag_inetAddress, if_pos hflag] at hsplit
    obtain ⟨rfl, -⟩ := Prod.mk.inj (Except.ok.inj hsplit)
    rw [if_pos hflag]
    exact not_not_intro hpermits
  · rw [impliedFlag_inetAddress, if_neg hflag] at hsplit
    rw [if_neg hflag]
    split_ifs at hsplit with hshort
    have hnonneg : 0 ≤ length := (not_not.mp hshort) ▸ Int.natCast_nonneg _
    rw [counted_of_nonneg hnonneg] at hsplit hshort
    obtain ⟨rfl, -⟩ := Prod.mk.inj (Except.ok.inj hsplit)
    rw [List.length_take] at hshort hpermits
    have hwhole : min length.toNat others.length = length.toNat := by omega
    rw [hwhole] at hpermits
    rintro (hlt | hnot)
    · omega
    · exact hnot hpermits

end Address

/-! ### Rows -/

/-- The instance identifier of consistent values. -/
def spell : List RowPart → List Value → Arcs
  | .base index :: parts, value :: values =>
    IndexEncoding.getAsName index.syntaxObj value index.impliedFlag ++ spell parts values
  | .networkAddress _ :: parts, value :: values => 1 :: asNumbers value ++ spell parts values
  | .address pair :: parts, number :: address :: values =>
    asNumbers number ++ ((if pair.impliedFlag then asNumbers address
      else ((asNumbers address).length : ℤ) :: asNumbers address) ++ spell parts values)
  | _, _ => []

section Rows

variable {mib : InetAddressMib} {position : ℕ} {part : RowPart} {parts : List RowPart}
  {index : Index} {row : List Index} {parentIndices values decoded : List Value} {value : Value}
  {instId rest left : Arcs}

/-- The indices of a row name consistent values. -/
theorem instIdFrom_eq_spell (hposition : parentIndices.length = position)
    (hconsistent : Consistent mib parts values) :
    instIdFrom (indexNames mib position parts) parentIndices values = .ok (spell parts values) := by
  induction hconsistent generalizing position parentIndices with
  | nil => rfl
  | @base index value parts values haccepts hrest ih =>
    have hclone : (Index.base index).clone value = .ok value :=
      IndexRoundTrip.clone_of_accepts haccepts.1
    refine (instIdFrom_cons_iff hclone rfl).mpr (ih ?_)
    rw [List.length_append, hposition, List.length_singleton]
  | @networkAddress convert octets parts values hlength hrest ih =>
    have hclone : (Index.networkAddress convert).clone (.octetString octets) =
        .ok (.octetString octets) := if_pos hlength
    refine (instIdFrom_cons_iff hclone rfl).mpr (ih ?_)
    rw [List.length_append, hposition, List.length_singleton]
  | @address pair kind octets parts values htype haccepts hpermits hfilled hrest ih =>
    have hcloneType : (Index.base ⟨false, pair.addressType⟩).clone
        (.integer (mib.namedValues kind)) = .ok (.integer (mib.namedValues kind)) :=
      @IndexRoundTrip.clone_of_accepts ⟨false, pair.addressType⟩ _ htype
    have hnameType : (Index.base ⟨false, pair.addressType⟩).getAsName parentIndices
        (.integer (mib.namedValues kind)) = .ok [mib.namedValues kind] := by
      simp [Index.getAsName, IndexEncoding.getAsName, pair.isInteger, BaseType.baseTag, asNumbers]
    have hclone : (Index.inetAddress (mib.inetAddress position pair)).clone
        (.octetString octets) = .ok (.octetString octets) := if_pos haccepts
    have hbeside : (mib.inetAddress position pair).typeBeside
        (parentIndices ++ [.integer (mib.namedValues kind)]) = some (mib.namedValues kind) :=
      typeBeside_append hposition _
    obtain ⟨accepts, hconcrete, htaken⟩ := (exists_concreteType_iff hbeside).mpr hpermits
    have hname := cloneAsName_of_concreteType hconcrete htaken
    refine (instIdFrom_cons_iff hcloneType hnameType).mpr ?_
    refine (instIdFrom_cons_iff hclone hname).mpr (ih ?_)
    simp [hposition]

/-- An `InetAddressType` takes the first sub-identifier. -/
theorem setFromName_addressType_eq (pair : AddressPair) (number : ℤ) (part : Arcs) :
    (Index.base ⟨false, pair.addressType⟩).setFromName parentIndices (number :: part) =
      reading (pair.addressType.constrain (.integer number)) part := by
  have hinteger : pair.addressType.baseType.baseTag = .integer := by
    rw [pair.isInteger]
    rfl
  exact if_pos hinteger

theorem setFromName_addressType {pair : AddressPair} {number : ℤ} {part : Arcs}
    (htype : pair.addressType.accepts (.integer number)) :
    (Index.base ⟨false, pair.addressType⟩).setFromName parentIndices (number :: part) =
      .ok (.integer number, part) := by
  rw [setFromName_addressType_eq, IndexSyntax.constrain, if_pos htype]
  rfl

/-- Where an index reads its value, the others read the rest. -/
theorem readIndices_cons_of_read (hread : index.setFromName parentIndices instId =
    .ok (value, rest)) :
    readIndices (index :: row) parentIndices instId = .ok (.values decoded, left) ↔
      ∃ others, readIndices row (parentIndices ++ [value]) rest = .ok (.values others, left) ∧
        decoded = value :: others := by
  rw [readIndices_cons_iff]
  constructor
  · rintro ⟨_, _, others, hfirst, hothers, rfl⟩
    obtain ⟨rfl, rfl⟩ := Prod.mk.inj (Except.ok.inj (hread.symm.trans hfirst))
    exact ⟨others, hothers, rfl⟩
  · rintro ⟨others, hothers, rfl⟩
    exact ⟨value, rest, others, hread, hothers, rfl⟩

/-- Only strings of fixed length zero have an empty identifier. -/
theorem exists_string_of_spell_eq_nil (hconsistent : Consistent mib parts values)
    (hnil : spell parts values = []) (hmem : part ∈ parts) :
    ∃ index, part = .base index ∧ IsString index ∧ index.syntaxObj.fixedLength = some 0 := by
  induction hconsistent with
  | nil => cases hmem
  | @base index value parts values haccepts hrest ih =>
    obtain ⟨hname, hothers⟩ := List.append_eq_nil_iff.mp hnil
    rcases List.mem_cons.mp hmem with rfl | hmem
    · exact ⟨index, rfl, (IndexRoundTrip.getAsName_eq_nil_iff haccepts).mp hname⟩
    · exact ih hothers hmem
  | networkAddress => cases hnil
  | address => cases hnil

theorem not_readable_of_spell_eq_nil (hconsistent : Consistent mib (part :: parts) values)
    (hnil : spell (part :: parts) values = []) : ¬ Readable (part :: parts) values := by
  intro hreadable
  have hlast := List.getLast?_eq_getLast_of_ne_nil (List.cons_ne_nil part parts)
  obtain ⟨index, heq, hstring, hfixed⟩ := exists_string_of_spell_eq_nil hconsistent hnil
    (List.getLast_mem (List.cons_ne_nil part parts))
  exact hreadable.last index (hlast.trans (congrArg some heq)) hstring hfixed

/-- Where the first part is in order, the others decide. -/
theorem readable_cons_iff {others : List Value}
    (hbits : BitsEmpty (part :: parts) others ↔ BitsEmpty parts values)
    (hpart : parts = [] → ∀ index, part = .base index → IsString index →
      index.syntaxObj.fixedLength ≠ some 0) :
    Readable (part :: parts) others ↔ Readable parts values := by
  constructor
  · rintro ⟨hempty, hlast⟩
    refine ⟨hbits.mp hempty, fun index hend ↦ hlast index ?_⟩
    cases parts with
    | nil => cases hend
    | cons next rest => rwa [List.getLast?_cons_cons]
  · rintro ⟨hempty, hlast⟩
    refine ⟨hbits.mpr hempty, fun index hend ↦ ?_⟩
    cases parts with
    | nil => exact hpart rfl index (Option.some.inj hend)
    | cons next rest => exact hlast index (by rwa [List.getLast?_cons_cons] at hend)

theorem exists_decoded_iff {readable : Prop} :
    (∃ others, (readable ∧ others = values ∧ left = []) ∧ decoded = value :: others) ↔
      readable ∧ decoded = value :: values ∧ left = [] := by
  constructor
  · rintro ⟨_, ⟨hreadable, rfl, hleft⟩, hdecoded⟩
    exact ⟨hreadable, hdecoded, hleft⟩
  · rintro ⟨hreadable, hdecoded, hleft⟩
    exact ⟨values, ⟨hreadable, rfl, hleft⟩, hdecoded⟩

/-- What a base index names at the head of a row is read, or nothing is. -/
theorem readIndices_base_iff {index : RowIndex}
    (hlast : ∀ other ∈ (RowPart.base index :: parts).dropLast, other.impliedFlag = false)
    (haccepts : IndexRoundTrip.Accepts index value) (hrest : Consistent mib parts values)
    (hothers : ∀ decoded left, readIndices (indexNames mib (position + 1) parts)
        (parentIndices ++ [value]) (spell parts values) = .ok (.values decoded, left) ↔
      Readable parts values ∧ decoded = values ∧ left = []) :
    readIndices (indexNames mib position (.base index :: parts)) parentIndices
        (spell (.base index :: parts) (value :: values)) = .ok (.values decoded, left) ↔
      Readable (.base index :: parts) (value :: values) ∧ decoded = value :: values ∧
        left = [] := by
  have himplied : index.impliedFlag → spell parts values = [] := by
    intro hflag
    obtain rfl := eq_nil_of_flagged hlast hflag
    rfl
  by_cases hbits : index.syntaxObj.baseType.isBits → value = .octetString []
  · by_cases hnil : spell (.base index :: parts) (value :: values) = []
    · refine iff_of_false (fun hread ↦ ?_) fun hreadable ↦
        not_readable_of_spell_eq_nil (.base haccepts hrest) hnil hreadable.1
      rw [hnil] at hread
      obtain ⟨_, _, _, hfirst, -, -⟩ := readIndices_cons_iff.mp hread
      exact absurd hfirst (setFromName_nil_ne_ok _)
    · have hread : (Index.base index).setFromName parentIndices
          (spell (.base index :: parts) (value :: values)) = .ok (value, spell parts values) :=
        IndexRoundTrip.setFromName_getAsName haccepts hbits himplied hnil
      have hreadable : Readable (.base index :: parts) (value :: values) ↔
          Readable parts values := by
        refine readable_cons_iff ⟨fun hempty ↦ hempty.2, fun hempty ↦ ⟨hbits, hempty⟩⟩ ?_
        rintro rfl _ hpart hstring hfixed
        obtain rfl := RowPart.base.inj hpart
        have hname := (IndexRoundTrip.getAsName_eq_nil_iff haccepts).mpr ⟨hstring, hfixed⟩
        exact hnil (List.append_eq_nil_iff.mpr ⟨hname, rfl⟩)
      rw [hreadable]
      refine (readIndices_cons_of_read hread).trans ?_
      simp only [hothers]
      exact exists_decoded_iff
  · refine iff_of_false (fun hread ↦ ?_) fun hreadable ↦ hbits hreadable.1.bits.1
    rw [Classical.not_imp] at hbits
    obtain ⟨error, -, hfails⟩ :=
      IndexRoundTrip.setFromName_bits haccepts hbits.1 hbits.2 himplied
    obtain ⟨_, _, _, hfirst, -, -⟩ := readIndices_cons_iff.mp hread
    exact nomatch hfails.symm.trans hfirst

/-- A network address takes five sub-identifiers. -/
theorem setFromName_networkAddress {convert : Value → Except PythonError Value} {octets : Octets}
    (hlength : octets.length = 4) :
    (Index.networkAddress convert).setFromName parentIndices
        (1 :: asNumbers (.octetString octets) ++ rest) = .ok (.octetString octets, rest) := by
  have hfour : (asNumbers (.octetString octets)).length = 4 :=
    (length_asNumbers octets).trans hlength
  have hbytes : networkOctets (asNumbers (.octetString octets)) = .ok (.octetString octets) := by
    have hall : bytes (asNumbers (.octetString octets)) = .ok octets :=
      IndexRoundTrip.bytes_map_toNat octets
    rw [networkOctets, if_neg (not_not_intro hfour), hall]
    rfl
  rw [Index.setFromName, List.cons_append, networkFromName, if_pos rfl, List.take_left' hfour,
    List.drop_left' hfour, hbytes]
  rfl

/-- A network address at the head of a row is read, and the others decide. -/
theorem readIndices_networkAddress_iff {convert : Value → Except PythonError Value}
    {octets : Octets} (hlength : octets.length = 4)
    (hothers : ∀ decoded left, readIndices (indexNames mib (position + 1) parts)
        (parentIndices ++ [.octetString octets]) (spell parts values) =
          .ok (.values decoded, left) ↔
      Readable parts values ∧ decoded = values ∧ left = []) :
    readIndices (indexNames mib position (.networkAddress convert :: parts)) parentIndices
        (spell (.networkAddress convert :: parts) (.octetString octets :: values)) =
          .ok (.values decoded, left) ↔
      Readable (.networkAddress convert :: parts) (.octetString octets :: values) ∧
        decoded = .octetString octets :: values ∧ left = [] := by
  have hread : (Index.networkAddress convert).setFromName parentIndices
      (spell (.networkAddress convert :: parts) (.octetString octets :: values)) =
        .ok (.octetString octets, spell parts values) :=
    setFromName_networkAddress hlength
  have hreadable : Readable (.networkAddress convert :: parts) (.octetString octets :: values) ↔
      Readable parts values :=
    readable_cons_iff Iff.rfl fun _ _ hpart ↦ nomatch hpart
  rw [hreadable]
  refine (readIndices_cons_of_read hread).trans ?_
  simp only [hothers]
  exact exists_decoded_iff

/-- An address and its type at the head of a row are read, and the others decide. -/
theorem readIndices_address_iff {pair : AddressPair} {kind : AddressKind} {octets : Octets}
    (hposition : parentIndices.length = position)
    (hlast : ∀ other ∈ (RowPart.address pair :: parts).dropLast, other.impliedFlag = false)
    (htype : pair.addressType.accepts (.integer (mib.namedValues kind)))
    (hpermits : kind.permits octets.length) (hfilled : pair.impliedFlag → octets ≠ [])
    (hothers : ∀ decoded left, readIndices (indexNames mib (position + 2) parts)
        (parentIndices ++ [.integer (mib.namedValues kind)] ++ [.octetString octets])
          (spell parts values) = .ok (.values decoded, left) ↔
      Readable parts values ∧ decoded = values ∧ left = []) :
    readIndices (indexNames mib position (.address pair :: parts)) parentIndices
        (spell (.address pair :: parts)
          (.integer (mib.namedValues kind) :: .octetString octets :: values)) =
            .ok (.values decoded, left) ↔
      Readable (.address pair :: parts)
          (.integer (mib.namedValues kind) :: .octetString octets :: values) ∧
        decoded = .integer (mib.namedValues kind) :: .octetString octets :: values ∧
          left = [] := by
  have himplied : pair.impliedFlag → octets ≠ [] ∧ spell parts values = [] := by
    intro hflag
    obtain rfl := eq_nil_of_flagged hlast hflag
    exact ⟨hfilled hflag, rfl⟩
  have hread : (Index.inetAddress (mib.inetAddress position pair)).setFromName
      (parentIndices ++ [.integer (mib.namedValues kind)])
        ((mib.inetAddress position pair).joinIndex octets ++ spell parts values) =
          .ok (.octetString octets, spell parts values) :=
    cloneFromName_joinIndex (typeBeside_append hposition _) hpermits himplied
  have hreadable : Readable (.address pair :: parts)
      (.integer (mib.namedValues kind) :: .octetString octets :: values) ↔
        Readable parts values :=
    readable_cons_iff Iff.rfl fun _ _ hpart ↦ nomatch hpart
  have hfollowing : ∀ others left, readIndices (.inetAddress (mib.inetAddress position pair) ::
      indexNames mib (position + 2) parts) (parentIndices ++ [.integer (mib.namedValues kind)])
        ((mib.inetAddress position pair).joinIndex octets ++ spell parts values) =
          .ok (.values others, left) ↔
      Readable parts values ∧ others = .octetString octets :: values ∧ left = [] := by
    intro others left
    refine (readIndices_cons_of_read hread).trans ?_
    simp only [hothers]
    exact exists_decoded_iff
  rw [hreadable]
  refine (readIndices_cons_of_read (setFromName_addressType htype)).trans ?_
  refine Iff.trans (exists_congr fun others ↦ and_congr_left' (hfollowing others left)) ?_
  exact exists_decoded_iff

/-- The values are read back from their identifier exactly where they are readable, and no others
are. -/
theorem readIndices_spell_iff (hposition : parentIndices.length = position)
    (hlast : ∀ other ∈ parts.dropLast, other.impliedFlag = false)
    (hconsistent : Consistent mib parts values) :
    readIndices (indexNames mib position parts) parentIndices (spell parts values) =
        .ok (.values decoded, left) ↔ Readable parts values ∧ decoded = values ∧ left = [] := by
  induction hconsistent generalizing position parentIndices decoded left with
  | nil =>
    have hreadable : Readable [] [] := ⟨trivial, nofun⟩
    simp [indexNames, readIndices, spell, hreadable, eq_comm]
  | base haccepts hrest ih =>
    refine readIndices_base_iff hlast haccepts hrest fun others rest ↦ ?_
    exact ih (by simp [hposition]) (flagged_last_tail hlast)
  | networkAddress hlength hrest ih =>
    refine readIndices_networkAddress_iff hlength fun others rest ↦ ?_
    exact ih (by simp [hposition]) (flagged_last_tail hlast)
  | address htype haccepts hpermits hfilled hrest ih =>
    refine readIndices_address_iff hposition hlast htype hpermits hfilled fun others rest ↦ ?_
    exact ih (by simp [hposition]) (flagged_last_tail hlast)

theorem indexNames_append (mib : InetAddressMib) (position : ℕ) (before after : List RowPart) :
    indexNames mib position (before ++ after) = indexNames mib position before ++
      indexNames mib (position + (indexNames mib position before).length) after := by
  induction before generalizing position with
  | nil => rfl
  | cons part before ih =>
    cases part with
    | base index => simp [indexNames, ih, Nat.add_assoc, Nat.add_comm 1]
    | networkAddress convert => simp [indexNames, ih, Nat.add_assoc, Nat.add_comm 1]
    | address pair => simp [indexNames, ih, Nat.add_assoc, Nat.add_comm 2]

/-- What a row reads after its first indices. -/
theorem exists_readIndices_of_append {following : List Index}
    (hbefore : readIndices row parentIndices instId = .ok (.values values, rest))
    (hread : readIndices (row ++ following) parentIndices instId = .ok (.values decoded, left)) :
    ∃ others, readIndices following (parentIndices ++ values) rest =
      .ok (.values others, left) := by
  induction row generalizing parentIndices instId values decoded with
  | nil =>
    obtain ⟨hvalues, rfl⟩ := Prod.mk.inj (Except.ok.inj hbefore)
    obtain rfl := Indices.values.inj hvalues
    exact ⟨decoded, by rwa [List.append_nil]⟩
  | cons index row ih =>
    obtain ⟨value, tail, taken, hfirst, htaken, rfl⟩ := readIndices_cons_iff.mp hbefore
    obtain ⟨others, hothers, -⟩ := (readIndices_cons_of_read hfirst).mp hread
    rw [List.append_cons]
    exact ih htaken hothers

/-- A row does not read a bad address. -/
theorem readIndices_ne_of_hasBadAddress {row : InetRow} (hbad : HasBadAddress row instId) :
    readIndices row.indexNames [] instId ≠ .ok (.values decoded, left) := by
  intro hread
  obtain ⟨before, pair, after, values, kind, part, hparts, hbefore, hpart⟩ := hbad
  rw [InetRow.indexNames, hparts, indexNames_append] at hread
  obtain ⟨others, hothers⟩ := exists_readIndices_of_append hbefore hread
  obtain ⟨_, _, _, htype, hrest, -⟩ := readIndices_cons_iff.mp hothers
  rw [setFromName_addressType_eq] at htype
  obtain ⟨hclone, rfl⟩ := reading_eq_ok_iff.mp htype
  obtain ⟨rfl, -⟩ := eq_of_constrain hclone
  obtain ⟨_, _, _, haddress, -, -⟩ := readIndices_cons_iff.mp hrest
  have hposition : ([] ++ values).length = 0 + (indexNames row.mib 0 before).length := by
    rw [List.nil_append, Nat.zero_add, length_of_readIndices hbefore]
  exact not_isBadPart_of_cloneFromName (typeBeside_append hposition _) haddress hpart

end Rows

/-! ### Round trips -/

/-- Whatever calls were made before, the addresses of consistent values and their types come back
exactly where the values are readable; a bad address is never read. -/
theorem addressesRoundTrip_iff (row : InetRow) (calls : List Call) (values : List Value)
    (hconsistent : Consistent row.mib row.parts values) :
    AddressesRoundTrip row (calls.foldl (call row.indexNames) .empty) values ↔
      Readable row.parts values := by
  have hcoherent := coherent_calls row.indexNames calls
  obtain ⟨after, hafter, hrun⟩ := getInstIdFromIndices_run hcoherent values
  have hname : instIdOf row.indexNames values = .ok (spell row.parts values) :=
    instIdFrom_eq_spell rfl hconsistent
  rw [hname] at hrun
  obtain ⟨last, -, hback⟩ := getIndicesFromInstId_run hafter (spell row.parts values)
  have hreadable (decoded : List Value) :
      indicesOf row.indexNames (spell row.parts values) = .ok (.values decoded) ↔
        Readable row.parts values ∧ decoded = values := by
    rw [indicesOf_eq_values_iff]
    have hposition : ([] : List Value).length = 0 := rfl
    refine (readIndices_spell_iff hposition row.implied_last hconsistent).trans ?_
    exact and_congr_right' (and_iff_left rfl)
  constructor
  · rintro ⟨⟨instId, state, decoded, hspell, hdecoded, -⟩, -⟩
    obtain ⟨hinstId, rfl⟩ := Prod.mk.inj (hrun.symm.trans hspell)
    obtain rfl := Except.ok.inj hinstId
    rw [hback] at hdecoded
    exact ((hreadable decoded).mp hdecoded).1
  · intro hvalues
    refine ⟨⟨_, after, values, hrun, ?_, rfl⟩, fun instId hbad decoded hread ↦ ?_⟩
    · rw [hback]
      exact (hreadable values).mpr ⟨hvalues, rfl⟩
    · obtain ⟨_, -, hindices⟩ := getIndicesFromInstId_run hcoherent (instId.map Nat.cast)
      rw [hindices] at hread
      exact readIndices_ne_of_hasBadAddress hbad (indicesOf_eq_values_iff.mp hread)

/-! ### Sample rows -/

/-- The numbers of the kinds. -/
def inetAddressMib : InetAddressMib where
  namedValues
    | .unknown => 0
    | .ipv4 => 1
    | .ipv6 => 2
    | .ipv4z => 3
    | .ipv6z => 4
    | .dns => 16
  namedValues_injective := by
    intro first second hsame
    cases first <;> cases second <;> first | rfl | cases hsame

/-- An address of up to 255 octets, with its type. -/
def plainPair : AddressPair where
  addressType := IndexRoundTrip.plainSyntax .integer
  isInteger := rfl
  impliedFlag := false
  accepts octets := octets.length ≤ 255
  convert _ := .error .pyAsn1Error

/-- A row with a local and a remote address, and a port between them. -/
def connectionRow : InetRow where
  mib := inetAddressMib
  parts := [.address plainPair, .base ⟨false, IndexRoundTrip.plainSyntax .integer⟩,
    .address plainPair]
  implied_last part hmem := by
    fin_cases hmem <;> rfl

/-- A row with a BITS after its address. -/
def bitsRow : InetRow where
  mib := inetAddressMib
  parts := [.address plainPair,
    .base ⟨false, IndexRoundTrip.plainSyntax (.bits [("apple", 0), ("pear", 1)])⟩]
  implied_last part hmem := by
    fin_cases hmem
    rfl

theorem addressesRoundTrip_iff_connectionRow :
    AddressesRoundTrip connectionRow ([Call.getIndicesFromInstId [1, 4, 10, 0]].foldl
        (call connectionRow.indexNames) .empty)
      [.integer 1, .octetString [192, 0, 2, 1], .integer 161, .integer 0, .octetString []] ↔
    Readable connectionRow.parts
      [.integer 1, .octetString [192, 0, 2, 1], .integer 161, .integer 0, .octetString []] :=
  addressesRoundTrip_iff connectionRow [.getIndicesFromInstId [1, 4, 10, 0]] _
    (@Consistent.address _ _ .ipv4 _ _ _ rfl (by decide) rfl nofun
      (.base ⟨rfl, nofun⟩
        (@Consistent.address _ _ .unknown _ _ _ rfl (by decide) rfl nofun .nil)))

/-- The address `192.0.2.1` is not read back where a BITS with the bit of an apple follows. -/
theorem not_addressesRoundTrip_bitsRow :
    ¬ ∀ (row : InetRow) (calls : List Call) (values : List Value),
      Consistent row.mib row.parts values →
        AddressesRoundTrip row (calls.foldl (call row.indexNames) .empty) values := by
  intro hall
  have hconsistent : Consistent bitsRow.mib bitsRow.parts
      [.integer 1, .octetString [192, 0, 2, 1], .octetString [128]] :=
    @Consistent.address _ _ .ipv4 _ _ _ rfl (by decide) rfl nofun (.base ⟨rfl, nofun⟩ .nil)
  obtain ⟨⟨instId, after, decoded, hspell, hdecoded, -⟩, -⟩ := hall bitsRow [] _ hconsistent
  obtain ⟨hinstId, rfl⟩ := Prod.mk.inj hspell
  obtain rfl := Except.ok.inj hinstId
  cases hdecoded

end Pysnmp.Smi.InetAddressIndices
