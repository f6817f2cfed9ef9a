import Pysnmp.Smi.IndexRoundTrip
import Pysnmp.Smi.RowWrite

/-!
# Accepting instance identifiers

`getIndicesFromInstId` and `getInstIdFromIndices` for rows of any definition. Besides the base types
there are two types with a `cloneFromName` and a `cloneAsName` of their own: `NetworkAddress` of
`proto/rfc1155.py`, and `InetAddress` with what `smi/mibs/behavior/INET-ADDRESS-MIB.py` adds to it.

A slice past the end of an identifier is shorter than it should be, and not an error. So a string or
an object identifier that is cut short can be taken for a shorter one, and an address for the four
characters of its text. `acceptsOnlyEncodings_iff` says for which identifiers this happens.
-/

set_option autoImplicit false
set_option relaxedAutoImplicit false

namespace Pysnmp.Smi.IndexDecoding

open Foundation Foundation.Effect LimitedCache Proto
open IndexEncoding hiding setFromName getAsName readIndices indicesOf instIdOf
  getIndicesFromInstId getInstIdFromIndices
open IndexRoundTrip (Call IsString)

/-! ### Types that read themselves -/

/-- A string that a constraint accepts. -/
def constrainOctets (accepts : Octets → Bool) (octets : Octets) : Except PythonError Value :=
  if accepts octets then .ok (.octetString octets) else .error .pyAsn1Error

/-- `IpAddress.prettyIn` of `proto/rfc1155.py`, of a tuple. -/
def networkOctets (arcs : Arcs) : Except PythonError Value :=
  if arcs.length ≠ 4 then
    .error .pyAsn1Error
  else do
    let octets ← bytes arcs
    .ok (.octetString octets)

/-- `NetworkAddress.cloneFromName`: the kind of the address, of which there is one, and the
address. -/
def networkFromName : Arcs → Except MibException (Value × Arcs)
  | [] => .error (.smi { kind := .smiError })
  | kind :: value =>
    if kind = 1 then
      reading (networkOctets (value.take 4)) (value.drop 4)
    else
      .error (.smi { kind := .smiError })

/-- An `InetAddress` as an index: where among the indices before it its `InetAddressType` is, if
there is one, and the constraints of the object, of its class, of the concrete type that a number of
the `InetAddressType` stands for, and of the one that a length is taken for. -/
structure InetAddress where
  impliedFlag : Bool
  addressType : Option ℕ
  accepts : Octets → Bool
  classAccepts : Octets → Bool
  typeMap : ℤ → Option (Octets → Bool)
  inferType : ℕ → Option (Octets → Bool)
  convert : Value → Except PythonError Value

namespace InetAddress

variable (address : InetAddress) (parentIndices : List Value)

/-- The number of the `InetAddressType` beside the address. -/
def typeBeside : Option ℤ :=
  match address.addressType.bind fun position ↦ parentIndices[position]? with
  | some (.integer number) => some number
  | _ => none

/-- `_splitIndex`. -/
def splitIndex : Arcs → Except MibException (Arcs × Arcs)
  | [] => .error (.smi { kind := .smiError })
  | length :: others =>
    if address.impliedFlag then
      .ok (length :: others, [])
    else if ((counted length (length :: others)).1.length : ℤ) ≠ length then
      .error (.smi { kind := .smiError })
    else
      .ok (counted length (length :: others))

/-- `_joinIndex`. -/
def joinIndex (octets : Octets) : Arcs :=
  if address.impliedFlag then
    asNumbers (.octetString octets)
  else
    ((asNumbers (.octetString octets)).length : ℤ) :: asNumbers (.octetString octets)

/-- The type that an address of so many octets is read as; only the empty one goes with an unknown
number (`_checkUnknown`). -/
def concreteType (length : ℕ) : Except MibException (Octets → Bool) :=
  match address.typeBeside parentIndices with
  | some number =>
    match address.typeMap number with
    | some accepts => .ok accepts
    | none =>
      if length = 0 then .ok address.classAccepts else .error (.smi { kind := .smiError })
  | none => .ok ((address.inferType length).getD address.classAccepts)

/-- `_cloneFromName`. -/
def cloneFromName (value : Arcs) : Except MibException (Value × Arcs) := do
  let (octets, rest) ← address.splitIndex value
  let accepts ← address.concreteType parentIndices octets.length
  reading (bytes octets >>= constrainOctets accepts) rest

/-- `_cloneAsName`. -/
def cloneAsName (octets : Octets) : Except MibException Arcs :=
  match address.typeBeside parentIndices with
  | some number =>
    match address.typeMap number with
    | some accepts =>
      if accepts octets then .ok (address.joinIndex octets) else .error (.python .pyAsn1Error)
    | none =>
      if octets.length = 0 then
        .ok (address.joinIndex octets)
      else
        .error (.smi { kind := .smiError })
  | none => .ok (address.joinIndex octets)

end InetAddress

/-! ### Rows of any definition -/

/-- An index of a row. -/
inductive Index
  | base (index : RowIndex)
  | networkAddress (convert : Value → Except PythonError Value)
  | inetAddress (address : InetAddress)

namespace Index

/-- `MibTableRow.setFromName`. -/
def setFromName (index : Index) (parentIndices : List Value) (value : Arcs) :
    Except MibException (Value × Arcs) :=
  match index with
  | .base index => IndexEncoding.setFromName index.syntaxObj value index.impliedFlag
  | .networkAddress _ => networkFromName value
  | .inetAddress address => address.cloneFromName parentIndices value

/-- `clone` with a value. -/
def clone : Index → Value → Except PythonError Value
  | .base index, value => index.syntaxObj.clone value
  | .networkAddress convert, .octetString octets =>
    if octets.length = 4 then .ok (.octetString octets) else convert (.octetString octets)
  | .networkAddress convert, value => convert value
  | .inetAddress address, .octetString octets => constrainOctets address.accepts octets
  | .inetAddress address, value => address.convert value

/-- `MibTableRow.getAsName`. -/
def getAsName (index : Index) (parentIndices : List Value) (value : Value) :
    Except MibException Arcs :=
  match index, value with
  | .base index, value => .ok (IndexEncoding.getAsName index.syntaxObj value index.impliedFlag)
  | .networkAddress _, value => .ok (1 :: asNumbers value)
  | .inetAddress address, .octetString octets => address.cloneAsName parentIndices octets
  | .inetAddress _, _ => .error (.python .attributeError)

end Index

/-- The loop over the indices in `getIndicesFromInstId`, up to what is left of the identifier. -/
def readIndices : List Index → List Value → Arcs → Except MibException (Indices × Arcs)
  | [], _, instId => .ok (.values [], instId)
  | index :: indexNames, indices, instId =>
    match index.setFromName indices instId with
    | .error exception =>
      if isPyAsn1Error exception then .ok (.remainder instId, []) else .error exception
    | .ok (syntaxObj, rest) =>
      match readIndices indexNames (indices ++ [syntaxObj]) rest with
      | .error exception => .error exception
      | .ok (.remainder instId, last) => .ok (.remainder instId, last)
      | .ok (.values indices, last) => .ok (.values (syntaxObj :: indices), last)

/-- The loop over indices without a reader of their own, which need not know each other. -/
theorem readIndices_map_base (row : List RowIndex) (indices : List Value) (instId : Arcs) :
    readIndices (row.map Index.base) indices instId = IndexEncoding.readIndices row instId := by
  induction row generalizing indices instId with
  | nil => rfl
  | cons index row ih =>
    rw [List.map_cons, readIndices, IndexEncoding.readIndices, Index.setFromName]
    cases IndexEncoding.setFromName index.syntaxObj instId index.impliedFlag with
    | error exception => rfl
    | ok read =>
      rcases hlast : IndexEncoding.readIndices row read.2 with exception | ⟨_ | _, _⟩ <;>
        simp only [ih, hlast]

/-- `getIndicesFromInstId` without its cache. -/
def indicesOf (row : List Index) (instId : Arcs) : Except MibException Indices :=
  match readIndices row [] instId with
  | .error exception => .error exception
  | .ok (indices, rest) =>
    if rest = [] then .ok indices else .error (.smi { kind := .smiError })

/-- The loop over the indices in `getInstIdFromIndices`; indices that are not given are left out. -/
def instIdFrom : List Index → List Value → List Value → Except MibException Arcs
  | index :: indexNames, parentIndices, value :: indices =>
    match index.clone value with
    | .error error => .error (.python error)
    | .ok syntaxObj => do
      let head ← index.getAsName parentIndices syntaxObj
      let rest ← instIdFrom indexNames (parentIndices ++ [syntaxObj]) indices
      .ok (head ++ rest)
  | _, _, _ => .ok []

/-- `getInstIdFromIndices` without its cache. -/
def instIdOf (row : List Index) (indices : List Value) : Except MibException Arcs :=
  instIdFrom row [] indices

/-- `getIndicesFromInstId`. -/
def getIndicesFromInstId (row : List Index) (instId : Arcs) : RowOp Indices :=
  cachedIndices (indicesOf row) instId

/-- `getInstIdFromIndices`. -/
def getInstIdFromIndices (row : List Index) (indices : List Value) : RowOp Arcs :=
  cachedInstId (instIdOf row) indices

/-- What a call leaves in the caches. -/
def call (row : List Index) (caches : IndexCaches) : Call → IndexCaches
  | .getIndicesFromInstId instId => ((getIndicesFromInstId row instId).run caches).2
  | .getInstIdFromIndices indices => ((getInstIdFromIndices row indices).run caches).2

/-! ### Rows of the instrumentation -/

/-- The branch of `setFromName` that a type takes: that of strings for BITS too. -/
def indexType (syntaxObj : IndexSyntax) : IndexType :=
  match syntaxObj.baseType with
  | .integer => .integer
  | .ipAddress => .ipAddress
  | .octetString | .bits _ => .octetString syntaxObj.fixedLength
  | .objectIdentifier => .objectIdentifier

/-- `clone` with the sub-identifiers that `setFromName` has taken. -/
def cloneArcs (syntaxObj : IndexSyntax) (arcs : Oid) : Except PythonError Value :=
  match syntaxObj.baseType, arcs with
  | .integer, [arc] => syntaxObj.cloneInteger arc
  | .integer, _ => .error .typeError
  | .ipAddress, arcs => syntaxObj.cloneDotted (arcs.map Nat.cast)
  | .octetString, arcs | .bits _, arcs => syntaxObj.cloneTuple (arcs.map Nat.cast)
  | .objectIdentifier, arcs => syntaxObj.cloneOid (arcs.map Nat.cast)

/-- What a type reads itself, of sub-identifiers that are not negative. -/
def naturalRest (read : Except MibException (Value × Arcs)) : Except MibException (Value × Oid) :=
  read.map fun (value, rest) ↦ (value, rest.map Int.toNat)

/-- The index object with a name, as the operations on managed objects have it. -/
def Index.indexName (name : Oid) : Index → IndexName
  | .base index =>
    { impliedFlag := index.impliedFlag
      name := name
      indexType := indexType index.syntaxObj
      clone := cloneArcs index.syntaxObj }
  | .networkAddress convert =>
    { impliedFlag := false
      name := name
      indexType := .named
        (fun _ _ value ↦ naturalRest (networkFromName (value.map Nat.cast)))
        (fun value _ parentIndices ↦
          ((Index.networkAddress convert).getAsName parentIndices value).map
            fun arcs ↦ arcs.map Int.toNat)
      clone := fun _ ↦ .error .typeError }
  | .inetAddress address =>
    { impliedFlag := address.impliedFlag
      name := name
      indexType := .named
        (fun _ parentIndices value ↦
          naturalRest (address.cloneFromName parentIndices (value.map Nat.cast)))
        (fun value _ parentIndices ↦
          ((Index.inetAddress address).getAsName parentIndices value).map
            fun arcs ↦ arcs.map Int.toNat)
      clone := fun _ ↦ .error .typeError }

/-- The definition of a row has these indices. -/
def HasIndices (definition : MibTableRow) (row : List Index) : Prop :=
  List.Forall₂ (fun indexName index ↦ indexName = index.indexName indexName.name)
    definition.indexNames row

/-- The test of a write finds that its column has to create a row. -/
def WantsCreation (definition : MibTableRow) (context : Context) (name : Oid)
    (value : Option Value) (state : MibState) : Prop :=
  ∃ column branch error after, definition.columns.getBranch name = some (branch, column) ∧
    (RowWrite.onColumn column name (ColumnWrite.write column context name value .test)).run state =
      (.error (.smi error), after) ∧ error.kind = .rowCreationWanted

/-! ### Accepted identifiers -/

/-- The identifier is that of a value for each index. -/
def IsDenoted (row : List Index) (instId : Arcs) : Prop :=
  ∃ values, values.length = row.length ∧ instIdOf row values = .ok instId

/-- An identifier is accepted only if it is that of the values it is taken for: these have it as
their identifier, one that no values have is not taken for any, and no row is created under it. -/
structure AcceptsOnlyEncodings (row : List Index) (caches : IndexCaches) (instId : Oid) :
    Prop where
  reads_back : ∀ values after,
    (getIndicesFromInstId row (instId.map Nat.cast)).run caches = (.ok (.values values), after) →
      ((getInstIdFromIndices row values).run after).1 = .ok (instId.map Nat.cast)
  rejects : ¬ IsDenoted row (instId.map Nat.cast) →
    ∀ values, ((getIndicesFromInstId row (instId.map Nat.cast)).run caches).1 ≠
      .ok (.values values)
  creates : ∀ (tree : MibTree) (definition : MibTableRow) (context : Context) (name : Oid)
    (value : Option Value) (state after : MibState), HasIndices definition row →
      name.drop (definition.name.length + 1) = instId →
      WantsCreation definition context name value state →
      (RowWrite.write tree definition context name value .test).run state = (.ok (), after) →
        IsDenoted row (instId.map Nat.cast)

/-- The identifier ends within an index, and the syntax of the index takes what there is of it: a
string or an object identifier of fewer sub-identifiers than its length says, or an address of fewer
than four. -/
inductive TakesShort (index : RowIndex) : Arcs → Prop
  | string {first : ℤ} {others : Arcs} {value : Value} (hstring : IsString index)
      (himplied : index.impliedFlag = false) (hfixed : index.syntaxObj.fixedLength = none)
      (hshort : (others.length : ℤ) < first)
      (hvalue : index.syntaxObj.cloneTuple others = .ok value) : TakesShort index (first :: others)
  | objectIdentifier {first : ℤ} {others : Arcs} {value : Value}
      (htag : index.syntaxObj.baseType.baseTag = .objectIdentifier)
      (himplied : index.impliedFlag = false) (hshort : (others.length : ℤ) < first)
      (hvalue : index.syntaxObj.cloneOid others = .ok value) : TakesShort index (first :: others)
  | address {arcs : Arcs} {value : Value} (haddress : index.syntaxObj.baseType.isIpAddress)
      (hshort : arcs.length < 4) (hvalue : index.syntaxObj.cloneDotted arcs = .ok value) :
      TakesShort index arcs

/-- Every index reads its value, and nothing is left. -/
inductive IsRead : List Index → List Value → Arcs → Prop
  | nil {parentIndices : List Value} : IsRead [] parentIndices []
  | cons {index : Index} {row : List Index} {parentIndices : List Value} {instId rest : Arcs}
      {value : Value} (hread : index.setFromName parentIndices instId = .ok (value, rest))
      (hrest : IsRead row (parentIndices ++ [value]) rest) :
      IsRead (index :: row) parentIndices instId

/-- The last index is cut short, or an `InetAddress` has a value that its concrete type takes and
its own syntax does not. -/
inductive Misread : List Index → List Value → Arcs → Prop
  | short {index : RowIndex} {parentIndices : List Value} {instId : Arcs}
      (hshort : TakesShort index instId) : Misread [.base index] parentIndices instId
  | refused {address : InetAddress} {row : List Index} {parentIndices : List Value}
      {instId rest : Arcs} {octets : Octets}
      (hread : address.cloneFromName parentIndices instId = .ok (.octetString octets, rest))
      (hrefuses : address.accepts octets = false)
      (hrest : IsRead row (parentIndices ++ [.octetString octets]) rest) :
      Misread (.inetAddress address :: row) parentIndices instId
  | later {index : Index} {row : List Index} {parentIndices : List Value} {instId rest : Arcs}
      {value : Value} (hread : index.setFromName parentIndices instId = .ok (value, rest))
      (hrest : Misread row (parentIndices ++ [value]) rest) :
      Misread (index :: row) parentIndices instId

/-! ### One index of a base type -/

section Base

variable {index : RowIndex} {arcs rest : Arcs} {value : Value}

/-- An index is read with the arcs left after it. -/
theorem reading_eq_ok_iff {cloned : Except PythonError Value} {other : Arcs} :
    reading cloned rest = .ok (value, other) ↔ cloned = .ok value ∧ rest = other := by
  cases cloned with
  | ok cloned => simp [reading]
  | error error => simp [reading]

/-- A constraint lets a value through unchanged. -/
theorem eq_of_constrain {syntaxObj : IndexSyntax} {plain : Value}
    (hvalue : syntaxObj.constrain plain = .ok value) :
    plain = value ∧ syntaxObj.accepts value := by
  unfold IndexSyntax.constrain at hvalue
  split_ifs at hvalue with haccepts
  obtain rfl := Except.ok.inj hvalue
  exact ⟨rfl, haccepts⟩

/-- The octets of sub-identifiers are these sub-identifiers. -/
theorem asNumbers_of_bytes {octets : Octets} (hbytes : bytes arcs = .ok octets) :
    asNumbers (.octetString octets) = arcs := by
  unfold bytes at hbytes
  split_ifs at hbytes with hrange
  obtain rfl := Except.ok.inj hbytes
  rw [asNumbers, List.map_map]
  have hsame : ∀ arc ∈ arcs,
      ((fun octet : UInt8 ↦ (octet.toNat : ℤ)) ∘ fun arc ↦ UInt8.ofNat arc.toNat) arc = id arc := by
    intro arc hmem
    obtain ⟨hnonneg, hle⟩ := hrange arc hmem
    have hlt : arc.toNat < 256 := by omega
    simp only [Function.comp_apply, UInt8.toNat_ofNat', Nat.reducePow, Nat.mod_eq_of_lt hlt, id]
    omega
  rw [List.map_congr_left hsame, List.map_id]

/-- A string takes its sub-identifiers as they are; a BITS takes none. -/
theorem asNumbers_of_prettyInTuple {baseType : BaseType} {octets : Octets}
    (hpretty : baseType.prettyInTuple arcs = .ok octets) :
    asNumbers (.octetString octets) = arcs := by
  cases baseType with
  | bits namedValues =>
    cases arcs with
    | nil =>
      obtain rfl := Except.ok.inj hpretty
      rfl
    | cons first others =>
      have hfails := IndexRoundTrip.bitsPrettyIn_number namedValues first (others.map .number)
      have hok : bitsPrettyIn namedValues (.number first :: others.map .number) = .ok octets :=
        hpretty
      rw [hok] at hfails
      rcases hfails with hfails | hfails
      · cases hfails
      · cases hfails
  | _ => exact asNumbers_of_bytes hpretty

/-- A string made of arcs has those arcs for its numbers. -/
theorem eq_of_cloneTuple (hclone : index.syntaxObj.cloneTuple arcs = .ok value) :
    index.syntaxObj.accepts value ∧ asNumbers value = arcs := by
  unfold IndexSyntax.cloneTuple at hclone
  cases hpretty : index.syntaxObj.baseType.prettyInTuple arcs with
  | error error =>
    rw [hpretty] at hclone
    cases hclone
  | ok octets =>
    rw [hpretty] at hclone
    obtain ⟨rfl, haccepts⟩ := eq_of_constrain hclone
    exact ⟨haccepts, asNumbers_of_prettyInTuple hpretty⟩

/-- An object identifier made of arcs has those arcs for its numbers. -/
theorem eq_of_cloneOid (hclone : index.syntaxObj.cloneOid arcs = .ok value) :
    index.syntaxObj.accepts value ∧ asNumbers value = arcs := by
  unfold IndexSyntax.cloneOid oidPrettyIn at hclone
  split_ifs at hclone with hnonneg
  · obtain ⟨rfl, haccepts⟩ := eq_of_constrain hclone
    refine ⟨haccepts, ?_⟩
    rw [asNumbers, List.map_map]
    have hsame : ∀ arc ∈ arcs, ((fun arc : ℕ ↦ (arc : ℤ)) ∘ Int.toNat) arc = id arc :=
      fun arc hmem ↦ Int.toNat_of_nonneg (hnonneg arc hmem)
    rw [List.map_congr_left hsame, List.map_id]
  · cases hclone

/-- An address is its sub-identifiers, where there are four. -/
theorem eq_of_addressPrettyIn {octets : Octets} (hpretty : addressPrettyIn arcs = .ok octets)
    (hnatural : ∀ arc ∈ arcs, 0 ≤ arc) :
    octets.length = 4 ∧ (arcs.length = 4 → asNumbers (.octetString octets) = arcs) := by
  unfold addressPrettyIn at hpretty
  simp only at hpretty
  split_ifs at hpretty with htext
  · obtain rfl := Except.ok.inj hpretty
    refine ⟨by rw [List.length_map, String.length_toList, htext], fun hlength ↦ absurd htext ?_⟩
    have harcs : arcs = (arcs.map Int.toNat).map (Nat.cast : ℕ → ℤ) := by
      rw [List.map_map]
      exact (List.map_congr_left fun arc hmem ↦ Int.toNat_of_nonneg (hnatural arc hmem)).trans
        (List.map_id arcs) |>.symm
    rw [harcs]
    exact IndexRoundTrip.length_intercalate_ne_four (by rw [List.length_map, hlength])
  · cases hbytes : bytes arcs with
    | error error => simp [hbytes] at hpretty
    | ok taken =>
      simp only [hbytes] at hpretty
      split_ifs at hpretty with hlength
      obtain rfl := Except.ok.inj hpretty
      exact ⟨hlength, fun _ ↦ asNumbers_of_bytes hbytes⟩

/-- An address made of four arcs has those arcs for its numbers. -/
theorem eq_of_cloneDotted (hclone : index.syntaxObj.cloneDotted arcs = .ok value)
    (hnatural : ∀ arc ∈ arcs, 0 ≤ arc) :
    index.syntaxObj.accepts value ∧ (asNumbers value).length = 4 ∧
      (arcs.length = 4 → asNumbers value = arcs) := by
  unfold IndexSyntax.cloneDotted at hclone
  cases hpretty : addressPrettyIn arcs with
  | error error =>
    rw [hpretty] at hclone
    cases hclone
  | ok octets =>
    rw [hpretty] at hclone
    obtain ⟨rfl, haccepts⟩ := eq_of_constrain hclone
    obtain ⟨hfour, hsame⟩ := eq_of_addressPrettyIn hpretty hnatural
    exact ⟨haccepts, (List.length_map _).trans hfour, hsame⟩

/-- A count says how many of the arcs after it belong to the index. -/
theorem counted_of_nonneg {first : ℤ} {others : Arcs} (hfirst : 0 ≤ first) :
    counted first (first :: others) = (others.take first.toNat, others.drop first.toNat) := by
  obtain ⟨count, rfl⟩ := Int.eq_ofNat_of_zero_le hfirst
  have hbound : sliceBound (((count : ℤ) :: others).length) (count + 1) = count + 1 := by
    unfold sliceBound
    rw [if_neg (by omega)]
    omega
  unfold counted
  rw [hbound]
  simp

/-- A string or an object identifier with its length before it, which is read with its tail. -/
theorem counted_eq_append {first : ℤ} {others : Arcs} (hfirst : 0 ≤ first)
    (hwhole : ¬ (others.length : ℤ) < first)
    (hnumbers : asNumbers value = (counted first (first :: others)).1) :
    (((asNumbers value).length : ℤ) :: asNumbers value) ++ (counted first (first :: others)).2 =
      first :: others := by
  have hlength : (asNumbers value).length = first.toNat := by
    rw [hnumbers, counted_of_nonneg hfirst, List.length_take]
    omega
  rw [List.cons_append, hlength, Int.toNat_of_nonneg hfirst, hnumbers, counted_of_nonneg hfirst,
    List.take_append_drop]

/-- Where fewer arcs are left than counted, the index takes them all. -/
theorem counted_of_lt {first : ℤ} {others : Arcs} (hshort : (others.length : ℤ) < first) :
    counted first (first :: others) = (others, []) := by
  have hlength : others.length ≤ first.toNat := by omega
  rw [counted_of_nonneg (by omega), List.take_of_length_le hlength,
    List.drop_of_length_le hlength]

/-- A string that was read whole is written with the same arcs. -/
theorem getAsName_of_string {first : ℤ} {others : Arcs} (hfirst : 0 ≤ first)
    (hstring : IsString index)
    (hread : IndexEncoding.setFromName index.syntaxObj (first :: others) index.impliedFlag =
      .ok (value, rest))
    (hwhole : ¬ TakesShort index (first :: others)) :
    index.syntaxObj.accepts value ∧
      IndexEncoding.getAsName index.syntaxObj value index.impliedFlag ++ rest =
        first :: others := by
  rw [IndexRoundTrip.setFromName_string hstring] at hread
  rw [IndexRoundTrip.getAsName_string value hstring]
  cases himplied : index.impliedFlag with
  | true =>
    rw [himplied, if_pos rfl] at hread
    obtain ⟨hclone, rfl⟩ := reading_eq_ok_iff.mp hread
    obtain ⟨haccepts, hnumbers⟩ := eq_of_cloneTuple hclone
    exact ⟨haccepts, by simp [hnumbers]⟩
  | false =>
    rw [himplied, if_neg Bool.false_ne_true] at hread
    cases hfixed : index.syntaxObj.fixedLength with
    | some fixedLength =>
      rw [hfixed] at hread
      obtain ⟨hclone, rfl⟩ := reading_eq_ok_iff.mp hread
      obtain ⟨haccepts, hnumbers⟩ := eq_of_cloneTuple hclone
      refine ⟨haccepts, ?_⟩
      rw [if_pos (by simp), hnumbers, List.take_append_drop]
    | none =>
      rw [hfixed] at hread
      obtain ⟨hclone, rfl⟩ := reading_eq_ok_iff.mp hread
      obtain ⟨haccepts, hnumbers⟩ := eq_of_cloneTuple hclone
      refine ⟨haccepts, ?_⟩
      rw [if_neg (by simp)]
      refine counted_eq_append hfirst (fun hshort ↦ hwhole ?_) hnumbers
      rw [counted_of_lt hshort] at hclone
      exact .string hstring himplied hfixed hshort hclone

/-- An object identifier that was read whole is written with the same arcs. -/
theorem getAsName_of_objectIdentifier {first : ℤ} {others : Arcs} (hfirst : 0 ≤ first)
    (htag : index.syntaxObj.baseType.baseTag = .objectIdentifier)
    (haddress : ¬ index.syntaxObj.baseType.isIpAddress)
    (hread : IndexEncoding.setFromName index.syntaxObj (first :: others) index.impliedFlag =
      .ok (value, rest))
    (hwhole : ¬ TakesShort index (first :: others)) :
    index.syntaxObj.accepts value ∧
      IndexEncoding.getAsName index.syntaxObj value index.impliedFlag ++ rest =
        first :: others := by
  rw [IndexRoundTrip.setFromName_objectIdentifier htag haddress] at hread
  rw [IndexRoundTrip.getAsName_objectIdentifier value htag haddress]
  cases himplied : index.impliedFlag with
  | true =>
    rw [himplied, if_pos rfl] at hread
    obtain ⟨hclone, rfl⟩ := reading_eq_ok_iff.mp hread
    obtain ⟨haccepts, hnumbers⟩ := eq_of_cloneOid hclone
    exact ⟨haccepts, by simp [hnumbers]⟩
  | false =>
    rw [himplied, if_neg Bool.false_ne_true] at hread
    obtain ⟨hclone, rfl⟩ := reading_eq_ok_iff.mp hread
    obtain ⟨haccepts, hnumbers⟩ := eq_of_cloneOid hclone
    refine ⟨haccepts, ?_⟩
    rw [if_neg Bool.false_ne_true]
    refine counted_eq_append hfirst (fun hshort ↦ hwhole ?_) hnumbers
    rw [counted_of_lt hshort] at hclone
    exact .objectIdentifier htag himplied hshort hclone

/-- An address that was read whole is written with the same arcs. -/
theorem getAsName_of_address (hnatural : ∀ arc ∈ arcs, 0 ≤ arc) (hne : arcs ≠ [])
    (htag : index.syntaxObj.baseType.baseTag = .octetString)
    (haddress : index.syntaxObj.baseType.isIpAddress)
    (hread : IndexEncoding.setFromName index.syntaxObj arcs index.impliedFlag = .ok (value, rest))
    (hwhole : ¬ TakesShort index arcs) :
    index.syntaxObj.accepts value ∧
      IndexEncoding.getAsName index.syntaxObj value index.impliedFlag ++ rest = arcs := by
  rw [IndexRoundTrip.setFromName_address hne htag haddress] at hread
  obtain ⟨hclone, rfl⟩ := reading_eq_ok_iff.mp hread
  have hfour : 4 ≤ arcs.length := by
    by_contra hshort
    rw [List.take_of_length_le (by omega)] at hclone
    exact hwhole (.address haddress (by omega) hclone)
  obtain ⟨haccepts, -, hnumbers⟩ := eq_of_cloneDotted hclone fun arc hmem ↦
    hnatural arc (List.mem_of_mem_take hmem)
  refine ⟨haccepts, ?_⟩
  rw [IndexRoundTrip.getAsName_address value htag haddress,
    hnumbers (by rw [List.length_take]; omega), List.take_append_drop]

/-- An address is an octet string. -/
theorem baseTag_of_isIpAddress (haddress : index.syntaxObj.baseType.isIpAddress) :
    index.syntaxObj.baseType.baseTag = .octetString := by
  cases hbase : index.syntaxObj.baseType with
  | ipAddress => rfl
  | _ =>
    rw [hbase] at haddress
    cases haddress

/-- An object identifier is no address. -/
theorem not_isIpAddress_of_baseTag
    (htag : index.syntaxObj.baseType.baseTag = .objectIdentifier) :
    ¬ index.syntaxObj.baseType.isIpAddress := fun haddress ↦ by
  rw [baseTag_of_isIpAddress haddress] at htag
  cases htag

/-- The value that is read from the whole of an index is spelled by what was read. -/
theorem getAsName_of_setFromName (hnatural : ∀ arc ∈ arcs, 0 ≤ arc)
    (hread : IndexEncoding.setFromName index.syntaxObj arcs index.impliedFlag = .ok (value, rest))
    (hwhole : ¬ TakesShort index arcs) :
    index.syntaxObj.accepts value ∧
      IndexEncoding.getAsName index.syntaxObj value index.impliedFlag ++ rest = arcs := by
  obtain _ | ⟨first, others⟩ := arcs
  · cases hread
  have hfirst : 0 ≤ first := hnatural first List.mem_cons_self
  cases htag : index.syntaxObj.baseType.baseTag with
  | integer =>
    simp only [IndexEncoding.setFromName, htag, if_true] at hread
    obtain ⟨hclone, rfl⟩ := reading_eq_ok_iff.mp hread
    obtain ⟨rfl, haccepts⟩ := eq_of_constrain hclone
    exact ⟨haccepts, by simp [IndexEncoding.getAsName, htag, asNumbers]⟩
  | octetString =>
    by_cases haddress : index.syntaxObj.baseType.isIpAddress
    · exact getAsName_of_address hnatural (List.cons_ne_nil _ _) htag haddress hread hwhole
    · exact getAsName_of_string hfirst ⟨htag, haddress⟩ hread hwhole
  | objectIdentifier =>
    exact getAsName_of_objectIdentifier hfirst htag (not_isIpAddress_of_baseTag htag) hread hwhole

/-- What is cut short is read as a value that has another name. -/
theorem setFromName_of_takesShort (hnatural : ∀ arc ∈ arcs, 0 ≤ arc)
    (hshort : TakesShort index arcs) :
    ∃ value, IndexEncoding.setFromName index.syntaxObj arcs index.impliedFlag = .ok (value, []) ∧
      index.syntaxObj.accepts value ∧
      IndexEncoding.getAsName index.syntaxObj value index.impliedFlag ≠ arcs := by
  cases hshort with
  | @string first others value hstring himplied hfixed hshort hvalue =>
    obtain ⟨haccepts, hnumbers⟩ := eq_of_cloneTuple hvalue
    refine ⟨value, ?_, haccepts, ?_⟩
    · rw [IndexRoundTrip.setFromName_string hstring, himplied, hfixed, counted_of_lt hshort, hvalue]
      rfl
    · rw [IndexRoundTrip.getAsName_string value hstring, himplied, hfixed, hnumbers]
      simp only [Option.isSome_none, Bool.or_self, Bool.false_eq_true, if_false, ne_eq,
        List.cons.injEq, and_true]
      omega
  | @objectIdentifier first others value htag himplied hshort hvalue =>
    have haddress := not_isIpAddress_of_baseTag htag
    obtain ⟨haccepts, hnumbers⟩ := eq_of_cloneOid hvalue
    refine ⟨value, ?_, haccepts, ?_⟩
    · rw [IndexRoundTrip.setFromName_objectIdentifier htag haddress, himplied,
        counted_of_lt hshort, hvalue]
      rfl
    · rw [IndexRoundTrip.getAsName_objectIdentifier value htag haddress, himplied, hnumbers]
      simp only [Bool.false_eq_true, if_false, ne_eq, List.cons.injEq, and_true]
      omega
  | @address _ value haddress hshort hvalue =>
    have htag := baseTag_of_isIpAddress haddress
    obtain ⟨haccepts, hfour, -⟩ := eq_of_cloneDotted hvalue hnatural
    have hne : arcs ≠ [] := by
      rintro rfl
      have hempty : addressPrettyIn [] = .error .pyAsn1Error := rfl
      rw [IndexSyntax.cloneDotted, hempty] at hvalue
      cases hvalue
    refine ⟨value, ?_, haccepts, ?_⟩
    · rw [IndexRoundTrip.setFromName_address hne htag haddress,
        List.take_of_length_le (by omega), List.drop_of_length_le (by omega), hvalue]
      rfl
    · rw [IndexRoundTrip.getAsName_address value htag haddress]
      intro hsame
      rw [hsame] at hfour
      omega

end Base

/-! ### One index -/

section Own

variable {address : InetAddress} {parentIndices : List Value} {arcs rest : Arcs} {value : Value}

/-- A network address is read from its five sub-identifiers. -/
theorem eq_of_networkFromName (hread : networkFromName arcs = .ok (value, rest)) :
    ∃ octets, value = .octetString octets ∧ octets.length = 4 ∧
      1 :: asNumbers value ++ rest = arcs := by
  obtain _ | ⟨kind, others⟩ := arcs
  · cases hread
  rw [networkFromName] at hread
  split_ifs at hread with hkind
  obtain ⟨hclone, rfl⟩ := reading_eq_ok_iff.mp hread
  unfold networkOctets at hclone
  split_ifs at hclone with hlength
  cases hbytes : bytes (others.take 4) with
  | error error =>
    rw [hbytes] at hclone
    cases hclone
  | ok octets =>
    rw [hbytes] at hclone
    obtain rfl : Value.octetString octets = value := Except.ok.inj hclone
    have hnumbers := asNumbers_of_bytes hbytes
    refine ⟨octets, rfl, ?_, ?_⟩
    · rw [← List.length_map (fun octet : UInt8 ↦ (octet.toNat : ℤ))]
      exact (congrArg List.length hnumbers).trans (not_not.mp hlength)
    · rw [hnumbers, hkind, List.cons_append, List.take_append_drop]

/-- What `_splitIndex` takes apart, `_joinIndex` puts together. -/
theorem joinIndex_of_splitIndex {octets : Octets} (hnatural : ∀ arc ∈ arcs, 0 ≤ arc) {taken : Arcs}
    (hsplit : address.splitIndex arcs = .ok (taken, rest))
    (htaken : asNumbers (.octetString octets) = taken) :
    address.joinIndex octets ++ rest = arcs := by
  obtain _ | ⟨length, others⟩ := arcs
  · cases hsplit
  have hlength : 0 ≤ length := hnatural length List.mem_cons_self
  rw [InetAddress.splitIndex] at hsplit
  rw [InetAddress.joinIndex]
  split_ifs at hsplit ⊢ with himplied hshort
  · obtain ⟨rfl, rfl⟩ := Prod.mk.inj (Except.ok.inj hsplit)
    rw [htaken, List.append_nil]
  · obtain ⟨rfl, rfl⟩ := Prod.mk.inj (Except.ok.inj hsplit)
    refine counted_eq_append hlength (fun hlt ↦ hshort ?_) htaken
    rw [counted_of_lt hlt]
    exact hlt.ne

/-- The type that an address is read as is the one that it is spelled as. -/
theorem cloneAsName_of_concreteType {octets : Octets} {accepts : Octets → Bool}
    (htype : address.concreteType parentIndices octets.length = .ok accepts)
    (haccepts : accepts octets) :
    address.cloneAsName parentIndices octets = .ok (address.joinIndex octets) := by
  unfold InetAddress.concreteType at htype
  unfold InetAddress.cloneAsName
  cases hbeside : address.typeBeside parentIndices with
  | none => rfl
  | some number =>
    simp only [hbeside] at htype ⊢
    cases hmap : address.typeMap number with
    | some concrete =>
      simp only [hmap] at htype ⊢
      obtain rfl := Except.ok.inj htype
      exact if_pos haccepts
    | none =>
      simp only [hmap] at htype ⊢
      split_ifs at htype ⊢ with hempty
      rfl

/-- An address of a concrete type is read from the sub-identifiers it is spelled by. -/
theorem eq_of_cloneFromName (hnatural : ∀ arc ∈ arcs, 0 ≤ arc)
    (hread : address.cloneFromName parentIndices arcs = .ok (value, rest)) :
    ∃ octets, value = .octetString octets ∧
      address.cloneAsName parentIndices octets = .ok (address.joinIndex octets) ∧
      address.joinIndex octets ++ rest = arcs := by
  unfold InetAddress.cloneFromName at hread
  obtain ⟨⟨taken, tail⟩, hsplit, hread⟩ := exists_of_bind_eq_ok hread
  obtain ⟨accepts, htype, hread⟩ := exists_of_bind_eq_ok hread
  obtain ⟨hclone, rfl⟩ := reading_eq_ok_iff.mp hread
  obtain ⟨octets, hbytes, hclone⟩ := exists_of_bind_eq_ok hclone
  unfold constrainOctets at hclone
  split_ifs at hclone with haccepts
  obtain rfl := Except.ok.inj hclone
  have hnumbers := asNumbers_of_bytes hbytes
  refine ⟨octets, rfl, ?_, joinIndex_of_splitIndex hnatural hsplit hnumbers⟩
  refine cloneAsName_of_concreteType ?_ haccepts
  rwa [← hnumbers, asNumbers, List.length_map] at htype

/-! ### Rows -/

variable {index : Index} {row : List Index}

/-- The value that is read from the whole of an index is spelled by what was read, if the syntax of
the index accepts it. -/
theorem exists_getAsName (hnatural : ∀ arc ∈ arcs, 0 ≤ arc)
    (hread : index.setFromName parentIndices arcs = .ok (value, rest))
    (hwhole : ∀ base, index = .base base → ¬ TakesShort base arcs)
    (haccepts : ∀ address octets, index = .inetAddress address → value = .octetString octets →
      address.accepts octets) :
    ∃ head, index.clone value = .ok value ∧ index.getAsName parentIndices value = .ok head ∧
      head ++ rest = arcs := by
  cases index with
  | base base =>
    obtain ⟨haccepted, hspelled⟩ := getAsName_of_setFromName hnatural hread (hwhole base rfl)
    exact ⟨_, IndexRoundTrip.clone_of_accepts haccepted, rfl, hspelled⟩
  | networkAddress convert =>
    obtain ⟨octets, rfl, hfour, hspelled⟩ := eq_of_networkFromName hread
    exact ⟨_, if_pos hfour, rfl, hspelled⟩
  | inetAddress address =>
    obtain ⟨octets, rfl, hname, hspelled⟩ := eq_of_cloneFromName hnatural hread
    exact ⟨_, if_pos (haccepts address octets rfl rfl), hname, hspelled⟩

end Own

section Rows

variable {index : Index} {row : List Index} {parentIndices values : List Value}
  {instId rest : Arcs} {value : Value}

/-- The first index of what is accepted has a value, and the others accept the rest. -/
theorem readIndices_cons_iff {left : Arcs} :
    readIndices (index :: row) parentIndices instId = .ok (.values values, left) ↔
      ∃ value rest others, index.setFromName parentIndices instId = .ok (value, rest) ∧
        readIndices row (parentIndices ++ [value]) rest = .ok (.values others, left) ∧
        values = value :: others := by
  rw [readIndices]
  cases hread : index.setFromName parentIndices instId with
  | error exception =>
    simp only
    split_ifs <;> simp
  | ok read =>
    obtain ⟨value, rest⟩ := read
    simp only
    cases hrest : readIndices row (parentIndices ++ [value]) rest with
    | error exception => simp [hrest]
    | ok result =>
      obtain ⟨others | remainder, last⟩ := result
      · simp only [Except.ok.injEq, Prod.mk.injEq, Indices.values.injEq]
        constructor
        · rintro ⟨rfl, rfl⟩
          exact ⟨value, rest, others, ⟨rfl, rfl⟩, hrest, rfl⟩
        · rintro ⟨_, _, taken, ⟨rfl, rfl⟩, htaken, rfl⟩
          rw [hrest] at htaken
          obtain ⟨hsame, rfl⟩ := Prod.mk.inj (Except.ok.inj htaken)
          exact ⟨congrArg _ (Indices.values.inj hsame), rfl⟩
      · simp only [Except.ok.injEq, Prod.mk.injEq, reduceCtorEq, false_and, false_iff]
        rintro ⟨_, _, taken, ⟨rfl, rfl⟩, htaken, rfl⟩
        rw [hrest] at htaken
        cases htaken

/-- An identifier is read when its indices use up its arcs. -/
theorem isRead_iff :
    IsRead row parentIndices instId ↔
      ∃ values, readIndices row parentIndices instId = .ok (.values values, []) := by
  constructor
  · intro hread
    induction hread with
    | nil => exact ⟨[], rfl⟩
    | cons hread _ ih =>
      obtain ⟨others, hothers⟩ := ih
      exact ⟨_, readIndices_cons_iff.mpr ⟨_, _, others, hread, hothers, rfl⟩⟩
  · rintro ⟨values, hread⟩
    induction row generalizing parentIndices instId values with
    | nil =>
      obtain rfl : instId = [] := (Prod.mk.inj (Except.ok.inj hread)).2
      exact .nil
    | cons index row ih =>
      obtain ⟨value, rest, others, hfirst, hothers, -⟩ := readIndices_cons_iff.mp hread
      exact .cons hfirst (ih others hothers)

/-- A reading gives one value for every index of the row. -/
theorem length_of_readIndices {left : Arcs}
    (hread : readIndices row parentIndices instId = .ok (.values values, left)) :
    values.length = row.length := by
  induction row generalizing parentIndices instId values with
  | nil =>
    obtain rfl := Indices.values.inj (Prod.mk.inj (Except.ok.inj hread)).1
    rfl
  | cons index row ih =>
    obtain ⟨value, rest, others, -, hothers, rfl⟩ := readIndices_cons_iff.mp hread
    rw [List.length_cons, List.length_cons, ih hothers]

/-- The rest of an identifier is a part of it. -/
theorem natural_rest (hnatural : ∀ arc ∈ instId, 0 ≤ arc)
    (hread : index.setFromName parentIndices instId = .ok (value, rest)) :
    ∀ arc ∈ rest, 0 ≤ arc := by
  have hpart : rest = [] ∨ ∃ head, head ++ rest = instId := by
    cases index with
    | base base =>
      by_cases hshort : TakesShort base instId
      · obtain ⟨_, hother, -, -⟩ := setFromName_of_takesShort hnatural hshort
        exact .inl (Prod.mk.inj (Except.ok.inj (hread.symm.trans hother))).2
      · exact .inr ⟨_, (getAsName_of_setFromName hnatural hread hshort).2⟩
    | networkAddress convert =>
      obtain ⟨_, -, -, hspelled⟩ := eq_of_networkFromName hread
      exact .inr ⟨_, hspelled⟩
    | inetAddress address =>
      obtain ⟨_, -, -, hspelled⟩ := eq_of_cloneFromName hnatural hread
      exact .inr ⟨_, hspelled⟩
  rcases hpart with rfl | ⟨head, rfl⟩
  · exact nofun
  · exact fun arc hmem ↦ hnatural arc (List.mem_append_right head hmem)

/-- What is misread is accepted. -/
theorem isRead_of_misread (hnatural : ∀ arc ∈ instId, 0 ≤ arc)
    (hmisread : Misread row parentIndices instId) : IsRead row parentIndices instId := by
  induction hmisread with
  | short hshort =>
    obtain ⟨value, hread, -, -⟩ := setFromName_of_takesShort hnatural hshort
    exact .cons hread .nil
  | refused hread _ hrest => exact .cons hread hrest
  | later hread _ ih =>
    exact .cons hread (ih (natural_rest hnatural hread))

/-- No index is read from nothing. -/
theorem setFromName_nil_ne_ok (index : Index) :
    index.setFromName parentIndices [] ≠ .ok (value, rest) := by
  cases index with
  | base base => exact nofun
  | networkAddress convert => exact nofun
  | inetAddress address => exact nofun

/-- Where the first index is whole and its value accepted, the rest decides. -/
theorem instIdFrom_cons_iff {head : Arcs} (hclone : index.clone value = .ok value)
    (hname : index.getAsName parentIndices value = .ok head) :
    instIdFrom (index :: row) parentIndices (value :: values) = .ok (head ++ rest) ↔
      instIdFrom row (parentIndices ++ [value]) values = .ok rest := by
  simp only [instIdFrom, hclone, hname, bind, Except.bind]
  cases instIdFrom row (parentIndices ++ [value]) values with
  | error exception => simp
  | ok tail => simp

/-- The values that are read have the identifier again exactly where nothing is misread. -/
theorem instIdFrom_eq_ok_iff (hnatural : ∀ arc ∈ instId, 0 ≤ arc)
    (hread : readIndices row parentIndices instId = .ok (.values values, [])) :
    instIdFrom row parentIndices values = .ok instId ↔ ¬ Misread row parentIndices instId := by
  induction row generalizing parentIndices instId values with
  | nil =>
    obtain ⟨hvalues, rfl⟩ := Prod.mk.inj (Except.ok.inj hread)
    obtain rfl := Indices.values.inj hvalues
    exact ⟨fun _ ↦ nofun, fun _ ↦ rfl⟩
  | cons index row ih =>
    obtain ⟨value, rest, others, hfirst, hothers, rfl⟩ := readIndices_cons_iff.mp hread
    have hrest := ih (natural_rest hnatural hfirst) hothers
    by_cases hshort : ∃ base, index = .base base ∧ TakesShort base instId
    · obtain ⟨base, rfl, hshort⟩ := hshort
      obtain ⟨other, hother, haccepts, hname⟩ := setFromName_of_takesShort hnatural hshort
      obtain ⟨rfl, rfl⟩ := Prod.mk.inj (Except.ok.inj (hother.symm.trans hfirst))
      cases row with
      | nil =>
        refine iff_of_false (fun hsame ↦ hname ?_) (not_not_intro (.short hshort))
        have hclone : (Index.base base).clone other = .ok other :=
          IndexRoundTrip.clone_of_accepts haccepts
        simpa [instIdFrom, hclone, Index.getAsName, bind, Except.bind] using hsame
      | cons next row =>
        obtain ⟨_, _, _, hnext, -, -⟩ := readIndices_cons_iff.mp hothers
        exact absurd hnext (setFromName_nil_ne_ok next)
    · by_cases hrefuses : ∃ address octets, index = .inetAddress address ∧
          value = .octetString octets ∧ address.accepts octets = false
      · obtain ⟨address, octets, rfl, rfl, hrefuses⟩ := hrefuses
        refine iff_of_false ?_ (not_not_intro
          (.refused hfirst hrefuses (isRead_iff.mpr ⟨others, hothers⟩)))
        simp [instIdFrom, Index.clone, constrainOctets, hrefuses]
      · obtain ⟨head, hclone, hname, rfl⟩ := exists_getAsName hnatural hfirst
          (fun base hbase htakes ↦ hshort ⟨base, hbase, htakes⟩)
          (fun address octets haddress hvalue ↦ by
            by_contra hnot
            exact hrefuses ⟨address, octets, haddress, hvalue, Bool.eq_false_of_not_eq_true hnot⟩)
        rw [instIdFrom_cons_iff hclone hname, hrest, not_iff_not]
        constructor
        · exact .later hfirst
        · intro hmisread
          cases hmisread with
          | short htakes => exact absurd ⟨_, rfl, htakes⟩ hshort
          | refused hread hrefused _ =>
            obtain ⟨rfl, rfl⟩ := Prod.mk.inj (Except.ok.inj (hread.symm.trans hfirst))
            exact absurd ⟨_, _, rfl, rfl, hrefused⟩ hrefuses
          | later hread htail =>
            obtain ⟨rfl, rfl⟩ := Prod.mk.inj (Except.ok.inj (hread.symm.trans hfirst))
            exact htail

end Rows

/-! ### Rows of the instrumentation read alike -/

section Instrumentation

variable {index : Index} {row : List Index} {parentIndices : List Value}

theorem map_toNat_map_cast (oid : Oid) :
    (oid.map (Nat.cast : ℕ → ℤ)).map Int.toNat = oid := by
  rw [List.map_map]
  exact List.map_id'' Int.toNat_natCast oid

/-- The row machinery converts an index as the decoder does. -/
theorem cloneIndex_eq (indexName : IndexName) (value rest : Oid) :
    RowWrite.cloneIndex indexName value rest =
      naturalRest (reading (indexName.clone value) (rest.map Nat.cast)) := by
  unfold RowWrite.cloneIndex
  cases indexName.clone value with
  | ok converted =>
    exact congrArg (fun rest ↦ Except.ok (converted, rest)) (map_toNat_map_cast rest).symm
  | error error => rfl

/-- The two embeddings of `setFromName` agree. -/
theorem setFromName_indexName (index : Index) (name oid : Oid) (parentIndices : List Value) :
    RowWrite.setFromName (index.indexName name) oid parentIndices =
      naturalRest (index.setFromName parentIndices (oid.map Nat.cast)) := by
  cases index with
  | networkAddress convert =>
    cases oid with
    | nil => rfl
    | cons first others => rfl
  | inetAddress address =>
    cases oid with
    | nil => rfl
    | cons first others => rfl
  | base base =>
    cases oid with
    | nil => rfl
    | cons first others =>
      have hcounted : counted (first : ℤ) ((first : ℤ) :: others.map Nat.cast) =
          ((others.take first).map Nat.cast, (others.drop first).map Nat.cast) := by
        rw [counted_of_nonneg (Int.natCast_nonneg first), Int.toNat_natCast, List.map_take,
          List.map_drop]
      cases hbase : base.syntaxObj.baseType with
      | integer =>
        simp [RowWrite.setFromName, Index.indexName, indexType, hbase, cloneIndex_eq, cloneArcs,
          Index.setFromName, IndexEncoding.setFromName, BaseType.baseTag]
      | ipAddress =>
        simp [RowWrite.setFromName, Index.indexName, indexType, hbase, cloneIndex_eq, cloneArcs,
          Index.setFromName, IndexEncoding.setFromName, BaseType.baseTag, BaseType.isIpAddress,
          List.map_take, List.map_drop]
      | octetString =>
        simp only [RowWrite.setFromName, Index.indexName, indexType, hbase, cloneIndex_eq,
          cloneArcs, Index.setFromName, IndexEncoding.setFromName, BaseType.baseTag,
          BaseType.isIpAddress, List.map_cons, hcounted]
        cases base.impliedFlag with
        | true => simp
        | false => cases base.syntaxObj.fixedLength <;> simp [List.map_take, List.map_drop]
      | bits namedValues =>
        simp only [RowWrite.setFromName, Index.indexName, indexType, hbase, cloneIndex_eq,
          cloneArcs, Index.setFromName, IndexEncoding.setFromName, BaseType.baseTag,
          BaseType.isIpAddress, List.map_cons, hcounted]
        cases base.impliedFlag with
        | true => simp
        | false => cases base.syntaxObj.fixedLength <;> simp [List.map_take, List.map_drop]
      | objectIdentifier =>
        simp only [RowWrite.setFromName, Index.indexName, indexType, hbase, cloneIndex_eq,
          cloneArcs, Index.setFromName, IndexEncoding.setFromName, BaseType.baseTag,
          BaseType.isIpAddress, List.map_cons, hcounted]
        cases base.impliedFlag with
        | true => simp
        | false => simp

/-- What the operations on rows decode to the end is read. -/
theorem isRead_of_indexValues {indexNames : List IndexName} {oid : Oid}
    {values : List (Oid × Value)}
    (hindices : List.Forall₂ (fun indexName index ↦ indexName = index.indexName indexName.name)
      indexNames row)
    (hvalues : RowWrite.indexValues indexNames oid parentIndices = .ok (values, [])) :
    IsRead row parentIndices (oid.map Nat.cast) := by
  induction hindices generalizing oid parentIndices values with
  | nil =>
    obtain rfl : oid = [] := (Prod.mk.inj (Except.ok.inj hvalues)).2
    exact .nil
  | @cons indexName index indexNames row hindex _ ih =>
    have hnatural : ∀ arc ∈ oid.map (Nat.cast : ℕ → ℤ), 0 ≤ arc := by simp
    rw [RowWrite.indexValues, hindex, setFromName_indexName] at hvalues
    cases hread : index.setFromName parentIndices (oid.map Nat.cast) with
    | error exception =>
      rw [hread] at hvalues
      cases hvalues
    | ok read =>
      obtain ⟨value, rest⟩ := read
      have hrest : (rest.map Int.toNat).map Nat.cast = rest := by
        rw [List.map_map]
        exact (List.map_congr_left fun arc hmem ↦
          Int.toNat_of_nonneg (natural_rest hnatural hread arc hmem)).trans (List.map_id rest)
      refine .cons hread (hrest ▸ ?_)
      rw [hread] at hvalues
      simp only [naturalRest, Except.map] at hvalues
      obtain ⟨⟨_, _⟩, hpair, hvalues⟩ := exists_of_bind_eq_ok hvalues
      cases hpair
      obtain ⟨⟨others, last⟩, hothers, hvalues⟩ := exists_of_bind_eq_ok hvalues
      obtain rfl := (Prod.mk.inj (Except.ok.inj hvalues)).2
      exact ih hothers

/-- A row is created under an identifier only after it was decoded to the end. -/
theorem isRead_of_write {tree : MibTree} {definition : MibTableRow} {context : Context} {name : Oid}
    {value : Option Value} {state after : MibState} (hindices : HasIndices definition row)
    (hwants : WantsCreation definition context name value state)
    (hrun : (RowWrite.write tree definition context name value .test).run state =
      (.ok (), after)) :
    IsRead row [] ((name.drop (definition.name.length + 1)).map Nat.cast) := by
  obtain ⟨column, branch, error, raised, hbranch, hcolumn, hkind⟩ := hwants
  obtain ⟨active, _, hdelegate, -⟩ := bind_eq_ok_iff.mp hrun
  rw [RowWrite.delegate, hbranch] at hdelegate
  simp only at hdelegate
  rw [handle_run_of_error (bind_run_of_error hcolumn)] at hdelegate
  simp only [hkind, if_true] at hdelegate
  obtain ⟨_, _, hshare, -⟩ := bind_eq_ok_iff.mp hdelegate
  obtain ⟨_, managed, -, hannounce⟩ := bind_eq_ok_iff.mp hshare
  obtain ⟨⟨indices, instId⟩, _, hvalues, hrest⟩ := bind_eq_ok_iff.mp hannounce
  rw [liftExcept_run] at hvalues
  by_cases hleft : instId ≠ []
  · simp only [if_pos hleft] at hrest
    cases hrest
  · rw [not_not.mp hleft] at hvalues
    exact isRead_of_indexValues hindices (Prod.mk.inj hvalues).1

end Instrumentation

/-! ### Accepting only encodings -/

section Acceptance

variable {row : List Index} {caches : IndexCaches}

/-- The cached reading is the reading of the row's indices. -/
theorem getIndicesFromInstId_run (hcoherent : IndexRoundTrip.Coherent (indicesOf row)
    (instIdOf row) caches) (instId : Arcs) :
    ∃ after, IndexRoundTrip.Coherent (indicesOf row) (instIdOf row) after ∧
      (getIndicesFromInstId row instId).run caches = (indicesOf row instId, after) :=
  IndexRoundTrip.cachedIndices_run hcoherent instId

/-- The cached identifier is the one the row's indices give. -/
theorem getInstIdFromIndices_run (hcoherent : IndexRoundTrip.Coherent (indicesOf row)
    (instIdOf row) caches) (indices : List Value) :
    ∃ after, IndexRoundTrip.Coherent (indicesOf row) (instIdOf row) after ∧
      (getInstIdFromIndices row indices).run caches = (instIdOf row indices, after) :=
  IndexRoundTrip.cachedInstId_run hcoherent indices

/-- The caches are coherent after any calls. -/
theorem coherent_calls (row : List Index) (calls : List Call) :
    IndexRoundTrip.Coherent (indicesOf row) (instIdOf row) (calls.foldl (call row) .empty) := by
  refine List.foldlRecOn calls (call row) IndexRoundTrip.coherent_empty ?_
  intro caches hcoherent made _
  cases made with
  | getIndicesFromInstId instId =>
    obtain ⟨after, hafter, hrun⟩ := getIndicesFromInstId_run hcoherent instId
    simp only [call, hrun]
    exact hafter
  | getInstIdFromIndices indices =>
    obtain ⟨after, hafter, hrun⟩ := getInstIdFromIndices_run hcoherent indices
    simp only [call, hrun]
    exact hafter

/-- Indices are answered when they use up the arcs of the identifier. -/
theorem indicesOf_eq_values_iff {instId : Arcs} {values : List Value} :
    indicesOf row instId = .ok (.values values) ↔
      readIndices row [] instId = .ok (.values values, []) := by
  unfold indicesOf
  cases readIndices row [] instId with
  | error exception => simp
  | ok result =>
    obtain ⟨indices, rest⟩ := result
    by_cases hrest : rest = []
    · simp [hrest]
    · simp [hrest]

/-- Whatever calls were made before, an identifier is accepted only as that of its values exactly
where nothing in it is misread. -/
theorem acceptsOnlyEncodings_iff (row : List Index) (calls : List Call) (instId : Oid) :
    AcceptsOnlyEncodings row (calls.foldl (call row) .empty) instId ↔
      ¬ Misread row [] (instId.map Nat.cast) := by
  have hnatural : ∀ arc ∈ instId.map (Nat.cast : ℕ → ℤ), 0 ≤ arc := by simp
  obtain ⟨after, hafter, hrun⟩ :=
    getIndicesFromInstId_run (coherent_calls row calls) (instId.map Nat.cast)
  constructor
  · intro haccepts hmisread
    obtain ⟨values, hvalues⟩ := isRead_iff.mp (isRead_of_misread hnatural hmisread)
    have hback := haccepts.reads_back values after
      (hrun.trans (by rw [indicesOf_eq_values_iff.mpr hvalues]))
    obtain ⟨_, -, hname⟩ := getInstIdFromIndices_run hafter values
    rw [hname] at hback
    exact (instIdFrom_eq_ok_iff hnatural hvalues).mp hback hmisread
  · intro hwhole
    have hdenoted : ∀ values, readIndices row [] (instId.map Nat.cast) =
        .ok (.values values, []) → instIdOf row values = .ok (instId.map Nat.cast) :=
      fun values hvalues ↦ (instIdFrom_eq_ok_iff hnatural hvalues).mpr hwhole
    refine ⟨?_, ?_, ?_⟩
    · intro values last hvalues
      obtain ⟨hindices, rfl⟩ := Prod.mk.inj (hrun.symm.trans hvalues)
      obtain ⟨_, -, hname⟩ := getInstIdFromIndices_run hafter values
      rw [hname]
      exact hdenoted values (indicesOf_eq_values_iff.mp hindices)
    · intro hnot values hvalues
      rw [hrun] at hvalues
      have hread := indicesOf_eq_values_iff.mp hvalues
      exact hnot ⟨values, length_of_readIndices hread, hdenoted values hread⟩
    · rintro tree definition context name value state last hindices rfl hwants hwrite
      obtain ⟨values, hread⟩ := isRead_iff.mp (isRead_of_write hindices hwants hwrite)
      exact ⟨values, length_of_readIndices hread, hdenoted values hread⟩

end Acceptance

/-! ### A string cut short -/

/-- A row with a string. -/
def stringRow : List Index := [.base ⟨false, IndexRoundTrip.plainSyntax .octetString⟩]

/-- `5.1` is taken for a string of one octet, whose identifier is `1.1`. -/
theorem not_acceptsOnlyEncodings_stringRow :
    ¬ ∀ (row : List Index) (calls : List Call) (instId : Oid),
      AcceptsOnlyEncodings row (calls.foldl (call row) .empty) instId := by
  intro hall
  have hback := (hall stringRow [] [5, 1]).reads_back [.octetString [1]] _ rfl
  have hname : (Except.ok [1, 1] : Except MibException Arcs) ≠ .ok [5, 1] := by simp
  exact hname hback

end Pysnmp.Smi.IndexDecoding
