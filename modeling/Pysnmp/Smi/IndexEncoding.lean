import Pysnmp.LimitedCache
import Pysnmp.Smi.ManagedObjects

/-!
# Instance identifiers of table rows

`getInstIdFromIndices` and `getIndicesFromInstId` of `MibTableRow` in `smi/mibs/SNMPv2-SMI.py`, for
rows whose indices are of the base types, with the two caches between them. `getAsName` spells the
value of an index as sub-identifiers, and `setFromName` reads one at the head of an identifier by
`clone` of the syntax of the index, whose constructor (`prettyIn`) takes the sub-identifiers in its
own way: the octets of a string, the text of an address, the names of bits.

Sub-identifiers are integers here, since an INTEGER index is spelled as it is.
-/

set_option autoImplicit false
set_option relaxedAutoImplicit false

namespace Pysnmp.Smi.IndexEncoding

open Foundation Foundation.Effect LimitedCache Proto

/-- Sub-identifiers. -/
abbrev Arcs := List ℤ

/-! ### Constructors -/

/-- The octets of integers: `bytes`. -/
def bytes (arcs : Arcs) : Except PythonError Octets :=
  if ∀ arc ∈ arcs, 0 ≤ arc ∧ arc ≤ 255 then
    .ok (arcs.map fun arc ↦ UInt8.ofNat arc.toNat)
  else
    .error .valueError

/-- The names and numbers of bits; the keys of the dictionary are both. -/
abbrev NamedValues := List (String × ℕ)

/-- A key of `NamedValues`. -/
inductive BitKey
  | name (name : String)
  | number (number : ℤ)
  deriving DecidableEq, Repr

/-- `NamedValues.__getitem__`: the name of a number, the number of a name. -/
def NamedValues.getItem (namedValues : NamedValues) : BitKey → Option BitKey
  | .number number => (namedValues.find? fun entry ↦ (entry.2 : ℤ) = number).map
      fun entry ↦ .name entry.1
  | .name name => (namedValues.find? fun entry ↦ entry.1 = name).map
      fun entry ↦ .number entry.2

/-- One turn of the loop in `Bits.prettyIn`: set the bit that a key stands for. The division fails
on a name. -/
def setBit (namedValues : NamedValues) (octets : Octets) (bit : BitKey) :
    Except PythonError Octets :=
  match namedValues.getItem bit with
  | none => .error .keyError
  | some (.name _) => .error .typeError
  | some (.number value) =>
    let d := value.toNat / 8
    let extended := octets ++ List.replicate (d + 1 - octets.length) 0
    .ok (extended.modify d fun octet ↦ octet ||| 1 <<< UInt8.ofNat (7 - value.toNat % 8))

/-- `Bits.prettyIn` of a tuple, whose members it takes for bits. -/
def bitsPrettyIn (namedValues : NamedValues) (bits : List BitKey) : Except PythonError Octets :=
  bits.foldlM (setBit namedValues) []

/-- `IpAddress.prettyIn` of sub-identifiers joined by dots. A text of four characters is taken for
the four octets, any other is split into its numbers again. -/
def addressPrettyIn (arcs : Arcs) : Except PythonError Octets :=
  let value := String.intercalate "." (arcs.map toString)
  if value.length = 4 then
    .ok (value.toList.map fun character ↦ UInt8.ofNat character.toNat)
  else
    match bytes arcs with
    | .error error => .error error
    | .ok octets => if octets.length = 4 then .ok octets else .error .pyAsn1Error

/-- `ObjectIdentifier.prettyIn` of a tuple. -/
def oidPrettyIn (arcs : Arcs) : Except PythonError Oid :=
  if ∀ arc ∈ arcs, 0 ≤ arc then .ok (arcs.map Int.toNat) else .error .pyAsn1Error

/-! ### Syntaxes -/

/-- The base types of index objects. -/
inductive BaseType
  | integer
  | ipAddress
  | octetString
  | objectIdentifier
  | bits (namedValues : NamedValues)

/-- The base tags, as far as `setFromName` compares them. -/
inductive BaseTag
  | integer
  | octetString
  | objectIdentifier
  deriving DecidableEq, Repr

/-- `tagSet.baseTag`: addresses and bits are octet strings. -/
def BaseType.baseTag : BaseType → BaseTag
  | integer => .integer
  | ipAddress => .octetString
  | octetString => .octetString
  | objectIdentifier => .objectIdentifier
  | bits _ => .octetString

/-- `IpAddress` is the type, or one it is derived from. -/
def BaseType.isIpAddress : BaseType → Bool
  | ipAddress => true
  | _ => false

/-- `Bits` is the type, or one it is derived from. -/
def BaseType.isBits : BaseType → Bool
  | bits _ => true
  | _ => false

/-- The values of the type, before its constraints; an address has four octets. -/
def BaseType.admits : BaseType → Value → Bool
  | .integer, .integer _ => true
  | .ipAddress, .octetString octets => octets.length = 4
  | .octetString, .octetString _ => true
  | .bits _, .octetString _ => true
  | .objectIdentifier, .objectIdentifier _ => true
  | _, _ => false

/-- The syntax of an index object: its type, the length its strings are pinned to, its constraints,
and what its constructor makes of a value of another type. -/
structure IndexSyntax where
  baseType : BaseType
  fixedLength : Option ℕ
  accepts : Value → Bool
  convert : Value → Except PythonError Value
  admits_of_accepts : ∀ value, accepts value → baseType.admits value
  length_of_accepts : ∀ length octets, fixedLength = some length →
    accepts (.octetString octets) → octets.length = length

/-- An entry of `indexNames`, with the syntax of the object it names. -/
structure RowIndex where
  impliedFlag : Bool
  syntaxObj : IndexSyntax

/-- The constraints of a syntax on a value of its type. -/
def IndexSyntax.constrain (syntaxObj : IndexSyntax) (value : Value) : Except PythonError Value :=
  if syntaxObj.accepts value then .ok value else .error .pyAsn1Error

/-- `clone` with a value. -/
def IndexSyntax.clone (syntaxObj : IndexSyntax) (value : Value) : Except PythonError Value :=
  if syntaxObj.baseType.admits value then syntaxObj.constrain value else syntaxObj.convert value

/-- `clone` with an integer, of an INTEGER. -/
def IndexSyntax.cloneInteger (syntaxObj : IndexSyntax) (arc : ℤ) : Except PythonError Value :=
  syntaxObj.constrain (.integer arc)

/-- `clone` with a dotted text, of an address. -/
def IndexSyntax.cloneDotted (syntaxObj : IndexSyntax) (arcs : Arcs) : Except PythonError Value := do
  let octets ← addressPrettyIn arcs
  syntaxObj.constrain (.octetString octets)

/-- `prettyIn` of a tuple, of a string. -/
def BaseType.prettyInTuple : BaseType → Arcs → Except PythonError Octets
  | .bits namedValues, arcs => bitsPrettyIn namedValues (arcs.map .number)
  | _, arcs => bytes arcs

/-- `clone` with a tuple, of a string. -/
def IndexSyntax.cloneTuple (syntaxObj : IndexSyntax) (arcs : Arcs) : Except PythonError Value := do
  let octets ← syntaxObj.baseType.prettyInTuple arcs
  syntaxObj.constrain (.octetString octets)

/-- `clone` with a tuple, of an object identifier. -/
def IndexSyntax.cloneOid (syntaxObj : IndexSyntax) (arcs : Arcs) : Except PythonError Value := do
  let oid ← oidPrettyIn arcs
  syntaxObj.constrain (.objectIdentifier oid)

/-! ### Values and sub-identifiers -/

/-- What a bound of a slice stands for; a negative one counts from the end. -/
def sliceBound (length : ℕ) (bound : ℤ) : ℕ :=
  if bound < 0 then (length + bound).toNat else bound.toNat

/-- The sub-identifiers counted by the first one, and those after them: `value[1 : value[0] + 1]`
and `value[value[0] + 1 :]`. -/
def counted (first : ℤ) (value : Arcs) : Arcs × Arcs :=
  ((value.take (sliceBound value.length (first + 1))).drop 1,
    value.drop (sliceBound value.length (first + 1)))

/-- The exception of a constructor as the operation raises it. -/
def reading (cloned : Except PythonError Value) (rest : Arcs) :
    Except MibException (Value × Arcs) :=
  match cloned with
  | .ok value => .ok (value, rest)
  | .error error => .error (.python error)

/-- `MibTableRow.setFromName`: the value of an index at the head of an identifier, and the rest. The
base tag of BITS is that of strings, so that they have no branch of their own. -/
def setFromName (obj : IndexSyntax) (value : Arcs) (impliedFlag : Bool) :
    Except MibException (Value × Arcs) :=
  match value with
  | [] => .error (.smi { kind := .smiError })
  | first :: others =>
    if obj.baseType.baseTag = .integer then
      reading (obj.cloneInteger first) others
    else if obj.baseType.isIpAddress then
      reading (obj.cloneDotted (value.take 4)) (value.drop 4)
    else if obj.baseType.baseTag = .octetString then
      if impliedFlag then
        reading (obj.cloneTuple value) []
      else
        match obj.fixedLength with
        | some fixedLength =>
          reading (obj.cloneTuple (value.take fixedLength)) (value.drop fixedLength)
        | none => reading (obj.cloneTuple (counted first value).1) (counted first value).2
    else if impliedFlag then
      reading (obj.cloneOid value) []
    else
      reading (obj.cloneOid (counted first value).1) (counted first value).2

/-- The sub-identifiers of a value: `int`, `asNumbers` or `tuple`. -/
def asNumbers : Value → Arcs
  | .integer value => [value]
  | .octetString octets => octets.map fun octet ↦ (octet.toNat : ℤ)
  | .objectIdentifier oid => oid.map fun arc : ℕ ↦ (arc : ℤ)

/-- `MibTableRow.getAsName`: the value of an index as sub-identifiers. -/
def getAsName (obj : IndexSyntax) (value : Value) (impliedFlag : Bool) : Arcs :=
  if obj.baseType.baseTag = .integer then
    asNumbers value
  else if obj.baseType.isIpAddress then
    asNumbers value
  else if obj.baseType.baseTag = .octetString then
    if impliedFlag || obj.fixedLength.isSome then
      asNumbers value
    else
      ((asNumbers value).length : ℤ) :: asNumbers value
  else if impliedFlag then
    asNumbers value
  else
    ((asNumbers value).length : ℤ) :: asNumbers value

/-! ### Rows -/

/-- The caches of a row. -/
structure IndexCaches where
  idToIdx : Cache Arcs (List Value)
  idxToId : Cache (List Value) Arcs

/-- The caches of a new row. -/
def IndexCaches.empty : IndexCaches where
  idToIdx := Cache.init 256
  idxToId := Cache.init 256

/-- What `getIndicesFromInstId` returns: the values of the indices, or what is left of the
identifier where one of them cannot be read. -/
inductive Indices
  | values (indices : List Value)
  | remainder (instId : Arcs)
  deriving DecidableEq, Repr

/-- The exception is a `PyAsn1Error`; every `SmiError` is. -/
def isPyAsn1Error : MibException → Bool
  | .smi _ => true
  | .python error => error = .pyAsn1Error

/-- The loop over the indices in `getIndicesFromInstId`, up to what is left of the identifier. -/
def readIndices : List RowIndex → Arcs → Except MibException (Indices × Arcs)
  | [], instId => .ok (.values [], instId)
  | index :: indexNames, instId =>
    match setFromName index.syntaxObj instId index.impliedFlag with
    | .error exception =>
      if isPyAsn1Error exception then .ok (.remainder instId, []) else .error exception
    | .ok (syntaxObj, rest) =>
      match readIndices indexNames rest with
      | .error exception => .error exception
      | .ok (.remainder instId, last) => .ok (.remainder instId, last)
      | .ok (.values indices, last) => .ok (.values (syntaxObj :: indices), last)

/-- `getIndicesFromInstId` without its cache. -/
def indicesOf (indexNames : List RowIndex) (instId : Arcs) : Except MibException Indices :=
  match readIndices indexNames instId with
  | .error exception => .error exception
  | .ok (indices, rest) =>
    if rest = [] then .ok indices else .error (.smi { kind := .smiError })

/-- The loop over the indices in `getInstIdFromIndices`; indices that are not given are left out. -/
def instIdOf : List RowIndex → List Value → Except MibException Arcs
  | [], _ => .ok []
  | _, [] => .ok []
  | index :: indexNames, value :: indices =>
    match index.syntaxObj.clone value with
    | .error error => .error (.python error)
    | .ok syntaxObj =>
      match instIdOf indexNames indices with
      | .error exception => .error exception
      | .ok rest => .ok (getAsName index.syntaxObj syntaxObj index.impliedFlag ++ rest)

/-- Programs of a row. -/
abbrev RowOp (α : Type) := Effect IndexCaches MibException α

/-- Programs of the cache from identifiers to indices. -/
def onIdToIdx {α : Type} (program : Effect (Cache Arcs (List Value)) MibException α) : RowOp α :=
  focus IndexCaches.idToIdx (fun idToIdx caches ↦ { caches with idToIdx := idToIdx }) program

/-- Programs of the cache from indices to identifiers. -/
def onIdxToId {α : Type} (program : Effect (Cache (List Value) Arcs) MibException α) : RowOp α :=
  focus IndexCaches.idxToId (fun idxToId caches ↦ { caches with idxToId := idxToId }) program

/-- Keep the values of the indices of an identifier. -/
def keepIndices (instId : Arcs) : Indices → RowOp Unit
  | .values indices => onIdToIdx (Cache.setItem instId indices)
  | .remainder _ => pure ()

/-- What `getIndicesFromInstId` does with its cache, around what it computes. -/
def cachedIndices (compute : Arcs → Except MibException Indices) (instId : Arcs) :
    RowOp Indices := do
  match ← onIdToIdx (Cache.getItem instId) with
  | some indices => pure (.values indices)
  | none => do
    let indices ← liftExcept (compute instId)
    keepIndices instId indices
    pure indices

/-- What `getInstIdFromIndices` does with its cache, around what it computes. -/
def cachedInstId (compute : List Value → Except MibException Arcs) (indices : List Value) :
    RowOp Arcs := do
  match ← onIdxToId (Cache.getItem indices) with
  | some instId => pure instId
  | none => do
    let instId ← liftExcept (compute indices)
    onIdxToId (Cache.setItem indices instId)
    pure instId

/-- `getIndicesFromInstId`. -/
def getIndicesFromInstId (indexNames : List RowIndex) (instId : Arcs) : RowOp Indices :=
  cachedIndices (indicesOf indexNames) instId

/-- `getInstIdFromIndices`. -/
def getInstIdFromIndices (indexNames : List RowIndex) (indices : List Value) : RowOp Arcs :=
  cachedInstId (instIdOf indexNames) indices

end Pysnmp.Smi.IndexEncoding
