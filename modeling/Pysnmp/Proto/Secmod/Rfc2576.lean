import Pysnmp.Foundation.LastMatch
import Pysnmp.Foundation.Multimap
import Pysnmp.Foundation.SortedMap
import Pysnmp.Foundation.VersionedCache
import Pysnmp.Proto.Types

/-!
# The community string as a security model

`SnmpV1SecurityModel._sec2com` and `SnmpV1SecurityModel._com2sec` of `secmod/rfc2576.py`. The target
addresses, the target parameters and the communities are read into maps, each cached against the
branch version of one column, and a lookup combines the maps. The two lookups share the map of the
target parameters and its version, and build that map differently.

A row has an instance in every column of its table, and an instance may have no value. What the code
takes from the interpreter (the text of an address, the order in which it goes through a set) is a
parameter.
-/

set_option autoImplicit false
set_option relaxedAutoImplicit false

namespace Pysnmp.Proto.Secmod.Rfc2576

open Foundation Foundation.Effect Foundation.VersionedCache

/-! ### Rows of the tables -/

/-- A row of `snmpTargetAddrTable`. -/
structure TargetAddrRow where
  snmpTargetAddrTDomain : Option Oid
  snmpTargetAddrTAddress : Option Octets
  snmpTargetAddrTagList : Option Octets
  deriving DecidableEq, Repr

/-- A row of `snmpTargetParamsTable`. -/
structure TargetParamsRow where
  snmpTargetParamsSecurityName : Option Octets
  snmpTargetParamsSecurityModel : Option ℤ
  deriving DecidableEq, Repr

/-- A row of `snmpCommunityTable`. -/
structure CommunityRow where
  snmpCommunityName : Option Octets
  snmpCommunitySecurityName : Option Octets
  snmpCommunityContextEngineID : Option Octets
  snmpCommunityContextName : Option Octets
  snmpCommunityTransportTag : Option Octets
  deriving DecidableEq, Repr

/-- The columns of `snmpTargetAddrTable` that are read. -/
inductive TargetAddrColumn
  | snmpTargetAddrTDomain
  | snmpTargetAddrTAddress
  | snmpTargetAddrTagList
  deriving DecidableEq, Repr

/-- The columns of `snmpTargetParamsTable` that are read. -/
inductive TargetParamsColumn
  | snmpTargetParamsSecurityName
  | snmpTargetParamsSecurityModel
  deriving DecidableEq, Repr

/-- The columns of `snmpCommunityTable` that are read. -/
inductive CommunityColumn
  | snmpCommunityName
  | snmpCommunitySecurityName
  | snmpCommunityContextEngineID
  | snmpCommunityContextName
  | snmpCommunityTransportTag
  deriving DecidableEq, Repr

/-- A conceptual table: its rows by index, and the branch version of each column. -/
structure ConceptualTable (Column Row : Type) where
  rows : SortedMap Oid Row
  branchVersionId : Column → ℕ

/-- The three tables. -/
structure CommunityTables where
  snmpTargetAddrTable : ConceptualTable TargetAddrColumn TargetAddrRow
  snmpTargetParamsTable : ConceptualTable TargetParamsColumn TargetParamsRow
  snmpCommunityTable : ConceptualTable CommunityColumn CommunityRow

/-- How a lookup fails: on an instance without a value, with `StatusInformation` that says
`unknownCommunityName`, or on a key that is missing. -/
inductive CommunityError
  | pyAsn1Error
  | unknownCommunityName
  | keyError
  deriving DecidableEq, Repr

/-- A table under the version of one column, its rows as the loop over it reads them. -/
def ConceptualTable.watch {Column Row Reading : Type} (table : ConceptualTable Column Row)
    (column : Column) (readRow : Row → Except CommunityError Reading) :
    VersionedTable CommunityError Reading where
  version := table.branchVersionId column
  rows := table.rows.values.map readRow

/-! ### Transport addresses -/

/-- The families of addresses that are written as text. -/
inductive AddressFamily
  | inet
  | inet6
  deriving DecidableEq, Repr

/-- A transport address as a transport gives it: the tuple of a socket, a path, or octets. -/
inductive TransportAddress
  | inet (host : String) (port : ℕ)
  | inet6 (host : String) (port flowInfo scopeId : ℕ)
  | path (path : String)
  | octets (octets : Octets)
  deriving DecidableEq, Repr

/-- Where a message comes from: the transport domain and the address. -/
abbrev TransportInformation := Oid × TransportAddress

/-- What a lookup finds: a security name and a context. -/
structure SecurityEntry where
  securityName : Octets
  contextEngineId : Octets
  contextName : Octets
  deriving DecidableEq, Repr

/-- What the code leaves to the interpreter: `inet_ntop`, and the order in which sets are gone
through. -/
structure Interpreter where
  inetNtop : AddressFamily → Octets → String
  intersection : List Octets → List Octets → List Octets
  mem_intersection : ∀ {tag first second},
    tag ∈ intersection first second ↔ tag ∈ first ∧ tag ∈ second
  elements : List SecurityEntry → List SecurityEntry
  mem_elements : ∀ {entry entries}, entry ∈ elements entries ↔ entry ∈ entries

attribute [simp] Interpreter.mem_intersection Interpreter.mem_elements

/-- An interpreter that goes through sets in the order in which they were filled, and writes every
address in decimal. -/
def Interpreter.inOrder : Interpreter where
  inetNtop := fun _ octets ↦ ".".intercalate (octets.map fun octet ↦ toString octet.toNat)
  intersection := fun first second ↦ first.filter fun tag ↦ tag ∈ second
  mem_intersection := by simp
  elements := id
  mem_elements := Iff.rfl

def snmpUDPDomain : Oid := [1, 3, 6, 1, 6, 1, 1]

def snmpUDP6Domain : Oid := [1, 3, 6, 1, 2, 1, 100, 1, 2]

def snmpTCPDomain : Oid := [1, 3, 6, 1, 2, 1, 100, 1, 5]

def snmpTCP6Domain : Oid := [1, 3, 6, 1, 2, 1, 100, 1, 6]

def snmpLocalDomain : Oid := [1, 3, 6, 1, 2, 1, 100, 1, 13]

/-- Whether a domain starts with another. -/
def isWithin (domain base : Oid) : Bool :=
  domain.take base.length == base

/-- The value of an instance. -/
def getValue {α : Type} : Option α → Except CommunityError α
  | none => .error .pyAsn1Error
  | some value => .ok value

/-- The octets of a type of fixed length. -/
def fixedLength (length : ℕ) (address : Option Octets) : Except CommunityError Octets := do
  let octets ← getValue address
  if octets.length = length then pure octets else .error .pyAsn1Error

/-- The port, in the two octets from a position on. -/
def port (octets : Octets) (position : ℕ) : ℕ :=
  (octets.getD position 0).toNat <<< 8 ||| (octets.getD (position + 1) 0).toNat

/-- `SnmpUDPAddress` and `TransportAddressIPv4` as a tuple. -/
def socketAddressIPv4 (interpreter : Interpreter) (octets : Octets) : TransportAddress :=
  .inet (interpreter.inetNtop .inet (octets.take 4)) (port octets 4)

/-- `TransportAddressIPv6` as a tuple. -/
def socketAddressIPv6 (interpreter : Interpreter) (octets : Octets) : TransportAddress :=
  .inet6 (interpreter.inetNtop .inet6 (octets.take 16)) (port octets 16) 0 0

/-- Octets decoded as Latin-1. -/
def decode (octets : Octets) : String :=
  String.ofList (octets.map fun octet ↦ Char.ofNat octet.toNat)

/-- The address of a target, by its domain. -/
def transportAddress (interpreter : Interpreter) (targetAddrTDomain : Oid)
    (targetAddrTAddress : Option Octets) : Except CommunityError TransportAddress :=
  if isWithin targetAddrTDomain snmpUDPDomain then
    (fixedLength 6 targetAddrTAddress).map (socketAddressIPv4 interpreter)
  else if isWithin targetAddrTDomain snmpUDP6Domain then
    (fixedLength 18 targetAddrTAddress).map (socketAddressIPv6 interpreter)
  else if isWithin targetAddrTDomain snmpTCPDomain then
    (fixedLength 6 targetAddrTAddress).map (socketAddressIPv4 interpreter)
  else if isWithin targetAddrTDomain snmpTCP6Domain then
    (fixedLength 18 targetAddrTAddress).map (socketAddressIPv6 interpreter)
  else if isWithin targetAddrTDomain snmpLocalDomain then
    (getValue targetAddrTAddress).map fun octets ↦ .path (decode octets)
  else
    (getValue targetAddrTAddress).map .octets

/-! ### The maps -/

/-- A target address as the loop over its table reads it. -/
structure TargetAddr where
  targetAddr : TransportInformation
  targetAddrTagList : Option Octets
  deriving DecidableEq, Repr

/-- Read a row of `snmpTargetAddrTable`. -/
def readTargetAddr (interpreter : Interpreter) (row : TargetAddrRow) :
    Except CommunityError TargetAddr := do
  let targetAddrTDomain ← getValue row.snmpTargetAddrTDomain
  let targetAddrTAddress ←
    transportAddress interpreter targetAddrTDomain row.snmpTargetAddrTAddress
  pure ⟨(targetAddrTDomain, targetAddrTAddress), row.snmpTargetAddrTagList⟩

/-- The octets `bytes.split` takes for white space. -/
def isSpace (octet : UInt8) : Bool :=
  octet == 32 || (9 ≤ octet && octet ≤ 13)

/-- `bytes.split`: the words between white space. -/
def split (octets : Octets) : List Octets :=
  (octets.splitOnP isSpace).filter fun word ↦ !word.isEmpty

/-- The tags a target address has: the words of its list, or the empty tag if the list is empty. A
list without a value has none. -/
def tagsOf : Option Octets → List Octets
  | none => []
  | some [] => [[]]
  | some targetAddrTagList => split targetAddrTagList

/-- The tags of each address. -/
abbrev TransportToTagMap := Multimap TransportInformation Octets

/-- The security models of each security name. A name that is not there has none. -/
abbrev NameToModelMap := Octets → Finset ℤ

/-- The tags of each community, and the security entries of each tag and community. -/
structure CommunityMaps where
  communityToTagMap : Multimap Octets Octets
  tagAndCommunityToSecurityMap : Multimap (Octets × Octets) SecurityEntry

/-- The community of each security entry; it may have no value. -/
abbrev SecurityMap := SecurityEntry → Option (Option Octets)

def TargetAddr.filing (row : TargetAddr) : Option (TransportInformation × List Octets) :=
  some (row.targetAddr, tagsOf row.targetAddrTagList)

/-- The security entry of a row, all three of whose values it takes to put it into a set. -/
def CommunityRow.securityEntry (row : CommunityRow) : Option SecurityEntry := do
  let securityName ← row.snmpCommunitySecurityName
  let contextEngineId ← row.snmpCommunityContextEngineID
  let contextName ← row.snmpCommunityContextName
  pure ⟨securityName, contextEngineId, contextName⟩

/-- The key of a row, which is put in place before the security entry is. -/
def CommunityRow.tagAndCommunityFiling (row : CommunityRow) :
    Option ((Octets × Octets) × List SecurityEntry) := do
  let transportTag ← row.snmpCommunityTransportTag
  let communityName ← row.snmpCommunityName
  pure ((transportTag, communityName), row.securityEntry.toList)

/-- The tag of a row, which is filed after the security entry is. -/
def CommunityRow.communityFiling (row : CommunityRow) : Option (Octets × List Octets) := do
  let transportTag ← row.snmpCommunityTransportTag
  let communityName ← row.snmpCommunityName
  let _ ← row.securityEntry
  pure (communityName, [transportTag])

/-- The transport-to-tag map. -/
def transportToTagAssembly : Assembly TargetAddr TransportToTagMap where
  empty := fun _ ↦ none
  add := fun row transportToTagMap ↦ Multimap.file row.filing transportToTagMap
  finish := id

/-- The name-to-model map as `_com2sec` builds it. -/
def nameToModelAssembly : Assembly TargetParamsRow NameToModelMap where
  empty := fun _ ↦ ∅
  add := fun row nameToModelMap ↦
    match row.snmpTargetParamsSecurityName, row.snmpTargetParamsSecurityModel with
    | some securityName, some securityModel =>
      Function.update nameToModelMap securityName
        (insert securityModel (nameToModelMap securityName))
    | _, _ => nameToModelMap
  finish := id

/-- The name-to-model map as `_sec2com` builds it: it looks for the security model among the
security names, never finds it there, and starts the set of the name anew. -/
def nameToModelAssemblyOfSec2com : Assembly TargetParamsRow NameToModelMap where
  empty := fun _ ↦ ∅
  add := fun row nameToModelMap ↦
    match row.snmpTargetParamsSecurityName, row.snmpTargetParamsSecurityModel with
    | some securityName, some securityModel =>
      Function.update nameToModelMap securityName {securityModel}
    | _, _ => nameToModelMap
  finish := id

/-- The two maps of the communities. -/
def communityAssembly : Assembly CommunityRow CommunityMaps where
  empty := ⟨fun _ ↦ none, fun _ ↦ none⟩
  add := fun row maps ↦
    { communityToTagMap := Multimap.file row.communityFiling maps.communityToTagMap
      tagAndCommunityToSecurityMap :=
        Multimap.file row.tagAndCommunityFiling maps.tagAndCommunityToSecurityMap }
  finish := id

/-- The security map. -/
def securityAssembly : Assembly CommunityRow SecurityMap where
  empty := fun _ ↦ none
  add := fun row securityMap ↦
    match row.securityEntry with
    | none => securityMap
    | some entry => Function.update securityMap entry (some row.snmpCommunityName)
  finish := id

/-! ### The model object -/

/-- The model object with its cached maps. -/
structure SnmpV1SecurityModel where
  transportToTagMap : VersionedCache TransportToTagMap
  nameToModelMap : VersionedCache NameToModelMap
  communityMaps : VersionedCache CommunityMaps
  securityMap : VersionedCache SecurityMap

/-- A new model object. -/
def SnmpV1SecurityModel.initial : SnmpV1SecurityModel where
  transportToTagMap := ⟨-1, transportToTagAssembly.empty⟩
  nameToModelMap := ⟨-1, nameToModelAssembly.empty⟩
  communityMaps := ⟨-1, communityAssembly.empty⟩
  securityMap := ⟨-1, securityAssembly.empty⟩

/-- Give up the version of the community maps. -/
def SnmpV1SecurityModel.invalidateCommunityMaps (model : SnmpV1SecurityModel) :
    SnmpV1SecurityModel :=
  { model with communityMaps := { model.communityMaps with version := -1 } }

/-- Give up the version of the security map. -/
def SnmpV1SecurityModel.invalidateSecurityMap (model : SnmpV1SecurityModel) :
    SnmpV1SecurityModel :=
  { model with securityMap := { model.securityMap with version := -1 } }

/-- The target addresses, under the version of `snmpTargetAddrTAddress`. -/
def CommunityTables.targetAddrs (tables : CommunityTables) (interpreter : Interpreter) :
    VersionedTable CommunityError TargetAddr :=
  tables.snmpTargetAddrTable.watch .snmpTargetAddrTAddress (readTargetAddr interpreter)

/-- The target parameters, under the version of `snmpTargetParamsSecurityName`. -/
def CommunityTables.targetParams (tables : CommunityTables) :
    VersionedTable CommunityError TargetParamsRow :=
  tables.snmpTargetParamsTable.watch .snmpTargetParamsSecurityName .ok

/-- The communities, under the version of `snmpCommunityName`. -/
def CommunityTables.communities (tables : CommunityTables) :
    VersionedTable CommunityError CommunityRow :=
  tables.snmpCommunityTable.watch .snmpCommunityName .ok

variable (interpreter : Interpreter) (tables : CommunityTables)

/-- The transport-to-tag map, rebuilt if `snmpTargetAddrTAddress` has changed. -/
def rebuildTransportToTagMap : Effect SnmpV1SecurityModel CommunityError TransportToTagMap :=
  focus SnmpV1SecurityModel.transportToTagMap
    (fun cache model ↦ { model with transportToTagMap := cache })
    (refresh transportToTagAssembly (tables.targetAddrs interpreter))

/-- The name-to-model map, rebuilt if `snmpTargetParamsSecurityName` has changed; the map that is
used next is then given up. -/
def rebuildNameToModelMap (assembly : Assembly TargetParamsRow NameToModelMap)
    (invalidate : SnmpV1SecurityModel → SnmpV1SecurityModel) :
    Effect SnmpV1SecurityModel CommunityError NameToModelMap := do
  let version ← gets fun model ↦ model.nameToModelMap.version
  let nameToModelMap ← focus SnmpV1SecurityModel.nameToModelMap
    (fun cache model ↦ { model with nameToModelMap := cache })
    (refresh assembly tables.targetParams)
  runIf (version ≠ tables.targetParams.version) (modify invalidate)
  pure nameToModelMap

/-- The community maps, rebuilt if `snmpCommunityName` has changed. -/
def rebuildCommunityMaps : Effect SnmpV1SecurityModel CommunityError CommunityMaps :=
  focus SnmpV1SecurityModel.communityMaps
    (fun cache model ↦ { model with communityMaps := cache })
    (refresh communityAssembly tables.communities)

/-- The security map, rebuilt if `snmpCommunityName` has changed. -/
def rebuildSecurityMap : Effect SnmpV1SecurityModel CommunityError SecurityMap :=
  focus SnmpV1SecurityModel.securityMap
    (fun cache model ↦ { model with securityMap := cache })
    (refresh securityAssembly tables.communities)

/-- `SnmpV1SecurityModel._sec2com`: the community of a security name and a context. -/
def sec2com (entry : SecurityEntry) :
    Effect SnmpV1SecurityModel CommunityError (Option Octets) := do
  let _ ← rebuildNameToModelMap tables nameToModelAssemblyOfSec2com
    SnmpV1SecurityModel.invalidateSecurityMap
  let securityMap ← rebuildSecurityMap tables
  match securityMap entry with
  | none => raise .unknownCommunityName
  | some communityName => pure communityName

/-- The tags under which a community is looked up for a source: those the source and the community
share, or for a source that is not listed the empty tag, if the community has it. -/
def tagsFor (transportToTagMap : TransportToTagMap) (communityTags : List Octets)
    (transportInformation : TransportInformation) : Except CommunityError (List Octets) :=
  match transportToTagMap transportInformation with
  | some transportTags => .ok (interpreter.intersection transportTags communityTags)
  | none => if [] ∈ communityTags then .ok [[]] else .error .unknownCommunityName

/-- The candidates of a community under some tags. -/
def candidateSecurityNames (tagAndCommunityToSecurityMap : Multimap (Octets × Octets) SecurityEntry)
    (communityName : Octets) : List Octets → Except CommunityError (List SecurityEntry)
  | [] => .ok []
  | tag :: tags => do
    match tagAndCommunityToSecurityMap (tag, communityName) with
    | none => .error .keyError
    | some entries => do
      let rest ← candidateSecurityNames tagAndCommunityToSecurityMap communityName tags
      pure (interpreter.elements entries ++ rest)

/-- What candidates are sorted by: those the target parameters name for this security model come
first, and then the security name decides. -/
def candidateKey (securityModelID : ℤ) (nameToModelMap : NameToModelMap) (entry : SecurityEntry) :
    Bool ×ₗ List ℕ :=
  toLex (!decide (securityModelID ∈ nameToModelMap entry.securityName),
    entry.securityName.map UInt8.toNat)

/-- 5.2.1: the first candidate. -/
def chosenSecurityName (securityModelID : ℤ) (nameToModelMap : NameToModelMap)
    (candidates : List SecurityEntry) : Except CommunityError SecurityEntry :=
  match LastMatch.sortByKey (candidateKey securityModelID nameToModelMap) candidates with
  | [] => .error .unknownCommunityName
  | chosen :: _ => .ok chosen

/-- The lookup of a community in the maps. -/
def lookUp (securityModelID : ℤ) (transportToTagMap : TransportToTagMap)
    (nameToModelMap : NameToModelMap) (maps : CommunityMaps) (communityName : Octets)
    (transportInformation : TransportInformation) : Except CommunityError SecurityEntry :=
  match maps.communityToTagMap communityName with
  | none => .error .unknownCommunityName
  | some communityTags => do
    let tags ← tagsFor interpreter transportToTagMap communityTags transportInformation
    let candidates ← candidateSecurityNames interpreter maps.tagAndCommunityToSecurityMap
      communityName tags
    chosenSecurityName securityModelID nameToModelMap candidates

/-- `SnmpV1SecurityModel._com2sec`: the security name and the context of a community, for a message
from a source. `securityModelID` is that of the model object. -/
def com2sec (securityModelID : ℤ) (communityName : Octets)
    (transportInformation : TransportInformation) :
    Effect SnmpV1SecurityModel CommunityError SecurityEntry := do
  let transportToTagMap ← rebuildTransportToTagMap interpreter tables
  let nameToModelMap ← rebuildNameToModelMap tables nameToModelAssembly
    SnmpV1SecurityModel.invalidateCommunityMaps
  let maps ← rebuildCommunityMaps tables
  liftExcept (lookUp interpreter securityModelID transportToTagMap nameToModelMap maps
    communityName transportInformation)

end Pysnmp.Proto.Secmod.Rfc2576
