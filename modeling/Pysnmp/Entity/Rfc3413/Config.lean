import Pysnmp.Entity.Rfc3413.NotifyFilter
import Pysnmp.Foundation.VersionedMemo
import Pysnmp.Proto.Secmod.Rfc2576
import Pysnmp.Smi.IndexEncoding

/-!
# The configuration of targets and notifications

The lookups of `entity/rfc3413/config.py`: a target address, target parameters and a notification by
name, the targets behind a tag, and the filter profile of some parameters with its filter. Each
keeps what it has found in the user context of the engine, against the branch version of the entry
of one table; a target address is put together from two tables.

A row has an instance in every column of its table. Columns with a default and index columns always
have a value, the instances of the others may have none. The registered transports are a parameter:
each makes of an address the tuple of a socket, or a path, and notes a local address on it.
-/

set_option autoImplicit false
set_option relaxedAutoImplicit false

namespace Pysnmp.Entity.Rfc3413.Config

open Foundation Foundation.Effect Foundation.VersionedCache Foundation.VersionedMemo Proto Smi
open Smi.IndexEncoding
open Proto.Secmod.Rfc2576 (Interpreter TransportAddress decode isWithin snmpLocalDomain
  snmpTCP6Domain snmpTCPDomain snmpUDP6Domain snmpUDPDomain socketAddressIPv4 socketAddressIPv6
  split)
open NotifyFilter (FilterEntry)

/-! ### Tables -/

/-- A row of `snmpTargetAddrTable`. -/
structure TargetAddrRow where
  snmpTargetAddrName : Octets
  snmpTargetAddrTDomain : Option Oid
  snmpTargetAddrTAddress : Option Octets
  snmpTargetAddrTimeout : ℤ
  snmpTargetAddrRetryCount : ℤ
  snmpTargetAddrTagList : Octets
  snmpTargetAddrParams : Option Octets
  deriving DecidableEq, Repr

/-- A row of `snmpTargetParamsTable`. -/
structure TargetParamsRow where
  snmpTargetParamsMPModel : Option ℤ
  snmpTargetParamsSecurityModel : Option ℤ
  snmpTargetParamsSecurityName : Option Octets
  snmpTargetParamsSecurityLevel : Option ℤ
  deriving DecidableEq, Repr

/-- A row of `snmpNotifyTable`. -/
structure NotifyRow where
  snmpNotifyTag : Octets
  snmpNotifyType : ℤ
  deriving DecidableEq, Repr

/-- A row of `snmpNotifyFilterProfileTable`. -/
structure NotifyFilterProfileRow where
  snmpNotifyFilterProfileName : Option Octets
  snmpNotifyFilterProfileRowStatus : Option ℤ
  deriving DecidableEq, Repr

/-- A row of `snmpNotifyFilterTable`. -/
structure NotifyFilterRow where
  snmpNotifyFilterSubtree : Oid
  snmpNotifyFilterMask : Octets
  snmpNotifyFilterType : ℤ
  snmpNotifyFilterRowStatus : Option ℤ
  deriving DecidableEq, Repr

/-- A conceptual table: its rows by instance identifier, and the branch version of its entry. -/
structure EntryTable (Row : Type) where
  rows : SortedMap Oid Row
  branchVersionId : ℕ

/-- The tables. `snmpSourceAddrTable` augments that of the target addresses and has one column; no
lookup asks for the version of its entry. -/
structure ConfigTables where
  snmpTargetAddrTable : EntryTable TargetAddrRow
  snmpSourceAddrTAddress : SortedMap Oid (Option Octets)
  snmpTargetParamsTable : EntryTable TargetParamsRow
  snmpNotifyTable : EntryTable NotifyRow
  snmpNotifyFilterProfileTable : EntryTable NotifyFilterProfileRow
  snmpNotifyFilterTable : EntryTable NotifyFilterRow

/-- How a lookup fails: as the conversion of indices does, on something that is not configured (the
words around its name in the text of the `SmiError`), on a domain without a transport, or on a value
that is missing or refused. -/
inductive ConfigError
  | index (exception : MibException)
  | notConfigured (subject : String) (name : Octets) (place : String)
  | carrierError (transportDomain : Oid)
  | pyAsn1Error
  deriving DecidableEq, Repr

/-! ### Indices -/

/-- `SnmpAdminString (SIZE(1..32))`, the syntax of names. -/
def snmpAdminString : IndexSyntax where
  baseType := .octetString
  fixedLength := none
  accepts
    | .octetString octets => decide (1 ≤ octets.length ∧ octets.length ≤ 32)
    | _ => false
  convert _ := .error .pyAsn1Error
  admits_of_accepts
    | .octetString _, _ => rfl
  length_of_accepts _ _ hfixed := nomatch hfixed

/-- `OBJECT IDENTIFIER`, the syntax of subtrees. -/
def objectIdentifier : IndexSyntax where
  baseType := .objectIdentifier
  fixedLength := none
  accepts := BaseType.objectIdentifier.admits
  convert _ := .error .pyAsn1Error
  admits_of_accepts _ haccepts := haccepts
  length_of_accepts _ _ hfixed := nomatch hfixed

/-- The instance identifier of a name: each of the tables that are looked up by name has one, whose
length is implied. -/
def getInstIdFromIndices (name : Octets) : Except ConfigError Oid :=
  match instIdOf [⟨true, snmpAdminString⟩] [.octetString name] with
  | .error exception => .error (.index exception)
  | .ok instId => .ok (instId.map Int.toNat)

/-- The profile name in an instance identifier of `snmpNotifyFilterTable`. It is the first of two
indices, and a different number of them cannot be unpacked. -/
def getProfileName (instId : Oid) : Except ConfigError Octets :=
  match indicesOf [⟨false, snmpAdminString⟩, ⟨true, objectIdentifier⟩] (instId.map Nat.cast) with
  | .error exception => .error (.index exception)
  | .ok (.values [.octetString profileName, _]) => .ok profileName
  | .ok _ => .error (.index (.python .valueError))

/-! ### Target addresses -/

/-- The address of a target: that of a socket, with the local address to send from, a path, or the
instance as it is. -/
inductive TargetAddress
  | socket (address : TransportAddress) (localAddress : Octets)
  | path (path : String)
  | cell (octets : Option Octets)
  deriving DecidableEq, Repr

/-- What is found for a target. -/
structure TargetAddr where
  transportDomain : Oid
  transportAddress : TargetAddress
  timeout : ℤ
  retryCount : ℤ
  params : Option Octets
  deriving DecidableEq, Repr

/-- The value of an instance. -/
def getValue {α : Type} : Option α → Except ConfigError α
  | none => .error .pyAsn1Error
  | some value => .ok value

/-- The octets of a type of fixed length. -/
def fixedLength (length : ℕ) (address : Option Octets) : Except ConfigError Octets := do
  let octets ← getValue address
  if octets.length = length then pure octets else .error .pyAsn1Error

/-- The address of a socket, from two instances of a type of fixed length. -/
def socketAddress (length : ℕ) (addressType : Octets → TransportAddress)
    (snmpTargetAddrTAddress snmpSourceAddrTAddress : Option Octets) :
    Except ConfigError TargetAddress := do
  let address ← fixedLength length snmpTargetAddrTAddress
  let localAddress ← fixedLength length snmpSourceAddrTAddress
  pure (.socket (addressType address) localAddress)

/-- The address of a target, by its domain. -/
def targetAddress (interpreter : Interpreter) (transportDomain : Oid)
    (snmpTargetAddrTAddress snmpSourceAddrTAddress : Option Octets) :
    Except ConfigError TargetAddress :=
  if isWithin transportDomain snmpUDPDomain then
    socketAddress 6 (socketAddressIPv4 interpreter) snmpTargetAddrTAddress snmpSourceAddrTAddress
  else if isWithin transportDomain snmpUDP6Domain then
    socketAddress 18 (socketAddressIPv6 interpreter) snmpTargetAddrTAddress snmpSourceAddrTAddress
  else if isWithin transportDomain snmpTCPDomain then
    socketAddress 6 (socketAddressIPv4 interpreter) snmpTargetAddrTAddress snmpSourceAddrTAddress
  else if isWithin transportDomain snmpTCP6Domain then
    socketAddress 18 (socketAddressIPv6 interpreter) snmpTargetAddrTAddress snmpSourceAddrTAddress
  else if isWithin transportDomain snmpLocalDomain then
    (getValue snmpTargetAddrTAddress).map fun octets ↦ .path (decode octets)
  else
    .ok (.cell snmpTargetAddrTAddress)

/-- `getTransport`. -/
def getTransport (transports : List Oid) (transportDomain : Oid) : Except ConfigError Unit :=
  if transportDomain ∈ transports then .ok () else .error (.carrierError transportDomain)

variable (interpreter : Interpreter) (transports : List Oid) (tables : ConfigTables)

/-- A target address read from the instances of its row and of the row that augments it. -/
def TargetAddrRow.read (row : TargetAddrRow) (snmpSourceAddrTAddress : Option Octets) :
    Except ConfigError TargetAddr := do
  let transportDomain ← getValue row.snmpTargetAddrTDomain
  getTransport transports transportDomain
  let transportAddress ← targetAddress interpreter transportDomain row.snmpTargetAddrTAddress
    snmpSourceAddrTAddress
  pure
    { transportDomain
      transportAddress
      timeout := row.snmpTargetAddrTimeout
      retryCount := row.snmpTargetAddrRetryCount
      params := row.snmpTargetAddrParams }

/-- Read a target address. -/
def readTargetAddr (snmpTargetAddrName : Octets) : Except ConfigError TargetAddr := do
  let tblIdx ← getInstIdFromIndices snmpTargetAddrName
  match tables.snmpTargetAddrTable.rows.get? tblIdx, tables.snmpSourceAddrTAddress.get? tblIdx with
  | some row, some snmpSourceAddrTAddress =>
    row.read interpreter transports snmpSourceAddrTAddress
  | _, _ => .error (.notConfigured "Target" snmpTargetAddrName "to LCD")

/-! ### Target parameters, notifications and filters -/

/-- Read target parameters. -/
def readTargetParams (paramsName : Octets) : Except ConfigError TargetParamsRow := do
  let tblIdx ← getInstIdFromIndices paramsName
  match tables.snmpTargetParamsTable.rows.get? tblIdx with
  | some row => .ok row
  | none => .error (.notConfigured "Parameters" paramsName "at LCD")

/-- Read a notification. -/
def readNotificationInfo (notificationTarget : Octets) : Except ConfigError NotifyRow := do
  let tblIdx ← getInstIdFromIndices notificationTarget
  match tables.snmpNotifyTable.rows.get? tblIdx with
  | some row => .ok row
  | none => .error (.notConfigured "Target" notificationTarget "at LCD")

/-- Read the filter profile of some parameters: the name, or nothing where there is no active
row. -/
def readNotifyFilterProfile (paramsName : Octets) :
    Except ConfigError (Option (Option Octets)) := do
  let tblIdx ← getInstIdFromIndices paramsName
  match tables.snmpNotifyFilterProfileTable.rows.get? tblIdx with
  | some row => do
    let rowStatus ← getValue row.snmpNotifyFilterProfileRowStatus
    pure (if rowStatus ≠ 1 then none else some row.snmpNotifyFilterProfileName)
  | none => .ok none

/-- `SnmpTagValue` of a word, which has no delimiter in it. -/
def snmpTagValue (word : Octets) : Except ConfigError Octets :=
  if word.length ≤ 255 then .ok word else .error .pyAsn1Error

/-- The tags of the target addresses in turn, each with the name of the target. -/
def ConfigTables.tags : VersionedTable ConfigError (Octets × Octets) where
  version := tables.snmpTargetAddrTable.branchVersionId
  rows := tables.snmpTargetAddrTable.rows.values.flatMap fun row ↦
    (split row.snmpTargetAddrTagList).map fun word ↦
      (snmpTagValue word).map fun tag ↦ (tag, row.snmpTargetAddrName)

/-- The targets of each tag. -/
def tagToTargetsAssembly : Assembly (Octets × Octets) (Multimap Octets Octets) where
  empty := fun _ ↦ none
  add := fun (tag, name) tagToTargetsMap ↦ Multimap.file (some (tag, [name])) tagToTargetsMap
  finish := id

/-- Read a row of the filters, if it is active. -/
def readFilterRow (instId : Oid) (row : NotifyFilterRow) :
    Except ConfigError (Option (Octets × FilterEntry)) := do
  let rowStatus ← getValue row.snmpNotifyFilterRowStatus
  if rowStatus ≠ 1 then
    pure none
  else
    let profileName ← getProfileName instId
    pure (some (profileName,
      ⟨row.snmpNotifyFilterSubtree, row.snmpNotifyFilterMask, row.snmpNotifyFilterType⟩))

/-- The rows of the filters in turn. -/
def ConfigTables.filters : VersionedTable ConfigError (Option (Octets × FilterEntry)) where
  version := tables.snmpNotifyFilterTable.branchVersionId
  rows := tables.snmpNotifyFilterTable.rows.entries.map fun (instId, row) ↦
    readFilterRow instId row

/-- The entries of each profile. -/
def profileToFiltersAssembly :
    Assembly (Option (Octets × FilterEntry)) (Multimap Octets FilterEntry) where
  empty := fun _ ↦ none
  add := fun row profileToFiltersMap ↦
    Multimap.file (row.map fun (profileName, entry) ↦ (profileName, [entry])) profileToFiltersMap
  finish := id

/-! ### Lookups -/

/-- The caches in the user context of the engine, one for each lookup. -/
structure UserContext where
  getTargetAddr : VersionedMemo Octets TargetAddr
  getTargetParams : VersionedMemo Octets TargetParamsRow
  getNotificationInfo : VersionedMemo Octets NotifyRow
  getTargetNames : VersionedCache (Multimap Octets Octets)
  getNotifyFilterProfile : VersionedMemo Octets (Option (Option Octets))
  getNotifyFilter : VersionedCache (Multimap Octets FilterEntry)

/-- The user context before any lookup. -/
def UserContext.initial : UserContext where
  getTargetAddr := .empty
  getTargetParams := .empty
  getNotificationInfo := .empty
  getTargetNames := ⟨-1, tagToTargetsAssembly.empty⟩
  getNotifyFilterProfile := .empty
  getNotifyFilter := ⟨-1, profileToFiltersAssembly.empty⟩

/-- `getTargetAddr`. -/
def getTargetAddr (snmpTargetAddrName : Octets) : Effect UserContext ConfigError TargetAddr :=
  focus UserContext.getTargetAddr (fun cache context ↦ { context with getTargetAddr := cache })
    (remember tables.snmpTargetAddrTable.branchVersionId
      (readTargetAddr interpreter transports tables) snmpTargetAddrName)

/-- `getTargetParams`. -/
def getTargetParams (paramsName : Octets) : Effect UserContext ConfigError TargetParamsRow :=
  focus UserContext.getTargetParams (fun cache context ↦ { context with getTargetParams := cache })
    (remember tables.snmpTargetParamsTable.branchVersionId (readTargetParams tables) paramsName)

/-- `getNotificationInfo`. -/
def getNotificationInfo (notificationTarget : Octets) : Effect UserContext ConfigError NotifyRow :=
  focus UserContext.getNotificationInfo
    (fun cache context ↦ { context with getNotificationInfo := cache })
    (remember tables.snmpNotifyTable.branchVersionId (readNotificationInfo tables)
      notificationTarget)

/-- `getTargetNames`. -/
def getTargetNames (tag : Octets) : Effect UserContext ConfigError (List Octets) := do
  let tagToTargetsMap ← focus UserContext.getTargetNames
    (fun cache context ↦ { context with getTargetNames := cache })
    (refresh tagToTargetsAssembly tables.tags)
  match tagToTargetsMap tag with
  | none => raise (.notConfigured "Transport tag" tag "at LCD")
  | some names => pure names

/-- `getNotifyFilterProfile`. -/
def getNotifyFilterProfile (paramsName : Octets) :
    Effect UserContext ConfigError (Option (Option Octets)) :=
  focus UserContext.getNotifyFilterProfile
    (fun cache context ↦ { context with getNotifyFilterProfile := cache })
    (remember tables.snmpNotifyFilterProfileTable.branchVersionId (readNotifyFilterProfile tables)
      paramsName)

/-- `getNotifyFilter`. -/
def getNotifyFilter (filterProfileName : Octets) :
    Effect UserContext ConfigError (List FilterEntry) := do
  let profileToFiltersMap ← focus UserContext.getNotifyFilter
    (fun cache context ↦ { context with getNotifyFilter := cache })
    (replace profileToFiltersAssembly tables.filters)
  pure (profileToFiltersMap.elements filterProfileName)

end Pysnmp.Entity.Rfc3413.Config
