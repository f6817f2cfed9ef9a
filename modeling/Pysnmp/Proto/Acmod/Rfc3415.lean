import Mathlib.Data.List.AList
import Mathlib.Data.List.MinMax
import Pysnmp.Foundation.LastMatch
import Pysnmp.Foundation.VersionedCache
import Pysnmp.Proto.Types

/-!
# View-based access control

`Vacm.isAccessAllowed` of `acmod/rfc3415.py`. The four tables are read into four maps, each cached
against the branch version of one column, and the maps answer in turn: the context, the group of
the security name, the view of the group, the families of the view.

A table is given as iteration over its column finds it: each row, or the exception that reading the
row raises. The nested dictionaries of the access map are one dictionary under the tuple of their
keys, in which a group has no views exactly when no key names it.

The two callers are at the end. Both take a normal return as permission, whatever the value
returned.
-/

set_option autoImplicit false
set_option relaxedAutoImplicit false

namespace Pysnmp.Proto.Acmod.Rfc3415

open Foundation Foundation.Effect Foundation.VersionedCache

/-! ### Rows of the tables

A cell that has not been given a value yet is `none`. -/

/-- The three kinds of access a row of `vacmAccessTable` names views for. -/
inductive ViewType
  | read
  | write
  | notify
  deriving DecidableEq, Repr

/-- `vacmAccessContextMatch`. -/
inductive ContextMatch
  | exactMatch
  | prefixMatch
  deriving DecidableEq, Repr

/-- A row of `vacmSecurityToGroupTable`. -/
structure SecurityToGroupRow where
  vacmSecurityModel : ℕ
  vacmSecurityName : Octets
  vacmGroupName : Option Octets
  deriving DecidableEq, Repr

/-- A row of `vacmAccessTable`. -/
structure AccessRow where
  vacmGroupName : Octets
  vacmAccessContextPrefix : Octets
  vacmAccessSecurityModel : ℕ
  vacmAccessSecurityLevel : ℕ
  vacmAccessContextMatch : ContextMatch
  vacmAccessReadViewName : Option Octets
  vacmAccessWriteViewName : Option Octets
  vacmAccessNotifyViewName : Option Octets
  deriving DecidableEq, Repr

/-- The view a row names for a kind of access. -/
def AccessRow.viewName (row : AccessRow) : ViewType → Option Octets
  | .read => row.vacmAccessReadViewName
  | .write => row.vacmAccessWriteViewName
  | .notify => row.vacmAccessNotifyViewName

/-- A row of `vacmViewTreeFamilyTable`; its type is `included` or excluded. -/
structure ViewTreeFamily where
  vacmViewTreeFamilyViewName : Octets
  vacmViewTreeFamilySubtree : Oid
  vacmViewTreeFamilyMask : Octets
  included : Bool
  deriving DecidableEq, Repr

/-- How an access check fails. -/
inductive VacmError
  | statusInformation (errorIndication : ErrorIndication)
  | indexError
  | noSuchInstance
  | pyAsn1Error
  deriving DecidableEq, Repr

/-! ### The maps -/

/-- The path to a view name in the nested dictionaries of the access map. -/
structure AccessKey where
  groupName : Octets
  viewType : ViewType
  prefixMatch : ContextMatch
  contextPrefix : Octets
  securityModel : ℕ
  securityLevel : ℕ
  deriving DecidableEq, Repr

/-- The access map. -/
abbrev AccessMap := AList fun _ : AccessKey ↦ Option Octets

/-- A family in the view tree map: its subtree with the ignored positions zeroed, those positions,
and its type. -/
structure ViewTreeEntry where
  subtree : Oid
  ignoredSubOids : List ℕ
  included : Bool
  deriving DecidableEq, Repr

/-- The context map. -/
def contextAssembly : Assembly Octets (Octets → Bool) where
  empty := fun _ ↦ false
  add := fun contextName contextMap ↦ Function.update contextMap contextName true
  finish := id

/-- The group name map. -/
def groupNameAssembly : Assembly SecurityToGroupRow (ℕ × Octets → Option (Option Octets)) where
  empty := fun _ ↦ none
  add := fun row groupNameMap ↦
    Function.update groupNameMap (row.vacmSecurityModel, row.vacmSecurityName)
      (some row.vacmGroupName)
  finish := id

/-- Where a row's view for a kind of access is kept. -/
def AccessRow.key (row : AccessRow) (viewType : ViewType) : AccessKey where
  groupName := row.vacmGroupName
  viewType := viewType
  prefixMatch := row.vacmAccessContextMatch
  contextPrefix := row.vacmAccessContextPrefix
  securityModel := row.vacmAccessSecurityModel
  securityLevel := row.vacmAccessSecurityLevel

/-- Remember one row of `vacmAccessTable`. -/
def addAccessEntry (row : AccessRow) (accessMap : AccessMap) : AccessMap :=
  if row.vacmGroupName = [] then
    accessMap
  else
    [ViewType.read, .write, .notify].foldl
      (fun accessMap viewType ↦ accessMap.insert (row.key viewType) (row.viewName viewType))
      accessMap

/-- The access map; `none` stands for a row that is not active. -/
def accessAssembly : Assembly (Option AccessRow) AccessMap where
  empty := ∅
  add := fun row accessMap ↦ row.elim accessMap fun row ↦ addAccessEntry row accessMap
  finish := id

/-- The bits of a mask octet, the first position first. -/
def powerOfTwo : List UInt8 := [128, 64, 32, 16, 8, 4, 2, 1]

/-- The positions of the subtree at which the mask has a zero. -/
def ignoredSubOids (mask : Octets) (subtree : Oid) : List ℕ :=
  let maskLength := min (mask.length * 8) subtree.length
  mask.zipIdx.flatMap fun (octet, i) ↦
    powerOfTwo.zipIdx.filterMap fun (bit, j) ↦
      if bit &&& octet = 0 ∧ i * 8 + j < maskLength then some (i * 8 + j) else none

/-- The entry of a family in the view tree map. -/
def ViewTreeFamily.entry (family : ViewTreeFamily) : ViewTreeEntry :=
  let ignored := ignoredSubOids family.vacmViewTreeFamilyMask family.vacmViewTreeFamilySubtree
  { subtree := ignored.foldl (fun pattern ignoredSubOid ↦ pattern.set ignoredSubOid 0)
      family.vacmViewTreeFamilySubtree
    ignoredSubOids := ignored
    included := family.included }

/-- The view tree map: the families of each view, sorted by the length of the subtree and then by
the subtree. -/
def viewTreeAssembly : Assembly ViewTreeFamily (Octets → Option (List ViewTreeEntry)) where
  empty := fun _ ↦ none
  add := fun family viewTreeMap ↦
    let viewName := family.vacmViewTreeFamilyViewName
    Function.update viewTreeMap viewName
      (some ((viewTreeMap viewName).getD [] ++ [family.entry]))
  finish := fun viewTreeMap viewName ↦
    (viewTreeMap viewName).map
      (LastMatch.sortByKey fun entry : ViewTreeEntry ↦ toLex (entry.subtree.length, entry.subtree))

/-! ### The access check -/

/-- The tables as one check reads them, each under the branch version of the column it watches:
`vacmContextName`, `vacmGroupName`, `vacmAccessStatus` and `vacmViewTreeFamilyViewName`. -/
structure VacmSource where
  contexts : VersionedTable VacmError Octets
  securityToGroup : VersionedTable VacmError SecurityToGroupRow
  access : VersionedTable VacmError (Option AccessRow)
  viewTreeFamilies : VersionedTable VacmError ViewTreeFamily

/-- The model object with its four cached maps. -/
structure Vacm where
  contextMap : VersionedCache (Octets → Bool)
  groupNameMap : VersionedCache (ℕ × Octets → Option (Option Octets))
  accessMap : VersionedCache AccessMap
  viewTreeMap : VersionedCache (Octets → Option (List ViewTreeEntry))

/-- A new model object. -/
def Vacm.initial : Vacm where
  contextMap := ⟨-1, contextAssembly.empty⟩
  groupNameMap := ⟨-1, groupNameAssembly.empty⟩
  accessMap := ⟨-1, accessAssembly.empty⟩
  viewTreeMap := ⟨-1, viewTreeAssembly.empty⟩

/-- Who asks, for which kind of access, in which context and about which object. -/
structure AccessRequest where
  securityModel : ℕ
  securityName : Octets
  securityLevel : ℕ
  viewType : ViewType
  contextName : Octets
  variableName : Oid
  deriving DecidableEq, Repr

/-- What access rows are compared by: the model is the requested one, the context is the requested
one, the length of the context prefix, the level. -/
def preference (request : AccessRequest) (contextPrefix : Octets)
    (securityModel securityLevel : ℕ) : Bool ×ₗ Bool ×ₗ ℕ ×ₗ ℕ :=
  toLex (request.securityModel == securityModel,
    toLex (request.contextName == contextPrefix, toLex (contextPrefix.length, securityLevel)))

/-- The tuple of a candidate, the view name last. The comparison never comes to a name, since rows
that fit a request differ before. -/
def candidateRank (request : AccessRequest) (candidate : AccessKey × Option Octets) :
    (Bool ×ₗ Bool ×ₗ ℕ ×ₗ ℕ) ×ₗ List ℕ :=
  toLex (preference request candidate.1.contextPrefix candidate.1.securityModel
    candidate.1.securityLevel, (candidate.2.getD []).map UInt8.toNat)

/-- Whether the loops over the access map of a group reach this entry. -/
def isCandidate (groupName : Octets) (request : AccessRequest) (key : AccessKey) : Bool :=
  key.groupName == groupName && key.viewType == request.viewType &&
    (match key.prefixMatch with
      | .exactMatch => request.contextName == key.contextPrefix
      | .prefixMatch =>
        request.contextName.take key.contextPrefix.length == key.contextPrefix) &&
    (key.securityModel == request.securityModel || key.securityModel == 0) &&
    decide (key.securityLevel ≤ request.securityLevel)

/-- The entries the loops over the access map of a group compare. -/
def candidates (accessMap : AccessMap) (groupName : Octets) (request : AccessRequest) :
    List (AccessKey × Option Octets) :=
  (accessMap.entries.filter fun entry ↦ isCandidate groupName request entry.1).map
    fun entry ↦ (entry.1, entry.2)

/-- The view that applies to a group. -/
def getFamilyViewName (accessMap : AccessMap) (groupName : Octets) (request : AccessRequest) :
    Except VacmError (Option Octets) :=
  if accessMap.entries.all fun entry ↦ entry.1.groupName != groupName then
    .error (.statusInformation .noGroupName)
  else if accessMap.entries.all fun entry ↦
      entry.1.groupName != groupName || entry.1.viewType != request.viewType then
    .error (.statusInformation .noAccessEntry)
  else
    -- the exact match shortcut
    match accessMap.lookup ⟨groupName, request.viewType, .exactMatch, request.contextName,
        request.securityModel, request.securityLevel⟩ with
    | some viewName => .ok viewName
    | none =>
      match (candidates accessMap groupName request).argmax (candidateRank request) with
      | none => .error (.statusInformation .notInView)
      | some bestCandidate => .ok bestCandidate.2

/-- What an operation on a cell finds, hashing it for a dictionary included: without a value every
one of them raises. -/
def valueOf {α : Type} : Option α → Except VacmError α
  | none => .error .pyAsn1Error
  | some value => .ok value

/-- Zero the ignored positions of a name, which must have them. -/
def zeroSubOids : List ℕ → Oid → Except VacmError Oid
  | [], subOids => .ok subOids
  | ignoredSubOid :: ignored, subOids =>
    if ignoredSubOid < subOids.length then
      zeroSubOids ignored (subOids.set ignoredSubOid 0)
    else
      .error .indexError

/-- Run through the families of a view; each one that matches the name overrides the others. -/
def accessAllowed (variableName : Oid) : Bool → List ViewTreeEntry → Except VacmError Bool
  | allowed, [] => .ok allowed
  | allowed, entry :: entries =>
    match zeroSubOids entry.ignoredSubOids variableName with
    | .error exception => .error exception
    | .ok normalizedVariableName =>
      accessAllowed variableName
        (if entry.subtree.isPrefixOf normalizedVariableName then entry.included else allowed)
        entries

/-- The context map, rebuilt if `vacmContextName` has changed. -/
def rebuildContextMap (source : VacmSource) : Effect Vacm VacmError (Octets → Bool) :=
  focus Vacm.contextMap (fun cache vacm ↦ { vacm with contextMap := cache })
    (refresh contextAssembly source.contexts)

/-- The group name map, rebuilt if `vacmGroupName` has changed. -/
def rebuildGroupNameMap (source : VacmSource) :
    Effect Vacm VacmError (ℕ × Octets → Option (Option Octets)) :=
  focus Vacm.groupNameMap (fun cache vacm ↦ { vacm with groupNameMap := cache })
    (refresh groupNameAssembly source.securityToGroup)

/-- The access map, rebuilt if `vacmAccessStatus` has changed. -/
def rebuildAccessMap (source : VacmSource) : Effect Vacm VacmError AccessMap :=
  focus Vacm.accessMap (fun cache vacm ↦ { vacm with accessMap := cache })
    (refresh accessAssembly source.access)

/-- The view tree map, rebuilt if `vacmViewTreeFamilyViewName` has changed. -/
def rebuildViewTreeMap (source : VacmSource) :
    Effect Vacm VacmError (Octets → Option (List ViewTreeEntry)) :=
  focus Vacm.viewTreeMap (fun cache vacm ↦ { vacm with viewTreeMap := cache })
    (refresh viewTreeAssembly source.viewTreeFamilies)

/-- 3.2.5: the families of the view. Where there is none, the exception is returned. -/
def checkView (source : VacmSource) (request : AccessRequest) (viewName : Option Octets) :
    Effect Vacm VacmError (Option ErrorIndication) := do
  let viewTreeMap ← rebuildViewTreeMap source
  -- 3.2.5a
  let viewName ← liftExcept (valueOf viewName)
  match viewTreeMap viewName with
  | none => pure (some .notInView)
  | some entries => do
    let allowed ← liftExcept (accessAllowed request.variableName false entries)
    -- 3.2.5c
    if allowed then pure none else raise (.statusInformation .notInView)

/-- 3.2.3 and 3.2.4: the view of the group. -/
def checkGroup (source : VacmSource) (request : AccessRequest) (groupName : Option Octets) :
    Effect Vacm VacmError (Option ErrorIndication) := do
  let accessMap ← rebuildAccessMap source
  let groupName ← liftExcept (valueOf groupName)
  let viewName ← liftExcept (getFamilyViewName accessMap groupName request)
  checkView source request viewName

/-- Whether one object may be read, written or notified on. Access is granted by returning; the
value returned is `none`, or the exception that stands after the `return` where a view has no
family. -/
def isAccessAllowed (source : VacmSource) (request : AccessRequest) :
    Effect Vacm VacmError (Option ErrorIndication) := do
  let contextMap ← rebuildContextMap source
  -- 3.2.1
  if contextMap request.contextName then
    let groupNameMap ← rebuildGroupNameMap source
    -- 3.2.2
    match groupNameMap (request.securityModel, request.securityName) with
    | none => raise (.statusInformation .noGroupName)
    | some groupName => checkGroup source request groupName
  else
    raise (.statusInformation .noSuchContext)

/-! ### The callers -/

/-- How a command responder's access check fails. -/
inductive VerifyError
  | authorizationError
  | genError
  | genErrorUnknownContext
  | noAccessError
  | protocolError
  | vacmError (exception : VacmError)
  deriving DecidableEq, Repr

/-- What a responder's access check returns: nothing, or the one that says the object is to be
skipped. -/
inductive Verdict
  | granted
  | notInView
  deriving DecidableEq, Repr

/-- `CommandResponderBase.__verifyAccess`. The flag says that the value is a `Counter64` in the
answer to an SNMPv1 GETNEXT. -/
def verifyAccess (source : VacmSource) (request : AccessRequest) (counter64InV1GetNext : Bool)
    (vacm : Vacm) : Except VerifyError Verdict :=
  match ((isAccessAllowed source request).run vacm).1 with
  | .ok _ => if counter64InV1GetNext then .error .noAccessError else .ok .granted
  | .error (.statusInformation errorIndication) =>
    match errorIndication with
    | .noSuchView => .error .authorizationError
    | .noAccessEntry => .error .authorizationError
    | .noGroupName => .error .authorizationError
    | .otherError => .error .genError
    | .noSuchContext => .error .genErrorUnknownContext
    | .notInView => .ok .notInView
    | _ => .error .protocolError
  | .error exception => .error (.vacmError exception)

/-- The notification originator's test of one object: refused when the check raises
`StatusInformation`. -/
def refused (source : VacmSource) (request : AccessRequest) : Effect Vacm VacmError Bool :=
  handle (isAccessAllowed source request >>= fun _ ↦ pure false)
    fun exception ↦
      match exception with
      | .statusInformation _ => pure true
      | exception => raise exception

/-- Whether the notification originator leaves a target out: some object of the notification is
refused. -/
def vacmDenied (source : VacmSource) (request : AccessRequest) :
    List Oid → Effect Vacm VacmError Bool
  | [] => pure false
  | varName :: varNames => do
    if ← refused source { request with variableName := varName } then
      pure true
    else
      vacmDenied source request varNames

end Pysnmp.Proto.Acmod.Rfc3415
