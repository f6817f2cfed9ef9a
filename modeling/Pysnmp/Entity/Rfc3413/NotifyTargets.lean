import Mathlib.Data.Finset.Basic
import Pysnmp.Entity.Rfc3413.Requesters
import Pysnmp.Foundation.Dict
import Pysnmp.Proto.Acmod.Rfc3415
import Pysnmp.Proto.Proxy.Notifications

/-!
# Notifying the targets behind a tag

`sendVarBinds` and `processResponseVarBinds` of `entity/rfc3413/ntforg.py`, for INFORMs whose
bindings are in order, with the notification filters (`_prepareFilterEntries`,
`_matchPreparedFilter`).

A call comes with what it meets: the handles it draws, the configuration of each target, what the
access control decides about each name, and what becomes of the send. Of the retries of a request
there is only their end, the result with which `processResponseVarBinds` is called: the sends
without a result are `outstanding`.
-/

set_option autoImplicit false
set_option relaxedAutoImplicit false

namespace Pysnmp.Entity.Rfc3413.NotifyTargets

open Foundation Foundation.Effect Proto Proto.Proxy.Rfc2576 Proto.Proxy.Notifications Requesters

/-! ### Filters -/

/-- A row of `snmpNotifyFilterTable`. -/
structure FilterEntry where
  subtree : Oid
  mask : Octets
  included : Bool
  deriving DecidableEq, Repr

/-- A prepared entry: the subtree, the subtree with the ignored positions zeroed, these positions,
and whether the entry includes. -/
structure PreparedEntry where
  originalSubtree : Oid
  subtree : Oid
  ignoredSubOids : List ℕ
  included : Bool
  deriving DecidableEq, Repr

/-- Zero some positions. -/
def zeroed (positions : List ℕ) (oid : Oid) : Oid :=
  positions.foldl (fun subOids position ↦ subOids.set position 0) oid

/-- `_prepareFilterEntries`. -/
def prepareFilterEntries (filterEntries : List FilterEntry) : List PreparedEntry :=
  LastMatch.sortByKey
    (fun entry : PreparedEntry ↦ toLex (entry.originalSubtree.length, entry.originalSubtree))
    (filterEntries.map fun entry ↦
      let ignored := Acmod.Rfc3415.ignoredSubOids entry.mask entry.subtree
      { originalSubtree := entry.subtree
        subtree := zeroed ignored entry.subtree
        ignoredSubOids := ignored
        included := entry.included })

/-- `_matchPreparedFilter`: the type of the last entry that matches. -/
def matchPreparedFilter (preparedEntries : List PreparedEntry) (oid : Oid) : Option Bool :=
  preparedEntries.foldl (fun result entry ↦
    if oid.length < entry.originalSubtree.length then result
    else if entry.subtree.isPrefixOf (zeroed entry.ignoredSubOids oid) then some entry.included
    else result) none

/-- 3.3.1: whether the filter entries of a target let a notification pass, which names the objects.
Its own name has to be included, and no object may be excluded. -/
def passesFilter (filterEntries : List FilterEntry) (trapOid : Oid) (objectNames : List Oid) :
    Bool :=
  let preparedFilter := prepareFilterEntries filterEntries
  filterEntries.isEmpty || matchPreparedFilter preparedFilter trapOid = some true &&
    objectNames.all fun varName ↦ matchPreparedFilter preparedFilter varName ≠ some false

/-! ### Calls -/

/-- What a call meets at one target: the rows that the configuration has for it, the filter entries
of its profile, if it has one, what access control returns or raises for a name, the handle drawn
for the request, and what the dispatcher's `sendPdu` does. -/
structure Target where
  targetAddrName : Octets
  info : Except Raised TargetInfo
  filterEntries : Except Raised (Option (List FilterEntry))
  isAccessAllowed : Oid → Except Raised Unit
  sendRequestHandle : ℕ
  dispatched : Except Raised Unit

/-- A call of `sendVarBinds` for an INFORM: the handle drawn for it, its bindings with the value of
`snmpTrapOID.0`, which is the second, the request id of its PDU, and the targets behind its tag. -/
structure Notification where
  notificationHandle : ℕ
  varBinds : List VarBind
  trapOid : Oid
  requestID : ℤ
  targets : List Target
  second : varBinds[1]? = some (snmpTrapOID, .objectIdentifier trapOid)

/-- The names of the bindings that the protocol does not demand. -/
def Notification.objectNames (notification : Notification) : List Oid :=
  (notification.varBinds.map Prod.fst).filter fun varName ↦
    varName ≠ sysUpTime ∧ varName ≠ snmpTrapOID

/-- The PDU of an INFORM. -/
def Notification.pdu (notification : Notification) : Pdu where
  pduType := .informRequest
  requestID := notification.requestID
  varBinds := notification.varBinds

/-- Whether access control denies a target some name: `StatusInformation` denies, and what else is
raised goes through. -/
def vacmDenied (target : Target) : List Oid → Except Raised Bool
  | [] => .ok false
  | varName :: varNames =>
    match target.isAccessAllowed varName with
    | .ok () => vacmDenied target varNames
    | .error (.statusInformation _) => .ok true
    | .error exception => .error exception

/-- Whether the configuration, the filters and access control let a notification go to a target. -/
def Target.permits (target : Target) (notification : Notification) : Except Raised Bool := do
  let _ ← target.info
  let entries ← target.filterEntries
  if ¬ passesFilter (entries.getD []) notification.trapOid notification.objectNames then
    .ok false
  else do
    let denied ← vacmDenied target (notification.objectNames ++ [notification.trapOid])
    .ok (!denied)

/-- `sendPdu`. An INFORM cannot be translated for a SNMPv1 target. -/
def Target.sendPdu (target : Target) (notification : Notification) : Except Raised ℕ := do
  let info ← target.info
  let _ ← requestFor info.messageProcessingModel notification.pdu
  let _ ← target.dispatched
  .ok target.sendRequestHandle

/-! ### State -/

/-- What the application is called with. -/
structure Completion where
  notificationHandle : ℕ
  sendRequestHandle : ℕ
  errorIndication : Option ErrorIndication
  errorStatus : ℤ
  errorIndex : ℤ
  varBinds : List VarBind
  deriving DecidableEq, Repr

/-- A notification originator: `__pendingNotifications`, the notification of each request whose
result is still to come, and the notifications made, the sends attempted and the calls of the
application so far. -/
structure Originator where
  pendingNotifications : Dict ℕ (Finset ℕ)
  outstanding : Dict ℕ ℕ
  issued : List ℕ
  attempts : List (ℕ × Octets)
  calls : List Completion

/-- A notification originator that has sent nothing. -/
def Originator.initial : Originator where
  pendingNotifications := ∅
  outstanding := ∅
  issued := []
  attempts := []
  calls := []

/-- Programs of a notification originator. -/
abbrev OriginatorOp (β : Type) := Effect Originator Raised β

/-- Call the application. Whatever it does then comes after this. -/
def callBack (completion : Completion) : OriginatorOp Unit :=
  modify fun originator ↦ { originator with calls := originator.calls ++ [completion] }

/-- Keep the sends of a notification that wait for a result. -/
def setPending (notificationHandle : ℕ) (pending : Finset ℕ) : OriginatorOp Unit :=
  modify fun originator ↦ { originator with
    pendingNotifications := originator.pendingNotifications.insert notificationHandle pending }

/-- Forget a notification. -/
def dropPending (notificationHandle : ℕ) : OriginatorOp Unit :=
  modify fun originator ↦ { originator with
    pendingNotifications := originator.pendingNotifications.erase notificationHandle }

/-- `processResponseVarBinds`: report a notification finished once the last of its targets has
answered. -/
def processResponseVarBinds (notificationHandle sendRequestHandle : ℕ)
    (errorIndication : Option ErrorIndication) (pdu : Option Pdu) : OriginatorOp Unit := do
  let known ← gets fun originator ↦ originator.pendingNotifications.lookup notificationHandle
  match known with
  | none => raise .keyError
  | some pending =>
    if sendRequestHandle ∉ pending then raise .keyError
    else do
      setPending notificationHandle (pending.erase sendRequestHandle)
      if pending.erase sendRequestHandle = ∅ then do
        dropPending notificationHandle
        callBack
          { notificationHandle := notificationHandle
            sendRequestHandle := sendRequestHandle
            errorIndication := errorIndication
            errorStatus := (pdu.map Pdu.errorStatus).getD 0
            errorIndex := (pdu.map mutedErrorIndex).getD 0
            varBinds := (pdu.map Pdu.varBinds).getD [] }
      else pure ()

/-- The result of a send: `sendPdu` was given `processResponseVarBinds` to call with it, and does so
once. -/
def resolve (sendRequestHandle : ℕ) (errorIndication : Option ErrorIndication) (pdu : Option Pdu) :
    OriginatorOp Unit := do
  let context ← gets fun originator ↦ originator.outstanding.lookup sendRequestHandle
  match context with
  | none => raise .protocolError
  | some notificationHandle => do
    modify fun originator ↦ { originator with
      outstanding := originator.outstanding.erase sendRequestHandle }
    processResponseVarBinds notificationHandle sendRequestHandle errorIndication pdu

/-- A send that fails with a `StatusInformation` while nothing is pending completes the
notification. -/
def completeFailed (notificationHandle : ℕ) (details : StatusDetails) : OriginatorOp Unit := do
  let known ← gets fun originator ↦ originator.pendingNotifications.lookup notificationHandle
  if known.getD ∅ = ∅ then do
    dropPending notificationHandle
    match details.errorIndication with
    | none => raise .keyError
    | some errorIndication =>
      callBack
        { notificationHandle := notificationHandle
          sendRequestHandle := notificationHandle
          errorIndication := some errorIndication
          errorStatus := 0
          errorIndex := 0
          varBinds := [] }
  else pure ()

/-- A send that was handed over waits for its result. -/
def addPending (notificationHandle sendRequestHandle : ℕ) : OriginatorOp Unit := do
  modify fun originator ↦ { originator with
    outstanding := originator.outstanding.insert sendRequestHandle notificationHandle }
  let known ← gets fun originator ↦ originator.pendingNotifications.lookup notificationHandle
  setPending notificationHandle (insert sendRequestHandle (known.getD ∅))

/-- The loop over the targets, with the number of notifications sent so far. A failed send ends
it, and the call with it; otherwise the number of notifications sent comes out. -/
def notifyTargets (notification : Notification) : ℕ → List Target → OriginatorOp (Option ℕ)
  | notificationsSent, [] => pure (some notificationsSent)
  | notificationsSent, target :: targets => do
    let permitted ← liftExcept (target.permits notification)
    if permitted = false then notifyTargets notification notificationsSent targets
    else do
      modify fun originator ↦ { originator with
        attempts := originator.attempts ++
          [(notification.notificationHandle, target.targetAddrName)] }
      match target.sendPdu notification with
      | .error (.statusInformation details) => do
        completeFailed notification.notificationHandle details
        pure none
      | .error exception => raise exception
      | .ok sendRequestHandle => do
        addPending notification.notificationHandle sendRequestHandle
        notifyTargets notification (notificationsSent + 1) targets

/-- `sendVarBinds`, from the loop on. An INFORM that every target was spared is complete. -/
def sendVarBinds (notification : Notification) : OriginatorOp ℕ := do
  modify fun originator ↦ { originator with
    issued := originator.issued ++ [notification.notificationHandle] }
  let sent ← notifyTargets notification 0 notification.targets
  if sent = some 0 then
    callBack
      { notificationHandle := notification.notificationHandle
        sendRequestHandle := notification.notificationHandle
        errorIndication := none
        errorStatus := 0
        errorIndex := 0
        varBinds := [] }
  else pure ()
  pure notification.notificationHandle

/-- What can happen to a notification originator: the application sends an INFORM, or one of its
sends has a result. -/
inductive Action
  | sendVarBinds (notification : Notification)
  | resolve (sendRequestHandle : ℕ) (errorIndication : Option ErrorIndication) (pdu : Option Pdu)

/-- The originator after an action, whether it returned or raised. -/
def step (originator : Originator) : Action → Originator
  | .sendVarBinds notification => ((sendVarBinds notification).run originator).2
  | .resolve sendRequestHandle errorIndication pdu =>
    ((resolve sendRequestHandle errorIndication pdu).run originator).2

end Pysnmp.Entity.Rfc3413.NotifyTargets
