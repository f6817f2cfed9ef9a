import Pysnmp.Entity.Rfc3413.Requesters

/-!
# Notification originators

`NotificationOriginator` of `entity/rfc3413/ntforg.py`, as far as it sends one INFORM to one target
and matches the outcome of an attempt to it. It differs from the command generator in what it
checks of a response, which is nothing, in the timeout of a retry, which is converted each time, and
in the translation of a retry: the dispatcher names no message processing model when it reports a
failure, so a retry is never translated.
-/

set_option autoImplicit false
set_option relaxedAutoImplicit false

namespace Pysnmp.Entity.Rfc3413.NotificationOriginator

open Foundation Foundation.Effect Proto Proto.Dispatcher Proto.Mpmod.MessageProcessing
  Proto.Proxy.Rfc2576 Retries Requesters

/-- What is kept of an INFORM: `__pendingReqs`. -/
structure PendingInform where
  peer : Peer
  messageProcessingModel : ℕ
  securityModel : ℕ
  securityName : Octets
  securityLevel : SecurityLevel
  contextEngineId : Option Octets
  contextName : Octets
  pdu : Pdu
  timeout : ℕ
  retryCount : ℤ
  counts : RetryCounts
  deriving DecidableEq, Repr

/-- Programs of an engine with a notification originator. -/
abbrev OriginatorOp (β : Type) := RequesterOp PendingInform β

/-- The arguments of the dispatcher's `sendPdu` for an INFORM. -/
def PendingInform.sendArguments (config : EngineConfig) (pending : PendingInform)
    (request : Pdu × ℕ) (sendRequestHandle : ℕ) : SendArguments ℕ where
  messageProcessingModel := pending.messageProcessingModel
  peer := pending.peer
  securityModel := pending.securityModel
  securityName := pending.securityName
  securityLevel := pending.securityLevel
  contextEngineId := pending.contextEngineId
  contextName := pending.contextName
  pduVersion := request.2
  pdu := request.1
  expectResponse := true
  timeout := timeoutInTicks config pending.timeout
  callback := sendRequestHandle

/-- The next attempt of an INFORM. -/
def PendingInform.again (config : EngineConfig) (pending : PendingInform)
    (sendRequestHandle : ℕ) (counts : RetryCounts) :
    Except Raised (SendArguments ℕ × PendingInform) :=
  .ok (pending.sendArguments config (pending.pdu, 1) sendRequestHandle, { pending with counts })

/-- 3.3.6c: what the application is told about a response. -/
def PendingInform.responseResult (pending : PendingInform) (message : PreparedMessage) :
    Except Raised CallbackResult := do
  let pdu ←
    if message.messageProcessingModel = 0 then v1ToV2 message.pdu pending.pdu
    else .ok message.pdu
  pure (.response pdu)

/-- Notification originators, by their option `discoveryRetries`, which is 4 by default. -/
def notificationOriginator (config : EngineConfig) (discoveryRetries : ℤ) : Kind PendingInform where
  missing := .protocolError
  limits := fun pending ↦ ⟨pending.retryCount, discoveryRetries⟩
  counts := PendingInform.counts
  again := PendingInform.again config
  responseResult := PendingInform.responseResult
  counts_again := by
    intro pending sendRequestHandle counted next hnext
    cases hnext
    rfl
  limits_again := by
    intro pending sendRequestHandle counted next hnext
    cases hnext
    rfl
  callback_again := by
    intro pending sendRequestHandle counted next hnext
    cases hnext
    rfl

/-- `processResponsePdu`. -/
def processResponsePdu (config : EngineConfig) (discoveryRetries : ℤ) :
    CbFun PendingInform → World PendingInform → ℕ → Outcome → ℕ → OriginatorOp Unit :=
  (notificationOriginator config discoveryRetries).processResponsePdu config

/-- An INFORM as it is first sent to a target that has been looked up; SNMPv1 has no such PDU. -/
def firstInform (config : EngineConfig) (target : TargetInfo) (contextEngineId : Option Octets)
    (contextName : Octets) (pdu : Pdu) : Except Raised (ℕ → SendArguments ℕ × PendingInform) := do
  let request ← requestFor target.messageProcessingModel pdu
  let pending : PendingInform :=
    { peer := target.peer
      messageProcessingModel := target.messageProcessingModel
      securityModel := target.securityModel
      securityName := target.securityName
      securityLevel := target.securityLevel
      contextEngineId := contextEngineId
      contextName := contextName
      pdu := pdu
      timeout := target.timeout
      retryCount := target.retryCount
      counts := .zero }
  pure fun sendRequestHandle ↦ (pending.sendArguments config request sendRequestHandle, pending)

/-- `sendPdu`, of an INFORM. -/
def sendPdu (config : EngineConfig) (target : TargetInfo) (contextEngineId : Option Octets)
    (contextName : Octets) (pdu : Pdu) :
    (Engine ℕ (Requester PendingInform) → ℕ) → World PendingInform → OriginatorOp ℕ :=
  send config (firstInform config target contextEngineId contextName pdu)

end Pysnmp.Entity.Rfc3413.NotificationOriginator
