import Pysnmp.Entity.Rfc3413.Requesters

/-!
# Command generators

`CommandGenerator` of `entity/rfc3413/cmdgen.py`: `sendPdu` sends a request to a target, and
`processResponsePdu` matches the outcome of an attempt to the request, sends it again or tells the
application. The application uses SMIv2 only, so PDUs are translated for a peer that speaks SNMPv1
and from it.
-/

set_option autoImplicit false
set_option relaxedAutoImplicit false

namespace Pysnmp.Entity.Rfc3413.CommandGenerator

open Foundation Foundation.Effect Proto Proto.Dispatcher Proto.Mpmod.MessageProcessing
  Proto.Proxy.Rfc2576 Retries Requesters

/-- What is kept of a request: `__pendingReqs`. -/
structure PendingRequest where
  peer : Peer
  messageProcessingModel : ℕ
  securityModel : ℕ
  securityName : Octets
  securityLevel : SecurityLevel
  contextEngineId : Option Octets
  contextName : Octets
  pduVersion : ℕ
  pdu : Pdu
  timeout : ℚ
  retryCount : ℤ
  counts : RetryCounts
  deriving DecidableEq, Repr

/-- Programs of an engine with a command generator. -/
abbrev GeneratorOp (β : Type) := RequesterOp PendingRequest β

/-- The arguments of the dispatcher's `sendPdu` for a request. -/
def PendingRequest.sendArguments (pending : PendingRequest) (request : Pdu × ℕ)
    (sendRequestHandle : ℕ) : SendArguments ℕ where
  messageProcessingModel := pending.messageProcessingModel
  peer := pending.peer
  securityModel := pending.securityModel
  securityName := pending.securityName
  securityLevel := pending.securityLevel
  contextEngineId := pending.contextEngineId
  contextName := pending.contextName
  pduVersion := request.2
  pdu := request.1
  expectResponse := true
  timeout := pending.timeout
  callback := sendRequestHandle

/-- The next attempt of a request. -/
def PendingRequest.again (pending : PendingRequest) (sendRequestHandle : ℕ)
    (counts : RetryCounts) : Except Raised (SendArguments ℕ × PendingRequest) := do
  let request ← requestFor pending.messageProcessingModel pending.pdu
  pure (pending.sendArguments request sendRequestHandle, { pending with counts })

theorem again_eq_ok_iff {pending : PendingRequest} {sendRequestHandle : ℕ}
    {counts : RetryCounts} {next : SendArguments ℕ × PendingRequest} :
    pending.again sendRequestHandle counts = .ok next ↔
      ∃ request, requestFor pending.messageProcessingModel pending.pdu = .ok request ∧
        (pending.sendArguments request sendRequestHandle, { pending with counts }) = next := by
  unfold PendingRequest.again
  cases requestFor pending.messageProcessingModel pending.pdu with
  | error exception => simp [bind, Except.bind]
  | ok request => simp [bind, Except.bind, pure, Except.pure]

/-- The response comes from where the request went to; a context that was not asked for is not
compared. -/
def PendingRequest.matchesResponse (pending : PendingRequest) (message : PreparedMessage) : Bool :=
  pending.messageProcessingModel = message.messageProcessingModel ∧
    pending.securityModel = message.securityModel ∧
    pending.securityName = message.securityName ∧
    (∀ contextEngineId ∈ pending.contextEngineId, contextEngineId = [] ∨
      contextEngineId = message.contextEngineId) ∧
    (pending.contextName = [] ∨ pending.contextName = message.contextName) ∧
    pending.pduVersion = message.pduVersion

/-- 3.1.2: what the application is told about a response. -/
def PendingRequest.responseResult (pending : PendingRequest) (message : PreparedMessage) :
    Except Raised CallbackResult :=
  if pending.matchesResponse message then do
    let pdu ←
      if message.messageProcessingModel = 0 then v1ToV2 message.pdu pending.pdu
      else .ok message.pdu
    if pdu.requestID = pending.pdu.requestID then
      .ok (.response pdu)
    else
      .ok .badResponse
  else
    .ok .badResponse

/-- Command generators, by their option `discoveryRetries`, which is 4 by default. -/
def commandGenerator (discoveryRetries : ℤ) : Kind PendingRequest where
  missing := .pySnmpError
  limits := fun pending ↦ ⟨pending.retryCount, discoveryRetries⟩
  counts := PendingRequest.counts
  again := PendingRequest.again
  responseResult := PendingRequest.responseResult
  counts_again := by
    intro pending sendRequestHandle counted next hnext
    obtain ⟨request, -, rfl⟩ := again_eq_ok_iff.mp hnext
    rfl
  limits_again := by
    intro pending sendRequestHandle counted next hnext
    obtain ⟨request, -, rfl⟩ := again_eq_ok_iff.mp hnext
    rfl
  callback_again := by
    intro pending sendRequestHandle counted next hnext
    obtain ⟨request, -, rfl⟩ := again_eq_ok_iff.mp hnext
    rfl

/-- `processResponsePdu`. -/
def processResponsePdu (config : EngineConfig) (discoveryRetries : ℤ) :
    CbFun PendingRequest → World PendingRequest → ℕ → Outcome → ℕ → GeneratorOp Unit :=
  (commandGenerator discoveryRetries).processResponsePdu config

/-- A request as it is first sent to a target that has been looked up. -/
def firstRequest (config : EngineConfig) (target : TargetInfo) (contextEngineId : Option Octets)
    (contextName : Octets) (pdu : Pdu) : Except Raised (ℕ → SendArguments ℕ × PendingRequest) := do
  let request ← requestFor target.messageProcessingModel pdu
  let pending : PendingRequest :=
    { peer := target.peer
      messageProcessingModel := target.messageProcessingModel
      securityModel := target.securityModel
      securityName := target.securityName
      securityLevel := target.securityLevel
      contextEngineId := contextEngineId
      contextName := contextName
      pduVersion := request.2
      pdu := pdu
      timeout := timeoutInTicks config target.timeout
      retryCount := target.retryCount
      counts := .zero }
  pure fun sendRequestHandle ↦ (pending.sendArguments request sendRequestHandle, pending)

/-- `sendPdu`. -/
def sendPdu (config : EngineConfig) (target : TargetInfo) (contextEngineId : Option Octets)
    (contextName : Octets) (pdu : Pdu) :
    (Engine ℕ (Requester PendingRequest) → ℕ) → World PendingRequest → GeneratorOp ℕ :=
  send config (firstRequest config target contextEngineId contextName pdu)

end Pysnmp.Entity.Rfc3413.CommandGenerator
