import Pysnmp.Proto.Mpmod.Cache

/-!
# The message processing models

`prepareOutgoingMessage` and `prepareDataElements` of `mpmod/rfc3412.py` and `mpmod/rfc2576.py`,
from the point where the security model has been asked: how a message is decoded and secured is
outside, and a message arrives here as what the security model returned for it or as the exception
that stopped it. SNMPv1 and SNMPv2c share one class; SNMPv3 has its own, with a cache of the engine
identifiers it has learned from reports.

A request is kept under the message identifier in SNMPv3. SNMPv1 and SNMPv2c have no such
identifier, so the model replaces the request-id of the PDU by a unique one and keeps the request
under that.
-/

set_option autoImplicit false
set_option relaxedAutoImplicit false

namespace Pysnmp.Proto.Mpmod.MessageProcessing

open Foundation Foundation.Effect Cache

/-! ### Models and their environment -/

/-- The message processing models. -/
inductive ModelId
  | v1
  | v2c
  | v3
  deriving DecidableEq, Repr

/-- The version number of a message, as `messageProcessingSubsystems` has it. -/
def ModelId.ofVersion : ℕ → Option ModelId
  | 0 => some v1
  | 1 => some v2c
  | 3 => some v3
  | _ => none

/-- What the models read of the engine. -/
structure Environment where
  snmpEngineID : Octets
  snmpEngineMaxMessageSize : ℕ
  securityModels : ℕ → Bool
  timerResolution : ℚ

/-- What was learned about the engine at a peer. -/
structure PeerEngine where
  securityEngineId : Octets
  contextEngineId : Octets
  contextName : Octets
  deriving DecidableEq, Repr

/-- The state of a model; the cache of engine identifiers is that of SNMPv3. -/
structure Model where
  cache : CacheState
  engineIdCache : Peer → Option PeerEngine
  engineIdCacheExpQueue : ℕ → List Peer
  expirationTimer : ℕ

/-- A model that has seen no message. -/
def Model.initial : Model where
  cache := .empty
  engineIdCache := fun _ ↦ none
  engineIdCacheExpQueue := fun _ ↦ []
  expirationTimer := 0

/-- Programs of a model. -/
abbrev ModelOp (α : Type) := Effect Model Raised α

/-- An operation of the model's cache. -/
def onCache {α : Type} (operation : CacheOp α) : ModelOp α :=
  focus Model.cache (fun cache model ↦ { model with cache }) operation

/-! ### Outgoing messages -/

/-- A request or a notification that is to be sent. -/
structure OutgoingRequest where
  peer : Peer
  securityModel : ℕ
  securityName : Octets
  securityLevel : SecurityLevel
  contextEngineId : Option Octets
  contextName : Octets
  pdu : Pdu
  sendPduHandle : ℕ
  deriving DecidableEq, Repr

/-- What the code outside the module answers: the assembly of the message, and the security
model. -/
structure Securing where
  assembled : Except Raised Unit
  generateRequestMsg : Except Raised Octets

/-- The security model, or the assembly of the message before it, fails with the exception. -/
def Securing.FailsWith (securing : Securing) (exception : Raised) : Prop :=
  securing.assembled = .error exception ∨ securing.generateRequestMsg = .error exception

/-- What is kept of a request, under the context it was sent with. -/
def sentRequest (environment : Environment) (request : OutgoingRequest) (originalID : ℤ)
    (contextEngineId : Octets) : SentRequest where
  sendPduHandle := request.sendPduHandle
  originalID := originalID
  snmpEngineID := environment.snmpEngineID
  securityModel := request.securityModel
  securityName := request.securityName
  securityLevel := request.securityLevel
  contextEngineId := contextEngineId
  contextName := request.contextName
  peer := request.peer

/-- The parts of the preparation that are the same in all models: the message is assembled, and the
security model, if it is there, secures it. -/
def secureRequest (environment : Environment) (request : OutgoingRequest) (securing : Securing) :
    ModelOp Octets := do
  liftExcept securing.assembled
  if environment.securityModels request.securityModel then
    liftExcept securing.generateRequestMsg
  else
    raise (.status .unsupportedSecurityModel)

/-- 7.1.9.c: a request that has a response is kept. -/
def recordRequest (request : OutgoingRequest) (msgID : ℤ) (sent : SentRequest) : ModelOp Unit :=
  runIf request.pdu.pduType.isConfirmedClass (onCache (pushByMsgId msgID sent))

/-- The context engine of a v3 request: the caller's, else what is known of the peer. -/
def contextEngineIdOf (environment : Environment) (peerEngine : Option PeerEngine) :
    Option Octets → Octets
  | some contextEngineId => contextEngineId
  | none =>
    match peerEngine with
    | none => environment.snmpEngineID
    | some known =>
      if known.contextEngineId = [] then known.securityEngineId else known.contextEngineId

/-- The size constraint of a v3 message. -/
def checkMessageSize (environment : Environment) (wholeMsg : Octets) : ModelOp Unit :=
  runIf (environment.snmpEngineMaxMessageSize < wholeMsg.length) (raise (.status .tooBig))

/-- `SnmpV3MessageProcessingModel.prepareOutgoingMessage`. -/
def prepareOutgoingMessageV3 (environment : Environment) (request : OutgoingRequest)
    (securing : Securing) (msgID : ℤ) : ModelOp Octets := do
  let peerEngine ← gets fun model ↦ model.engineIdCache request.peer
  let contextEngineId := contextEngineIdOf environment peerEngine request.contextEngineId
  let wholeMsg ← secureRequest environment request securing
  checkMessageSize environment wholeMsg
  recordRequest request msgID (sentRequest environment request msgID contextEngineId)
  pure wholeMsg

/-- `SnmpV1MessageProcessingModel.prepareOutgoingMessage`. -/
def prepareOutgoingMessageV1 (environment : Environment) (request : OutgoingRequest)
    (securing : Securing) (msgID : ℤ) : ModelOp Octets := do
  let contextEngineId :=
    match request.contextEngineId with
    | none => environment.snmpEngineID
    | some contextEngineId =>
      if contextEngineId = [] then environment.snmpEngineID else contextEngineId
  let wholeMsg ← secureRequest environment request securing
  recordRequest request msgID
    (sentRequest environment request request.pdu.requestID contextEngineId)
  pure wholeMsg

/-- `prepareOutgoingMessage` of a model, with the message identifier it draws. -/
def prepareOutgoingMessage : ModelId → Environment → OutgoingRequest → Securing → ℤ →
    ModelOp Octets
  | .v3 => prepareOutgoingMessageV3
  | .v1 | .v2c => prepareOutgoingMessageV1

/-! ### Outgoing responses -/

/-- The object and its value that a response is to report, as `statusInformation` carries them. -/
abbrev ReportedObject := Oid × BindingValue

/-- The assembly of a response and the security model, for the request that is answered. -/
abbrev ResponseSecuring := ServedRequest → Pdu → Except Raised Octets

/-- The security model, if it is there, secures the response. -/
def secureResponse (environment : Environment) (securing : ResponseSecuring)
    (cachedParams : ServedRequest) (pdu : Pdu) : ModelOp Octets :=
  if environment.securityModels cachedParams.securityModel then
    liftExcept (securing cachedParams pdu)
  else
    raise (.status .unsupportedSecurityModel)

/-- 7.1.3: what is sent in place of a PDU when there is something to report. Only the PDU of a
request is replaced by a report. -/
def reportInPlace (pdu : Pdu) : Option ReportedObject → ModelOp Pdu
  | none => pure pdu
  | some (oid, val) =>
    if pdu.pduType.isConfirmedClass then
      pure { pduType := .report, requestID := pdu.requestID, varBinds := [(oid, val)] }
    else
      raise (.status .loopTerminated)

/-- `SnmpV3MessageProcessingModel.prepareResponseMessage` of an application's response. -/
def prepareResponseMessageV3 (environment : Environment) (securing : ResponseSecuring)
    (stateReference : ℕ) (statusInformation : Option ReportedObject) (pdu : Pdu) :
    ModelOp Octets := do
  let cachedParams ← onCache (popByStateRef stateReference)
  let sentPdu ← reportInPlace pdu statusInformation
  let wholeMsg ← secureResponse environment securing cachedParams sentPdu
  runIf (min (environment.snmpEngineMaxMessageSize : ℤ) cachedParams.msgMaxSize < wholeMsg.length)
    (raise (.status .tooBig))
  pure wholeMsg

/-- `SnmpV1MessageProcessingModel.prepareResponseMessage`: there are no reports, and the request-id
the manager chose is put back. -/
def prepareResponseMessageV1 (environment : Environment) (securing : ResponseSecuring)
    (stateReference : ℕ) (statusInformation : Option ReportedObject) (pdu : Pdu) :
    ModelOp Octets := do
  let cachedParams ← onCache (popByStateRef stateReference)
  if statusInformation.isSome then
    raise (.status .nonReportable)
  else
    secureResponse environment securing cachedParams
      { pdu with requestID := cachedParams.reqID.getD pdu.requestID }

/-- `prepareResponseMessage` of a model. -/
def prepareResponseMessage : ModelId → Environment → ResponseSecuring → ℕ →
    Option ReportedObject → Pdu → ModelOp Octets
  | .v3 => prepareResponseMessageV3
  | .v1 | .v2c => prepareResponseMessageV1

/-! ### Incoming messages -/

/-- A message that the security model accepted. The identifier, flag and size are those of the v3
header. -/
structure SecuredMessage where
  msgVersion : ℕ
  msgID : ℤ
  reportableFlag : Bool
  msgMaxSize : ℤ
  peer : Peer
  securityModel : ℕ
  securityLevel : SecurityLevel
  securityEngineId : Octets
  securityName : Octets
  contextEngineId : Octets
  contextName : Octets
  pdu : Pdu
  maxSizeResponseScopedPDU : ℤ
  securityStateReference : ℕ
  deriving DecidableEq, Repr

/-- A report about a refused message: the reference it is prepared under, and how sending it
fails. -/
structure Report where
  stateReference : ℕ
  served : ServedRequest
  failure : Option Raised

/-- The refusal of a message before its PDU is looked at. The details of such an exception never
name a request of this engine. -/
structure Refusal where
  exception : Raised
  report : Option Report
  names_no_request : ∀ details, exception = .statusInformation details →
    details.sendPduHandle = none

/-- A message as it reaches the models. -/
inductive IncomingMessage
  | refused (refusal : Refusal)
  | secured (message : SecuredMessage)

/-- The values that serving a message draws from the generators. -/
structure Draws where
  stateReference : ℕ
  msgID : ℤ

/-- What `prepareDataElements` returns. -/
structure PreparedMessage where
  messageProcessingModel : ℕ
  securityModel : ℕ
  securityName : Octets
  securityLevel : SecurityLevel
  contextEngineId : Octets
  contextName : Octets
  pduVersion : ℕ
  pdu : Pdu
  sendPduHandle : Option ℕ
  maxSizeResponseScopedPDU : ℤ
  stateReference : Option ℕ
  deriving DecidableEq, Repr

/-- Take back the request that a response names; a miss is a mismatch. -/
def popRequest (msgID : ℤ) : ModelOp SentRequest :=
  handle (onCache (popByMsgId msgID)) fun
    | .protocolError => raise (.status .dataMismatch)
    | .statusInformation _ => raise (.status .dataMismatch)
    | exception => raise exception

/-- 7.2.12b: the message comes from whom the request was sent to. The peer is not compared. -/
def agrees (message : SecuredMessage) (sent : SentRequest) : Bool :=
  message.securityModel = sent.securityModel ∧ message.securityName = sent.securityName ∧
    message.securityLevel = sent.securityLevel ∧
    message.contextEngineId = sent.contextEngineId ∧ message.contextName = sent.contextName

/-- What is returned of a message, with its PDU as the application is to see it. -/
def prepared (message : SecuredMessage) (pduVersion : ℕ) (pdu : Pdu) (sendPduHandle : Option ℕ)
    (stateReference : Option ℕ) : PreparedMessage where
  messageProcessingModel := message.msgVersion
  securityModel := message.securityModel
  securityName := message.securityName
  securityLevel := message.securityLevel
  contextEngineId := message.contextEngineId
  contextName := message.contextName
  pduVersion := pduVersion
  pdu := pdu
  sendPduHandle := sendPduHandle
  maxSizeResponseScopedPDU := message.maxSizeResponseScopedPDU
  stateReference := stateReference

/-- What is kept of a confirmed request that is to be served. -/
def servedRequest (message : SecuredMessage) (msgID : ℤ) (reqID : Option ℤ) (msgMaxSize : ℤ) :
    ServedRequest where
  msgVersion := message.msgVersion
  msgID := msgID
  reqID := reqID
  contextEngineId := message.contextEngineId
  contextName := message.contextName
  securityModel := message.securityModel
  securityName := some message.securityName
  securityLevel := message.securityLevel
  securityStateReference := message.securityStateReference
  reportableFlag := message.reportableFlag
  msgMaxSize := msgMaxSize
  maxSizeResponseScopedPDU := message.maxSizeResponseScopedPDU
  peer := message.peer

/-- 7.2.13 and 7.2.14: a request is kept for its response, a notification only gets a
reference. -/
def prepareRequest (environment : Environment) (message : SecuredMessage) (pduVersion : ℕ)
    (pdu : Pdu) (served : ServedRequest) (draws : Draws) : ModelOp PreparedMessage :=
  if pdu.pduType.isConfirmedClass then do
    runIf (message.securityEngineId ≠ environment.snmpEngineID)
      (raise (.status .engineIDMismatch))
    onCache (pushByStateRef draws.stateReference served)
    pure (prepared message pduVersion pdu none (some draws.stateReference))
  else if pdu.pduType.isUnconfirmedClass then
    pure (prepared message pduVersion pdu none (some draws.stateReference))
  else
    raise (.status .unsupportedPDUtype)

/-- `_snmpErrors`: the error that a report tells of. -/
def snmpErrors (name : Oid) : Option ErrorIndication :=
  if name = [1, 3, 6, 1, 6, 3, 15, 1, 1, 1, 0] then some .unsupportedSecurityLevel
  else if name = [1, 3, 6, 1, 6, 3, 15, 1, 1, 2, 0] then some .notInTimeWindow
  else if name = [1, 3, 6, 1, 6, 3, 15, 1, 1, 3, 0] then some .unknownUserName
  else if name = [1, 3, 6, 1, 6, 3, 15, 1, 1, 4, 0] then some .unknownEngineID
  else if name = [1, 3, 6, 1, 6, 3, 15, 1, 1, 5, 0] then some .wrongDigest
  else if name = [1, 3, 6, 1, 6, 3, 15, 1, 1, 6, 0] then some .decryptionError
  else none

/-- 7.2.11a: the details of a report; one without bindings gives no error indication. -/
def reportDetails (pdu : Pdu) (sendPduHandle : ℕ) : StatusDetails :=
  match pdu.varBinds with
  | [] => { sendPduHandle := some sendPduHandle }
  | (name, value) :: _ =>
    { errorIndication := some ((snmpErrors name).getD
        (.reportPduReceived (String.intercalate "." (name.map toString))))
      oid := some name
      val := some value
      sendPduHandle := some sendPduHandle }

/-- A report teaches the engine identifier of a peer that is not known yet. -/
def sniffEngineId (environment : Environment) (message : SecuredMessage) : ModelOp Unit := do
  let known ← gets fun model ↦ (model.engineIdCache message.peer).isSome
  runIf (¬ known ∧ message.pdu.pduType.isInternalClass) (modify fun model ↦
    let expireAt := ((model.expirationTimer : ℚ) + 300 / environment.timerResolution).floor.toNat
    { model with
      engineIdCache := Function.update model.engineIdCache message.peer
        (some ⟨message.securityEngineId, message.contextEngineId, message.contextName⟩)
      engineIdCacheExpQueue := Function.update model.engineIdCacheExpQueue expireAt
        (model.engineIdCacheExpQueue expireAt ++ [message.peer]) })

/-- `SnmpV3MessageProcessingModel.prepareDataElements` of a secured message. -/
def prepareSecuredV3 (environment : Environment) (message : SecuredMessage) (draws : Draws) :
    ModelOp PreparedMessage := do
  sniffEngineId environment message
  if message.pdu.pduType.isResponseClass ∨ message.pdu.pduType.isInternalClass then
    -- 7.2.10
    let cachedReqParams ← popRequest message.msgID
    if message.pdu.pduType.isInternalClass then
      raise (.statusInformation (reportDetails message.pdu cachedReqParams.sendPduHandle))
    else if agrees message cachedReqParams then
      pure (prepared message 1 message.pdu (some cachedReqParams.sendPduHandle) none)
    else
      raise (.status .dataMismatch)
  else
    prepareRequest environment message 1 message.pdu
      (servedRequest message message.msgID none message.msgMaxSize) draws

/-- `SnmpV1MessageProcessingModel.prepareDataElements` of a secured message. -/
def prepareSecuredV1 (environment : Environment) (message : SecuredMessage) (draws : Draws) :
    ModelOp PreparedMessage := do
  if message.pdu.pduType.isResponseClass then
    -- 7.2.10
    let cachedReqParams ← popRequest message.pdu.requestID
    if agrees message cachedReqParams then
      pure (prepared message message.msgVersion
        { message.pdu with requestID := cachedReqParams.originalID }
        (some cachedReqParams.sendPduHandle) none)
    else
      raise (.status .dataMismatch)
  else
    let served := servedRequest message draws.msgID (some message.pdu.requestID)
      environment.snmpEngineMaxMessageSize
    if message.pdu.pduType.isConfirmedClass then
      prepareRequest environment message message.msgVersion
        { message.pdu with requestID := draws.msgID } served draws
    else
      prepareRequest environment message message.msgVersion message.pdu served draws

/-- 7.2.6a: the report about a refused message passes through the cache of state references. What
sending it raises goes on unless it is a `StatusInformation`. -/
def sendReport (report : Report) : ModelOp Unit := do
  onCache (pushByStateRef report.stateReference report.served)
  let _ ← onCache (popByStateRef report.stateReference)
  match report.failure with
  | some (.statusInformation _) => pure ()
  | some exception => raise exception
  | none => pure ()

/-- The end of a refused v3 message: some refusals are reported before the exception goes on. -/
def refuse (refusal : Refusal) : ModelOp PreparedMessage := do
  match refusal.report with
  | none => raise refusal.exception
  | some report => do
    sendReport report
    raise refusal.exception

/-- `prepareDataElements` of a model. -/
def prepareDataElements (model : ModelId) (environment : Environment) (incoming : IncomingMessage)
    (draws : Draws) : ModelOp PreparedMessage :=
  match model, incoming with
  | .v3, .refused refusal => refuse refusal
  | .v3, .secured message => prepareSecuredV3 environment message draws
  | _, .refused refusal => raise refusal.exception
  | _, .secured message => prepareSecuredV1 environment message draws

/-! ### State release and the timer -/

/-- `AbstractMessageProcessingModel.releaseStateInformation`. -/
def releaseStateInformation (sendPduHandle : ℕ) : ModelOp Unit :=
  handle (onCache (popBySendPduHandle sendPduHandle)) fun
    | .protocolError => pure ()
    | .statusInformation _ => pure ()
    | exception => raise exception

/-- Drop a peer from the cache of engine identifiers. -/
def deletePeer (peer : Peer) : ModelOp Unit := do
  match ← gets fun model ↦ model.engineIdCache peer with
  | none => raise .keyError
  | some _ => modify fun model ↦
      { model with engineIdCache := Function.update model.engineIdCache peer none }

/-- `SnmpV3MessageProcessingModel.__expireEnginesInfo`. -/
def expireEnginesInfo : ModelOp Unit := do
  let peers ← gets fun model ↦ model.engineIdCacheExpQueue model.expirationTimer
  forEach deletePeer peers
  modify fun model ↦ { model with
    engineIdCacheExpQueue := Function.update model.engineIdCacheExpQueue model.expirationTimer []
    expirationTimer := model.expirationTimer + 1 }

/-- `receiveTimerTick` of a model. -/
def receiveTimerTick : ModelId → ModelOp Unit
  | .v3 => do
    expireEnginesInfo
    onCache expireCaches
  | .v1 | .v2c => onCache expireCaches

end Pysnmp.Proto.Mpmod.MessageProcessing
