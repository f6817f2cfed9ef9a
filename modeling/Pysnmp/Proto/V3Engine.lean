import Pysnmp.Proto.Mpmod.CacheHistory
import Pysnmp.Proto.Mpmod.RejectedMessage
import Pysnmp.Proto.PduFormat
import Pysnmp.Proto.Secmod.UsmExchange

/-!
# An SNMPv3 engine

The message processing model of `mpmod/rfc3412.py` together with the user-based security model that
it calls: `sendRequest` is `prepareOutgoingMessage`, `prepareResponse` is `prepareResponseMessage`,
for responses and for reports, and `receiveMessage` is `prepareDataElements` with the report that it
sends about a message the security model refuses. What an engine sends goes to its outbox.

With the security model in it an engine is still the message processing of `MessageProcessing`,
which takes what the security model makes of a message as given: `receiveMessage` is
`prepareDataElements` of a refusal or of an accepted message (`receiveMessage_refines`).
-/

set_option autoImplicit false
set_option relaxedAutoImplicit false

namespace Pysnmp.Proto.V3Engine

open Foundation Foundation.Effect Mpmod Mpmod.Cache Mpmod.CacheHistory Mpmod.MessageProcessing
open Secmod.UsmService hiding reportDetails
open Secmod.UsmOutgoing hiding receiveTimerTick
open Secmod.WireFormat Secmod.UsmExchange PduFormat

/-! ### Engines -/

/-- What an engine is at a moment. -/
structure Engine where
  sender : UsmSender
  codec : MessageCodec
  pdus : PduCodec
  snmpEngineMaxMessageSize : ℕ

namespace Engine

/-- The identifier of the engine. -/
def snmpEngineID (engine : Engine) : Octets :=
  engine.sender.engine.snmpEngineID

/-- What message processing reads of the engine; the user-based security model is number 3. -/
def environment (engine : Engine) : Environment where
  snmpEngineID := engine.snmpEngineID
  snmpEngineMaxMessageSize := engine.snmpEngineMaxMessageSize
  securityModels := fun securityModel ↦ securityModel = 3
  timerResolution := engine.sender.engine.timerResolution

end Engine

/-- What an engine keeps, and what it has sent. -/
structure EngineState where
  model : Model
  usm : UsmState
  outbox : List (Peer × Octets)

/-- An engine that has done nothing. -/
def EngineState.initial : EngineState where
  model := .initial
  usm := Secmod.UsmAcceptance.initialState
  outbox := []

/-- Programs of an engine. -/
abbrev EngineOp (α : Type) := Effect EngineState Raised α

/-- An exception of the security model, as message processing sees it. -/
def toRaised : UsmError → Raised
  | .statusInformation details =>
    .statusInformation
      { errorIndication := some details.errorIndication
        oid := details.oid
        val := details.val.map .counter32 }
  | .protocolError _ => .protocolError
  | .pyAsn1Error => .pyAsn1Error
  | .otherException => .otherError

/-- Run a program of message processing. -/
def onModel {α : Type} (program : ModelOp α) : EngineOp α :=
  focus EngineState.model (fun model state ↦ { state with model }) program

/-- Run a program of the security model and return what comes of it. -/
def tryUsm {α : Type} (program : Usm α) : EngineOp (Except UsmError α) :=
  ⟨fun state ↦ (.ok (program.run state.usm).1,
    { state with usm := (program.run state.usm).2 })⟩

/-- Run a program of the security model. -/
def onUsm {α : Type} (program : Usm α) : EngineOp α := do
  let result ← tryUsm program
  liftExcept (result.mapError toRaised)

/-- Run a program of the security model of a message, if it is there. -/
def secureBy {α : Type} (engine : Engine) (securityModel : ℕ) (program : Usm α) : EngineOp α :=
  if engine.environment.securityModels securityModel then
    onUsm program
  else
    raise (.status .unsupportedSecurityModel)

/-- Hand a message to the transport. -/
def transmit (peer : Peer) (wholeMsg : Octets) : EngineOp Unit :=
  modify fun state ↦ { state with outbox := state.outbox ++ [(peer, wholeMsg)] }

/-! ### The header -/

/-- 7.1.7d: the flags of a message. -/
def msgFlagsOf (securityLevel : SecurityLevel) (pduType : PduType) : UInt8 :=
  let msgFlags : UInt8 :=
    match securityLevel with
    | .noAuthNoPriv => 0x00
    | .authNoPriv => 0x01
    | .authPriv => 0x03
  if pduType.isConfirmedClass then msgFlags ||| 0x04 else msgFlags

/-- 7.2.5: the flag that lets the receiver send a report. -/
def reportableFlagOf (msgFlags : UInt8) : Bool :=
  msgFlags &&& 0x04 ≠ 0

/-- The flags say the level they were made for. -/
theorem securityLevelOf_msgFlagsOf (securityLevel : SecurityLevel) (pduType : PduType) :
    securityLevelOf (msgFlagsOf securityLevel pduType) = some securityLevel := by
  unfold msgFlagsOf
  cases securityLevel with
  | noAuthNoPriv | authNoPriv | authPriv => split_ifs <;> decide

/-- The messages of confirmed PDUs let the receiver send a report. -/
theorem reportableFlagOf_msgFlagsOf (securityLevel : SecurityLevel) (pduType : PduType) :
    reportableFlagOf (msgFlagsOf securityLevel pduType) = pduType.isConfirmedClass := by
  unfold msgFlagsOf
  cases hpdu : pduType.isConfirmedClass with
  | true => cases securityLevel <;> decide
  | false => cases securityLevel <;> decide

/-- `_assemble_msg_header`. -/
def assembleMsgHeader (engine : Engine) (msgID : ℤ) (securityLevel : SecurityLevel)
    (securityModel : ℕ) (pduType : PduType) : GlobalData where
  msgID := msgID
  msgMaxSize := engine.snmpEngineMaxMessageSize
  msgFlags := msgFlagsOf securityLevel pduType
  msgSecurityModel := securityModel

/-! ### Requests -/

/-- 7.1.9.a: the authoritative engine of a message, unknown for a peer that has not been
discovered. -/
def securityEngineIdOf (engine : Engine) (peerEngine : Option PeerEngine) (pduType : PduType) :
    Octets :=
  if pduType.isUnconfirmedClass then
    engine.snmpEngineID
  else
    match peerEngine with
    | none => []
    | some known => known.securityEngineId

/-- What message processing hands to the security model of a request. -/
def outgoingRequest (engine : Engine) (request : OutgoingRequest) (peerEngine : Option PeerEngine)
    (msgID : ℤ) : Outgoing where
  globalData := assembleMsgHeader engine msgID request.securityLevel request.securityModel
    request.pdu.pduType
  securityEngineID := securityEngineIdOf engine peerEngine request.pdu.pduType
  securityName := request.securityName
  securityLevel := request.securityLevel
  scopedPDU :=
    { contextEngineId :=
        contextEngineIdOf engine.environment peerEngine request.contextEngineId
      contextName := request.contextName
      data := engine.pdus.encode request.pdu }
  pduType := request.pdu.pduType
  securityStateReference := none

/-- `prepareOutgoingMessage`, and what it returns sent. -/
def sendRequest (engine : Engine) (request : OutgoingRequest) (msgID : ℤ) : EngineOp Octets := do
  let peerEngine ← gets fun state ↦ state.model.engineIdCache request.peer
  let message ← outcomeOf (secureBy engine request.securityModel
    (generateRequestMsg engine.sender (outgoingRequest engine request peerEngine msgID)))
  let wholeMsg ← onModel (prepareOutgoingMessageV3 engine.environment request
    ⟨.ok (), message.map OutgoingMessage.authenticatedWholeMsg⟩ msgID)
  transmit request.peer wholeMsg
  pure wholeMsg

/-! ### Responses and reports -/

/-- What `prepareResponseMessage` reads of a status information with an object to report. -/
structure Reporting where
  oid : Oid
  val : BindingValue
  securityLevel : Option SecurityLevel := none
  contextEngineId : Option Octets := none
  contextName : Option Octets := none

/-- What is sent in answer to a request: its PDU, level and context. -/
structure Answer where
  pdu : Pdu
  securityLevel : SecurityLevel
  contextEngineId : Octets
  contextName : Octets

/-- 7.1.3: the answer to a request. Where there is something to report that is a report, which only
answers a confirmed PDU, or a message whose PDU is unknown if its flags allow it. -/
def answerOf (engine : Engine) (cachedParams : ServedRequest) (pdu : Option Pdu) :
    Option Reporting → Except Raised Answer
  | none =>
    match pdu with
    | none => .error .attributeError
    | some pdu =>
      .ok ⟨pdu, cachedParams.securityLevel, cachedParams.contextEngineId, cachedParams.contextName⟩
  | some reporting =>
    let isAnswered :=
      match pdu with
      | none => cachedParams.reportableFlag
      | some pdu => pdu.pduType.isConfirmedClass
    if isAnswered then
      .ok
        { pdu :=
            { pduType := .report
              requestID := (pdu.map Pdu.requestID).getD 0
              varBinds := [(reporting.oid, reporting.val)] }
          securityLevel := reporting.securityLevel.getD .noAuthNoPriv
          contextEngineId := reporting.contextEngineId.getD engine.snmpEngineID
          contextName := reporting.contextName.getD [] }
    else
      .error (.status .loopTerminated)

/-- What message processing hands to the security model of an answer. -/
def outgoingAnswer (engine : Engine) (cachedParams : ServedRequest) (answer : Answer) :
    Outgoing where
  globalData := assembleMsgHeader engine cachedParams.msgID answer.securityLevel
    cachedParams.securityModel answer.pdu.pduType
  securityEngineID := engine.snmpEngineID
  securityName := cachedParams.securityName.getD []
  securityLevel := answer.securityLevel
  scopedPDU :=
    { contextEngineId :=
        if answer.contextEngineId = [] then engine.snmpEngineID else answer.contextEngineId
      contextName := answer.contextName
      data := engine.pdus.encode answer.pdu }
  pduType := answer.pdu.pduType
  securityStateReference := some cachedParams.securityStateReference

/-- The size constraint of an answer. -/
def checkAnswerSize (engine : Engine) (cachedParams : ServedRequest) (wholeMsg : Octets) :
    EngineOp Unit :=
  runIf (min (engine.snmpEngineMaxMessageSize : ℤ) cachedParams.msgMaxSize < wholeMsg.length)
    (raise (.status .tooBig))

/-- `prepareResponseMessage`, and what it returns sent. -/
def prepareResponse (engine : Engine) (stateReference : ℕ) (pdu : Option Pdu)
    (reporting : Option Reporting) : EngineOp Octets := do
  let cachedParams ← onModel (onCache (popByStateRef stateReference))
  let answer ← liftExcept (answerOf engine cachedParams pdu reporting)
  let message ← secureBy engine cachedParams.securityModel
    (generateRequestOrResponseMsg engine.sender (outgoingAnswer engine cachedParams answer))
  checkAnswerSize engine cachedParams message.authenticatedWholeMsg
  transmit cachedParams.peer message.authenticatedWholeMsg
  pure message.authenticatedWholeMsg

/-! ### Incoming messages -/

/-- The readings of the wall clock that the processing of a message takes. -/
structure Clock where
  synchronizedAt : ℕ
  comparedAt : ℕ
  advancedAt : ℕ

/-- A message as message processing hands it to the security model. -/
def arrivalOf (receivedMsg : ReceivedMsg) (wholeMsg : Octets) (securityLevel : SecurityLevel)
    (clock : Clock) : Arrival where
  maxMessageSize := receivedMsg.globalData.msgMaxSize
  securityParameters := receivedMsg.msgSecurityParameters
  securityLevel := securityLevel
  wholeMsg := wholeMsg
  scopedPduData := receivedMsg.msgData
  synchronizedAt := clock.synchronizedAt
  comparedAt := clock.comparedAt
  advancedAt := clock.advancedAt

/-- The details of a refusal that a report about it takes. -/
structure Reported where
  oid : Oid
  val : ℕ
  securityStateReference : ℕ
  contextEngineId : Octets
  contextName : Octets
  maxSizeResponseScopedPDU : ℤ

/-- Read the details that a report takes, if they are all there. -/
def reportedOf (details : StatusInformation) (oid : Oid) : Option Reported := do
  let val ← details.val
  let securityStateReference ← details.securityStateReference
  let contextEngineId ← details.contextEngineId
  let contextName ← details.contextName
  let maxSizeResponseScopedPDU ← details.maxSizeResponseScopedPDU
  pure ⟨oid, val, securityStateReference, contextEngineId, contextName, maxSizeResponseScopedPDU⟩

/-- 7.2.6a2: what is kept of a refused message while it is reported about. -/
def refusedRequest (globalData : GlobalData) (securityLevel : SecurityLevel) (peer : Peer)
    (reported : Reported) : ServedRequest where
  msgVersion := 3
  msgID := globalData.msgID
  reqID := none
  contextEngineId := reported.contextEngineId
  contextName := reported.contextName
  securityModel := globalData.msgSecurityModel
  securityName := none
  securityLevel := securityLevel
  securityStateReference := reported.securityStateReference
  reportableFlag := reportableFlagOf globalData.msgFlags
  msgMaxSize := globalData.msgMaxSize
  maxSizeResponseScopedPDU := reported.maxSizeResponseScopedPDU
  peer := peer

/-- The PDU of a refused message, if the refusal has it. -/
def refusedPdu (engine : Engine) (details : StatusInformation) : Option Pdu :=
  details.scopedPDU.map fun scopedPdu ↦ engine.pdus.decode scopedPdu.data

/-- What the report about a refusal says. -/
def reportingOf (details : StatusInformation) (reported : Reported) : Reporting where
  oid := reported.oid
  val := .counter32 reported.val
  securityLevel := details.securityLevel
  contextEngineId := some reported.contextEngineId
  contextName := some reported.contextName

/-- Run a program, but for a `StatusInformation` that it raises. -/
def ignoringStatus (program : EngineOp Unit) : EngineOp Unit :=
  handle program fun
    | .statusInformation _ => pure ()
    | exception => raise exception

/-- 7.2.6a: the report about a refused message, if there is an object to report. The details that
go with it are read without asking whether they are there. -/
def reportRefusal (engine : Engine) (globalData : GlobalData) (securityLevel : SecurityLevel)
    (peer : Peer) (stateReference : ℕ) (details : StatusInformation) : EngineOp Unit :=
  match details.oid with
  | none => pure ()
  | some oid =>
    match reportedOf details oid with
    | none => raise .keyError
    | some reported => do
      onModel (onCache (pushByStateRef stateReference
        (refusedRequest globalData securityLevel peer reported)))
      ignoringStatus do
        let _ ← prepareResponse engine stateReference (refusedPdu engine details)
          (some (reportingOf details reported))
        pure ()

/-- What the security model has accepted, with its PDU. -/
def securedMessage (engine : Engine) (globalData : GlobalData) (securityLevel : SecurityLevel)
    (peer : Peer) (accepted : AcceptedMessage) : SecuredMessage where
  msgVersion := 3
  msgID := globalData.msgID
  reportableFlag := reportableFlagOf globalData.msgFlags
  msgMaxSize := globalData.msgMaxSize
  peer := peer
  securityModel := globalData.msgSecurityModel
  securityLevel := securityLevel
  securityEngineId := accepted.securityEngineID
  securityName := accepted.securityName
  contextEngineId := accepted.scopedPDU.contextEngineId
  contextName := accepted.scopedPDU.contextName
  pdu := engine.pdus.decode accepted.scopedPDU.data
  maxSizeResponseScopedPDU := accepted.maxSizeResponseScopedPDU
  securityStateReference := accepted.securityStateReference

/-- Whether message processing gives back what the security model keeps of a message: unless it is a
request that is going to be answered, or an exception escapes that is no `StatusInformation`. -/
def Releases (message : SecuredMessage) : Except Raised PreparedMessage → Prop
  | .ok _ => ¬ message.pdu.pduType.isConfirmedClass
  | .error (.statusInformation _) => True
  | .error _ => False

instance (message : SecuredMessage) (result : Except Raised PreparedMessage) :
    Decidable (Releases message result) :=
  match result with
  | .ok _ => inferInstanceAs (Decidable (¬ _))
  | .error (.statusInformation _) => isTrue trivial
  | .error .protocolError => isFalse id
  | .error .pySnmpError => isFalse id
  | .error .pyAsn1Error => isFalse id
  | .error .keyError => isFalse id
  | .error .typeError => isFalse id
  | .error .attributeError => isFalse id
  | .error .otherError => isFalse id

/-- 7.2.7 to 7.2.14: an accepted message, and what the security model keeps of it given back. -/
def deliver (engine : Engine) (message : SecuredMessage) (draws : Draws) :
    EngineOp PreparedMessage := do
  let result ← outcomeOf (onModel (prepareSecuredV3 engine.environment message draws))
  runIf (Releases message result) (onUsm (popCache message.securityStateReference))
  liftExcept result

/-- 7.2.6: the security model and what follows it. -/
def processMessage (engine : Engine) (clock : Clock) (draws : Draws) (peer : Peer)
    (wholeMsg : Octets) (receivedMsg : ReceivedMsg) (securityLevel : SecurityLevel) :
    EngineOp PreparedMessage := do
  let arrival := arrivalOf receivedMsg wholeMsg securityLevel clock
  match ← tryUsm (processIncomingMsg engine.sender.engine arrival) with
  | .ok accepted =>
    deliver engine (securedMessage engine receivedMsg.globalData securityLevel peer accepted) draws
  | .error (.statusInformation details) => do
    reportRefusal engine receivedMsg.globalData securityLevel peer draws.stateReference details
    raise (toRaised (.statusInformation details))
  | .error exception => raise (toRaised exception)

/-- `prepareDataElements`, with the report it sends. -/
def receiveMessage (engine : Engine) (clock : Clock) (draws : Draws) (peer : Peer)
    (wholeMsg : Octets) : EngineOp PreparedMessage :=
  match engine.codec.decodeMsg wholeMsg with
  | .error _ => raise .pyAsn1Error
  | .ok none => raise (.status .parseError)
  | .ok (some receivedMsg) =>
    if engine.environment.securityModels receivedMsg.globalData.msgSecurityModel then
      match securityLevelOf receivedMsg.globalData.msgFlags with
      | none => raise (.status .invalidMsg)
      | some securityLevel =>
        processMessage engine clock draws peer wholeMsg receivedMsg securityLevel
    else
      raise (.status .unsupportedSecurityModel)

/-- A tick of the timer. -/
def receiveTimerTick : EngineOp Unit := do
  onUsm Secmod.UsmOutgoing.receiveTimerTick
  onModel (Mpmod.MessageProcessing.receiveTimerTick .v3)

/-! ### Runs of the parts -/

section Runs

variable {state : EngineState}

@[simp] theorem onModel_run {α : Type} (program : ModelOp α) :
    (onModel program).run state =
      ((program.run state.model).1, { state with model := (program.run state.model).2 }) :=
  rfl

@[simp] theorem tryUsm_run {α : Type} (program : Usm α) :
    (tryUsm program).run state =
      (.ok (program.run state.usm).1, { state with usm := (program.run state.usm).2 }) :=
  rfl

@[simp] theorem onUsm_run {α : Type} (program : Usm α) :
    (onUsm program).run state =
      ((program.run state.usm).1.mapError toRaised,
        { state with usm := (program.run state.usm).2 }) :=
  rfl

@[simp] theorem transmit_run (peer : Peer) (wholeMsg : Octets) :
    (transmit peer wholeMsg).run state =
      (.ok (), { state with outbox := state.outbox ++ [(peer, wholeMsg)] }) :=
  rfl

end Runs

/-! ### Message processing with an answer for the security model -/

/-- The state of message processing is the same before and after. -/
def SameModel (before after : EngineState) : Prop :=
  after.model = before.model

instance : Std.Refl SameModel :=
  ⟨fun _ ↦ rfl⟩

instance : IsTrans EngineState SameModel :=
  ⟨fun _ _ _ hfirst hsecond ↦ hsecond.trans hfirst⟩

theorem sameModel_onUsm {α : Type} (program : Usm α) : Keeps SameModel (onUsm program) :=
  fun _ ↦ rfl

theorem sameModel_transmit (peer : Peer) (wholeMsg : Octets) :
    Keeps SameModel (transmit peer wholeMsg) :=
  fun _ ↦ rfl

theorem sameModel_secureBy {α : Type} (engine : Engine) (securityModel : ℕ) (program : Usm α) :
    Keeps SameModel (secureBy engine securityModel program) :=
  Keeps.ite (sameModel_onUsm program) (keeps_raise _)

/-- The answer that is made once a request has been taken back. -/
def answerRequest (engine : Engine) (cachedParams : ServedRequest) (pdu : Option Pdu)
    (reporting : Option Reporting) : EngineOp Octets := do
  let answer ← liftExcept (answerOf engine cachedParams pdu reporting)
  let message ← secureBy engine cachedParams.securityModel
    (generateRequestOrResponseMsg engine.sender (outgoingAnswer engine cachedParams answer))
  checkAnswerSize engine cachedParams message.authenticatedWholeMsg
  transmit cachedParams.peer message.authenticatedWholeMsg
  pure message.authenticatedWholeMsg

theorem prepareResponse_eq (engine : Engine) (stateReference : ℕ) (pdu : Option Pdu)
    (reporting : Option Reporting) :
    prepareResponse engine stateReference pdu reporting =
      onModel (onCache (popByStateRef stateReference)) >>= fun cachedParams ↦
        answerRequest engine cachedParams pdu reporting :=
  rfl

theorem sameModel_answerRequest (engine : Engine) (cachedParams : ServedRequest)
    (pdu : Option Pdu) (reporting : Option Reporting) :
    Keeps SameModel (answerRequest engine cachedParams pdu reporting) :=
  (keeps_liftExcept _).bind fun _ ↦ (sameModel_secureBy _ _ _).bind fun _ ↦
    (Keeps.ite (keeps_raise _) (keeps_pure _)).bind fun _ ↦
      (sameModel_transmit _ _).bind fun _ ↦ keeps_pure _

/-- The details of the security model name no request of the engine. -/
theorem names_no_request_toRaised (error : UsmError) :
    ∀ details, toRaised error = .statusInformation details → details.sendPduHandle = none := by
  intro details hraised
  cases error with
  | statusInformation found =>
    obtain rfl := Raised.statusInformation.inj hraised
    rfl
  | protocolError text => cases hraised
  | pyAsn1Error => cases hraised
  | otherException => cases hraised

/-- What an accepted message leaves under the reference that is handed on: the user whose security
name it was accepted under. -/
theorem processIncomingMsg_cached {usmEngine : UsmEngine} {arrival : Arrival}
    {usm after : UsmState} {accepted : AcceptedMessage}
    (hrun : (processIncomingMsg usmEngine arrival).run usm = (.ok accepted, after)) :
    ∃ msgUserName user, after.cacheEntries accepted.securityStateReference =
        some ⟨msgUserName, some user⟩ ∧ accepted.securityName = user.usmUserSecurityName := by
  rw [Secmod.StateReferences.processIncomingMsg_eq] at hrun
  obtain ⟨message, identified, hidentify, hverify⟩ := bind_eq_ok_iff.mp hrun
  have hentry : identified.cacheEntries message.securityStateReference =
      some ⟨message.parameters.msgUserName, some message.user⟩ := by
    obtain ⟨parameters, _, -, hidentify⟩ := bind_eq_ok_iff.mp hidentify
    obtain ⟨_, _, -, hidentify⟩ := bind_eq_ok_iff.mp hidentify
    obtain ⟨_, _, -, hidentify⟩ := bind_eq_ok_iff.mp hidentify
    obtain ⟨user, _, -, hidentify⟩ := bind_eq_ok_iff.mp hidentify
    obtain ⟨_, _, -, hidentify⟩ := bind_eq_ok_iff.mp hidentify
    obtain ⟨reference, _, hpush, hidentify⟩ := bind_eq_ok_iff.mp hidentify
    cases hpush
    cases hidentify
    exact Function.update_self ..
  obtain ⟨result, last, hresult, hkept, -⟩ :=
    @Secmod.StateReferences.verifyMessage_run identified usmEngine arrival message
  obtain ⟨-, rfl⟩ := Prod.mk.inj (hverify.symm.trans hresult)
  have hdeliver : ∃ before, (deliverMessage usmEngine arrival message).run before =
      (.ok accepted, after) := by
    unfold Secmod.StateReferences.verifyMessage at hverify
    obtain ⟨_, _, -, hverify⟩ := bind_eq_ok_iff.mp hverify
    split_ifs at hverify
    · obtain ⟨_, _, -, hverify⟩ := bind_eq_ok_iff.mp hverify
      obtain ⟨_, _, -, hverify⟩ := bind_eq_ok_iff.mp hverify
      obtain ⟨_, _, -, hverify⟩ := bind_eq_ok_iff.mp hverify
      exact ⟨_, hverify⟩
    · exact ⟨_, hverify⟩
  obtain ⟨before, hdeliver⟩ := hdeliver
  obtain ⟨scopedPDU, _, -, hdeliver⟩ := bind_eq_ok_iff.mp hdeliver
  split_ifs at hdeliver
  · exact absurd hdeliver Secmod.UsmAcceptance.countAndRaise_ne_ok
  · cases hdeliver
    exact ⟨_, message.user, by rw [hkept]; exact hentry, rfl⟩

/-- A request that is kept under a reference not in use is taken back at once, and the references in
use are the same as before. -/
theorem push_popByStateRef_run {model : Model} {stateReference : ℕ} (served : ServedRequest)
    (hmissing : model.cache.stateReferenceIndex.lookup stateReference = none) :
    ∃ pushed popped, (onCache (pushByStateRef stateReference served)).run model =
        (.ok (), pushed) ∧
      (onCache (popByStateRef stateReference)).run pushed = (.ok served, popped) ∧
      ∀ other, popped.cache.stateReferenceIndex.lookup other =
        model.cache.stateReferenceIndex.lookup other := by
  let pushed := ((pushByStateRef stateReference served).run model.cache).2
  have hpush := pushByStateRef_run_of_missing served hmissing
  have hentry : pushed.stateReferenceIndex.lookup stateReference =
      some (served, model.cache.expirationTimer + 600) := by
    simp only [pushed, hpush]
    rw [Dict.lookup_insert_ite, if_pos rfl]
  have hlisted : stateReference ∈
      (pushed.expirationQueue (model.cache.expirationTimer + 600)).stateReferences := by
    simp [pushed, hpush]
  have hpop := popByStateRef_run hentry hlisted
  refine ⟨{ model with cache := pushed }, _, ?_, by
    rw [RejectedMessage.onCache_run, hpop], fun other ↦ ?_⟩
  · rw [RejectedMessage.onCache_run, hpush]
    simp only [pushed, hpush]
  · have hindex : pushed.stateReferenceIndex = model.cache.stateReferenceIndex.insert
        stateReference (served, model.cache.expirationTimer + 600) := by
      simp only [pushed, hpush]
    simp only [hindex]
    rw [Dict.lookup_erase_ite, Dict.lookup_insert_ite]
    split_ifs with hother
    · rw [hother, hmissing]
    · rfl

/-- What comes of a program that is followed by an exception. -/
theorem bind_raise_run {σ α β : Type} {program : Effect σ Raised α} {state after : σ}
    {result : Except Raised α} (hrun : program.run state = (result, after)) (exception : Raised) :
    (program >>= fun _ ↦ (raise exception : Effect σ Raised β)).run state =
      (result >>= fun _ ↦ .error exception, after) := by
  cases result with
  | ok value => exact bind_run_of_ok hrun
  | error raised => exact bind_run_of_error hrun

/-- The exception of a result, if it is one. -/
def failureOf {α : Type} : Except Raised α → Option Raised
  | .ok _ => none
  | .error exception => some exception

/-- What is left of a result when a `StatusInformation` is ignored. -/
def withoutStatus {α : Type} : Except Raised α → Except Raised Unit
  | .ok _ => .ok ()
  | .error (.statusInformation _) => .ok ()
  | .error exception => .error exception

theorem ignoringStatus_run {α : Type} (program : EngineOp α) (state : EngineState) :
    (ignoringStatus (program >>= fun _ ↦ pure ())).run state =
      (withoutStatus (program.run state).1, (program.run state).2) := by
  unfold ignoringStatus
  rcases ok_or_error program state with ⟨value, after, hok⟩ | ⟨exception, after, herror⟩
  · rw [handle_run_of_ok (by rw [bind_run_of_ok hok, pure_run]), hok]
    rfl
  · rw [handle_run_of_error (bind_run_of_error herror), herror]
    cases exception with
    | statusInformation details => rfl
    | protocolError | pySnmpError | pyAsn1Error | keyError | typeError | attributeError
      | otherError => rfl

/-- A report whose sending ends with the result is sent with what is left of it. -/
theorem sendReport_run {α : Type} {model pushed popped : Model} {stateReference : ℕ}
    {served : ServedRequest} (result : Except Raised α)
    (hpush : (onCache (pushByStateRef stateReference served)).run model = (.ok (), pushed))
    (hpop : (onCache (popByStateRef stateReference)).run pushed = (.ok served, popped)) :
    (sendReport ⟨stateReference, served, failureOf result⟩).run model =
      (withoutStatus result, popped) := by
  unfold sendReport
  rw [bind_run_of_ok hpush, bind_run_of_ok hpop]
  cases result with
  | ok value => rfl
  | error exception =>
    cases exception with
    | statusInformation details => rfl
    | protocolError | pySnmpError | pyAsn1Error | keyError | typeError | attributeError
      | otherError => rfl

/-- A refusal with its report. -/
theorem exists_refusal_of_sent {model after : Model} {report : Report} {exception : Raised}
    {result : Except Raised Unit}
    (hnames : ∀ details, exception = .statusInformation details → details.sendPduHandle = none)
    (hsent : (sendReport report).run model = (result, after)) :
    ∃ refusal, (refuse refusal).run model = (result >>= fun _ ↦ .error exception, after) :=
  ⟨⟨exception, some report, hnames⟩, bind_raise_run hsent exception⟩

/-- A reference in use is not used for a report. -/
theorem reportRefusal_run_of_used {engine : Engine} {globalData : GlobalData}
    {securityLevel : SecurityLevel} {peer : Peer} {stateReference : ℕ}
    {details : StatusInformation} {oid : Oid} {reported : Reported} {state : EngineState}
    {entry : ServedRequest × ℕ} (hoid : details.oid = some oid)
    (hreported : reportedOf details oid = some reported)
    (hused : state.model.cache.stateReferenceIndex.lookup stateReference = some entry) :
    (reportRefusal engine globalData securityLevel peer stateReference details).run state =
        (.error .protocolError, state) ∧
      (sendReport ⟨stateReference, refusedRequest globalData securityLevel peer reported,
        none⟩).run state.model = (.error .protocolError, state.model) := by
  have hpush : (onCache (pushByStateRef stateReference
      (refusedRequest globalData securityLevel peer reported))).run state.model =
        (.error .protocolError, state.model) := by
    rw [RejectedMessage.onCache_run]
    unfold pushByStateRef
    rw [bind_run_of_ok (gets_run _ _), hused]
    rfl
  constructor
  · unfold reportRefusal
    simp only [hoid, hreported]
    exact bind_run_of_error (by rw [onModel_run, hpush])
  · exact bind_run_of_error hpush

/-- A report is an answer under a reference that is taken for it and is free again afterwards. -/
theorem reportRefusal_run_of_unused {engine : Engine} {globalData : GlobalData}
    {securityLevel : SecurityLevel} {peer : Peer} {stateReference : ℕ}
    {details : StatusInformation} {oid : Oid} {reported : Reported} {state : EngineState}
    (hoid : details.oid = some oid) (hreported : reportedOf details oid = some reported)
    (hunused : state.model.cache.stateReferenceIndex.lookup stateReference = none) :
    ∃ popped, (∀ other, popped.cache.stateReferenceIndex.lookup other =
        state.model.cache.stateReferenceIndex.lookup other) ∧
      let served := refusedRequest globalData securityLevel peer reported
      let answered := (answerRequest engine served (refusedPdu engine details)
        (some (reportingOf details reported))).run { state with model := popped }
      (reportRefusal engine globalData securityLevel peer stateReference details).run state =
          (withoutStatus answered.1, answered.2) ∧
        (sendReport ⟨stateReference, served, failureOf answered.1⟩).run state.model =
          (withoutStatus answered.1, answered.2.model) := by
  obtain ⟨pushed, popped, hpush, hpop, hsame⟩ := push_popByStateRef_run
    (refusedRequest globalData securityLevel peer reported) hunused
  refine ⟨popped, hsame, ?_⟩
  have hmodel := sameModel_answerRequest engine
    (refusedRequest globalData securityLevel peer reported) (refusedPdu engine details)
    (some (reportingOf details reported)) { state with model := popped }
  have htake : (onModel (onCache (popByStateRef stateReference))).run
      { state with model := pushed } =
        (.ok (refusedRequest globalData securityLevel peer reported),
          { state with model := popped }) := by
    rw [onModel_run, hpop]
  dsimp only
  constructor
  · unfold reportRefusal
    simp only [hoid, hreported]
    rw [bind_run_of_ok (by rw [onModel_run, hpush]), ignoringStatus_run, prepareResponse_eq,
      bind_run_of_ok htake]
  · rw [sendReport_run _ hpush hpop, hmodel]

/-- The report about a refused message is what message processing makes of the refusal, given how
the security model fails to secure the report, if it does. -/
theorem reportRefusal_refines (engine : Engine) (globalData : GlobalData)
    (securityLevel : SecurityLevel) (peer : Peer) (draws : Draws) (details : StatusInformation)
    (state : EngineState) :
    let ran := (reportRefusal engine globalData securityLevel peer draws.stateReference details >>=
      fun _ ↦ (raise (toRaised (.statusInformation details)) :
        EngineOp PreparedMessage)).run state
    ran.1 = .error .keyError ∧ ran.2.model = state.model ∨
      ∃ refusal, (refuse refusal).run state.model = (ran.1, ran.2.model) := by
  have hnames := names_no_request_toRaised (.statusInformation details)
  dsimp only
  cases hoid : details.oid with
  | none =>
    refine Or.inr ⟨⟨_, none, hnames⟩, ?_⟩
    unfold reportRefusal
    simp only [hoid]
    rfl
  | some oid =>
    cases hreported : reportedOf details oid with
    | none =>
      left
      unfold reportRefusal
      simp only [hoid, hreported]
      exact ⟨rfl, rfl⟩
    | some reported =>
      right
      cases hindex : state.model.cache.stateReferenceIndex.lookup draws.stateReference with
      | none =>
        obtain ⟨popped, -, hrun, hsent⟩ :=
          @reportRefusal_run_of_unused engine globalData securityLevel peer draws.stateReference
            details oid reported state hoid hreported hindex
        rw [bind_raise_run hrun]
        exact exists_refusal_of_sent hnames hsent
      | some entry =>
        obtain ⟨hrun, hsent⟩ := @reportRefusal_run_of_used engine globalData securityLevel peer
          draws.stateReference details oid reported state entry hoid hreported hindex
        rw [bind_raise_run hrun]
        exact exists_refusal_of_sent hnames hsent

/-- The security model without an entry of its cache. -/
def droppedEntry (reference : ℕ) (usm : UsmState) : UsmState :=
  { usm with cacheEntries := Function.update usm.cacheEntries reference none }

/-- What is left of the cache of the security model once message processing has given back what it
does not need. -/
def releasedState (message : SecuredMessage) (result : Except Raised PreparedMessage)
    (usm : UsmState) : UsmState :=
  if Releases message result then droppedEntry message.securityStateReference usm else usm

/-- Delivering a message is message processing of it, and what the security model keeps is there to
be given back. -/
theorem deliver_run {engine : Engine} {message : SecuredMessage} {draws : Draws}
    {state : EngineState} {data : CachedSecurityData}
    (hcached : state.usm.cacheEntries message.securityStateReference = some data) :
    let prepared := (prepareSecuredV3 engine.environment message draws).run state.model
    (deliver engine message draws).run state = (prepared.1, { state with
      model := prepared.2
      usm := releasedState message prepared.1 state.usm }) := by
  let prepared := (prepareSecuredV3 engine.environment message draws).run state.model
  have hprepare : (outcomeOf (onModel (prepareSecuredV3 engine.environment message draws))).run
      state = (.ok prepared.1, { state with model := prepared.2 }) := rfl
  dsimp only
  unfold deliver releasedState
  rw [bind_run_of_ok hprepare]
  by_cases hreleases : Releases message prepared.1
  · have hrelease : (onUsm (popCache message.securityStateReference)).run
        { state with model := prepared.2 } = (.ok (), { state with
          model := prepared.2
          usm := droppedEntry message.securityStateReference state.usm }) := by
      rw [onUsm_run, Secmod.StateReferences.popCache_run hcached]
      rfl
    rw [runIf_of_true _ hreleases, bind_run_of_ok hrelease, if_pos hreleases]
    rfl
  · rw [runIf_of_false _ hreleases, pure_bind, if_neg hreleases]
    rfl

/-- An accepted message is delivered. -/
theorem processMessage_run_of_accepted {engine : Engine} {clock : Clock} {draws : Draws}
    {peer : Peer} {wholeMsg : Octets} {receivedMsg : ReceivedMsg} {securityLevel : SecurityLevel}
    {state : EngineState} {accepted : AcceptedMessage} {usm : UsmState}
    (haccepted : (processIncomingMsg engine.sender.engine
      (arrivalOf receivedMsg wholeMsg securityLevel clock)).run state.usm = (.ok accepted, usm)) :
    let message := securedMessage engine receivedMsg.globalData securityLevel peer accepted
    let prepared := (prepareSecuredV3 engine.environment message draws).run state.model
    (processMessage engine clock draws peer wholeMsg receivedMsg securityLevel).run state =
      (prepared.1, { state with
        model := prepared.2
        usm := releasedState message prepared.1 usm }) := by
  have htry : (tryUsm (processIncomingMsg engine.sender.engine
      (arrivalOf receivedMsg wholeMsg securityLevel clock))).run state =
        (.ok (.ok accepted), { state with usm }) := by rw [tryUsm_run, haccepted]
  obtain ⟨msgUserName, user, hcached, -⟩ := processIncomingMsg_cached haccepted
  dsimp only
  unfold processMessage
  rw [bind_run_of_ok htry]
  exact @deliver_run engine
    (securedMessage engine receivedMsg.globalData securityLevel peer accepted) draws
    { state with usm } _ hcached

/-- A refused message is reported about, and then the refusal is raised. -/
theorem processMessage_run_of_refused {engine : Engine} {clock : Clock} {draws : Draws}
    {peer : Peer} {wholeMsg : Octets} {receivedMsg : ReceivedMsg} {securityLevel : SecurityLevel}
    {state : EngineState} {details : StatusInformation} {usm : UsmState}
    (hrefused : (processIncomingMsg engine.sender.engine
      (arrivalOf receivedMsg wholeMsg securityLevel clock)).run state.usm =
        (.error (.statusInformation details), usm)) :
    (processMessage engine clock draws peer wholeMsg receivedMsg securityLevel).run state =
      (reportRefusal engine receivedMsg.globalData securityLevel peer draws.stateReference details
        >>= fun _ ↦ (raise (toRaised (.statusInformation details)) :
          EngineOp PreparedMessage)).run { state with usm } := by
  have htry : (tryUsm (processIncomingMsg engine.sender.engine
      (arrivalOf receivedMsg wholeMsg securityLevel clock))).run state =
        (.ok (.error (.statusInformation details)), { state with usm }) := by
    rw [tryUsm_run, hrefused]
  unfold processMessage
  rw [bind_run_of_ok htry]

/-- Another exception of the security model is raised. -/
theorem processMessage_run_of_escaped {engine : Engine} {clock : Clock} {draws : Draws}
    {peer : Peer} {wholeMsg : Octets} {receivedMsg : ReceivedMsg} {securityLevel : SecurityLevel}
    {state : EngineState} {exception : UsmError} {usm : UsmState}
    (hraised : (processIncomingMsg engine.sender.engine
      (arrivalOf receivedMsg wholeMsg securityLevel clock)).run state.usm =
        (.error exception, usm))
    (hescapes : ∀ details, exception ≠ .statusInformation details) :
    (processMessage engine clock draws peer wholeMsg receivedMsg securityLevel).run state =
      (.error (toRaised exception), { state with usm }) := by
  have htry : (tryUsm (processIncomingMsg engine.sender.engine
      (arrivalOf receivedMsg wholeMsg securityLevel clock))).run state =
        (.ok (.error exception), { state with usm }) := by
    rw [tryUsm_run, hraised]
  unfold processMessage
  rw [bind_run_of_ok htry]
  cases exception with
  | statusInformation details => exact absurd rfl (hescapes details)
  | protocolError text => rfl
  | pyAsn1Error => rfl
  | otherException => rfl

/-- An accepted message comes from the peer. -/
def IsFrom (peer : Peer) : IncomingMessage → Prop
  | .refused _ => True
  | .secured message => message.peer = peer

/-- Once its header has been read, an engine makes of a message what message processing makes of the
refusal or the accepted message, or it leaves message processing alone. -/
theorem processMessage_refines (engine : Engine) (clock : Clock) (draws : Draws) (peer : Peer)
    (wholeMsg : Octets) (receivedMsg : ReceivedMsg) (securityLevel : SecurityLevel)
    (state : EngineState) :
    let ran := (processMessage engine clock draws peer wholeMsg receivedMsg securityLevel).run state
    (∃ exception, ran.1 = .error exception ∧ ran.2.model = state.model) ∨
      ∃ incoming, IsFrom peer incoming ∧
        (prepareDataElements .v3 engine.environment incoming draws).run state.model =
          (ran.1, ran.2.model) := by
  dsimp only
  rcases ok_or_error (processIncomingMsg engine.sender.engine
      (arrivalOf receivedMsg wholeMsg securityLevel clock)) state.usm with
    ⟨accepted, after, hok⟩ | ⟨exception, after, herror⟩
  · rw [processMessage_run_of_accepted hok]
    exact Or.inr ⟨.secured (securedMessage engine receivedMsg.globalData securityLevel peer
      accepted), rfl, rfl⟩
  · by_cases hstatus : ∃ details, exception = .statusInformation details
    · obtain ⟨details, rfl⟩ := hstatus
      rw [processMessage_run_of_refused herror]
      rcases reportRefusal_refines engine receivedMsg.globalData securityLevel peer draws
        details { state with usm := after } with ⟨hkey, hmodel⟩ | ⟨refusal, hrefuse⟩
      · exact Or.inl ⟨_, hkey, hmodel⟩
      · exact Or.inr ⟨.refused refusal, trivial, hrefuse⟩
    · rw [processMessage_run_of_escaped herror (not_exists.mp hstatus)]
      exact Or.inl ⟨_, rfl, rfl⟩

/-- What an engine makes of a message is message processing of what the security model makes of it:
of a refusal, or of an accepted message. A message that ends before has left message processing
alone. -/
theorem receiveMessage_refines (engine : Engine) (clock : Clock) (draws : Draws) (peer : Peer)
    (wholeMsg : Octets) (state : EngineState) :
    let ran := (receiveMessage engine clock draws peer wholeMsg).run state
    (∃ exception, ran.1 = .error exception ∧ ran.2.model = state.model) ∨
      ∃ incoming, IsFrom peer incoming ∧
        (prepareDataElements .v3 engine.environment incoming draws).run state.model =
          (ran.1, ran.2.model) := by
  unfold receiveMessage
  split
  · exact Or.inl ⟨_, rfl, rfl⟩
  · exact Or.inl ⟨_, rfl, rfl⟩
  · next receivedMsg _ =>
    split_ifs
    · split
      · exact Or.inl ⟨_, rfl, rfl⟩
      · next securityLevel _ =>
        exact processMessage_refines engine clock draws peer wholeMsg receivedMsg securityLevel
          state
    · exact Or.inl ⟨_, rfl, rfl⟩

end Pysnmp.Proto.V3Engine
