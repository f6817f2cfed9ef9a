import Pysnmp.Proto.Mpmod.SentRequests
import Pysnmp.Proto.V3Engine

/-!
# Two engines

What passes between a manager and an agent, each an engine of `V3Engine` in whatever state it is in.
A manager that does not know the engine of a peer sends a probe, learns the engine identifier from
the report that comes back (`receiveMessage_of_probe`) and the boots and time from the report about
its first authenticated request (`receiveMessage_of_late_request`). A request within the window is
delivered as it was sent and kept for its response (`receiveMessage_of_request`), and the response
comes back to the request that it answers (`receiveMessage_of_response`).

Between these steps either engine may do anything else: of the manager it is only asked that it
still awaits an answer to its message (`Awaits`), and of the agent that it still serves the request.
-/

set_option autoImplicit false
set_option relaxedAutoImplicit false

namespace Pysnmp.Proto.V3Exchange

open Foundation Foundation.Effect Mpmod Mpmod.Cache Mpmod.CacheHistory Mpmod.MessageProcessing
open Secmod.UsmService hiding reportDetails
open Secmod.UsmOutgoing hiding receiveTimerTick
open Secmod.UsmAcceptance Secmod.UsmTimeline Secmod.StateReferences
open Secmod.WireFormat Secmod.UsmExchange PduFormat V3Engine

/-! ### Engines with one language -/

/-- The engine writes and reads messages and PDUs as the codecs do, has the digest services, and its
identifier and its message size are such as messages have room for. -/
structure Speaks (codec : MessageCodec) (pdus : PduCodec)
    (digests : Oid → Option Secmod.DigestPlacement.DigestService) (engine : Engine) : Prop where
  codec_eq : engine.codec = codec
  pdus_eq : engine.pdus = pdus
  agree : Agree codec digests engine.sender engine.sender.engine
  engineId_length : 4 < engine.snmpEngineID.length ∧ engine.snmpEngineID.length < 33
  maxSize_ge : 484 ≤ engine.snmpEngineMaxMessageSize
  maxSize_le : engine.snmpEngineMaxMessageSize ≤ 2147483647

section Language

variable {codec : MessageCodec} {pdus : PduCodec}
  {digests : Oid → Option Secmod.DigestPlacement.DigestService} {engine peerEngine : Engine}

theorem Speaks.agree_with (hspeaks : Speaks codec pdus digests engine)
    (hpeer : Speaks codec pdus digests peerEngine) :
    Agree codec digests engine.sender peerEngine.sender.engine where
  encodeScopedPdu := hspeaks.agree.encodeScopedPdu
  encodeMsg := hspeaks.agree.encodeMsg
  decodeSecurityParameters := hpeer.agree.decodeSecurityParameters
  decodeScopedPdu := hpeer.agree.decodeScopedPdu
  signs := hspeaks.agree.signs
  verifies := hpeer.agree.verifies

theorem Speaks.engineId_ne_nil (hspeaks : Speaks codec pdus digests engine) :
    engine.snmpEngineID ≠ [] :=
  List.ne_nil_of_length_pos (Nat.lt_of_le_of_lt (Nat.zero_le 4) hspeaks.engineId_length.1)

/-- The headers of an engine are within the ranges of their components. -/
theorem Speaks.inRange (hspeaks : Speaks codec pdus digests engine) {msgID : ℤ}
    (hmsgID : 0 ≤ msgID ∧ msgID ≤ 2147483647) (securityLevel : SecurityLevel) (pduType : PduType) :
    InRange (assembleMsgHeader engine msgID securityLevel 3 pduType) where
  msgID_nonneg := hmsgID.1
  msgID_le := hmsgID.2
  msgMaxSize_ge := Int.ofNat_le.mpr hspeaks.maxSize_ge
  msgMaxSize_le := Int.ofNat_le.mpr hspeaks.maxSize_le
  msgSecurityModel_ge := le_rfl
  msgSecurityModel_le := by norm_num [assembleMsgHeader]

end Language

/-! ### Requests that are awaited -/

/-- An answer to the message with the identifier is awaited by the request. -/
def Awaits (model : Model) (msgID : ℤ) (sent : SentRequest) : Prop :=
  ∃ cache, (popByMsgId msgID).run model.cache = (.ok sent, cache)

theorem Awaits.popRequest_run {model : Model} {msgID : ℤ} {sent : SentRequest}
    (hawaits : Awaits model msgID sent) :
    ∃ cache, (popRequest msgID).run model = (.ok sent, { model with cache }) := by
  obtain ⟨cache, hpop⟩ := hawaits
  refine ⟨cache, ?_⟩
  unfold popRequest
  rw [handle_run_of_ok (by rw [RejectedMessage.onCache_run, hpop])]

/-- A request that is kept is awaited. -/
theorem awaits_of_withSent {model : Model} {msgID : ℤ} {sent : SentRequest} :
    Awaits { model with cache := model.cache.withSent msgID sent } msgID sent := by
  refine ⟨_, popByMsgId_eq_ok_iff.mpr ⟨model.cache.expirationTimer + 600, ?_, ?_, ?_, rfl⟩⟩
  · simp
  · simp
  · simp [SentRequests.withSent_msgIds]

/-- Sniffing an engine identifier leaves the requests that are awaited. -/
theorem Awaits.of_cache_eq {model after : Model} {msgID : ℤ} {sent : SentRequest}
    (hawaits : Awaits model msgID sent) (hcache : after.cache = model.cache) :
    Awaits after msgID sent := by
  unfold Awaits
  rw [hcache]
  exact hawaits

/-! ### What is sent -/

section Sending

variable {engine : Engine} {state after : EngineState}

/-- What an engine keeps of a request that it sends. -/
def keptRequest (engine : Engine) (request : OutgoingRequest) (peerEngine : Option PeerEngine)
    (msgID : ℤ) : SentRequest :=
  sentRequest engine.environment request msgID
    (contextEngineIdOf engine.environment peerEngine request.contextEngineId)

/-- A message is prepared by the security model, and a request with a response is kept. -/
theorem prepareOutgoingMessageV3_eq_ok {environment : Environment} {request : OutgoingRequest}
    {securing : Securing} {msgID : ℤ} {model after : Model} {wholeMsg : Octets}
    (hconfirmed : request.pdu.pduType.isConfirmedClass = true)
    (hrun : (prepareOutgoingMessageV3 environment request securing msgID).run model =
      (.ok wholeMsg, after)) :
    environment.securityModels request.securityModel = true ∧
      securing.generateRequestMsg = .ok wholeMsg ∧
      after = { model with cache :=
        model.cache.withSent msgID (sentRequest environment request msgID
        (contextEngineIdOf environment (model.engineIdCache request.peer)
          request.contextEngineId)) } := by
  unfold prepareOutgoingMessageV3 at hrun
  rw [bind_run_of_ok (gets_run _ _)] at hrun
  obtain ⟨secured, first, hsecure, hrun⟩ := bind_eq_ok_iff.mp hrun
  obtain ⟨_, second, hsize, hrun⟩ := bind_eq_ok_iff.mp hrun
  obtain ⟨_, third, hrecord, hrun⟩ := bind_eq_ok_iff.mp hrun
  cases hrun
  obtain rfl : second = first := by
    unfold checkMessageSize runIf at hsize
    split_ifs at hsize
    · cases hsize
    · cases hsize
      rfl
  obtain ⟨hmodel, hgenerated, rfl⟩ : environment.securityModels request.securityModel = true ∧
      securing.generateRequestMsg = .ok wholeMsg ∧ second = model := by
    obtain ⟨_, assembled, hassemble, hsecure⟩ := bind_eq_ok_iff.mp hsecure
    split_ifs at hsecure with hmodel
    · cases hassembled : securing.assembled with
      | error exception =>
        rw [hassembled] at hassemble
        cases hassemble
      | ok done =>
        rw [hassembled] at hassemble
        cases hassemble
        cases hgenerated : securing.generateRequestMsg with
        | error exception =>
          rw [hgenerated] at hsecure
          cases hsecure
        | ok found =>
          rw [hgenerated] at hsecure
          cases hsecure
          exact ⟨hmodel, rfl, rfl⟩
    · cases hsecure
  refine ⟨hmodel, hgenerated, ?_⟩
  unfold recordRequest at hrecord
  rw [runIf_of_true _ hconfirmed, RejectedMessage.onCache_run] at hrecord
  cases hentry : second.cache.msgIdIndex.lookup msgID with
  | none =>
    rw [SentRequests.pushByMsgId_run_of_missing hentry] at hrecord
    cases hrecord
    rfl
  | some entry =>
    rw [SentRequests.pushByMsgId_run_of_indexed (Option.isSome_of_eq_some hentry)] at hrecord
    cases hrecord

/-- A request that is sent has been made a message by the security model, and is awaited then. -/
theorem sendRequest_eq_ok {request : OutgoingRequest} {msgID : ℤ} {wholeMsg : Octets}
    (hconfirmed : request.pdu.pduType.isConfirmedClass = true)
    (hsent : (sendRequest engine request msgID).run state = (.ok wholeMsg, after)) :
    let peerEngine := state.model.engineIdCache request.peer
    request.securityModel = 3 ∧ ∃ message,
      (generateRequestMsg engine.sender (outgoingRequest engine request peerEngine msgID)).run
        state.usm = (.ok message, after.usm) ∧
      message.authenticatedWholeMsg = wholeMsg ∧
      after.model = { state.model with
        cache := state.model.cache.withSent msgID
          (keptRequest engine request peerEngine msgID) } := by
  unfold sendRequest at hsent
  rw [bind_run_of_ok (gets_run _ _)] at hsent
  obtain ⟨result, secured, hsecure, hsent⟩ := bind_eq_ok_iff.mp hsent
  obtain ⟨sentMsg, kept, hkeep, hsent⟩ := bind_eq_ok_iff.mp hsent
  rw [bind_run_of_ok (transmit_run _ _)] at hsent
  cases hsent
  rw [onModel_run] at hkeep
  obtain ⟨hkept, rfl⟩ := Prod.mk.inj hkeep
  obtain ⟨hmodel, hgenerated, hafter⟩ := prepareOutgoingMessageV3_eq_ok hconfirmed
    (Prod.ext hkept rfl)
  have hthree : request.securityModel = 3 := of_decide_eq_true hmodel
  rw [secureBy, if_pos hmodel, outcomeOf_run, onUsm_run] at hsecure
  obtain ⟨hresult, rfl⟩ := Prod.mk.inj hsecure
  rw [← Except.ok.inj hresult] at hgenerated
  refine ⟨hthree, ?_⟩
  rcases ok_or_error (generateRequestMsg engine.sender
      (outgoingRequest engine request (state.model.engineIdCache request.peer) msgID))
        state.usm with
    ⟨message, usm, hok⟩ | ⟨exception, usm, herror⟩
  · rw [hok] at hgenerated ⊢
    exact ⟨message, rfl, Except.ok.inj hgenerated, hafter⟩
  · rw [herror] at hgenerated
    cases hgenerated

/-- A request that is sent is awaited. -/
theorem awaits_of_sendRequest {request : OutgoingRequest} {msgID : ℤ} {wholeMsg : Octets}
    (hconfirmed : request.pdu.pduType.isConfirmedClass = true)
    (hsent : (sendRequest engine request msgID).run state = (.ok wholeMsg, after)) :
    Awaits after.model msgID
      (keptRequest engine request (state.model.engineIdCache request.peer) msgID) := by
  obtain ⟨-, _, -, -, hmodel⟩ := sendRequest_eq_ok hconfirmed hsent
  rw [hmodel]
  exact awaits_of_withSent

end Sending

/-! ### What is received -/

/-- What the sender makes for a user reaches the receiver: it is understood there, within the ranges
of its components, and for a user that the receiver has; a message to the receiver itself has the
level of the user. -/
structure Reaches (codec : MessageCodec)
    (digests : Oid → Option Secmod.DigestPlacement.DigestService) (sender : UsmSender)
    (engine : UsmEngine) (selected : Selected) (times : ℕ × ℕ) (user : UsmUser) : Prop where
  understood : Understood codec digests sender engine selected times user
  inRange : ∀ privParameters, ParametersInRange (parametersOf selected times privParameters)
  user_eq : userNamed engine selected.securityEngineID selected.user.usmUserName = .ok user
  level : selected.securityEngineID = engine.snmpEngineID →
    impliedSecurityLevel user = some selected.securityLevel

/-- The boots and time of a message are in the window of the receiver: the local one of a message
to itself, else the one of the peer that the message comes from. -/
def Timely (engine : UsmEngine) (selected : Selected) (times : ℕ × ℕ) (clock : Clock) : Prop :=
  selected.securityLevel.isAuthenticated = true →
    if selected.securityEngineID = engine.snmpEngineID then
      TimesInWindow engine (parametersOf selected times [])
    else
      times.1 ≠ maxEngineBoots ∧ |(clock.comparedAt : ℤ) - clock.synchronizedAt| ≤ timeWindow

section Receiving

variable {codec : MessageCodec} {pdus : PduCodec}
  {digests : Oid → Option Secmod.DigestPlacement.DigestService} {sender : UsmSender}
  {engine : Engine} {outgoing : Outgoing} {before after : UsmState} {selected : Selected}
  {message : OutgoingMessage} {user : UsmUser} {receivedMsg : ReceivedMsg}
  {securityLevel : SecurityLevel}

theorem receiveMessage_eq_processMessage {wholeMsg : Octets}
    (hdecode : engine.codec.decodeMsg wholeMsg = .ok (some receivedMsg))
    (hmodel : receivedMsg.globalData.msgSecurityModel = 3)
    (hlevel : securityLevelOf receivedMsg.globalData.msgFlags = some securityLevel)
    (clock : Clock) (draws : Draws) (peer : Peer) :
    receiveMessage engine clock draws peer wholeMsg =
      processMessage engine clock draws peer wholeMsg receivedMsg securityLevel := by
  have hthere : engine.environment.securityModels receivedMsg.globalData.msgSecurityModel = true :=
    decide_eq_true hmodel
  unfold receiveMessage
  simp only [hdecode, hlevel]
  rw [if_pos hthere]

theorem isOf_arrivalOf (hlevel : securityLevelOf receivedMsg.globalData.msgFlags =
    some securityLevel) (wholeMsg : Octets) (clock : Clock) :
    IsOf (arrivalOf receivedMsg wholeMsg securityLevel clock) receivedMsg where
  maxMessageSize := rfl
  securityParameters := rfl
  securityLevel := hlevel
  scopedPduData := rfl

/-- What the security model of the receiver hands on of a message. -/
structure AcceptedOf (selected : Selected) (user : UsmUser) (accepted : AcceptedMessage) :
    Prop where
  securityEngineID : accepted.securityEngineID = selected.securityEngineID
  securityName : accepted.securityName = user.usmUserSecurityName
  scopedPDU : accepted.scopedPDU = selected.scopedPDU

/-- The boots and time of a message as they are kept. -/
def keptTimes (times : ℕ × ℕ) (clock : Clock) : TimelineEntry where
  engineBoots := times.1
  engineTime := times.2
  latestReceivedEngineTime := times.2
  latestUpdateTimestamp := clock.synchronizedAt

/-- What the security model of the receiver keeps of a message: its user for an answer, and at a
level with authentication the boots and time. -/
structure KeptOf (selected : Selected) (times : ℕ × ℕ) (user : UsmUser) (clock : Clock)
    (accepted : AcceptedMessage) (receiver usm : UsmState) : Prop where
  cacheEntries : usm.cacheEntries accepted.securityStateReference =
    some ⟨selected.user.usmUserName, some user⟩
  timeline : usm.timeline =
    if selected.securityLevel.isAuthenticated = true then
      Function.update receiver.timeline selected.securityEngineID (some (keptTimes times clock))
    else
      receiver.timeline

/-- A message that reaches an engine in time is handed to message processing there. -/
theorem receiveMessage_run_of_made (hspeaks : Speaks codec pdus digests engine)
    (hselect : (selectUser sender outgoing).run before = (.ok selected, after))
    (hmade : (generateRequestOrResponseMsg sender outgoing).run before = (.ok message, after))
    (hreaches : Reaches codec digests sender engine.sender.engine selected
      (timesOf sender selected outgoing.pduType after) user)
    (hmodel : selected.globalData.msgSecurityModel = 3)
    (hlength : 4 < selected.securityEngineID.length ∧ selected.securityEngineID.length < 33)
    {clock : Clock} (htimely : Timely engine.sender.engine selected
      (timesOf sender selected outgoing.pduType after) clock)
    (draws : Draws) (peer : Peer) (receiver : EngineState) :
    ∃ accepted usm, AcceptedOf selected user accepted ∧
      KeptOf selected (timesOf sender selected outgoing.pduType after) user clock accepted
        receiver.usm usm ∧
      let incoming := securedMessage engine selected.globalData selected.securityLevel peer accepted
      ∀ result model, (prepareSecuredV3 engine.environment incoming draws).run receiver.model =
          (result, model) →
        (receiveMessage engine clock draws peer message.authenticatedWholeMsg).run receiver =
          (result, { receiver with model, usm := releasedState incoming result usm }) := by
  obtain ⟨hunderstood, hinRange, huser, hlevel⟩ := hreaches
  obtain ⟨found, _, privParameters, hfound, -, hparameters, -⟩ :=
    generateRequestOrResponseMsg_eq_ok hmade
  obtain rfl : selected = found := Except.ok.inj (Prod.mk.inj (hselect.symm.trans hfound)).1
  have hrange : ParametersInRange message.parameters := by
    rw [hparameters]
    exact hinRange privParameters
  have hne : selected.securityEngineID ≠ [] :=
    List.ne_nil_of_length_pos (Nat.lt_of_le_of_lt (Nat.zero_le 4) hlength.1)
  obtain ⟨receivedMsg, digest, hdecode, hglobal, haccepted⟩ := processIncomingMsg_of_made hselect
    hmade hunderstood hrange hne huser (fun hid ↦ ⟨hlevel hid, fun hauthenticated ↦ by
      have hwindow := htimely hauthenticated
      rw [if_pos hid] at hwindow
      rw [hparameters]
      exact hwindow⟩)
  have hflags : securityLevelOf receivedMsg.globalData.msgFlags = some selected.securityLevel := by
    rw [hglobal]
    exact hunderstood.flags
  have hengineId : (received message.parameters digest hrange).msgAuthoritativeEngineId =
      selected.securityEngineID := congrArg OutgoingParameters.msgAuthoritativeEngineId hparameters
  let arrival := arrivalOf receivedMsg message.authenticatedWholeMsg selected.securityLevel clock
  have hrun := haccepted arrival receiver.usm rfl (isOf_arrivalOf hflags _ clock)
    (namesEngine_of_length (by rw [hengineId]; exact hlength)) (fun hpeer hauthenticated ↦ by
      have hwindow := htimely hauthenticated
      rw [if_neg hpeer] at hwindow
      refine ⟨?_, hwindow.2⟩
      change message.parameters.msgAuthoritativeEngineBoots ≠ maxEngineBoots
      rw [hparameters]
      exact hwindow.1)
  refine ⟨acceptedMessage engine.sender.engine arrival (received message.parameters digest hrange)
    user selected.scopedPDU receiver.usm, acceptedState engine.sender.engine arrival
    (received message.parameters digest hrange) user receiver.usm, ⟨hengineId, rfl, rfl⟩,
    ⟨?_, ?_⟩, ?_⟩
  · have hname : (received message.parameters digest hrange).msgUserName =
        selected.user.usmUserName := congrArg OutgoingParameters.msgUserName hparameters
    rw [← hname]
    exact acceptedState_cacheEntries
  · rw [acceptedState_timeline, hengineId]
    simp only [storedEntry, received, hparameters, parametersOf]
    rfl
  · dsimp only
    intro result model hprepare
    rw [receiveMessage_eq_processMessage (by rw [hspeaks.codec_eq]; exact hdecode)
      (by rw [hglobal]; exact hmodel) hflags, processMessage_run_of_accepted hrun, hglobal,
        hprepare]

end Receiving

/-! ### What message processing makes of it -/

section Processing

variable {environment : Environment} {message : SecuredMessage} {draws : Draws} {model : Model}
  {sent : SentRequest}

/-- The engine of a peer, learned from a message if it was not known. -/
def learnedEngine (model : Model) (message : SecuredMessage) : PeerEngine :=
  (model.engineIdCache message.peer).getD
    ⟨message.securityEngineId, message.contextEngineId, message.contextName⟩

theorem sniffEngineId_run_of_internal (hpdu : message.pdu.pduType.isInternalClass = true) :
    ∃ after, (sniffEngineId environment message).run model = (.ok (), after) ∧
      after.cache = model.cache ∧
      after.engineIdCache message.peer = some (learnedEngine model message) := by
  unfold sniffEngineId learnedEngine
  rw [bind_run_of_ok (gets_run _ _)]
  cases hknown : model.engineIdCache message.peer with
  | none =>
    rw [runIf_of_true _ ⟨by simp, hpdu⟩]
    exact ⟨_, modify_run _ _, rfl, Function.update_self ..⟩
  | some known =>
    rw [runIf_of_false _ (fun hsniffs ↦ hsniffs.1 rfl)]
    exact ⟨_, pure_run _ _, rfl, hknown⟩

/-- A report ends as the error of the request that it answers, and teaches the engine of the
peer. -/
theorem prepareSecuredV3_run_of_report (hpdu : message.pdu.pduType = .report)
    (hawaits : Awaits model message.msgID sent) :
    ∃ after, (prepareSecuredV3 environment message draws).run model =
        (.error (.statusInformation (reportDetails message.pdu sent.sendPduHandle)), after) ∧
      after.engineIdCache message.peer = some (learnedEngine model message) := by
  have hinternal : message.pdu.pduType.isInternalClass = true := by rw [hpdu]; rfl
  obtain ⟨sniffed, hsniff, hcache, hlearned⟩ :=
    @sniffEngineId_run_of_internal environment message model hinternal
  obtain ⟨cache, hpop⟩ := (hawaits.of_cache_eq hcache).popRequest_run
  refine ⟨{ sniffed with cache }, ?_, hlearned⟩
  unfold prepareSecuredV3
  rw [bind_run_of_ok hsniff, if_pos (Or.inr hinternal), bind_run_of_ok hpop, if_pos hinternal]
  rfl

/-- A response that agrees with the request that it answers is handed to the application. -/
theorem prepareSecuredV3_run_of_response (hpdu : message.pdu.pduType = .response)
    (hawaits : Awaits model message.msgID sent) (hagrees : agrees message sent = true) :
    ((prepareSecuredV3 environment message draws).run model).1 =
      .ok (prepared message 1 message.pdu (some sent.sendPduHandle) none) := by
  have hresponse : message.pdu.pduType.isResponseClass = true := by rw [hpdu]; rfl
  have hexternal : ¬ message.pdu.pduType.isInternalClass = true := by rw [hpdu]; exact nofun
  obtain ⟨sniffed, hsniff, hcache⟩ := RejectedMessage.sniffEngineId_run environment message model
  obtain ⟨cache, hpop⟩ := (hawaits.of_cache_eq hcache).popRequest_run
  unfold prepareSecuredV3
  rw [bind_run_of_ok hsniff, if_pos (Or.inl hresponse), bind_run_of_ok hpop, if_neg hexternal,
    if_pos hagrees]
  rfl

/-- A request to the engine is handed to the application and kept for its response. -/
theorem prepareSecuredV3_run_of_request (hconfirmed : message.pdu.pduType.isConfirmedClass = true)
    (hengine : message.securityEngineId = environment.snmpEngineID)
    (hunused : model.cache.stateReferenceIndex.lookup draws.stateReference = none) :
    ∃ after cache, (prepareSecuredV3 environment message draws).run model =
        (.ok (prepared message 1 message.pdu none (some draws.stateReference)), after) ∧
      (popByStateRef draws.stateReference).run after.cache =
        (.ok (servedRequest message message.msgID none message.msgMaxSize), cache) := by
  have hrequest : ¬ (message.pdu.pduType.isResponseClass = true ∨
      message.pdu.pduType.isInternalClass = true) := by
    revert hconfirmed
    cases message.pdu.pduType <;> decide
  obtain ⟨sniffed, hsniff, hcache⟩ := RejectedMessage.sniffEngineId_run environment message model
  obtain ⟨pushed, popped, hpush, hpop, -⟩ := @push_popByStateRef_run sniffed draws.stateReference
    (servedRequest message message.msgID none message.msgMaxSize) (by rw [hcache]; exact hunused)
  rw [RejectedMessage.onCache_run] at hpop
  refine ⟨pushed, _, ?_, Prod.ext (Prod.mk.inj hpop).1 rfl⟩
  unfold prepareSecuredV3 prepareRequest
  rw [bind_run_of_ok hsniff, if_neg hrequest, if_pos hconfirmed,
    runIf_of_false _ (not_not_intro hengine), pure_bind, bind_run_of_ok hpush, pure_run]

end Processing

/-! ### What is answered -/

section Answering

variable {codec : MessageCodec} {pdus : PduCodec}
  {digests : Oid → Option Secmod.DigestPlacement.DigestService} {engine : Engine}

/-- An answer is not sent, or it is what the security model makes of it. -/
theorem answerRequest_cases (engine : Engine) (cachedParams : ServedRequest) (pdu : Option Pdu)
    (reporting : Option Reporting) (state : EngineState) :
    let ran := (answerRequest engine cachedParams pdu reporting).run state
    (∃ exception, ran.1 = .error exception ∧ ran.2.outbox = state.outbox) ∨
      ∃ answer message, answerOf engine cachedParams pdu reporting = .ok answer ∧
        cachedParams.securityModel = 3 ∧
        (generateRequestOrResponseMsg engine.sender (outgoingAnswer engine cachedParams answer)).run
          state.usm = (.ok message, ran.2.usm) ∧
        ran.1 = .ok message.authenticatedWholeMsg ∧
        ran.2.outbox = state.outbox ++ [(cachedParams.peer, message.authenticatedWholeMsg)] := by
  dsimp only
  unfold answerRequest
  cases hanswer : answerOf engine cachedParams pdu reporting with
  | error exception => exact Or.inl ⟨exception, rfl, rfl⟩
  | ok answer =>
    rw [bind_run_of_ok (liftExcept_run _ _)]
    unfold secureBy
    split_ifs with hmodel
    · rcases ok_or_error (generateRequestOrResponseMsg engine.sender
          (outgoingAnswer engine cachedParams answer)) state.usm with
        ⟨message, usm, hok⟩ | ⟨exception, usm, herror⟩
      · rw [bind_run_of_ok (by rw [onUsm_run, hok]; rfl)]
        unfold checkAnswerSize runIf
        split_ifs
        · exact Or.inl ⟨_, rfl, rfl⟩
        · exact Or.inr ⟨answer, message, rfl, of_decide_eq_true hmodel, hok, rfl, rfl⟩
      · rw [bind_run_of_error (by rw [onUsm_run, herror]; rfl)]
        exact Or.inl ⟨_, rfl, rfl⟩
    · exact Or.inl ⟨_, rfl, rfl⟩

/-- The user, engine and level that an answer is made for. -/
def selectedAnswer (engine : Engine) (cached : CachedSecurityData) (msgID : ℤ) (answer : Answer) :
    Selected where
  user := userOfCached cached
  securityEngineID := engine.snmpEngineID
  securityLevel := answer.securityLevel
  globalData := assembleMsgHeader engine msgID answer.securityLevel 3 answer.pdu.pduType
  scopedPDU :=
    { contextEngineId :=
        if answer.contextEngineId = [] then engine.snmpEngineID else answer.contextEngineId
      contextName := answer.contextName
      data := engine.pdus.encode answer.pdu }

/-- The boots and time that an answer carries. -/
def answerTimes (engine : Engine) (securityLevel : SecurityLevel) : ℕ × ℕ :=
  if securityLevel.isAuthenticated then
    (engine.sender.engine.snmpEngineBoots, engine.sender.engine.snmpEngineTime)
  else
    (0, 0)

theorem timesOf_selectedAnswer (cached : CachedSecurityData) (msgID : ℤ) {answer : Answer}
    (hpdu : answer.pdu.pduType.isUnconfirmedClass = true) (usm : UsmState) :
    timesOf engine.sender (selectedAnswer engine cached msgID answer) answer.pdu.pduType usm =
      answerTimes engine answer.securityLevel := by
  simp only [timesOf, hpdu, if_true]
  rfl

/-- The answer of a peer reaches the engine. -/
def AnswerReaches (codec : MessageCodec)
    (digests : Oid → Option Secmod.DigestPlacement.DigestService) (peerEngine engine : Engine)
    (cached : CachedSecurityData) (msgID : ℤ) (answer : Answer) (user : UsmUser) : Prop :=
  Reaches codec digests peerEngine.sender engine.sender.engine
    (selectedAnswer peerEngine cached msgID answer) (answerTimes peerEngine answer.securityLevel)
      user

/-- The answer of a peer that has not used up its boots is in time. -/
theorem timely_answer {peerEngine : Engine} {cached : CachedSecurityData} {msgID : ℤ}
    {answer : Answer}
    (hother : peerEngine.snmpEngineID ≠ engine.snmpEngineID)
    (hboots : peerEngine.sender.engine.snmpEngineBoots ≠ maxEngineBoots) {clock : Clock}
    (hclock : |(clock.comparedAt : ℤ) - clock.synchronizedAt| ≤ timeWindow) :
    Timely engine.sender.engine (selectedAnswer peerEngine cached msgID answer)
      (answerTimes peerEngine answer.securityLevel) clock := by
  intro hauthenticated
  have hlevel : answer.securityLevel.isAuthenticated = true := hauthenticated
  rw [if_neg (show ¬ (selectedAnswer peerEngine cached msgID answer).securityEngineID =
    engine.sender.engine.snmpEngineID from hother), answerTimes, if_pos hlevel]
  exact ⟨hboots, hclock⟩

/-- An answer that reaches an engine is handed to message processing there, if the peer has not used
up its boots. -/
theorem receiveMessage_run_of_answer {peerEngine : Engine}
    (hspeaks : Speaks codec pdus digests engine) (hpeer : Speaks codec pdus digests peerEngine)
    {cached : CachedSecurityData} {cachedParams : ServedRequest} {answer : Answer}
    {message : OutgoingMessage} {user : UsmUser} {before after : UsmState}
    (hmade : (generateRequestOrResponseMsg peerEngine.sender
      (outgoingAnswer peerEngine cachedParams answer)).run before = (.ok message, after))
    (hcached : before.cacheEntries cachedParams.securityStateReference = some cached)
    (hmodel : cachedParams.securityModel = 3)
    (hpdu : answer.pdu.pduType.isUnconfirmedClass = true)
    (hreaches : AnswerReaches codec digests peerEngine engine cached cachedParams.msgID answer user)
    (hother : peerEngine.snmpEngineID ≠ engine.snmpEngineID)
    (hboots : peerEngine.sender.engine.snmpEngineBoots ≠ maxEngineBoots) {clock : Clock}
    (hclock : |(clock.comparedAt : ℤ) - clock.synchronizedAt| ≤ timeWindow)
    (draws : Draws) (peer : Peer) (receiver : EngineState) :
    let selected := selectedAnswer peerEngine cached cachedParams.msgID answer
    ∃ accepted usm, AcceptedOf selected user accepted ∧
      KeptOf selected (answerTimes peerEngine answer.securityLevel) user clock accepted
        receiver.usm usm ∧
      let incoming := securedMessage engine selected.globalData selected.securityLevel peer accepted
      ∀ result model, (prepareSecuredV3 engine.environment incoming draws).run receiver.model =
          (result, model) →
        (receiveMessage engine clock draws peer message.authenticatedWholeMsg).run receiver =
          (result, { receiver with model, usm := releasedState incoming result usm }) := by
  obtain ⟨selected, _, _, hselect, -⟩ := generateRequestOrResponseMsg_eq_ok hmade
  obtain ⟨hselected, hafter⟩ := Prod.mk.inj (hselect.symm.trans (selectUser_response rfl hcached))
  obtain rfl : selected = selectedAnswer peerEngine cached cachedParams.msgID answer := by
    rw [Except.ok.inj hselected, selectedAnswer, ← hmodel]
    rfl
  have htimes := @timesOf_selectedAnswer peerEngine cached cachedParams.msgID answer hpdu after
  have htimely := @timely_answer engine peerEngine cached cachedParams.msgID answer hother hboots
    clock hclock
  unfold AnswerReaches at hreaches
  rw [← htimes] at hreaches htimely ⊢
  exact receiveMessage_run_of_made hspeaks hselect hmade hreaches rfl hpeer.engineId_length htimely
    draws peer receiver

end Answering

/-! ### The exchange -/

/-- The engine can answer under the reference: it has the request, and of its security what is
cached. -/
structure Serves (state : EngineState) (stateReference : ℕ) (served : ServedRequest)
    (cached : CachedSecurityData) : Prop where
  taken : ∃ cache, (popByStateRef stateReference).run state.model.cache = (.ok served, cache)
  entry : state.usm.cacheEntries served.securityStateReference = some cached

/-- What is served is the request that was sent, under the context it was sent with. -/
structure IsServed (request : OutgoingRequest) (msgID : ℤ) (contextEngineId : Octets) (peer : Peer)
    (served : ServedRequest) : Prop where
  msgID_eq : served.msgID = msgID
  securityModel : served.securityModel = 3
  securityLevel : served.securityLevel = request.securityLevel
  contextEngineId_eq : served.contextEngineId = contextEngineId
  contextName : served.contextName = request.contextName
  peer_eq : served.peer = peer

/-- What is delivered is what was sent, under the name that the receiver has for the user. -/
structure IsDelivered (request : OutgoingRequest) (contextEngineId securityName : Octets)
    (pdu : Pdu) (delivered : PreparedMessage) : Prop where
  pdu_eq : delivered.pdu = pdu
  securityModel : delivered.securityModel = 3
  securityName_eq : delivered.securityName = securityName
  securityLevel : delivered.securityLevel = request.securityLevel
  contextEngineId_eq : delivered.contextEngineId = contextEngineId
  contextName : delivered.contextName = request.contextName

section Exchange

variable {codec : MessageCodec} {pdus : PduCodec}
  {digests : Oid → Option Secmod.DigestPlacement.DigestService} {manager agent : Engine}
  {request : OutgoingRequest} {msgID : ℤ} {asking waiting : EngineState} {wholeMsg : Octets}
  {known : PeerEngine} {selected : Selected} {user : UsmUser}

/-- The context that a request to a known engine is sent with. -/
def askedContext (manager : Engine) (request : OutgoingRequest) (known : PeerEngine) : Octets :=
  contextEngineIdOf manager.environment (some known) request.contextEngineId

/-- What a request to a known engine is selected for. -/
structure IsAsked (manager : Engine) (request : OutgoingRequest) (known : PeerEngine) (msgID : ℤ)
    (selected : Selected) : Prop where
  securityEngineID : selected.securityEngineID = known.securityEngineId
  securityLevel : selected.securityLevel = request.securityLevel
  globalData : selected.globalData = assembleMsgHeader manager msgID request.securityLevel 3
    request.pdu.pduType
  contextEngineId : selected.scopedPDU.contextEngineId = askedContext manager request known
  contextName : selected.scopedPDU.contextName = request.contextName
  data : selected.scopedPDU.data = manager.pdus.encode request.pdu

/-- A request to a known engine is a message made for the user that is selected. -/
theorem sendRequest_of_known (hconfirmed : request.pdu.pduType.isConfirmedClass = true)
    (hknown : asking.model.engineIdCache request.peer = some known)
    (hnamed : known.securityEngineId ≠ [])
    (hselect : (selectUser manager.sender (outgoingRequest manager request (some known) msgID)).run
      asking.usm = (.ok selected, waiting.usm))
    (hsent : (sendRequest manager request msgID).run asking = (.ok wholeMsg, waiting)) :
    IsAsked manager request known msgID selected ∧ ∃ message,
      (generateRequestOrResponseMsg manager.sender
        (outgoingRequest manager request (some known) msgID)).run asking.usm =
          (.ok message, waiting.usm) ∧
      message.authenticatedWholeMsg = wholeMsg := by
  obtain ⟨hmodel, message, hmade, hwhole, -⟩ := sendRequest_eq_ok hconfirmed hsent
  rw [hknown] at hmade
  have hasked : ¬ request.pdu.pduType.isUnconfirmedClass = true := by
    revert hconfirmed
    cases request.pdu.pduType <;> decide
  have hengine : (outgoingRequest manager request (some known) msgID).securityEngineID =
      known.securityEngineId := by
    simp only [outgoingRequest, securityEngineIdOf, hasked, if_false, Bool.false_eq_true]
  obtain ⟨hid, hlevel, hglobal, hscoped⟩ := selectUser_request
    (show (outgoingRequest manager request (some known) msgID).securityStateReference = none from
      rfl) (by rw [hengine]; exact hnamed) hselect
  refine ⟨⟨hid.trans hengine, hlevel, ?_, ?_, ?_, ?_⟩, message, hmade, hwhole⟩
  · rw [hglobal, ← hmodel]
    rfl
  · rw [hscoped]
    rfl
  · rw [hscoped]
    rfl
  · rw [hscoped]
    rfl

/-- A request to a known engine, sent in its window, is delivered there as it was sent: the agent
returns its PDU under its own name for the user, and from then on serves it. -/
theorem receiveMessage_of_request (hmanager : Speaks codec pdus digests manager)
    (hagent : Speaks codec pdus digests agent)
    (hconfirmed : request.pdu.pduType.isConfirmedClass = true)
    (hreadable : pdus.readable request.pdu)
    (hknown : asking.model.engineIdCache request.peer = some known)
    (hid : known.securityEngineId = agent.snmpEngineID)
    (hselect : (selectUser manager.sender (outgoingRequest manager request (some known) msgID)).run
      asking.usm = (.ok selected, waiting.usm))
    (hsent : (sendRequest manager request msgID).run asking = (.ok wholeMsg, waiting))
    (hreaches : Reaches codec digests manager.sender agent.sender.engine selected
      (timesOf manager.sender selected request.pdu.pduType waiting.usm) user)
    {clock : Clock} (htimely : Timely agent.sender.engine selected
      (timesOf manager.sender selected request.pdu.pduType waiting.usm) clock)
    (draws : Draws) (peer : Peer) (receiving : EngineState)
    (hunused : receiving.model.cache.stateReferenceIndex.lookup draws.stateReference = none) :
    let ran := (receiveMessage agent clock draws peer wholeMsg).run receiving
    ∃ delivered served, ran.1 = .ok delivered ∧
      delivered.stateReference = some draws.stateReference ∧
      IsDelivered request (askedContext manager request known) user.usmUserSecurityName
        request.pdu delivered ∧
      IsServed request msgID (askedContext manager request known) peer served ∧
      Serves ran.2 draws.stateReference served ⟨selected.user.usmUserName, some user⟩ := by
  have hne : known.securityEngineId ≠ [] := by
    rw [hid]
    exact hagent.engineId_ne_nil
  obtain ⟨hasked, message, hmade, rfl⟩ := sendRequest_of_known hconfirmed hknown hne hselect hsent
  have hengineId : selected.securityEngineID = agent.snmpEngineID :=
    hasked.securityEngineID.trans hid
  obtain ⟨accepted, usm, haccepted, hkept, hrun⟩ := receiveMessage_run_of_made hagent hselect hmade
    hreaches (by rw [hasked.globalData]; rfl) (by rw [hengineId]; exact hagent.engineId_length)
    htimely draws peer receiving
  let incoming := securedMessage agent selected.globalData selected.securityLevel peer accepted
  have hpdu : incoming.pdu = request.pdu := by
    change agent.pdus.decode accepted.scopedPDU.data = _
    rw [haccepted.scopedPDU, hasked.data, hagent.pdus_eq, hmanager.pdus_eq,
      pdus.decode_encode _ hreadable]
  obtain ⟨after, cache, hprepare, htaken⟩ := @prepareSecuredV3_run_of_request agent.environment
    incoming draws receiving.model (by rw [hpdu]; exact hconfirmed)
    (haccepted.securityEngineID.trans hengineId) hunused
  have hcontextEngineId : incoming.contextEngineId = askedContext manager request known := by
    change accepted.scopedPDU.contextEngineId = _
    rw [haccepted.scopedPDU, hasked.contextEngineId]
  have hcontextName : incoming.contextName = request.contextName := by
    change accepted.scopedPDU.contextName = _
    rw [haccepted.scopedPDU, hasked.contextName]
  have hmodel : incoming.securityModel = 3 := by
    change selected.globalData.msgSecurityModel = 3
    rw [hasked.globalData]
    rfl
  have hreleased : releasedState incoming
      (.ok (prepared incoming 1 incoming.pdu none (some draws.stateReference))) usm = usm :=
    if_neg (not_not_intro (by rw [hpdu]; exact hconfirmed))
  have hran := hrun _ _ hprepare
  rw [show releasedState _ _ usm = usm from hreleased] at hran
  refine ⟨prepared incoming 1 incoming.pdu none (some draws.stateReference),
    servedRequest incoming incoming.msgID none incoming.msgMaxSize, ?_, rfl,
    ⟨hpdu, hmodel, haccepted.securityName, hasked.securityLevel, hcontextEngineId, hcontextName⟩,
    ⟨?_, hmodel, hasked.securityLevel, hcontextEngineId, hcontextName, rfl⟩, ?_, ?_⟩
  · rw [hran]
  · change selected.globalData.msgID = msgID
    rw [hasked.globalData]
    rfl
  · rw [hran]
    exact ⟨cache, htaken⟩
  · rw [hran]
    exact hkept.cacheEntries

/-- What an engine answers with to a request that it serves is made by the security model and goes
to where the request came from. -/
theorem prepareResponse_eq_ok {answering answered : EngineState} {stateReference : ℕ}
    {served : ServedRequest} {cached : CachedSecurityData} {pdu : Pdu}
    (hserves : Serves answering stateReference served cached)
    (hanswered : (prepareResponse agent stateReference (some pdu) none).run answering =
      (.ok wholeMsg, answered)) :
    ∃ message, (generateRequestOrResponseMsg agent.sender (outgoingAnswer agent served
        ⟨pdu, served.securityLevel, served.contextEngineId, served.contextName⟩)).run
          answering.usm = (.ok message, answered.usm) ∧
      message.authenticatedWholeMsg = wholeMsg ∧
      answered.outbox = answering.outbox ++ [(served.peer, wholeMsg)] := by
  obtain ⟨cache, htaken⟩ := hserves.taken
  let taken : EngineState := { answering with model := { answering.model with cache } }
  have htake : (onModel (onCache (popByStateRef stateReference))).run answering =
      (.ok served, taken) := by
    rw [onModel_run, RejectedMessage.onCache_run, htaken]
  rw [prepareResponse_eq, bind_run_of_ok htake] at hanswered
  rcases answerRequest_cases agent served (some pdu) none taken with
    ⟨exception, hfailed, -⟩ | ⟨answer, message, hanswer, -, hmade, hok, houtbox⟩
  · rw [hanswered] at hfailed
    cases hfailed
  · obtain rfl := Except.ok.inj hanswer
    rw [hanswered] at hmade hok houtbox
    obtain rfl := Except.ok.inj hok
    exact ⟨message, hmade, rfl, houtbox⟩

/-- The response to a request comes back to it: it goes to where the request came from, and an
engine that awaits it hands its PDU to the application with the handle of the request. -/
theorem receiveMessage_of_response (hmanager : Speaks codec pdus digests manager)
    (hagent : Speaks codec pdus digests agent) {answering answered : EngineState}
    {stateReference : ℕ} {served : ServedRequest} {cached : CachedSecurityData} {pdu : Pdu}
    {peer : Peer} (hpdu : pdu.pduType = .response) (hreadable : pdus.readable pdu)
    (hserves : Serves answering stateReference served cached)
    (hserved : IsServed request msgID (askedContext manager request known) peer served)
    (hcontext : askedContext manager request known ≠ []) (hmodel : request.securityModel = 3)
    (hanswered : (prepareResponse agent stateReference (some pdu) none).run answering =
      (.ok wholeMsg, answered))
    (hreaches : AnswerReaches codec digests agent manager cached msgID
      ⟨pdu, served.securityLevel, served.contextEngineId, served.contextName⟩ user)
    (hname : user.usmUserSecurityName = request.securityName)
    (hother : agent.snmpEngineID ≠ manager.snmpEngineID)
    (hboots : agent.sender.engine.snmpEngineBoots ≠ maxEngineBoots) {clock : Clock}
    (hclock : |(clock.comparedAt : ℤ) - clock.synchronizedAt| ≤ timeWindow)
    (draws : Draws) (source : Peer) (receiving : EngineState)
    (hawaits : Awaits receiving.model msgID (keptRequest manager request (some known) msgID)) :
    let ran := (receiveMessage manager clock draws source wholeMsg).run receiving
    answered.outbox = answering.outbox ++ [(peer, wholeMsg)] ∧
      ∃ delivered, ran.1 = .ok delivered ∧
        delivered.sendPduHandle = some request.sendPduHandle ∧
        IsDelivered request (askedContext manager request known) request.securityName pdu
          delivered := by
  obtain ⟨message, hmade, rfl, houtbox⟩ := prepareResponse_eq_ok hserves hanswered
  rw [hserved.peer_eq] at houtbox
  refine ⟨houtbox, ?_⟩
  obtain ⟨accepted, usm, haccepted, hkept, hrun⟩ := receiveMessage_run_of_answer hmanager hagent
    hmade hserves.entry hserved.securityModel (by rw [hpdu]; rfl)
    (by rw [hserved.msgID_eq]; exact hreaches) hother hboots hclock draws source receiving
  let selected := selectedAnswer agent cached served.msgID
    ⟨pdu, served.securityLevel, served.contextEngineId, served.contextName⟩
  let incoming := securedMessage manager selected.globalData selected.securityLevel source accepted
  have hincoming : incoming.pdu = pdu := by
    change manager.pdus.decode accepted.scopedPDU.data = _
    rw [haccepted.scopedPDU]
    change manager.pdus.decode (agent.pdus.encode pdu) = _
    rw [hagent.pdus_eq, hmanager.pdus_eq, pdus.decode_encode _ hreadable]
  have hcontextEngineId : incoming.contextEngineId = askedContext manager request known := by
    change accepted.scopedPDU.contextEngineId = _
    rw [haccepted.scopedPDU, ← hserved.contextEngineId_eq]
    exact if_neg (by rw [hserved.contextEngineId_eq]; exact hcontext)
  have hcontextName : incoming.contextName = request.contextName := by
    change accepted.scopedPDU.contextName = _
    rw [haccepted.scopedPDU, ← hserved.contextName]
    rfl
  have hsecurityName : incoming.securityName = request.securityName :=
    haccepted.securityName.trans hname
  have hagrees : agrees incoming (keptRequest manager request (some known) msgID) = true := by
    refine decide_eq_true ⟨?_, hsecurityName, hserved.securityLevel, hcontextEngineId,
      hcontextName⟩
    exact hmodel.symm
  have hprepare := @prepareSecuredV3_run_of_response manager.environment incoming draws
    receiving.model (keptRequest manager request (some known) msgID)
    (by rw [hincoming]; exact hpdu)
    (by
      change Awaits receiving.model served.msgID _
      rw [hserved.msgID_eq]
      exact hawaits) hagrees
  refine ⟨prepared incoming 1 incoming.pdu (some request.sendPduHandle) none, ?_, rfl,
    ⟨hincoming, rfl, hsecurityName, hserved.securityLevel, hcontextEngineId,
      hcontextName⟩⟩
  rw [hrun _ _ (Prod.ext hprepare rfl)]
  rfl

/-- A report that an engine makes ends as the error of the request that it is about, at an engine
that it reaches; there it teaches the engine, and at a level with authentication the boots and time.
-/
theorem receiveMessage_of_report (hmanager : Speaks codec pdus digests manager)
    (hagent : Speaks codec pdus digests agent) {served : ServedRequest}
    {cached : CachedSecurityData} {answer : Answer} {message : OutgoingMessage}
    {before after : UsmState} (hpdu : answer.pdu.pduType = .report)
    (hreadable : pdus.readable answer.pdu) (hmodel : served.securityModel = 3)
    (hmade : (generateRequestOrResponseMsg agent.sender (outgoingAnswer agent served answer)).run
      before = (.ok message, after))
    (hcached : before.cacheEntries served.securityStateReference = some cached)
    (hreaches : AnswerReaches codec digests agent manager cached served.msgID answer user)
    (hother : agent.snmpEngineID ≠ manager.snmpEngineID)
    (hboots : agent.sender.engine.snmpEngineBoots ≠ maxEngineBoots) {clock : Clock}
    (hclock : |(clock.comparedAt : ℤ) - clock.synchronizedAt| ≤ timeWindow)
    (draws : Draws) (source : Peer) (receiving : EngineState) {sent : SentRequest}
    (hawaits : Awaits receiving.model served.msgID sent) :
    let ran := (receiveMessage manager clock draws source message.authenticatedWholeMsg).run
      receiving
    ran.1 = .error (.statusInformation (reportDetails answer.pdu sent.sendPduHandle)) ∧
      ran.2.model.engineIdCache source = some ((receiving.model.engineIdCache source).getD
        ⟨agent.snmpEngineID,
          if answer.contextEngineId = [] then agent.snmpEngineID else answer.contextEngineId,
          answer.contextName⟩) ∧
      ran.2.usm.timeline =
        if answer.securityLevel.isAuthenticated = true then
          Function.update receiving.usm.timeline agent.snmpEngineID
            (some (keptTimes (answerTimes agent answer.securityLevel) clock))
        else
          receiving.usm.timeline := by
  obtain ⟨accepted, usm, haccepted, hkept, hrun⟩ := receiveMessage_run_of_answer hmanager hagent
    hmade hcached hmodel (by rw [hpdu]; rfl) hreaches hother hboots hclock draws source receiving
  let selected := selectedAnswer agent cached served.msgID answer
  let incoming := securedMessage manager selected.globalData selected.securityLevel source accepted
  have hincoming : incoming.pdu = answer.pdu := by
    change manager.pdus.decode accepted.scopedPDU.data = _
    rw [haccepted.scopedPDU]
    change manager.pdus.decode (agent.pdus.encode answer.pdu) = _
    rw [hagent.pdus_eq, hmanager.pdus_eq, pdus.decode_encode _ hreadable]
  obtain ⟨model, hprepare, hlearned⟩ := @prepareSecuredV3_run_of_report manager.environment incoming
    draws receiving.model sent (by rw [hincoming]; exact hpdu) hawaits
  rw [hincoming] at hprepare
  have hran := hrun _ _ hprepare
  dsimp only
  rw [hran]
  refine ⟨rfl, ?_, hkept.timeline⟩
  have hlearn : learnedEngine receiving.model incoming =
      (receiving.model.engineIdCache source).getD ⟨accepted.securityEngineID,
        accepted.scopedPDU.contextEngineId, accepted.scopedPDU.contextName⟩ := rfl
  refine hlearned.trans (congrArg some ?_)
  rw [hlearn, haccepted.securityEngineID, haccepted.scopedPDU]
  rfl

/-- What goes out when a message is refused is a report, made from what the security model keeps of
the message. -/
theorem exists_report_of_refused {receivedMsg : ReceivedMsg} {securityLevel : SecurityLevel}
    {details : StatusInformation} {oid : Oid} {reported : Reported} {clock : Clock} {draws : Draws}
    {peer back : Peer} {state : EngineState} {usm : UsmState} {report : Octets}
    (hdecode : agent.codec.decodeMsg wholeMsg = .ok (some receivedMsg))
    (hmodel : receivedMsg.globalData.msgSecurityModel = 3)
    (hlevel : securityLevelOf receivedMsg.globalData.msgFlags = some securityLevel)
    (hrefused : (processIncomingMsg agent.sender.engine
      (arrivalOf receivedMsg wholeMsg securityLevel clock)).run state.usm =
        (.error (.statusInformation details), usm))
    (hoid : details.oid = some oid) (hreported : reportedOf details oid = some reported)
    (hunused : state.model.cache.stateReferenceIndex.lookup draws.stateReference = none)
    (hsent : ((receiveMessage agent clock draws peer wholeMsg).run state).2.outbox =
      state.outbox ++ [(back, report)]) :
    let served := refusedRequest receivedMsg.globalData securityLevel peer reported
    ∃ answer message after,
      answerOf agent served (refusedPdu agent details) (some (reportingOf details reported)) =
        .ok answer ∧
      (generateRequestOrResponseMsg agent.sender (outgoingAnswer agent served answer)).run usm =
        (.ok message, after) ∧
      message.authenticatedWholeMsg = report ∧ back = peer := by
  obtain ⟨popped, -, hrun, -⟩ := @reportRefusal_run_of_unused agent receivedMsg.globalData
    securityLevel peer draws.stateReference details oid reported { state with usm } hoid hreported
    hunused
  rw [receiveMessage_eq_processMessage hdecode hmodel hlevel,
    processMessage_run_of_refused hrefused,
    bind_raise_run hrun] at hsent
  rcases answerRequest_cases agent (refusedRequest receivedMsg.globalData securityLevel peer
      reported) (refusedPdu agent details) (some (reportingOf details reported))
      { state with usm, model := popped } with
    ⟨_, -, hsame⟩ | ⟨answer, message, hanswer, -, hmade, -, houtbox⟩
  · rw [show _ = state.outbox from hsame] at hsent
    simp at hsent
  · rw [show _ = state.outbox ++ _ from houtbox] at hsent
    have hreport := List.append_cancel_left hsent
    simp only [List.cons.injEq, Prod.mk.injEq, and_true] at hreport
    exact ⟨answer, message, _, hanswer, hmade, hreport.2, hreport.1.symm⟩

/-- The probe of a manager that does not know the engine of a peer. -/
def probeOf (manager : Engine) (request : OutgoingRequest) (msgID : ℤ) : Selected :=
  discovery manager.sender (outgoingRequest manager request none msgID)

theorem securityLevelOf_probe :
    securityLevelOf (probeOf manager request msgID).globalData.msgFlags = some .noAuthNoPriv := by
  change securityLevelOf 0x04 = _
  decide

/-- A request to an unknown engine goes out as a probe. -/
theorem selectUser_of_unknown (hconfirmed : request.pdu.pduType.isConfirmedClass = true)
    (usm : UsmState) :
    (selectUser manager.sender (outgoingRequest manager request none msgID)).run usm =
      (.ok (probeOf manager request msgID), usm) := by
  have hasked : ¬ request.pdu.pduType.isUnconfirmedClass = true := by
    revert hconfirmed
    cases request.pdu.pduType <;> decide
  have hnone : (outgoingRequest manager request none msgID).securityEngineID = [] := by
    simp only [outgoingRequest, securityEngineIdOf, hasked, if_false, Bool.false_eq_true]
  unfold selectUser
  rw [show (outgoingRequest manager request none msgID).securityStateReference = none from rfl]
  simp only [hnone, if_true]
  rfl

/-- A probe has no user and no secrets, so it is understood everywhere. -/
theorem understood_probe (hmanager : Speaks codec pdus digests manager)
    (hagent : Speaks codec pdus digests agent) (hmodel : request.securityModel = 3)
    (hmsgID : 0 ≤ msgID ∧ msgID ≤ 2147483647) (times : ℕ × ℕ) :
    Understood codec digests manager.sender agent.sender.engine (probeOf manager request msgID)
      times anonymousUser where
  agree := hmanager.agree_with hagent
  sameSecrets := ⟨rfl, rfl, rfl, rfl⟩
  found := fun hlevel ↦ absurd hlevel Bool.false_ne_true
  deciphers := fun hlevel ↦ nomatch (show SecurityLevel.noAuthNoPriv = .authPriv from hlevel)
  globalData := by
    have hrange := hmanager.inRange hmsgID request.securityLevel request.pdu.pduType
    rw [← hmodel] at hrange
    exact ⟨hrange.1, hrange.2, hrange.3, hrange.4, hrange.5, hrange.6⟩
  flags := securityLevelOf_probe

/-- An agent that is to be discovered refuses a probe, with what its report takes. -/
theorem processIncomingMsg_of_probe (hmanager : Speaks codec pdus digests manager)
    (hagent : Speaks codec pdus digests agent)
    (hdiscoverable : agent.sender.engine.pysnmpUsmDiscoverable = true)
    (hconfirmed : request.pdu.pduType.isConfirmedClass = true) (hmodel : request.securityModel = 3)
    (hmsgID : 0 ≤ msgID ∧ msgID ≤ 2147483647) {message : OutgoingMessage} {before after : UsmState}
    (hmade : (generateRequestMsg manager.sender (outgoingRequest manager request none msgID)).run
      before = (.ok message, after)) :
    ∃ receivedMsg, codec.decodeMsg message.authenticatedWholeMsg = .ok (some receivedMsg) ∧
      receivedMsg.globalData = (probeOf manager request msgID).globalData ∧
      ∀ arrival : Arrival, arrival.wholeMsg = message.authenticatedWholeMsg →
        IsOf arrival receivedMsg → ∀ state : UsmState, state.timeline [] = none →
        (processIncomingMsg agent.sender.engine arrival).run state =
          (.error (.statusInformation (discoveryDetails agent.sender.engine arrival
              (probeOf manager request msgID).scopedPDU state)),
            countedState .unknownEngineIDs (stashed agent.sender.engine ⟨[], none⟩ state)) := by
  obtain ⟨selected, scopedPduData, privParameters, hselect, hencipher, hparameters, hsign⟩ :=
    generateRequestOrResponseMsg_eq_ok hmade
  obtain ⟨hselected, rfl⟩ := Prod.mk.inj
    (hselect.symm.trans (@selectUser_of_unknown manager request msgID hconfirmed before))
  obtain rfl := Except.ok.inj hselected
  rw [hparameters] at hsign
  have hrange : ParametersInRange (parametersOf (probeOf manager request msgID) (0, 0)
      privParameters) := ⟨Nat.zero_le _, Nat.zero_le _, Nat.zero_le _⟩
  obtain ⟨receivedMsg, digest, hdecode, hglobal, harrival⟩ := decodeMsg_of_signed
    (understood_probe hmanager hagent hmodel hmsgID _) hencipher hrange hsign
  refine ⟨receivedMsg, hdecode, hglobal, fun arrival hwhole hof state hnameless ↦ ?_⟩
  obtain ⟨hlevel, hmessage, hcarries, -⟩ := harrival arrival hwhole hof
  have hdata : arrival.scopedPduData = .plaintext (probeOf manager request msgID).scopedPDU := by
    unfold Carries at hcarries
    cases hdata : arrival.scopedPduData with
    | plaintext scopedPdu =>
      rw [hdata] at hcarries
      exact congrArg ScopedPduData.plaintext hcarries.2
    | encryptedPdu octets =>
      rw [hdata] at hcarries
      exact nomatch (show SecurityLevel.noAuthNoPriv = .authPriv from hlevel.symm.trans hcarries.1)
  exact processIncomingMsg_run_of_probe hmessage
    ⟨fun hid ↦ hagent.engineId_ne_nil hid.symm, hnameless, fun hlength ↦
      absurd hlength.1 (Nat.not_lt_zero 4)⟩
    hdiscoverable hdata

/-- The report about a count. -/
def reportOf (requestID : ℤ) (stat : UsmStat) (count : ℕ) : Pdu where
  pduType := .report
  requestID := requestID
  varBinds := [(stat.name, .counter32 count)]

/-- A manager that does not know the engine of a peer sends a probe, and a discoverable agent
reports about it. When the report comes back, the request fails with that error, and the manager
knows the engine. -/
theorem receiveMessage_of_probe (hmanager : Speaks codec pdus digests manager)
    (hagent : Speaks codec pdus digests agent)
    (hother : agent.snmpEngineID ≠ manager.snmpEngineID)
    (hdiscoverable : agent.sender.engine.pysnmpUsmDiscoverable = true)
    (hboots : agent.sender.engine.snmpEngineBoots ≠ maxEngineBoots)
    (hconfirmed : request.pdu.pduType.isConfirmedClass = true)
    (hempty : (pdus.decode (manager.sender.emptyPdu request.pdu.pduType)).pduType =
      request.pdu.pduType)
    (hmsgID : 0 ≤ msgID ∧ msgID ≤ 2147483647)
    (hunknown : asking.model.engineIdCache request.peer = none)
    (hsent : (sendRequest manager request msgID).run asking = (.ok wholeMsg, waiting))
    {clock : Clock} {draws : Draws} {peer back : Peer} {probed : EngineState} {report : Octets}
    (hnameless : probed.usm.timeline [] = none)
    (hunused : probed.model.cache.stateReferenceIndex.lookup draws.stateReference = none)
    (hreported : ((receiveMessage agent clock draws peer wholeMsg).run probed).2.outbox =
      probed.outbox ++ [(back, report)])
    (hreadable : pdus.readable (reportOf
      (pdus.decode (manager.sender.emptyPdu request.pdu.pduType)).requestID .unknownEngineIDs
      ((probed.usm.stats .unknownEngineIDs + 1) % 2 ^ 32)))
    {clockBack : Clock}
    (hclock : |(clockBack.comparedAt : ℤ) - clockBack.synchronizedAt| ≤ timeWindow)
    (drawsBack : Draws) (source : Peer) (receiving : EngineState)
    (hawaits : Awaits receiving.model msgID (keptRequest manager request none msgID)) :
    let ran := (receiveMessage manager clockBack drawsBack source report).run receiving
    back = peer ∧
      (∃ details, ran.1 = .error (.statusInformation details) ∧
        details.errorIndication = some .unknownEngineID ∧
        details.sendPduHandle = some request.sendPduHandle) ∧
      ran.2.model.engineIdCache source = some ((receiving.model.engineIdCache source).getD
        ⟨agent.snmpEngineID, agent.snmpEngineID, request.contextName⟩) := by
  obtain ⟨hmodel, message, hmade, rfl, -⟩ := sendRequest_eq_ok hconfirmed hsent
  rw [hunknown] at hmade
  obtain ⟨receivedMsg, hdecode, hglobal, hrefused⟩ := processIncomingMsg_of_probe hmanager hagent
    hdiscoverable hconfirmed hmodel hmsgID hmade
  have hlevel : securityLevelOf receivedMsg.globalData.msgFlags = some .noAuthNoPriv := by
    rw [hglobal]
    exact securityLevelOf_probe
  have hthree : receivedMsg.globalData.msgSecurityModel = 3 := by
    rw [hglobal]
    exact hmodel
  let arrival := arrivalOf receivedMsg message.authenticatedWholeMsg .noAuthNoPriv clock
  obtain ⟨answer, made, after, hanswer, hmadeReport, rfl, hback⟩ := exists_report_of_refused
    (by rw [hagent.codec_eq]; exact hdecode) hthree hlevel
    (hrefused arrival rfl (isOf_arrivalOf hlevel _ clock) probed.usm hnameless) rfl rfl hunused
    hreported
  refine ⟨hback, ?_⟩
  let asked : Pdu := pdus.decode (manager.sender.emptyPdu request.pdu.pduType)
  let count := (probed.usm.stats .unknownEngineIDs + 1) % 2 ^ 32
  obtain rfl : answer = ⟨reportOf asked.requestID .unknownEngineIDs count, .noAuthNoPriv, [],
      request.contextName⟩ := by
    have hrefusedPdu : refusedPdu agent (discoveryDetails agent.sender.engine arrival
        (probeOf manager request msgID).scopedPDU probed.usm) = some asked :=
      congrArg (fun codec : PduCodec ↦ some (codec.decode _)) hagent.pdus_eq
    rw [hrefusedPdu] at hanswer
    have hreply : asked.pduType.isConfirmedClass = true := by
      rw [hempty]
      exact hconfirmed
    simp only [answerOf, hreply, if_true] at hanswer
    exact (Except.ok.inj hanswer).symm
  have hreaches : AnswerReaches codec digests agent manager ⟨[], none⟩ msgID
      ⟨reportOf asked.requestID .unknownEngineIDs count, .noAuthNoPriv, [], request.contextName⟩
      anonymousUser :=
    { understood :=
        { agree := hagent.agree_with hmanager
          sameSecrets := ⟨rfl, rfl, rfl, rfl⟩
          found := fun hlevel ↦ absurd hlevel Bool.false_ne_true
          deciphers := fun hlevel ↦
            nomatch (show SecurityLevel.noAuthNoPriv = .authPriv from hlevel)
          globalData := hagent.inRange hmsgID _ _
          flags := securityLevelOf_msgFlagsOf _ _ }
      inRange := fun _ ↦ ⟨Nat.zero_le _, Nat.zero_le _, Nat.zero_le _⟩
      user_eq := rfl
      level := fun hid ↦ absurd hid hother }
  have hmsg : receivedMsg.globalData.msgID = msgID := by
    rw [hglobal]
    rfl
  obtain ⟨herror, hlearned, -⟩ := receiveMessage_of_report hmanager hagent rfl
    hreadable hthree hmadeReport (Function.update_self ..)
    (show AnswerReaches _ _ _ _ _ receivedMsg.globalData.msgID _ _ by rw [hmsg]; exact hreaches)
    hother hboots hclock drawsBack source receiving
    (show Awaits _ receivedMsg.globalData.msgID _ by rw [hmsg]; exact hawaits)
  exact ⟨⟨_, herror, rfl, rfl⟩, hlearned⟩

/-- An authentic request outside the window of the agent is refused, with what its report takes. -/
theorem processIncomingMsg_of_late {sender : UsmSender} {engine : UsmEngine} {outgoing : Outgoing}
    {before after : UsmState} {message : OutgoingMessage}
    (hselect : (selectUser sender outgoing).run before = (.ok selected, after))
    (hmade : (generateRequestOrResponseMsg sender outgoing).run before = (.ok message, after))
    (hreaches : Reaches codec digests sender engine selected
      (timesOf sender selected outgoing.pduType after) user)
    (hid : selected.securityEngineID = engine.snmpEngineID)
    (hlevel : selected.securityLevel.isAuthenticated = true)
    (hlate : ¬ TimesInWindow engine
      (parametersOf selected (timesOf sender selected outgoing.pduType after) [])) :
    ∃ receivedMsg parameters,
      codec.decodeMsg message.authenticatedWholeMsg = .ok (some receivedMsg) ∧
      receivedMsg.globalData = selected.globalData ∧
      parameters.msgUserName = selected.user.usmUserName ∧
      ∀ arrival : Arrival, arrival.wholeMsg = message.authenticatedWholeMsg →
        IsOf arrival receivedMsg → ∀ state : UsmState,
        (processIncomingMsg engine arrival).run state =
          (.error (.statusInformation (latenessDetails engine arrival parameters state)),
            countedState .notInTimeWindows (synchronizedState engine arrival parameters
              (identifiedState engine parameters user state))) := by
  obtain ⟨hunderstood, hinRange, huser, himplied⟩ := hreaches
  obtain ⟨found, scopedPduData, privParameters, hfound, hencipher, hparameters, hsign⟩ :=
    generateRequestOrResponseMsg_eq_ok hmade
  obtain rfl : selected = found := Except.ok.inj (Prod.mk.inj (hselect.symm.trans hfound)).1
  rw [hparameters] at hsign
  obtain ⟨receivedMsg, digest, hdecode, hglobal, harrival⟩ := decodeMsg_of_signed hunderstood
    hencipher (hinRange privParameters) hsign
  refine ⟨receivedMsg, received _ digest (hinRange privParameters), hdecode, hglobal, rfl,
    fun arrival hwhole hof state ↦ ?_⟩
  obtain ⟨harrived, hmessage, -, hdigest⟩ := harrival arrival hwhole hof
  refine processIncomingMsg_run_of_late ⟨hmessage, namesEngine_of_local hid, ?_, ?_⟩
    (by rw [harrived]; exact hlevel) (hdigest hlevel) hid hlate
  · rw [userInfo_eq_userNamed]
    exact huser
  · intro _
    rw [harrived]
    exact badSecIndication_of_implied (himplied hid)

/-- The report about a request outside the window. -/
def latenessReport (agent : Engine) (count : ℕ) : Answer where
  pdu := reportOf 0 .notInTimeWindows count
  securityLevel := .authNoPriv
  contextEngineId := agent.snmpEngineID
  contextName := []

/-- A manager that does not know the boots and time of an agent sends a request outside its window,
and the agent reports about it. When the report comes back, the request fails with that error, and
the manager has the boots and time of the agent. -/
theorem receiveMessage_of_late_request (hmanager : Speaks codec pdus digests manager)
    (hagent : Speaks codec pdus digests agent)
    (hother : agent.snmpEngineID ≠ manager.snmpEngineID)
    (hboots : agent.sender.engine.snmpEngineBoots ≠ maxEngineBoots)
    (hconfirmed : request.pdu.pduType.isConfirmedClass = true)
    (hknown : asking.model.engineIdCache request.peer = some known)
    (hid : known.securityEngineId = agent.snmpEngineID)
    (hselect : (selectUser manager.sender (outgoingRequest manager request (some known) msgID)).run
      asking.usm = (.ok selected, waiting.usm))
    (hsent : (sendRequest manager request msgID).run asking = (.ok wholeMsg, waiting))
    (hreaches : Reaches codec digests manager.sender agent.sender.engine selected
      (timesOf manager.sender selected request.pdu.pduType waiting.usm) user)
    (hlevel : request.securityLevel.isAuthenticated = true)
    (hlate : ¬ TimesInWindow agent.sender.engine (parametersOf selected
      (timesOf manager.sender selected request.pdu.pduType waiting.usm) []))
    {clock : Clock} {draws : Draws} {peer back : Peer} {asked : EngineState} {report : Octets}
    (hunused : asked.model.cache.stateReferenceIndex.lookup draws.stateReference = none)
    (hreported : ((receiveMessage agent clock draws peer wholeMsg).run asked).2.outbox =
      asked.outbox ++ [(back, report)])
    (hreadable : pdus.readable (reportOf 0 .notInTimeWindows
      ((asked.usm.stats .notInTimeWindows + 1) % 2 ^ 32)))
    {userBack : UsmUser}
    (hreachesBack : AnswerReaches codec digests agent manager
      ⟨selected.user.usmUserName, some user⟩ msgID
      (latenessReport agent ((asked.usm.stats .notInTimeWindows + 1) % 2 ^ 32)) userBack)
    {clockBack : Clock}
    (hclock : |(clockBack.comparedAt : ℤ) - clockBack.synchronizedAt| ≤ timeWindow)
    (drawsBack : Draws) (source : Peer) (receiving : EngineState)
    (hawaits : Awaits receiving.model msgID (keptRequest manager request (some known) msgID)) :
    let ran := (receiveMessage manager clockBack drawsBack source report).run receiving
    back = peer ∧
      (∃ details, ran.1 = .error (.statusInformation details) ∧
        details.errorIndication = some .notInTimeWindow ∧
        details.sendPduHandle = some request.sendPduHandle) ∧
      ran.2.usm.timeline = Function.update receiving.usm.timeline agent.snmpEngineID
        (some (keptTimes
          (agent.sender.engine.snmpEngineBoots, agent.sender.engine.snmpEngineTime)
          clockBack)) := by
  obtain ⟨hasked, message, hmade, rfl⟩ := sendRequest_of_known hconfirmed hknown
    (by rw [hid]; exact hagent.engineId_ne_nil) hselect hsent
  have hengineId : selected.securityEngineID = agent.snmpEngineID :=
    hasked.securityEngineID.trans hid
  obtain ⟨receivedMsg, parameters, hdecode, hglobal, hname, hrefused⟩ := processIncomingMsg_of_late
    hselect hmade hreaches hengineId (by rw [hasked.securityLevel]; exact hlevel) hlate
  have hflags : securityLevelOf receivedMsg.globalData.msgFlags = some selected.securityLevel := by
    rw [hglobal]
    exact hreaches.understood.flags
  have hthree : receivedMsg.globalData.msgSecurityModel = 3 := by
    rw [hglobal, hasked.globalData]
    rfl
  have hmsg : receivedMsg.globalData.msgID = msgID := by
    rw [hglobal, hasked.globalData]
    rfl
  let arrival := arrivalOf receivedMsg message.authenticatedWholeMsg selected.securityLevel clock
  obtain ⟨answer, made, after, hanswer, hmadeReport, rfl, hback⟩ := exists_report_of_refused
    (by rw [hagent.codec_eq]; exact hdecode) hthree hflags
    (hrefused arrival rfl (isOf_arrivalOf hflags _ clock) asked.usm) rfl rfl hunused hreported
  refine ⟨hback, ?_⟩
  obtain rfl : answer = latenessReport agent
      ((asked.usm.stats .notInTimeWindows + 1) % 2 ^ 32) := by
    have hreply : reportableFlagOf receivedMsg.globalData.msgFlags = true := by
      rw [hglobal, hasked.globalData]
      exact (reportableFlagOf_msgFlagsOf _ _).trans hconfirmed
    have hflag : ∀ reported, (refusedRequest receivedMsg.globalData selected.securityLevel peer
        reported).reportableFlag = true := fun _ ↦ hreply
    simp only [answerOf, refusedPdu, latenessDetails, Option.map_none, hflag, if_true] at hanswer
    exact (Except.ok.inj hanswer).symm
  have hcached : (countedState .notInTimeWindows (synchronizedState agent.sender.engine arrival
      parameters (identifiedState agent.sender.engine parameters user asked.usm))).cacheEntries
        (referenceOf agent.sender.engine asked.usm) =
          some ⟨selected.user.usmUserName, some user⟩ := by
    rw [← hname]
    exact Function.update_self ..
  obtain ⟨herror, -, htimeline⟩ := receiveMessage_of_report hmanager hagent rfl hreadable hthree
    hmadeReport hcached
    (show AnswerReaches _ _ _ _ _ receivedMsg.globalData.msgID _ _ by rw [hmsg]; exact hreachesBack)
    hother hboots hclock drawsBack source receiving
    (show Awaits _ receivedMsg.globalData.msgID _ by rw [hmsg]; exact hawaits)
  exact ⟨⟨_, herror, rfl, rfl⟩, htimeline⟩

end Exchange

/-! ### A sample exchange -/

section Sample

/-- An engine of the sample exchange. -/
def samplePeer (engineId : Octets) : Engine where
  sender := sampleSender engineId
  codec := berCodec
  pdus := berPdus
  snmpEngineMaxMessageSize := 65507

/-- The manager. -/
abbrev sampleManager : Engine :=
  samplePeer SampleMessage.notification.engineId

/-- The agent. -/
abbrev sampleAgent : Engine :=
  samplePeer SampleMessage.request.engineId

theorem speaks_sample {engineId : Octets} (hlength : 4 < engineId.length ∧ engineId.length < 33) :
    Speaks berCodec berPdus sampleDigests (samplePeer engineId) where
  codec_eq := rfl
  pdus_eq := rfl
  agree := agree_sample engineId engineId
  engineId_length := hlength
  maxSize_ge := Nat.le_of_ble_eq_true rfl
  maxSize_le := Nat.le_of_ble_eq_true rfl

/-- The request of the manager. -/
def sampleRequest : OutgoingRequest where
  peer := ⟨[1, 3, 6, 1, 6, 1, 1], [10, 0, 0, 1, 0, 161]⟩
  securityModel := 3
  securityName := [117]
  securityLevel := .authNoPriv
  contextEngineId := none
  contextName := []
  pdu := { pduType := .getRequest, requestID := 1, varBinds := [] }
  sendPduHandle := 7

/-- The clock of an engine that takes no time over a message. -/
def sampleClock : Clock :=
  ⟨0, 0, 0⟩

/-- The last message in an outbox. -/
def lastSent (state : EngineState) : Octets :=
  (state.outbox.getLast?.map Prod.snd).getD []

/-- Where the agent sees the manager. -/
def managerPeer : Peer :=
  ⟨[1, 3, 6, 1, 6, 1, 1], [10, 0, 0, 2, 192, 2]⟩

/-- The manager after it has sent the request. -/
def asked (state : EngineState) : EngineState :=
  ((sendRequest sampleManager sampleRequest 1).run state).2

/-- The agent after it has received the last message of the manager. -/
def heard (manager agent : EngineState) : EngineState :=
  ((receiveMessage sampleAgent sampleClock ⟨10, 3⟩ managerPeer (lastSent manager)).run agent).2

/-- The manager after it has received the last message of the agent. -/
def told (agent manager : EngineState) : EngineState :=
  ((receiveMessage sampleManager sampleClock ⟨9, 3⟩ sampleRequest.peer (lastSent agent)).run
    manager).2

/-- The manager has sent a probe. -/
def probing : EngineState := asked .initial

/-- The agent has reported about the probe. -/
def probed : EngineState := heard probing .initial

/-- The manager knows the agent. -/
def discovered : EngineState := told probed probing

/-- The manager has sent the request without the boots and time of the agent. -/
def early : EngineState := asked discovered

/-- The agent has reported about that. -/
def reporting : EngineState := heard early probed

/-- The manager has the boots and time of the agent. -/
def synchronized : EngineState := told reporting early

/-- The manager has sent the request. -/
def requesting : EngineState := asked synchronized

/-- The agent serves the request. -/
def serving : EngineState := heard requesting reporting

/-- What the agent serves. -/
def sampleServed : ServedRequest where
  msgVersion := 3
  msgID := 1
  reqID := none
  contextEngineId := SampleMessage.request.engineId
  contextName := []
  securityModel := 3
  securityName := some [117]
  securityLevel := .authNoPriv
  securityStateReference := 4
  reportableFlag := true
  msgMaxSize := 65507
  maxSizeResponseScopedPDU := 65423
  peer := managerPeer

/-- The response of the agent. -/
def sampleResponse : Pdu :=
  { pduType := .response, requestID := 1, varBinds := [] }

/-- The agent has answered. -/
def answered : EngineState :=
  ((prepareResponse sampleAgent 10 (some sampleResponse) none).run serving).2

/-- What the manager knows of the agent after the report. -/
def knownAgent : PeerEngine :=
  ⟨SampleMessage.request.engineId, SampleMessage.request.engineId, []⟩

theorem speaks_sampleManager : Speaks berCodec berPdus sampleDigests sampleManager :=
  speaks_sample (by decide)

theorem speaks_sampleAgent : Speaks berCodec berPdus sampleDigests sampleAgent :=
  speaks_sample (by decide)

theorem run_eq_of_fst_eq {σ α : Type} {program : Effect σ Raised α} {state : σ} {value : α}
    (hok : (program.run state).1 = .ok value) :
    program.run state = (.ok value, (program.run state).2) :=
  Prod.ext hok rfl

/-- A sample request is selected for the user as it is, and the security model keeps its state. -/
theorem selectUser_sample {made : SampleMade} {state : EngineState}
    (hglobal : made.globalData = SampleMade.request.globalData)
    (hpdu : made.scopedPdu = SampleMade.request.scopedPdu)
    (hknown : state.model.engineIdCache sampleRequest.peer = some knownAgent)
    (hsent : (sendRequest sampleManager sampleRequest 1).run state =
      (.ok (lastSent (asked state)), asked state)) :
    (selectUser sampleManager.sender (outgoingRequest sampleManager sampleRequest (some knownAgent)
      1)).run state.usm = (.ok made.selected, (asked state).usm) := by
  obtain ⟨-, message, hmade, -, -⟩ := sendRequest_eq_ok rfl hsent
  rw [hknown] at hmade
  obtain ⟨selected, _, _, hselect, -⟩ := generateRequestOrResponseMsg_eq_ok hmade
  have hdata : berPdus.encode sampleRequest.pdu = SampleMade.request.pdu := by decide +kernel
  have hsample : (selectUser sampleManager.sender (outgoingRequest sampleManager sampleRequest
      (some knownAgent) 1)).run state.usm = (.ok SampleMade.request.selected, state.usm) := by
    rw [outgoingRequest, show sampleManager.pdus.encode _ = _ from hdata]
    rfl
  have hmine : made.selected = SampleMade.request.selected := by
    rw [SampleMade.selected, hglobal, hpdu]
    rfl
  have hsame : (asked state).usm = state.usm :=
    (Prod.mk.inj (hselect.symm.trans hsample)).2
  rw [hmine, hsame]
  exact hsample

theorem sampleClock_inWindow :
    |(sampleClock.comparedAt : ℤ) - sampleClock.synchronizedAt| ≤ timeWindow := by
  decide

/-- A sample message reaches the other engine. -/
theorem reaches_sample (made : SampleMade) {engineId : Octets} (peerId : Octets) :
    Reaches berCodec sampleDigests (sampleSender engineId) (sampleReceiver peerId) made.selected
      made.times sampleUser where
  understood := understood_sample made engineId peerId
  inRange := fun _ ↦ by
    cases made <;> exact ⟨Nat.le_of_ble_eq_true rfl, Nat.le_of_ble_eq_true rfl,
      Nat.le_of_ble_eq_true rfl⟩
  user_eq := userNamed_sample peerId
  level := fun _ ↦ rfl

/-- The manager learns the engine of the agent from the report about its probe. -/
theorem receiveMessage_of_probe_sample :
    (∃ details, ((receiveMessage sampleManager sampleClock ⟨9, 3⟩ sampleRequest.peer
        (lastSent probed)).run probing).1 = .error (.statusInformation details) ∧
      details.errorIndication = some .unknownEngineID ∧ details.sendPduHandle = some 7) ∧
      discovered.model.engineIdCache sampleRequest.peer = some knownAgent := by
  have hsent : (sendRequest sampleManager sampleRequest 1).run .initial =
      (.ok (lastSent probing), probing) := run_eq_of_fst_eq (by decide +kernel)
  have hreported : ((receiveMessage sampleAgent sampleClock ⟨10, 3⟩ managerPeer
      (lastSent probing)).run .initial).2.outbox = [] ++ [(managerPeer, lastSent probed)] := by
    decide +kernel
  obtain ⟨-, hfailed, hlearned⟩ := receiveMessage_of_probe speaks_sampleManager speaks_sampleAgent
    (by decide) rfl (by decide) rfl (by decide +kernel) (by decide) rfl hsent rfl rfl hreported
    ⟨by decide +kernel, by decide +kernel⟩ sampleClock_inWindow ⟨9, 3⟩ sampleRequest.peer probing
    (awaits_of_sendRequest rfl hsent)
  refine ⟨hfailed, hlearned.trans ?_⟩
  decide +kernel

/-- The manager gets the boots and time of the agent from the report about its first request. -/
theorem receiveMessage_of_late_request_sample :
    (∃ details, ((receiveMessage sampleManager sampleClock ⟨9, 3⟩ sampleRequest.peer
        (lastSent reporting)).run early).1 = .error (.statusInformation details) ∧
      details.errorIndication = some .notInTimeWindow ∧ details.sendPduHandle = some 7) ∧
      synchronized.usm.timeline = Function.update early.usm.timeline SampleMessage.request.engineId
        (some ⟨5, 1100, 1100, 0⟩) := by
  have hknown : discovered.model.engineIdCache sampleRequest.peer = some knownAgent := by
    decide +kernel
  have hsent : (sendRequest sampleManager sampleRequest 1).run discovered =
      (.ok (lastSent early), early) := run_eq_of_fst_eq (by decide +kernel)
  have htimes : timesOf sampleManager.sender SampleMade.early.selected .getRequest early.usm =
      (0, 0) := by decide +kernel
  have hreported : ((receiveMessage sampleAgent sampleClock ⟨10, 3⟩ managerPeer
      (lastSent early)).run probed).2.outbox =
        probed.outbox ++ [(managerPeer, lastSent reporting)] :=
    by decide +kernel
  have hrow : AnswerReaches berCodec sampleDigests sampleAgent sampleManager
      ⟨[117], some sampleUser⟩ 1 (latenessReport sampleAgent
        ((probed.usm.stats .notInTimeWindows + 1) % 2 ^ 32)) sampleUser := by
    have hcount : (probed.usm.stats .notInTimeWindows + 1) % 2 ^ 32 = 1 := by decide +kernel
    have hdata : berPdus.encode (reportOf 0 .notInTimeWindows 1) = SampleMade.lateness.pdu := by
      decide +kernel
    have hselected : selectedAnswer sampleAgent ⟨[117], some sampleUser⟩ 1
        (latenessReport sampleAgent 1) = SampleMade.lateness.selected := by
      rw [selectedAnswer, show sampleAgent.pdus.encode (latenessReport sampleAgent 1).pdu = _ from
        hdata]
      rfl
    rw [hcount, AnswerReaches, hselected]
    exact reaches_sample .lateness _
  have hreaches : Reaches berCodec sampleDigests sampleManager.sender sampleAgent.sender.engine
      SampleMade.early.selected
      (timesOf sampleManager.sender SampleMade.early.selected .getRequest early.usm)
        sampleUser := by
    rw [htimes]
    exact reaches_sample .early _
  have hlate : ¬ TimesInWindow sampleAgent.sender.engine (parametersOf SampleMade.early.selected
      (timesOf sampleManager.sender SampleMade.early.selected .getRequest early.usm) []) := by
    rw [htimes]
    exact fun hwindow ↦ absurd hwindow.2.1 (by decide)
  obtain ⟨-, hfailed, htimeline⟩ := receiveMessage_of_late_request speaks_sampleManager
    speaks_sampleAgent (by decide) (by decide) rfl hknown rfl
    (selectUser_sample rfl rfl hknown hsent) hsent hreaches rfl
    hlate (by decide +kernel) hreported ⟨by decide +kernel, by decide +kernel⟩ hrow
    sampleClock_inWindow ⟨9, 3⟩ sampleRequest.peer early
    (awaits_of_sendRequest rfl hsent)
  refine ⟨hfailed, ?_⟩
  rw [synchronized, told, htimeline]
  rfl

/-- The agent delivers the request, and serves it. -/
theorem receiveMessage_of_request_sample :
    ∃ delivered served, ((receiveMessage sampleAgent sampleClock ⟨10, 3⟩ managerPeer
        (lastSent requesting)).run reporting).1 = .ok delivered ∧
      delivered.stateReference = some 10 ∧
      IsDelivered sampleRequest SampleMessage.request.engineId [117] sampleRequest.pdu delivered ∧
      IsServed sampleRequest 1 SampleMessage.request.engineId managerPeer served ∧
      Serves serving 10 served ⟨[117], some sampleUser⟩ := by
  have hknown : synchronized.model.engineIdCache sampleRequest.peer = some knownAgent := by
    decide +kernel
  have hsent : (sendRequest sampleManager sampleRequest 1).run synchronized =
      (.ok (lastSent requesting), requesting) := run_eq_of_fst_eq (by decide +kernel)
  have htimes : timesOf sampleManager.sender SampleMade.request.selected .getRequest
      requesting.usm = (5, 1100) := by decide +kernel
  have hreaches : Reaches berCodec sampleDigests sampleManager.sender sampleAgent.sender.engine
      SampleMade.request.selected
      (timesOf sampleManager.sender SampleMade.request.selected .getRequest requesting.usm)
      sampleUser := by
    rw [htimes]
    exact reaches_sample .request _
  have htimely : Timely sampleAgent.sender.engine SampleMade.request.selected
      (timesOf sampleManager.sender SampleMade.request.selected .getRequest requesting.usm)
      sampleClock := by
    rw [htimes]
    intro _
    exact (if_pos rfl).mpr ⟨by decide, rfl, by decide⟩
  exact receiveMessage_of_request speaks_sampleManager speaks_sampleAgent rfl
    ⟨by decide +kernel, by decide +kernel⟩ hknown rfl (selectUser_sample rfl rfl hknown hsent) hsent
    hreaches htimely ⟨10, 3⟩ managerPeer reporting (by decide +kernel)

/-- The response of the agent comes back to the request. -/
theorem receiveMessage_of_response_sample :
    answered.outbox = serving.outbox ++ [(managerPeer, lastSent answered)] ∧
      ∃ delivered, ((receiveMessage sampleManager sampleClock ⟨9, 3⟩ sampleRequest.peer
          (lastSent answered)).run requesting).1 = .ok delivered ∧
        delivered.sendPduHandle = some 7 ∧
        IsDelivered sampleRequest SampleMessage.request.engineId [117] sampleResponse
          delivered := by
  have hsent : (sendRequest sampleManager sampleRequest 1).run synchronized =
      (.ok (lastSent requesting), requesting) := run_eq_of_fst_eq (by decide +kernel)
  have hknown : synchronized.model.engineIdCache sampleRequest.peer = some knownAgent := by
    decide +kernel
  have hserves : Serves serving 10 sampleServed ⟨[117], some sampleUser⟩ :=
    ⟨⟨_, run_eq_of_fst_eq (by decide +kernel)⟩, by decide +kernel⟩
  have hanswered : (prepareResponse sampleAgent 10 (some sampleResponse) none).run serving =
      (.ok (lastSent answered), answered) := run_eq_of_fst_eq (by decide +kernel)
  have hdata : berPdus.encode sampleResponse = SampleMade.response.pdu := by decide +kernel
  have hreaches : AnswerReaches berCodec sampleDigests sampleAgent sampleManager
      ⟨[117], some sampleUser⟩ 1
      ⟨sampleResponse, .authNoPriv, SampleMessage.request.engineId, []⟩ sampleUser := by
    have hselected : selectedAnswer sampleAgent ⟨[117], some sampleUser⟩ 1
        ⟨sampleResponse, .authNoPriv, SampleMessage.request.engineId, []⟩ =
          SampleMade.response.selected := by
      rw [selectedAnswer, show sampleAgent.pdus.encode _ = _ from hdata]
      rfl
    rw [AnswerReaches, hselected]
    exact reaches_sample .response _
  have hawaits := awaits_of_sendRequest rfl hsent
  rw [hknown] at hawaits
  exact receiveMessage_of_response speaks_sampleManager speaks_sampleAgent rfl
    ⟨by decide +kernel, by decide +kernel⟩ hserves ⟨rfl, rfl, rfl, rfl, rfl, rfl⟩ (by decide) rfl
    hanswered hreaches rfl (by decide) (by decide) sampleClock_inWindow ⟨9, 3⟩
    sampleRequest.peer requesting hawaits

end Sample

end Pysnmp.Proto.V3Exchange
