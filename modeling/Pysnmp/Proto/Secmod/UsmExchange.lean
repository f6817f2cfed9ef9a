import Pysnmp.Proto.Secmod.Privacy
import Pysnmp.Proto.Secmod.StateReferences
import Pysnmp.Proto.Secmod.TimeWindow
import Pysnmp.Proto.Secmod.WireFormat

/-!
# A message from one engine to another

What one engine's `generateRequestMsg` or `generateResponseMsg` makes of a scoped PDU and what
another engine's `processIncomingMsg` makes of the message that results, where the two have one
codec and the same digest services (`Agree`) and the same secrets of a user (`SameSecrets`). The
scoped PDU comes out as it went in, under the security name that the receiver has for the user, at
every level. The digest has to be found where it was written, in the message that is made
(`DigestFoundAtField`), which is not a matter of the secrets alone.

An engine takes a request under its own identifier, checked against its own boots and time, and a
response or a report under the identifier of a peer, whose boots and time it then keeps. What it
refuses it may answer with a report: a message that names no engine
(`processIncomingMsg_run_of_probe`), and one whose boots and time are not in its window
(`processIncomingMsg_run_of_late`).
-/

set_option autoImplicit false
set_option relaxedAutoImplicit false

namespace Pysnmp.Proto.Secmod.UsmExchange

open Foundation Foundation.Effect DigestPlacement UsmService UsmOutgoing UsmAcceptance UsmTimeline
  StateReferences
open WireFormat

/-! ### Messages that are accepted -/

section Receiving

variable {state : UsmState} {engine : UsmEngine} {arrival : Arrival}
  {parameters : UsmSecurityParameters} {user : UsmUser} {scopedPdu : ScopedPdu}

/-- The reference of a message whose user has been found. -/
def referenceOf (engine : UsmEngine) (state : UsmState) : ℕ :=
  engine.stateReference (state.drawnReferences + 1)

/-- The state in which the user of a message has been found: two references have been drawn, and
the second has what the answer takes. -/
def identifiedState (engine : UsmEngine) (parameters : UsmSecurityParameters) (user : UsmUser)
    (state : UsmState) : UsmState :=
  { state with
    drawnReferences := state.drawnReferences + 2
    cacheEntries := Function.update
      (Function.update state.cacheEntries (engine.stateReference state.drawnReferences) none)
      (referenceOf engine state) (some ⟨parameters.msgUserName, some user⟩) }

/-- The longest message that may answer one, but for what the security model adds. -/
def responseRoom (arrival : Arrival) : ℤ :=
  arrival.maxMessageSize - arrival.securityParameters.length - 48

/-- A user that the engine knows is read without a report. -/
theorem readUserInfo_run_of_ok {maxSize : ℤ} {reference : ℕ}
    (huser : userInfo engine parameters = .ok user) :
    (readUserInfo engine arrival parameters maxSize reference).run state = (.ok user, state) := by
  rcases @readUserInfo_run state engine arrival parameters maxSize reference with
    ⟨found, hfound, hrun⟩ | ⟨_, _, -, -, ⟨-, herror⟩ | ⟨-, herror⟩⟩
  · obtain rfl := Except.ok.inj (hfound.symm.trans huser)
    exact hrun
  · rw [huser] at herror
    cases herror
  · rw [huser] at herror
    cases herror

/-- The message is identified without a trace but for the references drawn and what is kept under
the second. -/
theorem identifyMessage_run_of_user
    (hparameters : messageParameters engine arrival = some parameters)
    (hnames : ¬ NamesNoEngine state engine parameters)
    (huser : userInfo engine parameters = .ok user) :
    (identifyMessage engine arrival).run state =
      (.ok ⟨parameters, user, responseRoom arrival, referenceOf engine state⟩,
        identifiedState engine parameters user state) := by
  let pushed := stashed engine ⟨parameters.msgUserName, none⟩ state
  have hpush : (pushCache engine ⟨parameters.msgUserName, none⟩).run state =
      (.ok (engine.stateReference state.drawnReferences), pushed) := rfl
  have hentry : pushed.cacheEntries (engine.stateReference state.drawnReferences) =
      some ⟨parameters.msgUserName, none⟩ := Function.update_self ..
  have hnamed : ¬ NamesNoEngine pushed engine parameters := hnames
  rw [identifyMessage, bind_run_of_ok (readSecurityParameters_run hparameters),
    bind_run_of_ok hpush, bind_run_of_ok (discoverEngine_run_of_names hnamed),
    bind_run_of_ok (readUserInfo_run_of_ok huser), bind_run_of_ok (popCache_run hentry)]
  have hdropped : Function.update pushed.cacheEntries
      (engine.stateReference state.drawnReferences) none =
        Function.update state.cacheEntries (engine.stateReference state.drawnReferences) none :=
    Function.update_idem ..
  rw [hdropped]
  rfl

/-- The scoped PDU that a message carries: in plain text, or at the level with privacy in a
ciphertext that the user's service decrypts. -/
def Carries (engine : UsmEngine) (arrival : Arrival) (parameters : UsmSecurityParameters)
    (user : UsmUser) (scopedPdu : ScopedPdu) : Prop :=
  match arrival.scopedPduData with
  | .plaintext plaintext => arrival.securityLevel ≠ .authPriv ∧ plaintext = scopedPdu
  | .encryptedPdu octets => arrival.securityLevel = .authPriv ∧
    ∃ privHandler decryptedData, engine.privServices user.usmUserPrivProtocol = some privHandler ∧
      privHandler.decryptData user.usmUserPrivKeyLocalized
        (parameters.msgAuthoritativeEngineBoots, parameters.msgAuthoritativeEngineTime,
          parameters.msgPrivacyParameters) octets = .ok decryptedData ∧
      engine.decodeScopedPdu decryptedData = .ok (some scopedPdu)

/-- What the message carries is what the receiver reads. -/
theorem readScopedPdu_run_of_carries {message : IdentifiedMessage}
    (hcarries : Carries engine arrival message.parameters message.user scopedPdu) :
    (readScopedPdu engine arrival message).run state = (.ok scopedPdu, state) := by
  unfold Carries at hcarries
  unfold readScopedPdu
  cases hdata : arrival.scopedPduData with
  | plaintext plaintext =>
    rw [hdata] at hcarries
    obtain ⟨hlevel, rfl⟩ := hcarries
    cases harrival : arrival.securityLevel with
    | authPriv => exact absurd harrival hlevel
    | noAuthNoPriv => rfl
    | authNoPriv => rfl
  | encryptedPdu octets =>
    rw [hdata] at hcarries
    obtain ⟨hlevel, privHandler, decryptedData, hservice, hdecrypt, hdecode⟩ := hcarries
    simp only [hlevel, hservice, hdecrypt, hdecode, pure_run]

/-- The state that an authenticated message leaves, from the one in which it has been identified. -/
def synchronizedState (engine : UsmEngine) (arrival : Arrival) (parameters : UsmSecurityParameters)
    (state : UsmState) : UsmState :=
  let expireAt := ((state.expirationTimer : ℚ) + 300 / engine.timerResolution).floor.toNat
  { state with
    timeline := Function.update state.timeline parameters.msgAuthoritativeEngineId
      (some (storedEntry arrival parameters))
    timelineExpQueue := Function.update state.timelineExpQueue expireAt
      (state.timelineExpQueue expireAt ++ [parameters.msgAuthoritativeEngineId]) }

/-- A message from another engine moves the recorded time of that engine. -/
theorem synchronizeTimeline_run {message : IdentifiedMessage} :
    (synchronizeTimeline engine arrival message).run state =
      (.ok (), synchronizedState engine arrival message.parameters state) :=
  rfl

/-- The state that an accepted message leaves. -/
def acceptedState (engine : UsmEngine) (arrival : Arrival) (parameters : UsmSecurityParameters)
    (user : UsmUser) (state : UsmState) : UsmState :=
  if arrival.securityLevel.isAuthenticated = true then
    synchronizedState engine arrival parameters (identifiedState engine parameters user state)
  else
    identifiedState engine parameters user state

/-- What is handed on of an accepted message. -/
def acceptedMessage (engine : UsmEngine) (arrival : Arrival) (parameters : UsmSecurityParameters)
    (user : UsmUser) (scopedPdu : ScopedPdu) (state : UsmState) : AcceptedMessage where
  securityEngineID := parameters.msgAuthoritativeEngineId
  securityName := user.usmUserSecurityName
  scopedPDU := scopedPdu
  maxSizeResponseScopedPDU := responseRoom arrival
  securityStateReference := referenceOf engine state

/-- A level that the user supports is let through. -/
theorem checkSecurityLevel_run_of_identified {message : IdentifiedMessage}
    (hlevel : message.parameters.msgAuthoritativeEngineId = engine.snmpEngineID →
      badSecIndication message.user message.parameters arrival.securityLevel = none) :
    (checkSecurityLevel engine arrival message).run state = (.ok (), state) := by
  rcases @checkSecurityLevel_run state engine arrival message with ⟨-, hrun⟩ | ⟨hbad, -⟩
  · exact hrun
  · exact absurd hlevel hbad

/-- A digest that checks is let through. -/
theorem authenticateMessage_run_of_accepted {message : IdentifiedMessage}
    (hdigest : DigestAccepted engine arrival message.parameters message.user) :
    (authenticateMessage engine arrival message).run state = (.ok (), state) := by
  rcases @authenticateMessage_run state engine arrival message with ⟨-, hrun⟩ | ⟨hrefused, -⟩
  · exact hrun
  · exact absurd hdigest hrefused

/-- A message inside the time window is let through. -/
theorem checkTimeliness_run_of_inWindow {message : IdentifiedMessage}
    (hentry : state.timeline message.parameters.msgAuthoritativeEngineId =
      some (storedEntry arrival message.parameters))
    (hlocal : message.parameters.msgAuthoritativeEngineId = engine.snmpEngineID →
      InLocalWindow engine message.parameters)
    (hpeer : message.parameters.msgAuthoritativeEngineId ≠ engine.snmpEngineID →
      InPeerWindow arrival message.parameters) :
    (checkTimeliness engine arrival message).run state = (.ok (), state) := by
  rcases @checkTimeliness_run state engine arrival message hentry with
    ⟨-, hrun⟩ | ⟨_, _, -, -, ⟨-, hid, hlate⟩ | ⟨-, hid, hlate⟩⟩
  · exact hrun
  · exact absurd (hpeer hid) hlate
  · exact absurd (hlocal hid) hlate

/-- A message that is identified, authentic and carries a scoped PDU is accepted with it. -/
theorem processIncomingMsg_run_of_authentic
    (hidentified : Identified state engine arrival parameters user)
    (hauthentic : Authentic engine arrival parameters user)
    (hcarries : Carries engine arrival parameters user scopedPdu)
    (hnamed : ¬ (parameters.msgUserName = [] ∧ parameters.msgAuthoritativeEngineId = [])) :
    (processIncomingMsg engine arrival).run state =
      (.ok (acceptedMessage engine arrival parameters user scopedPdu state),
        acceptedState engine arrival parameters user state) := by
  have hidentify := identifyMessage_run_of_user hidentified.parameters_eq hidentified.namesEngine
    hidentified.user_eq
  have hdeliver : ∀ last : UsmState, (deliverMessage engine arrival
      ⟨parameters, user, responseRoom arrival, referenceOf engine state⟩).run last =
        (.ok (acceptedMessage engine arrival parameters user scopedPdu state), last) := by
    intro last
    rw [deliverMessage, bind_run_of_ok (readScopedPdu_run_of_carries hcarries), if_neg hnamed]
    rfl
  rw [processIncomingMsg_eq, bind_run_of_ok hidentify, verifyMessage,
    bind_run_of_ok (checkSecurityLevel_run_of_identified hidentified.level), acceptedState]
  by_cases hlevel : arrival.securityLevel.isAuthenticated = true
  · obtain ⟨hdigest, hlocal, hpeer⟩ := hauthentic hlevel
    rw [if_pos hlevel, if_pos hlevel, bind_run_of_ok (authenticateMessage_run_of_accepted hdigest),
      bind_run_of_ok synchronizeTimeline_run,
      bind_run_of_ok (checkTimeliness_run_of_inWindow (Function.update_self ..) hlocal hpeer),
      hdeliver]
  · rw [if_neg hlevel, if_neg hlevel, hdeliver]

end Receiving

/-! ### Messages that are reported about -/

section Refusing

variable {state : UsmState} {engine : UsmEngine} {arrival : Arrival}
  {parameters : UsmSecurityParameters} {user : UsmUser} {scopedPdu : ScopedPdu}

/-- A counter has been stepped. -/
def countedState (stat : UsmStat) (state : UsmState) : UsmState :=
  { state with stats := Function.update state.stats stat ((state.stats stat + 1) % 2 ^ 32) }

/-- A counter of the module goes up by one, and wraps at 32 bits. -/
theorem countedState_stats (stat : UsmStat) (state : UsmState) :
    (countedState stat state).stats stat = (state.stats stat + 1) % 2 ^ 32 := by
  simp only [countedState, Function.update_self]

/-- The status that is raised carries the counter and its new value. -/
theorem countAndRaise_run {α : Type} {stat : UsmStat} {details : StatusInformation} :
    (countAndRaise stat details : Usm α).run state =
      (.error (.statusInformation { details with
          oid := some stat.name
          val := some ((state.stats stat + 1) % 2 ^ 32) }),
        countedState stat state) := by
  rw [← countedState_stats]
  rfl

/-- The details of the report that tells a peer the engine identifier. -/
def discoveryDetails (engine : UsmEngine) (arrival : Arrival) (scopedPdu : ScopedPdu)
    (state : UsmState) : StatusInformation where
  errorIndication := .unknownEngineID
  oid := some UsmStat.unknownEngineIDs.name
  val := some ((state.stats .unknownEngineIDs + 1) % 2 ^ 32)
  securityStateReference := some (engine.stateReference state.drawnReferences)
  securityLevel := some arrival.securityLevel
  contextEngineId := some scopedPdu.contextEngineId
  contextName := some scopedPdu.contextName
  maxSizeResponseScopedPDU := some (responseRoom arrival)
  scopedPDU := some scopedPdu

/-- A message in plain text that names no engine is answered with a report, if the engine is to be
discovered. -/
theorem processIncomingMsg_run_of_probe
    (hparameters : messageParameters engine arrival = some parameters)
    (hnames : NamesNoEngine state engine parameters)
    (hdiscoverable : engine.pysnmpUsmDiscoverable = true)
    (hdata : arrival.scopedPduData = .plaintext scopedPdu) :
    (processIncomingMsg engine arrival).run state =
      (.error (.statusInformation (discoveryDetails engine arrival scopedPdu state)),
        countedState .unknownEngineIDs
          (stashed engine ⟨parameters.msgUserName, none⟩ state)) := by
  let pushed := stashed engine ⟨parameters.msgUserName, none⟩ state
  have hpush : (pushCache engine ⟨parameters.msgUserName, none⟩).run state =
      (.ok (engine.stateReference state.drawnReferences), pushed) := rfl
  have hcount : (countStat .unknownEngineIDs).run pushed =
      (.ok (), countedState .unknownEngineIDs pushed) := rfl
  have hvalue : (countedState .unknownEngineIDs pushed).stats .unknownEngineIDs =
      (state.stats .unknownEngineIDs + 1) % 2 ^ 32 := countedState_stats _ pushed
  obtain ⟨hpeer, hunknown, hlength⟩ := hnames
  have hmalformed : ¬ (parameters.msgAuthoritativeEngineId ≠ [] ∧
      4 < parameters.msgAuthoritativeEngineId.length ∧
      parameters.msgAuthoritativeEngineId.length < 33) := fun hformed ↦ hlength hformed.2
  have hknown : ¬ (pushed.timeline parameters.msgAuthoritativeEngineId).isSome = true := by
    rw [show pushed.timeline = state.timeline from rfl, hunknown]
    exact Bool.false_ne_true
  have hdiscover : (discoverEngine engine arrival parameters (responseRoom arrival)
      (engine.stateReference state.drawnReferences)).run pushed =
        (.error (.statusInformation (discoveryDetails engine arrival scopedPdu state)),
          countedState .unknownEngineIDs pushed) := by
    unfold discoverEngine
    rw [bind_run_of_ok (gets_run _ _), if_pos ⟨hpeer, hknown⟩, if_neg hmalformed,
      bind_run_of_ok hcount, if_pos hdiscoverable]
    simp only [hdata]
    rw [bind_run_of_ok (gets_run _ _), hvalue]
    rfl
  have hidentify : (identifyMessage engine arrival).run state =
      (.error (.statusInformation (discoveryDetails engine arrival scopedPdu state)),
        countedState .unknownEngineIDs pushed) := by
    rw [identifyMessage, bind_run_of_ok (readSecurityParameters_run hparameters),
      bind_run_of_ok hpush]
    exact bind_run_of_error hdiscover
  rw [processIncomingMsg_eq]
  exact bind_run_of_error hidentify

/-- The details of the report that tells a peer the boots and time. -/
def latenessDetails (engine : UsmEngine) (arrival : Arrival) (parameters : UsmSecurityParameters)
    (state : UsmState) : StatusInformation where
  errorIndication := .notInTimeWindow
  oid := some UsmStat.notInTimeWindows.name
  val := some ((state.stats .notInTimeWindows + 1) % 2 ^ 32)
  securityStateReference := some (referenceOf engine state)
  securityLevel := some .authNoPriv
  contextEngineId := some engine.snmpEngineID
  contextName := some []
  msgUserName := some parameters.msgUserName
  maxSizeResponseScopedPDU := some (responseRoom arrival)

/-- A message whose digest is accepted, but not its boots and time, is answered with a report. -/
theorem processIncomingMsg_run_of_late
    (hidentified : Identified state engine arrival parameters user)
    (hlevel : arrival.securityLevel.isAuthenticated = true)
    (hdigest : DigestAccepted engine arrival parameters user)
    (hlocal : parameters.msgAuthoritativeEngineId = engine.snmpEngineID)
    (hlate : ¬ InLocalWindow engine parameters) :
    (processIncomingMsg engine arrival).run state =
      (.error (.statusInformation (latenessDetails engine arrival parameters state)),
        countedState .notInTimeWindows (synchronizedState engine arrival parameters
          (identifiedState engine parameters user state))) := by
  let message : IdentifiedMessage :=
    ⟨parameters, user, responseRoom arrival, referenceOf engine state⟩
  let identified := identifiedState engine parameters user state
  have hoperator : engine.snmpEngineBoots = maxEngineBoots ∨
      engine.snmpEngineBoots ≠ parameters.msgAuthoritativeEngineBoots ∨
      timeWindow < |(engine.snmpEngineTime : ℤ) - parameters.msgAuthoritativeEngineTime| := by
    by_contra hwindow
    push Not at hwindow
    exact hlate hwindow
  have hcheck : (checkTimeliness engine arrival message).run
      (synchronizedState engine arrival parameters identified) =
        (.error (.statusInformation (latenessDetails engine arrival parameters state)),
          countedState .notInTimeWindows (synchronizedState engine arrival parameters
            identified)) := by
    unfold checkTimeliness checkLocalTimeliness
    rw [if_pos (show message.parameters.msgAuthoritativeEngineId = engine.snmpEngineID from hlocal),
      if_pos hoperator, countAndRaise_run]
    rfl
  rw [processIncomingMsg_eq, bind_run_of_ok (identifyMessage_run_of_user hidentified.parameters_eq
    hidentified.namesEngine hidentified.user_eq), verifyMessage,
    bind_run_of_ok (checkSecurityLevel_run_of_identified hidentified.level), if_pos hlevel,
    bind_run_of_ok (authenticateMessage_run_of_accepted hdigest),
    bind_run_of_ok synchronizeTimeline_run]
  exact bind_run_of_error hcheck

end Refusing

/-! ### Messages that are made -/

section Sending

variable {sender : UsmSender} {selected : Selected} {state after : UsmState}

/-- The boots and time that a message carries. -/
def timesOf (sender : UsmSender) (selected : Selected) (pduType : PduType) (state : UsmState) :
    ℕ × ℕ :=
  if selected.securityLevel.isAuthenticated then
    if pduType.isUnconfirmedClass then
      (sender.engine.snmpEngineBoots, sender.engine.snmpEngineTime)
    else
      match state.timeline selected.securityEngineID with
      | some entry => (entry.engineBoots, entry.engineTime)
      | none => (0, 0)
  else
    (0, 0)

/-- The times written to a message are those of the engine it is for. -/
theorem engineTimes_run {pduType : PduType} :
    (engineTimes sender selected pduType).run state =
      (.ok (timesOf sender selected pduType state), state) := by
  unfold engineTimes timesOf
  split_ifs with hlevel hpdu
  · rfl
  · rw [bind_run_of_ok (gets_run _ _)]
    cases state.timeline selected.securityEngineID with
    | none => rfl
    | some entry => rfl
  · rfl

/-- The check of the level asked for changes nothing. -/
theorem checkUserLevel_eq_ok {done : Unit}
    (hrun : (checkUserLevel selected).run state = (.ok done, after)) : after = state := by
  unfold checkUserLevel at hrun
  split_ifs at hrun
  · cases hrun
  · cases hrun
    rfl

/-- Encoding changes nothing in the module. -/
theorem orSerializationError_eq_ok {α : Type} {encoded : Except Unit α} {value : α}
    (hrun : (orSerializationError encoded).run state = (.ok value, after)) :
    encoded = .ok value ∧ after = state := by
  cases encoded with
  | error error => cases hrun
  | ok found =>
    cases hrun
    exact ⟨rfl, rfl⟩

/-- A security service changes nothing in the module. -/
theorem orServiceError_eq_ok {α : Type} {result : Except ServiceError α} {value : α}
    (hrun : (orServiceError result).run state = (.ok value, after)) :
    result = .ok value ∧ after = state := by
  unfold orServiceError at hrun
  split at hrun
  · cases hrun
    exact ⟨rfl, rfl⟩
  · cases hrun
  · cases hrun
  · cases hrun

/-- What a message carries of its scoped PDU: the ciphertext with its salt at the level with
privacy, else the scoped PDU itself. -/
def Enciphered (sender : UsmSender) (selected : Selected) (times : ℕ × ℕ)
    (scopedPduData : ScopedPduData) (privParameters : Octets) : Prop :=
  if selected.securityLevel = .authPriv then
    ∃ privHandler dataToEncrypt encryptedData,
      sender.privServices selected.user.usmUserPrivProtocol = some privHandler ∧
      sender.encodeScopedPdu selected.scopedPDU = .ok dataToEncrypt ∧
      privHandler.encryptData selected.user.usmUserPrivKeyLocalized times dataToEncrypt =
        .ok (encryptedData, privParameters) ∧
      scopedPduData = .encryptedPdu encryptedData
  else
    scopedPduData = .plaintext selected.scopedPDU ∧ privParameters = []

/-- A message that went out was enciphered for its user, where its level asks for it. -/
theorem encryptScopedPdu_eq_ok {times : ℕ × ℕ} {carried : ScopedPduData × Octets}
    (hrun : (encryptScopedPdu sender selected times).run state = (.ok carried, after)) :
    Enciphered sender selected times carried.1 carried.2 ∧ after = state := by
  unfold encryptScopedPdu at hrun
  unfold Enciphered
  split_ifs at hrun ⊢ with hlevel
  · split at hrun
    · cases hrun
    · next privHandler hservice =>
      obtain ⟨dataToEncrypt, first, hfirst, hrun⟩ := bind_eq_ok_iff.mp hrun
      obtain ⟨⟨encryptedData, privParameters⟩, second, hsecond, hrun⟩ := bind_eq_ok_iff.mp hrun
      obtain ⟨hencode, hkeptFirst⟩ := orSerializationError_eq_ok hfirst
      obtain ⟨hencrypt, hkeptSecond⟩ := orServiceError_eq_ok hsecond
      cases hrun
      exact ⟨⟨privHandler, dataToEncrypt, encryptedData, hservice, hencode, hencrypt, rfl⟩,
        hkeptSecond.trans hkeptFirst⟩
  · cases hrun
    exact ⟨⟨rfl, rfl⟩, rfl⟩

/-- How a message is serialized: with the digest of the user's service at a level with
authentication, else with an empty one. -/
def Signed (sender : UsmSender) (selected : Selected) (parameters : OutgoingParameters)
    (scopedPduData : ScopedPduData) (authenticatedWholeMsg : Octets) : Prop :=
  if selected.securityLevel.isAuthenticated = true then
    ∃ authHandler wholeMsg,
      sender.authServices selected.user.usmUserAuthProtocol = some authHandler ∧
      sender.encodeMsg selected.globalData parameters (List.replicate authHandler.digestLength 0)
        scopedPduData = .ok wholeMsg ∧
      authHandler.authenticateOutgoingMsg selected.user.usmUserAuthKeyLocalized wholeMsg =
        .ok authenticatedWholeMsg
  else
    sender.encodeMsg selected.globalData parameters [] scopedPduData = .ok authenticatedWholeMsg

/-- A message that went out was signed for its user, where its level asks for it. -/
theorem authenticateOutgoing_eq_ok {parameters : OutgoingParameters}
    {scopedPduData : ScopedPduData} {authenticatedWholeMsg : Octets}
    (hrun : (authenticateOutgoing sender selected parameters scopedPduData).run state =
      (.ok authenticatedWholeMsg, after)) :
    Signed sender selected parameters scopedPduData authenticatedWholeMsg ∧ after = state := by
  unfold authenticateOutgoing at hrun
  unfold Signed
  split_ifs at hrun ⊢ with hlevel
  · split at hrun
    · cases hrun
    · next authHandler hservice =>
      obtain ⟨wholeMsg, first, hfirst, hrun⟩ := bind_eq_ok_iff.mp hrun
      obtain ⟨hencode, hkept⟩ := orSerializationError_eq_ok hfirst
      obtain ⟨hdigest, hkeptLast⟩ := orServiceError_eq_ok hrun
      exact ⟨⟨authHandler, wholeMsg, hservice, hencode, hdigest⟩, hkeptLast.trans hkept⟩
  · exact orSerializationError_eq_ok hrun

/-- The security parameters of a message, but for the digest. -/
def parametersOf (selected : Selected) (times : ℕ × ℕ) (privParameters : Octets) :
    OutgoingParameters where
  msgAuthoritativeEngineId := selected.securityEngineID
  msgAuthoritativeEngineBoots := times.1
  msgAuthoritativeEngineTime := times.2
  msgUserName := selected.user.usmUserName
  msgPrivacyParameters := privParameters

/-- A message is made for a user, and what it takes from the state after that is the boots and time
of its peer. -/
theorem generateRequestOrResponseMsg_eq_ok {outgoing : Outgoing} {message : OutgoingMessage}
    (hrun : (generateRequestOrResponseMsg sender outgoing).run state = (.ok message, after)) :
    ∃ selected scopedPduData privParameters,
      (selectUser sender outgoing).run state = (.ok selected, after) ∧
      Enciphered sender selected (timesOf sender selected outgoing.pduType after) scopedPduData
        privParameters ∧
      message.parameters =
        parametersOf selected (timesOf sender selected outgoing.pduType after) privParameters ∧
      Signed sender selected message.parameters scopedPduData message.authenticatedWholeMsg := by
  obtain ⟨selected, first, hselect, hrun⟩ := bind_eq_ok_iff.mp hrun
  obtain ⟨_, second, hcheck, hrun⟩ := bind_eq_ok_iff.mp hrun
  rw [bind_run_of_ok engineTimes_run, checkUserLevel_eq_ok hcheck] at hrun
  obtain ⟨⟨scopedPduData, privParameters⟩, third, hthird, hrun⟩ := bind_eq_ok_iff.mp hrun
  obtain ⟨hencrypt, hkeptThird⟩ := encryptScopedPdu_eq_ok hthird
  obtain ⟨authenticatedWholeMsg, fourth, hfourth, hrun⟩ := bind_eq_ok_iff.mp hrun
  obtain ⟨hsign, hkeptFourth⟩ := authenticateOutgoing_eq_ok hfourth
  cases hrun
  obtain rfl : after = first := hkeptFourth.trans hkeptThird
  exact ⟨selected, scopedPduData, privParameters, hselect, hencrypt, rfl, hsign⟩

/-- The state after a message that is made is the one after its user is selected. -/
theorem generateRequestOrResponseMsg_run {outgoing : Outgoing} {selected : Selected}
    {message : OutgoingMessage}
    (hselect : (selectUser sender outgoing).run state = (.ok selected, after))
    (hok : ((generateRequestOrResponseMsg sender outgoing).run state).1 = .ok message) :
    (generateRequestOrResponseMsg sender outgoing).run state = (.ok message, after) := by
  obtain ⟨_, _, _, hfound, -⟩ := generateRequestOrResponseMsg_eq_ok (Prod.ext hok rfl)
  exact Prod.ext hok (Prod.mk.inj (hfound.symm.trans hselect)).2

end Sending

/-! ### Engines that agree -/

/-- The sending side of a digest service. -/
def outgoingDigest (service : DigestService) : OutgoingAuthentication where
  digestLength := service.digestLength
  authenticateOutgoingMsg := fun authKey ↦ service.authenticateOutgoingMsg (authKey.getD [])

/-- The receiving side of a digest service. -/
def incomingDigest (service : DigestService) : AuthenticationService where
  authenticateIncomingMsg := fun authKey ↦ service.authenticateIncomingMsg (authKey.getD [])

/-- The exceptions of a privacy service as the security model tells them apart. -/
def ofPrivacyError : Privacy.PrivacyError → ServiceError
  | .statusInformation errorIndication => .statusInformation errorIndication
  | .valueError => .otherException

/-- The sending side of a privacy service that makes its next salt of the integer. -/
def outgoingPrivacy (service : Privacy.PrivacyService) (backend : Option Privacy.CipherBackend)
    (localInt : ℕ) : OutgoingPrivacy where
  encryptData := fun privKey times dataToEncrypt ↦
    ((service.encryptData backend (privKey.getD []) ⟨times.1, times.2, []⟩ dataToEncrypt).run
      localInt).1.mapError ofPrivacyError

/-- The receiving side of a privacy service. -/
def incomingPrivacy (service : Privacy.PrivacyService) (backend : Option Privacy.CipherBackend) :
    PrivacyService where
  decryptData := fun privKey privParameters encryptedData ↦
    (service.decryptData backend (privKey.getD [])
      ⟨privParameters.1, privParameters.2.1, privParameters.2.2⟩ encryptedData).mapError
        ofPrivacyError

/-- The receiver reads what the sender writes, and both have the same digest services. -/
structure Agree (codec : MessageCodec) (digests : Oid → Option DigestService) (sender : UsmSender)
    (engine : UsmEngine) : Prop where
  encodeScopedPdu : sender.encodeScopedPdu = codec.encodeScopedPdu
  encodeMsg : sender.encodeMsg = codec.encodeMsg
  decodeSecurityParameters : engine.decodeSecurityParameters = codec.decodeSecurityParameters
  decodeScopedPdu : engine.decodeScopedPdu = codec.decodeScopedPdu
  signs : ∀ protocol service, digests protocol = some service →
    sender.authServices protocol = some (outgoingDigest service)
  verifies : ∀ protocol service, digests protocol = some service →
    engine.authServices protocol = some (incomingDigest service)

/-- Two users with the same protocols and keys. -/
structure SameSecrets (user peer : UsmUser) : Prop where
  authProtocol : peer.usmUserAuthProtocol = user.usmUserAuthProtocol
  authKey : peer.usmUserAuthKeyLocalized = user.usmUserAuthKeyLocalized
  privProtocol : peer.usmUserPrivProtocol = user.usmUserPrivProtocol
  privKey : peer.usmUserPrivKeyLocalized = user.usmUserPrivKeyLocalized

/-- What the sender encrypts with the keys of a user, the receiver decrypts, with padding behind
it. -/
def Deciphers (sender : UsmSender) (engine : UsmEngine) (user : UsmUser) : Prop :=
  ∀ privHandler, sender.privServices user.usmUserPrivProtocol = some privHandler →
    ∃ peerHandler, engine.privServices user.usmUserPrivProtocol = some peerHandler ∧
      ∀ times plaintext ciphertext salt,
        privHandler.encryptData user.usmUserPrivKeyLocalized times plaintext =
          .ok (ciphertext, salt) →
        ∃ padding, peerHandler.decryptData user.usmUserPrivKeyLocalized (times.1, times.2, salt)
          ciphertext = .ok (plaintext ++ padding)

/-- The services of this package decipher what they encipher, under a key of their length. -/
theorem deciphers_of_service {sender : UsmSender} {engine : UsmEngine} {user : UsmUser}
    {service : Privacy.PrivacyService} {backend : Privacy.CipherBackend} {localInt : ℕ}
    (hkey : (user.usmUserPrivKeyLocalized.getD []).length = service.keySize)
    (hsends : sender.privServices user.usmUserPrivProtocol =
      some (outgoingPrivacy service (some backend) localInt))
    (hreceives : engine.privServices user.usmUserPrivProtocol =
      some (incomingPrivacy service (some backend))) :
    Deciphers sender engine user := by
  intro privHandler hservice
  obtain rfl := Option.some.inj (hsends.symm.trans hservice)
  refine ⟨_, hreceives, fun times plaintext ciphertext salt hencrypt ↦ ?_⟩
  obtain ⟨found, foundSalt, after, hfound, -, hround⟩ := Privacy.exists_encryptData_decryptData
    backend service hkey ⟨times.1, times.2, []⟩ plaintext localInt
  simp only [outgoingPrivacy, hfound] at hencrypt
  obtain ⟨rfl, rfl⟩ := Prod.mk.inj (Except.ok.inj hencrypt)
  exact ⟨_, congrArg (Except.mapError ofPrivacyError) hround⟩

/-- The digest of a message stands between `head` and `tail`. -/
def DigestField (codec : MessageCodec) (globalData : GlobalData) (parameters : OutgoingParameters)
    (scopedPduData : ScopedPduData) (digestLength : ℕ) (head tail : Octets) : Prop :=
  ∀ digest : Octets, digest.length = digestLength →
    codec.encodeMsg globalData parameters digest scopedPduData = .ok (head ++ digest ++ tail)

/-- In the message that is made for a user, neither a run of zeros nor the digest starts before the
field of the digest. -/
def DigestFoundAtField (codec : MessageCodec) (service : DigestService) (sender : UsmSender)
    (selected : Selected) (times : ℕ × ℕ) : Prop :=
  let authKey := selected.user.usmUserAuthKeyLocalized.getD []
  ∀ scopedPduData privParameters, Enciphered sender selected times scopedPduData privParameters →
    ∀ head tail, DigestField codec selected.globalData (parametersOf selected times privParameters)
        scopedPduData service.digestLength head tail →
      PlaceholderFoundAtField service head tail ∧
        FirstOccurrence.find (messageDigest service authKey head tail)
          (authenticatedMsg service authKey head tail) = some head.length

/-- Where the digest of a message stands, two encodings of it tell. -/
theorem DigestField.eq_of_encoded {codec : MessageCodec} {globalData : GlobalData}
    {parameters : OutgoingParameters} {scopedPduData : ScopedPduData} {digestLength : ℕ}
    {head tail first last : Octets}
    (hfield : DigestField codec globalData parameters scopedPduData digestLength head tail)
    (hpos : 0 < digestLength)
    (hencoded : ∀ octet ∈ ([0, 1] : Octets),
      codec.encodeMsg globalData parameters (List.replicate digestLength octet) scopedPduData =
        .ok (first ++ List.replicate digestLength octet ++ last)) :
    head = first ∧ tail = last := by
  have hsame : ∀ octet ∈ ([0, 1] : Octets), head ++ (List.replicate digestLength octet ++ tail) =
      first ++ (List.replicate digestLength octet ++ last) := by
    intro octet hoctet
    have hequal := (hfield _ List.length_replicate).symm.trans (hencoded octet hoctet)
    simpa only [List.append_assoc] using Except.ok.inj hequal
  -- The octet where the shorter head ends would be 0 and 1.
  have hat : ∀ {one other mid after : Octets} {octet : UInt8}, one.length < other.length →
      one ++ (List.replicate digestLength octet ++ mid) =
        other ++ (List.replicate digestLength octet ++ after) →
      other[one.length]? = some octet := by
    intro one other mid after octet hshort heq
    have hget := congrArg (·[one.length]?) heq
    simp only [List.getElem?_append_right le_rfl, Nat.sub_self,
      List.getElem?_append_left hshort] at hget
    rw [← hget, List.getElem?_append_left (by simpa using hpos)]
    simp [hpos]
  have hlength : head.length = first.length := by
    rcases Nat.lt_trichotomy head.length first.length with hshort | hsame' | hshort
    · have hzero := hat hshort (hsame 0 (by simp))
      have hone := hat hshort (hsame 1 (by simp))
      exact absurd (hzero.symm.trans hone) (by decide)
    · exact hsame'
    · have hzero := hat hshort (hsame 0 (by simp)).symm
      have hone := hat hshort (hsame 1 (by simp)).symm
      exact absurd (hzero.symm.trans hone) (by decide)
  obtain ⟨hhead, hrest⟩ := List.append_inj (hsame 0 (by simp)) hlength
  exact ⟨hhead, List.append_cancel_left hrest⟩

/-- Where all that a message may carry of its scoped PDU is known, the message is one up to the
digest, so that the field of the digest can be looked at there. -/
theorem digestFoundAtField_of_encoded {codec : MessageCodec} {service : DigestService}
    {sender : UsmSender} {selected : Selected} {times : ℕ × ℕ} {first last salt : Octets}
    {carried : ScopedPduData}
    (hcarried : ∀ scopedPduData privParameters,
      Enciphered sender selected times scopedPduData privParameters →
        scopedPduData = carried ∧ privParameters = salt)
    (hencoded : ∀ octet ∈ ([0, 1] : Octets),
      codec.encodeMsg selected.globalData (parametersOf selected times salt)
          (List.replicate service.digestLength octet) carried =
        .ok (first ++ List.replicate service.digestLength octet ++ last))
    (hplace : PlaceholderFoundAtField service first last)
    (hfind : FirstOccurrence.find
      (messageDigest service (selected.user.usmUserAuthKeyLocalized.getD []) first last)
      (authenticatedMsg service (selected.user.usmUserAuthKeyLocalized.getD []) first last) =
        some first.length) :
    DigestFoundAtField codec service sender selected times := by
  intro scopedPduData privParameters hencipher head tail hfield
  obtain ⟨rfl, rfl⟩ := hcarried _ _ hencipher
  obtain ⟨rfl, rfl⟩ := hfield.eq_of_encoded service.digestLength_pos hencoded
  exact ⟨hplace, hfind⟩

/-- The level that the flags of a message say, if they say one. -/
def securityLevelOf (msgFlags : UInt8) : Option SecurityLevel :=
  if msgFlags &&& 0x03 = 0x00 then
    some .noAuthNoPriv
  else if msgFlags &&& 0x03 = 0x01 then
    some .authNoPriv
  else if msgFlags &&& 0x03 = 0x03 then
    some .authPriv
  else
    none

/-- What the sender makes for a user is understood by the receiver, who has a user with the same
secrets for it. -/
structure Understood (codec : MessageCodec) (digests : Oid → Option DigestService)
    (sender : UsmSender) (engine : UsmEngine) (selected : Selected) (times : ℕ × ℕ)
    (user : UsmUser) : Prop where
  agree : Agree codec digests sender engine
  sameSecrets : SameSecrets selected.user user
  found : selected.securityLevel.isAuthenticated = true →
    ∃ service, digests user.usmUserAuthProtocol = some service ∧
      DigestFoundAtField codec service sender selected times
  deciphers : selected.securityLevel = .authPriv → Deciphers sender engine user
  globalData : InRange selected.globalData
  flags : securityLevelOf selected.globalData.msgFlags = some selected.securityLevel

/-- The message of an arrival is the decoded one. -/
structure IsOf (arrival : Arrival) (receivedMsg : ReceivedMsg) : Prop where
  maxMessageSize : arrival.maxMessageSize = receivedMsg.globalData.msgMaxSize
  securityParameters : arrival.securityParameters = receivedMsg.msgSecurityParameters
  securityLevel : securityLevelOf receivedMsg.globalData.msgFlags = some arrival.securityLevel
  scopedPduData : arrival.scopedPduData = receivedMsg.msgData

section Agreement

variable {codec : MessageCodec} {digests : Oid → Option DigestService} {sender : UsmSender}
  {engine : UsmEngine} {selected : Selected} {times : ℕ × ℕ} {user : UsmUser}
  {scopedPduData : ScopedPduData} {privParameters wholeMsg : Octets}

/-- An authenticated message is serialized with a digest that the receiver accepts. -/
theorem exists_digest_of_authenticated
    (hunderstood : Understood codec digests sender engine selected times user)
    (hlevel : selected.securityLevel.isAuthenticated = true)
    (hencipher : Enciphered sender selected times scopedPduData privParameters)
    (hsign : Signed sender selected (parametersOf selected times privParameters) scopedPduData
      wholeMsg) :
    ∃ digest, codec.encodeMsg selected.globalData (parametersOf selected times privParameters)
        digest scopedPduData = .ok wholeMsg ∧
      ∀ (arrival : Arrival) (parameters : UsmSecurityParameters), arrival.wholeMsg = wholeMsg →
        parameters.msgAuthenticationParameters = digest →
        DigestAccepted engine arrival parameters user := by
  obtain ⟨service, hservice, hfound⟩ := hunderstood.found hlevel
  obtain ⟨hprotocol, hkey, -, -⟩ := hunderstood.sameSecrets
  rw [Signed, if_pos hlevel] at hsign
  obtain ⟨authHandler, serialized, hhandler, hencode, hdigest⟩ := hsign
  rw [hprotocol] at hservice
  obtain rfl : outgoingDigest service = authHandler :=
    Option.some.inj ((hunderstood.agree.signs _ _ hservice).symm.trans hhandler)
  rw [hunderstood.agree.encodeMsg] at hencode
  obtain ⟨head, tail, hserialized, hinPlace⟩ := codec.digest_inPlace hencode
  have hfield : DigestField codec selected.globalData (parametersOf selected times privParameters)
      scopedPduData service.digestLength head tail := fun digest hlength ↦
    hinPlace digest (hlength.trans List.length_replicate.symm)
  obtain ⟨hplace, hfind⟩ := hfound scopedPduData privParameters hencipher head tail hfield
  obtain ⟨houtgoing, hincoming⟩ := placesDigest_of_found_at_field service
    (selected.user.usmUserAuthKeyLocalized.getD []) head tail hplace hfind
  have hwhole : authenticatedMsg service (selected.user.usmUserAuthKeyLocalized.getD []) head
      tail = wholeMsg := by
    rw [hserialized] at hdigest
    exact Except.ok.inj (houtgoing.symm.trans hdigest)
  refine ⟨messageDigest service (selected.user.usmUserAuthKeyLocalized.getD []) head tail, ?_,
    fun arrival parameters harrival hparameters ↦ ?_⟩
  · rw [← hwhole]
    exact hfield _ (length_messageDigest service _ head tail)
  · refine ⟨incomingDigest service, serializedMsg service head tail, ?_, ?_⟩
    · rw [hprotocol]
      exact hunderstood.agree.verifies _ _ hservice
    · rw [hkey, hparameters, harrival, ← hwhole]
      exact hincoming

/-- A message is serialized with a digest that the receiver accepts where it checks one. -/
theorem exists_digest_of_signed
    (hunderstood : Understood codec digests sender engine selected times user)
    (hencipher : Enciphered sender selected times scopedPduData privParameters)
    (hsign : Signed sender selected (parametersOf selected times privParameters) scopedPduData
      wholeMsg) :
    ∃ digest, codec.encodeMsg selected.globalData (parametersOf selected times privParameters)
        digest scopedPduData = .ok wholeMsg ∧
      ∀ (arrival : Arrival) (parameters : UsmSecurityParameters), arrival.wholeMsg = wholeMsg →
        parameters.msgAuthenticationParameters = digest →
        selected.securityLevel.isAuthenticated = true →
        DigestAccepted engine arrival parameters user := by
  by_cases hlevel : selected.securityLevel.isAuthenticated = true
  · obtain ⟨digest, hencode, haccepted⟩ :=
      exists_digest_of_authenticated hunderstood hlevel hencipher hsign
    exact ⟨digest, hencode, fun arrival parameters harrival hparameters _ ↦
      haccepted arrival parameters harrival hparameters⟩
  · rw [Signed, if_neg hlevel, hunderstood.agree.encodeMsg] at hsign
    exact ⟨[], hsign, fun _ _ _ _ hauthenticated ↦ absurd hauthenticated hlevel⟩

/-- The receiver reads the scoped PDU that was made into the message. -/
theorem carries_of_enciphered
    (hunderstood : Understood codec digests sender engine selected times user)
    (hencipher : Enciphered sender selected times scopedPduData privParameters)
    (hrange : ParametersInRange (parametersOf selected times privParameters)) (digest : Octets)
    {arrival : Arrival} (hlevel : arrival.securityLevel = selected.securityLevel)
    (hdata : arrival.scopedPduData = scopedPduData) :
    Carries engine arrival (received (parametersOf selected times privParameters) digest hrange)
      user selected.scopedPDU := by
  unfold Enciphered at hencipher
  unfold Carries
  rw [hdata]
  split_ifs at hencipher with hpriv
  · obtain ⟨privHandler, dataToEncrypt, encryptedData, hservice, hencode, hencrypt, rfl⟩ :=
      hencipher
    obtain ⟨-, -, hprotocol, hkey⟩ := hunderstood.sameSecrets
    rw [← hprotocol] at hservice
    rw [← hkey] at hencrypt
    obtain ⟨peerHandler, hpeer, hdeciphers⟩ := hunderstood.deciphers hpriv privHandler hservice
    obtain ⟨padding, hdecrypt⟩ := hdeciphers times dataToEncrypt encryptedData _ hencrypt
    rw [hunderstood.agree.encodeScopedPdu] at hencode
    exact ⟨hlevel.trans hpriv, peerHandler, dataToEncrypt ++ padding, hpeer, hdecrypt, by
      rw [hunderstood.agree.decodeScopedPdu]
      exact codec.decodeScopedPdu_append hencode padding⟩
  · obtain ⟨rfl, -⟩ := hencipher
    exact ⟨fun hauthPriv ↦ hpriv (hlevel.symm.trans hauthPriv), rfl⟩

/-- A message that was made is decoded, and an arrival of it has the parameters and the scoped PDU
that it was made of, at the level it was made at. -/
theorem decodeMsg_of_signed
    (hunderstood : Understood codec digests sender engine selected times user)
    (hencipher : Enciphered sender selected times scopedPduData privParameters)
    (hrange : ParametersInRange (parametersOf selected times privParameters))
    (hsign : Signed sender selected (parametersOf selected times privParameters) scopedPduData
      wholeMsg) :
    ∃ receivedMsg digest, codec.decodeMsg wholeMsg = .ok (some receivedMsg) ∧
      receivedMsg.globalData = selected.globalData ∧
      ∀ arrival : Arrival, arrival.wholeMsg = wholeMsg → IsOf arrival receivedMsg →
        arrival.securityLevel = selected.securityLevel ∧
        messageParameters engine arrival =
          some (received (parametersOf selected times privParameters) digest hrange) ∧
        Carries engine arrival
          (received (parametersOf selected times privParameters) digest hrange) user
          selected.scopedPDU ∧
        (selected.securityLevel.isAuthenticated = true → DigestAccepted engine arrival
          (received (parametersOf selected times privParameters) digest hrange) user) := by
  obtain ⟨digest, hencode, haccepted⟩ := exists_digest_of_signed hunderstood hencipher hsign
  obtain ⟨msgSecurityParameters, hdecode, hparameters⟩ :=
    codec.decode_encodeMsg hencode hunderstood.globalData hrange
  refine ⟨_, digest, hdecode, rfl, fun arrival harrival hof ↦ ?_⟩
  have hlevel : arrival.securityLevel = selected.securityLevel :=
    Option.some.inj (hof.securityLevel.symm.trans hunderstood.flags)
  refine ⟨hlevel, ?_, carries_of_enciphered hunderstood hencipher hrange digest hlevel
    hof.scopedPduData, haccepted arrival _ harrival rfl⟩
  rw [messageParameters, hof.securityParameters, hunderstood.agree.decodeSecurityParameters,
    hparameters]

end Agreement

/-! ### From one engine to another -/

/-- The user the tables have under an engine identifier and a user name. -/
def userNamed (engine : UsmEngine) (engineId userName : Octets) : Except LookupError UsmUser :=
  if userName = [] then
    .ok anonymousUser
  else
    match getUserInfo engine engineId userName with
    | .error .noSuchInstance => getUserInfo engine wildcardSecurityEngineId userName
    | result => result

/-- Both directions look a user up by engine and name. -/
theorem userInfo_eq_userNamed (engine : UsmEngine) (parameters : UsmSecurityParameters) :
    userInfo engine parameters =
      userNamed engine parameters.msgAuthoritativeEngineId parameters.msgUserName :=
  rfl

/-- The boots and time of a message are in the window of the local engine. -/
def TimesInWindow (engine : UsmEngine) (parameters : OutgoingParameters) : Prop :=
  engine.snmpEngineBoots ≠ maxEngineBoots ∧
    engine.snmpEngineBoots = parameters.msgAuthoritativeEngineBoots ∧
    |(engine.snmpEngineTime : ℤ) - parameters.msgAuthoritativeEngineTime| ≤ timeWindow

/-- The level that the protocols of a user imply is not found wanting. -/
theorem badSecIndication_of_implied {user : UsmUser} {parameters : UsmSecurityParameters}
    {level : SecurityLevel} (himplied : impliedSecurityLevel user = some level) :
    badSecIndication user parameters level = none := by
  unfold impliedSecurityLevel at himplied
  split_ifs at himplied with hauth hpriv hpriv
  all_goals
    obtain rfl := Option.some.inj himplied
    simp [badSecIndication, hauth, hpriv]

section Exchange

variable {codec : MessageCodec} {digests : Oid → Option DigestService} {sender : UsmSender}
  {engine : UsmEngine} {outgoing : Outgoing} {state after : UsmState} {selected : Selected}
  {message : OutgoingMessage} {user : UsmUser}

/-- A request to a named engine is what it was asked for. -/
theorem selectUser_request (hreference : outgoing.securityStateReference = none)
    (hengine : outgoing.securityEngineID ≠ [])
    (hselect : (selectUser sender outgoing).run state = (.ok selected, after)) :
    selected.securityEngineID = outgoing.securityEngineID ∧
      selected.securityLevel = outgoing.securityLevel ∧
      selected.globalData = outgoing.globalData ∧ selected.scopedPDU = outgoing.scopedPDU := by
  unfold selectUser at hselect
  rw [hreference] at hselect
  simp only [hengine, if_false] at hselect
  obtain ⟨_, _, _, hselect⟩ := bind_eq_ok_iff.mp hselect
  cases hselect
  exact ⟨rfl, rfl, rfl, rfl⟩

/-- A response is made for the user that was cached of its request, in the name of the sender. -/
theorem selectUser_response {reference : ℕ} {cached : CachedSecurityData}
    (hreference : outgoing.securityStateReference = some reference)
    (hcached : state.cacheEntries reference = some cached) :
    (selectUser sender outgoing).run state =
      (.ok
        { user := userOfCached cached
          securityEngineID := sender.engine.snmpEngineID
          securityLevel := outgoing.securityLevel
          globalData := outgoing.globalData
          scopedPDU := outgoing.scopedPDU },
        { state with cacheEntries := Function.update state.cacheEntries reference none }) := by
  unfold selectUser
  rw [hreference]
  dsimp only
  have huser : (cachedUser reference).run state = (.ok (userOfCached cached),
      { state with cacheEntries := Function.update state.cacheEntries reference none }) := by
    unfold cachedUser
    rw [bind_run_of_ok (gets_run _ _), hcached]
    dsimp only
    rw [bind_run_of_ok (popCache_run hcached)]
    rfl
  rw [bind_run_of_ok huser]
  rfl

/-- A message that was made is accepted with the scoped PDU it was made of, if the receiver has the
user, lets it have the level, and finds the times in its window. -/
theorem processIncomingMsg_of_made
    (hselect : (selectUser sender outgoing).run state = (.ok selected, after))
    (hmade : (generateRequestOrResponseMsg sender outgoing).run state = (.ok message, after))
    (hunderstood : Understood codec digests sender engine selected
      (timesOf sender selected outgoing.pduType after) user)
    (hrange : ParametersInRange message.parameters) (hengine : selected.securityEngineID ≠ [])
    (huser : userNamed engine selected.securityEngineID selected.user.usmUserName = .ok user)
    (hlocal : selected.securityEngineID = engine.snmpEngineID →
      impliedSecurityLevel user = some selected.securityLevel ∧
        (selected.securityLevel.isAuthenticated = true →
          TimesInWindow engine message.parameters)) :
    ∃ receivedMsg digest, codec.decodeMsg message.authenticatedWholeMsg = .ok (some receivedMsg) ∧
      receivedMsg.globalData = selected.globalData ∧
      ∀ arrival : Arrival, ∀ receiver : UsmState,
        arrival.wholeMsg = message.authenticatedWholeMsg → IsOf arrival receivedMsg →
        ¬ NamesNoEngine receiver engine (received message.parameters digest hrange) →
        (selected.securityEngineID ≠ engine.snmpEngineID →
          selected.securityLevel.isAuthenticated = true →
          InPeerWindow arrival (received message.parameters digest hrange)) →
        (processIncomingMsg engine arrival).run receiver =
          (.ok (acceptedMessage engine arrival (received message.parameters digest hrange) user
              selected.scopedPDU receiver),
            acceptedState engine arrival (received message.parameters digest hrange) user
              receiver) := by
  obtain ⟨found, scopedPduData, privParameters, hfound, hencipher, hparameters, hsign⟩ :=
    generateRequestOrResponseMsg_eq_ok hmade
  obtain rfl : selected = found :=
    Except.ok.inj (Prod.mk.inj (hselect.symm.trans hfound)).1
  rw [hparameters] at hsign
  obtain ⟨receivedMsg, digest, hdecode, hglobal, harrival⟩ := decodeMsg_of_signed hunderstood
    hencipher (by rw [← hparameters]; exact hrange) hsign
  refine ⟨receivedMsg, digest, hdecode, hglobal,
    fun arrival receiver hwhole hof hnames hpeer ↦ ?_⟩
  obtain ⟨hlevel, hmessage, hcarries, hdigest⟩ := harrival arrival hwhole hof
  obtain ⟨parameters, authenticatedWholeMsg⟩ := message
  obtain rfl : parameters = _ := hparameters
  refine processIncomingMsg_run_of_authentic ⟨hmessage, hnames, ?_, ?_⟩ ?_ hcarries
    (fun hnamed ↦ hengine hnamed.2)
  · rw [userInfo_eq_userNamed]
    exact huser
  · intro hid
    rw [hlevel]
    exact badSecIndication_of_implied (hlocal hid).1
  · intro hauthenticated
    rw [hlevel] at hauthenticated
    exact ⟨hdigest hauthenticated, fun hid ↦ (hlocal hid).2 hauthenticated,
      fun hid ↦ hpeer hid hauthenticated⟩

/-- A message for the receiver itself names an engine. -/
theorem namesEngine_of_local {receiver : UsmState} {parameters : UsmSecurityParameters}
    (hid : parameters.msgAuthoritativeEngineId = engine.snmpEngineID) :
    ¬ NamesNoEngine receiver engine parameters :=
  fun hnames ↦ hnames.1 hid

/-- An identifier of five to 32 octets names an engine. -/
theorem namesEngine_of_length {receiver : UsmState} {parameters : UsmSecurityParameters}
    (hlength : 4 < parameters.msgAuthoritativeEngineId.length ∧
      parameters.msgAuthoritativeEngineId.length < 33) :
    ¬ NamesNoEngine receiver engine parameters :=
  fun hnames ↦ hnames.2.2 hlength

/-- What an accepted message leaves under the reference that was drawn for it. -/
theorem acceptedState_cacheEntries {arrival : Arrival} {parameters : UsmSecurityParameters}
    {receiver : UsmState} :
    (acceptedState engine arrival parameters user receiver).cacheEntries
      (referenceOf engine receiver) = some ⟨parameters.msgUserName, some user⟩ := by
  have hidentified : (identifiedState engine parameters user receiver).cacheEntries
      (referenceOf engine receiver) = some ⟨parameters.msgUserName, some user⟩ :=
    Function.update_self ..
  unfold acceptedState
  split_ifs
  · exact hidentified
  · exact hidentified

/-- What an accepted message leaves in the timeline. -/
theorem acceptedState_timeline {arrival : Arrival} {parameters : UsmSecurityParameters}
    {receiver : UsmState} :
    (acceptedState engine arrival parameters user receiver).timeline =
      if arrival.securityLevel.isAuthenticated = true then
        Function.update receiver.timeline parameters.msgAuthoritativeEngineId
          (some (storedEntry arrival parameters))
      else
        receiver.timeline := by
  unfold acceptedState
  split_ifs
  · rfl
  · rfl

/-- A request that one engine makes for another is accepted there: at the level that the protocols
of the user imply, with boots and time in the window. What is handed on is the scoped PDU that was
made into the message and the name of the user there; the reference leads to that user. -/
theorem processIncomingMsg_of_generateRequestMsg
    (hselect : (selectUser sender { outgoing with securityStateReference := none }).run state =
      (.ok selected, after))
    (hmade : (generateRequestMsg sender outgoing).run state = (.ok message, after))
    (hunderstood : Understood codec digests sender engine selected
      (timesOf sender selected outgoing.pduType after) user)
    (hrange : ParametersInRange message.parameters)
    (hid : outgoing.securityEngineID = engine.snmpEngineID) (hengine : engine.snmpEngineID ≠ [])
    (huser : userNamed engine engine.snmpEngineID selected.user.usmUserName = .ok user)
    (hlevel : impliedSecurityLevel user = some outgoing.securityLevel)
    (hwindow : outgoing.securityLevel.isAuthenticated = true →
      TimesInWindow engine message.parameters) :
    ∃ receivedMsg, codec.decodeMsg message.authenticatedWholeMsg = .ok (some receivedMsg) ∧
      receivedMsg.globalData = outgoing.globalData ∧
      ∀ arrival : Arrival, arrival.wholeMsg = message.authenticatedWholeMsg →
        IsOf arrival receivedMsg → ∀ receiver : UsmState, ∃ accepted last,
          (processIncomingMsg engine arrival).run receiver = (.ok accepted, last) ∧
          accepted.securityEngineID = engine.snmpEngineID ∧
          accepted.securityName = user.usmUserSecurityName ∧
          accepted.scopedPDU = outgoing.scopedPDU ∧
          last.cacheEntries accepted.securityStateReference =
            some ⟨selected.user.usmUserName, some user⟩ := by
  obtain ⟨hselectedId, hselectedLevel, hglobal, hscoped⟩ := @selectUser_request sender
    { outgoing with securityStateReference := none } _ _ _ rfl (by rw [hid]; exact hengine) hselect
  have hlocal : selected.securityEngineID = engine.snmpEngineID := hselectedId.trans hid
  obtain ⟨found, _, _, hfound, -, hparameters, -⟩ := generateRequestOrResponseMsg_eq_ok hmade
  obtain rfl : selected = found :=
    Except.ok.inj (Prod.mk.inj (hselect.symm.trans hfound)).1
  obtain ⟨receivedMsg, digest, hdecode, hglobalData, haccepted⟩ := processIncomingMsg_of_made
    hselect hmade hunderstood hrange (by rw [hlocal]; exact hengine) (by rw [hlocal]; exact huser)
    (fun _ ↦ by rw [hselectedLevel]; exact ⟨hlevel, hwindow⟩)
  have hreceivedId : (received message.parameters digest hrange).msgAuthoritativeEngineId =
      engine.snmpEngineID := by
    rw [← hlocal]
    exact congrArg OutgoingParameters.msgAuthoritativeEngineId hparameters
  have hreceivedName : (received message.parameters digest hrange).msgUserName =
      selected.user.usmUserName := congrArg OutgoingParameters.msgUserName hparameters
  refine ⟨receivedMsg, hdecode, hglobalData.trans hglobal, fun arrival hwhole hof receiver ↦ ?_⟩
  refine ⟨_, _, haccepted arrival receiver hwhole hof (namesEngine_of_local hreceivedId)
    (fun hpeer _ ↦ absurd hlocal hpeer), hreceivedId, rfl, hscoped, ?_⟩
  rw [← hreceivedName]
  exact acceptedState_cacheEntries

/-- A response or a report that one engine makes from what it cached of a request is accepted by
another that has the user under the identifier of the first. At a level with authentication the
receiver has the boots and time of the first engine afterwards. -/
theorem processIncomingMsg_of_generateResponseMsg {reference : ℕ} {cached : CachedSecurityData}
    (hreference : outgoing.securityStateReference = some reference)
    (hcached : state.cacheEntries reference = some cached)
    (hpdu : outgoing.pduType.isUnconfirmedClass = true)
    (hmade : (generateRequestOrResponseMsg sender outgoing).run state = (.ok message, after))
    (hunderstood : Understood codec digests sender engine
      { user := userOfCached cached
        securityEngineID := sender.engine.snmpEngineID
        securityLevel := outgoing.securityLevel
        globalData := outgoing.globalData
        scopedPDU := outgoing.scopedPDU }
      (if outgoing.securityLevel.isAuthenticated then
        (sender.engine.snmpEngineBoots, sender.engine.snmpEngineTime) else (0, 0)) user)
    (hrange : ParametersInRange message.parameters)
    (hid : sender.engine.snmpEngineID ≠ engine.snmpEngineID)
    (hlength : 4 < sender.engine.snmpEngineID.length ∧ sender.engine.snmpEngineID.length < 33)
    (huser : userNamed engine sender.engine.snmpEngineID cached.msgUserName = .ok user)
    (hboots : sender.engine.snmpEngineBoots ≠ maxEngineBoots) :
    ∃ receivedMsg, codec.decodeMsg message.authenticatedWholeMsg = .ok (some receivedMsg) ∧
      receivedMsg.globalData = outgoing.globalData ∧
      ∀ arrival : Arrival, arrival.wholeMsg = message.authenticatedWholeMsg →
        IsOf arrival receivedMsg →
        |(arrival.comparedAt : ℤ) - arrival.synchronizedAt| ≤ timeWindow →
        ∀ receiver : UsmState, ∃ accepted last,
          (processIncomingMsg engine arrival).run receiver = (.ok accepted, last) ∧
          accepted.securityEngineID = sender.engine.snmpEngineID ∧
          accepted.securityName = user.usmUserSecurityName ∧
          accepted.scopedPDU = outgoing.scopedPDU ∧
          last.timeline =
            if outgoing.securityLevel.isAuthenticated = true then
              Function.update receiver.timeline sender.engine.snmpEngineID (some
                { engineBoots := sender.engine.snmpEngineBoots
                  engineTime := sender.engine.snmpEngineTime
                  latestReceivedEngineTime := sender.engine.snmpEngineTime
                  latestUpdateTimestamp := arrival.synchronizedAt })
            else
              receiver.timeline := by
  have hselect := @selectUser_response sender outgoing state reference cached hreference hcached
  obtain ⟨selected, _, _, hfound, -, hparameters, -⟩ := generateRequestOrResponseMsg_eq_ok hmade
  obtain ⟨hselected, hafter⟩ := Prod.mk.inj (hselect.symm.trans hfound)
  obtain rfl := Except.ok.inj hselected
  have htimes : timesOf sender
      { user := userOfCached cached
        securityEngineID := sender.engine.snmpEngineID
        securityLevel := outgoing.securityLevel
        globalData := outgoing.globalData
        scopedPDU := outgoing.scopedPDU } outgoing.pduType after =
      if outgoing.securityLevel.isAuthenticated then
        (sender.engine.snmpEngineBoots, sender.engine.snmpEngineTime) else (0, 0) := by
    simp only [timesOf, hpdu, if_true]
  rw [← htimes] at hunderstood
  have hname : (userOfCached cached).usmUserName = cached.msgUserName := by
    unfold userOfCached
    split
    · rfl
    · rfl
  have hne : sender.engine.snmpEngineID ≠ [] :=
    List.ne_nil_of_length_pos (Nat.lt_of_le_of_lt (Nat.zero_le 4) hlength.1)
  obtain ⟨receivedMsg, digest, hdecode, hglobalData, haccepted⟩ := processIncomingMsg_of_made
    hfound hmade hunderstood hrange hne (by rw [hname]; exact huser)
    (fun hlocal ↦ absurd hlocal hid)
  have hreceived : (received message.parameters digest hrange).msgAuthoritativeEngineId =
      sender.engine.snmpEngineID :=
    congrArg OutgoingParameters.msgAuthoritativeEngineId hparameters
  rw [htimes] at hparameters
  refine ⟨receivedMsg, hdecode, hglobalData, fun arrival hwhole hof hclock receiver ↦ ?_⟩
  have hlevel : arrival.securityLevel = outgoing.securityLevel := Option.some.inj
    (hof.securityLevel.symm.trans (by rw [hglobalData]; exact hunderstood.flags))
  refine ⟨_, _, haccepted arrival receiver hwhole hof
    (namesEngine_of_length (by rw [hreceived]; exact hlength))
      (fun _ hauthenticated ↦ ⟨?_, hclock⟩),
    hreceived, rfl, rfl, ?_⟩
  · change message.parameters.msgAuthoritativeEngineBoots ≠ maxEngineBoots
    have hauth : outgoing.securityLevel.isAuthenticated = true := hauthenticated
    rw [hparameters, hauth]
    exact hboots
  · rw [acceptedState_timeline, hlevel, hreceived]
    split_ifs with hauthenticated
    · have hentry : storedEntry arrival (received message.parameters digest hrange) =
          { engineBoots := sender.engine.snmpEngineBoots
            engineTime := sender.engine.snmpEngineTime
            latestReceivedEngineTime := sender.engine.snmpEngineTime
            latestUpdateTimestamp := arrival.synchronizedAt } := by
        simp only [storedEntry, received, hparameters, parametersOf, hauthenticated, if_true]
      rw [hentry]
    · rfl

end Exchange

/-! ### A sample manager and its agent -/

section Sample

/-- What a manager and an agent write for user `u` at the level with authentication: a request
before the manager has the boots and time of the agent, the report about it, a request with them and
its response. -/
inductive SampleMade
  | early
  | lateness
  | request
  | response

namespace SampleMade

/-- The boots and time of the message. -/
def times : SampleMade → ℕ × ℕ
  | early => (0, 0)
  | lateness | request | response => (5, 1100)

/-- The serialized PDU: a request for nothing, a count of 1 of `usmStatsNotInTimeWindows`, or a
response with nothing. -/
def pdu : SampleMade → Octets
  | early | request => [160, 11, 2, 1, 1, 2, 1, 0, 2, 1, 0, 48, 0]
  | lateness =>
    [168, 28, 2, 1, 0, 2, 1, 0, 2, 1, 0, 48, 17, 48, 15, 6, 10, 43, 6, 1, 6, 3, 15, 1, 1, 2, 0, 65,
      1, 1]
  | response => [162, 11, 2, 1, 1, 2, 1, 0, 2, 1, 0, 48, 0]

/-- The HMAC-MD5-96 digest of the message. -/
def digest : SampleMade → Octets
  | early => [84, 216, 39, 156, 99, 22, 244, 60, 245, 44, 45, 167]
  | lateness => [172, 214, 54, 151, 202, 143, 176, 98, 24, 120, 181, 8]
  | request => [39, 240, 236, 124, 9, 143, 102, 246, 233, 44, 66, 81]
  | response => [178, 8, 64, 88, 57, 55, 102, 45, 23, 149, 184, 37]

/-- The header; the receiver of a request may report about it. -/
def globalData (made : SampleMade) : GlobalData where
  msgID := 1
  msgMaxSize := 65507
  msgFlags :=
    match made with
    | early | request => 5
    | lateness | response => 1
  msgSecurityModel := 3

/-- The security parameters, but for the digest. -/
def parameters (made : SampleMade) : OutgoingParameters where
  msgAuthoritativeEngineId := SampleMessage.request.engineId
  msgAuthoritativeEngineBoots := made.times.1
  msgAuthoritativeEngineTime := made.times.2
  msgUserName := [117]
  msgPrivacyParameters := []

/-- The scoped PDU. -/
def scopedPdu (made : SampleMade) : ScopedPdu where
  contextEngineId := SampleMessage.request.engineId
  contextName := []
  data := made.pdu

/-- The serialized message, with the given digest. -/
def encoded (made : SampleMade) (digest : Octets) : Except Unit Octets :=
  berCodec.encodeMsg made.globalData made.parameters digest (.plaintext made.scopedPdu)

/-- The octets of the message, with the given digest. -/
def octets (made : SampleMade) (digest : Octets) : Octets :=
  match made.encoded digest with
  | .ok octets => octets
  | .error _ => []

/-- The octets of the message. -/
def wholeMsg (made : SampleMade) : Octets :=
  made.octets made.digest

/-- The octets in front of the digest. -/
def head (made : SampleMade) : Octets :=
  made.wholeMsg.take (match made with | early => 44 | lateness | request | response => 45)

/-- The octets behind the digest. -/
def tail (made : SampleMade) : Octets :=
  made.wholeMsg.drop (match made with | early => 56 | lateness | request | response => 57)

end SampleMade

/-- HMAC-MD5-96 on the sample messages. -/
def sampleDigestService : DigestService :=
  { sampleHmacMd5 with
    mac := fun _ wholeMsg ↦
      if wholeMsg = SampleMade.early.octets (List.replicate 12 0) then
        SampleMade.early.digest
      else if wholeMsg = SampleMade.lateness.octets (List.replicate 12 0) then
        SampleMade.lateness.digest
      else if wholeMsg = SampleMade.request.octets (List.replicate 12 0) then
        SampleMade.request.digest
      else
        SampleMade.response.digest
    length_mac := fun _ _ ↦ by split_ifs <;> rfl }

/-- The digest services of both engines. -/
def sampleDigests (serviceID : Oid) : Option DigestService :=
  if serviceID = [1, 3, 6, 1, 6, 3, 10, 1, 1, 2] then some sampleDigestService else none

/-- The user as both engines have it under the identifier of the agent. -/
def sampleUser : UsmUser where
  usmUserName := [117]
  usmUserSecurityName := [117]
  usmUserAuthProtocol := [1, 3, 6, 1, 6, 3, 10, 1, 1, 2]
  usmUserAuthKeyLocalized :=
    some [30, 9, 234, 191, 50, 205, 24, 52, 135, 161, 155, 100, 98, 54, 88, 94]
  usmUserPrivProtocol := noPrivServiceID
  usmUserPrivKeyLocalized := some []

/-- An engine with the identifier that reads what `berCodec` writes. -/
def sampleReceiver (engineId : Octets) : UsmEngine :=
  { sampleEngine with
    snmpEngineID := engineId
    decodeSecurityParameters := berCodec.decodeSecurityParameters
    decodeScopedPdu := berCodec.decodeScopedPdu
    authServices := fun serviceID ↦ (sampleDigests serviceID).map incomingDigest }

/-- The sending side of the engine; its empty PDU is a request for nothing. -/
def sampleSender (engineId : Octets) : UsmSender where
  engine := sampleReceiver engineId
  sec2usr := fun _ securityName ↦ some securityName
  pysnmpUsmDiscovery := true
  cloneUserInfo := fun _ _ ↦ .error .noSuchInstance
  authServices := fun serviceID ↦ (sampleDigests serviceID).map outgoingDigest
  privServices := fun _ ↦ none
  encodeScopedPdu := berCodec.encodeScopedPdu
  encodeMsg := berCodec.encodeMsg
  emptyPdu := fun _ ↦ [160, 11, 2, 1, 2, 2, 1, 0, 2, 1, 0, 48, 0]

/-- The two sample engines share their user and digests. -/
theorem agree_sample (engineId peerId : Octets) :
    Agree berCodec sampleDigests (sampleSender engineId) (sampleReceiver peerId) where
  encodeScopedPdu := rfl
  encodeMsg := rfl
  decodeSecurityParameters := rfl
  decodeScopedPdu := rfl
  signs := fun _ _ hservice ↦ congrArg (Option.map outgoingDigest) hservice
  verifies := fun _ _ hservice ↦ congrArg (Option.map incomingDigest) hservice

/-- The sample receiver knows the sample user. -/
theorem userNamed_sample (engineId : Octets) :
    userNamed (sampleReceiver engineId) SampleMessage.request.engineId [117] = .ok sampleUser :=
  rfl

/-- What the sample messages are made for. -/
def SampleMade.selected (made : SampleMade) : Selected where
  user := sampleUser
  securityEngineID := SampleMessage.request.engineId
  securityLevel := .authNoPriv
  globalData := made.globalData
  scopedPDU := made.scopedPdu

/-- The sample digest is found first at its field. -/
theorem digestFoundAtField_sample (made : SampleMade) (sender : UsmSender) :
    DigestFoundAtField berCodec sampleDigestService sender made.selected made.times := by
  refine @digestFoundAtField_of_encoded berCodec sampleDigestService sender made.selected made.times
    made.head made.tail [] (.plaintext made.scopedPdu) (fun _ _ hplain ↦ hplain) ?_ ?_ ?_
  · cases made <;> decide +kernel
  · cases made <;> decide +kernel
  · cases made <;> decide +kernel

/-- The sample receiver understands every message of the sample sender. -/
theorem understood_sample (made : SampleMade) (engineId peerId : Octets) :
    Understood berCodec sampleDigests (sampleSender engineId) (sampleReceiver peerId) made.selected
      made.times sampleUser where
  agree := agree_sample engineId peerId
  sameSecrets := ⟨rfl, rfl, rfl, rfl⟩
  found := fun _ ↦ ⟨sampleDigestService, rfl, digestFoundAtField_sample made _⟩
  deciphers := nofun
  globalData := by cases made <;> decide
  flags := by cases made <;> decide

/-- What the manager asks its security model for. -/
def SampleMade.outgoing (made : SampleMade) (pduType : PduType) (reference : Option ℕ) :
    Outgoing where
  globalData := made.globalData
  securityEngineID := SampleMessage.request.engineId
  securityName := [117]
  securityLevel := .authNoPriv
  scopedPDU := made.scopedPdu
  pduType := pduType
  securityStateReference := reference

/-- A sample message is made, when its user has been selected and the boots and time are its own. -/
theorem generateRequestOrResponseMsg_sample (made : SampleMade) (engineId : Octets)
    {outgoing : Outgoing} {before after : UsmState}
    (hselect : (selectUser (sampleSender engineId) outgoing).run before =
      (.ok made.selected, after))
    (htimes : timesOf (sampleSender engineId) made.selected outgoing.pduType after = made.times) :
    (generateRequestOrResponseMsg (sampleSender engineId) outgoing).run before =
      (.ok ⟨made.parameters, made.wholeMsg⟩, after) := by
  have hencode : ((sampleSender engineId).encodeMsg made.globalData made.parameters
      (List.replicate 12 0) (.plaintext made.scopedPdu)) =
        .ok (serializedMsg sampleDigestService made.head made.tail) := by
    change made.encoded (List.replicate 12 0) = _
    cases made <;> decide +kernel
  have hsign : sampleDigestService.authenticateOutgoingMsg
      [30, 9, 234, 191, 50, 205, 24, 52, 135, 161, 155, 100, 98, 54, 88, 94]
      (serializedMsg sampleDigestService made.head made.tail) = .ok made.wholeMsg := by
    cases made <;> decide +kernel
  have hcheck : (checkUserLevel made.selected).run after = (.ok (), after) := rfl
  have hencrypt : (encryptScopedPdu (sampleSender engineId) made.selected made.times).run after =
      (.ok (.plaintext made.scopedPdu, []), after) := rfl
  have hauthenticate : (authenticateOutgoing (sampleSender engineId) made.selected made.parameters
      (.plaintext made.scopedPdu)).run after = (.ok made.wholeMsg, after) := by
    have hservice : (sampleSender engineId).authServices made.selected.user.usmUserAuthProtocol =
        some (outgoingDigest sampleDigestService) := rfl
    unfold authenticateOutgoing
    rw [if_pos (show made.selected.securityLevel.isAuthenticated = true from rfl), hservice]
    dsimp only
    rw [show (sampleSender engineId).encodeMsg made.selected.globalData made.parameters
      (List.replicate (outgoingDigest sampleDigestService).digestLength 0)
      (.plaintext made.scopedPdu) = _ from hencode]
    unfold orSerializationError
    rw [pure_bind]
    change (orServiceError (sampleDigestService.authenticateOutgoingMsg _ _)).run after = _
    rw [show made.selected.user.usmUserAuthKeyLocalized.getD [] =
      [30, 9, 234, 191, 50, 205, 24, 52, 135, 161, 155, 100, 98, 54, 88, 94] from rfl, hsign]
    rfl
  rw [generateRequestOrResponseMsg, bind_run_of_ok hselect, bind_run_of_ok hcheck,
    bind_run_of_ok engineTimes_run, htimes, bind_run_of_ok hencrypt]
  exact bind_run_of_ok hauthenticate

/-- A manager that has the boots and time of the agent. -/
def synchronizedManager : UsmState :=
  { initialState with
    timeline := Function.update initialState.timeline SampleMessage.request.engineId
      (some ⟨5, 1100, 1100, 0⟩) }

/-- A localized privacy key. -/
def sampleAesKey : Octets :=
  [0x2b, 0x7e, 0x15, 0x16, 0x28, 0xae, 0xd2, 0xa6, 0xab, 0xf7, 0x15, 0x88, 0x09, 0xcf, 0x4f, 0x3c]

/-- AES under that key on the two blocks that the request takes: boots 5, time 1100 and salt 0, and
the first block of the ciphertext. -/
def sampleAes : Foundation.BlockModes.BlockCipher 16 :=
  Privacy.inTurn
    (Privacy.exchanging [0, 0, 0, 5, 0, 0, 4, 76, 0, 0, 0, 0, 0, 0, 0, 0]
      [151, 6, 163, 19, 232, 151, 228, 201, 195, 154, 194, 91, 118, 244, 191, 20] rfl rfl)
    (Privacy.exchanging [167, 17, 167, 21, 104, 151, 251, 65, 199, 155, 198, 91, 214, 255, 189, 21]
      [125, 129, 206, 31, 194, 168, 83, 221, 144, 117, 243, 11, 26, 208, 89, 114] rfl rfl)

/-- The ciphers of both engines. -/
def sampleCiphers : Privacy.CipherBackend :=
  { Privacy.publishedBackend with aes := sampleAes }

/-- What the request carries at the level with privacy: its scoped PDU under AES. -/
def sampleCiphertext : Octets :=
  [167, 17, 167, 21, 104, 151, 251, 65, 199, 155, 198, 91, 214, 255, 189, 21, 124, 131, 207, 31,
    192, 169, 83, 237, 144]

/-- The user with AES. -/
def privateUser : UsmUser :=
  { sampleUser with
    usmUserPrivProtocol := [1, 3, 6, 1, 6, 3, 10, 1, 2, 4]
    usmUserPrivKeyLocalized := some sampleAesKey }

/-- What the request is made for at the level with privacy. -/
def privateSelected : Selected where
  user := privateUser
  securityEngineID := SampleMessage.request.engineId
  securityLevel := .authPriv
  globalData := { SampleMade.request.globalData with msgFlags := 7 }
  scopedPDU := SampleMade.request.scopedPdu

/-- The request at the level with privacy, with the given digest. -/
def privateEncoded (digest : Octets) : Except Unit Octets :=
  berCodec.encodeMsg privateSelected.globalData
    (parametersOf privateSelected (5, 1100) (List.replicate 8 0)) digest
    (.encryptedPdu sampleCiphertext)

/-- The octets of the request, with the given digest. -/
def privateOctets (digest : Octets) : Octets :=
  match privateEncoded digest with
  | .ok octets => octets
  | .error _ => []

/-- The HMAC-MD5-96 digest of the request. -/
def privateDigest : Octets :=
  [169, 169, 87, 44, 54, 77, 57, 192, 204, 185, 13, 98]

/-- HMAC-MD5-96 on that request too. -/
def privateDigestService : DigestService :=
  { sampleDigestService with
    mac := fun authKey wholeMsg ↦
      if wholeMsg = privateOctets (List.replicate 12 0) then
        privateDigest
      else
        sampleDigestService.mac authKey wholeMsg
    length_mac := fun authKey wholeMsg ↦ by
      split_ifs
      · rfl
      · exact sampleDigestService.length_mac authKey wholeMsg }

/-- The digest services of both engines. -/
def privateDigests (serviceID : Oid) : Option DigestService :=
  if serviceID = [1, 3, 6, 1, 6, 3, 10, 1, 1, 2] then some privateDigestService else none

/-- An engine with the identifier that has the user with AES. -/
def privateReceiver (engineId : Octets) : UsmEngine :=
  { sampleReceiver engineId with
    usmUserTable := fun engineId userName ↦
      ((sampleReceiver engineId).usmUserTable engineId userName).map fun row ↦
        { row with usmUserPrivProtocol := [1, 3, 6, 1, 6, 3, 10, 1, 2, 4] }
    pysnmpUsmKeyTable := fun engineId userName ↦
      ((sampleReceiver engineId).pysnmpUsmKeyTable engineId userName).map fun row ↦
        { row with pysnmpUsmKeyPrivLocalized := sampleAesKey }
    authServices := fun serviceID ↦ (privateDigests serviceID).map incomingDigest
    privServices := fun serviceID ↦
      if serviceID = [1, 3, 6, 1, 6, 3, 10, 1, 2, 4] then
        some (incomingPrivacy .aes (some sampleCiphers))
      else
        none }

/-- The sending side of the engine, whose next salt is 0. -/
def privateSender (engineId : Octets) : UsmSender :=
  { sampleSender engineId with
    engine := privateReceiver engineId
    authServices := fun serviceID ↦ (privateDigests serviceID).map outgoingDigest
    privServices := fun serviceID ↦
      if serviceID = [1, 3, 6, 1, 6, 3, 10, 1, 2, 4] then
        some (outgoingPrivacy .aes (some sampleCiphers) 0)
      else
        none }

/-- What the manager asks its security model for. -/
def privateOutgoing : Outgoing :=
  { SampleMade.request.outgoing .getRequest none with
    globalData := privateSelected.globalData
    securityLevel := .authPriv }

/-- All that the request may carry of its scoped PDU is the ciphertext. -/
theorem eq_of_enciphered_private {engineId : Octets} {scopedPduData : ScopedPduData}
    {privParameters : Octets}
    (hencipher : Enciphered (privateSender engineId) privateSelected (5, 1100) scopedPduData
      privParameters) :
    scopedPduData = .encryptedPdu sampleCiphertext ∧ privParameters = List.replicate 8 0 := by
  rw [Enciphered, if_pos (show privateSelected.securityLevel = .authPriv from rfl)] at hencipher
  obtain ⟨privHandler, dataToEncrypt, encryptedData, hservice, hencode, hencrypt, rfl⟩ := hencipher
  obtain rfl : outgoingPrivacy .aes (some sampleCiphers) 0 = privHandler :=
    Option.some.inj hservice
  obtain rfl : [48, 23, 4, 6, 128, 0, 31, 136, 4, 1, 4, 0, 160, 11, 2, 1, 1, 2, 1, 0, 2, 1, 0, 48,
      0] = dataToEncrypt := by
    refine Except.ok.inj (Eq.trans ?_ hencode)
    change _ = berCodec.encodeScopedPdu SampleMade.request.scopedPdu
    decide +kernel
  have hcarried : (outgoingPrivacy .aes (some sampleCiphers) 0).encryptData
      privateSelected.user.usmUserPrivKeyLocalized (5, 1100)
        [48, 23, 4, 6, 128, 0, 31, 136, 4, 1, 4, 0, 160, 11, 2, 1, 1, 2, 1, 0, 2, 1, 0, 48, 0] =
      .ok (sampleCiphertext, List.replicate 8 0) := by
    decide +kernel
  obtain ⟨rfl, rfl⟩ := Prod.mk.inj (Except.ok.inj (hcarried.symm.trans hencrypt))
  exact ⟨rfl, rfl⟩

/-- The receiver of enciphered messages understands those of its sender. -/
theorem understood_private (engineId peerId : Octets) :
    Understood berCodec privateDigests (privateSender engineId) (privateReceiver peerId)
      privateSelected (5, 1100) privateUser where
  agree :=
    { encodeScopedPdu := rfl
      encodeMsg := rfl
      decodeSecurityParameters := rfl
      decodeScopedPdu := rfl
      signs := fun _ _ hservice ↦ congrArg (Option.map outgoingDigest) hservice
      verifies := fun _ _ hservice ↦ congrArg (Option.map incomingDigest) hservice }
  sameSecrets := ⟨rfl, rfl, rfl, rfl⟩
  found := by
    refine fun _ ↦ ⟨privateDigestService, rfl, ?_⟩
    refine @digestFoundAtField_of_encoded berCodec privateDigestService _ privateSelected (5, 1100)
      ((privateOctets privateDigest).take 45) ((privateOctets privateDigest).drop 57) _ _
      (fun _ _ ↦ eq_of_enciphered_private) ?_ ?_ ?_
    · decide +kernel
    · decide +kernel
    · decide +kernel
  deciphers := fun _ ↦ @deciphers_of_service _ _ _ .aes sampleCiphers 0 rfl rfl rfl
  globalData := by decide
  flags := by decide

/-- The agent accepts the request of the manager, and hands on its scoped PDU, at the level without
privacy and encrypted at the level with it. -/
theorem processIncomingMsg_of_generateRequestMsg_sample :
    (∃ receivedMsg, berCodec.decodeMsg SampleMade.request.wholeMsg = .ok (some receivedMsg) ∧
        receivedMsg.globalData = SampleMade.request.globalData ∧
        ∀ arrival : Arrival, arrival.wholeMsg = SampleMade.request.wholeMsg →
          IsOf arrival receivedMsg → ∀ receiver : UsmState, ∃ accepted last,
            (processIncomingMsg (sampleReceiver SampleMessage.request.engineId) arrival).run
              receiver = (.ok accepted, last) ∧
            accepted.securityEngineID = SampleMessage.request.engineId ∧
            accepted.securityName = [117] ∧ accepted.scopedPDU = SampleMade.request.scopedPdu ∧
            last.cacheEntries accepted.securityStateReference = some ⟨[117], some sampleUser⟩) ∧
    ∃ receivedMsg, berCodec.decodeMsg (privateOctets privateDigest) = .ok (some receivedMsg) ∧
      receivedMsg.globalData = privateSelected.globalData ∧
      ∀ arrival : Arrival, arrival.wholeMsg = privateOctets privateDigest →
        IsOf arrival receivedMsg → ∀ receiver : UsmState, ∃ accepted last,
          (processIncomingMsg (privateReceiver SampleMessage.request.engineId) arrival).run
            receiver = (.ok accepted, last) ∧
          accepted.securityEngineID = SampleMessage.request.engineId ∧
          accepted.securityName = [117] ∧ accepted.scopedPDU = SampleMade.request.scopedPdu ∧
          last.cacheEntries accepted.securityStateReference = some ⟨[117], some privateUser⟩ := by
  constructor
  · have hselect : (selectUser (sampleSender SampleMessage.notification.engineId)
        (SampleMade.request.outgoing .getRequest none)).run synchronizedManager =
          (.ok SampleMade.request.selected, synchronizedManager) := rfl
    have htimes : timesOf (sampleSender SampleMessage.notification.engineId)
        SampleMade.request.selected .getRequest synchronizedManager = (5, 1100) := by
      decide +kernel
    have hunderstood : Understood berCodec sampleDigests
        (sampleSender SampleMessage.notification.engineId)
        (sampleReceiver SampleMessage.request.engineId) SampleMade.request.selected
        (timesOf (sampleSender SampleMessage.notification.engineId) SampleMade.request.selected
          .getRequest synchronizedManager) sampleUser := by
      rw [htimes]
      exact understood_sample .request _ _
    exact @processIncomingMsg_of_generateRequestMsg berCodec sampleDigests
      (sampleSender SampleMessage.notification.engineId)
      (sampleReceiver SampleMessage.request.engineId) (SampleMade.request.outgoing .getRequest none)
      synchronizedManager _ _ _ sampleUser hselect
      (generateRequestOrResponseMsg_sample .request _ hselect htimes) hunderstood
      ⟨by decide, by decide, by decide⟩ rfl (by decide) (userNamed_sample _) (by decide)
      (fun _ ↦ ⟨by decide, rfl, by decide⟩)
  · have hselect : (selectUser (privateSender SampleMessage.notification.engineId)
        privateOutgoing).run synchronizedManager = (.ok privateSelected, synchronizedManager) := rfl
    have htimes : timesOf (privateSender SampleMessage.notification.engineId) privateSelected
        .getRequest synchronizedManager = (5, 1100) := by
      decide +kernel
    have hok : ((generateRequestMsg (privateSender SampleMessage.notification.engineId)
        privateOutgoing).run synchronizedManager).1 =
          .ok ⟨parametersOf privateSelected (5, 1100) (List.replicate 8 0),
            privateOctets privateDigest⟩ := by
      decide +kernel
    have hmade := generateRequestOrResponseMsg_run hselect hok
    have hunderstood : Understood berCodec privateDigests
        (privateSender SampleMessage.notification.engineId)
        (privateReceiver SampleMessage.request.engineId) privateSelected
        (timesOf (privateSender SampleMessage.notification.engineId) privateSelected .getRequest
          synchronizedManager) privateUser := by
      rw [htimes]
      exact understood_private _ _
    exact @processIncomingMsg_of_generateRequestMsg berCodec privateDigests
      (privateSender SampleMessage.notification.engineId)
      (privateReceiver SampleMessage.request.engineId) privateOutgoing
      synchronizedManager _ _ _ privateUser hselect hmade hunderstood
      ⟨by decide, by decide, by decide⟩ rfl (by decide) rfl (by decide)
      (fun _ ↦ ⟨by decide, rfl, by decide⟩)

/-- The manager accepts the response of the agent, and has its boots and time then. -/
theorem processIncomingMsg_of_generateResponseMsg_sample :
    ∃ receivedMsg, berCodec.decodeMsg SampleMade.response.wholeMsg = .ok (some receivedMsg) ∧
      receivedMsg.globalData = SampleMade.response.globalData ∧
      ∀ arrival : Arrival, arrival.wholeMsg = SampleMade.response.wholeMsg →
        IsOf arrival receivedMsg →
        |(arrival.comparedAt : ℤ) - arrival.synchronizedAt| ≤ timeWindow →
        ∀ receiver : UsmState, ∃ accepted last,
          (processIncomingMsg (sampleReceiver SampleMessage.notification.engineId) arrival).run
            receiver = (.ok accepted, last) ∧
          accepted.securityEngineID = SampleMessage.request.engineId ∧
          accepted.securityName = [117] ∧ accepted.scopedPDU = SampleMade.response.scopedPdu ∧
          last.timeline = Function.update receiver.timeline SampleMessage.request.engineId
            (some ⟨5, 1100, 1100, arrival.synchronizedAt⟩) := by
  let served : UsmState :=
    { initialState with
      cacheEntries := Function.update initialState.cacheEntries 1 (some ⟨[117], some sampleUser⟩) }
  have hcached : served.cacheEntries 1 = some ⟨[117], some sampleUser⟩ := rfl
  have hselect := @selectUser_response (sampleSender SampleMessage.request.engineId)
    (SampleMade.response.outgoing .response (some 1)) served 1 _ rfl hcached
  exact @processIncomingMsg_of_generateResponseMsg berCodec sampleDigests
    (sampleSender SampleMessage.request.engineId)
    (sampleReceiver SampleMessage.notification.engineId)
    (SampleMade.response.outgoing .response (some 1)) served _ _ sampleUser 1 _ rfl hcached rfl
    (generateRequestOrResponseMsg_sample .response _ hselect rfl)
    (understood_sample .response _ _) ⟨by decide, by decide, by decide⟩ (by decide) (by decide)
    (userNamed_sample _) (by decide)

end Sample

end Pysnmp.Proto.Secmod.UsmExchange
