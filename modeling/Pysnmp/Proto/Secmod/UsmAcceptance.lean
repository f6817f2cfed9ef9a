import Pysnmp.Proto.Secmod.UsmService

/-!
# What an accepted message has passed

Each step of `processIncomingMsg` gets an inversion lemma that says what holds when it returns:
the parameters of an identified message are those it carries and its user is the row found for
them (`identifyMessage_eq_ok`), the security level was not found wanting, the service of the user's
protocol accepted the digest, and the boots and the time lie in the local window. For a message to
the local engine by a named user they add up to `processIncomingMsg_acceptance`.
-/

set_option autoImplicit false
set_option relaxedAutoImplicit false

namespace Pysnmp.Proto.Secmod.UsmAcceptance

open Foundation Foundation.Effect DigestPlacement UsmService

/-! ### Failing steps -/

theorem countAndRaise_ne_ok {α : Type} {stat : UsmStat} {details : StatusInformation}
    {state after : UsmState} {value : α} :
    (countAndRaise stat details : Usm α).run state ≠ (.ok value, after) := by
  intro hrun
  cases hrun

/-! ### Identification -/

/-- The security parameters the message carries, when they decode. -/
def messageParameters (engine : UsmEngine) (arrival : Arrival) : Option UsmSecurityParameters :=
  match engine.decodeSecurityParameters arrival.securityParameters with
  | .ok parameters => parameters
  | .error _ => none

/-- The user the tables hold for the parameters: under their engine identifier, or under the
wildcard one when there is none there. -/
def HasUserRow (engine : UsmEngine) (parameters : UsmSecurityParameters) (user : UsmUser) : Prop :=
  getUserInfo engine parameters.msgAuthoritativeEngineId parameters.msgUserName = .ok user ∨
    getUserInfo engine parameters.msgAuthoritativeEngineId parameters.msgUserName =
        .error .noSuchInstance ∧
      getUserInfo engine wildcardSecurityEngineId parameters.msgUserName = .ok user

theorem readSecurityParameters_eq_ok {engine : UsmEngine} {arrival : Arrival}
    {state after : UsmState} {parameters : UsmSecurityParameters}
    (hrun : (readSecurityParameters engine arrival).run state = (.ok parameters, after)) :
    messageParameters engine arrival = some parameters := by
  unfold readSecurityParameters at hrun
  unfold messageParameters
  split at hrun
  · cases hrun
  · cases hrun
  · next decoded hdecoded =>
    cases hrun
    rw [hdecoded]

theorem readUserInfo_eq_ok {engine : UsmEngine} {arrival : Arrival}
    {parameters : UsmSecurityParameters} {maxSize : ℤ} {reference : ℕ} {state after : UsmState}
    {user : UsmUser} (hname : parameters.msgUserName ≠ [])
    (hrun : (readUserInfo engine arrival parameters maxSize reference).run state =
      (.ok user, after)) :
    HasUserRow engine parameters user := by
  rw [readUserInfo, if_neg hname] at hrun
  split at hrun
  · next found hfound =>
    cases hrun
    exact Or.inl hfound
  · exact absurd hrun (by rintro ⟨⟩)
  · next hmissing =>
    split at hrun
    · next found hfound =>
      cases hrun
      exact Or.inr ⟨hmissing, hfound⟩
    · cases hrun
    · exact absurd hrun countAndRaise_ne_ok

/-- An identified message carries the decoded parameters, and a named user has a row. -/
theorem identifyMessage_eq_ok {engine : UsmEngine} {arrival : Arrival} {state after : UsmState}
    {message : IdentifiedMessage}
    (hrun : (identifyMessage engine arrival).run state = (.ok message, after)) :
    messageParameters engine arrival = some message.parameters ∧
      (message.parameters.msgUserName ≠ [] →
        HasUserRow engine message.parameters message.user) := by
  obtain ⟨parameters, _, hread, hrun⟩ := bind_eq_ok_iff.mp hrun
  obtain ⟨_, _, _, hrun⟩ := bind_eq_ok_iff.mp hrun
  obtain ⟨_, _, _, hrun⟩ := bind_eq_ok_iff.mp hrun
  obtain ⟨user, _, huser, hrun⟩ := bind_eq_ok_iff.mp hrun
  obtain ⟨_, _, _, hrun⟩ := bind_eq_ok_iff.mp hrun
  obtain ⟨_, _, _, hrun⟩ := bind_eq_ok_iff.mp hrun
  cases hrun
  exact ⟨readSecurityParameters_eq_ok hread, fun hname ↦ readUserInfo_eq_ok hname huser⟩

/-! ### The checks -/

theorem checkSecurityLevel_eq_ok {engine : UsmEngine} {arrival : Arrival}
    {message : IdentifiedMessage} {state after : UsmState}
    (hlocal : message.parameters.msgAuthoritativeEngineId = engine.snmpEngineID)
    (hrun : (checkSecurityLevel engine arrival message).run state = (.ok (), after)) :
    badSecIndication message.user message.parameters arrival.securityLevel = none := by
  rw [checkSecurityLevel, if_pos hlocal] at hrun
  split at hrun
  · assumption
  · exact absurd hrun countAndRaise_ne_ok

/-- The service registered for the user's protocol accepts the digest over the whole message. -/
def DigestAccepted (engine : UsmEngine) (arrival : Arrival) (parameters : UsmSecurityParameters)
    (user : UsmUser) : Prop :=
  ∃ authHandler checked, engine.authServices user.usmUserAuthProtocol = some authHandler ∧
    authHandler.authenticateIncomingMsg user.usmUserAuthKeyLocalized
      parameters.msgAuthenticationParameters arrival.wholeMsg = .ok checked

theorem authenticateMessage_eq_ok {engine : UsmEngine} {arrival : Arrival}
    {message : IdentifiedMessage} {state after : UsmState}
    (hrun : (authenticateMessage engine arrival message).run state = (.ok (), after)) :
    DigestAccepted engine arrival message.parameters message.user := by
  unfold authenticateMessage at hrun
  split at hrun
  · cases hrun
  · next authHandler hhandler =>
    split at hrun
    · next checked hchecked => exact ⟨authHandler, checked, hhandler, hchecked⟩
    · cases hrun
    · cases hrun
    · exact absurd hrun countAndRaise_ne_ok

theorem checkTimeliness_eq_ok {engine : UsmEngine} {arrival : Arrival}
    {message : IdentifiedMessage} {state after : UsmState}
    (hlocal : message.parameters.msgAuthoritativeEngineId = engine.snmpEngineID)
    (hrun : (checkTimeliness engine arrival message).run state = (.ok (), after)) :
    engine.snmpEngineBoots ≠ maxEngineBoots ∧
      engine.snmpEngineBoots = message.parameters.msgAuthoritativeEngineBoots ∧
      |(engine.snmpEngineTime : ℤ) - message.parameters.msgAuthoritativeEngineTime| ≤
        timeWindow := by
  rw [checkTimeliness, if_pos hlocal, checkLocalTimeliness] at hrun
  split at hrun
  · exact absurd hrun countAndRaise_ne_ok
  · next hwindow =>
    push Not at hwindow
    exact hwindow

/-- An authenticated message is identified, its level was not found wanting, and at a level with
authentication its digest was accepted. -/
theorem authenticatedMessage_eq_ok {engine : UsmEngine} {arrival : Arrival}
    {state after : UsmState} {message : IdentifiedMessage}
    (hrun : (authenticatedMessage engine arrival).run state = (.ok message, after)) :
    (messageParameters engine arrival = some message.parameters ∧
      (message.parameters.msgUserName ≠ [] →
        HasUserRow engine message.parameters message.user)) ∧
    (message.parameters.msgAuthoritativeEngineId = engine.snmpEngineID →
      badSecIndication message.user message.parameters arrival.securityLevel = none) ∧
    (arrival.securityLevel.isAuthenticated = true →
      DigestAccepted engine arrival message.parameters message.user) := by
  obtain ⟨identified, _, hidentify, hrun⟩ := bind_eq_ok_iff.mp hrun
  obtain ⟨_, _, hlevel, hrun⟩ := bind_eq_ok_iff.mp hrun
  split_ifs at hrun with hauthenticated
  · obtain ⟨_, _, hdigest, hrun⟩ := bind_eq_ok_iff.mp hrun
    cases hrun
    exact ⟨identifyMessage_eq_ok hidentify, fun hlocal ↦ checkSecurityLevel_eq_ok hlocal hlevel,
      fun _ ↦ authenticateMessage_eq_ok hdigest⟩
  · cases hrun
    exact ⟨identifyMessage_eq_ok hidentify, fun hlocal ↦ checkSecurityLevel_eq_ok hlocal hlevel,
      fun hlevel ↦ absurd hlevel hauthenticated⟩

/-! ### The acceptance condition -/

/-- The level the protocols of a user imply; a user with privacy alone has none. -/
def impliedSecurityLevel (user : UsmUser) : Option SecurityLevel :=
  if user.usmUserAuthProtocol = noAuthServiceID then
    if user.usmUserPrivProtocol = noPrivServiceID then some .noAuthNoPriv else none
  else
    if user.usmUserPrivProtocol = noPrivServiceID then some .authNoPriv else some .authPriv

/-- A level that is not found wanting is the user's own, or it is the level of the second message
of a discovery: a user with privacy, authentication alone, and zero boots and time. -/
theorem badSecIndication_eq_none {user : UsmUser} {parameters : UsmSecurityParameters}
    {level : SecurityLevel} (hbad : badSecIndication user parameters level = none) :
    impliedSecurityLevel user = some level ∨
      level = .authNoPriv ∧ parameters.msgAuthoritativeEngineBoots = 0 := by
  cases level with
  | noAuthNoPriv =>
    simp only [badSecIndication] at hbad
    split_ifs at hbad with hpriv hauth
    exact Or.inl (by rw [impliedSecurityLevel, if_pos (not_not.mp hauth),
      if_pos (not_not.mp hpriv)])
  | authNoPriv =>
    simp only [badSecIndication] at hbad
    split_ifs at hbad with hpriv hauth
    by_cases hnoPriv : user.usmUserPrivProtocol = noPrivServiceID
    · exact Or.inl (by rw [impliedSecurityLevel, if_neg hauth, if_pos hnoPriv])
    · push Not at hpriv
      exact Or.inr ⟨rfl, (hpriv hnoPriv).1⟩
  | authPriv =>
    simp only [badSecIndication] at hbad
    split_ifs at hbad with hpriv hauth
    exact Or.inl (by rw [impliedSecurityLevel, if_neg hauth, if_neg hpriv])

/-- A message to the local engine by a named user is accepted only if the user has a row, the level
is the one its protocols imply, and at a level with authentication the digest is accepted with the
row's key and boots and time are in the local window. -/
theorem processIncomingMsg_acceptance {engine : UsmEngine} {arrival : Arrival}
    {state after : UsmState} {parameters : UsmSecurityParameters} {accepted : AcceptedMessage}
    (hparameters : messageParameters engine arrival = some parameters)
    (hlocal : parameters.msgAuthoritativeEngineId = engine.snmpEngineID)
    (hname : parameters.msgUserName ≠ []) (hboots : 1 ≤ engine.snmpEngineBoots)
    (hrun : (processIncomingMsg engine arrival).run state = (.ok accepted, after)) :
    ∃ user, HasUserRow engine parameters user ∧
      impliedSecurityLevel user = some arrival.securityLevel ∧
      (arrival.securityLevel ≠ .noAuthNoPriv →
        DigestAccepted engine arrival parameters user ∧
          parameters.msgAuthoritativeEngineBoots = engine.snmpEngineBoots ∧
          engine.snmpEngineBoots < 2147483647 ∧
          |(engine.snmpEngineTime : ℤ) - parameters.msgAuthoritativeEngineTime| ≤ 150) := by
  obtain ⟨message, _, hmessage, hrun⟩ := bind_eq_ok_iff.mp hrun
  obtain ⟨⟨hdecoded, huser⟩, hlevel, hdigest⟩ := authenticatedMessage_eq_ok hmessage
  obtain rfl : message.parameters = parameters :=
    Option.some.inj (hdecoded.symm.trans hparameters)
  have hwindow : arrival.securityLevel.isAuthenticated = true →
      engine.snmpEngineBoots ≠ maxEngineBoots ∧
        engine.snmpEngineBoots = message.parameters.msgAuthoritativeEngineBoots ∧
        |(engine.snmpEngineTime : ℤ) - message.parameters.msgAuthoritativeEngineTime| ≤
          timeWindow := by
    intro hauthenticated
    rw [if_pos hauthenticated] at hrun
    obtain ⟨_, _, _, hrun⟩ := bind_eq_ok_iff.mp hrun
    obtain ⟨_, _, hcheck, _⟩ := bind_eq_ok_iff.mp hrun
    exact checkTimeliness_eq_ok hlocal hcheck
  refine ⟨message.user, huser hname, ?_, fun hne ↦ ?_⟩
  · rcases badSecIndication_eq_none (hlevel hlocal) with himplied | ⟨hauthNoPriv, hzero⟩
    · exact himplied
    -- Zero boots are not those of an engine that has booted.
    · obtain ⟨-, heq, -⟩ := hwindow (by rw [hauthNoPriv]; rfl)
      omega
  · have hauthenticated : arrival.securityLevel.isAuthenticated = true := by
      cases hcase : arrival.securityLevel with
      | noAuthNoPriv => exact absurd hcase hne
      | authNoPriv => rfl
      | authPriv => rfl
    obtain ⟨hmax, heq, htime⟩ := hwindow hauthenticated
    refine ⟨hdigest hauthenticated, heq.symm, ?_, htime⟩
    exact lt_of_le_of_ne (heq ▸ message.parameters.boots_le) hmax

/-! ### A sample agent -/

section SampleAgent

/-- Three messages of user `u` at the level with authentication: a request to the agent itself, and
two of a peer, the second with an earlier engine time. -/
inductive SampleMessage
  | request
  | notification
  | replay

namespace SampleMessage

/-- The authoritative engine of the message: the agent, or its peer. -/
def engineId : SampleMessage → Octets
  | request => [128, 0, 31, 136, 4, 1]
  | notification => [128, 0, 31, 136, 4, 2]
  | replay => [128, 0, 31, 136, 4, 2]

/-- The engine time of the message, 1000 or 500, as its BER content. -/
def timeOctets : SampleMessage → Octets
  | request => [3, 232]
  | notification => [3, 232]
  | replay => [1, 244]

/-- The HMAC-MD5-96 digest of the message. -/
def digest : SampleMessage → Octets
  | request => [46, 37, 79, 101, 224, 188, 6, 45, 231, 172, 189, 186]
  | notification => [62, 244, 157, 144, 116, 72, 29, 181, 16, 20, 209, 173]
  | replay => [3, 197, 164, 4, 240, 119, 17, 69, 142, 119, 184, 177]

/-- The message's scoped PDU: a request for nothing. -/
def scopedPdu (message : SampleMessage) : ScopedPdu where
  contextEngineId := message.engineId
  contextName := []
  data := [160, 11, 2, 1, 1, 2, 1, 0, 2, 1, 0, 48, 0]

/-- The serialized security parameters, with the given digest. -/
def securityParameters (message : SampleMessage) (digest : Octets) : Octets :=
  [48, 34, 4, 6] ++ message.engineId ++ [2, 1, 5, 2, 2] ++ message.timeOctets ++
    [4, 1, 117, 4, 12] ++ digest ++ [4, 0]

/-- The serialized message, with the given digest. -/
def wholeMsg (message : SampleMessage) (digest : Octets) : Octets :=
  [48, 82, 2, 1, 3, 48, 14, 2, 1, 1, 2, 3, 0, 255, 227, 4, 1, 5, 2, 1, 3, 4, 36] ++
    message.securityParameters digest ++ [48, 23, 4, 6] ++ message.engineId ++ [4, 0] ++
    message.scopedPdu.data

/-- The decoded security parameters. -/
def parameters (message : SampleMessage) : UsmSecurityParameters where
  msgAuthoritativeEngineId := message.engineId
  msgAuthoritativeEngineBoots := 5
  msgAuthoritativeEngineTime := if message.timeOctets = [3, 232] then 1000 else 500
  msgUserName := [117]
  msgAuthenticationParameters := message.digest
  msgPrivacyParameters := []
  boots_le := by decide
  time_le := by split_ifs <;> decide
  userName_length_le := by decide

/-- The message received at the given wall clock. -/
def arrival (message : SampleMessage) (clock : ℕ) : Arrival where
  maxMessageSize := 65507
  securityParameters := message.securityParameters message.digest
  securityLevel := .authNoPriv
  wholeMsg := message.wholeMsg message.digest
  scopedPduData := .plaintext message.scopedPdu
  synchronizedAt := clock
  comparedAt := clock
  advancedAt := clock

end SampleMessage

/-- HMAC-MD5-96 on the sample messages, from which the digest was taken out. -/
def sampleHmacMd5 : DigestService where
  digestLength := 12
  digestLength_pos := Nat.zero_lt_succ _
  mac := fun _ wholeMsg ↦
    if wholeMsg = SampleMessage.request.wholeMsg (List.replicate 12 0) then
      SampleMessage.request.digest
    else if wholeMsg = SampleMessage.notification.wholeMsg (List.replicate 12 0) then
      SampleMessage.notification.digest
    else
      SampleMessage.replay.digest
  length_mac := fun _ _ ↦ by split_ifs <;> rfl
  placeholderMissing := "Cant locate digest placeholder"
  digestMissing := "Cant locate digest in wholeMsg"

/-- The agent: user `u` with HMAC-MD5-96 and without privacy, for the agent and for its peer. -/
def sampleEngine : UsmEngine where
  snmpEngineID := SampleMessage.request.engineId
  snmpEngineBoots := 5
  snmpEngineTime := 1100
  pysnmpUsmDiscoverable := true
  decodeSecurityParameters := fun octets ↦
    if octets = SampleMessage.request.securityParameters SampleMessage.request.digest then
      .ok (some SampleMessage.request.parameters)
    else if octets =
        SampleMessage.notification.securityParameters SampleMessage.notification.digest then
      .ok (some SampleMessage.notification.parameters)
    else if octets = SampleMessage.replay.securityParameters SampleMessage.replay.digest then
      .ok (some SampleMessage.replay.parameters)
    else
      .error ()
  decodeScopedPdu := fun _ ↦ .error ()
  usmUserTable := fun _ userName ↦
    if userName = [117] then
      some
        { usmUserName := [117]
          usmUserSecurityName := [117]
          usmUserAuthProtocol := [1, 3, 6, 1, 6, 3, 10, 1, 1, 2]
          usmUserPrivProtocol := noPrivServiceID }
    else
      none
  pysnmpUsmKeyTable := fun engineId userName ↦
    if userName ≠ [117] then
      none
    else if engineId = SampleMessage.request.engineId then
      some ⟨[30, 9, 234, 191, 50, 205, 24, 52, 135, 161, 155, 100, 98, 54, 88, 94], []⟩
    else
      some ⟨[151, 60, 80, 182, 43, 33, 143, 29, 137, 121, 3, 165, 167, 187, 103, 247], []⟩
  authServices := fun serviceID ↦
    if serviceID = [1, 3, 6, 1, 6, 3, 10, 1, 1, 2] then
      some ⟨fun authKey ↦ sampleHmacMd5.authenticateIncomingMsg (authKey.getD [])⟩
    else
      none
  privServices := fun _ ↦ none
  timerResolution := 1
  stateReference := id

/-- A security model that has not received anything. -/
def initialState : UsmState where
  timeline := fun _ ↦ none
  timelineExpQueue := fun _ ↦ []
  expirationTimer := 0
  cacheEntries := fun _ ↦ none
  drawnReferences := 0
  stats := fun _ ↦ 0

/-- The request is accepted, so its user, level, digest, boots and time are as they must be. -/
theorem processIncomingMsg_acceptance_request :
    ∃ user, HasUserRow sampleEngine SampleMessage.request.parameters user ∧
      impliedSecurityLevel user = some .authNoPriv ∧
      DigestAccepted sampleEngine (SampleMessage.request.arrival 0)
        SampleMessage.request.parameters user ∧
      SampleMessage.request.parameters.msgAuthoritativeEngineBoots =
        sampleEngine.snmpEngineBoots ∧
      sampleEngine.snmpEngineBoots < 2147483647 ∧
      |(sampleEngine.snmpEngineTime : ℤ) -
        SampleMessage.request.parameters.msgAuthoritativeEngineTime| ≤ 150 := by
  obtain ⟨user, hrow, himplied, hauthenticated⟩ :=
    @processIncomingMsg_acceptance sampleEngine (SampleMessage.request.arrival 0) initialState _
      SampleMessage.request.parameters _ rfl rfl (by decide) (by decide) rfl
  exact ⟨user, hrow, himplied, hauthenticated (by decide)⟩

end SampleAgent

end Pysnmp.Proto.Secmod.UsmAcceptance
