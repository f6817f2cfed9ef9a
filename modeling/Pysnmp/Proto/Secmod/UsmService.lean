import Pysnmp.Foundation.Effect
import Pysnmp.Proto.Secmod.DigestPlacement

/-!
# Incoming messages of the user-based security model

`SnmpUSMSecurityModel.processIncomingMsg` of `secmod/rfc3414/service.py`, cut at the numbers of its
comments: `identifyMessage` (3.2.1 to 3.2.4 and 3.2.11) decodes the security parameters and finds
the user, `checkSecurityLevel` is 3.2.5, `authenticateMessage` 3.2.6, `synchronizeTimeline` the
store that follows a successful authentication, `checkTimeliness` 3.2.7 and `readScopedPdu` 3.2.8.

What the security model keeps is `UsmState`: the timeline of every peer engine with the queue its
entries expire from, the cache of state references, and the statistics counters. An exception does
not undo what was written, so the functions are programs of `Effect`.

The tables, the clock and the code outside the module are in `UsmEngine`: the local engine's
identifier, boots and time, the user and key tables by engine identifier and user name, the BER
decoder, the registered services and the timer resolution. Each message is processed against the
`UsmEngine` of its moment.
-/

set_option autoImplicit false
set_option relaxedAutoImplicit false

namespace Pysnmp.Proto.Secmod.UsmService

open Foundation Foundation.Effect DigestPlacement

/-! ### Messages, users and services -/

/-- The decoded security parameters, within the ranges their ASN.1 types allow. -/
structure UsmSecurityParameters where
  msgAuthoritativeEngineId : Octets
  msgAuthoritativeEngineBoots : ℕ
  msgAuthoritativeEngineTime : ℕ
  msgUserName : Octets
  msgAuthenticationParameters : Octets
  msgPrivacyParameters : Octets
  boots_le : msgAuthoritativeEngineBoots ≤ 2147483647
  time_le : msgAuthoritativeEngineTime ≤ 2147483647
  userName_length_le : msgUserName.length ≤ 32

theorem length_noUserName_le : ([] : Octets).length ≤ 32 :=
  Nat.zero_le _

/-- A scoped PDU. -/
structure ScopedPdu where
  contextEngineId : Octets
  contextName : Octets
  data : Octets
  deriving DecidableEq, Repr

/-- The choice a message carries in place of its scoped PDU. -/
inductive ScopedPduData
  | plaintext (scopedPdu : ScopedPdu)
  | encryptedPdu (octets : Octets)

/-- The columns `__getUserInfo` reads of a row of `usmUserTable`. -/
structure UsmUserRow where
  usmUserName : Octets
  usmUserSecurityName : Octets
  usmUserAuthProtocol : Oid
  usmUserPrivProtocol : Oid
  deriving DecidableEq, Repr

/-- The columns `__getUserInfo` reads of a row of `pysnmpUsmKeyTable`. -/
structure UsmKeyRow where
  pysnmpUsmKeyAuthLocalized : Octets
  pysnmpUsmKeyPrivLocalized : Octets
  deriving DecidableEq, Repr

/-- What `__getUserInfo` returns of a user; the keys are absent for the empty user name. -/
structure UsmUser where
  usmUserName : Octets
  usmUserSecurityName : Octets
  usmUserAuthProtocol : Oid
  usmUserAuthKeyLocalized : Option Octets
  usmUserPrivProtocol : Oid
  usmUserPrivKeyLocalized : Option Octets
  deriving DecidableEq, Repr

/-- How reading a user fails: a row is missing, or the names are no index of the table. -/
inductive LookupError
  | noSuchInstance
  | pyAsn1Error

/-- The receiving side of an authentication service: the key, the digest and the whole message. -/
structure AuthenticationService where
  authenticateIncomingMsg : Option Octets → Octets → Octets → Except ServiceError Octets

/-- The receiving side of a privacy service: the key, the boots, time and salt, and the
ciphertext. -/
structure PrivacyService where
  decryptData : Option Octets → ℕ × ℕ × Octets → Octets → Except ServiceError Octets

/-- `noauth.NoAuth.serviceID`. -/
def noAuthServiceID : Oid := [1, 3, 6, 1, 6, 3, 10, 1, 1, 1]

/-- `nopriv.NoPriv.serviceID`. -/
def noPrivServiceID : Oid := [1, 3, 6, 1, 6, 3, 10, 1, 2, 1]

/-- The engine identifier under which users for any peer are kept. -/
def wildcardSecurityEngineId : Octets := [0, 0, 0, 0, 0]

/-- The largest value of `snmpEngineBoots`, at which an engine stops accepting messages. -/
def maxEngineBoots : ℕ := 2147483647

/-- Seconds a message may be away from the engine time it is checked against. -/
def timeWindow : ℤ := 150

/-- The environment a message is processed in. -/
structure UsmEngine where
  snmpEngineID : Octets
  snmpEngineBoots : ℕ
  snmpEngineTime : ℕ
  pysnmpUsmDiscoverable : Bool
  decodeSecurityParameters : Octets → Except Unit (Option UsmSecurityParameters)
  decodeScopedPdu : Octets → Except Unit (Option ScopedPdu)
  usmUserTable : Octets → Octets → Option UsmUserRow
  pysnmpUsmKeyTable : Octets → Octets → Option UsmKeyRow
  authServices : Oid → Option AuthenticationService
  privServices : Oid → Option PrivacyService
  timerResolution : ℚ
  stateReference : ℕ → ℕ

/-- A message handed to the security model, with the readings of the wall clock its processing
takes: when the timeline is synchronized, when the idle time is computed, and when the timeline is
advanced. -/
structure Arrival where
  maxMessageSize : ℤ
  securityParameters : Octets
  securityLevel : SecurityLevel
  wholeMsg : Octets
  scopedPduData : ScopedPduData
  synchronizedAt : ℕ
  comparedAt : ℕ
  advancedAt : ℕ

/-- Read a user from the tables. The index column `usmUserEngineID` takes 5 to 32 octets and
`usmUserName` 1 to 32. -/
def getUserInfo (engine : UsmEngine) (securityEngineID userName : Octets) :
    Except LookupError UsmUser :=
  if securityEngineID.length < 5 ∨ 32 < securityEngineID.length ∨ userName.length < 1 ∨
      32 < userName.length then
    .error .pyAsn1Error
  else
    match engine.usmUserTable securityEngineID userName,
      engine.pysnmpUsmKeyTable securityEngineID userName with
    | some user, some key =>
      .ok
        { usmUserName := user.usmUserName
          usmUserSecurityName := user.usmUserSecurityName
          usmUserAuthProtocol := user.usmUserAuthProtocol
          usmUserAuthKeyLocalized := some key.pysnmpUsmKeyAuthLocalized
          usmUserPrivProtocol := user.usmUserPrivProtocol
          usmUserPrivKeyLocalized := some key.pysnmpUsmKeyPrivLocalized }
    | _, _ => .error .noSuchInstance

/-! ### State and errors -/

/-- The counters of the security model that a message can step. -/
inductive UsmStat
  | unsupportedSecLevels
  | notInTimeWindows
  | unknownUserNames
  | unknownEngineIDs
  | wrongDigests
  | decryptionErrors
  | inGenErrs
  deriving DecidableEq, Repr

/-- The name of the counter's instance. -/
def UsmStat.name : UsmStat → Oid
  | unsupportedSecLevels => [1, 3, 6, 1, 6, 3, 15, 1, 1, 1, 0]
  | notInTimeWindows => [1, 3, 6, 1, 6, 3, 15, 1, 1, 2, 0]
  | unknownUserNames => [1, 3, 6, 1, 6, 3, 15, 1, 1, 3, 0]
  | unknownEngineIDs => [1, 3, 6, 1, 6, 3, 15, 1, 1, 4, 0]
  | wrongDigests => [1, 3, 6, 1, 6, 3, 15, 1, 1, 5, 0]
  | decryptionErrors => [1, 3, 6, 1, 6, 3, 15, 1, 1, 6, 0]
  | inGenErrs => [1, 3, 6, 1, 2, 1, 11, 5, 0]

/-- The timeline entry of a peer: its boots and time, the latest time received from it, and the
wall clock when the entry was stored. -/
structure TimelineEntry where
  engineBoots : ℕ
  engineTime : ℕ
  latestReceivedEngineTime : ℕ
  latestUpdateTimestamp : ℕ
  deriving DecidableEq, Repr

/-- What the cache keeps for one state reference; the user is known after 3.2.11. -/
structure CachedSecurityData where
  msgUserName : Octets
  user : Option UsmUser
  deriving DecidableEq, Repr

/-- What the security model keeps from message to message. -/
structure UsmState where
  timeline : Octets → Option TimelineEntry
  timelineExpQueue : ℕ → List Octets
  expirationTimer : ℕ
  cacheEntries : ℕ → Option CachedSecurityData
  drawnReferences : ℕ
  stats : UsmStat → ℕ

/-- The details of a `StatusInformation`; what a call site leaves out is absent. -/
structure StatusInformation where
  errorIndication : ErrorIndication
  oid : Option Oid := none
  val : Option ℕ := none
  securityStateReference : Option ℕ := none
  securityEngineID : Option Octets := none
  securityLevel : Option SecurityLevel := none
  contextEngineId : Option Octets := none
  contextName : Option Octets := none
  msgUserName : Option Octets := none
  maxSizeResponseScopedPDU : Option ℤ := none
  scopedPDU : Option ScopedPdu := none
  pdu : Option ScopedPdu := none
  deriving DecidableEq, Repr

/-- How the processing of a message fails; the other exceptions are those of a service. -/
inductive UsmError
  | statusInformation (details : StatusInformation)
  | protocolError (text : String)
  | pyAsn1Error
  | otherException
  deriving DecidableEq, Repr

/-- Programs of the security model. -/
abbrev Usm (α : Type) := Effect UsmState UsmError α

/-- A message whose security parameters are decoded and whose user is found. -/
structure IdentifiedMessage where
  parameters : UsmSecurityParameters
  user : UsmUser
  maxSizeResponseScopedPDU : ℤ
  securityStateReference : ℕ

/-- What the security model hands to message processing. -/
structure AcceptedMessage where
  securityEngineID : Octets
  securityName : Octets
  scopedPDU : ScopedPdu
  maxSizeResponseScopedPDU : ℤ
  securityStateReference : ℕ
  deriving DecidableEq, Repr

/-! ### State operations -/

/-- Raise `StatusInformation`. -/
def raiseStatus {α : Type} (details : StatusInformation) : Usm α :=
  raise (.statusInformation details)

/-- Step a counter, which wraps at its width. -/
def countStat (stat : UsmStat) : Usm Unit :=
  modify fun state ↦
    { state with stats := Function.update state.stats stat ((state.stats stat + 1) % 2 ^ 32) }

/-- Step a counter and raise with its name and value among the details. -/
def countAndRaise {α : Type} (stat : UsmStat) (details : StatusInformation) : Usm α := do
  countStat stat
  let value ← gets fun state ↦ state.stats stat
  raiseStatus { details with oid := some stat.name, val := some value }

/-- Stash what the response will need under a fresh reference. -/
def pushCache (engine : UsmEngine) (data : CachedSecurityData) : Usm ℕ := do
  let reference ← gets fun state ↦ engine.stateReference state.drawnReferences
  modify fun state ↦ { state with
    drawnReferences := state.drawnReferences + 1
    cacheEntries := Function.update state.cacheEntries reference (some data) }
  pure reference

/-- Take back what was stashed under a reference. -/
def popCache (reference : ℕ) : Usm Unit := do
  match ← gets fun state ↦ state.cacheEntries reference with
  | none => raise (.protocolError "Cache miss for stateReference")
  | some _ =>
    modify fun state ↦
      { state with cacheEntries := Function.update state.cacheEntries reference none }

/-- Store a timeline entry and schedule its expiry. -/
def storeTimeline (engine : UsmEngine) (engineId : Octets) (entry : TimelineEntry) : Usm Unit :=
  modify fun state ↦
    let expireAt := ((state.expirationTimer : ℚ) + 300 / engine.timerResolution).floor.toNat
    { state with
      timeline := Function.update state.timeline engineId (some entry)
      timelineExpQueue := Function.update state.timelineExpQueue expireAt
        (state.timelineExpQueue expireAt ++ [engineId]) }

/-! ### The steps of `processIncomingMsg` -/

/-- 3.2.1: decode the security parameters. -/
def readSecurityParameters (engine : UsmEngine) (arrival : Arrival) : Usm UsmSecurityParameters :=
  match engine.decodeSecurityParameters arrival.securityParameters with
  | .error _ => raise .pyAsn1Error
  | .ok none => raiseStatus { errorIndication := .parseError }
  | .ok (some parameters) => pure parameters

/-- 3.2.3: a message that names neither the local engine nor a peer with a timeline goes on when
its engine identifier is well formed, and is otherwise an engine discovery. -/
def discoverEngine (engine : UsmEngine) (arrival : Arrival) (parameters : UsmSecurityParameters)
    (maxSizeResponseScopedPDU : ℤ) (securityStateReference : ℕ) : Usm Unit := do
  let engineId := parameters.msgAuthoritativeEngineId
  let known ← gets fun state ↦ (state.timeline engineId).isSome
  if engineId ≠ engine.snmpEngineID ∧ ¬ known then
    if engineId ≠ [] ∧ 4 < engineId.length ∧ engineId.length < 33 then
      pure ()
    else do
      countStat .unknownEngineIDs
      if engine.pysnmpUsmDiscoverable then
        match arrival.scopedPduData with
        | .encryptedPdu _ => raiseStatus { errorIndication := .unknownEngineID }
        | .plaintext scopedPdu => do
          let value ← gets fun state ↦ state.stats .unknownEngineIDs
          raiseStatus
            { errorIndication := .unknownEngineID
              oid := some UsmStat.unknownEngineIDs.name
              val := some value
              securityStateReference := some securityStateReference
              securityLevel := some arrival.securityLevel
              contextEngineId := some scopedPdu.contextEngineId
              contextName := some scopedPdu.contextName
              maxSizeResponseScopedPDU := some maxSizeResponseScopedPDU
              scopedPDU := some scopedPdu }
      else
        raiseStatus { errorIndication := .unknownEngineID }
  else
    pure ()

/-- The user of the empty user name, which discovery uses. -/
def anonymousUser : UsmUser where
  usmUserName := []
  usmUserSecurityName := []
  usmUserAuthProtocol := noAuthServiceID
  usmUserAuthKeyLocalized := none
  usmUserPrivProtocol := noPrivServiceID
  usmUserPrivKeyLocalized := none

/-- 3.2.4: the user under the message's engine identifier, else under the wildcard one. -/
def readUserInfo (engine : UsmEngine) (arrival : Arrival) (parameters : UsmSecurityParameters)
    (maxSizeResponseScopedPDU : ℤ) (securityStateReference : ℕ) : Usm UsmUser :=
  if parameters.msgUserName = [] then
    pure anonymousUser
  else
    match getUserInfo engine parameters.msgAuthoritativeEngineId parameters.msgUserName with
    | .ok user => pure user
    | .error .pyAsn1Error => do
      countStat .inGenErrs
      raiseStatus { errorIndication := .invalidMsg }
    | .error .noSuchInstance =>
      match getUserInfo engine wildcardSecurityEngineId parameters.msgUserName with
      | .ok user => pure user
      | .error .pyAsn1Error => raise .pyAsn1Error
      | .error .noSuchInstance =>
        countAndRaise .unknownUserNames
          { errorIndication := .unknownSecurityName
            securityStateReference := some securityStateReference
            securityLevel := some arrival.securityLevel
            contextEngineId := some engine.snmpEngineID
            contextName := some []
            msgUserName := some parameters.msgUserName
            maxSizeResponseScopedPDU := some maxSizeResponseScopedPDU }

/-- 3.2.1 to 3.2.4, and the caching of 3.2.11 that the code moves up here. -/
def identifyMessage (engine : UsmEngine) (arrival : Arrival) : Usm IdentifiedMessage := do
  -- 48 octets is the longest SNMPv3 header
  let maxSizeResponseScopedPDU := arrival.maxMessageSize - arrival.securityParameters.length - 48
  let parameters ← readSecurityParameters engine arrival
  let discoveryReference ← pushCache engine ⟨parameters.msgUserName, none⟩
  discoverEngine engine arrival parameters maxSizeResponseScopedPDU discoveryReference
  let user ← readUserInfo engine arrival parameters maxSizeResponseScopedPDU discoveryReference
  popCache discoveryReference
  let securityStateReference ← pushCache engine ⟨parameters.msgUserName, some user⟩
  pure ⟨parameters, user, maxSizeResponseScopedPDU, securityStateReference⟩

/-- What 3.2.5 finds wrong with the security level of a message for the local engine; the later
finding replaces the earlier one. A level without privacy is let through for a user with privacy
when boots and time are zero, as they are in the second message of a discovery. -/
def badSecIndication (user : UsmUser) (parameters : UsmSecurityParameters) :
    SecurityLevel → Option String
  | .authPriv =>
    if user.usmUserPrivProtocol = noPrivServiceID then
      some "authPriv wanted while priv not expected"
    else if user.usmUserAuthProtocol = noAuthServiceID then
      some "authPriv wanted while auth not expected"
    else
      none
  | .authNoPriv =>
    if user.usmUserPrivProtocol ≠ noPrivServiceID ∧
        (parameters.msgAuthoritativeEngineBoots ≠ 0 ∨
          parameters.msgAuthoritativeEngineTime ≠ 0) then
      some "authNoPriv wanted while priv expected"
    else if user.usmUserAuthProtocol = noAuthServiceID then
      some "authNoPriv wanted while auth not expected"
    else
      none
  | .noAuthNoPriv =>
    if user.usmUserPrivProtocol ≠ noPrivServiceID then
      some "noAuthNoPriv wanted while priv expected"
    else if user.usmUserAuthProtocol ≠ noAuthServiceID then
      some "noAuthNoPriv wanted while auth expected"
    else
      none

/-- The details of a report about an identified message. -/
def reportDetails (engine : UsmEngine) (arrival : Arrival) (message : IdentifiedMessage)
    (errorIndication : ErrorIndication) : StatusInformation where
  errorIndication := errorIndication
  securityStateReference := some message.securityStateReference
  securityLevel := some arrival.securityLevel
  contextEngineId := some engine.snmpEngineID
  contextName := some []
  msgUserName := some message.parameters.msgUserName
  maxSizeResponseScopedPDU := some message.maxSizeResponseScopedPDU

/-- 3.2.5: the local engine, being authoritative, checks that the level is the user's. -/
def checkSecurityLevel (engine : UsmEngine) (arrival : Arrival) (message : IdentifiedMessage) :
    Usm Unit :=
  if message.parameters.msgAuthoritativeEngineId = engine.snmpEngineID then
    match badSecIndication message.user message.parameters arrival.securityLevel with
    | none => pure ()
    | some _ =>
      countAndRaise .unsupportedSecLevels
        (reportDetails engine arrival message .unsupportedSecurityLevel)
  else
    pure ()

/-- 3.2.6: the digest over the whole message. -/
def authenticateMessage (engine : UsmEngine) (arrival : Arrival) (message : IdentifiedMessage) :
    Usm Unit :=
  match engine.authServices message.user.usmUserAuthProtocol with
  | none => raiseStatus { errorIndication := .authenticationFailure }
  | some authHandler =>
    match authHandler.authenticateIncomingMsg message.user.usmUserAuthKeyLocalized
        message.parameters.msgAuthenticationParameters arrival.wholeMsg with
    | .ok _ => pure ()
    | .error (.protocolError text) => raise (.protocolError text)
    | .error .otherException => raise .otherException
    | .error (.statusInformation _) =>
      countAndRaise .wrongDigests (reportDetails engine arrival message .authenticationFailure)

/-- The store that follows a successful authentication. -/
def synchronizeTimeline (engine : UsmEngine) (arrival : Arrival) (message : IdentifiedMessage) :
    Usm Unit :=
  storeTimeline engine message.parameters.msgAuthoritativeEngineId
    { engineBoots := message.parameters.msgAuthoritativeEngineBoots
      engineTime := message.parameters.msgAuthoritativeEngineTime
      latestReceivedEngineTime := message.parameters.msgAuthoritativeEngineTime
      latestUpdateTimestamp := arrival.synchronizedAt }

/-- 3.2.7a: the time window of the local engine. -/
def checkLocalTimeliness (engine : UsmEngine) (arrival : Arrival) (message : IdentifiedMessage) :
    Usm Unit :=
  if engine.snmpEngineBoots = maxEngineBoots ∨
      engine.snmpEngineBoots ≠ message.parameters.msgAuthoritativeEngineBoots ∨
      timeWindow <
        |(engine.snmpEngineTime : ℤ) - message.parameters.msgAuthoritativeEngineTime| then
    countAndRaise .notInTimeWindows
      { reportDetails engine arrival message .notInTimeWindow with
        securityLevel := some .authNoPriv }
  else
    pure ()

/-- 3.2.7b: the time window of a peer engine, against the entry read from the timeline. -/
def checkPeerTimeliness (engine : UsmEngine) (arrival : Arrival) (message : IdentifiedMessage)
    (entry : TimelineEntry) : Usm Unit := do
  let boots := message.parameters.msgAuthoritativeEngineBoots
  let time := message.parameters.msgAuthoritativeEngineTime
  let idleTime : ℤ := arrival.comparedAt - entry.latestUpdateTimestamp
  -- 3.2.7b.1
  if entry.engineBoots < boots ∨
      boots = entry.engineBoots ∧ entry.latestReceivedEngineTime < time then
    storeTimeline engine message.parameters.msgAuthoritativeEngineId
      { engineBoots := boots
        engineTime := time
        latestReceivedEngineTime := time
        latestUpdateTimestamp := arrival.advancedAt }
  -- 3.2.7b.2
  if entry.engineBoots = maxEngineBoots ∨ boots < entry.engineBoots ∨
      boots = entry.engineBoots ∧ timeWindow < |idleTime + entry.engineTime - time| then
    raiseStatus
      { errorIndication := .notInTimeWindow, msgUserName := some message.parameters.msgUserName }

/-- 3.2.7: the local engine is checked against its own clock, a peer against its timeline. -/
def checkTimeliness (engine : UsmEngine) (arrival : Arrival) (message : IdentifiedMessage) :
    Usm Unit := do
  if message.parameters.msgAuthoritativeEngineId = engine.snmpEngineID then
    checkLocalTimeliness engine arrival message
  else
    match ← gets fun state ↦ state.timeline message.parameters.msgAuthoritativeEngineId with
    | none => raise (.protocolError "Peer SNMP engine info missing")
    | some entry => checkPeerTimeliness engine arrival message entry

/-- A decryption error that names the user only. -/
def raiseDecryptionError {α : Type} (message : IdentifiedMessage) : Usm α :=
  raiseStatus
    { errorIndication := .decryptionError, msgUserName := some message.parameters.msgUserName }

/-- 3.2.8: the scoped PDU, decrypted at the level with privacy. The alternative of the choice that a
message did not choose counts as absent. -/
def readScopedPdu (engine : UsmEngine) (arrival : Arrival) (message : IdentifiedMessage) :
    Usm ScopedPdu :=
  match arrival.securityLevel, arrival.scopedPduData with
  | .authPriv, .plaintext _ => raiseDecryptionError message
  | .authPriv, .encryptedPdu encryptedPDU =>
    match engine.privServices message.user.usmUserPrivProtocol with
    | none => raiseDecryptionError message
    | some privHandler =>
      match privHandler.decryptData message.user.usmUserPrivKeyLocalized
          (message.parameters.msgAuthoritativeEngineBoots,
            message.parameters.msgAuthoritativeEngineTime,
            message.parameters.msgPrivacyParameters) encryptedPDU with
      | .error (.protocolError text) => raise (.protocolError text)
      | .error .otherException => raise .otherException
      | .error (.statusInformation _) =>
        countAndRaise .decryptionErrors (reportDetails engine arrival message .decryptionError)
      | .ok decryptedData =>
        match engine.decodeScopedPdu decryptedData with
        | .ok (some scopedPDU) => pure scopedPDU
        | .ok none => raiseDecryptionError message
        | .error _ => raiseDecryptionError message
  | _, .plaintext scopedPDU => pure scopedPDU
  | _, .encryptedPdu _ => raiseDecryptionError message

/-- The end of the processing: 3.2.8, the refusal of an empty user name without an engine
identifier, and what is handed on (3.2.12). -/
def deliverMessage (engine : UsmEngine) (arrival : Arrival) (message : IdentifiedMessage) :
    Usm AcceptedMessage := do
  let scopedPDU ← readScopedPdu engine arrival message
  if message.parameters.msgUserName = [] ∧ message.parameters.msgAuthoritativeEngineId = [] then
    countAndRaise .unknownUserNames
      { reportDetails engine arrival message .unknownSecurityName with
        securityEngineID := some message.parameters.msgAuthoritativeEngineId
        pdu := some scopedPDU }
  else
    pure
      { securityEngineID := message.parameters.msgAuthoritativeEngineId
        securityName := message.user.usmUserSecurityName
        scopedPDU := scopedPDU
        maxSizeResponseScopedPDU := message.maxSizeResponseScopedPDU
        securityStateReference := message.securityStateReference }

/-- The part of the processing up to the end of 3.2.6. -/
def authenticatedMessage (engine : UsmEngine) (arrival : Arrival) : Usm IdentifiedMessage := do
  let message ← identifyMessage engine arrival
  checkSecurityLevel engine arrival message
  if arrival.securityLevel.isAuthenticated then
    authenticateMessage engine arrival message
  pure message

/-- Verify an incoming message. -/
def processIncomingMsg (engine : UsmEngine) (arrival : Arrival) : Usm AcceptedMessage := do
  let message ← authenticatedMessage engine arrival
  if arrival.securityLevel.isAuthenticated then
    synchronizeTimeline engine arrival message
    checkTimeliness engine arrival message
  deliverMessage engine arrival message

end Pysnmp.Proto.Secmod.UsmService
