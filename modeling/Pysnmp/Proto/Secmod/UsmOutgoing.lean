import Pysnmp.Proto.Messages
import Pysnmp.Proto.Secmod.UsmService

/-!
# Outgoing messages of the user-based security model

`SnmpUSMSecurityModel.__generateRequestOrResponseMsg` of `secmod/rfc3414/service.py`, cut at the
numbers of its comments: `selectUser` is 3.1.1, `checkUserLevel` 3.1.2 and 3.1.3, `engineTimes`
3.1.6, `encryptScopedPdu` 3.1.4 and `authenticateOutgoing` 3.1.8; and `__expireTimelineInfo`, which
a timer tick runs.

The tables, the encoders and the registered services are in `UsmSender`, beside the `UsmEngine` of
incoming messages.
-/

set_option autoImplicit false
set_option relaxedAutoImplicit false

namespace Pysnmp.Proto.Secmod.UsmOutgoing

open Foundation Foundation.Effect DigestPlacement UsmService

/-! ### Messages and services -/

/-- The header of a message. -/
structure GlobalData where
  msgID : ℤ
  msgMaxSize : ℤ
  msgFlags : UInt8
  msgSecurityModel : ℕ
  deriving DecidableEq, Repr

/-- The security parameters of a message, but for the digest. -/
structure OutgoingParameters where
  msgAuthoritativeEngineId : Octets
  msgAuthoritativeEngineBoots : ℕ
  msgAuthoritativeEngineTime : ℕ
  msgUserName : Octets
  msgPrivacyParameters : Octets
  deriving DecidableEq, Repr

/-- What message processing hands over: the header, the engine and the user to send for, the level,
the scoped PDU with the type of the PDU in it, and for a response the reference to what was kept of
its request. -/
structure Outgoing where
  globalData : GlobalData
  securityEngineID : Octets
  securityName : Octets
  securityLevel : SecurityLevel
  scopedPDU : ScopedPdu
  pduType : PduType
  securityStateReference : Option ℕ
  deriving DecidableEq, Repr

/-- A message as it is sent. -/
structure OutgoingMessage where
  parameters : OutgoingParameters
  authenticatedWholeMsg : Octets
  deriving DecidableEq, Repr

/-- The sending side of an authentication service. -/
structure OutgoingAuthentication where
  digestLength : ℕ
  authenticateOutgoingMsg : Option Octets → Octets → Except ServiceError Octets

/-- The sending side of a privacy service: the key, the boots and time, and the plaintext; the
result is the ciphertext with its salt. -/
structure OutgoingPrivacy where
  encryptData : Option Octets → ℕ × ℕ → Octets → Except ServiceError (Octets × Octets)

/-- How `__cloneUserInfo` fails. -/
inductive CloneError
  | noSuchInstance
  | other (error : UsmError)

/-- The environment a message is generated in. The encoder of a message takes the octets that stand
for its digest. -/
structure UsmSender where
  engine : UsmEngine
  sec2usr : Octets → Octets → Option Octets
  pysnmpUsmDiscovery : Bool
  cloneUserInfo : Octets → Octets → Except CloneError UsmUser
  authServices : Oid → Option OutgoingAuthentication
  privServices : Oid → Option OutgoingPrivacy
  encodeScopedPdu : ScopedPdu → Except Unit Octets
  encodeMsg : GlobalData → OutgoingParameters → Octets → ScopedPduData → Except Unit Octets
  emptyPdu : PduType → Octets

/-! ### 3.1.1: the user -/

/-- The user, the engine and the level a message is made for; discovery replaces what it was asked
for. -/
structure Selected where
  user : UsmUser
  securityEngineID : Octets
  securityLevel : SecurityLevel
  globalData : GlobalData
  scopedPDU : ScopedPdu

/-- The user of what was cached, which is only a name before 3.2.11. -/
def userOfCached (cached : CachedSecurityData) : UsmUser :=
  match cached.user with
  | some user => { user with usmUserName := cached.msgUserName }
  | none =>
    { anonymousUser with
      usmUserName := cached.msgUserName
      usmUserSecurityName := cached.msgUserName }

/-- 3.1.1a: the user of the request that is answered. -/
def cachedUser (securityStateReference : ℕ) : Usm UsmUser := do
  match ← gets fun state ↦ state.cacheEntries securityStateReference with
  | none => raise (.protocolError "Cache miss for stateReference")
  | some cached => do
    popCache securityStateReference
    pure (userOfCached cached)

/-- `__getUserInfo` of the user that `__sec2usr` finds under a security name. -/
def getUserOf (sender : UsmSender) (securityEngineID securityName : Octets) :
    Except LookupError UsmUser :=
  match sender.sec2usr securityEngineID securityName with
  | none => .error .noSuchInstance
  | some userName => getUserInfo sender.engine securityEngineID userName

/-- The user of the local engine, made a user of another engine. -/
def cloneUser (sender : UsmSender) (securityEngineID securityName : Octets) : Usm UsmUser :=
  match sender.pysnmpUsmDiscovery, sender.sec2usr sender.engine.snmpEngineID securityName with
  | true, some userName =>
    match sender.cloneUserInfo securityEngineID userName with
    | .ok user => pure user
    | .error .noSuchInstance => raiseStatus { errorIndication := .unknownSecurityName }
    | .error (.other error) => raise error
  | _, _ => raiseStatus { errorIndication := .unknownSecurityName }

/-- The names are no index of the table. -/
def raiseInvalidMsg {α : Type} : Usm α := do
  countStat .inGenErrs
  raiseStatus { errorIndication := .invalidMsg }

/-- 3.1.1b: the user under the engine identifier, else under the wildcard one, else a new one. -/
def findUser (sender : UsmSender) (securityEngineID securityName : Octets) : Usm UsmUser :=
  match getUserOf sender securityEngineID securityName with
  | .ok user => pure user
  | .error .pyAsn1Error => raiseInvalidMsg
  | .error .noSuchInstance =>
    match getUserOf sender wildcardSecurityEngineId securityName with
    | .ok user => pure user
    | .error .pyAsn1Error => raiseInvalidMsg
    | .error .noSuchInstance => cloneUser sender securityEngineID securityName

/-- The message that asks a peer for its engine identifier: without user, authentication, privacy
and content. -/
def discovery (sender : UsmSender) (outgoing : Outgoing) : Selected where
  user := anonymousUser
  securityEngineID := []
  securityLevel := .noAuthNoPriv
  globalData := { outgoing.globalData with msgFlags := 4 }
  scopedPDU :=
    { outgoing.scopedPDU with
      contextEngineId := []
      data := sender.emptyPdu outgoing.pduType }

/-- 3.1.1, and 4 for a peer that is not known yet. -/
def selectUser (sender : UsmSender) (outgoing : Outgoing) : Usm Selected :=
  match outgoing.securityStateReference with
  | some securityStateReference => do
    let user ← cachedUser securityStateReference
    pure
      { user := user
        securityEngineID := sender.engine.snmpEngineID
        securityLevel := outgoing.securityLevel
        globalData := outgoing.globalData
        scopedPDU := outgoing.scopedPDU }
  | none =>
    if outgoing.securityEngineID = [] then
      pure (discovery sender outgoing)
    else do
      let user ← findUser sender outgoing.securityEngineID outgoing.securityName
      pure
        { user := user
          securityEngineID := outgoing.securityEngineID
          securityLevel := outgoing.securityLevel
          globalData := outgoing.globalData
          scopedPDU := outgoing.scopedPDU }

/-! ### The steps after it -/

/-- 3.1.2 and 3.1.3: the user has what the level takes. -/
def checkUserLevel (selected : Selected) : Usm Unit :=
  if selected.securityLevel = .authPriv ∧
      (selected.user.usmUserAuthProtocol = noAuthServiceID ∨
        selected.user.usmUserPrivProtocol = noPrivServiceID) ∨
      selected.securityLevel.isAuthenticated ∧
        selected.user.usmUserAuthProtocol = noAuthServiceID then
    raiseStatus { errorIndication := .unsupportedSecurityLevel }
  else
    pure ()

/-- 3.1.6: the boots and time of a message. A response carries those of the local engine, a request
those that the timeline has of its peer. -/
def engineTimes (sender : UsmSender) (selected : Selected) (pduType : PduType) : Usm (ℕ × ℕ) :=
  if selected.securityLevel.isAuthenticated then
    if pduType.isUnconfirmedClass then
      pure (sender.engine.snmpEngineBoots, sender.engine.snmpEngineTime)
    else do
      match ← gets fun state ↦ state.timeline selected.securityEngineID with
      | some entry => pure (entry.engineBoots, entry.engineTime)
      | none => pure (0, 0)
  else
    pure (0, 0)

/-- An encoder's exception as it is raised. -/
def orSerializationError {α : Type} (encoded : Except Unit α) : Usm α :=
  match encoded with
  | .ok value => pure value
  | .error _ => raiseStatus { errorIndication := .serializationError }

/-- A service's exception as it is raised. -/
def orServiceError {α : Type} (result : Except ServiceError α) : Usm α :=
  match result with
  | .ok value => pure value
  | .error (.protocolError text) => raise (.protocolError text)
  | .error .otherException => raise .otherException
  | .error (.statusInformation errorIndication) =>
    raiseStatus { errorIndication := errorIndication }

/-- 3.1.4: the scoped PDU with the privacy parameters, encrypted at the level with privacy. -/
def encryptScopedPdu (sender : UsmSender) (selected : Selected) (times : ℕ × ℕ) :
    Usm (ScopedPduData × Octets) :=
  if selected.securityLevel = .authPriv then
    match sender.privServices selected.user.usmUserPrivProtocol with
    | none => raiseStatus { errorIndication := .encryptionError }
    | some privHandler => do
      let dataToEncrypt ← orSerializationError (sender.encodeScopedPdu selected.scopedPDU)
      let (encryptedData, privParameters) ←
        orServiceError (privHandler.encryptData selected.user.usmUserPrivKeyLocalized times
          dataToEncrypt)
      pure (.encryptedPdu encryptedData, privParameters)
  else
    pure (.plaintext selected.scopedPDU, [])

/-- 3.1.8: the serialized message, with its digest at a level with authentication. -/
def authenticateOutgoing (sender : UsmSender) (selected : Selected)
    (parameters : OutgoingParameters) (scopedPduData : ScopedPduData) : Usm Octets :=
  if selected.securityLevel.isAuthenticated then
    match sender.authServices selected.user.usmUserAuthProtocol with
    | none => raiseStatus { errorIndication := .authenticationFailure }
    | some authHandler => do
      let wholeMsg ← orSerializationError (sender.encodeMsg selected.globalData parameters
        (List.replicate authHandler.digestLength 0) scopedPduData)
      orServiceError (authHandler.authenticateOutgoingMsg selected.user.usmUserAuthKeyLocalized
        wholeMsg)
  else
    orSerializationError (sender.encodeMsg selected.globalData parameters [] scopedPduData)

/-- `__generateRequestOrResponseMsg`. -/
def generateRequestOrResponseMsg (sender : UsmSender) (outgoing : Outgoing) :
    Usm OutgoingMessage := do
  let selected ← selectUser sender outgoing
  checkUserLevel selected
  let times ← engineTimes sender selected outgoing.pduType
  let (scopedPduData, privParameters) ← encryptScopedPdu sender selected times
  let parameters : OutgoingParameters :=
    { msgAuthoritativeEngineId := selected.securityEngineID
      msgAuthoritativeEngineBoots := times.1
      msgAuthoritativeEngineTime := times.2
      msgUserName := selected.user.usmUserName
      msgPrivacyParameters := privParameters }
  let authenticatedWholeMsg ← authenticateOutgoing sender selected parameters scopedPduData
  pure ⟨parameters, authenticatedWholeMsg⟩

/-- `generateRequestMsg`. -/
def generateRequestMsg (sender : UsmSender) (outgoing : Outgoing) : Usm OutgoingMessage :=
  generateRequestOrResponseMsg sender { outgoing with securityStateReference := none }

/-! ### Timer ticks -/

/-- `__expireTimelineInfo`: drop what expires at this tick. -/
def expireTimelineInfo : Usm Unit :=
  modify fun state ↦ { state with
    timeline := fun engineId ↦
      if engineId ∈ state.timelineExpQueue state.expirationTimer then none
      else state.timeline engineId
    timelineExpQueue := Function.update state.timelineExpQueue state.expirationTimer []
    expirationTimer := state.expirationTimer + 1 }

/-- `receiveTimerTick`. -/
def receiveTimerTick : Usm Unit :=
  expireTimelineInfo

end Pysnmp.Proto.Secmod.UsmOutgoing
