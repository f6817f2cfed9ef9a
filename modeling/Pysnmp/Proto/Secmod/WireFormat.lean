import Pysnmp.Foundation.Ber
import Pysnmp.Proto.Secmod.UsmOutgoing

/-!
# SNMPv3 messages as octets

What the engines of a network agree on: how a message, its security parameters and a scoped PDU are
written and read. `MessageCodec` has the properties of an encoder and its decoder that the security
model relies on. What is written is read again, behind a scoped PDU also with the padding of a
cipher; and the octets of the digest stand in the message as they are, so that a digest of the same
length can be written over them.

`berCodec` is the codec of the basic encoding rules with definite lengths, over the components that
`mpmod/rfc3412.py` and `secmod/rfc3414/service.py` declare.
-/

set_option autoImplicit false
set_option relaxedAutoImplicit false

namespace Pysnmp.Proto.Secmod.WireFormat

open Foundation UsmService UsmOutgoing

/-- A message as the decoder returns it, its security parameters still encoded. -/
structure ReceivedMsg where
  globalData : GlobalData
  msgSecurityParameters : Octets
  msgData : ScopedPduData

/-- The header is within the ranges of its components. -/
structure InRange (globalData : GlobalData) : Prop where
  msgID_nonneg : 0 ≤ globalData.msgID
  msgID_le : globalData.msgID ≤ 2147483647
  msgMaxSize_ge : 484 ≤ globalData.msgMaxSize
  msgMaxSize_le : globalData.msgMaxSize ≤ 2147483647
  msgSecurityModel_ge : 3 ≤ globalData.msgSecurityModel
  msgSecurityModel_le : globalData.msgSecurityModel ≤ 2147483647

instance (globalData : GlobalData) : Decidable (InRange globalData) :=
  decidable_of_iff (0 ≤ globalData.msgID ∧ globalData.msgID ≤ 2147483647 ∧
      484 ≤ globalData.msgMaxSize ∧ globalData.msgMaxSize ≤ 2147483647 ∧
      3 ≤ globalData.msgSecurityModel ∧ globalData.msgSecurityModel ≤ 2147483647)
    ⟨fun ⟨h1, h2, h3, h4, h5, h6⟩ ↦ ⟨h1, h2, h3, h4, h5, h6⟩,
      fun ⟨h1, h2, h3, h4, h5, h6⟩ ↦ ⟨h1, h2, h3, h4, h5, h6⟩⟩

/-- The security parameters are within the ranges of their components. -/
structure ParametersInRange (parameters : OutgoingParameters) : Prop where
  boots_le : parameters.msgAuthoritativeEngineBoots ≤ 2147483647
  time_le : parameters.msgAuthoritativeEngineTime ≤ 2147483647
  userName_length_le : parameters.msgUserName.length ≤ 32

/-- The security parameters as they are received, with the digest. -/
def received (parameters : OutgoingParameters) (digest : Octets)
    (hrange : ParametersInRange parameters) : UsmSecurityParameters where
  msgAuthoritativeEngineId := parameters.msgAuthoritativeEngineId
  msgAuthoritativeEngineBoots := parameters.msgAuthoritativeEngineBoots
  msgAuthoritativeEngineTime := parameters.msgAuthoritativeEngineTime
  msgUserName := parameters.msgUserName
  msgAuthenticationParameters := digest
  msgPrivacyParameters := parameters.msgPrivacyParameters
  boots_le := hrange.boots_le
  time_le := hrange.time_le
  userName_length_le := hrange.userName_length_le

/-- The encoder and the decoder of the messages. -/
structure MessageCodec where
  encodeScopedPdu : ScopedPdu → Except Unit Octets
  decodeScopedPdu : Octets → Except Unit (Option ScopedPdu)
  encodeMsg : GlobalData → OutgoingParameters → Octets → ScopedPduData → Except Unit Octets
  decodeMsg : Octets → Except Unit (Option ReceivedMsg)
  decodeSecurityParameters : Octets → Except Unit (Option UsmSecurityParameters)
  decodeScopedPdu_append : ∀ {scopedPdu octets}, encodeScopedPdu scopedPdu = .ok octets →
    ∀ padding, decodeScopedPdu (octets ++ padding) = .ok (some scopedPdu)
  decode_encodeMsg : ∀ {globalData parameters digest msgData wholeMsg},
    encodeMsg globalData parameters digest msgData = .ok wholeMsg → InRange globalData →
    ∀ hrange : ParametersInRange parameters, ∃ msgSecurityParameters,
      decodeMsg wholeMsg = .ok (some ⟨globalData, msgSecurityParameters, msgData⟩) ∧
      decodeSecurityParameters msgSecurityParameters =
        .ok (some (received parameters digest hrange))
  digest_inPlace : ∀ {globalData parameters digest msgData wholeMsg},
    encodeMsg globalData parameters digest msgData = .ok wholeMsg →
    ∃ head tail, wholeMsg = head ++ digest ++ tail ∧ ∀ other : Octets,
      other.length = digest.length →
      encodeMsg globalData parameters other msgData = .ok (head ++ other ++ tail)

/-! ### The basic encoding rules -/

section Encoding

/-- Encode a value, or fail as the encoder does where there is no room for its length. -/
def encodeValue (tag : UInt8) (contents : Octets) : Except Unit Octets :=
  match Ber.encode tag contents with
  | some octets => .ok octets
  | none => .error ()

/-- Encode an integer. -/
def encodeInteger (value : ℤ) : Except Unit Octets :=
  encodeValue 0x02 (Ber.integerOctets value)

/-- Encode an octet string. -/
def encodeOctets (octets : Octets) : Except Unit Octets :=
  encodeValue 0x04 octets

/-- The contents of the scoped PDU; the PDU is there in its encoding. -/
def scopedPduContents (scopedPdu : ScopedPdu) : Except Unit Octets := do
  let contextEngineId ← encodeOctets scopedPdu.contextEngineId
  let contextName ← encodeOctets scopedPdu.contextName
  pure (contextEngineId ++ contextName ++ scopedPdu.data)

/-- Encode a scoped PDU. -/
def encodeScopedPduBer (scopedPdu : ScopedPdu) : Except Unit Octets := do
  let contents ← scopedPduContents scopedPdu
  encodeValue 0x30 contents

/-- Encode the header. -/
def encodeHeader (globalData : GlobalData) : Except Unit Octets := do
  let msgID ← encodeInteger globalData.msgID
  let msgMaxSize ← encodeInteger globalData.msgMaxSize
  let msgFlags ← encodeOctets [globalData.msgFlags]
  let msgSecurityModel ← encodeInteger globalData.msgSecurityModel
  encodeValue 0x30 (msgID ++ msgMaxSize ++ msgFlags ++ msgSecurityModel)

/-- Encode the security parameters. -/
def encodeParameters (parameters : OutgoingParameters) (digest : Octets) : Except Unit Octets := do
  let engineId ← encodeOctets parameters.msgAuthoritativeEngineId
  let boots ← encodeInteger parameters.msgAuthoritativeEngineBoots
  let time ← encodeInteger parameters.msgAuthoritativeEngineTime
  let userName ← encodeOctets parameters.msgUserName
  let authentication ← encodeOctets digest
  let privacy ← encodeOctets parameters.msgPrivacyParameters
  encodeValue 0x30 (engineId ++ boots ++ time ++ userName ++ authentication ++ privacy)

/-- Encode the choice at the end of a message. -/
def encodeData : ScopedPduData → Except Unit Octets
  | .plaintext scopedPdu => encodeScopedPduBer scopedPdu
  | .encryptedPdu octets => encodeOctets octets

/-- Encode a message of version 3. -/
def encodeMsgBer (globalData : GlobalData) (parameters : OutgoingParameters) (digest : Octets)
    (msgData : ScopedPduData) : Except Unit Octets := do
  let version ← encodeInteger 3
  let header ← encodeHeader globalData
  let parameters ← encodeParameters parameters digest
  let securityParameters ← encodeOctets parameters
  let data ← encodeData msgData
  encodeValue 0x30 (version ++ header ++ securityParameters ++ data)

end Encoding

section Decoding

/-- Decode an integer, and what follows it. -/
def decodeInteger (octets : Octets) : Except Unit (ℤ × Octets) :=
  match Ber.decodeAs 0x02 octets with
  | some (contents, rest) => .ok (Ber.integerOf contents, rest)
  | none => .error ()

/-- Decode contents under a tag, and what follows them. -/
def decodeValue (tag : UInt8) (octets : Octets) : Except Unit (Octets × Octets) :=
  match Ber.decodeAs tag octets with
  | some decoded => .ok decoded
  | none => .error ()

/-- Decode a scoped PDU. -/
def decodeScopedPduBer (octets : Octets) : Except Unit ScopedPdu := do
  let (contents, _) ← decodeValue 0x30 octets
  let (contextEngineId, contents) ← decodeValue 0x04 contents
  let (contextName, data) ← decodeValue 0x04 contents
  pure ⟨contextEngineId, contextName, data⟩

/-- Decode the header, whose flags are one octet. -/
def decodeHeader (octets : Octets) : Except Unit GlobalData := do
  let (msgID, octets) ← decodeInteger octets
  let (msgMaxSize, octets) ← decodeInteger octets
  let (msgFlags, octets) ← decodeValue 0x04 octets
  let (msgSecurityModel, _) ← decodeInteger octets
  match msgFlags with
  | [flags] =>
    if InRange ⟨msgID, msgMaxSize, flags, msgSecurityModel.toNat⟩ then
      .ok ⟨msgID, msgMaxSize, flags, msgSecurityModel.toNat⟩
    else
      .error ()
  | _ => .error ()

/-- Decode the security parameters. -/
def decodeParametersBer (octets : Octets) : Except Unit UsmSecurityParameters := do
  let (contents, _) ← decodeValue 0x30 octets
  let (engineId, contents) ← decodeValue 0x04 contents
  let (boots, contents) ← decodeInteger contents
  let (time, contents) ← decodeInteger contents
  let (userName, contents) ← decodeValue 0x04 contents
  let (authentication, contents) ← decodeValue 0x04 contents
  let (privacy, _) ← decodeValue 0x04 contents
  if hrange : (0 ≤ boots ∧ boots.toNat ≤ 2147483647) ∧ (0 ≤ time ∧ time.toNat ≤ 2147483647) ∧
      userName.length ≤ 32 then
    .ok
      { msgAuthoritativeEngineId := engineId
        msgAuthoritativeEngineBoots := boots.toNat
        msgAuthoritativeEngineTime := time.toNat
        msgUserName := userName
        msgAuthenticationParameters := authentication
        msgPrivacyParameters := privacy
        boots_le := hrange.1.2
        time_le := hrange.2.1.2
        userName_length_le := hrange.2.2 }
  else
    .error ()

/-- Decode the choice at the end of a message, by its tag. -/
def decodeData (octets : Octets) : Except Unit ScopedPduData :=
  match Ber.decode octets with
  | some (0x04, contents, _) => .ok (.encryptedPdu contents)
  | some (0x30, _, _) => do
    let scopedPdu ← decodeScopedPduBer octets
    pure (.plaintext scopedPdu)
  | _ => .error ()

/-- Decode a message. -/
def decodeMsgBer (octets : Octets) : Except Unit ReceivedMsg := do
  let (contents, _) ← decodeValue 0x30 octets
  let (_, contents) ← decodeInteger contents
  let (header, contents) ← decodeValue 0x30 contents
  let globalData ← decodeHeader header
  let (securityParameters, contents) ← decodeValue 0x04 contents
  let msgData ← decodeData contents
  pure ⟨globalData, securityParameters, msgData⟩

end Decoding

/-! ### What is written is read -/

theorem ok_bind {α β : Type} (value : α) (next : α → Except Unit β) :
    (Except.ok value >>= next) = next value :=
  rfl

theorem exists_of_encodeValue {tag : UInt8} {contents octets : Octets}
    (hencode : encodeValue tag contents = .ok octets) : Ber.encode tag contents = some octets := by
  unfold encodeValue at hencode
  split at hencode
  · rename_i found hfound
    rw [hfound, Except.ok.inj hencode]
  · cases hencode

theorem decodeValue_encodeValue {tag : UInt8} {contents octets : Octets}
    (hencode : encodeValue tag contents = .ok octets) (rest : Octets) :
    decodeValue tag (octets ++ rest) = .ok (contents, rest) := by
  rw [decodeValue, Ber.decodeAs_encode (exists_of_encodeValue hencode)]

theorem decodeInteger_encodeInteger {value : ℤ} {octets : Octets}
    (hencode : encodeInteger value = .ok octets) (rest : Octets) :
    decodeInteger (octets ++ rest) = .ok (value, rest) := by
  rw [decodeInteger, Ber.decodeAs_encode (exists_of_encodeValue hencode)]
  simp only [Ber.integerOf_integerOctets]

theorem decodeScopedPduBer_encode {scopedPdu : ScopedPdu} {octets : Octets}
    (hencode : encodeScopedPduBer scopedPdu = .ok octets) (rest : Octets) :
    decodeScopedPduBer (octets ++ rest) = .ok scopedPdu := by
  obtain ⟨contents, hcontents, hwhole⟩ := exists_of_bind_eq_ok hencode
  obtain ⟨contextEngineId, hengine, hcontents⟩ := exists_of_bind_eq_ok hcontents
  obtain ⟨contextName, hname, hcontents⟩ := exists_of_bind_eq_ok hcontents
  obtain rfl := Except.ok.inj hcontents
  unfold decodeScopedPduBer
  simp only [decodeValue_encodeValue hwhole, ok_bind, List.append_assoc,
    decodeValue_encodeValue hengine, decodeValue_encodeValue hname]
  rfl

theorem decodeHeader_encode {globalData : GlobalData} {octets : Octets}
    (hrange : InRange globalData) (hencode : encodeHeader globalData = .ok octets) :
    ∃ contents, encodeValue 0x30 contents = .ok octets ∧
      decodeHeader contents = .ok globalData := by
  obtain ⟨msgID, hid, hencode⟩ := exists_of_bind_eq_ok hencode
  obtain ⟨msgMaxSize, hsize, hencode⟩ := exists_of_bind_eq_ok hencode
  obtain ⟨msgFlags, hflags, hencode⟩ := exists_of_bind_eq_ok hencode
  obtain ⟨msgSecurityModel, hmodel, hencode⟩ := exists_of_bind_eq_ok hencode
  have hlast : decodeInteger msgSecurityModel = .ok ((globalData.msgSecurityModel : ℤ), []) := by
    have hdecode := decodeInteger_encodeInteger hmodel []
    rwa [List.append_nil] at hdecode
  refine ⟨_, hencode, ?_⟩
  unfold decodeHeader
  simp only [List.append_assoc, decodeInteger_encodeInteger hid, ok_bind,
    decodeInteger_encodeInteger hsize, decodeValue_encodeValue hflags, hlast, Int.toNat_natCast]
  exact if_pos hrange

theorem decodeParametersBer_encode {parameters : OutgoingParameters} {digest octets : Octets}
    (hrange : ParametersInRange parameters)
    (hencode : encodeParameters parameters digest = .ok octets) :
    decodeParametersBer octets = .ok (received parameters digest hrange) := by
  obtain ⟨engineId, hengine, hencode⟩ := exists_of_bind_eq_ok hencode
  obtain ⟨boots, hboots, hencode⟩ := exists_of_bind_eq_ok hencode
  obtain ⟨time, htime, hencode⟩ := exists_of_bind_eq_ok hencode
  obtain ⟨userName, huser, hencode⟩ := exists_of_bind_eq_ok hencode
  obtain ⟨authentication, hauthentication, hencode⟩ := exists_of_bind_eq_ok hencode
  obtain ⟨privacy, hprivacy, hencode⟩ := exists_of_bind_eq_ok hencode
  have hwhole := decodeValue_encodeValue hencode []
  have hlast : decodeValue 0x04 privacy = .ok (parameters.msgPrivacyParameters, []) := by
    have hdecode := decodeValue_encodeValue hprivacy []
    rwa [List.append_nil] at hdecode
  rw [List.append_nil] at hwhole
  unfold decodeParametersBer
  simp only [hwhole, List.append_assoc, decodeValue_encodeValue hengine, ok_bind,
    decodeInteger_encodeInteger hboots, decodeInteger_encodeInteger htime,
    decodeValue_encodeValue huser, decodeValue_encodeValue hauthentication, hlast,
    Int.toNat_natCast]
  exact dif_pos ⟨⟨Int.natCast_nonneg _, hrange.boots_le⟩, ⟨Int.natCast_nonneg _, hrange.time_le⟩,
    hrange.userName_length_le⟩

theorem decodeData_encode {msgData : ScopedPduData} {octets : Octets}
    (hencode : encodeData msgData = .ok octets) : decodeData octets = .ok msgData := by
  cases msgData with
  | plaintext scopedPdu =>
    have hscoped : encodeScopedPduBer scopedPdu = .ok octets := hencode
    obtain ⟨contents, _, hwhole⟩ := exists_of_bind_eq_ok hscoped
    have htag := Ber.decode_encode (exists_of_encodeValue hwhole) []
    have hread := decodeScopedPduBer_encode hencode []
    rw [List.append_nil] at htag hread
    simp only [decodeData, htag, hread, ok_bind]
    rfl
  | encryptedPdu ciphertext =>
    have htag := Ber.decode_encode (exists_of_encodeValue hencode) []
    rw [List.append_nil] at htag
    simp only [decodeData, htag]

theorem decode_encodeMsgBer {globalData : GlobalData} {parameters : OutgoingParameters}
    {digest wholeMsg : Octets} {msgData : ScopedPduData}
    (hencode : encodeMsgBer globalData parameters digest msgData = .ok wholeMsg)
    (hglobal : InRange globalData) (hrange : ParametersInRange parameters) :
    ∃ msgSecurityParameters,
      decodeMsgBer wholeMsg = .ok ⟨globalData, msgSecurityParameters, msgData⟩ ∧
      decodeParametersBer msgSecurityParameters = .ok (received parameters digest hrange) := by
  obtain ⟨version, hversion, hencode⟩ := exists_of_bind_eq_ok hencode
  obtain ⟨header, hheader, hencode⟩ := exists_of_bind_eq_ok hencode
  obtain ⟨securityParameters, hparameters, hencode⟩ := exists_of_bind_eq_ok hencode
  obtain ⟨wrapped, hwrapped, hencode⟩ := exists_of_bind_eq_ok hencode
  obtain ⟨data, hdata, hencode⟩ := exists_of_bind_eq_ok hencode
  obtain ⟨headerContents, hheader, hglobalData⟩ := decodeHeader_encode hglobal hheader
  have hwhole := decodeValue_encodeValue hencode []
  rw [List.append_nil] at hwhole
  refine ⟨securityParameters, ?_, decodeParametersBer_encode hrange hparameters⟩
  unfold decodeMsgBer
  simp only [hwhole, List.append_assoc, decodeInteger_encodeInteger hversion, ok_bind,
    decodeValue_encodeValue hheader, hglobalData, decodeValue_encodeValue hwrapped,
    decodeData_encode hdata]
  rfl

/-! ### The digest in the message -/

/-- An encoding in which one part stands as it is, for all parts of its length alike. -/
def InPlace (encoding : Octets → Except Unit Octets) (digest : Octets) : Prop :=
  ∀ octets, encoding digest = .ok octets → ∃ head tail, octets = head ++ digest ++ tail ∧
    ∀ other : Octets, other.length = digest.length →
      encoding other = .ok (head ++ other ++ tail)

theorem inPlace_encodeValue (tag : UInt8) (digest : Octets) :
    InPlace (encodeValue tag) digest := by
  intro octets hencode
  obtain ⟨lengthOctets, hlength, rfl⟩ :=
    Ber.encode_eq_some_iff.mp (exists_of_encodeValue hencode)
  refine ⟨tag :: lengthOctets, [], by simp, fun other hother ↦ ?_⟩
  have hencode : Ber.encode tag other = some (tag :: (lengthOctets ++ other)) :=
    Ber.encode_eq_some_iff.mpr ⟨lengthOctets, by rw [hother]; exact hlength, rfl⟩
  rw [encodeValue, hencode, List.append_nil]
  rfl

/-- What stands in place in a part of a value does so in the value. -/
theorem InPlace.value {encoding : Octets → Except Unit Octets} {digest : Octets}
    (hencoding : InPlace encoding digest) (tag : UInt8) (before after : Octets) :
    InPlace (fun digest ↦ encoding digest >>= fun part ↦
      encodeValue tag (before ++ part ++ after)) digest := by
  intro octets hencode
  obtain ⟨part, hpart, hencode⟩ := exists_of_bind_eq_ok hencode
  obtain ⟨head, tail, rfl, hinner⟩ := hencoding part hpart
  obtain ⟨first, last, rfl, houter⟩ := inPlace_encodeValue tag _ octets hencode
  refine ⟨first ++ before ++ head, tail ++ after ++ last, by simp only [List.append_assoc],
    fun other hother ↦ ?_⟩
  have hlength : (before ++ (head ++ other ++ tail) ++ after).length =
      (before ++ (head ++ digest ++ tail) ++ after).length := by
    simp only [List.length_append, hother]
  beta_reduce
  rw [hinner other hother, ok_bind, houter _ hlength]
  simp only [List.append_assoc]

theorem inPlace_encodeParameters (parameters : OutgoingParameters) (digest : Octets) :
    InPlace (encodeParameters parameters) digest := by
  intro octets hencode
  obtain ⟨engineId, hengine, hencode⟩ := exists_of_bind_eq_ok hencode
  obtain ⟨boots, hboots, hencode⟩ := exists_of_bind_eq_ok hencode
  obtain ⟨time, htime, hencode⟩ := exists_of_bind_eq_ok hencode
  obtain ⟨userName, huser, hencode⟩ := exists_of_bind_eq_ok hencode
  obtain ⟨authentication, hauthentication, hencode⟩ := exists_of_bind_eq_ok hencode
  obtain ⟨privacy, hprivacy, hencode⟩ := exists_of_bind_eq_ok hencode
  have hvalue := (inPlace_encodeValue 0x04 digest).value 0x30
    (engineId ++ boots ++ time ++ userName) privacy octets
    (by
      beta_reduce
      rw [show encodeValue 0x04 digest = .ok authentication from hauthentication]
      exact hencode)
  obtain ⟨head, tail, heq, hother⟩ := hvalue
  refine ⟨head, tail, heq, fun other hlength ↦ ?_⟩
  rw [← hother other hlength]
  unfold encodeParameters
  simp only [hengine, hboots, htime, huser, hprivacy, ok_bind]
  rfl

theorem inPlace_encodeMsgBer (globalData : GlobalData) (parameters : OutgoingParameters)
    (msgData : ScopedPduData) (digest : Octets) :
    InPlace (fun digest ↦ encodeMsgBer globalData parameters digest msgData) digest := by
  intro octets hencode
  obtain ⟨version, hversion, hencode⟩ := exists_of_bind_eq_ok hencode
  obtain ⟨header, hheader, hencode⟩ := exists_of_bind_eq_ok hencode
  obtain ⟨securityParameters, hparameters, hencode⟩ := exists_of_bind_eq_ok hencode
  obtain ⟨wrapped, hwrapped, hencode⟩ := exists_of_bind_eq_ok hencode
  obtain ⟨data, hdata, hencode⟩ := exists_of_bind_eq_ok hencode
  have hwrap : InPlace (fun digest ↦ encodeParameters parameters digest >>= fun part ↦
      encodeValue 0x04 ([] ++ part ++ [])) digest :=
    (inPlace_encodeParameters parameters digest).value 0x04 [] []
  have hvalue := hwrap.value 0x30 (version ++ header) data octets (by
    beta_reduce
    rw [hparameters, ok_bind, List.nil_append, List.append_nil,
      show encodeValue 0x04 securityParameters = .ok wrapped from hwrapped]
    exact hencode)
  obtain ⟨head, tail, heq, hother⟩ := hvalue
  refine ⟨head, tail, heq, fun other hlength ↦ ?_⟩
  rw [← hother other hlength]
  unfold encodeMsgBer
  simp only [hversion, hheader, hdata, ok_bind, List.nil_append, List.append_nil, bind_assoc]
  rfl

/-- The codec of the basic encoding rules. -/
def berCodec : MessageCodec where
  encodeScopedPdu := encodeScopedPduBer
  decodeScopedPdu := fun octets ↦ (decodeScopedPduBer octets).map some
  encodeMsg := encodeMsgBer
  decodeMsg := fun octets ↦ (decodeMsgBer octets).map some
  decodeSecurityParameters := fun octets ↦ (decodeParametersBer octets).map some
  decodeScopedPdu_append := fun hencode padding ↦ by
    rw [decodeScopedPduBer_encode hencode padding]
    rfl
  decode_encodeMsg := fun hencode hglobal hrange ↦ by
    obtain ⟨msgSecurityParameters, hmsg, hparameters⟩ := decode_encodeMsgBer hencode hglobal hrange
    exact ⟨msgSecurityParameters, by rw [hmsg]; rfl, by rw [hparameters]; rfl⟩
  digest_inPlace := fun hencode ↦ inPlace_encodeMsgBer _ _ _ _ _ hencode

end Pysnmp.Proto.Secmod.WireFormat
