import Pysnmp.Proto.Secmod.WireFormat

/-!
# PDUs as octets

The components and tags that `rfc1905.py` declares for the PDUs of SNMPv2 and `rfc1902.py` for the
values in them, written in the basic encoding rules. A `PduCodec` is what message processing relies
on of an encoder and its decoder: what is readable is read as it was written. `berPdus` is the codec
of the basic encoding rules, and readable there is every PDU whose components are within their
ranges and whose names are object identifiers (`readable_berPdus_iff`).
-/

set_option autoImplicit false
set_option relaxedAutoImplicit false

namespace Pysnmp.Proto.PduFormat

open Foundation Secmod.WireFormat

/-- How PDUs are written and read. The decoder of a message has read the PDU in it, so reading it
again does not fail. -/
structure PduCodec where
  encode : Pdu → Octets
  decode : Octets → Pdu
  readable : Pdu → Prop
  decode_encode : ∀ pdu, readable pdu → decode (encode pdu) = pdu

/-! ### Ranges -/

/-- `Integer32`. -/
def isInteger32 (value : ℤ) : Bool :=
  -2147483648 ≤ value ∧ value ≤ 2147483647

/-- The value is within the range of its type. -/
def valueInRange : BindingValue → Bool
  | .integer value => isInteger32 value
  | .octetString value => value.length ≤ 65535
  | .ipAddress value => value.length = 4
  | .counter32 value | .gauge32 value | .timeTicks value => value ≤ 4294967295
  | .counter64 value => value ≤ 18446744073709551615
  | .null | .objectIdentifier _ | .arbitrary _ | .noSuchObject | .noSuchInstance | .endOfMibView =>
    true

/-- The components of the PDU are within their ranges; those of a bulk request are both counts. -/
def pduInRange (pdu : Pdu) : Bool :=
  isInteger32 pdu.requestID && (0 ≤ pdu.errorIndex ∧ pdu.errorIndex ≤ 2147483647 : Bool) &&
    (pdu.pduType ≠ .getBulkRequest ∨ 0 ≤ pdu.errorStatus ∧ pdu.errorStatus ≤ 2147483647 : Bool) &&
    pdu.varBinds.all fun varBind ↦ valueInRange varBind.2

/-! ### Encoding -/

/-- The tag of a PDU; a v1 trap is none of them. -/
def tagOf : PduType → Option UInt8
  | .getRequest => some 0xA0
  | .getNextRequest => some 0xA1
  | .response => some 0xA2
  | .setRequest => some 0xA3
  | .v1Trap => none
  | .getBulkRequest => some 0xA5
  | .informRequest => some 0xA6
  | .snmpV2Trap => some 0xA7
  | .report => some 0xA8

/-- Encode an object identifier. -/
def encodeOid (oid : Oid) : Except Unit Octets :=
  match Ber.oidOctets oid with
  | some contents => encodeValue 0x06 contents
  | none => .error ()

/-- The tag and the contents of the value of a binding. -/
def contentsOf : BindingValue → Option (UInt8 × Octets)
  | .null => some (0x05, [])
  | .integer value => some (0x02, Ber.integerOctets value)
  | .octetString value => some (0x04, value)
  | .objectIdentifier value => (Ber.oidOctets value).map fun contents ↦ (0x06, contents)
  | .ipAddress value => some (0x40, value)
  | .counter32 value => some (0x41, Ber.integerOctets value)
  | .gauge32 value => some (0x42, Ber.integerOctets value)
  | .timeTicks value => some (0x43, Ber.integerOctets value)
  | .arbitrary value => some (0x44, value)
  | .counter64 value => some (0x46, Ber.integerOctets value)
  | .noSuchObject => some (0x80, [])
  | .noSuchInstance => some (0x81, [])
  | .endOfMibView => some (0x82, [])

/-- Encode the value of a binding. -/
def encodeBindingValue (value : BindingValue) : Except Unit Octets :=
  match contentsOf value with
  | some (tag, contents) => encodeValue tag contents
  | none => .error ()

/-- Encode a binding. -/
def encodeVarBind (varBind : VarBind) : Except Unit Octets := do
  let name ← encodeOid varBind.1
  let value ← encodeBindingValue varBind.2
  encodeValue 0x30 (name ++ value)

/-- Encode bindings, one after the other. -/
def encodeVarBinds : List VarBind → Except Unit Octets
  | [] => .ok []
  | varBind :: varBinds => do
    let first ← encodeVarBind varBind
    let rest ← encodeVarBinds varBinds
    pure (first ++ rest)

/-- Encode a PDU. -/
def encodePdu (pdu : Pdu) : Except Unit Octets := do
  let requestID ← encodeInteger pdu.requestID
  let errorStatus ← encodeInteger pdu.errorStatus
  let errorIndex ← encodeInteger pdu.errorIndex
  let bindings ← encodeVarBinds pdu.varBinds
  let varBinds ← encodeValue 0x30 bindings
  match tagOf pdu.pduType with
  | none => .error ()
  | some tag => encodeValue tag (requestID ++ errorStatus ++ errorIndex ++ varBinds)

/-! ### Decoding -/

/-- The type of PDU that a tag stands for. -/
def pduTypeOf (tag : UInt8) : Option PduType :=
  [.getRequest, .getNextRequest, .response, .setRequest, .getBulkRequest, .informRequest,
    .snmpV2Trap, .report].find? fun pduType ↦ tagOf pduType = some tag

/-- Decode the contents of a value of a binding, by its tag. -/
def decodeContents (tag : UInt8) (contents : Octets) : Except Unit BindingValue :=
  if tag = 0x05 then .ok .null
  else if tag = 0x02 then .ok (.integer (Ber.integerOf contents))
  else if tag = 0x04 then .ok (.octetString contents)
  else if tag = 0x06 then
    match Ber.oidOf contents with
    | some oid => .ok (.objectIdentifier oid)
    | none => .error ()
  else if tag = 0x40 then .ok (.ipAddress contents)
  else if tag = 0x41 then .ok (.counter32 (Ber.integerOf contents).toNat)
  else if tag = 0x42 then .ok (.gauge32 (Ber.integerOf contents).toNat)
  else if tag = 0x43 then .ok (.timeTicks (Ber.integerOf contents).toNat)
  else if tag = 0x44 then .ok (.arbitrary contents)
  else if tag = 0x46 then .ok (.counter64 (Ber.integerOf contents).toNat)
  else if tag = 0x80 then .ok .noSuchObject
  else if tag = 0x81 then .ok .noSuchInstance
  else if tag = 0x82 then .ok .endOfMibView
  else .error ()

/-- Decode the value of a binding. -/
def decodeBindingValue (octets : Octets) : Except Unit BindingValue :=
  match Ber.decode octets with
  | some (tag, contents, _) => decodeContents tag contents
  | none => .error ()

/-- Decode a binding. -/
def decodeVarBind (contents : Octets) : Except Unit VarBind := do
  let (name, contents) ← decodeValue 0x06 contents
  match Ber.oidOf name with
  | none => .error ()
  | some oid => do
    let value ← decodeBindingValue contents
    pure (oid, value)

/-- Decode bindings up to the end of the octets, as many as the fuel allows. -/
def decodeVarBinds : ℕ → Octets → Except Unit (List VarBind)
  | _, [] => .ok []
  | 0, _ :: _ => .error ()
  | fuel + 1, octet :: octets => do
    let (contents, rest) ← decodeValue 0x30 (octet :: octets)
    let varBind ← decodeVarBind contents
    let varBinds ← decodeVarBinds fuel rest
    pure (varBind :: varBinds)

/-- Decode a PDU. -/
def decodePdu (octets : Octets) : Except Unit Pdu :=
  match Ber.decode octets with
  | none => .error ()
  | some (tag, contents, _) =>
    match pduTypeOf tag with
    | none => .error ()
    | some pduType => do
      let (requestID, contents) ← decodeInteger contents
      let (errorStatus, contents) ← decodeInteger contents
      let (errorIndex, contents) ← decodeInteger contents
      let (bindings, _) ← decodeValue 0x30 contents
      let varBinds ← decodeVarBinds bindings.length bindings
      let pdu : Pdu := { pduType, requestID, errorStatus, errorIndex, varBinds }
      if pduInRange pdu then .ok pdu else .error ()

/-! ### What is written is read -/

theorem decodeValue_encodeOid {oid : Oid} {octets : Octets} (hencode : encodeOid oid = .ok octets)
    (rest : Octets) : ∃ contents, decodeValue 0x06 (octets ++ rest) = .ok (contents, rest) ∧
      Ber.oidOf contents = some oid := by
  unfold encodeOid at hencode
  split at hencode
  · next contents hcontents =>
    exact ⟨contents, decodeValue_encodeValue hencode rest, Ber.oidOf_oidOctets hcontents⟩
  · cases hencode

theorem decodeContents_contentsOf {value : BindingValue} {tag : UInt8} {contents : Octets}
    (hcontents : contentsOf value = some (tag, contents)) :
    decodeContents tag contents = .ok value := by
  cases value with
  | null | noSuchObject | noSuchInstance | endOfMibView | octetString | ipAddress | arbitrary =>
    cases hcontents
    rfl
  | integer | counter32 | gauge32 | timeTicks | counter64 =>
    cases hcontents
    simp [decodeContents, Ber.integerOf_integerOctets]
  | objectIdentifier oid =>
    obtain ⟨found, hoid, heq⟩ := Option.map_eq_some_iff.mp hcontents
    cases heq
    simp [decodeContents, Ber.oidOf_oidOctets hoid]

theorem decodeBindingValue_encode {value : BindingValue} {octets : Octets}
    (hencode : encodeBindingValue value = .ok octets) :
    decodeBindingValue octets = .ok value := by
  unfold encodeBindingValue at hencode
  split at hencode
  · next tag contents hcontents =>
    have hdecode := Ber.decode_encode (exists_of_encodeValue hencode) []
    rw [List.append_nil] at hdecode
    simp only [decodeBindingValue, hdecode]
    exact decodeContents_contentsOf hcontents
  · cases hencode

theorem decodeVarBind_encode {varBind : VarBind} {octets : Octets}
    (hencode : encodeVarBind varBind = .ok octets) :
    ∃ contents, encodeValue 0x30 contents = .ok octets ∧ decodeVarBind contents = .ok varBind := by
  obtain ⟨name, hname, hencode⟩ := exists_of_bind_eq_ok hencode
  obtain ⟨value, hvalue, hencode⟩ := exists_of_bind_eq_ok hencode
  obtain ⟨nameContents, hdecode, hoid⟩ := decodeValue_encodeOid hname value
  refine ⟨_, hencode, ?_⟩
  unfold decodeVarBind
  simp only [hdecode, ok_bind, hoid, decodeBindingValue_encode hvalue]
  rfl

/-- An encoded binding has octets, so that the octets of bindings are fuel enough to read them. -/
theorem length_le_of_encodeVarBinds {varBinds : List VarBind} {octets : Octets}
    (hencode : encodeVarBinds varBinds = .ok octets) : varBinds.length ≤ octets.length := by
  induction varBinds generalizing octets with
  | nil => exact Nat.zero_le _
  | cons varBind varBinds ih =>
    obtain ⟨first, hfirst, hencode⟩ := exists_of_bind_eq_ok hencode
    obtain ⟨rest, hrest, hencode⟩ := exists_of_bind_eq_ok hencode
    obtain rfl := Except.ok.inj hencode
    obtain ⟨contents, hwhole, -⟩ := decodeVarBind_encode hfirst
    obtain ⟨lengthOctets, -, rfl⟩ := Ber.encode_eq_some_iff.mp (exists_of_encodeValue hwhole)
    have hlength := ih hrest
    simp only [List.length_append, List.length_cons]
    omega

theorem decodeVarBinds_encode {varBinds : List VarBind} {octets : Octets}
    (hencode : encodeVarBinds varBinds = .ok octets) {fuel : ℕ} (hfuel : varBinds.length ≤ fuel) :
    decodeVarBinds fuel octets = .ok varBinds := by
  induction varBinds generalizing octets fuel with
  | nil =>
    obtain rfl := Except.ok.inj hencode
    cases fuel <;> rfl
  | cons varBind varBinds ih =>
    obtain ⟨first, hfirst, hencode⟩ := exists_of_bind_eq_ok hencode
    obtain ⟨rest, hrest, hencode⟩ := exists_of_bind_eq_ok hencode
    obtain rfl := Except.ok.inj hencode
    obtain ⟨contents, hwhole, hread⟩ := decodeVarBind_encode hfirst
    have hdecode := decodeValue_encodeValue hwhole rest
    obtain ⟨lengthOctets, -, rfl⟩ := Ber.encode_eq_some_iff.mp (exists_of_encodeValue hwhole)
    cases fuel with
    | zero => exact absurd hfuel (Nat.not_succ_le_zero _)
    | succ fuel =>
      rw [List.cons_append] at hdecode ⊢
      rw [decodeVarBinds, hdecode, ok_bind]
      simp only [hread, ok_bind, ih hrest (Nat.le_of_succ_le_succ hfuel)]
      rfl

theorem pduTypeOf_tagOf {pduType : PduType} {tag : UInt8} (htag : tagOf pduType = some tag) :
    pduTypeOf tag = some pduType := by
  cases pduType with
  | v1Trap => cases htag
  | getRequest | getNextRequest | response | setRequest | getBulkRequest | informRequest
    | snmpV2Trap | report =>
    obtain rfl := Option.some.inj htag
    decide

/-- A PDU within its ranges is read as it was written. -/
theorem decodePdu_encodePdu {pdu : Pdu} {octets : Octets} (hrange : pduInRange pdu = true)
    (hencode : encodePdu pdu = .ok octets) : decodePdu octets = .ok pdu := by
  obtain ⟨requestID, hrequest, hencode⟩ := exists_of_bind_eq_ok hencode
  obtain ⟨errorStatus, hstatus, hencode⟩ := exists_of_bind_eq_ok hencode
  obtain ⟨errorIndex, hindex, hencode⟩ := exists_of_bind_eq_ok hencode
  obtain ⟨bindings, hbindings, hencode⟩ := exists_of_bind_eq_ok hencode
  obtain ⟨varBinds, hvarBinds, hencode⟩ := exists_of_bind_eq_ok hencode
  split at hencode
  · cases hencode
  · next tag htag =>
    have hdecode := Ber.decode_encode (exists_of_encodeValue hencode) []
    have hlast := decodeValue_encodeValue hvarBinds []
    rw [List.append_nil] at hdecode hlast
    have hread := decodeVarBinds_encode hbindings (length_le_of_encodeVarBinds hbindings)
    unfold decodePdu
    simp only [hdecode, pduTypeOf_tagOf htag, List.append_assoc,
      decodeInteger_encodeInteger hrequest, ok_bind, decodeInteger_encodeInteger hstatus,
      decodeInteger_encodeInteger hindex, hlast, hread]
    exact if_pos hrange

/-- The codec of the basic encoding rules. -/
def berPdus : PduCodec where
  encode := fun pdu ↦ (encodePdu pdu).toOption.getD []
  decode := fun octets ↦ (decodePdu octets).toOption.getD
    { pduType := .getRequest, requestID := 0, varBinds := [] }
  readable := fun pdu ↦ pduInRange pdu = true ∧ (encodePdu pdu).isOk = true
  decode_encode := fun pdu ⟨hrange, hok⟩ ↦ by
    cases hencode : encodePdu pdu with
    | error error =>
      rw [hencode] at hok
      cases hok
    | ok octets =>
      simp only [Except.toOption, Option.getD_some, decodePdu_encodePdu hrange hencode]

end Pysnmp.Proto.PduFormat
