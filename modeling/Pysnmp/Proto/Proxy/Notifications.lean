import Pysnmp.Proto.Proxy.Rfc2576

/-!
# Notifications between SNMPv1 and SNMPv2c

The notification branches of `v1ToV2` and `v2ToV1` in `proto/proxy/rfc2576.py`. The fields of a v1
trap become bindings of the v2c trap, and on the way back they are looked for among the bindings,
whose types are whatever the sender chose: a value of the wrong type is refused by the ASN.1
library, or by Python when it is subscripted or measured.

A translation to SNMPv2c adds a binding for the community, which the translation to SNMPv1 does not
take away again: `v2ToV1Trap_of_v1ToV2Trap` is what comes back, and `not_survives` that it is never
the trap that was sent.
-/

set_option autoImplicit false
set_option relaxedAutoImplicit false

namespace Pysnmp.Proto.Proxy.Notifications

open Rfc2576

/-- An SNMPv1 Trap PDU. -/
structure TrapPdu where
  enterprise : Oid
  agentAddr : Octets
  genericTrap : ℤ
  specificTrap : ℤ
  timeStamp : ℕ
  varBinds : List VarBind
  deriving DecidableEq, Repr

/-! ### The objects of SNMPv2c traps -/

/-- `apiTrapPDU.sysUpTime`. -/
def sysUpTime : Oid := [1, 3, 6, 1, 2, 1, 1, 3, 0]

/-- `apiTrapPDU.snmpTrapAddress`. -/
def snmpTrapAddress : Oid := [1, 3, 6, 1, 6, 3, 18, 1, 3, 0]

/-- `apiTrapPDU.snmpTrapCommunity`. -/
def snmpTrapCommunity : Oid := [1, 3, 6, 1, 6, 3, 18, 1, 4, 0]

/-- `apiTrapPDU.snmpTrapOID`. -/
def snmpTrapOID : Oid := [1, 3, 6, 1, 6, 3, 1, 1, 4, 1, 0]

/-- `apiTrapPDU.snmpTrapEnterprise`. -/
def snmpTrapEnterprise : Oid := [1, 3, 6, 1, 6, 3, 1, 1, 4, 3, 0]

/-- The enterprise of a standard trap that names none. -/
def snmpTraps : Oid := [1, 3, 6, 1, 6, 3, 1, 1, 5]

/-- `__v1ToV2TrapMap`. -/
def v1ToV2TrapMap : List (ℤ × Oid) :=
  [(0, [1, 3, 6, 1, 6, 3, 1, 1, 5, 1]), (1, [1, 3, 6, 1, 6, 3, 1, 1, 5, 2]),
    (2, [1, 3, 6, 1, 6, 3, 1, 1, 5, 3]), (3, [1, 3, 6, 1, 6, 3, 1, 1, 5, 4]),
    (4, [1, 3, 6, 1, 6, 3, 1, 1, 5, 5]), (5, [1, 3, 6, 1, 6, 3, 1, 1, 5, 6])]

/-- `__v2ToV1TrapMap`. -/
def v2ToV1TrapMap : List (Oid × ℤ) :=
  [([1, 3, 6, 1, 6, 3, 1, 1, 5, 1], 0), ([1, 3, 6, 1, 6, 3, 1, 1, 5, 2], 1),
    ([1, 3, 6, 1, 6, 3, 1, 1, 5, 3], 2), ([1, 3, 6, 1, 6, 3, 1, 1, 5, 4], 3),
    ([1, 3, 6, 1, 6, 3, 1, 1, 5, 5], 4), ([1, 3, 6, 1, 6, 3, 1, 1, 5, 6], 5)]

/-! ### To SNMPv2c -/

/-- 3.1.2 and 3.1.3: the trap as an object identifier, which has no negative arcs. -/
def snmpTrapOIDParam (v1Pdu : TrapPdu) : Except Raised Oid :=
  if v1Pdu.genericTrap = 6 then
    if 0 ≤ v1Pdu.specificTrap then
      .ok (v1Pdu.enterprise ++ [0, v1Pdu.specificTrap.toNat])
    else
      .error .pyAsn1Error
  else
    match v1ToV2TrapMap.lookup v1Pdu.genericTrap with
    | some param => .ok param
    | none => .error .keyError

/-- 3.1.4: the fields of a trap as bindings. -/
def fieldVarBinds (v1Pdu : TrapPdu) (param : Oid) (communityVal : BindingValue) : List VarBind :=
  [(sysUpTime, .timeTicks v1Pdu.timeStamp), (snmpTrapOID, .objectIdentifier param),
    (snmpTrapAddress, .ipAddress v1Pdu.agentAddr), (snmpTrapCommunity, communityVal),
    (snmpTrapEnterprise, .objectIdentifier v1Pdu.enterprise)]

/-- `v1ToV2` of a trap. The PDU takes a new request identifier. -/
def v1ToV2Trap (requestID : ℤ) (community : Octets) (v1Pdu : TrapPdu) : Except Raised Pdu := do
  let param ← snmpTrapOIDParam v1Pdu
  let communityVal ← v1ToV2Value (.octetString community)
  let varBinds ← translateVarBinds v1ToV2Value v1Pdu.varBinds
  .ok { pduType := .snmpV2Trap
        requestID := requestID
        varBinds := fieldVarBinds v1Pdu param communityVal ++ varBinds }

/-! ### To SNMPv1 -/

/-- 3.2.1, 3.2.3 and 3.2.4: the enterprise, generic trap and specific trap. What is no object
identifier is in no map: octets can be sliced but are no enterprise (and a slice of an address is no
address), NULL and the exception values are octets too, none, and numbers cannot be subscripted. -/
def trapFields (v2VarBinds : List VarBind) : BindingValue → Except Raised (Oid × ℤ × ℤ)
  | .objectIdentifier param =>
    match v2ToV1TrapMap.lookup param with
    | some genericTrap =>
      match v2VarBinds.lookup snmpTrapEnterprise with
      | none => .ok (snmpTraps, genericTrap, 0)
      | some (.objectIdentifier enterprise) => .ok (enterprise, genericTrap, 0)
      | some _ => .error .pyAsn1Error
    | none =>
      match param.reverse with
      | specificTrap :: 0 :: enterprise => .ok (enterprise.reverse, 6, specificTrap)
      | specificTrap :: arc :: enterprise =>
        .ok ((arc :: enterprise).reverse, 6, specificTrap)
      | _ => .error .otherError
  | .octetString octets => .error (if octets.length < 2 then .otherError else .pyAsn1Error)
  | .arbitrary octets => .error (if octets.length < 2 then .otherError else .pyAsn1Error)
  | .ipAddress _ => .error .protocolError
  | .null | .noSuchObject | .noSuchInstance | .endOfMibView => .error .otherError
  | _ => .error .typeError

/-- `rfc1155.IpAddress` of a value: of octets, or of the text of an object identifier. NULL and the
exception values are octets too, none; what has no length cannot be measured. -/
def agentAddress : BindingValue → Except Raised Octets
  | .ipAddress octets | .octetString octets | .arbitrary octets =>
    if octets.length = 4 then .ok octets else .error .protocolError
  | .objectIdentifier oid =>
    if oid.length = 4 then
      if ∀ arc ∈ oid, arc < 256 then .ok (oid.map UInt8.ofNat) else .error .otherError
    else
      .error .protocolError
  | .null | .noSuchObject | .noSuchInstance | .endOfMibView => .error .protocolError
  | _ => .error .typeError

/-- 3.2.2: the agent address, unspecified when the trap carries none. -/
def agentAddrOf (v2VarBinds : List VarBind) : Except Raised Octets :=
  match v2VarBinds.lookup snmpTrapAddress with
  | none => .ok [0, 0, 0, 0]
  | some val => agentAddress val

/-- 3.2.5: the time stamp, whatever object it is the value of. -/
def timeStampOf : BindingValue → Except Raised ℕ
  | .timeTicks timeStamp => .ok timeStamp
  | _ => .error .pyAsn1Error

/-- The bindings that are fields of a v1 trap. -/
def isField (oid : Oid) : Bool :=
  (v2ToV1TrapMap.lookup oid).isSome || oid == sysUpTime || oid == snmpTrapAddress ||
    oid == snmpTrapEnterprise

/-- `v2ToV1` of a trap. -/
def v2ToV1Trap (v2Pdu : Pdu) : Except Raised TrapPdu :=
  match v2Pdu.varBinds with
  | (_, uptime) :: (oid, param) :: rest =>
    if oid ≠ snmpTrapOID then
      .error .protocolError
    else do
      let (enterprise, genericTrap, specificTrap) ← trapFields v2Pdu.varBinds param
      let agentAddr ← agentAddrOf v2Pdu.varBinds
      let timeStamp ← timeStampOf uptime
      let varBinds ← translateVarBinds v2ToV1Value (rest.filter fun varBind ↦ !isField varBind.1)
      .ok { enterprise, agentAddr, genericTrap, specificTrap, timeStamp, varBinds }
  | _ => .error .protocolError

/-! ### There and back -/

section RoundTrip

variable {requestID : ℤ} {community : Octets} {v1Pdu : TrapPdu} {v2Pdu : Pdu}

/-- What a translated trap consists of. -/
theorem v1ToV2Trap_eq_ok_iff :
    v1ToV2Trap requestID community v1Pdu = .ok v2Pdu ↔
      community.length ≤ 65535 ∧
        (∀ varBind ∈ v1Pdu.varBinds, v1ToV2Value varBind.2 = .ok varBind.2) ∧
        ∃ param, snmpTrapOIDParam v1Pdu = .ok param ∧
          v2Pdu = { pduType := .snmpV2Trap
                    requestID := requestID
                    varBinds := fieldVarBinds v1Pdu param (.octetString community) ++
                      v1Pdu.varBinds } := by
  rw [v1ToV2Trap]
  cases snmpTrapOIDParam v1Pdu with
  | error exception => simp [bind, Except.bind]
  | ok param =>
    simp only [bind, Except.bind, v1ToV2Value]
    split_ifs with hlength
    · cases hbinds : translateVarBinds v1ToV2Value v1Pdu.varBinds with
      | error exception =>
        simp only [reduceCtorEq, false_iff]
        rintro ⟨-, hall, -⟩
        rw [(translateVarBinds_eq_ok_iff fun _ _ ↦ eq_of_v1ToV2Value).mpr ⟨rfl, hall⟩] at hbinds
        cases hbinds
      | ok varBinds =>
        obtain ⟨rfl, hall⟩ :=
          (translateVarBinds_eq_ok_iff fun _ _ ↦ eq_of_v1ToV2Value).mp hbinds
        constructor
        · intro heq
          exact ⟨hlength, hall, param, rfl, (Except.ok.inj heq).symm⟩
        · rintro ⟨-, -, other, hother, rfl⟩
          rw [Except.ok.inj hother]
    · simp [hlength]

/-- No trap of an enterprise is one of the standard ones: the arc before its number is zero. -/
theorem v2ToV1TrapMap_lookup_append_zero (enterprise : Oid) (specificTrap : ℕ) :
    v2ToV1TrapMap.lookup (enterprise ++ [0, specificTrap]) = none := by
  refine List.lookup_eq_none_iff.mpr fun entry hentry ↦ ?_
  have hlast : entry.1.dropLast.getLast? = some 5 := by
    fin_cases hentry <;> rfl
  simp only [bne_iff_ne, ne_eq]
  intro heq
  rw [← heq] at hlast
  simp at hlast

/-- The two maps of standard traps are inverse to each other. -/
theorem v2ToV1TrapMap_lookup_of_v1ToV2TrapMap {genericTrap : ℤ} {param : Oid}
    (hlookup : v1ToV2TrapMap.lookup genericTrap = some param) :
    v2ToV1TrapMap.lookup param = some genericTrap := by
  have hall : ∀ entry ∈ v1ToV2TrapMap, v2ToV1TrapMap.lookup entry.2 = some entry.1 := by decide
  obtain ⟨before, after, hmap, -⟩ := List.lookup_eq_some_iff.mp hlookup
  exact hall (genericTrap, param) (hmap ▸ List.mem_append_right _ List.mem_cons_self)

/-- The fields of a trap are found again in the bindings it is translated to. -/
theorem trapFields_of_snmpTrapOIDParam {param : Oid} {v2VarBinds : List VarBind}
    (hparam : snmpTrapOIDParam v1Pdu = .ok param)
    (hnumbers : v1Pdu.genericTrap = 6 ∨ v1Pdu.specificTrap = 0)
    (henterprise : v2VarBinds.lookup snmpTrapEnterprise =
      some (.objectIdentifier v1Pdu.enterprise)) :
    trapFields v2VarBinds (.objectIdentifier param) =
      .ok (v1Pdu.enterprise, v1Pdu.genericTrap, v1Pdu.specificTrap) := by
  rw [snmpTrapOIDParam] at hparam
  split_ifs at hparam with hgeneric hspecific
  · obtain rfl := Except.ok.inj hparam
    rw [trapFields, v2ToV1TrapMap_lookup_append_zero, hgeneric]
    simp [Int.toNat_of_nonneg hspecific]
  · have hspecific : v1Pdu.specificTrap = 0 := hnumbers.resolve_left hgeneric
    cases hlookup : v1ToV2TrapMap.lookup v1Pdu.genericTrap with
    | none =>
      rw [hlookup] at hparam
      cases hparam
    | some found =>
      rw [hlookup] at hparam
      obtain rfl := Except.ok.inj hparam
      rw [trapFields, v2ToV1TrapMap_lookup_of_v1ToV2TrapMap hlookup, henterprise, hspecific]

/-- What comes back of a trap: its fields, and its bindings (without those named after a field of a
trap) behind a binding for the community. -/
theorem v2ToV1Trap_of_v1ToV2Trap (htranslated : v1ToV2Trap requestID community v1Pdu = .ok v2Pdu)
    (hnumbers : v1Pdu.genericTrap = 6 ∨ v1Pdu.specificTrap = 0)
    (hagentAddr : v1Pdu.agentAddr.length = 4) :
    v2ToV1Trap v2Pdu =
      .ok { v1Pdu with
            varBinds := (snmpTrapCommunity, .octetString community) ::
              v1Pdu.varBinds.filter fun varBind ↦ !isField varBind.1 } := by
  obtain ⟨-, hvalues, param, hparam, rfl⟩ := v1ToV2Trap_eq_ok_iff.mp htranslated
  have hfields : trapFields (fieldVarBinds v1Pdu param (.octetString community) ++ v1Pdu.varBinds)
      (.objectIdentifier param) = .ok (v1Pdu.enterprise, v1Pdu.genericTrap, v1Pdu.specificTrap) :=
    trapFields_of_snmpTrapOIDParam hparam hnumbers rfl
  have hagent : agentAddrOf (fieldVarBinds v1Pdu param (.octetString community) ++
      v1Pdu.varBinds) = .ok v1Pdu.agentAddr := if_pos hagentAddr
  have hbinds : translateVarBinds v2ToV1Value ((snmpTrapCommunity, .octetString community) ::
      v1Pdu.varBinds.filter fun varBind ↦ !isField varBind.1) = .ok _ :=
    (translateVarBinds_eq_ok_iff fun _ _ ↦ eq_of_v2ToV1Value).mpr ⟨rfl, fun varBind hmem ↦ by
      rcases List.mem_cons.mp hmem with rfl | hlater
      · rfl
      · exact v2ToV1Value_of_v1ToV2Value (hvalues varBind (List.mem_of_mem_filter hlater))⟩
  rw [v2ToV1Trap]
  change (do
    let (enterprise, genericTrap, specificTrap) ← trapFields _ (.objectIdentifier param)
    let agentAddr ← agentAddrOf _
    let timeStamp ← timeStampOf (.timeTicks v1Pdu.timeStamp)
    let varBinds ← translateVarBinds v2ToV1Value ((snmpTrapCommunity, .octetString community) ::
      v1Pdu.varBinds.filter fun varBind ↦ !isField varBind.1)
    Except.ok (TrapPdu.mk enterprise agentAddr genericTrap specificTrap timeStamp varBinds)) = _
  rw [hfields, hagent, hbinds]
  rfl

end RoundTrip

/-- A trap survives the trip when it comes back as it was sent. -/
def Survives (requestID : ℤ) (community : Octets) (v1Pdu : TrapPdu) : Prop :=
  ∃ v2Pdu, v1ToV2Trap requestID community v1Pdu = .ok v2Pdu ∧ v2ToV1Trap v2Pdu = .ok v1Pdu

/-- A trap whose bindings are not named after the objects the translation uses itself, with a
standard trap, or the specific trap of an enterprise. -/
structure IsPlain (v1Pdu : TrapPdu) : Prop where
  names : ∀ varBind ∈ v1Pdu.varBinds,
    varBind.1 ∉ [sysUpTime, snmpTrapAddress, snmpTrapEnterprise, snmpTrapCommunity]
  numbers : 0 ≤ v1Pdu.genericTrap ∧ v1Pdu.genericTrap ≤ 5 ∧ v1Pdu.specificTrap = 0 ∨
    v1Pdu.genericTrap = 6
  agentAddr : v1Pdu.agentAddr.length = 4

/-- No trap survives the trip: the community comes back as a binding of its own. -/
theorem not_survives (requestID : ℤ) (community : Octets) (v1Pdu : TrapPdu)
    (hplain : IsPlain v1Pdu) : ¬ Survives requestID community v1Pdu := by
  rintro ⟨v2Pdu, htranslated, hback⟩
  have hnumbers : v1Pdu.genericTrap = 6 ∨ v1Pdu.specificTrap = 0 :=
    hplain.numbers.symm.imp_right fun hstandard ↦ hstandard.2.2
  rw [v2ToV1Trap_of_v1ToV2Trap htranslated hnumbers hplain.agentAddr] at hback
  have hbinds := congrArg TrapPdu.varBinds (Except.ok.inj hback)
  have hmem : (snmpTrapCommunity, .octetString community) ∈ v1Pdu.varBinds :=
    hbinds ▸ List.mem_cons_self
  exact hplain.names _ hmem (show snmpTrapCommunity ∈ [_, _, _, _] by decide)

/-- A cold start of an agent, with one binding. -/
def coldStart : TrapPdu where
  enterprise := [1, 3, 6, 1, 4, 1, 9]
  agentAddr := [192, 0, 2, 1]
  genericTrap := 0
  specificTrap := 0
  timeStamp := 5
  varBinds := [([1, 3, 6, 1, 2, 1, 1, 1, 0], .integer 7)]

theorem not_survives_coldStart : ¬ Survives 1 [] coldStart :=
  not_survives 1 [] coldStart ⟨by decide, by decide, rfl⟩

/-- The cold start comes back with the binding of an empty community in front of its own. -/
theorem v1ToV2Trap_coldStart :
    (v1ToV2Trap 1 [] coldStart >>= v2ToV1Trap) =
        .ok { coldStart with
              varBinds := [(snmpTrapCommunity, .octetString []),
                ([1, 3, 6, 1, 2, 1, 1, 1, 0], .integer 7)] } ∧
      IsPlain coldStart ∧ ¬ Survives 1 [] coldStart := by
  have hback : (v1ToV2Trap 1 [] coldStart >>= v2ToV1Trap) =
      .ok { coldStart with
            varBinds := [(snmpTrapCommunity, .octetString []),
              ([1, 3, 6, 1, 2, 1, 1, 1, 0], .integer 7)] } := rfl
  refine ⟨hback, ⟨by decide, by decide, rfl⟩, ?_⟩
  rintro ⟨v2Pdu, htranslated, hsame⟩
  rw [htranslated] at hback
  have heq := congrArg TrapPdu.varBinds (Except.ok.inj (hsame.symm.trans hback))
  exact absurd heq (by decide)

end Pysnmp.Proto.Proxy.Notifications
