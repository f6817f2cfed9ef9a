import Pysnmp.Proto.Proxy.Notifications

/-!
# Failing cleanly on the way to SNMPv1

`v2ToV1` of `proto/proxy/rfc2576.py` over all PDU types. What SNMPv1 cannot express is meant to end
in a `ProtocolError`, or for a GETNEXT in the `StatusInformation` that has it reissued. In a
response it does: every value is looked at before any is translated. In a request and in a
notification the values go to the map as they are, and the bindings of a notification are taken for
fields of their types.
-/

set_option autoImplicit false
set_option relaxedAutoImplicit false

namespace Pysnmp.Proto.Proxy.CleanFailure

open Rfc2576 Notifications

/-- A PDU of SNMPv1. -/
inductive V1Pdu
  | pdu (pdu : Pdu)
  | trap (pdu : TrapPdu)

/-- `v2ToV1`, with the request that a response answers. -/
def v2ToV1 (v2Pdu origV1Pdu : Pdu) : Except Raised V1Pdu :=
  match v2Pdu.pduType with
  | .snmpV2Trap => (v2ToV1Trap v2Pdu).map .trap
  | .response => (v2ToV1Response v2Pdu origV1Pdu).map .pdu
  | _ => (v2ToV1Request v2Pdu).map .pdu

/-- The exception is a `ProtocolError` or a `StatusInformation`. -/
def isClean : Raised → Bool
  | .protocolError | .statusInformation _ => true
  | _ => false

/-- An error status comes with an error index within the bindings, and these are the request's. -/
def EchoesRequest (origV1Pdu : Pdu) : V1Pdu → Prop
  | .trap _ => True
  | .pdu v1Pdu => v1Pdu.errorStatus ≠ 0 →
      0 ≤ v1Pdu.errorIndex ∧ v1Pdu.errorIndex ≤ v1Pdu.varBinds.length ∧
        v1Pdu.varBinds = origV1Pdu.varBinds

/-- What a program gives is as wanted, or it raises one of the two exceptions. -/
def Clean {α : Type} (wanted : α → Prop) : Except Raised α → Prop
  | .ok value => wanted value
  | .error exception => isClean exception

/-- The translation gives a PDU that echoes the request on errors, or it raises one of the two
exceptions. -/
def FailsCleanly (v2Pdu origV1Pdu : Pdu) : Prop :=
  Clean (EchoesRequest origV1Pdu) (v2ToV1 v2Pdu origV1Pdu)

/-! ### What decides it -/

/-- SNMPv1 has the type of the value. -/
def isExpressible : BindingValue → Bool
  | .counter64 _ | .noSuchObject | .noSuchInstance | .endOfMibView => false
  | _ => true

/-- The value is a `Counter64`. -/
def isCounter64 : BindingValue → Bool
  | .counter64 _ => true
  | _ => false

/-- The position, from one, of the binding an error without an error status is blamed on: the last
`Counter64`, or else the first exception value; zero if there is neither. -/
def blamed (varBinds : List VarBind) : ℕ :=
  match varBinds.zipIdx.reverse.find? fun entry ↦ isCounter64 entry.1.2 with
  | some entry => entry.2 + 1
  | none =>
    match varBinds.zipIdx.find? fun entry ↦ entry.1.2.isException with
    | some entry => entry.2 + 1
    | none => 0

/-- The position a response puts its error at. -/
def errorPosition (v2Pdu : Pdu) : ℤ :=
  if v2Pdu.errorStatus = 0 then blamed v2Pdu.varBinds else mutedErrorIndex v2Pdu

/-- The error of a response is at one of the request's bindings, or the response has a `Counter64`
that no `noSuchName` stands for. -/
def IsWithinRequest (v2Pdu origV1Pdu : Pdu) : Prop :=
  (origV1Pdu.pduType ≠ .getRequest ∧ ∃ varBind ∈ v2Pdu.varBinds, isCounter64 varBind.2) ∨
    errorPosition v2Pdu ≤ origV1Pdu.varBinds.length

/-- The value of `snmpTrapOID` names a trap: a standard one, whose enterprise is an object
identifier if it is given, or else one with at least two arcs. -/
def namesTrap (v2VarBinds : List VarBind) : BindingValue → Bool
  | .objectIdentifier param =>
    if (v2ToV1TrapMap.lookup param).isSome then
      match v2VarBinds.lookup snmpTrapEnterprise with
      | none | some (.objectIdentifier _) => true
      | some _ => false
    else
      2 ≤ param.length
  | _ => false

/-- The length of a value that has one. -/
def lengthOf : BindingValue → Option ℕ
  | .ipAddress octets | .octetString octets | .arbitrary octets => some octets.length
  | .objectIdentifier oid => some oid.length
  | .null | .noSuchObject | .noSuchInstance | .endOfMibView => some 0
  | _ => none

/-- The value can be an agent address: four octets, or four arcs that are octets. -/
def isAddress : BindingValue → Bool
  | .objectIdentifier oid => oid.length = 4 ∧ ∀ arc ∈ oid, arc < 256
  | value => lengthOf value = some 4

/-- The address a trap carries, if any, can be one. -/
def hasAddress (v2VarBinds : List VarBind) : Bool :=
  (v2VarBinds.lookup snmpTrapAddress).all isAddress

/-- The address a trap carries is not as long as one. -/
def hasOtherLength (v2VarBinds : List VarBind) : Bool :=
  ((v2VarBinds.lookup snmpTrapAddress).bind lengthOf).any (· != 4)

/-- The value is of the type of an uptime. -/
def isTimeTicks : BindingValue → Bool
  | .timeTicks _ => true
  | _ => false

/-- The value is of the type of an address. -/
def isIpAddress : BindingValue → Bool
  | .ipAddress _ => true
  | _ => false

/-- A trap that is translated, or whose first defect is one the translation looks for: it is too
short, its second binding is not `snmpTrapOID`, or the value of that or of `snmpTrapAddress` has
the wrong length for an address. -/
def IsCleanTrap : List VarBind → Prop
  | (name, uptime) :: (oid, param) :: rest =>
    oid ≠ snmpTrapOID ∨ isIpAddress param ∨
      namesTrap ((name, uptime) :: (oid, param) :: rest) param ∧
        (hasOtherLength ((name, uptime) :: (oid, param) :: rest) ∨
          hasAddress ((name, uptime) :: (oid, param) :: rest) ∧ isTimeTicks uptime ∧
            ∀ varBind ∈ rest, isField varBind.1 ∨ isExpressible varBind.2)
  | _ => True

/-- The PDUs that are translated or refused as promised. -/
def IsTranslatable (v2Pdu origV1Pdu : Pdu) : Prop :=
  match v2Pdu.pduType with
  | .getRequest | .getNextRequest | .setRequest | .getBulkRequest =>
    ∀ varBind ∈ v2Pdu.varBinds, isExpressible varBind.2
  | .response => IsWithinRequest v2Pdu origV1Pdu
  | .snmpV2Trap => IsCleanTrap v2Pdu.varBinds
  | _ => True

/-! ### The values -/

theorem v2ToV1Value_eq (val : BindingValue) :
    v2ToV1Value val = if isExpressible val then .ok val else .error .keyError := by
  cases val <;> rfl

/-- Bindings are translated when SNMPv1 has the types of all their values, and a `KeyError`
otherwise. -/
theorem translateVarBinds_v2ToV1Value (varBinds : List VarBind) :
    translateVarBinds v2ToV1Value varBinds =
      if ∀ varBind ∈ varBinds, isExpressible varBind.2 then .ok varBinds
      else .error .keyError := by
  have hiff := @translateVarBinds_eq_ok_iff v2ToV1Value varBinds varBinds
    fun _ _ ↦ eq_of_v2ToV1Value
  split_ifs with hall
  · exact hiff.mpr ⟨rfl, fun varBind hmem ↦ by rw [v2ToV1Value_eq, if_pos (hall varBind hmem)]⟩
  · cases hbinds : translateVarBinds v2ToV1Value varBinds with
    | ok translated =>
      obtain ⟨rfl, hvalues⟩ :=
        (translateVarBinds_eq_ok_iff fun _ _ ↦ eq_of_v2ToV1Value).mp hbinds
      refine absurd (fun varBind hmem ↦ ?_) hall
      have hvalue := hvalues varBind hmem
      rw [v2ToV1Value_eq] at hvalue
      split_ifs at hvalue with hexpressible
      exact hexpressible
    | error exception =>
      obtain ⟨varBind, -, hvalue⟩ := exists_of_translateVarBinds_eq_error hbinds
      rw [v2ToV1Value_eq] at hvalue
      split_ifs at hvalue
      rw [Except.error.inj hvalue]

/-! ### Requests -/

theorem clean_v2ToV1Request_iff (v2Pdu origV1Pdu : Pdu) :
    Clean (EchoesRequest origV1Pdu) ((v2ToV1Request v2Pdu).map V1Pdu.pdu) ↔
      v2ToV1PduMap v2Pdu.pduType = none ∨ ∀ varBind ∈ v2Pdu.varBinds, isExpressible varBind.2 := by
  rw [v2ToV1Request]
  cases v2ToV1PduMap v2Pdu.pduType with
  | none => simp [Except.map, Clean, isClean]
  | some pduType =>
    rw [translateVarBinds_v2ToV1Value]
    split_ifs with hall
    · simpa [bind, Except.bind, Except.map, Clean, EchoesRequest] using hall
    · simpa [bind, Except.bind, Except.map, Clean, isClean] using hall

/-! ### Responses -/

theorem inexpressibleValues_cons {origV1Type : PduType} {entry : VarBind × ℕ}
    (hother : isCounter64 entry.1.2 = false) (rest : List (VarBind × ℕ)) (found : ℤ × ℤ) :
    inexpressibleValues origV1Type (entry :: rest) found =
      inexpressibleValues origV1Type rest
        (if entry.1.2.isException then (2, entry.2 + 1) else found) := by
  obtain ⟨⟨oid, value⟩, idx⟩ := entry
  cases value <;> first
    | rfl
    | cases hother

/-- The scan of a response from its last binding: the first `Counter64` it comes to decides, and
without one the exception value it comes to last. -/
theorem inexpressibleValues_eq (origV1Type : PduType) (entries : List (VarBind × ℕ))
    (found : ℤ × ℤ) :
    inexpressibleValues origV1Type entries found =
      match entries.find? fun entry ↦ isCounter64 entry.1.2 with
      | some entry =>
        match origV1Type with
        | .getRequest => .ok (2, entry.2 + 1)
        | .getNextRequest => .error (.statusInformation { idx := some entry.2 })
        | _ => .error .protocolError
      | none =>
        match entries.reverse.find? fun entry ↦ entry.1.2.isException with
        | some entry => .ok (2, entry.2 + 1)
        | none => .ok found := by
  induction entries generalizing found with
  | nil => rfl
  | cons entry rest ih =>
    cases hcounter : isCounter64 entry.1.2 with
    | true =>
      obtain ⟨⟨oid, value⟩, idx⟩ := entry
      cases value with
      | counter64 value => rfl
      | _ => cases hcounter
    | false =>
      rw [inexpressibleValues_cons hcounter, ih, List.find?_cons_of_neg (by simp [hcounter]),
        List.reverse_cons, List.find?_append]
      cases rest.find? fun entry ↦ isCounter64 entry.1.2 with
      | some other => rfl
      | none =>
        cases rest.reverse.find? fun entry ↦ entry.1.2.isException with
        | some other => rfl
        | none => cases hexception : entry.1.2.isException <;> simp [hexception]

/-- The scan of a response gives the position that is blamed. -/
theorem inexpressibleValues_zipIdx (origV1Type : PduType) (varBinds : List VarBind)
    (hcounter : origV1Type = .getRequest ∨ ∀ varBind ∈ varBinds, isCounter64 varBind.2 = false) :
    inexpressibleValues origV1Type varBinds.zipIdx.reverse (0, 0) =
      .ok (if blamed varBinds = 0 then 0 else 2, blamed varBinds) := by
  rw [inexpressibleValues_eq, blamed, List.reverse_reverse]
  cases hfind : varBinds.zipIdx.reverse.find? fun entry ↦ isCounter64 entry.1.2 with
  | some entry =>
    have hgetRequest : origV1Type = .getRequest := by
      refine hcounter.resolve_right fun hnone ↦ ?_
      have hmem := List.mem_reverse.mp (List.mem_of_find?_eq_some hfind)
      have hfound := List.find?_some hfind
      rw [hnone entry.1 (List.fst_mem_of_mem_zipIdx hmem)] at hfound
      cases hfound
    simp [hgetRequest]
  | none =>
    cases varBinds.zipIdx.find? fun entry ↦ entry.1.2.isException with
    | some entry => simp
    | none => rfl

/-- SNMPv1 has the type of every value that is neither a `Counter64` nor an exception. -/
theorem isExpressible_of_ordinary {value : BindingValue} (hcounter : ¬ isCounter64 value = true)
    (hexception : ¬ value.isException = true) : isExpressible value = true := by
  cases value with
  | counter64 _ => exact absurd rfl hcounter
  | noSuchObject | noSuchInstance | endOfMibView => exact absurd rfl hexception
  | _ => rfl

/-- Where nothing is blamed, SNMPv1 has the types of all values. -/
theorem isExpressible_of_blamed {varBinds : List VarBind} (hblamed : blamed varBinds = 0)
    {varBind : VarBind} (hmem : varBind ∈ varBinds) : isExpressible varBind.2 = true := by
  obtain ⟨idx, hidx⟩ := List.mem_iff_getElem?.mp hmem
  have hentry : (varBind, idx) ∈ varBinds.zipIdx := List.mk_mem_zipIdx_iff_getElem?.mpr hidx
  rw [blamed] at hblamed
  cases hcounter : varBinds.zipIdx.reverse.find? fun entry ↦ isCounter64 entry.1.2 with
  | some entry => simp [hcounter] at hblamed
  | none =>
    cases hexception : varBinds.zipIdx.find? fun entry ↦ entry.1.2.isException with
    | some entry => simp [hcounter, hexception] at hblamed
    | none =>
      have hnoCounter := List.find?_eq_none.mp hcounter _ (List.mem_reverse.mpr hentry)
      have hnoException := List.find?_eq_none.mp hexception _ hentry
      exact isExpressible_of_ordinary hnoCounter hnoException

theorem v2ToV1ErrorMap_ne_zero {errorStatus : ℤ} (hstatus : errorStatus ≠ 0) :
    v2ToV1ErrorMap errorStatus ≠ 0 := by
  unfold v2ToV1ErrorMap
  split <;> simp_all

theorem mutedErrorIndex_nonneg {pdu : Pdu} (hindex : 0 ≤ pdu.errorIndex) :
    0 ≤ mutedErrorIndex pdu := by
  rw [mutedErrorIndex]
  split_ifs
  · exact Int.natCast_nonneg _
  · exact hindex

/-- A `Counter64` that no `noSuchName` stands for is refused cleanly. -/
theorem clean_of_counter64 {wanted : V1Pdu → Prop} {v2Pdu origV1Pdu : Pdu} {varBind : VarBind}
    (horig : origV1Pdu.pduType ≠ .getRequest) (hmem : varBind ∈ v2Pdu.varBinds)
    (hcounter : isCounter64 varBind.2 = true) :
    Clean wanted ((v2ToV1Response v2Pdu origV1Pdu).map V1Pdu.pdu) := by
  rw [v2ToV1Response, inexpressibleValues_eq]
  cases hfind : v2Pdu.varBinds.zipIdx.reverse.find? fun entry ↦ isCounter64 entry.1.2 with
  | none =>
    obtain ⟨idx, hidx⟩ := List.mem_iff_getElem?.mp hmem
    have hentry : (varBind, idx) ∈ v2Pdu.varBinds.zipIdx :=
      List.mk_mem_zipIdx_iff_getElem?.mpr hidx
    exact absurd hcounter (List.find?_eq_none.mp hfind _ (List.mem_reverse.mpr hentry))
  | some entry =>
    cases hcase : origV1Pdu.pduType with
    | getRequest => exact absurd hcase horig
    | _ => rfl

theorem clean_v2ToV1Response_iff (v2Pdu origV1Pdu : Pdu) (hindex : 0 ≤ v2Pdu.errorIndex) :
    Clean (EchoesRequest origV1Pdu) ((v2ToV1Response v2Pdu origV1Pdu).map V1Pdu.pdu) ↔
      IsWithinRequest v2Pdu origV1Pdu := by
  rw [IsWithinRequest]
  by_cases hreissued : origV1Pdu.pduType ≠ .getRequest ∧
      ∃ varBind ∈ v2Pdu.varBinds, isCounter64 varBind.2
  · obtain ⟨horig, varBind, hmem, hcounter⟩ := hreissued
    exact iff_of_true (clean_of_counter64 horig hmem hcounter)
      (Or.inl ⟨horig, varBind, hmem, hcounter⟩)
  · have hcounter : origV1Pdu.pduType = .getRequest ∨
        ∀ varBind ∈ v2Pdu.varBinds, isCounter64 varBind.2 = false := by
      rw [or_iff_not_imp_left]
      intro hother varBind hmem
      by_contra hcounter
      exact hreissued ⟨hother, varBind, hmem, by simpa using hcounter⟩
    rw [or_iff_right hreissued, v2ToV1Response, inexpressibleValues_zipIdx _ _ hcounter,
      errorPosition]
    simp only [bind, Except.bind, v1Error]
    by_cases hstatus : v2Pdu.errorStatus = 0
    · simp only [hstatus, if_true]
      by_cases hblamed : blamed v2Pdu.varBinds = 0
      · have hbinds := translateVarBinds_v2ToV1Value v2Pdu.varBinds
        rw [if_pos fun varBind hmem ↦ isExpressible_of_blamed hblamed hmem] at hbinds
        simp [hblamed, v1VarBinds, hbinds, Except.map, Clean, EchoesRequest]
      · simp [hblamed, v1VarBinds, Except.map, Clean, EchoesRequest]
    · have hmapped := v2ToV1ErrorMap_ne_zero hstatus
      have hmuted := mutedErrorIndex_nonneg hindex
      simp [hstatus, v1VarBinds, hmapped, hmuted, Except.map, Clean, EchoesRequest]

/-! ### Notifications -/

/-- The fields of a trap are read off a value that names one; an address is refused cleanly. -/
theorem trapFields_cases (v2VarBinds : List VarBind) (param : BindingValue) :
    (namesTrap v2VarBinds param = true ∧ ∃ fields, trapFields v2VarBinds param = .ok fields) ∨
      (namesTrap v2VarBinds param = false ∧
        ∃ exception, trapFields v2VarBinds param = .error exception ∧
          isClean exception = isIpAddress param) := by
  cases param with
  | objectIdentifier param =>
    rw [namesTrap, trapFields]
    cases v2ToV1TrapMap.lookup param with
    | some genericTrap =>
      cases v2VarBinds.lookup snmpTrapEnterprise with
      | none => simp
      | some val => cases val <;> simp [isClean, isIpAddress]
    | none =>
      rcases hreverse : param.reverse with _ | ⟨last, _ | ⟨arc, enterprise⟩⟩
      · have hlength := congrArg List.length hreverse
        simp_all [isClean, isIpAddress]
      · have hlength := congrArg List.length hreverse
        simp_all [isClean, isIpAddress]
      · have hlength := congrArg List.length hreverse
        left
        simp only [List.length_reverse, List.length_cons] at hlength
        refine ⟨by simp; omega, ?_⟩
        cases arc <;> exact ⟨_, rfl⟩
  | octetString octets | arbitrary octets =>
    refine Or.inr ⟨rfl, _, rfl, ?_⟩
    split_ifs <;> rfl
  | _ => exact Or.inr ⟨rfl, _, rfl, rfl⟩

/-- The agent address is read off a value that can be one; a value of another length is refused
cleanly. -/
theorem agentAddrOf_cases (v2VarBinds : List VarBind) :
    (hasAddress v2VarBinds = true ∧ hasOtherLength v2VarBinds = false ∧
        ∃ agentAddr, agentAddrOf v2VarBinds = .ok agentAddr) ∨
      (hasAddress v2VarBinds = false ∧
        ∃ exception, agentAddrOf v2VarBinds = .error exception ∧
          isClean exception = hasOtherLength v2VarBinds) := by
  rw [hasAddress, hasOtherLength, agentAddrOf]
  cases v2VarBinds.lookup snmpTrapAddress with
  | none => simp
  | some val =>
    cases val with
    | objectIdentifier oid =>
      simp only [agentAddress, Option.all_some, isAddress, Option.bind_some, lengthOf,
        Option.any_some]
      split_ifs <;> simp_all [isClean]
    | ipAddress octets | octetString octets | arbitrary octets =>
      simp only [agentAddress, Option.all_some, isAddress, Option.bind_some, lengthOf,
        Option.any_some]
      split_ifs <;> simp_all [isClean]
    | _ => exact Or.inr ⟨rfl, _, rfl, rfl⟩

/-- The time stamp is read off ticks; a value of another type is not refused cleanly. -/
theorem timeStampOf_cases (uptime : BindingValue) :
    (isTimeTicks uptime = true ∧ ∃ timeStamp, timeStampOf uptime = .ok timeStamp) ∨
      (isTimeTicks uptime = false ∧
        ∃ exception, timeStampOf uptime = .error exception ∧ isClean exception = false) := by
  cases uptime with
  | timeTicks timeStamp => exact Or.inl ⟨rfl, timeStamp, rfl⟩
  | _ => exact Or.inr ⟨rfl, _, rfl, rfl⟩

theorem clean_v2ToV1Trap_iff (v2Pdu origV1Pdu : Pdu) :
    Clean (EchoesRequest origV1Pdu) ((v2ToV1Trap v2Pdu).map V1Pdu.trap) ↔
      IsCleanTrap v2Pdu.varBinds := by
  rw [v2ToV1Trap]
  rcases hbinds : v2Pdu.varBinds with _ | ⟨⟨name, uptime⟩, _ | ⟨⟨oid, param⟩, rest⟩⟩
  · exact iff_of_true rfl trivial
  · exact iff_of_true rfl trivial
  simp only [IsCleanTrap]
  by_cases hoid : oid ≠ snmpTrapOID
  · rw [if_pos hoid]
    exact iff_of_true rfl (Or.inl hoid)
  rw [if_neg hoid, or_iff_right hoid]
  rcases trapFields_cases ((name, uptime) :: (oid, param) :: rest) param with
    ⟨hnames, fields, hfields⟩ | ⟨hnames, exception, hfields, hclean⟩
  · have haddress : isIpAddress param = false := by
      cases param <;> first
        | rfl
        | cases hnames
    rw [hfields, haddress, hnames]
    rcases agentAddrOf_cases ((name, uptime) :: (oid, param) :: rest) with
      ⟨haddr, hlength, agentAddr, hagent⟩ | ⟨haddr, exception, hagent, hclean⟩
    · have hkept : (∀ varBind ∈ rest.filter fun varBind ↦ !isField varBind.1,
          isExpressible varBind.2) ↔
          ∀ varBind ∈ rest, isField varBind.1 ∨ isExpressible varBind.2 := by
        simp only [List.mem_filter, Bool.not_eq_true', and_imp]
        refine forall₂_congr fun varBind _ ↦ ?_
        cases isField varBind.1 <;> simp
      rw [hagent, haddr, hlength, translateVarBinds_v2ToV1Value, if_congr hkept rfl rfl]
      rcases timeStampOf_cases uptime with
        ⟨hticks, timeStamp, hstamp⟩ | ⟨hticks, exception, hstamp, hclean⟩
      · rw [hstamp, hticks]
        split_ifs with hall <;>
          simpa [bind, Except.bind, Except.map, Clean, EchoesRequest, isClean] using hall
      · rw [hstamp, hticks]
        simp [bind, Except.bind, Except.map, Clean, hclean]
    · rw [hagent, haddr]
      simp [bind, Except.bind, Except.map, Clean, hclean]
  · rw [hfields, hnames]
    simp [bind, Except.bind, Except.map, Clean, hclean]

/-! ### All PDUs -/

/-- A PDU is translated, or refused by one of the two exceptions, exactly when it is
translatable. -/
theorem failsCleanly_iff (v2Pdu origV1Pdu : Pdu) (hindex : 0 ≤ v2Pdu.errorIndex) :
    FailsCleanly v2Pdu origV1Pdu ↔ IsTranslatable v2Pdu origV1Pdu := by
  rw [FailsCleanly, v2ToV1, IsTranslatable]
  have hrequest := clean_v2ToV1Request_iff v2Pdu origV1Pdu
  cases hcase : v2Pdu.pduType <;> rw [hcase] at hrequest
  case response => exact clean_v2ToV1Response_iff v2Pdu origV1Pdu hindex
  case snmpV2Trap => exact clean_v2ToV1Trap_iff v2Pdu origV1Pdu
  all_goals simpa [v2ToV1PduMap] using hrequest

theorem failsCleanly_iff_response :
    FailsCleanly
        { pduType := .response
          requestID := 1
          varBinds := [([1, 3], .counter64 5)] }
        { pduType := .getRequest
          requestID := 1
          varBinds := [([1, 3], .null)] } ↔
      IsTranslatable
        { pduType := .response
          requestID := 1
          varBinds := [([1, 3], .counter64 5)] }
        { pduType := .getRequest
          requestID := 1
          varBinds := [([1, 3], .null)] } :=
  failsCleanly_iff _ _ le_rfl

/-- A SET of a `Counter64` is a `KeyError`, and so is a trap that carries one; a trap whose first
binding is no uptime is an error of the ASN.1 library, and one whose `snmpTrapOID` is an integer a
`TypeError`. -/
theorem not_failsCleanly_counter64 :
    ¬ FailsCleanly { pduType := .setRequest, requestID := 1, varBinds := [([1, 3], .counter64 5)] }
        { pduType := .setRequest, requestID := 1, varBinds := [] } ∧
      ¬ FailsCleanly
        { pduType := .snmpV2Trap
          requestID := 1
          varBinds := [(sysUpTime, .timeTicks 1), (snmpTrapOID, .objectIdentifier [1, 3, 6, 0, 1]),
            ([1, 3], .counter64 5)] }
        { pduType := .snmpV2Trap, requestID := 1, varBinds := [] } ∧
      ¬ FailsCleanly
        { pduType := .snmpV2Trap
          requestID := 1
          varBinds := [(sysUpTime, .integer 1), (snmpTrapOID, .objectIdentifier [1, 3, 6, 0, 1])] }
        { pduType := .snmpV2Trap, requestID := 1, varBinds := [] } ∧
      ¬ FailsCleanly
        { pduType := .snmpV2Trap
          requestID := 1
          varBinds := [(sysUpTime, .timeTicks 1), (snmpTrapOID, .integer 6)] }
        { pduType := .snmpV2Trap, requestID := 1, varBinds := [] } :=
  ⟨Bool.false_ne_true, Bool.false_ne_true, Bool.false_ne_true, Bool.false_ne_true⟩

end Pysnmp.Proto.Proxy.CleanFailure
