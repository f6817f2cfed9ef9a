import Pysnmp.Proto.Messages

/-!
# PDUs between SNMPv1 and SNMPv2c

`v1ToV2` and `v2ToV1` of `proto/proxy/rfc2576.py`, for the PDUs of requests and responses; what the
functions do to notifications is not here. A value is translated by its tag, into an object of the
other version that checks its own constraints, and a tag without a counterpart is a `KeyError`.
-/

set_option autoImplicit false
set_option relaxedAutoImplicit false

namespace Pysnmp.Proto.Proxy.Rfc2576

/-! ### Values -/

/-- The range of `Integer32`. -/
def isInteger32 (value : ℤ) : Bool :=
  -2147483648 ≤ value ∧ value ≤ 2147483647

/-- `__v1ToV2ValueMap`, with the clone of the value. SNMPv1 constrains neither integers nor octet
strings. -/
def v1ToV2Value : BindingValue → Except Raised BindingValue
  | .integer value => if isInteger32 value then .ok (.integer value) else .error .pyAsn1Error
  | .octetString value =>
    if value.length ≤ 65535 then .ok (.octetString value) else .error .pyAsn1Error
  | .null => .ok .null
  | .objectIdentifier value => .ok (.objectIdentifier value)
  | .ipAddress value => .ok (.ipAddress value)
  | .counter32 value => .ok (.counter32 value)
  | .gauge32 value => .ok (.gauge32 value)
  | .timeTicks value => .ok (.timeTicks value)
  | .arbitrary value => .ok (.arbitrary value)
  | .counter64 _ | .noSuchObject | .noSuchInstance | .endOfMibView => .error .keyError

/-- `__v2ToV1ValueMap`, with the clone of the value. -/
def v2ToV1Value : BindingValue → Except Raised BindingValue
  | .counter64 _ | .noSuchObject | .noSuchInstance | .endOfMibView => .error .keyError
  | value => .ok value

/-- Translate the values of bindings, first to last. -/
def translateVarBinds (value : BindingValue → Except Raised BindingValue)
    (varBinds : List VarBind) : Except Raised (List VarBind) :=
  varBinds.mapM fun varBind ↦ do
    let translated ← value varBind.2
    pure (varBind.1, translated)

/-- Values that are translated stay what they are. -/
theorem eq_of_v1ToV2Value {val translated : BindingValue}
    (hval : v1ToV2Value val = .ok translated) :
    translated = val := by
  cases val <;> simp only [v1ToV2Value] at hval <;> try split_ifs at hval
  all_goals first
    | exact (Except.ok.inj hval).symm
    | cases hval

theorem eq_of_v2ToV1Value {val translated : BindingValue}
    (hval : v2ToV1Value val = .ok translated) :
    translated = val := by
  cases val <;> first
    | exact (Except.ok.inj hval).symm
    | cases hval

/-- What comes from SNMPv1 can go back there. -/
theorem v2ToV1Value_of_v1ToV2Value {val translated : BindingValue}
    (hval : v1ToV2Value val = .ok translated) : v2ToV1Value val = .ok val := by
  cases val <;> first
    | rfl
    | cases hval

section TranslateVarBinds

variable {value : BindingValue → Except Raised BindingValue} {varBinds translated : List VarBind}

theorem translateVarBinds_cons (varBind : VarBind) (varBinds : List VarBind) :
    translateVarBinds value (varBind :: varBinds) = (do
      let translated ← value varBind.2
      let rest ← translateVarBinds value varBinds
      pure ((varBind.1, translated) :: rest)) := by
  rw [translateVarBinds, List.mapM_cons]
  cases value varBind.2 <;> rfl

/-- Bindings are translated when all their values are. -/
theorem translateVarBinds_eq_ok_iff
    (hvalue : ∀ val other, value val = .ok other → other = val) :
    translateVarBinds value varBinds = .ok translated ↔
      translated = varBinds ∧ ∀ varBind ∈ varBinds, value varBind.2 = .ok varBind.2 := by
  induction varBinds generalizing translated with
  | nil => simp [translateVarBinds, pure, Except.pure, eq_comm]
  | cons varBind varBinds ih =>
    rw [translateVarBinds_cons]
    cases hval : value varBind.2 with
    | error exception => simp [bind, Except.bind, hval]
    | ok other =>
      obtain rfl := hvalue _ _ hval
      cases hrest : translateVarBinds value varBinds with
      | error exception =>
        simp only [bind, Except.bind, reduceCtorEq, false_iff, List.forall_mem_cons]
        rintro ⟨-, -, hall⟩
        rw [(@ih varBinds).mpr ⟨rfl, hall⟩] at hrest
        cases hrest
      | ok others =>
        obtain ⟨rfl, hall⟩ := ih.mp hrest
        simp only [bind, Except.bind, pure, Except.pure, Except.ok.injEq, List.forall_mem_cons,
          hval, true_and]
        exact ⟨fun heq ↦ ⟨heq.symm, hall⟩, fun heq ↦ heq.1.symm⟩

/-- What a translation of bindings raises, one of its values does. -/
theorem exists_of_translateVarBinds_eq_error {exception : Raised}
    (herror : translateVarBinds value varBinds = .error exception) :
    ∃ varBind ∈ varBinds, value varBind.2 = .error exception := by
  induction varBinds with
  | nil => cases herror
  | cons varBind varBinds ih =>
    rw [translateVarBinds_cons] at herror
    cases hval : value varBind.2 with
    | error other =>
      rw [hval] at herror
      obtain rfl := Except.error.inj herror
      exact ⟨varBind, List.mem_cons_self, hval⟩
    | ok other =>
      rw [hval] at herror
      cases hrest : translateVarBinds value varBinds with
      | ok others =>
        rw [hrest] at herror
        cases herror
      | error exception =>
        rw [hrest] at herror
        obtain rfl := Except.error.inj herror
        obtain ⟨found, hmem, hfound⟩ := ih hrest
        exact ⟨found, List.mem_cons_of_mem _ hmem, hfound⟩

end TranslateVarBinds

/-! ### PDUs -/

/-- `__v1ToV2PduMap`. -/
def v1ToV2PduMap : PduType → Option PduType
  | .getRequest => some .getRequest
  | .getNextRequest => some .getNextRequest
  | .setRequest => some .setRequest
  | .response => some .response
  | _ => none

/-- `__v2ToV1PduMap`. -/
def v2ToV1PduMap : PduType → Option PduType
  | .getRequest => some .getRequest
  | .getNextRequest => some .getNextRequest
  | .setRequest => some .setRequest
  | .response => some .response
  | .getBulkRequest => some .getNextRequest
  | _ => none

/-- `getErrorIndex` with the errors muted: an index beyond the bindings is the last of them. -/
def mutedErrorIndex (pdu : Pdu) : ℤ :=
  if pdu.varBinds.length < pdu.errorIndex then pdu.varBinds.length else pdu.errorIndex

/-- 4.1.2.2: the bindings of a response with `noSuchName` say what is missing. -/
def markMissing (origV2Pdu : Pdu) (varBinds : List VarBind) : List VarBind :=
  varBinds.map fun varBind ↦
    (varBind.1, if origV2Pdu.pduType = .getNextRequest then .endOfMibView else .noSuchObject)

/-- `v1ToV2`. -/
def v1ToV2 (v1Pdu : Pdu) (origV2Pdu : Pdu) : Except Raised Pdu :=
  match v1ToV2PduMap v1Pdu.pduType with
  | none => .error .keyError
  | some pduType => do
    let translated ← translateVarBinds v1ToV2Value v1Pdu.varBinds
    let varBinds :=
      if v1Pdu.pduType.isResponseClass ∧ v1Pdu.errorStatus = 2 then
        markMissing origV2Pdu translated
      else
        translated
    let errorIndex := mutedErrorIndex v1Pdu
    if 0 ≤ errorIndex ∧ errorIndex ≤ 2147483647 ∧ isInteger32 v1Pdu.requestID then
      .ok { pduType := pduType
            requestID := v1Pdu.requestID
            errorStatus := v1Pdu.errorStatus
            errorIndex := errorIndex
            varBinds := varBinds }
    else
      .error .pyAsn1Error

/-- `v2ToV1` of a request: the error status and index, which a GETBULK has not, are zero. -/
def v2ToV1Request (v2Pdu : Pdu) : Except Raised Pdu :=
  match v2ToV1PduMap v2Pdu.pduType with
  | none => .error .protocolError
  | some pduType => do
    let varBinds ← translateVarBinds v2ToV1Value v2Pdu.varBinds
    .ok { pduType := pduType
          requestID := v2Pdu.requestID
          varBinds := varBinds }

/-- A translated PDU is of the type its type is mapped to. -/
theorem v1ToV2_pduType {v1Pdu origV2Pdu v2Pdu : Pdu}
    (htranslated : v1ToV2 v1Pdu origV2Pdu = .ok v2Pdu) :
    v1ToV2PduMap v1Pdu.pduType = some v2Pdu.pduType := by
  unfold v1ToV2 at htranslated
  cases hmap : v1ToV2PduMap v1Pdu.pduType with
  | none =>
    rw [hmap] at htranslated
    cases htranslated
  | some pduType =>
    simp only [hmap] at htranslated
    cases hvalues : translateVarBinds v1ToV2Value v1Pdu.varBinds with
    | error exception =>
      rw [hvalues] at htranslated
      cases htranslated
    | ok varBinds =>
      simp only [hvalues, bind, Except.bind] at htranslated
      split_ifs at htranslated
      all_goals exact congrArg some (congrArg Pdu.pduType (Except.ok.inj htranslated))

/-! ### Responses -/

/-- `__v2ToV1ErrorMap`, with the default its lookup has. -/
def v2ToV1ErrorMap : ℤ → ℤ
  | 0 => 0
  | 1 => 1
  | 10 | 9 | 7 | 8 | 12 => 3
  | 6 | 17 | 11 | 18 | 16 => 2
  | _ => 5

/-- 4.1.2.1 and 4.1.2.2: the error status and index that values leave which SNMPv1 has not, from
the last binding to the first. A `Counter64` ends the search: in a GET as an error of its own, in a
GETNEXT by the exception that has the request reissued past it. -/
def inexpressibleValues (origV1Type : PduType) :
    List (VarBind × ℕ) → ℤ × ℤ → Except Raised (ℤ × ℤ)
  | [], found => .ok found
  | ((_, .counter64 _), idx) :: _, _ =>
    match origV1Type with
    | .getRequest => .ok (2, idx + 1)
    | .getNextRequest => .error (.statusInformation { idx := some idx })
    | _ => .error .protocolError
  | ((_, value), idx) :: rest, found =>
    inexpressibleValues origV1Type rest (if value.isException then (2, idx + 1) else found)

/-- 4.1.2.3: the error status and index of a response. -/
def v1Error (v2Pdu : Pdu) (found : ℤ × ℤ) : ℤ × ℤ :=
  if v2Pdu.errorStatus = 0 then found
  else (v2ToV1ErrorMap v2Pdu.errorStatus, mutedErrorIndex v2Pdu)

/-- The bindings of a response: those of the request if there is an error. -/
def v1VarBinds (v2Pdu origV1Pdu : Pdu) (errorStatus : ℤ) : Except Raised (List VarBind) :=
  if errorStatus = 0 then translateVarBinds v2ToV1Value v2Pdu.varBinds else .ok origV1Pdu.varBinds

/-- `v2ToV1` of a response, with the request it answers. -/
def v2ToV1Response (v2Pdu origV1Pdu : Pdu) : Except Raised Pdu := do
  let found ← inexpressibleValues origV1Pdu.pduType v2Pdu.varBinds.zipIdx.reverse (0, 0)
  let (errorStatus, errorIndex) := v1Error v2Pdu found
  let varBinds ← v1VarBinds v2Pdu origV1Pdu errorStatus
  .ok { pduType := .response
        requestID := v2Pdu.requestID
        errorStatus := errorStatus
        errorIndex := errorIndex
        varBinds := varBinds }

theorem v2ToV1Response_eq_ok_iff {v2Pdu origV1Pdu v1Pdu : Pdu} :
    v2ToV1Response v2Pdu origV1Pdu = .ok v1Pdu ↔
      ∃ found, inexpressibleValues origV1Pdu.pduType v2Pdu.varBinds.zipIdx.reverse (0, 0) =
          .ok found ∧
        ∃ varBinds, v1VarBinds v2Pdu origV1Pdu (v1Error v2Pdu found).1 = .ok varBinds ∧
          v1Pdu = { pduType := .response
                    requestID := v2Pdu.requestID
                    errorStatus := (v1Error v2Pdu found).1
                    errorIndex := (v1Error v2Pdu found).2
                    varBinds := varBinds } := by
  unfold v2ToV1Response
  cases inexpressibleValues origV1Pdu.pduType v2Pdu.varBinds.zipIdx.reverse (0, 0) with
  | error exception => simp [bind, Except.bind]
  | ok found =>
    cases hbinds : v1VarBinds v2Pdu origV1Pdu (v1Error v2Pdu found).1 with
    | error exception => simp [bind, Except.bind, hbinds]
    | ok varBinds => simp [bind, Except.bind, hbinds, eq_comm]

/-- Values that SNMPv1 has not leave `noSuchName`. -/
theorem inexpressibleValues_fst {origV1Type : PduType} {varBinds : List (VarBind × ℕ)}
    {found result : ℤ × ℤ} (hresult : inexpressibleValues origV1Type varBinds found = .ok result) :
    result.1 = found.1 ∨ result.1 = 2 := by
  induction varBinds generalizing found with
  | nil =>
    rw [inexpressibleValues, Except.ok.injEq] at hresult
    exact Or.inl (congrArg Prod.fst hresult.symm)
  | cons head rest ih =>
    obtain ⟨⟨oid, value⟩, idx⟩ := head
    cases value with
    | counter64 value =>
      cases origV1Type with
      | getRequest => exact Or.inr (congrArg Prod.fst (Except.ok.inj hresult).symm)
      | _ => cases hresult
    | noSuchObject | noSuchInstance | endOfMibView => exact Or.inr ((ih hresult).elim id id)
    | _ => exact ih hresult

theorem v2ToV1ErrorMap_mem (errorStatus : ℤ) :
    0 ≤ v2ToV1ErrorMap errorStatus ∧ v2ToV1ErrorMap errorStatus ≤ 5 := by
  unfold v2ToV1ErrorMap
  split <;> decide

/-- The error status of a translated response is one of SNMPv1. -/
theorem v2ToV1Response_errorStatus {v2Pdu origV1Pdu v1Pdu : Pdu}
    (htranslated : v2ToV1Response v2Pdu origV1Pdu = .ok v1Pdu) :
    0 ≤ v1Pdu.errorStatus ∧ v1Pdu.errorStatus ≤ 5 := by
  obtain ⟨found, hfound, varBinds, -, rfl⟩ := v2ToV1Response_eq_ok_iff.mp htranslated
  simp only [v1Error]
  split_ifs
  · have hstatus := inexpressibleValues_fst hfound
    omega
  · exact v2ToV1ErrorMap_mem _

end Pysnmp.Proto.Proxy.Rfc2576
