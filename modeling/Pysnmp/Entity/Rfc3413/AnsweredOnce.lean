import Pysnmp.Entity.Rfc3413.SuspendedOperations
import Pysnmp.Smi.Successor
import Pysnmp.Smi.WriteVars

/-!
# Every request is answered once

A request gets its one response, and its entry leaves the table, when its operation comes to an end
that can be answered and the response is accepted on its way out (`answeredOnce_iff`). That is not
always so: most clauses of `_failedMgmtOperation` read a position that not every error carries, what
is no SMI error is mapped to nothing, and a response that is too large is dropped and not replaced
by one that says so.
-/

set_option autoImplicit false
set_option relaxedAutoImplicit false

namespace Pysnmp.Entity.Rfc3413.AnsweredOnce

open Foundation Foundation.Effect Proto Proto.Mpmod.Cache Proto.Mpmod.MessageProcessing
open Proto.Proxy.Rfc2576 CommandResponder SuspendedOperations

/-! ### The property -/

/-- The error statuses of a version. -/
def IsExpressible : ModelId → ℤ → Prop
  | .v1, errorStatus => 0 ≤ errorStatus ∧ errorStatus ≤ 5
  | .v2c, errorStatus | .v3, errorStatus => 0 ≤ errorStatus ∧ errorStatus ≤ 18

/-- Between the states a request is answered: one response goes out, with an error status that its
version has, and the request is not in the table any more. -/
def IsAnswered (request : Request) (before after : Responder) : Prop :=
  ∃ pdu, after.sent =
      before.sent ++ [⟨request.stateReference, request.messageProcessingModel, pdu⟩] ∧
    pdu.pduType = .response ∧ IsExpressible request.messageProcessingModel pdu.errorStatus ∧
    after.pendingReqs.lookup request.stateReference = none

/-- A request is answered, in some number of rounds. -/
def IsAnsweredOnce (world : World) (request : Request) (responder : Responder) : Prop :=
  ∃ rounds, IsAnswered request responder
    ((serveRequest world rounds request).run responder).2

/-! ### When a request is answered -/

/-- The PDU that goes over the wire: SNMPv1 and SNMPv2c put the request-id of the manager back. -/
def wirePdu (modelId : ModelId) (served : ServedRequest) (pdu : Pdu) : Pdu :=
  match modelId with
  | .v3 => pdu
  | .v1 | .v2c => { pdu with requestID := served.reqID.getD pdu.requestID }

/-- A message is within the limits of the engine, and in SNMPv3 within those of the requester. -/
def FitsLimits (environment : Environment) (modelId : ModelId) (served : ServedRequest)
    (wholeMsg : Octets) : Prop :=
  isOversized environment wholeMsg = false ∧
    (modelId = .v3 →
      (wholeMsg.length : ℤ) ≤ min (environment.snmpEngineMaxMessageSize : ℤ) served.msgMaxSize)

/-- Message processing still has the request, the response can be secured, it is not too large, and
the transport takes it. -/
def IsAccepted (world : World) (modelId : ModelId) (stateReference : ℕ) (cache : CacheState)
    (pdu : Pdu) : Prop :=
  world.messageProcessingSubsystems modelId ∧
    ∃ served wholeMsg, ((popByStateRef stateReference).run cache).1 = .ok served ∧
      world.environment.securityModels served.securityModel ∧
      world.securing served (wirePdu modelId served pdu) = .ok wholeMsg ∧
      FitsLimits world.environment modelId served wholeMsg ∧
      world.sendMessage wholeMsg = none

/-- The error status and index, and the bindings, that a failed operation is answered with, if it
is: an error has to be one of the SMI that carries what its clause reads, and is not to be reported
in place of the response. -/
def failureFields (varBinds : List VarBind) : Failure → Option (ℤ × ℤ × List VarBind)
  | .smi errorClass details =>
    match errorClass.clause, details.idx with
    | .genError, idx =>
      if details.oid = none then some (5, idx.elim 0 fun idx ↦ idx + 1, varBinds) else none
    | .tooBigError, _ => some (1, 0, [])
    | .indexed _, none => none
    | .indexed errorStatus, some idx => some (errorStatus, idx + 1, varBinds)
    | .smiError, _ => some (5, if varBinds = [] then 0 else 1, varBinds)
  | .raised _ | .unfinished => none

/-- The same for the end of an operation. -/
def endFields (varBinds : List VarBind) : Ending → Option (ℤ × ℤ × List VarBind)
  | .bindings rspVarBinds => some (0, 0, rspVarBinds)
  | .failure failure => failureFields varBinds failure

/-- The operation comes to an end, in so many rounds, with an answer that is expressible in the
version of the request and accepted on its way out. -/
def EndsAnswerably (world : World) (request : Request) (cache : CacheState) (rounds : ℕ) (pdu : Pdu)
    (pending : PendingRequest) : Prop :=
  ∃ ending meanwhile, operationEnd world pending rounds pdu request.kind =
      some (ending, meanwhile) ∧
    ∃ fields, endFields pdu.varBinds ending = some fields ∧
      ∃ translated, translateResponse pending
          (pending.response fields.1 fields.2.1 fields.2.2) = .ok translated ∧
        IsAccepted world request.messageProcessingModel request.stateReference (meanwhile cache)
          translated

/-- The request is expressible in the version of the instrumentation, and its operation ends with an
answer. -/
def IsAnswerable (world : World) (request : Request) (cache : CacheState) : Prop :=
  ∃ pdu origPdu, translateRequest request = .ok (pdu, origPdu) ∧
    ∃ rounds, EndsAnswerably world request cache rounds pdu (request.pending pdu origPdu)

/-! ### Message processing -/

/-- What follows the request's state is reached when the state is still there. -/
theorem onCache_pop_bind_eq_ok_iff {α : Type} {stateReference : ℕ} {model : Model} {value : α}
    {next : ServedRequest → ModelOp α} {holds : ServedRequest → Prop}
    (hnext : ∀ served model, ((next served).run model).1 = .ok value ↔ holds served) :
    ((onCache (popByStateRef stateReference) >>= next).run model).1 = .ok value ↔
      ∃ served, ((popByStateRef stateReference).run model.cache).1 = .ok served ∧
        holds served := by
  rcases hpop : (popByStateRef stateReference).run model.cache with ⟨exception | served, cache⟩
  · have hrun : (onCache (popByStateRef stateReference)).run model =
        (.error exception, { model with cache }) := by
      rw [onCache, focus_run, hpop]
    rw [bind_run_of_error hrun]
    simp
  · have hrun : (onCache (popByStateRef stateReference)).run model =
        (.ok served, { model with cache }) := by
      rw [onCache, focus_run, hpop]
    rw [bind_run_of_ok hrun, hnext]
    simp

theorem secureResponse_eq_ok_iff {environment : Environment} {securing : ResponseSecuring}
    {served : ServedRequest} {pdu : Pdu} (model : Model) {wholeMsg : Octets} :
    ((secureResponse environment securing served pdu).run model).1 = .ok wholeMsg ↔
      environment.securityModels served.securityModel ∧ securing served pdu = .ok wholeMsg := by
  unfold secureResponse
  split_ifs with hsecurity
  · simp [hsecurity]
  · simp [hsecurity]

/-- The size constraint of a v3 response. -/
theorem secureResponse_bind_runIf_eq_ok_iff {environment : Environment}
    {securing : ResponseSecuring} {served : ServedRequest} {pdu : Pdu} {model : Model}
    {wholeMsg : Octets} {limit : ℤ} :
    ((secureResponse environment securing served pdu >>= fun wholeMsg ↦
        runIf (limit < wholeMsg.length) (raise (.status .tooBig)) >>= fun _ ↦
          pure wholeMsg).run model).1 = .ok wholeMsg ↔
      environment.securityModels served.securityModel ∧ securing served pdu = .ok wholeMsg ∧
        (wholeMsg.length : ℤ) ≤ limit := by
  rw [← and_assoc, ← secureResponse_eq_ok_iff model]
  rcases hrun : (secureResponse environment securing served pdu).run model with
    ⟨exception | secured, after⟩
  · rw [bind_run_of_error hrun]
    simp
  · rw [bind_run_of_ok hrun]
    by_cases hlimit : limit < secured.length
    · rw [runIf_of_true _ hlimit, bind_run_of_error (raise_run _ _)]
      simp only [Except.ok.injEq, reduceCtorEq, false_iff, not_and, not_le]
      rintro rfl
      exact hlimit
    · rw [runIf_of_false _ hlimit]
      simp only [pure_bind, pure_run, Except.ok.injEq, iff_self_and]
      rintro rfl
      exact not_lt.mp hlimit

/-- Message processing prepares a response of an application that has nothing to report, for a
request it still has. -/
theorem prepareResponseMessage_eq_ok_iff {modelId : ModelId} {environment : Environment}
    (securing : ResponseSecuring) {stateReference : ℕ} (statusInformation : Option ReportedObject)
    {pdu : Pdu} (hpdu : pdu.pduType = .response) {model : Model} {wholeMsg : Octets} :
    ((prepareResponseMessage modelId environment securing stateReference statusInformation
        pdu).run model).1 = .ok wholeMsg ↔
      ∃ served, ((popByStateRef stateReference).run model.cache).1 = .ok served ∧
        statusInformation = none ∧ environment.securityModels served.securityModel ∧
        securing served (wirePdu modelId served pdu) = .ok wholeMsg ∧
        (modelId = .v3 →
          (wholeMsg.length : ℤ) ≤
            min (environment.snmpEngineMaxMessageSize : ℤ) served.msgMaxSize) := by
  have hv1 : ∀ served model, (((if statusInformation.isSome then raise (.status .nonReportable)
      else secureResponse environment securing served
        { pdu with requestID := served.reqID.getD pdu.requestID } :
        ModelOp Octets)).run model).1 = .ok wholeMsg ↔
      statusInformation = none ∧ environment.securityModels served.securityModel ∧
        securing served { pdu with requestID := served.reqID.getD pdu.requestID } =
          .ok wholeMsg := by
    intro served model
    cases statusInformation with
    | some reported => simp
    | none => simp [secureResponse_eq_ok_iff]
  have hv3 : ∀ served model, (((reportInPlace pdu statusInformation >>= fun sentPdu ↦
      secureResponse environment securing served sentPdu >>= fun wholeMsg ↦
        runIf (min (environment.snmpEngineMaxMessageSize : ℤ) served.msgMaxSize < wholeMsg.length)
          (raise (.status .tooBig)) >>= fun _ ↦ pure wholeMsg) :
            ModelOp Octets).run model).1 = .ok wholeMsg ↔
      statusInformation = none ∧ environment.securityModels served.securityModel ∧
        securing served pdu = .ok wholeMsg ∧ (wholeMsg.length : ℤ) ≤
          min (environment.snmpEngineMaxMessageSize : ℤ) served.msgMaxSize := by
    intro served model
    cases statusInformation with
    | some reported =>
      have hreport : (reportInPlace pdu (some reported)).run model =
          (.error (.status .loopTerminated), model) := by
        simp [reportInPlace, hpdu, PduType.isConfirmedClass]
      rw [bind_run_of_error hreport]
      simp
    | none =>
      rw [reportInPlace, pure_bind, secureResponse_bind_runIf_eq_ok_iff]
      simp
  cases modelId with
  | v3 => exact (onCache_pop_bind_eq_ok_iff hv3).trans (by simp [wirePdu])
  | v1 => exact (onCache_pop_bind_eq_ok_iff hv1).trans (by simp [wirePdu])
  | v2c => exact (onCache_pop_bind_eq_ok_iff hv1).trans (by simp [wirePdu])

/-! ### Sending -/

/-- The states agree in what was sent and in the table. -/
def SameAnswers (before after : Responder) : Prop :=
  after.sent = before.sent ∧ after.pendingReqs = before.pendingReqs

/-- The state after a response went out. -/
def HasSent (response : SentResponse) (before after : Responder) : Prop :=
  after.sent = before.sent ++ [response] ∧ after.pendingReqs = before.pendingReqs

section Sending

variable {world : World} {responder : Responder}

/-- The message is prepared, or there is an exception; nothing is sent by that. -/
theorem onModel_run_cases {α : Type} (operation : ModelOp α) (responder : Responder) :
    (∃ value after, (operation.run responder.model).1 = .ok value ∧
        (onModel operation).run responder = (.ok value, after) ∧ SameAnswers responder after) ∨
      ∃ exception after, (operation.run responder.model).1 = .error exception ∧
        (onModel operation).run responder = (.error (.raised exception), after) ∧
          SameAnswers responder after := by
  rcases hrun : operation.run responder.model with ⟨exception | value, model⟩
  · refine Or.inr ⟨exception, { responder with model }, rfl, ?_, rfl, rfl⟩
    simp only [onModel, hrun]
    rfl
  · refine Or.inl ⟨value, { responder with model }, rfl, ?_, rfl, rfl⟩
    simp only [onModel, hrun]
    rfl

/-- A response that is accepted goes out. -/
theorem returnResponsePdu_run_of_accepted (response : SentResponse)
    (hpdu : response.pdu.pduType = .response)
    (haccepted : IsAccepted world response.messageProcessingModel response.stateReference
      responder.model.cache response.pdu) :
    ∃ after, (returnResponsePdu world response none).run responder = (.ok (), after) ∧
      HasSent response responder after := by
  obtain ⟨hregistered, served, wholeMsg, hpop, hsecurity, hsecured, ⟨hsize, hlimit⟩, hsend⟩ :=
    haccepted
  have hprepared := (prepareResponseMessage_eq_ok_iff world.securing none hpdu).mpr
    ⟨served, hpop, rfl, hsecurity, hsecured, hlimit⟩
  unfold returnResponsePdu
  rw [if_pos hregistered]
  rcases onModel_run_cases (prepareResponseMessage response.messageProcessingModel
      world.environment world.securing response.stateReference none response.pdu) responder with
    ⟨value, after, hvalue, hrun, hsame⟩ | ⟨exception, after, hexception, _⟩
  · rw [hprepared, Except.ok.injEq] at hvalue
    subst hvalue
    rw [bind_run_of_ok hrun, hsize, transmit, hsend]
    exact ⟨_, rfl, congrArg (· ++ [response]) hsame.1, hsame.2⟩
  · rw [hprepared] at hexception
    cases hexception

/-- A response that is not accepted does not go out. -/
theorem returnResponsePdu_run_of_not_accepted (response : SentResponse)
    (hpdu : response.pdu.pduType = .response) {statusInformation : Option ReportedObject}
    (hnot : ¬ (statusInformation = none ∧ IsAccepted world response.messageProcessingModel
      response.stateReference responder.model.cache response.pdu)) :
    ∃ exception after, (returnResponsePdu world response statusInformation).run responder =
      (.error (.raised exception), after) ∧ SameAnswers responder after := by
  unfold returnResponsePdu
  by_cases hregistered : world.messageProcessingSubsystems response.messageProcessingModel
  · rw [if_pos hregistered]
    rcases onModel_run_cases (prepareResponseMessage response.messageProcessingModel
        world.environment world.securing response.stateReference statusInformation response.pdu)
        responder with ⟨wholeMsg, after, hvalue, hrun, hsame⟩ | ⟨exception, after, _, hrun, hsame⟩
    · obtain ⟨served, hpop, hstatus, hsecurity, hsecured, hlimit⟩ :=
        (prepareResponseMessage_eq_ok_iff _ _ hpdu).mp hvalue
      rw [bind_run_of_ok hrun]
      cases hsize : isOversized world.environment wholeMsg with
      | true => exact ⟨_, _, rfl, hsame⟩
      | false =>
        cases hsend : world.sendMessage wholeMsg with
        | some exception =>
          refine ⟨exception, after, ?_, hsame⟩
          simp [transmit, hsend]
        | none =>
          exact absurd ⟨hstatus, hregistered, served, wholeMsg, hpop, hsecurity, hsecured,
            ⟨hsize, hlimit⟩, hsend⟩ hnot
    · exact ⟨exception, after, bind_run_of_error hrun, hsame⟩
  · rw [if_neg hregistered]
    exact ⟨_, responder, rfl, rfl, rfl⟩

end Sending

/-! ### Answering -/

/-- The error statuses the versions get, and the one they are translated from. -/
theorem translateResponse_of_ok {pending : PendingRequest} {pdu translated : Pdu}
    (hpdu : pdu.pduType = .response) (hstatus : 0 ≤ pdu.errorStatus ∧ pdu.errorStatus ≤ 18)
    (htranslated : translateResponse pending pdu = .ok translated) :
    translated.pduType = .response ∧
      IsExpressible pending.messageProcessingModel translated.errorStatus := by
  unfold translateResponse at htranslated
  rcases hmodel : pending.messageProcessingModel with _ | _ | _
  · rw [hmodel] at htranslated
    cases horig : pending.origPdu with
    | none =>
      rw [horig] at htranslated
      cases htranslated
    | some origPdu =>
      rw [horig] at htranslated
      refine ⟨?_, v2ToV1Response_errorStatus htranslated⟩
      obtain ⟨found, -, varBinds, -, rfl⟩ := v2ToV1Response_eq_ok_iff.mp htranslated
      rfl
  · rw [hmodel] at htranslated
    cases htranslated
    exact ⟨hpdu, hstatus⟩
  · rw [hmodel] at htranslated
    cases htranslated
    exact ⟨hpdu, hstatus⟩

theorem clause_errorStatus {errorClass : SmiErrorClass} {errorStatus : ℤ}
    (hclause : errorClass.clause = .indexed errorStatus) : 0 ≤ errorStatus ∧ errorStatus ≤ 18 := by
  cases errorClass <;> cases hclause <;> decide

theorem failureFields_errorStatus {varBinds : List VarBind} {failure : Failure}
    {fields : ℤ × ℤ × List VarBind} (hfields : failureFields varBinds failure = some fields) :
    0 ≤ fields.1 ∧ fields.1 ≤ 18 := by
  cases failure with
  | raised exception => cases hfields
  | unfinished => cases hfields
  | smi errorClass details =>
    unfold failureFields at hfields
    cases hclause : errorClass.clause with
    | genError =>
      simp only [hclause, Option.ite_none_right_eq_some, Option.some.injEq] at hfields
      obtain ⟨-, rfl⟩ := hfields
      simp
    | tooBigError =>
      simp only [hclause, Option.some.injEq] at hfields
      subst hfields
      simp
    | smiError =>
      simp only [hclause, Option.some.injEq] at hfields
      subst hfields
      simp
    | indexed errorStatus =>
      cases hidx : details.idx with
      | none => simp [hclause, hidx] at hfields
      | some idx =>
        simp only [hclause, hidx, Option.some.injEq] at hfields
        subst hfields
        exact clause_errorStatus hclause

theorem endFields_errorStatus {varBinds : List VarBind} {ending : Ending}
    {fields : ℤ × ℤ × List VarBind} (hfields : endFields varBinds ending = some fields) :
    0 ≤ fields.1 ∧ fields.1 ≤ 18 := by
  cases ending with
  | bindings rspVarBinds =>
    rw [endFields, Option.some.injEq] at hfields
    subst hfields
    simp
  | failure failure => exact failureFields_errorStatus hfields

section Answering

variable {world : World} {stateReference : ℕ} {pending : PendingRequest} {responder : Responder}

/-- The response with these fields is expressible in the version of the request, and accepted. -/
def Delivers (world : World) (stateReference : ℕ) (pending : PendingRequest) (cache : CacheState)
    (fields : ℤ × ℤ × List VarBind) (translated : Pdu) : Prop :=
  translateResponse pending (pending.response fields.1 fields.2.1 fields.2.2) = .ok translated ∧
    IsAccepted world pending.messageProcessingModel stateReference cache translated

/-- The state after a request was answered. -/
def HasAnswered (stateReference : ℕ) (response : SentResponse) (before after : Responder) : Prop :=
  after.sent = before.sent ++ [response] ∧
    after.pendingReqs = before.pendingReqs.erase stateReference

/-- The run of a program that sends nothing. -/
def SendsNothing (program : ResponderOp Unit) (responder : Responder) : Prop :=
  (program.run responder).2.sent = responder.sent

theorem pendingResponse_pduType (hrsp : pending.rspPDU.pduType = .response)
    (errorStatus errorIndex : ℤ)
    (varBinds : List VarBind) :
    (pending.response errorStatus errorIndex varBinds).pduType = .response :=
  hrsp

/-- A response that is delivered is the answer. -/
theorem answer_run_of_delivers
    (hpending : responder.pendingReqs.lookup stateReference = some pending)
    (hrsp : pending.rspPDU.pduType = .response) (hstatus : pending.statusInformation = none)
    {fields : ℤ × ℤ × List VarBind} (hfields : 0 ≤ fields.1 ∧ fields.1 ≤ 18) {translated : Pdu}
    (hdelivers : Delivers world stateReference pending responder.model.cache fields translated) :
    ∃ after, (answer world stateReference fields.1 fields.2.1 fields.2.2).run responder =
        (.ok (), after) ∧
      HasAnswered stateReference ⟨stateReference, pending.messageProcessingModel, translated⟩
        responder after := by
  obtain ⟨htranslated, haccepted⟩ := hdelivers
  obtain ⟨after, hrun, hsent, hentries⟩ := returnResponsePdu_run_of_accepted
    ⟨stateReference, pending.messageProcessingModel, translated⟩
    (translateResponse_of_ok (pendingResponse_pduType hrsp _ _ _) hfields htranslated).1 haccepted
  have hsend : (sendVarBinds world stateReference fields.1 fields.2.1 fields.2.2).run responder =
      (.ok (), after) := by
    rw [sendVarBinds_run hpending, htranslated]
    change (sendTranslated world stateReference pending translated).run responder = _
    rw [sendTranslated, hstatus, handle_run_of_ok hrun]
  unfold answer
  rw [bind_run_of_ok hsend]
  exact ⟨_, rfl, hsent, congrArg (·.erase stateReference) hentries⟩

/-- What the handler of the sending step does sends nothing. -/
theorem dropRefused_sendsNothing (failure : Failure) (responder : Responder) :
    SendsNothing (dropRefused failure) responder := by
  cases failure with
  | raised exception => cases exception <;> rfl
  | smi errorClass details => rfl
  | unfinished => rfl

/-- A response that is not delivered is none. -/
theorem answer_sendsNothing
    (hpending : responder.pendingReqs.lookup stateReference = some pending)
    (hrsp : pending.rspPDU.pduType = .response)
    (fields : ℤ × ℤ × List VarBind) (hfields : 0 ≤ fields.1 ∧ fields.1 ≤ 18)
    (hnot : ¬ (pending.statusInformation = none ∧ ∃ translated,
      Delivers world stateReference pending responder.model.cache fields translated)) :
    SendsNothing (answer world stateReference fields.1 fields.2.1 fields.2.2) responder := by
  have hsend : SendsNothing (sendVarBinds world stateReference fields.1 fields.2.1 fields.2.2)
      responder := by
    unfold SendsNothing
    rw [sendVarBinds_run hpending]
    cases htranslated : translateResponse pending
        (pending.response fields.1 fields.2.1 fields.2.2) with
    | error exception => rfl
    | ok translated =>
      have hrefused : ¬ (pending.statusInformation = none ∧ IsAccepted world
          pending.messageProcessingModel stateReference responder.model.cache translated) :=
        fun haccepted ↦ hnot ⟨haccepted.1, translated, htranslated, haccepted.2⟩
      obtain ⟨exception, after, hrun, hsame⟩ := returnResponsePdu_run_of_not_accepted
        ⟨stateReference, pending.messageProcessingModel, translated⟩
        (translateResponse_of_ok (pendingResponse_pduType hrsp _ _ _) hfields htranslated).1
        hrefused
      change ((sendTranslated world stateReference pending translated).run responder).2.sent = _
      rw [sendTranslated, handle_run_of_error hrun, dropRefused_sendsNothing, hsame.1]
  unfold SendsNothing answer
  rcases ok_or_error (sendVarBinds world stateReference fields.1 fields.2.1 fields.2.2) responder
    with ⟨done, after, hok⟩ | ⟨failure, after, herror⟩
  · rw [bind_run_of_ok hok]
    have hsame := hsend
    rw [SendsNothing, hok] at hsame
    exact hsame
  · rw [bind_run_of_error herror]
    have hsame := hsend
    rw [SendsNothing, herror] at hsame
    exact hsame

/-! ### Failures -/

/-- A failure with fields is answered with them. -/
theorem failedMgmtOperation_of_fields {varBinds : List VarBind} {failure : Failure}
    {fields : ℤ × ℤ × List VarBind} (hfields : failureFields varBinds failure = some fields) :
    failedMgmtOperation world stateReference varBinds failure =
      answer world stateReference fields.1 fields.2.1 fields.2.2 := by
  cases failure with
  | raised exception => cases hfields
  | unfinished => cases hfields
  | smi errorClass details =>
    unfold failureFields at hfields
    unfold failedMgmtOperation
    cases hclause : errorClass.clause with
    | genError =>
      simp only [hclause, Option.ite_none_right_eq_some, Option.some.injEq] at hfields
      obtain ⟨hoid, rfl⟩ := hfields
      simp only [hclause, failedGenError, hoid]
    | tooBigError =>
      simp only [hclause, Option.some.injEq] at hfields
      subst hfields
      simp only [hclause]
    | smiError =>
      simp only [hclause, Option.some.injEq] at hfields
      subst hfields
      simp only [hclause]
    | indexed errorStatus =>
      cases hidx : details.idx with
      | none => simp [hclause, hidx] at hfields
      | some idx =>
        simp only [hclause, hidx, Option.some.injEq] at hfields
        subst hfields
        simp only [hclause, hidx]

/-- A failure without fields is not answered: it is raised again, released, or has a report made in
place of the response, which message processing refuses. -/
theorem failedMgmtOperation_sendsNothing
    (hpending : responder.pendingReqs.lookup stateReference = some pending)
    (hrsp : pending.rspPDU.pduType = .response) {varBinds : List VarBind} {failure : Failure}
    (hfields : failureFields varBinds failure = none) :
    SendsNothing (failedMgmtOperation world stateReference varBinds failure) responder := by
  cases failure with
  | raised exception =>
    rw [failedMgmtOperation]
    split_ifs <;> rfl
  | unfinished => rfl
  | smi errorClass details =>
    unfold failureFields at hfields
    unfold failedMgmtOperation
    cases hclause : errorClass.clause with
    | tooBigError => simp [hclause] at hfields
    | smiError => simp [hclause] at hfields
    | indexed errorStatus =>
      cases hidx : details.idx with
      | none =>
        simp only [hclause, hidx]
        rfl
      | some idx => simp [hclause, hidx] at hfields
    | genError =>
      cases hoid : details.oid with
      | none => simp [hclause, hoid] at hfields
      | some oid =>
        cases hval : details.val with
        | none =>
          simp only [hclause, failedGenError, hoid, hval]
          rfl
        | some val =>
          simp only [hclause, failedGenError, hoid, hval]
          have hreport : (requestReport stateReference (oid, val)).run responder =
              (.ok (), { responder with
                pendingReqs := responder.pendingReqs.insert stateReference
                  { pending with statusInformation := some (oid, val) } }) := by
            unfold requestReport
            rw [bind_run_of_ok (pendingRequest_run hpending), modify_run]
          unfold SendsNothing
          rw [bind_run_of_ok hreport]
          exact @answer_sendsNothing world stateReference
            { pending with statusInformation := some (oid, val) } _ (AList.lookup_insert _) hrsp
            (0, 0, varBinds) (by simp) fun hnot ↦ by cases hnot.1

/-! ### Operations -/

/-- The end of an operation whose fields are delivered is answered. -/
theorem conclude_run_of_delivers
    (hpending : responder.pendingReqs.lookup stateReference = some pending)
    (hrsp : pending.rspPDU.pduType = .response) (hstatus : pending.statusInformation = none)
    {varBinds : List VarBind} {ending : Ending} {fields : ℤ × ℤ × List VarBind}
    (hfields : endFields varBinds ending = some fields) {translated : Pdu}
    (hdelivers : Delivers world stateReference pending responder.model.cache fields translated) :
    HasAnswered stateReference ⟨stateReference, pending.messageProcessingModel, translated⟩
      responder ((handle (conclude world stateReference ending)
        (failedMgmtOperation world stateReference varBinds)).run responder).2 := by
  obtain ⟨after, hrun, hanswered⟩ := answer_run_of_delivers hpending hrsp hstatus
    (endFields_errorStatus hfields) hdelivers
  cases ending with
  | bindings rspVarBinds =>
    rw [endFields, Option.some.injEq] at hfields
    subst hfields
    rwa [conclude, handle_run_of_ok hrun]
  | failure failure =>
    rwa [conclude, handle_run_of_error (raise_run _ _), failedMgmtOperation_of_fields hfields, hrun]

/-- The end of an operation is not answered when it has no fields, or they are not delivered. A
second attempt is never made: what stops the sending is no SMI error. -/
theorem conclude_sendsNothing
    (hpending : responder.pendingReqs.lookup stateReference = some pending)
    (hrsp : pending.rspPDU.pduType = .response) {varBinds : List VarBind} {ending : Ending}
    (hnot : ¬ (∃ fields, endFields varBinds ending = some fields ∧ ∃ translated,
      Delivers world stateReference pending responder.model.cache fields translated)) :
    SendsNothing (handle (conclude world stateReference ending)
      (failedMgmtOperation world stateReference varBinds)) responder := by
  have hundelivered : ∀ fields, endFields varBinds ending = some fields →
      SendsNothing (answer world stateReference fields.1 fields.2.1 fields.2.2) responder :=
    fun fields hfields ↦ answer_sendsNothing hpending hrsp fields (endFields_errorStatus hfields)
      fun hdelivers ↦ hnot ⟨fields, hfields, hdelivers.2⟩
  unfold SendsNothing
  cases ending with
  | bindings rspVarBinds =>
    have hsent := hundelivered _ rfl
    rcases ok_or_error (answer world stateReference 0 0 rspVarBinds) responder with
      ⟨done, after, hok⟩ | ⟨failure, after, herror⟩
    · rw [SendsNothing, hok] at hsent
      rwa [conclude, handle_run_of_ok hok]
    · rw [SendsNothing, herror] at hsent
      obtain ⟨exception, rfl⟩ := raises_answer world _ _ _ _ _ _ _ herror
      rw [conclude, handle_run_of_error herror, ← hsent, failedMgmtOperation]
      split_ifs <;> rfl
  | failure failure =>
    rw [conclude, handle_run_of_error (raise_run _ _)]
    cases hfields : failureFields varBinds failure with
    | none => exact failedMgmtOperation_sendsNothing hpending hrsp hfields
    | some fields =>
      rw [failedMgmtOperation_of_fields hfields]
      exact hundelivered fields hfields

/-- What was sent has grown by an answer, so something was sent. -/
theorem not_isAnswered_of_sent_eq {request : Request} {before after : Responder}
    (hsent : after.sent = before.sent) : ¬ IsAnswered request before after := by
  rintro ⟨pdu, hgrown, -⟩
  rw [hsent] at hgrown
  exact List.append_ne_nil_of_right_ne_nil [] (List.cons_ne_nil _ [])
    (List.self_eq_append_right.mp hgrown)

/-- The state in which a request has been entered. -/
def entered (request : Request) (pending : PendingRequest) (responder : Responder) : Responder :=
  { responder with pendingReqs := responder.pendingReqs.insert request.stateReference pending }

variable (world) in
/-- The run of an operation under the mapping of failures, by the end it comes to. -/
theorem handle_operation_run (request : Request) (rounds : ℕ) (pdu : Pdu)
    (hpending : responder.pendingReqs.lookup request.stateReference = some pending) :
    (∃ ending meanwhile, operationEnd world pending rounds pdu request.kind =
        some (ending, meanwhile) ∧
      (handle (handleMgmtOperation world rounds request.stateReference pdu request.kind >>=
          runDeferred) (failedMgmtOperation world request.stateReference pdu.varBinds)).run
            responder =
        (handle (conclude world request.stateReference ending)
          (failedMgmtOperation world request.stateReference pdu.varBinds)).run
            (waited meanwhile responder)) ∨
      operationEnd world pending rounds pdu request.kind = none ∧
        SendsNothing (handle (handleMgmtOperation world rounds request.stateReference pdu
          request.kind >>= runDeferred)
            (failedMgmtOperation world request.stateReference pdu.varBinds)) responder := by
  obtain ⟨meanwhile, hrun⟩ := handleMgmtOperation_run world hpending rounds pdu
    request.kind
  cases hend : operationEnd world pending rounds pdu request.kind with
  | none =>
    rw [hend] at hrun
    refine Or.inr ⟨rfl, ?_⟩
    rw [SendsNothing, handle_run_of_error hrun]
    rfl
  | some operationEnd =>
    rw [hend] at hrun
    refine Or.inl ⟨operationEnd.1, operationEnd.2, rfl, ?_⟩
    simp only [handle, hrun]
    rfl

variable (world) in
/-- An entered request is answered when its operation ends answerably. -/
theorem isAnswered_iff_endsAnswerably (request : Request) (rounds : ℕ) (pdu : Pdu)
    (origPdu : Option Pdu) (responder : Responder) :
    IsAnswered request responder
        ((handle (handleMgmtOperation world rounds request.stateReference pdu request.kind >>=
            runDeferred) (failedMgmtOperation world request.stateReference pdu.varBinds)).run
          (entered request (request.pending pdu origPdu) responder)).2 ↔
      EndsAnswerably world request responder.model.cache rounds pdu
        (request.pending pdu origPdu) := by
  have hpending : (entered request (request.pending pdu origPdu)
      responder).pendingReqs.lookup request.stateReference = some (request.pending pdu origPdu) :=
    AList.lookup_insert _
  rcases handle_operation_run world request rounds pdu hpending with
    ⟨ending, meanwhile, hend, hrun⟩ | ⟨hend, hnothing⟩
  · have hwaited : (waited meanwhile (entered request (request.pending pdu origPdu)
        responder)).pendingReqs.lookup request.stateReference =
          some (request.pending pdu origPdu) := hpending
    rw [hrun]
    constructor
    · intro hanswered
      by_contra hnot
      refine not_isAnswered_of_sent_eq (conclude_sendsNothing hwaited rfl ?_) hanswered
      rintro ⟨fields, hfields, translated, hdelivers⟩
      exact hnot ⟨ending, meanwhile, hend, fields, hfields, translated, hdelivers⟩
    · rintro ⟨ending', meanwhile', hend', fields, hfields, translated, hdelivers⟩
      rw [hend, Option.some.injEq, Prod.mk.injEq] at hend'
      obtain ⟨rfl, rfl⟩ := hend'
      obtain ⟨hsent, hentries⟩ := conclude_run_of_delivers hwaited rfl rfl hfields hdelivers
      have hresponse : ((request.pending pdu origPdu).response fields.1 fields.2.1
          fields.2.2).pduType = .response := rfl
      have htranslated :=
        translateResponse_of_ok hresponse (endFields_errorStatus hfields) hdelivers.1
      refine ⟨translated, hsent, htranslated.1, htranslated.2, ?_⟩
      rw [hentries]
      exact AList.lookup_erase _ _
  · constructor
    · intro hanswered
      exact absurd hanswered (not_isAnswered_of_sent_eq hnothing)
    · rintro ⟨ending, meanwhile, hend', -⟩
      rw [hend] at hend'
      cases hend'

end Answering

/-! ### The result -/

/-- A translated request is of a type the responder serves. -/
theorem translateRequest_pduType {request : Request}
    (hkind : request.pdu.pduType = request.kind.pduType) {pdu : Pdu} {origPdu : Option Pdu}
    (htranslated : translateRequest request = .ok (pdu, origPdu)) :
    (pdu.pduType.isReadClass || pdu.pduType.isWriteClass) = true := by
  unfold translateRequest at htranslated
  cases hmodel : request.messageProcessingModel with
  | v1 =>
    rw [hmodel] at htranslated
    cases hpdu : v1ToV2 request.pdu request.pdu with
    | error exception =>
      rw [hpdu] at htranslated
      cases htranslated
    | ok translated =>
      rw [hpdu] at htranslated
      cases htranslated
      have hmap := v1ToV2_pduType hpdu
      rw [hkind] at hmap
      cases hkind' : request.kind with
      | bulk =>
        rw [hkind'] at hmap
        cases hmap
      | get | next | set =>
        rw [hkind'] at hmap
        have htype := Option.some.inj hmap
        rw [← htype]
        rfl
  | v2c | v3 =>
    rw [hmodel] at htranslated
    cases htranslated
    rw [hkind]
    cases request.kind <;> rfl

/-- A request is answered once exactly when it can be expressed in the version of the
instrumentation and its operation ends with an answer that is expressible in the version of the
request and accepted on its way out. -/
theorem isAnsweredOnce_iff (world : World) (request : Request)
    (hkind : request.pdu.pduType = request.kind.pduType) (responder : Responder) :
    IsAnsweredOnce world request responder ↔
      IsAnswerable world request responder.model.cache := by
  unfold IsAnsweredOnce IsAnswerable
  simp only [serveRequest_eq]
  cases htranslated : translateRequest request with
  | error exception =>
    constructor
    · rintro ⟨rounds, hanswered⟩
      exact absurd hanswered (not_isAnswered_of_sent_eq rfl)
    · rintro ⟨pdu, origPdu, heq, -⟩
      cases heq
  | ok translated =>
    obtain ⟨pdu, origPdu⟩ := translated
    have hclass := translateRequest_pduType hkind htranslated
    have hrounds : ∀ rounds, IsAnswered request responder _ ↔ _ := fun rounds ↦
      isAnswered_iff_endsAnswerably world request rounds pdu origPdu responder
    constructor
    · rintro ⟨rounds, hanswered⟩
      refine ⟨pdu, origPdu, rfl, rounds, (hrounds rounds).mp ?_⟩
      change IsAnswered request responder ((if _ then _ else _ : ResponderOp Unit).run _).2
        at hanswered
      rw [if_pos hclass] at hanswered
      exact hanswered
    · rintro ⟨pdu', origPdu', heq, rounds, hends⟩
      rw [Except.ok.injEq, Prod.mk.injEq] at heq
      obtain ⟨rfl, rfl⟩ := heq
      refine ⟨rounds, ?_⟩
      change IsAnswered request responder ((if _ then _ else _ : ResponderOp Unit).run _).2
      rw [if_pos hclass]
      exact (hrounds rounds).mpr hends

/-- A world in which all models are there and all messages go out. -/
def openWorld (instrumentation : ℕ → List VarBind → Reply) : World where
  environment :=
    { snmpEngineID := [128, 0, 79, 184, 5]
      snmpEngineMaxMessageSize := 65507
      securityModels := fun _ ↦ true
      timerResolution := 1 }
  messageProcessingSubsystems := fun _ ↦ true
  securing := fun _ pdu ↦ .ok (List.replicate (pdu.varBinds.length + 1) 48)
  sendMessage := fun _ ↦ none
  instrumentation := instrumentation

/-- A responder at a v2c engine that has received a request. -/
def receivedOne : Responder where
  pendingReqs := ∅
  model :=
    { Model.initial with
      cache := ((pushByStateRef 1
        { msgVersion := 1
          msgID := 1
          reqID := some 1
          contextEngineId := []
          contextName := []
          securityModel := 2
          securityName := none
          securityLevel := .noAuthNoPriv
          securityStateReference := 1
          reportableFlag := false
          msgMaxSize := 65507
          maxSizeResponseScopedPDU := 65507
          peer := ⟨[1, 3, 6, 1, 6, 1, 1], []⟩ }).run .empty).2 }
  snmpSilentDrops := 0
  sent := []

/-- A GET of one object is answered. -/
theorem isAnsweredOnce_iff_get :
    IsAnsweredOnce (openWorld fun _ varBinds ↦ .immediate (.ok varBinds))
      ⟨.get, .v2c, 1, { pduType := .getRequest, requestID := 1, varBinds := [([1, 3, 0], .null)] }⟩
      receivedOne :=
  (isAnsweredOnce_iff _ _ rfl _).mpr ⟨_, _, rfl, 0, _, _, rfl, _, rfl, _, rfl, rfl, _, _, rfl, rfl,
    rfl, ⟨rfl, fun hmodel ↦ nomatch hmodel⟩, rfl⟩

/-! ### A row that is not complete -/

/-- The row states. -/
def statusClass : Smi.SyntaxClass where
  kind := .rowStatus
  clone := fun value ↦
    match value with
    | .integer state => if 0 ≤ state ∧ state ≤ 6 then some value else none
    | _ => none
  default := ⟨none⟩

/-- A table whose status column has an instance that says `notExists`, and a column without a
default. -/
def statusModule : List (String × List Smi.IndexMib.MibSymbol) :=
  [("SAMPLE-MIB", [.table [1, 2], .row [1, 2, 1] [Smi.Successor.integerIndex [1, 2, 1, 3]] [],
    .column ⟨[1, 2, 1, 1], .readCreate, statusClass, false⟩,
    .column ⟨[1, 2, 1, 2], .readCreate, Smi.Successor.integerClass, false⟩,
    .scalarInstance [1, 2, 1, 1] [7] statusClass ⟨some (.integer 0)⟩])]

/-- The value of a binding of a SET. -/
def mibValue : BindingValue → Option Smi.Value
  | .integer value => some (.integer value)
  | .octetString value => some (.octetString value)
  | .objectIdentifier value => some (.objectIdentifier value)
  | _ => none

/-- The instrumentation of a MIB tree for a SET, which answers with the bindings of the request. -/
def writeReply (mibSymbols : List (String × List Smi.IndexMib.MibSymbol))
    (varBinds : List VarBind) :
    Reply :=
  let writes := varBinds.filterMap fun varBind ↦ (mibValue varBind.2).map (varBind.1, ·)
  match ((Smi.WriteVars.writeVars none (Smi.Successor.treeOf mibSymbols) writes).run
      (Smi.Successor.instancesOf mibSymbols)).1 with
  | .error exception => .immediate (.error (.ofMib exception))
  | .ok _ => .immediate (.ok varBinds)

/-- A SET that makes the row active without a value for its other column fails the consistency
check, whose error has no position: nothing is sent, and the request stays in the table. -/
theorem not_isAnsweredOnce_inconsistentRow :
    (∀ rounds, ((serveRequest (openWorld fun _ ↦ writeReply statusModule) rounds
        ⟨.set, .v2c, 1, { pduType := .setRequest
                          requestID := 1
                          varBinds := [([1, 2, 1, 1, 7], .integer 4)] }⟩).run
          receivedOne).2.pendingReqs.lookup 1 ≠ none) ∧
      ¬ IsAnsweredOnce (openWorld fun _ ↦ writeReply statusModule)
        ⟨.set, .v2c, 1, { pduType := .setRequest
                          requestID := 1
                          varBinds := [([1, 2, 1, 1, 7], .integer 4)] }⟩ receivedOne := by
  constructor
  · intro rounds hreleased
    cases hreleased
  · rintro ⟨rounds, hanswered⟩
    exact not_isAnswered_of_sent_eq rfl hanswered

end Pysnmp.Entity.Rfc3413.AnsweredOnce
