import Pysnmp.Proto.Mpmod.MessageProcessing

/-!
# Messages that name a request and are rejected

A response names the request it answers, by the message identifier in SNMPv3 and by the request-id
in SNMPv1 and SNMPv2c (`requestName`). All three models look the request up with `popByMsgId`, which
takes it out of the cache, and only then compare the message with it. So a message that does not
come from the right security name, level or context is rejected with `dataMismatch`, but the request
is gone (`not_holds_of_rejectsResponse`): the genuine response that arrives later finds nothing and
is rejected the same way.
-/

set_option autoImplicit false
set_option relaxedAutoImplicit false

namespace Pysnmp.Proto.Mpmod.RejectedMessage

open Foundation Foundation.Effect Cache MessageProcessing

/-! ### The request a message names -/

/-- The identifier under which the model looks up the request of a response. -/
def requestName : ModelId → SecuredMessage → ℤ
  | .v3, message => message.msgID
  | .v1, message => message.pdu.requestID
  | .v2c, message => message.pdu.requestID

/-- The model holds an outstanding request under the identifier. -/
def Holds (model : Model) (msgId : ℤ) : Prop :=
  (model.cache.msgIdIndex.lookup msgId).isSome

/-- A message of the response class names a request that is outstanding, and the model rejects it
with `dataMismatch`. -/
structure RejectsResponse (modelId : ModelId) (environment : Environment)
    (message : SecuredMessage) (draws : Draws) (state : Model) : Prop where
  isResponse : message.pdu.pduType.isResponseClass
  isHeld : Holds state (requestName modelId message)
  isRejected : ((prepareDataElements modelId environment (.secured message) draws).run state).1 =
    .error (.status .dataMismatch)

/-! ### Taking the request back -/

theorem sniffEngineId_run (environment : Environment) (message : SecuredMessage)
    (state : Model) :
    ∃ after, (sniffEngineId environment message).run state = (.ok (), after) ∧
      after.cache = state.cache := by
  unfold sniffEngineId runIf
  rw [bind_run_of_ok (gets_run _ _)]
  split_ifs
  · exact ⟨_, modify_run _ _, rfl⟩
  · exact ⟨_, pure_run _ _, rfl⟩

theorem onCache_run {α : Type} (operation : CacheOp α) (state : Model) :
    (onCache operation).run state =
      ((operation.run state.cache).1, { state with cache := (operation.run state.cache).2 }) :=
  rfl

/-- Taking a request back returns it, with the cache as `popByMsgId` leaves it, or is a mismatch
where there is none, or stops at an index that disagrees. -/
theorem popRequest_cases (msgID : ℤ) (state : Model) :
    (∃ sent after, (popRequest msgID).run state = (.ok sent, after) ∧
        (popByMsgId msgID).run state.cache = (.ok sent, after.cache)) ∨
      (state.cache.msgIdIndex.lookup msgID = none ∧
        (popRequest msgID).run state = (.error (.status .dataMismatch), state)) ∨
      ((popRequest msgID).run state).1 = .error .keyError := by
  unfold popRequest
  cases hentry : state.cache.msgIdIndex.lookup msgID with
  | none =>
    have hmissing := popByMsgId_run_of_missing hentry
    refine Or.inr (Or.inl ⟨rfl, ?_⟩)
    rw [handle_run_of_error (by rw [onCache_run, hmissing])]
    rfl
  | some entry =>
    rcases ok_or_error (popByMsgId msgID) state.cache with
      ⟨sent, after, hok⟩ | ⟨exception, after, herror⟩
    · refine Or.inl ⟨sent, { state with cache := after }, ?_, hok⟩
      exact handle_run_of_ok (by rw [onCache_run, hok])
    · have hkey := popByMsgId_eq_error_of_indexed (by rw [hentry]; rfl) herror
      refine Or.inr (Or.inr ?_)
      rw [handle_run_of_error (by rw [onCache_run, herror]), hkey]
      rfl

theorem popRequest_run_of_missing {msgID : ℤ} {state : Model}
    (hmissing : state.cache.msgIdIndex.lookup msgID = none) :
    (popRequest msgID).run state = (.error (.status .dataMismatch), state) := by
  rcases popRequest_cases msgID state with ⟨_, _, _, hok⟩ | ⟨-, hrun⟩ | hkey
  · rw [popByMsgId_run_of_missing hmissing] at hok
    cases hok
  · exact hrun
  · unfold popRequest at hkey
    rw [handle_run_of_error (by rw [onCache_run, popByMsgId_run_of_missing hmissing])] at hkey
    cases hkey

/-! ### Every model takes the request back before it compares -/

/-- What a model makes of a message of the response class, given the request it took back. -/
def responseResult (modelId : ModelId) (message : SecuredMessage) (sent : SentRequest) :
    Except Raised PreparedMessage :=
  if modelId = .v3 ∧ message.pdu.pduType.isInternalClass then
    .error (.statusInformation (reportDetails message.pdu sent.sendPduHandle))
  else if agrees message sent then
    match modelId with
    | .v3 => .ok (prepared message 1 message.pdu (some sent.sendPduHandle) none)
    | .v1 | .v2c => .ok (prepared message message.msgVersion
        { message.pdu with requestID := sent.originalID } (some sent.sendPduHandle) none)
  else
    .error (.status .dataMismatch)

/-- Both community-based models take the request back and then compare. -/
theorem prepareSecuredV1_of_isResponse {modelId : ModelId} (hmodel : modelId ≠ .v3)
    (environment : Environment) {message : SecuredMessage} (draws : Draws) (state : Model)
    (hresponse : message.pdu.pduType.isResponseClass) :
    (prepareSecuredV1 environment message draws).run state =
      (popRequest message.pdu.requestID >>= fun sent ↦
        liftExcept (responseResult modelId message sent)).run state := by
  unfold prepareSecuredV1
  rw [if_pos hresponse]
  congr 2
  funext sent
  have hother : ¬ (modelId = .v3 ∧ message.pdu.pduType.isInternalClass = true) :=
    fun hboth ↦ hmodel hboth.1
  unfold responseResult
  rw [if_neg hother]
  by_cases hagrees : agrees message sent = true
  · rw [if_pos hagrees, if_pos hagrees]
    cases modelId with
    | v3 => exact absurd rfl hmodel
    | v1 => rfl
    | v2c => rfl
  · rw [if_neg hagrees, if_neg hagrees]
    rfl

/-- Every model begins with a response by taking back the request that it names, from a cache that
nothing has changed, and changes nothing after it. -/
theorem prepareDataElements_of_isResponse (modelId : ModelId) (environment : Environment)
    {message : SecuredMessage} (draws : Draws) (state : Model)
    (hresponse : message.pdu.pduType.isResponseClass) :
    ∃ first, first.cache = state.cache ∧
      (prepareDataElements modelId environment (.secured message) draws).run state =
        (popRequest (requestName modelId message) >>= fun sent ↦
          liftExcept (responseResult modelId message sent)).run first := by
  cases modelId with
  | v3 =>
    obtain ⟨first, hsniff, hcache⟩ := sniffEngineId_run environment message state
    refine ⟨first, hcache, ?_⟩
    show (prepareSecuredV3 environment message draws).run state = _
    unfold prepareSecuredV3
    rw [bind_run_of_ok hsniff, if_pos (Or.inl hresponse)]
    congr 2
    funext sent
    unfold responseResult
    by_cases hinternal : message.pdu.pduType.isInternalClass = true
    · rw [if_pos hinternal, if_pos ⟨rfl, hinternal⟩]
      rfl
    · have hother : ¬ (ModelId.v3 = .v3 ∧ message.pdu.pduType.isInternalClass = true) :=
        fun hboth ↦ hinternal hboth.2
      rw [if_neg hinternal, if_neg hother]
      by_cases hagrees : agrees message sent = true
      · rw [if_pos hagrees, if_pos hagrees]
        rfl
      · rw [if_neg hagrees, if_neg hagrees]
        rfl
  | v1 =>
    exact ⟨state, rfl, prepareSecuredV1_of_isResponse (by decide) environment draws state hresponse⟩
  | v2c =>
    exact ⟨state, rfl, prepareSecuredV1_of_isResponse (by decide) environment draws state hresponse⟩

/-- A response to a request that is not outstanding is rejected. -/
theorem prepareDataElements_of_not_holds {modelId : ModelId} {environment : Environment}
    {message : SecuredMessage} {draws : Draws} {state : Model}
    (hresponse : message.pdu.pduType.isResponseClass)
    (hmissing : ¬ Holds state (requestName modelId message)) :
    ((prepareDataElements modelId environment (.secured message) draws).run state).1 =
      .error (.status .dataMismatch) := by
  obtain ⟨first, hcache, hrun⟩ :=
    prepareDataElements_of_isResponse modelId environment draws state hresponse
  rw [Holds, Option.not_isSome_iff_eq_none, ← hcache] at hmissing
  rw [hrun, bind_run_of_error (popRequest_run_of_missing hmissing)]

/-- A rejected response consumes the request it names: the model does not hold it any more, and a
later message of the response class that names it is rejected, whoever sent it. -/
theorem not_holds_of_rejectsResponse {modelId : ModelId} {environment : Environment}
    {message : SecuredMessage} {draws : Draws} {state : Model}
    (hrejects : RejectsResponse modelId environment message draws state) :
    let after := ((prepareDataElements modelId environment (.secured message) draws).run state).2
    ¬ Holds after (requestName modelId message) ∧
      ∀ (genuine : SecuredMessage) (laterDraws : Draws), genuine.pdu.pduType.isResponseClass →
        requestName modelId genuine = requestName modelId message →
        ((prepareDataElements modelId environment (.secured genuine) laterDraws).run after).1 =
          .error (.status .dataMismatch) := by
  intro after
  have hconsumed : ¬ Holds after (requestName modelId message) := by
    obtain ⟨first, hcache, hrun⟩ :=
      prepareDataElements_of_isResponse modelId environment draws state hrejects.isResponse
    have hrejected := hrejects.isRejected
    have hheld := hrejects.isHeld
    rcases popRequest_cases (requestName modelId message) first with
      ⟨sent, popped, hpop, hcachePop⟩ | ⟨hmissing, -⟩ | hkey
    · obtain ⟨expireAt, -, -, -, hpopped⟩ := popByMsgId_eq_ok_iff.mp hcachePop
      have hafter : after = popped := by
        show ((prepareDataElements modelId environment (.secured message) draws).run state).2 = _
        rw [hrun, bind_run_of_ok hpop, liftExcept_run]
      rw [hafter, Holds, ← hpopped, withoutSent_msgIdIndex, AList.lookup_erase]
      exact Bool.false_ne_true
    · rw [Holds, ← hcache, hmissing] at hheld
      cases hheld
    · rcases ok_or_error (popRequest (requestName modelId message)) first with
        ⟨_, _, hok⟩ | ⟨exception, popped, herror⟩
      · rw [hok] at hkey
        cases hkey
      · rw [herror] at hkey
        rw [hrun, bind_run_of_error herror] at hrejected
        cases hkey
        cases hrejected
  exact ⟨hconsumed, fun genuine laterDraws hresponse hname ↦
    prepareDataElements_of_not_holds hresponse (by rwa [hname])⟩

/-! ### A forged response -/

/-- A request to the user `"u"`, outstanding under the identifier 7. -/
def outstandingRequest : SentRequest where
  sendPduHandle := 1
  originalID := 7
  snmpEngineID := [1]
  securityModel := 3
  securityName := [117]
  securityLevel := .noAuthNoPriv
  contextEngineId := [2]
  contextName := []
  peer := ⟨[1, 3], [10]⟩

/-- A model that has sent the request. -/
def waitingModel : Model :=
  { Model.initial with cache := CacheState.empty.withSent 7 outstandingRequest }

/-- A response to the request from another user, sent from anywhere. -/
def forgedResponse : SecuredMessage where
  msgVersion := 3
  msgID := 7
  reportableFlag := false
  msgMaxSize := 65507
  peer := ⟨[1, 3], [11]⟩
  securityModel := 3
  securityLevel := .noAuthNoPriv
  securityEngineId := [2]
  securityName := [118]
  contextEngineId := [2]
  contextName := []
  pdu := { pduType := .response, requestID := 7, varBinds := [] }
  maxSizeResponseScopedPDU := 65000
  securityStateReference := 1

/-- An engine. -/
def sampleEnvironment : Environment where
  snmpEngineID := [1]
  snmpEngineMaxMessageSize := 65507
  securityModels := fun _ ↦ true
  timerResolution := 1 / 2

theorem rejectsResponse_forgedResponse (modelId : ModelId) :
    RejectsResponse modelId sampleEnvironment forgedResponse ⟨1, 1⟩ waitingModel := by
  cases modelId
  · exact ⟨rfl, rfl, rfl⟩
  · exact ⟨rfl, rfl, rfl⟩
  · exact ⟨rfl, rfl, rfl⟩

/-- The genuine response after the forged one is rejected. -/
theorem not_holds_of_rejectsResponse_forgedResponse :
    ((prepareDataElements .v3 sampleEnvironment
      (.secured { forgedResponse with securityName := [117] }) ⟨2, 2⟩).run
        ((prepareDataElements .v3 sampleEnvironment (.secured forgedResponse) ⟨1, 1⟩).run
          waitingModel).2).1 = .error (.status .dataMismatch) :=
  (not_holds_of_rejectsResponse (rejectsResponse_forgedResponse .v3)).2
    { forgedResponse with securityName := [117] } ⟨2, 2⟩ rfl rfl

/-- In no model does every rejected response leave its request with a holder. -/
theorem not_exists_holds_of_rejectsResponse :
    ¬ ∃ modelId, ∀ environment message draws state,
      RejectsResponse modelId environment message draws state →
        Holds ((prepareDataElements modelId environment (.secured message) draws).run state).2
          (requestName modelId message) := by
  rintro ⟨modelId, hholds⟩
  have hheld := hholds sampleEnvironment forgedResponse ⟨1, 1⟩ waitingModel
    (rejectsResponse_forgedResponse modelId)
  cases modelId
  · cases hheld
  · cases hheld
  · cases hheld

end Pysnmp.Proto.Mpmod.RejectedMessage
