import Pysnmp.Proto.Mpmod.RejectedMessage
import Pysnmp.Proto.Mpmod.SentRequests

/-!
# What the models do to the requests they hold

The operations of a message processing model, seen from the dispatcher: preparing a message records
the request or changes nothing (`prepareOutgoingMessage_cases`), releasing a handle lets go of its
request (`releaseStateInformation_run`), and receiving a message lets go of the request that the
model names to the dispatcher, and of no other (`prepareDataElements_cases`). Only a rejected
response breaks the last of these: it takes its request and names none.
-/

set_option autoImplicit false
set_option relaxedAutoImplicit false

namespace Pysnmp.Proto.Mpmod.HeldRequests

open Foundation Foundation.Effect Cache MessageProcessing SentRequests RejectedMessage

/-! ### Releasing a handle -/

/-- The cache without the request of a handle. -/
structure ReleasesHandle (before after : CacheState) (sendPduHandle : ℕ) : Prop where
  consistent : Consistent after
  holdsHandle : ∀ other, HoldsHandle after other ↔
    other ≠ sendPduHandle ∧ HoldsHandle before other
  agedOut : ∀ other, other ≠ sendPduHandle → AgedOut before other → AgedOut after other
  leadsToOwn : LeadsToOwn after sendPduHandle

/-- Taking a request out of the cache releases its handle. -/
theorem releasesHandle_withoutSent {cache : CacheState} {msgId : ℤ} {sent : SentRequest}
    {expireAt : ℕ} (hconsistent : Consistent cache)
    (hentry : cache.msgIdIndex.lookup msgId = some (sent, expireAt)) :
    ReleasesHandle cache (cache.withoutSent msgId sent expireAt) sent.sendPduHandle where
  consistent := hconsistent.withoutSent hentry
  holdsHandle := holdsHandle_withoutSent_iff hconsistent hentry
  agedOut := fun _ hother haged ↦ haged.withoutSent hother
  leadsToOwn := by
    intro other request otherAt hhandle
    rw [withoutSent_sendPduHandleIdx, Dict.lookup_erase_ite, if_pos rfl] at hhandle
    cases hhandle

/-- A handle that no request holds is released already. -/
theorem releasesHandle_refl {cache : CacheState} {sendPduHandle : ℕ}
    (hconsistent : Consistent cache) (hown : LeadsToOwn cache sendPduHandle)
    (hunheld : ¬ HoldsHandle cache sendPduHandle) :
    ReleasesHandle cache cache sendPduHandle where
  consistent := hconsistent
  holdsHandle := fun other ↦ by
    refine ⟨fun hholds ↦ ⟨fun heq ↦ hunheld (heq ▸ hholds), hholds⟩, fun hboth ↦ hboth.2⟩
  agedOut := fun _ _ haged ↦ haged
  leadsToOwn := hown

/-- Releasing a handle that leads to no other request. -/
theorem releaseStateInformation_run {model : Model} {sendPduHandle : ℕ}
    (hconsistent : Consistent model.cache) (hown : LeadsToOwn model.cache sendPduHandle) :
    ∃ cache, (releaseStateInformation sendPduHandle).run model = (.ok (), { model with cache }) ∧
      ReleasesHandle model.cache cache sendPduHandle ∧
      (¬ HoldsHandle model.cache sendPduHandle → cache = model.cache) := by
  unfold releaseStateInformation
  rcases hconsistent.popBySendPduHandle_run hown with
    ⟨msgId, sent, expireAt, hentry, rfl, hrun⟩ | ⟨hunheld, result, hrun, hresult⟩
  · refine ⟨_, handle_run_of_ok (by rw [onCache_run, hrun]),
      releasesHandle_withoutSent hconsistent hentry, fun hunheld ↦ ?_⟩
    exact absurd ⟨msgId, sent, expireAt, hentry, rfl⟩ hunheld
  · refine ⟨model.cache, ?_, releasesHandle_refl hconsistent hown hunheld, fun _ ↦ rfl⟩
    rcases hresult with rfl | rfl
    · exact handle_run_of_ok (by rw [onCache_run, hrun])
    · rw [handle_run_of_error (by rw [onCache_run, hrun])]
      rfl

/-- Releasing any handle returns, and leaves the cache consistent. -/
theorem releaseStateInformation_run_of_consistent {model : Model} (sendPduHandle : ℕ)
    (hconsistent : Consistent model.cache) :
    ∃ cache, (releaseStateInformation sendPduHandle).run model = (.ok (), { model with cache }) ∧
      Consistent cache := by
  unfold releaseStateInformation
  cases hhandle : model.cache.sendPduHandleIdx.lookup sendPduHandle with
  | none =>
    have hpop : (popBySendPduHandle sendPduHandle).run model.cache = (.ok (), model.cache) := by
      unfold popBySendPduHandle
      rw [bind_run_of_ok (gets_run _ _), hhandle]
      rfl
    refine ⟨model.cache, handle_run_of_ok ?_, hconsistent⟩
    rw [onCache_run, hpop]
  | some msgId =>
    cases hentry : model.cache.msgIdIndex.lookup msgId with
    | none =>
      have hpop : (popBySendPduHandle sendPduHandle).run model.cache =
          (.error .protocolError, model.cache) := by
        unfold popBySendPduHandle
        rw [bind_run_of_ok (gets_run _ _), hhandle]
        simp only
        rw [bind_run_of_error (popByMsgId_run_of_missing hentry)]
      refine ⟨model.cache, ?_, hconsistent⟩
      rw [handle_run_of_error (by rw [onCache_run, hpop])]
      rfl
    | some entry =>
      obtain ⟨sent, expireAt⟩ := entry
      have hpop : (popBySendPduHandle sendPduHandle).run model.cache =
          (.ok (), model.cache.withoutSent msgId sent expireAt) := by
        unfold popBySendPduHandle
        rw [bind_run_of_ok (gets_run _ _), hhandle]
        simp only
        rw [bind_run_of_ok (hconsistent.popByMsgId_run hentry)]
        rfl
      refine ⟨_, handle_run_of_ok ?_, hconsistent.withoutSent hentry⟩
      rw [onCache_run, hpop]

/-! ### Preparing a request -/

/-- What the preparation of a message can fail with: a `StatusInformation` with an error indication,
what the security model fails with, or an identifier that is in use. -/
def PreparationError (securing : Securing) (msgID : ℤ) (model : Model) (exception : Raised) :
    Prop :=
  (∃ errorIndication, exception = .status errorIndication) ∨ securing.FailsWith exception ∨
    exception = .protocolError ∧ (model.cache.msgIdIndex.lookup msgID).isSome

/-- A request that could not be prepared ends in an exception of the package, if those of the
security model are. -/
theorem PreparationError.isPySnmpError {securing : Securing} {msgID : ℤ} {model : Model}
    {exception : Raised} (herror : PreparationError securing msgID model exception)
    (hsecures : ∀ exception, securing.FailsWith exception → exception.isPySnmpError) :
    exception.isPySnmpError := by
  rcases herror with ⟨_, rfl⟩ | hfails | ⟨rfl, -⟩
  · rfl
  · exact hsecures exception hfails
  · rfl

/-- Securing a request either fails and changes nothing, or gives the octets to send. -/
theorem secureRequest_cases (environment : Environment) (request : OutgoingRequest)
    (securing : Securing) (msgID : ℤ) (model : Model) :
    (∃ exception, (secureRequest environment request securing).run model =
        (.error exception, model) ∧ PreparationError securing msgID model exception) ∨
      ∃ wholeMsg, (secureRequest environment request securing).run model =
        (.ok wholeMsg, model) := by
  unfold secureRequest
  cases hassembled : securing.assembled with
  | error exception =>
    exact Or.inl ⟨exception, bind_run_of_error (liftExcept_run _ _),
      Or.inr (Or.inl (Or.inl hassembled))⟩
  | ok done =>
    rw [bind_run_of_ok (liftExcept_run _ _)]
    split_ifs
    · cases hgenerated : securing.generateRequestMsg with
      | error exception => exact Or.inl ⟨exception, rfl, Or.inr (Or.inl (Or.inr hgenerated))⟩
      | ok wholeMsg => exact Or.inr ⟨wholeMsg, rfl⟩
    · exact Or.inl ⟨_, rfl, Or.inl ⟨_, rfl⟩⟩

/-- A request with a response is recorded under the identifier drawn, unless that is in use. -/
theorem recordRequest_cases (request : OutgoingRequest) (sent : SentRequest) (securing : Securing)
    (msgID : ℤ) (model : Model) (hhandle : sent.sendPduHandle = request.sendPduHandle) :
    (∃ exception, (recordRequest request msgID sent).run model = (.error exception, model) ∧
        PreparationError securing msgID model exception) ∨
      ∃ after, (recordRequest request msgID sent).run model = (.ok (), after) ∧
        if request.pdu.pduType.isConfirmedClass then
          model.cache.msgIdIndex.lookup msgID = none ∧ ∃ sent,
            sent.sendPduHandle = request.sendPduHandle ∧
            after = { model with cache := model.cache.withSent msgID sent }
        else after = model := by
  unfold recordRequest runIf
  split_ifs
  · cases hentry : model.cache.msgIdIndex.lookup msgID with
    | none =>
      refine Or.inr ⟨_, ?_, rfl, sent, hhandle, rfl⟩
      rw [onCache_run, pushByMsgId_run_of_missing hentry]
    | some entry =>
      have hindexed : (model.cache.msgIdIndex.lookup msgID).isSome := by
        rw [hentry]
        rfl
      refine Or.inl ⟨.protocolError, ?_, Or.inr (Or.inr ⟨rfl, hindexed⟩)⟩
      rw [onCache_run, pushByMsgId_run_of_indexed hindexed]
  · exact Or.inr ⟨model, rfl, rfl⟩

/-- The preparation of a message fails and changes nothing, or records the request if it has a
response. -/
theorem prepareOutgoingMessage_cases (modelId : ModelId) (environment : Environment)
    (request : OutgoingRequest) (securing : Securing) (msgID : ℤ) (model : Model) :
    (∃ exception, (prepareOutgoingMessage modelId environment request securing msgID).run model =
        (.error exception, model) ∧ PreparationError securing msgID model exception) ∨
      ∃ wholeMsg after, (prepareOutgoingMessage modelId environment request securing msgID).run
          model = (.ok wholeMsg, after) ∧
        if request.pdu.pduType.isConfirmedClass then
          model.cache.msgIdIndex.lookup msgID = none ∧ ∃ sent,
            sent.sendPduHandle = request.sendPduHandle ∧
            after = { model with cache := model.cache.withSent msgID sent }
        else after = model := by
  have hsecure := secureRequest_cases environment request securing msgID model
  by_cases hv3 : modelId = .v3
  · subst hv3
    show (∃ exception, (prepareOutgoingMessageV3 environment request securing msgID).run model = _ ∧
      _) ∨ ∃ wholeMsg after,
        (prepareOutgoingMessageV3 environment request securing msgID).run model = _ ∧ _
    unfold prepareOutgoingMessageV3 checkMessageSize runIf
    rw [bind_run_of_ok (gets_run _ _)]
    rcases hsecure with ⟨exception, hrun, hclass⟩ | ⟨wholeMsg, hrun⟩
    · exact Or.inl ⟨exception, bind_run_of_error hrun, hclass⟩
    · rw [bind_run_of_ok hrun]
      by_cases hsize : environment.snmpEngineMaxMessageSize < wholeMsg.length
      · rw [if_pos hsize]
        exact Or.inl ⟨_, rfl, Or.inl ⟨_, rfl⟩⟩
      · rw [if_neg hsize, bind_run_of_ok (pure_run _ _)]
        rcases recordRequest_cases request (sentRequest environment request _ _) securing msgID
          model
            rfl with ⟨exception, hrecord, hclass⟩ | ⟨after, hrecord, hafter⟩
        · exact Or.inl ⟨exception, bind_run_of_error hrecord, hclass⟩
        · exact Or.inr ⟨wholeMsg, after, by rw [bind_run_of_ok hrecord, pure_run], hafter⟩
  · have hv1 : prepareOutgoingMessage modelId = prepareOutgoingMessageV1 := by
      cases modelId with
      | v1 => rfl
      | v2c => rfl
      | v3 => exact absurd rfl hv3
    rw [hv1]
    unfold prepareOutgoingMessageV1
    rcases hsecure with ⟨exception, hrun, hclass⟩ | ⟨wholeMsg, hrun⟩
    · exact Or.inl ⟨exception, bind_run_of_error hrun, hclass⟩
    · rw [bind_run_of_ok hrun]
      rcases recordRequest_cases request (sentRequest environment request _ _) securing msgID model
          rfl with ⟨exception, hrecord, hclass⟩ | ⟨after, hrecord, hafter⟩
      · exact Or.inl ⟨exception, bind_run_of_error hrecord, hclass⟩
      · exact Or.inr ⟨wholeMsg, after, by rw [bind_run_of_ok hrecord, pure_run], hafter⟩

/-- The preparation succeeds in SNMPv1 and SNMPv2c when the security model is there and secures the
message, and the identifier drawn is not in use. -/
theorem prepareOutgoingMessageV1_run_of_ok {environment : Environment} {request : OutgoingRequest}
    {securing : Securing} {msgID : ℤ} {model : Model} {wholeMsg : Octets}
    (hmodel : environment.securityModels request.securityModel)
    (hassembled : securing.assembled = .ok ())
    (hgenerated : securing.generateRequestMsg = .ok wholeMsg)
    (hmissing : model.cache.msgIdIndex.lookup msgID = none) :
    ∃ after, (prepareOutgoingMessageV1 environment request securing msgID).run model =
      (.ok wholeMsg, after) := by
  have hsecure :
      (secureRequest environment request securing).run model = (.ok wholeMsg, model) := by
    unfold secureRequest
    rw [hassembled, bind_run_of_ok (liftExcept_run _ _), if_pos hmodel, hgenerated, liftExcept_run]
  unfold prepareOutgoingMessageV1
  rw [bind_run_of_ok hsecure]
  unfold recordRequest runIf
  split_ifs
  · exact ⟨_, bind_run_of_ok (by rw [onCache_run, pushByMsgId_run_of_missing hmissing])⟩
  · exact ⟨_, bind_run_of_ok (pure_run _ _)⟩

/-! ### Messages that name no request -/

/-- The request that the outcome of `prepareDataElements` names. -/
def namedRequest : Except Raised PreparedMessage → Option ℕ
  | .ok message => message.sendPduHandle
  | .error (.statusInformation details) => details.sendPduHandle
  | .error _ => none

/-- Programs of a model that name no request of this engine, whether they return or raise. -/
def NamesNone (program : ModelOp PreparedMessage) : Prop :=
  Triple (fun _ ↦ True) program (fun message _ ↦ message.sendPduHandle = none)
    fun exception _ ↦ namedRequest (.error exception) = none

/-- What names no request has none to hand back. -/
theorem NamesNone.namedRequest_eq {program : ModelOp PreparedMessage}
    (hprogram : NamesNone program) (model : Model) :
    namedRequest (program.run model).1 = none := by
  rcases ok_or_error program model with ⟨message, after, hok⟩ | ⟨exception, after, herror⟩
  · rw [hok]
    exact (hprogram model trivial).1 message after hok
  · rw [herror]
    exact (hprogram model trivial).2 exception after herror

/-- A program that names no request when it raises, before one that never does. -/
theorem namesNone_bind {β : Type} {program : ModelOp β} {next : β → ModelOp PreparedMessage}
    (hprogram : Triple (fun _ ↦ True) program (fun _ _ ↦ True)
      fun exception _ ↦ namedRequest (.error exception) = none)
    (hnext : ∀ value, NamesNone (next value)) : NamesNone (program >>= next) :=
  hprogram.bind hnext

/-- An exception names no request unless it carries a handle. -/
theorem namesNone_raise {exception : Raised} (hnone : namedRequest (.error exception) = none) :
    NamesNone (raise exception) :=
  Triple.of_run fun _ _ ↦ hnone

/-- A message without a handle names no request. -/
theorem namesNone_pure {message : PreparedMessage} (hnone : message.sendPduHandle = none) :
    NamesNone (pure message) :=
  Triple.of_run fun _ _ ↦ hnone

/-- What the cache raises on a miss names no request. -/
theorem RaisesMisses.onCache_names_none {β : Type} {operation : CacheOp β}
    (hoperation : RaisesMisses operation) :
    Triple (fun _ ↦ True) (onCache operation) (fun _ _ ↦ True)
      fun exception _ ↦ namedRequest (.error exception) = none := by
  refine Triple.of_run fun model _ ↦ ?_
  rw [onCache_run]
  rcases ok_or_error operation model.cache with ⟨value, after, hok⟩ | ⟨exception, after, herror⟩
  · rw [hok]
    trivial
  · rw [herror]
    rcases (hoperation model.cache trivial).2 exception after herror with rfl | rfl
    · rfl
    · rfl

/-- A refusal names no request. -/
theorem namesNone_refusal (refusal : Refusal) : NamesNone (raise refusal.exception) := by
  refine namesNone_raise ?_
  cases hexception : refusal.exception with
  | statusInformation details => exact refusal.names_no_request details hexception
  | _ => rfl

/-- A message that is refused names none. -/
theorem namesNone_refuse (refusal : Refusal) : NamesNone (refuse refusal) := by
  unfold refuse
  cases refusal.report with
  | none => exact namesNone_refusal refusal
  | some report =>
    refine namesNone_bind ?_ fun _ ↦ namesNone_refusal refusal
    refine (RaisesMisses.onCache_names_none (raisesMisses_pushByStateRef _ _)).bind fun _ ↦
      (RaisesMisses.onCache_names_none (raisesMisses_popByStateRef _)).bind fun _ ↦ ?_
    split
    · exact triple_pure () fun _ _ ↦ True
    · next exception hother _ =>
      refine Triple.of_run fun _ _ ↦ ?_
      cases exception with
      | statusInformation details => exact absurd rfl (hother details)
      | _ => rfl
    · exact triple_pure () fun _ _ ↦ True

/-- A request from a peer names no request of this engine. -/
theorem namesNone_prepareRequest (environment : Environment) (message : SecuredMessage)
    (pduVersion : ℕ) (pdu : Pdu) (served : ServedRequest) (draws : Draws) :
    NamesNone (prepareRequest environment message pduVersion pdu served draws) := by
  unfold prepareRequest
  split_ifs
  · refine namesNone_bind ?_ fun _ ↦
      namesNone_bind (RaisesMisses.onCache_names_none (raisesMisses_pushByStateRef _ _))
        fun _ ↦ namesNone_pure rfl
    unfold runIf
    split_ifs
    · exact Triple.of_run fun _ _ ↦ rfl
    · exact triple_pure () fun _ _ ↦ True
  · exact namesNone_pure rfl
  · exact namesNone_raise rfl

/-! ### What a received message does to a model -/

/-- The model has the same sent requests before and after. -/
def SameRequests (before after : Model) : Prop :=
  SameSent before.cache after.cache

instance : Std.Refl SameRequests :=
  ⟨fun model ↦ refl_of SameSent model.cache⟩

instance : IsTrans Model SameRequests :=
  ⟨fun _ _ _ hfirst hsecond ↦ trans_of SameSent hfirst hsecond⟩

/-- What keeps the cached requests keeps those of the model. -/
theorem sameRequests_onCache {β : Type} {operation : CacheOp β}
    (hoperation : Keeps SameSent operation) : Keeps SameRequests (onCache operation) :=
  hoperation.focus fun _ _ hsame ↦ hsame

/-- A refusal keeps the requests. -/
theorem sameRequests_refuse (refusal : Refusal) : Keeps SameRequests (refuse refusal) := by
  unfold refuse
  cases refusal.report with
  | none => exact keeps_raise _
  | some report =>
    refine Keeps.bind ?_ fun _ ↦ keeps_raise _
    refine (sameRequests_onCache (sameSent_pushByStateRef _ _)).bind fun _ ↦
      (sameRequests_onCache (sameSent_popByStateRef _)).bind fun _ ↦ ?_
    split
    · exact keeps_pure ()
    · exact keeps_raise _
    · exact keeps_pure ()

/-- Serving a peer's request keeps the requests of this engine. -/
theorem sameRequests_prepareRequest (environment : Environment) (message : SecuredMessage)
    (pduVersion : ℕ) (pdu : Pdu) (served : ServedRequest) (draws : Draws) :
    Keeps SameRequests (prepareRequest environment message pduVersion pdu served draws) := by
  unfold prepareRequest
  split_ifs
  · exact (keeps_raise _).runIf.bind fun _ ↦
      (sameRequests_onCache (sameSent_pushByStateRef _ _)).bind fun _ ↦ keeps_pure _
  · exact keeps_pure _
  · exact keeps_raise _

/-- Recording an engine identifier keeps the requests. -/
theorem sameRequests_sniffEngineId (environment : Environment) (message : SecuredMessage) :
    Keeps SameRequests (sniffEngineId environment message) := by
  refine (keeps_gets _).bind fun known ↦ Keeps.runIf ?_
  exact keeps_modify fun model ↦ refl_of SameSent model.cache

/-- A message that is no response neither names a request nor changes one. -/
theorem prepareDataElements_of_not_isResponse (modelId : ModelId) (environment : Environment)
    {message : SecuredMessage} (draws : Draws)
    (hresponse : ¬ message.pdu.pduType.isResponseClass) :
    NamesNone (prepareDataElements modelId environment (.secured message) draws) ∧
      Keeps SameRequests
        (prepareDataElements modelId environment (.secured message) draws) := by
  have hinternal : ¬ message.pdu.pduType.isInternalClass := by
    intro hinternal
    cases htype : message.pdu.pduType <;>
      simp_all [PduType.isResponseClass, PduType.isInternalClass]
  have hv1 : NamesNone (prepareSecuredV1 environment message draws) ∧
      Keeps SameRequests (prepareSecuredV1 environment message draws) := by
    unfold prepareSecuredV1
    rw [if_neg hresponse]
    split_ifs
    · exact ⟨namesNone_prepareRequest _ _ _ _ _ _, sameRequests_prepareRequest _ _ _ _ _ _⟩
    · exact ⟨namesNone_prepareRequest _ _ _ _ _ _, sameRequests_prepareRequest _ _ _ _ _ _⟩
  cases modelId with
  | v3 =>
    show NamesNone (prepareSecuredV3 environment message draws) ∧
      Keeps SameRequests (prepareSecuredV3 environment message draws)
    unfold prepareSecuredV3
    rw [if_neg (by simp [hresponse, hinternal])]
    constructor
    · refine namesNone_bind ?_ fun _ ↦ namesNone_prepareRequest _ _ _ _ _ _
      refine Triple.of_run fun model _ ↦ ?_
      obtain ⟨after, hrun, -⟩ := sniffEngineId_run environment message model
      rw [hrun]
      trivial
    · exact (sameRequests_sniffEngineId environment message).bind
        fun _ ↦ sameRequests_prepareRequest _ _ _ _ _ _
  | v1 => exact hv1
  | v2c => exact hv1

/-- A response names the request it answers, or fails in its data. -/
theorem namedRequest_responseResult (modelId : ModelId) (message : SecuredMessage)
    (sent : SentRequest) :
    namedRequest (responseResult modelId message sent) = some sent.sendPduHandle ∨
      responseResult modelId message sent = .error (.status .dataMismatch) := by
  unfold responseResult
  split_ifs
  · refine Or.inl ?_
    unfold reportDetails
    cases message.pdu.varBinds with
    | nil => rfl
    | cons _ _ => rfl
  · cases modelId with
    | v1 => exact Or.inl rfl
    | v2c => exact Or.inl rfl
    | v3 => exact Or.inl rfl
  · exact Or.inr rfl

/-- A model that receives a message either names no request and holds the same ones as before, or
makes the result of a response to a request that it held, and lets go of that. -/
theorem prepareDataElements_result (modelId : ModelId) (environment : Environment)
    (incoming : IncomingMessage) (draws : Draws) {model : Model}
    (hconsistent : Consistent model.cache) :
    let result := (prepareDataElements modelId environment incoming draws).run model
    (namedRequest result.1 = none ∧ SameSent model.cache result.2.cache) ∨
      ∃ message sent expireAt, incoming = .secured message ∧
        message.pdu.pduType.isResponseClass ∧
        model.cache.msgIdIndex.lookup (requestName modelId message) = some (sent, expireAt) ∧
        result.1 = responseResult modelId message sent ∧
        ReleasesHandle model.cache result.2.cache sent.sendPduHandle := by
  intro result
  have hnone : NamesNone (prepareDataElements modelId environment incoming draws) ∧
      Keeps SameRequests (prepareDataElements modelId environment incoming draws) →
        namedRequest result.1 = none ∧ SameSent model.cache result.2.cache :=
    fun hboth ↦ ⟨hboth.1.namedRequest_eq model, hboth.2 model⟩
  cases incoming with
  | refused refusal =>
    refine Or.inl (hnone ?_)
    cases modelId with
    | v3 => exact ⟨namesNone_refuse refusal, sameRequests_refuse refusal⟩
    | v1 => exact ⟨namesNone_refusal refusal, keeps_raise _⟩
    | v2c => exact ⟨namesNone_refusal refusal, keeps_raise _⟩
  | secured message =>
    by_cases hresponse : message.pdu.pduType.isResponseClass
    · obtain ⟨first, hcache, hrun⟩ :=
        prepareDataElements_of_isResponse modelId environment draws model hresponse
      cases hentry : model.cache.msgIdIndex.lookup (requestName modelId message) with
      | none =>
        rw [← hcache] at hentry
        have hmiss : result = (.error (.status .dataMismatch), first) := by
          show (prepareDataElements modelId environment (.secured message) draws).run model = _
          rw [hrun, bind_run_of_error (popRequest_run_of_missing hentry)]
        rw [hmiss]
        refine Or.inl ⟨rfl, ?_⟩
        show SameSent model.cache first.cache
        rw [hcache]
        exact refl_of SameSent model.cache
      | some entry =>
        obtain ⟨sent, expireAt⟩ := entry
        have hpop := hconsistent.popByMsgId_run hentry
        have hresult : result = (responseResult modelId message sent,
            { first with
              cache := model.cache.withoutSent (requestName modelId message) sent expireAt }) := by
          show (prepareDataElements modelId environment (.secured message) draws).run model = _
          rw [hrun]
          unfold popRequest
          rw [bind_run_of_ok (handle_run_of_ok (by rw [onCache_run, hcache, hpop])),
            liftExcept_run]
        rw [hresult]
        exact Or.inr ⟨message, sent, expireAt, rfl, hresponse, hentry, rfl,
          releasesHandle_withoutSent hconsistent hentry⟩
    · exact Or.inl
        (hnone (prepareDataElements_of_not_isResponse modelId environment draws hresponse))

/-- A model that receives a message either names no request and holds the same ones as before, or
lets go of a request that it held and names it, unless it rejects the message. -/
theorem prepareDataElements_cases (modelId : ModelId) (environment : Environment)
    (incoming : IncomingMessage) (draws : Draws) {model : Model}
    (hconsistent : Consistent model.cache) :
    let result := (prepareDataElements modelId environment incoming draws).run model
    (namedRequest result.1 = none ∧ SameSent model.cache result.2.cache) ∨
      ∃ sendPduHandle, HoldsHandle model.cache sendPduHandle ∧
        ReleasesHandle model.cache result.2.cache sendPduHandle ∧
        (namedRequest result.1 = some sendPduHandle ∨
          ∃ message, incoming = .secured message ∧
            RejectsResponse modelId environment message draws model) := by
  intro result
  rcases prepareDataElements_result modelId environment incoming draws hconsistent with
    hnone | ⟨message, sent, expireAt, rfl, hresponse, hentry, hresult, hreleases⟩
  · exact Or.inl hnone
  · refine Or.inr ⟨sent.sendPduHandle, ⟨_, sent, expireAt, hentry, rfl⟩, hreleases, ?_⟩
    rcases namedRequest_responseResult modelId message sent with hnamed | hmismatch
    · show namedRequest ((prepareDataElements _ _ _ _).run model).1 = _ ∨ _
      rw [hresult]
      exact Or.inl hnamed
    · refine Or.inr ⟨message, rfl, hresponse, ?_, by rw [hresult, hmismatch]⟩
      rw [Holds, hentry]
      rfl

/-! ### Ageing -/

/-- Forgetting a peer keeps the requests. -/
theorem sameRequests_deletePeer (peer : Peer) : Keeps SameRequests (deletePeer peer) := by
  refine (keeps_gets _).bind fun entry ↦ ?_
  cases entry with
  | none => exact keeps_raise _
  | some _ => exact keeps_modify fun model ↦ refl_of SameSent model.cache

/-- A tick lets requests of the cache expire and adds none. -/
theorem ages_receiveTimerTick (modelId : ModelId) {model : Model}
    (hconsistent : Consistent model.cache) :
    Ages model.cache ((receiveTimerTick modelId).run model).2.cache := by
  cases modelId with
  | v1 => exact hconsistent.ages_expireCaches
  | v2c => exact hconsistent.ages_expireCaches
  | v3 =>
    have hengines : Keeps SameRequests expireEnginesInfo := by
      refine (keeps_gets _).bind fun peers ↦ ?_
      refine (Keeps.forEach fun peer _ ↦ sameRequests_deletePeer peer).bind fun _ ↦ ?_
      exact keeps_modify fun model ↦ refl_of SameSent model.cache
    show Ages model.cache
      ((expireEnginesInfo >>= fun _ ↦ onCache expireCaches).run model).2.cache
    rcases ok_or_error expireEnginesInfo model with ⟨_, after, hok⟩ | ⟨_, after, herror⟩
    · have hsame : SameSent model.cache after.cache := hengines.of_run hok
      rw [bind_run_of_ok hok, onCache_run]
      exact hsame.ages.trans (hsame.consistent hconsistent).ages_expireCaches
    · rw [bind_run_of_error herror]
      exact SameSent.ages (hengines.of_run herror)

end Pysnmp.Proto.Mpmod.HeldRequests
