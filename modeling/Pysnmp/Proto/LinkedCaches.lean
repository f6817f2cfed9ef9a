import Pysnmp.Foundation.Run
import Pysnmp.Proto.V3Exchange

/-!
# The two caches of an engine

Message processing keeps the requests that are served under its state references, and each of them
with the reference under which the security model keeps the user of the request. `Linked` says that
what the one refers to the other has: the user whose security name the request was accepted under,
for each request another entry. Sending, answering, receiving and expiring keep it
(`CachesLinked.perform`), whatever messages arrive and in whatever order, as long as the references
that the security model draws are not in use. So whatever request is answered, the security model
finds its user, and the answer goes to the peer that the request was accepted from
(`answers_of_run`).
-/

set_option autoImplicit false
set_option relaxedAutoImplicit false

namespace Pysnmp.Proto.LinkedCaches

open Foundation Foundation.Effect Mpmod Mpmod.Cache Mpmod.CacheHistory Mpmod.MessageProcessing
open Secmod.UsmService hiding reportDetails
open Secmod.UsmOutgoing hiding receiveTimerTick
open Secmod.UsmExchange Secmod.WireFormat V3Engine V3Exchange

/-! ### Linked entries -/

/-- The requests that are served, by state reference. -/
abbrev ServedIndex := ℕ → Option (ServedRequest × ℕ)

/-- To each request that is served there is the user whose security name it has, and no two requests
share an entry. -/
structure Linked (index : ServedIndex) (cacheEntries : ℕ → Option CachedSecurityData) : Prop where
  cached : ∀ stateReference served expireAt, index stateReference = some (served, expireAt) →
    ∃ msgUserName user, cacheEntries served.securityStateReference =
        some ⟨msgUserName, some user⟩ ∧ served.securityName = some user.usmUserSecurityName
  apart : ∀ first second servedFirst servedSecond expireFirst expireSecond,
    index first = some (servedFirst, expireFirst) →
    index second = some (servedSecond, expireSecond) →
    servedFirst.securityStateReference = servedSecond.securityStateReference → first = second

section Linked

variable {index indexAfter : ServedIndex}
  {cacheEntries cacheEntriesAfter : ℕ → Option CachedSecurityData}

/-- Requests may go, with the entries of the others as they are. -/
theorem Linked.mono (hlinked : Linked index cacheEntries)
    (hindex : ∀ stateReference served expireAt,
      indexAfter stateReference = some (served, expireAt) →
      index stateReference = some (served, expireAt) ∧
        cacheEntriesAfter served.securityStateReference =
          cacheEntries served.securityStateReference) :
    Linked indexAfter cacheEntriesAfter where
  cached := fun stateReference served expireAt hserved ↦ by
    obtain ⟨hbefore, hentry⟩ := hindex stateReference served expireAt hserved
    rw [hentry]
    exact hlinked.cached stateReference served expireAt hbefore
  apart := fun first second _ _ _ _ hfirst hsecond hsame ↦
    hlinked.apart first second _ _ _ _ (hindex _ _ _ hfirst).1 (hindex _ _ _ hsecond).1 hsame

/-- An entry that no request refers to may change. -/
theorem Linked.update (hlinked : Linked index cacheEntries) {reference : ℕ}
    {data : Option CachedSecurityData}
    (hunused : ∀ stateReference served expireAt, index stateReference = some (served, expireAt) →
      served.securityStateReference ≠ reference) :
    Linked index (Function.update cacheEntries reference data) :=
  hlinked.mono fun stateReference served expireAt hserved ↦
    ⟨hserved, Function.update_of_ne (hunused stateReference served expireAt hserved) _ _⟩

/-- No request refers to an entry that is not there. -/
theorem Linked.unused (hlinked : Linked index cacheEntries) {reference : ℕ}
    (hnone : cacheEntries reference = none) :
    ∀ stateReference served expireAt, index stateReference = some (served, expireAt) →
      served.securityStateReference ≠ reference := by
  intro stateReference served expireAt hserved hsame
  obtain ⟨_, _, hentry, -⟩ := hlinked.cached stateReference served expireAt hserved
  rw [hsame, hnone] at hentry
  cases hentry

/-- A request may come with an entry that no other request refers to. -/
theorem Linked.insert (hlinked : Linked index cacheEntries) {stateReference expireAt : ℕ}
    {served : ServedRequest} {msgUserName : Octets} {user : UsmUser}
    (hunused : ∀ other servedOther expireOther, index other = some (servedOther, expireOther) →
      servedOther.securityStateReference ≠ served.securityStateReference)
    (hentry : cacheEntries served.securityStateReference = some ⟨msgUserName, some user⟩)
    (hname : served.securityName = some user.usmUserSecurityName) :
    Linked (Function.update index stateReference (some (served, expireAt))) cacheEntries where
  cached := by
    intro other servedOther expireOther hother
    rw [Function.update_apply] at hother
    split_ifs at hother
    · cases hother
      exact ⟨msgUserName, user, hentry, hname⟩
    · exact hlinked.cached other servedOther expireOther hother
  apart := by
    intro first second servedFirst servedSecond expireFirst expireSecond hfirst hsecond hsame
    rw [Function.update_apply] at hfirst hsecond
    split_ifs at hfirst hsecond with hnewFirst hnewSecond hnewSecond
    · exact hnewFirst.trans hnewSecond.symm
    · cases hfirst
      exact absurd hsame.symm (hunused second _ _ hsecond)
    · cases hsecond
      exact absurd hsame (hunused first _ _ hfirst)
    · exact hlinked.apart first second _ _ _ _ hfirst hsecond hsame

end Linked

/-- The requests that an engine serves. -/
def servedIndex (state : EngineState) : ServedIndex :=
  fun stateReference ↦ state.model.cache.stateReferenceIndex.lookup stateReference

/-- The caches of an engine are linked. -/
def CachesLinked (state : EngineState) : Prop :=
  Linked (servedIndex state) state.usm.cacheEntries

/-! ### What the security model does to its cache -/

section Security

variable {sender : UsmSender}

/-- The state is the same before and after. -/
def Unchanged (before after : UsmState) : Prop :=
  after = before

instance : Std.Refl Unchanged :=
  ⟨fun _ ↦ rfl⟩

instance : IsTrans UsmState Unchanged :=
  ⟨fun _ _ _ hfirst hsecond ↦ hsecond.trans hfirst⟩

theorem unchanged_orSerializationError {α : Type} (encoded : Except Unit α) :
    Keeps Unchanged (orSerializationError encoded) := by
  cases encoded with
  | ok value => exact keeps_pure _
  | error error => exact keeps_raise _

theorem unchanged_orServiceError {α : Type}
    (result : Except Secmod.DigestPlacement.ServiceError α) :
    Keeps Unchanged (orServiceError result) := by
  unfold orServiceError
  split
  · exact keeps_pure _
  · exact keeps_raise _
  · exact keeps_raise _
  · exact keeps_raise _

/-- Encryption changes no state of the model. -/
theorem unchanged_encryptScopedPdu (selected : Selected) (times : ℕ × ℕ) :
    Keeps Unchanged (encryptScopedPdu sender selected times) := by
  refine Keeps.ite ?_ (keeps_pure _)
  split
  · exact keeps_raise _
  · exact (unchanged_orSerializationError _).bind fun _ ↦
      (unchanged_orServiceError _).bind fun _ ↦ keeps_pure _

/-- Nor does authentication. -/
theorem unchanged_authenticateOutgoing (selected : Selected) (parameters : OutgoingParameters)
    (scopedPduData : ScopedPduData) :
    Keeps Unchanged (authenticateOutgoing sender selected parameters scopedPduData) := by
  refine Keeps.ite ?_ (unchanged_orSerializationError _)
  split
  · exact keeps_raise _
  · exact (unchanged_orSerializationError _).bind fun _ ↦ unchanged_orServiceError _

theorem unchanged_engineTimes (selected : Selected) (pduType : PduType) :
    Keeps Unchanged (engineTimes sender selected pduType) := by
  intro state
  rw [engineTimes_run]
  exact rfl

/-- Of the state, making a message changes what selecting its user does. -/
theorem generateRequestOrResponseMsg_run_snd (outgoing : Outgoing) (state : UsmState) :
    ((generateRequestOrResponseMsg sender outgoing).run state).2 =
      ((selectUser sender outgoing).run state).2 := by
  have hrest : ∀ selected : Selected, Keeps Unchanged (do
      checkUserLevel selected
      let times ← engineTimes sender selected outgoing.pduType
      let carried ← encryptScopedPdu sender selected times
      let parameters : OutgoingParameters :=
        { msgAuthoritativeEngineId := selected.securityEngineID
          msgAuthoritativeEngineBoots := times.1
          msgAuthoritativeEngineTime := times.2
          msgUserName := selected.user.usmUserName
          msgPrivacyParameters := carried.2 }
      let authenticatedWholeMsg ← authenticateOutgoing sender selected parameters carried.1
      pure (⟨parameters, authenticatedWholeMsg⟩ : OutgoingMessage)) := fun selected ↦
    (Keeps.ite (keeps_raise _) (keeps_pure _)).bind fun _ ↦
      (unchanged_engineTimes _ _).bind fun _ ↦ (unchanged_encryptScopedPdu _ _).bind fun _ ↦
        (unchanged_authenticateOutgoing _ _ _).bind fun _ ↦ keeps_pure _
  rcases ok_or_error (selectUser sender outgoing) state with
    ⟨selected, after, hok⟩ | ⟨exception, after, herror⟩
  · unfold generateRequestOrResponseMsg
    rw [bind_run_of_ok hok, hok]
    exact hrest selected after
  · unfold generateRequestOrResponseMsg
    rw [bind_run_of_error herror, herror]

/-- The cache is the same before and after. -/
def SameCache (before after : UsmState) : Prop :=
  after.cacheEntries = before.cacheEntries

instance : Std.Refl SameCache :=
  ⟨fun _ ↦ rfl⟩

instance : IsTrans UsmState SameCache :=
  ⟨fun _ _ _ hfirst hsecond ↦ hsecond.trans hfirst⟩

/-- Finding a user enters no security data. -/
theorem sameCache_findUser (securityEngineID securityName : Octets) :
    Keeps SameCache (findUser sender securityEngineID securityName) := by
  have hinvalid : Keeps SameCache (raiseInvalidMsg : Usm UsmUser) :=
    Keeps.bind (fun _ ↦ rfl) fun _ ↦ keeps_raise _
  unfold findUser
  split
  · exact keeps_pure _
  · exact hinvalid
  · split
    · exact keeps_pure _
    · exact hinvalid
    · unfold cloneUser
      split
      · split
        · exact keeps_pure _
        · exact keeps_raise _
        · exact keeps_raise _
      · exact keeps_raise _

/-- Making a message drops the entry that it is made from, if it is. -/
theorem generateRequestOrResponseMsg_cacheEntries (outgoing : Outgoing) (state : UsmState) :
    ((generateRequestOrResponseMsg sender outgoing).run state).2.cacheEntries =
      match outgoing.securityStateReference with
      | none => state.cacheEntries
      | some reference => Function.update state.cacheEntries reference none := by
  rw [generateRequestOrResponseMsg_run_snd]
  cases hreference : outgoing.securityStateReference with
  | none =>
    unfold selectUser
    rw [hreference]
    dsimp only
    split_ifs
    · rfl
    · exact (sameCache_findUser _ _).bind (fun _ ↦ keeps_pure _) state
  | some reference =>
    cases hcached : state.cacheEntries reference with
    | none =>
      have hmiss : (cachedUser reference).run state =
          (.error (.protocolError "Cache miss for stateReference"), state) := by
        unfold cachedUser
        rw [bind_run_of_ok (gets_run _ _), hcached]
        rfl
      have hselect : (selectUser sender outgoing).run state =
          (.error (.protocolError "Cache miss for stateReference"), state) := by
        unfold selectUser
        rw [hreference]
        exact bind_run_of_error hmiss
      rw [hselect, ← hcached]
      exact (Function.update_eq_self _ _).symm
    | some cached => rw [selectUser_response hreference hcached]

end Security

/-! ### What message processing does to its references -/

section Processing

/-- No request is served that was not served before. -/
def ServesNoMore (before after : Model) : Prop :=
  ∀ stateReference entry,
    after.cache.stateReferenceIndex.lookup stateReference = some entry →
    before.cache.stateReferenceIndex.lookup stateReference = some entry

instance : Std.Refl ServesNoMore :=
  ⟨fun _ _ _ hentry ↦ hentry⟩

instance : IsTrans Model ServesNoMore :=
  ⟨fun _ _ _ hfirst hsecond stateReference entry hentry ↦
    hfirst stateReference entry (hsecond stateReference entry hentry)⟩

/-- The index of the requests that are served only loses entries. -/
def LosesServed (before after : CacheState) : Prop :=
  ∀ stateReference entry, after.stateReferenceIndex.lookup stateReference = some entry →
    before.stateReferenceIndex.lookup stateReference = some entry

instance : Std.Refl LosesServed :=
  ⟨fun _ _ _ hentry ↦ hentry⟩

instance : IsTrans CacheState LosesServed :=
  ⟨fun _ _ _ hfirst hsecond stateReference entry hentry ↦
    hfirst stateReference entry (hsecond stateReference entry hentry)⟩

theorem losesServed_modify {change : CacheState → CacheState}
    (hchange : ∀ cache, (change cache).stateReferenceIndex = cache.stateReferenceIndex) :
    Keeps LosesServed (modify change : CacheOp Unit) :=
  keeps_modify fun cache _ _ hentry ↦ by rwa [hchange cache] at hentry

theorem losesServed_deleteStateReference (stateReference : ℕ) :
    Keeps LosesServed (deleteStateReference stateReference) := by
  refine (keeps_gets _).bind fun found ↦ ?_
  cases found with
  | none => exact keeps_raise _
  | some _ =>
    refine keeps_modify fun cache other entry hentry ↦ ?_
    simp only [Dict.lookup_erase_ite] at hentry
    split_ifs at hentry
    exact hentry

theorem losesServed_deleteMsgId (msgId : ℤ) : Keeps LosesServed (deleteMsgId msgId) := by
  refine (keeps_gets _).bind fun found ↦ ?_
  cases found with
  | none => exact keeps_raise _
  | some _ => exact losesServed_modify fun _ ↦ rfl

/-- Taking a sent request out serves no request more. -/
theorem losesServed_popByMsgId (msgId : ℤ) : Keeps LosesServed (popByMsgId msgId) := by
  refine (keeps_gets _).bind fun found ↦ ?_
  cases found with
  | none => exact keeps_raise _
  | some entry =>
    refine Keeps.bind ((keeps_gets _).bind fun handle ↦ ?_) fun _ ↦
      (losesServed_deleteMsgId msgId).bind fun _ ↦ Keeps.bind ((keeps_gets _).bind fun _ ↦
        Keeps.ite (losesServed_modify fun _ ↦ rfl) (keeps_raise _)) fun _ ↦ keeps_pure _
    cases handle with
    | none => exact keeps_raise _
    | some _ => exact losesServed_modify fun _ ↦ rfl

theorem losesServed_popBySendPduHandle (sendPduHandle : ℕ) :
    Keeps LosesServed (popBySendPduHandle sendPduHandle) := by
  refine (keeps_gets _).bind fun found ↦ ?_
  cases found with
  | none => exact keeps_pure _
  | some msgId => exact (losesServed_popByMsgId msgId).bind fun _ ↦ keeps_pure _

/-- Keeping a sent request serves no request more. -/
theorem losesServed_pushByMsgId (msgId : ℤ) (msgInfo : SentRequest) :
    Keeps LosesServed (pushByMsgId msgId msgInfo) := by
  refine (keeps_gets _).bind fun found ↦ ?_
  cases found with
  | none => exact losesServed_modify fun _ ↦ rfl
  | some _ => exact keeps_raise _

/-- A tick serves no request more. -/
theorem losesServed_expireCaches : Keeps LosesServed expireCaches :=
  (keeps_gets _).bind fun _ ↦
    (Keeps.forEach fun stateReference _ ↦ losesServed_deleteStateReference stateReference).bind
      fun _ ↦ (Keeps.forEach fun msgId _ ↦ losesServed_deleteMsgId msgId).bind
        fun _ ↦ losesServed_modify fun _ ↦ rfl

theorem servesNoMore_onCache {α : Type} {operation : CacheOp α}
    (hoperation : Keeps LosesServed operation) : Keeps ServesNoMore (onCache operation) :=
  fun model ↦ hoperation model.cache

theorem servesNoMore_modify {change : Model → Model}
    (hchange : ∀ model, (change model).cache = model.cache) :
    Keeps ServesNoMore (modify change : ModelOp Unit) :=
  keeps_modify fun model _ _ hentry ↦ by rwa [hchange model] at hentry

/-- Sending a request serves no request more. -/
theorem servesNoMore_prepareOutgoingMessageV3 (environment : Environment)
    (request : OutgoingRequest) (securing : Securing) (msgID : ℤ) :
    Keeps ServesNoMore (prepareOutgoingMessageV3 environment request securing msgID) :=
  (keeps_gets _).bind fun _ ↦
    Keeps.bind ((keeps_liftExcept _).bind fun _ ↦
      Keeps.ite (keeps_liftExcept _) (keeps_raise _)) fun _ ↦
      (Keeps.runIf (keeps_raise _)).bind fun _ ↦
        (Keeps.runIf (servesNoMore_onCache (losesServed_pushByMsgId _ _))).bind fun _ ↦
          keeps_pure _

theorem servesNoMore_popRequest (msgID : ℤ) : Keeps ServesNoMore (popRequest msgID) :=
  (servesNoMore_onCache (losesServed_popByMsgId msgID)).handle fun exception ↦ by
    cases exception with
    | protocolError | statusInformation details | pySnmpError | pyAsn1Error | keyError | typeError
      | attributeError | otherError => exact keeps_raise _

theorem servesNoMore_releaseStateInformation (sendPduHandle : ℕ) :
    Keeps ServesNoMore (releaseStateInformation sendPduHandle) :=
  (servesNoMore_onCache (losesServed_popBySendPduHandle sendPduHandle)).handle
    fun exception ↦ by
      cases exception with
      | protocolError | statusInformation details => exact keeps_pure _
      | pySnmpError | pyAsn1Error | keyError | typeError | attributeError | otherError =>
        exact keeps_raise _

/-- A timer tick serves no request more. -/
theorem servesNoMore_receiveTimerTick :
    Keeps ServesNoMore (Mpmod.MessageProcessing.receiveTimerTick .v3) := by
  have hdelete : ∀ peer, Keeps ServesNoMore (deletePeer peer) := by
    intro peer
    refine (keeps_gets _).bind fun known ↦ ?_
    cases known with
    | none => exact keeps_raise _
    | some _ => exact servesNoMore_modify fun _ ↦ rfl
  have hexpire : Keeps ServesNoMore expireEnginesInfo :=
    (keeps_gets _).bind fun _ ↦ (Keeps.forEach fun peer _ ↦ hdelete peer).bind fun _ ↦
      servesNoMore_modify fun _ ↦ rfl
  exact hexpire.bind fun _ ↦ servesNoMore_onCache losesServed_expireCaches

/-- Taking back a request that is served takes its reference out of use, also where the queue does
not have it. -/
theorem popByStateRef_cases (stateReference : ℕ) (cache : CacheState) :
    cache.stateReferenceIndex.lookup stateReference = none ∧
        (popByStateRef stateReference).run cache = (.error .protocolError, cache) ∨
      ∃ served expireAt after,
        cache.stateReferenceIndex.lookup stateReference = some (served, expireAt) ∧
        after.stateReferenceIndex = cache.stateReferenceIndex.erase stateReference ∧
        ((popByStateRef stateReference).run cache = (.ok served, after) ∨
          (popByStateRef stateReference).run cache = (.error .keyError, after)) := by
  cases hentry : cache.stateReferenceIndex.lookup stateReference with
  | none => exact Or.inl ⟨rfl, popByStateRef_run_of_missing hentry⟩
  | some entry =>
    obtain ⟨served, expireAt⟩ := entry
    right
    by_cases hlisted : stateReference ∈ (cache.expirationQueue expireAt).stateReferences
    · exact ⟨served, expireAt, _, rfl, rfl, Or.inl (popByStateRef_run hentry hlisted)⟩
    · refine ⟨served, expireAt, { cache with
        stateReferenceIndex := cache.stateReferenceIndex.erase stateReference }, rfl, rfl,
        Or.inr ?_⟩
      unfold popByStateRef unscheduleStateReference
      rw [bind_run_of_ok (gets_run _ _), hentry]
      dsimp only
      rw [bind_run_of_ok (deleteStateReference_run (Option.isSome_of_eq_some hentry)), bind_bind,
        bind_run_of_ok (gets_run _ _), if_neg hlisted]
      rfl

/-- How an accepted message ends in message processing: it is a request that is served now, under a
reference that was not in use, or no more requests are served than before. -/
theorem prepareSecuredV3_served (environment : Environment) (message : SecuredMessage)
    (draws : Draws) (model : Model) :
    let ran := (prepareSecuredV3 environment message draws).run model
    ServesNoMore model ran.2 ∨
      message.pdu.pduType.isConfirmedClass = true ∧
        ran.1 = .ok (prepared message 1 message.pdu none (some draws.stateReference)) ∧
        ∃ expireAt, ∀ stateReference,
          ran.2.cache.stateReferenceIndex.lookup stateReference =
            if stateReference = draws.stateReference then
              some (servedRequest message message.msgID none message.msgMaxSize, expireAt)
            else
              model.cache.stateReferenceIndex.lookup stateReference := by
  dsimp only
  obtain ⟨sniffed, hsniff, hcache⟩ := RejectedMessage.sniffEngineId_run environment message model
  unfold prepareSecuredV3
  rw [bind_run_of_ok hsniff]
  by_cases hresponse : message.pdu.pduType.isResponseClass ∨ message.pdu.pduType.isInternalClass
  · rw [if_pos hresponse]
    left
    have hkeeps : Keeps ServesNoMore (popRequest message.msgID >>= fun cachedReqParams ↦
        if message.pdu.pduType.isInternalClass then
          (raise (.statusInformation (Mpmod.MessageProcessing.reportDetails message.pdu
            cachedReqParams.sendPduHandle)) : ModelOp PreparedMessage)
        else if agrees message cachedReqParams then
          pure (prepared message 1 message.pdu (some cachedReqParams.sendPduHandle) none)
        else
          raise (.status .dataMismatch)) :=
      (servesNoMore_popRequest _).bind fun _ ↦
        Keeps.ite (keeps_raise _) (Keeps.ite (keeps_pure _) (keeps_raise _))
    intro stateReference entry hentry
    have hbefore := hkeeps sniffed stateReference entry hentry
    rwa [hcache] at hbefore
  · rw [if_neg hresponse]
    unfold prepareRequest
    have hsame : ServesNoMore model sniffed := fun _ _ hentry ↦ by rwa [hcache] at hentry
    split_ifs with hconfirmed hunconfirmed
    · by_cases hengine : message.securityEngineId ≠ environment.snmpEngineID
      · rw [runIf_of_true _ hengine, bind_run_of_error (raise_run _ _)]
        exact Or.inl hsame
      · rw [runIf_of_false _ hengine, pure_bind]
        cases hindex : sniffed.cache.stateReferenceIndex.lookup draws.stateReference with
        | some entry =>
          have hpush : (onCache (pushByStateRef draws.stateReference
              (servedRequest message message.msgID none message.msgMaxSize))).run sniffed =
                (.error .protocolError, sniffed) := by
            rw [RejectedMessage.onCache_run]
            unfold pushByStateRef
            rw [bind_run_of_ok (gets_run _ _), hindex]
            rfl
          rw [bind_run_of_error hpush]
          exact Or.inl hsame
        | none =>
          have hpush := pushByStateRef_run_of_missing
            (servedRequest message message.msgID none message.msgMaxSize) hindex
          rw [bind_run_of_ok (by rw [RejectedMessage.onCache_run, hpush]), pure_run]
          refine Or.inr ⟨hconfirmed, rfl, sniffed.cache.expirationTimer + 600,
            fun stateReference ↦ ?_⟩
          simp only [Dict.lookup_insert_ite, hcache]
    · exact Or.inl hsame
    · exact Or.inl hsame

/-- A refused message leaves no more requests to serve. -/
theorem servesNoMore_refuse (refusal : Refusal) : Keeps ServesNoMore (refuse refusal) := by
  intro model
  unfold refuse
  cases refusal.report with
  | none => exact refl_of ServesNoMore model
  | some report =>
    refine Keeps.bind (fun model ↦ ?_) (fun _ ↦ keeps_raise _) model
    cases hindex : model.cache.stateReferenceIndex.lookup report.stateReference with
    | some entry =>
      have hpush : (onCache (pushByStateRef report.stateReference report.served)).run model =
          (.error .protocolError, model) := by
        rw [RejectedMessage.onCache_run]
        unfold pushByStateRef
        rw [bind_run_of_ok (gets_run _ _), hindex]
        rfl
      unfold sendReport
      rw [bind_run_of_error hpush]
      exact refl_of ServesNoMore model
    | none =>
      obtain ⟨pushed, popped, hpush, hpop, hpopped⟩ := push_popByStateRef_run report.served hindex
      obtain ⟨result, hresult⟩ : ∃ result : Except Raised Unit,
          failureOf result = report.failure := by
        cases report.failure with
        | none => exact ⟨.ok (), rfl⟩
        | some exception => exact ⟨.error exception, rfl⟩
      have hsent := sendReport_run result hpush hpop
      rw [hresult] at hsent
      rw [show (sendReport report).run model = _ from hsent]
      intro stateReference entry hentry
      exact (hpopped stateReference).symm.trans hentry

/-- How a message ends in an engine: it is a request that is served now, or no more requests are
served than before. -/
theorem receiveMessage_served (engine : Engine) (clock : Clock) (draws : Draws) (peer : Peer)
    (wholeMsg : Octets) (state : EngineState) :
    let ran := (receiveMessage engine clock draws peer wholeMsg).run state
    ServesNoMore state.model ran.2.model ∨
      ∃ message : SecuredMessage, message.peer = peer ∧
        ran.1 = .ok (prepared message 1 message.pdu none (some draws.stateReference)) ∧
        ∃ expireAt, ∀ stateReference,
          ran.2.model.cache.stateReferenceIndex.lookup stateReference =
            if stateReference = draws.stateReference then
              some (servedRequest message message.msgID none message.msgMaxSize, expireAt)
            else
              state.model.cache.stateReferenceIndex.lookup stateReference := by
  dsimp only
  rcases receiveMessage_refines engine clock draws peer wholeMsg state with
    ⟨_, -, hmodel⟩ | ⟨incoming, hpeer, hprepare⟩
  · left
    rw [hmodel]
    exact refl_of ServesNoMore state.model
  · cases incoming with
    | refused refusal =>
      left
      have hrefuse := servesNoMore_refuse refusal state.model
      rw [show (refuse refusal).run state.model = _ from hprepare] at hrefuse
      exact hrefuse
    | secured message =>
      rcases prepareSecuredV3_served engine.environment message draws state.model with
        hfewer | ⟨-, hok, hindex⟩
      · left
        rw [show (prepareSecuredV3 engine.environment message draws).run state.model = _ from
          hprepare] at hfewer
        exact hfewer
      · right
        rw [show (prepareSecuredV3 engine.environment message draws).run state.model = _ from
          hprepare] at hok hindex
        exact ⟨message, hpeer, hok, hindex⟩

end Processing

/-! ### Steps of an engine -/

/-- No more requests are served, and the cache of the security model is as it was. -/
structure KeepsLinks (before after : EngineState) : Prop where
  model : ServesNoMore before.model after.model
  cacheEntries : after.usm.cacheEntries = before.usm.cacheEntries

instance : Std.Refl KeepsLinks :=
  ⟨fun state ↦ ⟨refl_of ServesNoMore state.model, rfl⟩⟩

instance : IsTrans EngineState KeepsLinks :=
  ⟨fun _ _ _ hfirst hsecond ↦ ⟨trans_of ServesNoMore hfirst.model hsecond.model,
    hsecond.cacheEntries.trans hfirst.cacheEntries⟩⟩

section Steps

variable {state : EngineState}

/-- The caches stay linked where no request is served anew and no security data is lost. -/
theorem KeepsLinks.cachesLinked {after : EngineState} (hkeeps : KeepsLinks state after)
    (hlinked : CachesLinked state) : CachesLinked after :=
  hlinked.mono fun stateReference _ _ hserved ↦
    ⟨hkeeps.model stateReference _ hserved, congrFun hkeeps.cacheEntries _⟩

theorem keepsLinks_onModel {α : Type} {program : ModelOp α}
    (hprogram : Keeps ServesNoMore program) : Keeps KeepsLinks (onModel program) :=
  fun state ↦ ⟨hprogram state.model, rfl⟩

theorem keepsLinks_onUsm {α : Type} {program : Usm α} (hprogram : Keeps SameCache program) :
    Keeps KeepsLinks (onUsm program) :=
  fun state ↦ ⟨refl_of ServesNoMore state.model, hprogram state.usm⟩

/-- Sending a request keeps the links. -/
theorem keepsLinks_sendRequest (engine : Engine) (request : OutgoingRequest) (msgID : ℤ) :
    Keeps KeepsLinks (sendRequest engine request msgID) := by
  refine (keeps_gets _).bind fun peerEngine ↦ Keeps.bind (fun state ↦ ?_) fun message ↦
    (keepsLinks_onModel (servesNoMore_prepareOutgoingMessageV3 _ _ _ _)).bind fun _ ↦
      Keeps.bind (fun state ↦ ⟨refl_of ServesNoMore state.model, rfl⟩) fun _ ↦ keeps_pure _
  have hsecure : Keeps KeepsLinks (secureBy engine request.securityModel
      (generateRequestMsg engine.sender (outgoingRequest engine request peerEngine msgID))) :=
    Keeps.ite (keepsLinks_onUsm fun usm ↦
      @generateRequestOrResponseMsg_cacheEntries engine.sender _ usm) (keeps_raise _)
  exact hsecure state

/-- Answering a request leaves the cache of the security model, or drops the entry of the
request. -/
theorem answerRequest_cacheEntries (engine : Engine) (cachedParams : ServedRequest)
    (pdu : Option Pdu) (reporting : Option Reporting) (state : EngineState) :
    let after := ((answerRequest engine cachedParams pdu reporting).run state).2
    after.usm.cacheEntries = state.usm.cacheEntries ∨ after.usm.cacheEntries =
      Function.update state.usm.cacheEntries cachedParams.securityStateReference none := by
  dsimp only
  unfold answerRequest
  cases answerOf engine cachedParams pdu reporting with
  | error exception => exact Or.inl rfl
  | ok answer =>
    rw [bind_run_of_ok (liftExcept_run _ _)]
    have hrest : ∀ message : OutgoingMessage, Keeps (fun before after : EngineState ↦
        after.usm = before.usm) (do
          checkAnswerSize engine cachedParams message.authenticatedWholeMsg
          transmit cachedParams.peer message.authenticatedWholeMsg
          pure message.authenticatedWholeMsg) := by
      intro message before
      unfold checkAnswerSize runIf
      split_ifs
      · rfl
      · rfl
    have hmade := @generateRequestOrResponseMsg_cacheEntries engine.sender
      (outgoingAnswer engine cachedParams answer) state.usm
    unfold secureBy
    split_ifs
    · right
      rcases ok_or_error (onUsm (generateRequestOrResponseMsg engine.sender
          (outgoingAnswer engine cachedParams answer))) state with
        ⟨message, after, hok⟩ | ⟨exception, after, herror⟩
      · rw [bind_run_of_ok hok, hrest message after]
        rw [onUsm_run] at hok
        cases (Prod.mk.inj hok).2
        exact hmade
      · rw [bind_run_of_error herror]
        rw [onUsm_run] at herror
        cases (Prod.mk.inj herror).2
        exact hmade
    · exact Or.inl rfl

/-- Answering keeps the caches linked: the request and its security data go together. -/
theorem CachesLinked.prepareResponse (hlinked : CachesLinked state) (engine : Engine)
    (stateReference : ℕ) (pdu : Option Pdu) (reporting : Option Reporting) :
    CachesLinked ((prepareResponse engine stateReference pdu reporting).run state).2 := by
  rw [prepareResponse_eq]
  rcases popByStateRef_cases stateReference state.model.cache with
    ⟨-, hpop⟩ | ⟨served, expireAt, cache, hserved, herase, hpop | hpop⟩
  · rw [bind_run_of_error (by rw [onModel_run, RejectedMessage.onCache_run, hpop])]
    exact hlinked
  · let popped : EngineState := { state with model := { state.model with cache := cache } }
    have hrun : (onModel (onCache (popByStateRef stateReference))).run state =
        (.ok served, popped) := by
      rw [onModel_run, RejectedMessage.onCache_run, hpop]
    rw [bind_run_of_ok hrun]
    have hmodel := sameModel_answerRequest engine served pdu reporting popped
    refine hlinked.mono fun other servedOther expireOther hother ↦ ?_
    rw [servedIndex, hmodel] at hother
    simp only [popped, herase, Dict.lookup_erase_ite] at hother
    split_ifs at hother with hne
    refine ⟨hother, ?_⟩
    rcases answerRequest_cacheEntries engine served pdu reporting popped with hsame | hdropped
    · exact congrFun hsame _
    · rw [hdropped]
      exact Function.update_of_ne
        (fun hsame ↦ hne (hlinked.apart other stateReference _ _ _ _ hother hserved hsame)) _ _
  · rw [bind_run_of_error (by rw [onModel_run, RejectedMessage.onCache_run, hpop])]
    refine hlinked.mono fun other servedOther expireOther hother ↦ ?_
    simp only [servedIndex, herase, Dict.lookup_erase_ite] at hother
    split_ifs at hother
    exact ⟨hother, rfl⟩

/-- What is reported carries the reference of its security data. -/
theorem securityStateReference_of_reported {details : StatusInformation} {oid : Oid}
    {reported : Reported} (hreported : reportedOf details oid = some reported) :
    details.securityStateReference = some reported.securityStateReference := by
  unfold reportedOf at hreported
  cases hreference : details.securityStateReference with
  | none =>
    rw [hreference] at hreported
    cases hval : details.val with
    | none => simp [hval] at hreported
    | some val => simp [hval] at hreported
  | some reference =>
    rw [hreference] at hreported
    simp only [Option.bind_eq_bind, Option.bind_some, Option.bind_eq_some_iff,
      Option.pure_def] at hreported
    obtain ⟨_, -, _, -, _, -, _, -, heq⟩ := hreported
    cases heq
    rfl

/-- A report about a refused message leaves the requests that are served as they are, and drops no
entry but the one that the refusal names. -/
theorem reportRefusal_links (engine : Engine) (globalData : GlobalData)
    (securityLevel : SecurityLevel) (peer : Peer) (stateReference : ℕ)
    (details : StatusInformation) (state : EngineState) :
    let after := ((reportRefusal engine globalData securityLevel peer stateReference details).run
      state).2
    ServesNoMore state.model after.model ∧
      (after.usm.cacheEntries = state.usm.cacheEntries ∨
        ∃ reference, details.securityStateReference = some reference ∧
          after.usm.cacheEntries = Function.update state.usm.cacheEntries reference none) := by
  dsimp only
  have hrefl : ServesNoMore state.model state.model := refl_of ServesNoMore state.model
  cases hoid : details.oid with
  | none =>
    unfold reportRefusal
    simp only [hoid]
    exact ⟨hrefl, Or.inl rfl⟩
  | some oid =>
    cases hreported : reportedOf details oid with
    | none =>
      unfold reportRefusal
      simp only [hoid, hreported]
      exact ⟨hrefl, Or.inl rfl⟩
    | some reported =>
      cases hindex : state.model.cache.stateReferenceIndex.lookup stateReference with
      | some entry =>
        rw [(reportRefusal_run_of_used hoid hreported hindex).1]
        exact ⟨hrefl, Or.inl rfl⟩
      | none =>
        obtain ⟨popped, hpopped, hrun, -⟩ :=
          @reportRefusal_run_of_unused engine globalData securityLevel peer stateReference details
            oid reported state hoid hreported hindex
        rw [hrun]
        refine ⟨fun other entry hentry ↦ ?_, ?_⟩
        · rw [sameModel_answerRequest engine _ _ _ { state with model := popped },
            hpopped] at hentry
          exact hentry
        · rcases answerRequest_cacheEntries engine
              (refusedRequest globalData securityLevel peer reported) (refusedPdu engine details)
              (some (reportingOf details reported)) { state with model := popped } with
            hsame | hdropped
          · exact Or.inl hsame
          · exact Or.inr ⟨reported.securityStateReference,
              securityStateReference_of_reported hreported, hdropped⟩

/-- The references that the security model can draw for the next message are not in use. -/
def DrawsUnused (engine : Engine) (usm : UsmState) : Prop :=
  usm.cacheEntries (engine.sender.engine.stateReference usm.drawnReferences) = none ∧
    usm.cacheEntries (engine.sender.engine.stateReference (usm.drawnReferences + 1)) = none

/-- A message whose security parameters do not decode is refused without a reference. -/
theorem handedReference_of_undecoded {engine : UsmEngine} {arrival : Arrival} {usm : UsmState}
    (hundecoded : Secmod.UsmAcceptance.messageParameters engine arrival = none) :
    Secmod.StateReferences.handedReference ((processIncomingMsg engine arrival).run usm).1 =
      none := by
  obtain ⟨error, hread, hnone⟩ : ∃ error,
      (readSecurityParameters engine arrival).run usm = (.error error, usm) ∧
        Secmod.StateReferences.raisedReference error = none := by
    unfold Secmod.UsmAcceptance.messageParameters at hundecoded
    unfold readSecurityParameters
    split at hundecoded
    · next hdecoded =>
      rw [hdecoded, hundecoded]
      exact ⟨_, rfl, rfl⟩
    · next hdecoded =>
      rw [hdecoded]
      exact ⟨_, rfl, rfl⟩
  have hidentify : (identifyMessage engine arrival).run usm = (.error error, usm) :=
    bind_run_of_error hread
  rw [Secmod.StateReferences.processIncomingMsg_eq, bind_run_of_error hidentify]
  exact hnone

/-- What the security model leaves of a message in its cache: at most one entry more, under a
reference that was not in use, and the reference that is handed on is that one. -/
theorem processIncomingMsg_entries {engine : Engine} {arrival : Arrival} {usm : UsmState}
    (hunused : DrawsUnused engine usm) :
    let ran := (processIncomingMsg engine.sender.engine arrival).run usm
    ∃ reference data, usm.cacheEntries reference = none ∧
      ran.2.cacheEntries = Function.update usm.cacheEntries reference data ∧
      ∀ handed, Secmod.StateReferences.handedReference ran.1 = some handed →
        handed = reference := by
  dsimp only
  let reception : Secmod.UsmTimeline.Reception := ⟨engine.sender.engine, arrival⟩
  cases hparameters : Secmod.UsmAcceptance.messageParameters engine.sender.engine arrival with
  | some parameters =>
    obtain ⟨reference, data, hnone, hentries, hhanded⟩ :=
      @Secmod.StateReferences.outcome_of_parameters usm reception parameters hunused hparameters
    refine ⟨reference, some data, hnone, hentries, fun handed hhand ↦ ?_⟩
    rcases hhanded with ⟨hdropped, -⟩ | ⟨hkept, -⟩
    · exact absurd (hdropped.symm.trans hhand) (Option.some_ne_none _).symm
    · exact Option.some.inj (hhand.symm.trans hkept)
  | none =>
    have hentries : ((processIncomingMsg engine.sender.engine arrival).run usm).2.cacheEntries =
        usm.cacheEntries :=
      @Secmod.StateReferences.cacheEntries_of_undecoded usm reception hparameters
    refine ⟨_, none, hunused.1, ?_, fun handed hhand ↦ ?_⟩
    · rw [hentries, ← hunused.1]
      exact (Function.update_eq_self _ _).symm
    · rw [handedReference_of_undecoded hparameters] at hhand
      cases hhand

/-- Delivering a message keeps the caches linked, if no other request refers to the entry of the
message. -/
theorem CachesLinked.deliver (hlinked : CachesLinked state) (engine : Engine)
    (message : SecuredMessage) (draws : Draws) {msgUserName : Octets} {user : UsmUser}
    (hunused : ∀ stateReference served expireAt,
      servedIndex state stateReference = some (served, expireAt) →
      served.securityStateReference ≠ message.securityStateReference)
    (hentry : state.usm.cacheEntries message.securityStateReference =
      some ⟨msgUserName, some user⟩)
    (hname : message.securityName = user.usmUserSecurityName) :
    CachesLinked ((deliver engine message draws).run state).2 := by
  rw [deliver_run hentry]
  rcases prepareSecuredV3_served engine.environment message draws state.model with
    hfewer | ⟨hconfirmed, hok, expireAt, hindex⟩
  · have hmodel : CachesLinked { state with
        model := ((prepareSecuredV3 engine.environment message draws).run state.model).2 } :=
      hlinked.mono fun stateReference _ _ hserved ↦ ⟨hfewer stateReference _ hserved, rfl⟩
    unfold releasedState
    split_ifs
    · exact hmodel.update fun stateReference served expireAt hserved ↦
        hunused stateReference served expireAt (hfewer stateReference _ hserved)
    · exact hmodel
  · have hkept : ¬ Releases message
        ((prepareSecuredV3 engine.environment message draws).run state.model).1 := by
      rw [hok]
      exact not_not.mpr hconfirmed
    unfold releasedState
    rw [if_neg hkept]
    have hinserted : Linked (Function.update (servedIndex state) draws.stateReference
        (some (servedRequest message message.msgID none message.msgMaxSize, expireAt)))
          state.usm.cacheEntries := hlinked.insert hunused hentry (congrArg some hname)
    refine hinserted.mono fun stateReference served expireOther hserved ↦ ⟨?_, rfl⟩
    rw [Function.update_apply]
    exact (hindex stateReference).symm.trans hserved

/-- A message keeps the caches linked, as its references are not in use. -/
theorem CachesLinked.processMessage (hlinked : CachesLinked state) (engine : Engine)
    (clock : Clock) (draws : Draws) (peer : Peer) (wholeMsg : Octets) (receivedMsg : ReceivedMsg)
    (securityLevel : SecurityLevel) (hdraws : DrawsUnused engine state.usm) :
    CachesLinked ((processMessage engine clock draws peer wholeMsg receivedMsg securityLevel).run
      state).2 := by
  obtain ⟨reference, data, hnone, hentries, hhanded⟩ := @processIncomingMsg_entries engine
    (arrivalOf receivedMsg wholeMsg securityLevel clock) state.usm hdraws
  have hunused := hlinked.unused hnone
  rcases ok_or_error (processIncomingMsg engine.sender.engine
      (arrivalOf receivedMsg wholeMsg securityLevel clock)) state.usm with
    ⟨accepted, after, hok⟩ | ⟨exception, after, herror⟩
  · rw [hok] at hentries hhanded
    have hbefore : CachesLinked { state with usm := after } := by
      unfold CachesLinked
      rw [hentries]
      exact hlinked.update hunused
    obtain ⟨msgUserName, user, hentry, hname⟩ := processIncomingMsg_cached hok
    have hreference : accepted.securityStateReference = reference := hhanded _ rfl
    have hdelivered := hbefore.deliver engine
      (securedMessage engine receivedMsg.globalData securityLevel peer accepted) draws
      (fun stateReference served expireAt hserved ↦ by
        change served.securityStateReference ≠ accepted.securityStateReference
        rw [hreference]
        exact hunused stateReference served expireAt hserved) hentry hname
    rw [processMessage_run_of_accepted hok]
    rw [deliver_run (show ({ state with usm := after } : EngineState).usm.cacheEntries _ = _
      from hentry)] at hdelivered
    exact hdelivered
  · rw [herror] at hentries hhanded
    have hbefore : CachesLinked { state with usm := after } := by
      unfold CachesLinked
      rw [hentries]
      exact hlinked.update hunused
    by_cases hstatus : ∃ details, exception = .statusInformation details
    · obtain ⟨details, rfl⟩ := hstatus
      obtain ⟨hmodel, hcache⟩ := reportRefusal_links engine receivedMsg.globalData securityLevel
        peer draws.stateReference details { state with usm := after }
      rw [processMessage_run_of_refused herror, bind_raise_run rfl]
      refine hbefore.mono fun stateReference served expireAt hserved ↦
        ⟨hmodel stateReference _ hserved, ?_⟩
      rcases hcache with hsame | ⟨named, hnamed, hdropped⟩
      · exact congrFun hsame _
      · rw [hdropped, hhanded named hnamed]
        exact Function.update_of_ne (hunused stateReference served expireAt
          (hmodel stateReference _ hserved)) _ _
    · rw [processMessage_run_of_escaped herror (not_exists.mp hstatus)]
      exact hbefore

/-- So does whatever arrives, decoded or not. -/
theorem CachesLinked.receiveMessage (hlinked : CachesLinked state) (engine : Engine)
    (clock : Clock) (draws : Draws) (peer : Peer) (wholeMsg : Octets)
    (hdraws : DrawsUnused engine state.usm) :
    CachesLinked ((receiveMessage engine clock draws peer wholeMsg).run state).2 := by
  unfold V3Engine.receiveMessage
  split
  · exact hlinked
  · exact hlinked
  · next receivedMsg _ =>
    split_ifs
    · split
      · exact hlinked
      · next securityLevel _ =>
        exact hlinked.processMessage engine clock draws peer wholeMsg receivedMsg securityLevel
          hdraws
    · exact hlinked

end Steps

/-! ### Runs -/

/-- What happens to an engine: it sends a request, answers one, receives a message, gives up a
request, or its timer ticks. The engine that does it may be another at each step, as its tables, its
clock and its boots go on. -/
inductive Call
  | sendRequest (engine : Engine) (request : OutgoingRequest) (msgID : ℤ)
  | prepareResponse (engine : Engine) (stateReference : ℕ) (pdu : Option Pdu)
      (reporting : Option Reporting)
  | receiveMessage (engine : Engine) (clock : Clock) (draws : Draws) (peer : Peer)
      (wholeMsg : Octets)
  | releaseStateInformation (sendPduHandle : ℕ)
  | receiveTimerTick

/-- The state after a step, whether it raises or not. -/
def perform (state : EngineState) : Call → EngineState
  | .sendRequest engine request msgID => ((sendRequest engine request msgID).run state).2
  | .prepareResponse engine stateReference pdu reporting =>
    ((prepareResponse engine stateReference pdu reporting).run state).2
  | .receiveMessage engine clock draws peer wholeMsg =>
    ((receiveMessage engine clock draws peer wholeMsg).run state).2
  | .releaseStateInformation sendPduHandle =>
    ((onModel (Mpmod.MessageProcessing.releaseStateInformation sendPduHandle)).run state).2
  | .receiveTimerTick => (V3Engine.receiveTimerTick.run state).2

/-- A message that is received draws references that are not in use. -/
def Draws (state : EngineState) : Call → Prop
  | .receiveMessage engine _ _ _ _ => DrawsUnused engine state.usm
  | _ => True

section Runs

variable {state : EngineState}

/-- A new engine serves nothing. -/
theorem cachesLinked_initial : CachesLinked .initial where
  cached := fun _ _ _ hserved ↦ nomatch hserved
  apart := fun _ _ _ _ _ _ hfirst ↦ nomatch hfirst

/-- A step keeps the caches linked. -/
theorem CachesLinked.perform (hlinked : CachesLinked state) {call : Call}
    (hdraws : LinkedCaches.Draws state call) : CachesLinked (perform state call) := by
  cases call with
  | sendRequest engine request msgID =>
    exact (keepsLinks_sendRequest engine request msgID state).cachesLinked hlinked
  | prepareResponse engine stateReference pdu reporting =>
    exact hlinked.prepareResponse engine stateReference pdu reporting
  | receiveMessage engine clock draws peer wholeMsg =>
    exact hlinked.receiveMessage engine clock draws peer wholeMsg hdraws
  | releaseStateInformation sendPduHandle =>
    exact (keepsLinks_onModel (servesNoMore_releaseStateInformation sendPduHandle)
      state).cachesLinked
      hlinked
  | receiveTimerTick =>
    have hexpire : Keeps SameCache Secmod.UsmOutgoing.receiveTimerTick := fun _ ↦ rfl
    have htick : Keeps KeepsLinks V3Engine.receiveTimerTick := (keepsLinks_onUsm hexpire).bind
      fun _ ↦ keepsLinks_onModel servesNoMore_receiveTimerTick
    exact (htick state).cachesLinked hlinked

/-- A request that is served was served before, or it is the message that has just been received,
which was accepted. -/
theorem served_of_perform {call : Call} {stateReference : ℕ} {served : ServedRequest}
    {expireAt : ℕ}
    (hserved : servedIndex (perform state call) stateReference = some (served, expireAt)) :
    servedIndex state stateReference = some (served, expireAt) ∨
      ∃ engine clock draws wholeMsg prepared,
        call = .receiveMessage engine clock draws served.peer wholeMsg ∧
        ((receiveMessage engine clock draws served.peer wholeMsg).run state).1 = .ok prepared ∧
        prepared.stateReference = some stateReference ∧
        served.securityName = some prepared.securityName := by
  cases call with
  | sendRequest engine request msgID =>
    exact Or.inl ((keepsLinks_sendRequest engine request msgID state).model _ _ hserved)
  | releaseStateInformation sendPduHandle =>
    exact Or.inl (servesNoMore_releaseStateInformation sendPduHandle state.model _ _ hserved)
  | receiveTimerTick =>
    exact Or.inl (servesNoMore_receiveTimerTick state.model _ _ hserved)
  | prepareResponse engine other pdu reporting =>
    left
    rw [perform, servedIndex, prepareResponse_eq] at hserved
    rcases popByStateRef_cases other state.model.cache with
      ⟨-, hpop⟩ | ⟨found, _, cache, -, herase, hpop | hpop⟩
    · rw [bind_run_of_error (by rw [onModel_run, RejectedMessage.onCache_run, hpop])] at hserved
      exact hserved
    · let popped : EngineState := { state with model := { state.model with cache := cache } }
      have hrun : (onModel (onCache (popByStateRef other))).run state = (.ok found, popped) := by
        rw [onModel_run, RejectedMessage.onCache_run, hpop]
      rw [bind_run_of_ok hrun, sameModel_answerRequest engine found pdu reporting popped] at hserved
      simp only [popped, herase, Dict.lookup_erase_ite] at hserved
      split_ifs at hserved
      exact hserved
    · rw [bind_run_of_error (by rw [onModel_run, RejectedMessage.onCache_run, hpop])] at hserved
      simp only [herase, Dict.lookup_erase_ite] at hserved
      split_ifs at hserved
      exact hserved
  | receiveMessage engine clock draws peer wholeMsg =>
    rcases receiveMessage_served engine clock draws peer wholeMsg state with
      hfewer | ⟨message, hpeer, hok, expireOther, hindex⟩
    · exact Or.inl (hfewer _ _ hserved)
    · have hother := (hindex stateReference).symm.trans hserved
      split_ifs at hother with hdrawn
      · right
        cases hother
        refine ⟨engine, clock, draws, wholeMsg,
          prepared message 1 message.pdu none (some draws.stateReference), ?_, ?_,
          congrArg some hdrawn.symm, rfl⟩
        · rw [← hpeer]
          rfl
        · rw [← hpeer] at hok
          exact hok
      · exact Or.inl hother

/-- What is served at the end of a run is a message that was received in it and accepted, from the
peer it is kept with and under the security name it is kept with. -/
theorem served_of_run {calls : List Call} {stateReference : ℕ} {served : ServedRequest}
    {expireAt : ℕ}
    (hserved : servedIndex (calls.foldl perform .initial) stateReference =
      some (served, expireAt)) :
    ∃ before rest engine clock draws wholeMsg prepared,
      calls = before ++ .receiveMessage engine clock draws served.peer wholeMsg :: rest ∧
      ((receiveMessage engine clock draws served.peer wholeMsg).run
        (before.foldl perform .initial)).1 = .ok prepared ∧
      prepared.stateReference = some stateReference ∧
      served.securityName = some prepared.securityName := by
  induction calls using List.reverseRecOn with
  | nil => cases hserved
  | append_singleton earlier call ih =>
    rw [List.foldl_append] at hserved
    rcases served_of_perform hserved with
      hbefore | ⟨engine, clock, draws, wholeMsg, prepared, rfl, hok, hreference, hname⟩
    · obtain ⟨before, rest, engine, clock, draws, wholeMsg, prepared, rfl, hok, hreference,
        hname⟩ := ih hbefore
      exact ⟨before, rest ++ [call], engine, clock, draws, wholeMsg, prepared,
        by rw [List.append_assoc, List.cons_append], hok, hreference, hname⟩
    · exact ⟨earlier, [], engine, clock, draws, wholeMsg, prepared, rfl, hok, hreference, hname⟩

/-- Where the caches are linked, the security model finds the user of a request that is answered. -/
theorem CachesLinked.selectUser (hlinked : CachesLinked state) {stateReference expireAt : ℕ}
    {served : ServedRequest}
    (hserved : servedIndex state stateReference = some (served, expireAt)) (engine : Engine)
    (answer : Answer) :
    ∃ selected after, (selectUser engine.sender (outgoingAnswer engine served answer)).run
        state.usm = (.ok selected, after) ∧
      served.securityName = some selected.user.usmUserSecurityName := by
  obtain ⟨msgUserName, user, hentry, hname⟩ := hlinked.cached stateReference served expireAt hserved
  exact ⟨_, _, selectUser_response rfl hentry, hname⟩

/-- In every run whose messages draw references that are not in use, a request that is served can be
answered: it was received from the peer that the answer goes to and accepted, and the security model
selects the user under whose security name it was accepted, whatever the answer is. -/
theorem answers_of_run {calls : List Call} (hdraws : EveryStep perform Draws .initial calls)
    {stateReference expireAt : ℕ} {served : ServedRequest}
    (hserved : servedIndex (calls.foldl perform .initial) stateReference =
      some (served, expireAt)) :
    ∃ before rest engine clock draws wholeMsg prepared,
      calls = before ++ .receiveMessage engine clock draws served.peer wholeMsg :: rest ∧
      ((receiveMessage engine clock draws served.peer wholeMsg).run
        (before.foldl perform .initial)).1 = .ok prepared ∧
      prepared.stateReference = some stateReference ∧
      ∀ (answering : Engine) (answer : Answer), ∃ selected after,
        (selectUser answering.sender (outgoingAnswer answering served answer)).run
            (calls.foldl perform .initial).usm = (.ok selected, after) ∧
          selected.user.usmUserSecurityName = prepared.securityName := by
  have hlinked : CachesLinked (calls.foldl perform .initial) :=
    hdraws.foldl_invariant CachesLinked cachesLinked_initial fun _ _ hbefore hunused ↦
      hbefore.perform hunused
  obtain ⟨before, rest, engine, clock, draws, wholeMsg, prepared, hcalls, hok, hreference,
    hname⟩ := served_of_run hserved
  refine ⟨before, rest, engine, clock, draws, wholeMsg, prepared, hcalls, hok, hreference,
    fun answering answer ↦ ?_⟩
  obtain ⟨selected, after, hselect, huser⟩ := hlinked.selectUser hserved answering answer
  exact ⟨selected, after, hselect, Option.some.inj (huser.symm.trans hname)⟩

/-- The agent receives a message of the manager. -/
def hearing (manager : EngineState) : Call :=
  .receiveMessage sampleAgent sampleClock ⟨10, 3⟩ managerPeer (lastSent manager)

/-- The agent receives the probe of the manager, the request without its boots and time, and the
request with them, and its timer ticks in between. -/
def sampleCalls : List Call :=
  [hearing probing, .receiveTimerTick, hearing early, .receiveTimerTick, hearing requesting]

/-- The agent serves the last request then, and can answer it. -/
theorem answers_of_run_sample :
    ∃ before rest engine clock draws wholeMsg prepared,
      sampleCalls = before ++ .receiveMessage engine clock draws managerPeer wholeMsg :: rest ∧
        ((receiveMessage engine clock draws managerPeer wholeMsg).run
          (before.foldl perform .initial)).1 = .ok prepared ∧
        prepared.stateReference = some 10 ∧
        ∀ (answering : Engine) (answer : Answer), ∃ selected after,
          (selectUser answering.sender (outgoingAnswer answering sampleServed answer)).run
              (sampleCalls.foldl perform .initial).usm = (.ok selected, after) ∧
            selected.user.usmUserSecurityName = prepared.securityName := by
  have hserved : servedIndex (sampleCalls.foldl perform .initial) 10 =
      some (sampleServed, 602) := by
    decide +kernel
  have hdraws : EveryStep perform Draws .initial sampleCalls :=
    ⟨⟨rfl, rfl⟩, trivial, ⟨by decide +kernel, by decide +kernel⟩, trivial,
      ⟨by decide +kernel, by decide +kernel⟩, trivial⟩
  exact answers_of_run hdraws hserved

end Runs

end Pysnmp.Proto.LinkedCaches
