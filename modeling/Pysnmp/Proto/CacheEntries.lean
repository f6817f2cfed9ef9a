import Pysnmp.Proto.ApplicationState

/-!
# Entries of the dispatcher's cache

A sweep of `Cache.expire` over entries that its callback adds and removes (`expireCache_keeps`), and
the effect of `sendPdu` on the cache and the models when the message is refused at any point
(`sendPdu_effect`): only the entry of the handle drawn changes.
-/

set_option autoImplicit false
set_option relaxedAutoImplicit false

namespace Pysnmp.Proto.CacheEntries

open Foundation Foundation.Effect Mpmod.Cache Mpmod.MessageProcessing Mpmod.SentRequests
  Mpmod.HeldRequests Dispatcher RequestRecords ApplicationState

variable {κ α : Type}

/-! ### Sweeps -/

/-- A turn of a sweep: the invariant stays, the other entries of the cache stay, and an entry that
is to be dropped is not there any more. -/
def TurnKeeps (invariant : Engine κ α → Prop) (cbFun : ℕ → CachedParams κ → EngineOp κ α Bool) :
    Prop :=
  ∀ engine index params, invariant engine → engine.cache.lookup index = some params →
    let run := (cbFun index params).run engine
    invariant run.2 ∧
      (∀ other params, other ≠ index → engine.cache.lookup other = some params →
        run.2.cache.lookup other = some params) ∧
      (run.1 = .ok true → run.2.cache.lookup index = none)

theorem expireCache_forEach_keeps {invariant : Engine κ α → Prop}
    {cbFun : ℕ → CachedParams κ → EngineOp κ α Bool} (hcbFun : TurnKeeps invariant cbFun)
    {items : List ((_ : ℕ) × CachedParams κ)} (hnodup : (items.map Sigma.fst).Nodup)
    {engine : Engine κ α} (hinvariant : invariant engine)
    (hitems : ∀ item ∈ items, engine.cache.lookup item.1 = some item.2) :
    invariant ((forEach (fun item ↦ do
      let expired ← cbFun item.1 item.2
      runIf expired
        (modify fun engine ↦ { engine with cache := engine.cache.erase item.1 })) items).run
          engine).2 := by
  induction items generalizing engine with
  | nil => exact hinvariant
  | cons item rest ih =>
    rw [List.map_cons, List.nodup_cons] at hnodup
    obtain ⟨hafter, hkept, hgone⟩ :=
      hcbFun engine item.1 item.2 hinvariant (hitems item List.mem_cons_self)
    rw [forEach_cons]
    rcases ok_or_error (cbFun item.1 item.2) engine with
      ⟨expired, after, hok⟩ | ⟨exception, after, herror⟩
    · rw [hok] at hafter hkept hgone
      have hturn : (do
          let expired ← cbFun item.1 item.2
          runIf expired (modify fun engine ↦
            { engine with cache := engine.cache.erase item.1 }) : EngineOp κ α Unit).run engine =
          (.ok (), after) := by
        rw [bind_run_of_ok hok]
        cases expired with
        | false => rw [runIf_of_false _ Bool.false_ne_true, pure_run]
        | true => rw [runIf_of_true _ rfl, modify_run, Dict.erase_of_lookup_eq_none (hgone rfl)]
      rw [bind_run_of_ok hturn]
      refine ih hnodup.2 hafter fun other hmem ↦ hkept other.1 other.2 ?_
        (hitems other (List.mem_cons_of_mem item hmem))
      intro heq
      exact hnodup.1 (heq ▸ List.mem_map_of_mem hmem)
    · rw [herror] at hafter
      rw [bind_run_of_error (bind_run_of_error herror)]
      exact hafter

/-- A sweep over the dispatcher's cache: whichever entries the callback expires, those that the
sweep has not come to are still there. -/
theorem expireCache_keeps {invariant : Engine κ α → Prop}
    {cbFun : ℕ → CachedParams κ → EngineOp κ α Bool} (hcbFun : TurnKeeps invariant cbFun)
    {engine : Engine κ α} (hinvariant : invariant engine) :
    invariant ((expireCache cbFun).run engine).2 := by
  unfold expireCache
  rw [bind_run_of_ok (gets_run _ _)]
  refine expireCache_forEach_keeps hcbFun ?_ hinvariant fun item hmem ↦
    AList.mem_lookup_iff.mpr (List.mem_reverse.mp hmem)
  rw [List.map_reverse, List.nodup_reverse]
  exact engine.cache.nodupKeys

/-! ### Releasing and sending -/

/-- The caches of all models are consistent. -/
def AllConsistent (models : ModelId → Model) : Prop :=
  ∀ modelId, Consistent (models modelId).cache

theorem AllConsistent.update {models : ModelId → Model} (hconsistent : AllConsistent models)
    (modelId : ModelId) {model : Model} (hmodel : Consistent model.cache) :
    AllConsistent (Function.update models modelId model) := by
  intro other
  by_cases hother : other = modelId
  · subst hother
    simpa using hmodel
  · rw [Function.update_of_ne hother]
    exact hconsistent other

/-- Releasing the state of a handle drops its entry, and the models stay consistent. -/
theorem releaseState_effect (config : EngineConfig) (sendPduHandle : ℕ) (modelId : ModelId)
    (engine : Engine κ α) (hconsistent : AllConsistent engine.models) :
    ∃ models, AllConsistent models ∧ (releaseState config sendPduHandle modelId).run engine =
      (.ok (), { engine with models, cache := engine.cache.erase sendPduHandle }) := by
  unfold releaseState
  by_cases hregistered : config.messageProcessingSubsystems modelId = true
  · obtain ⟨cache, hrelease, hcache⟩ :=
      releaseStateInformation_run_of_consistent sendPduHandle (hconsistent modelId)
    refine ⟨Function.update engine.models modelId { engine.models modelId with cache },
      hconsistent.update modelId hcache, ?_⟩
    rw [runIf_of_true _ hregistered, bind_run_of_ok (by rw [onModel_run, hrelease]),
      dropFromCache_run]
  · refine ⟨engine.models, hconsistent, ?_⟩
    rw [runIf_of_false _ hregistered, bind_run_of_ok (pure_run _ _), dropFromCache_run]

/-- A request that is due is released, and then its callback runs. -/
theorem expireRequest_effect (config : EngineConfig) (applications : Applications κ α)
    (engine : Engine κ α) (params : CachedParams κ) (statusInformation : Option StatusDetails)
    (hconsistent : AllConsistent engine.models)
    (hdue : ¬ (statusInformation = none ∧ (engine.ticks : ℚ) < params.timeout)) :
    ∃ models, AllConsistent models ∧
      (expireRequest config applications params statusInformation).run engine =
        (do
          applications.process params.callback (.failure (statusInformation.getD
            { errorIndication := some .requestTimedOut })) params.sendPduHandle
          pure true).run
            { engine with models, cache := engine.cache.erase params.sendPduHandle } := by
  obtain ⟨models, hmodels, hrelease⟩ := releaseState_effect config params.sendPduHandle
    params.messageProcessingModel engine hconsistent
  refine ⟨models, hmodels, ?_⟩
  unfold expireRequest
  rw [bind_run_of_ok (gets_run _ _), if_neg hdue, bind_run_of_ok hrelease]

/-- Two engines that differ at most in the entry of one handle, which is a request with the callback
if it is there, and in models that are consistent. -/
structure SendsEntry (before after : Engine κ α) (sendPduHandle : ℕ) (callback : κ) : Prop where
  sameApp : SameApp before after
  consistent : AllConsistent after.models
  others : ∀ other, other ≠ sendPduHandle →
    after.cache.lookup other = before.cache.lookup other
  own : ∀ params, after.cache.lookup sendPduHandle = some params →
    params.sendPduHandle = sendPduHandle ∧ params.callback = callback

section SendsEntry

variable {before after : Engine κ α} {sendPduHandle : ℕ} {callback : κ}

theorem SendsEntry.drop (hsends : SendsEntry before after sendPduHandle callback)
    {models : ModelId → Model} (hconsistent : AllConsistent models) :
    SendsEntry before { after with models, cache := after.cache.erase sendPduHandle }
      sendPduHandle callback where
  sameApp := hsends.sameApp
  consistent := hconsistent
  others := by
    intro other hother
    show AList.lookup other (AList.erase _ _) = _
    rw [Dict.lookup_erase_ite, if_neg hother, hsends.others other hother]
  own := by
    intro params hentry
    rw [AList.lookup_erase] at hentry
    cases hentry

theorem SendsEntry.insert (hsends : SendsEntry before after sendPduHandle callback)
    {params : CachedParams κ}
    (hparams : params.sendPduHandle = sendPduHandle ∧ params.callback = callback) :
    SendsEntry before { after with cache := after.cache.insert sendPduHandle params }
      sendPduHandle callback where
  sameApp := hsends.sameApp
  consistent := hsends.consistent
  others := by
    intro other hother
    show AList.lookup other (AList.insert _ _ _) = _
    rw [Dict.lookup_insert_ite, if_neg hother, hsends.others other hother]
  own := by
    intro found hentry
    rw [AList.lookup_insert, Option.some.injEq] at hentry
    rwa [← hentry]

theorem sendsEntry_refl {engine : Engine κ α} (hconsistent : AllConsistent engine.models)
    (hmissing : engine.cache.lookup sendPduHandle = none) :
    SendsEntry engine engine sendPduHandle callback where
  sameApp := rfl
  consistent := hconsistent
  others := fun _ _ ↦ rfl
  own := by
    intro params hentry
    rw [hmissing] at hentry
    cases hentry

end SendsEntry

/-- What can be wrong with a send: there is no transport dispatcher, the security model fails, the
message identifier drawn is in use, or the transport fails. Everything else is reported as a
`StatusInformation` with an error indication. -/
inductive SendError (config : EngineConfig) (world : SendWorld κ α) (engine : Engine κ α)
    (exception : Raised) : Prop
  | reported (errorIndication : ErrorIndication) (hreported : exception = .status errorIndication)
  | disconnected (hdisconnected : ¬ config.hasTransportDispatcher)
  | unsecured (hsecuring : world.securing.FailsWith exception)
  | inUse (modelId : ModelId)
      (hindexed : ((engine.models modelId).cache.msgIdIndex.lookup (world.msgID engine)).isSome)
  | unsent (hsent : world.sendMessage = some exception)

section SendPdu

variable {config : EngineConfig} {arguments : SendArguments κ} {world : SendWorld κ α}
  {engine noted : Engine κ α}

theorem noteRequest_effect (config : EngineConfig) (hexpect : arguments.expectResponse = true)
    (modelId : ModelId)
    (sendPduHandle : ℕ) (hconsistent : AllConsistent engine.models)
    (hmissing : engine.cache.lookup sendPduHandle = none) :
    ∃ result after, (noteRequest config arguments modelId sendPduHandle).run engine =
        (result, after) ∧ SendsEntry engine after sendPduHandle arguments.callback ∧
      after.models = engine.models ∧
      if config.hasTransportDispatcher then
        result = .ok () ∧ (after.cache.lookup sendPduHandle).isSome
      else result = .error .attributeError := by
  unfold noteRequest
  rw [if_pos hexpect]
  by_cases hdispatcher : config.hasTransportDispatcher = true
  · rw [if_pos hdispatcher, bind_run_of_ok (gets_run _ _)]
    refine ⟨_, _, modify_run _ _, (sendsEntry_refl hconsistent hmissing).insert ⟨rfl, rfl⟩, rfl, ?_⟩
    rw [if_pos hdispatcher, AList.lookup_insert]
    exact ⟨rfl, rfl⟩
  · rw [if_neg hdispatcher]
    refine ⟨_, _, raise_run _ _, sendsEntry_refl hconsistent hmissing, rfl, ?_⟩
    rw [if_neg hdispatcher]

/-- The preparation fails, and the entry may be gone, or succeeds and leaves it. -/
theorem prepareMessage_effect (config : EngineConfig) (world : SendWorld κ α) (modelId : ModelId)
    {sendPduHandle : ℕ} (msgID : ℤ)
    (hsends : SendsEntry engine noted sendPduHandle arguments.callback)
    (hmodels : noted.models = engine.models) (hfresh : FreshHandle engine sendPduHandle) :
    ∃ result after, (prepareMessage config arguments modelId sendPduHandle msgID
        world.securing).run noted = (result, after) ∧
      SendsEntry engine after sendPduHandle arguments.callback ∧
      match result with
      | .ok _ => after.cache = noted.cache
      | .error exception =>
        PreparationError world.securing msgID (engine.models modelId) exception := by
  rcases prepareOutgoingMessage_cases modelId config.environment
      (outgoingRequest arguments sendPduHandle) world.securing msgID (noted.models modelId) with
    ⟨exception, hrun, herror⟩ | ⟨wholeMsg, model, hrun, hmodel⟩
  · have hfailed : (onModel modelId (prepareOutgoingMessage modelId config.environment
        (outgoingRequest arguments sendPduHandle) world.securing msgID)).run noted =
          (.error exception, noted) := by
      rw [onModel_run, hrun, Function.update_eq_self]
    rw [hmodels] at herror
    unfold prepareMessage
    by_cases hcleans : exception.isPySnmpError = true ∧ arguments.expectResponse = true
    · obtain ⟨models, hconsistent, hrelease⟩ := releaseState_effect config sendPduHandle modelId
        { noted with cache := noted.cache.erase sendPduHandle } hsends.consistent
      refine ⟨.error exception, _, ?_, (hsends.drop hsends.consistent).drop hconsistent, herror⟩
      rw [handle_run_of_error hfailed, runIf_of_true _ hcleans, bind_run_of_ok]
      · rfl
      · rw [bind_run_of_ok (dropFromCache_run _ _), hrelease]
    · refine ⟨.error exception, noted, ?_, hsends, herror⟩
      rw [handle_run_of_error hfailed, runIf_of_false _ hcleans]
      rfl
  · refine ⟨.ok wholeMsg, { noted with models := Function.update noted.models modelId model },
      handle_run_of_ok (by rw [onModel_run, hrun]), ?_, rfl⟩
    have hconsistent : Consistent model.cache := by
      split_ifs at hmodel with hconfirmed
      · obtain ⟨hmissing, sent, hhandle, rfl⟩ := hmodel
        refine (hsends.consistent modelId).withSent hmissing ?_
        rw [hhandle, hmodels]
        exact hfresh.2 modelId
      · rw [hmodel]
        exact hsends.consistent modelId
    exact ⟨hsends.sameApp, hsends.consistent.update modelId hconsistent, hsends.others, hsends.own⟩

theorem transmit_effect (world : SendWorld κ α) {sendPduHandle : ℕ}
    (hsends : SendsEntry engine noted sendPduHandle arguments.callback)
    (hdispatcher : config.hasTransportDispatcher = true) :
    ∃ result after, (transmit config arguments sendPduHandle world.sendMessage).run noted =
        (result, after) ∧ SendsEntry engine after sendPduHandle arguments.callback ∧
      match result with
      | .ok _ => after = noted
      | .error exception => world.sendMessage = some exception := by
  unfold transmit
  rw [if_neg (not_not_intro hdispatcher)]
  cases world.sendMessage with
  | none => exact ⟨_, _, pure_run _ _, hsends, rfl⟩
  | some exception =>
    simp only
    by_cases hdrops : exception.isPySnmpError = true ∧ arguments.expectResponse = true
    · rw [runIf_of_true _ hdrops, bind_run_of_ok (dropFromCache_run _ _)]
      exact ⟨_, _, raise_run _ _, hsends.drop hsends.consistent, rfl⟩
    · rw [runIf_of_false _ hdrops, bind_run_of_ok (pure_run _ _)]
      exact ⟨_, _, raise_run _ _, hsends, rfl⟩

theorem updateCache_effect {sendPduHandle : ℕ} {callback : κ} (peer : Peer)
    (hsends : SendsEntry engine noted sendPduHandle callback)
    (hentry : (noted.cache.lookup sendPduHandle).isSome) :
    ∃ after, (updateCache sendPduHandle peer).run noted = (.ok (), after) ∧
      SendsEntry engine after sendPduHandle callback ∧
      (after.cache.lookup sendPduHandle).isSome := by
  obtain ⟨params, hlookup⟩ := Option.isSome_iff_exists.mp hentry
  unfold updateCache
  rw [bind_run_of_ok (gets_run _ _), hlookup]
  refine ⟨_, modify_run _ _, hsends.insert (hsends.own params hlookup), ?_⟩
  rw [AList.lookup_insert]
  rfl

/-- A send that expects a response either succeeds, with an entry under the handle drawn, or fails
for a reason of its own, and touches no other entry. -/
theorem sendPdu_effect (config : EngineConfig) (hexpect : arguments.expectResponse = true)
    (world : SendWorld κ α) (hconsistent : AllConsistent engine.models)
    (hfresh : FreshHandle engine (world.sendPduHandle engine)) :
    ∃ result after, (sendPdu config arguments world).run engine = (result, after) ∧
      SendsEntry engine after (world.sendPduHandle engine) arguments.callback ∧
      match result with
      | .ok sendPduHandle => sendPduHandle = world.sendPduHandle engine ∧
          config.hasTransportDispatcher ∧ (after.cache.lookup sendPduHandle).isSome
      | .error exception => SendError config world engine exception := by
  unfold sendPdu
  cases config.mpHandler arguments.messageProcessingModel with
  | none =>
    exact ⟨_, _, raise_run _ _, sendsEntry_refl hconsistent hfresh.1, .reported _ rfl⟩
  | some modelId =>
    simp only
    rw [bind_run_of_ok (get_run _)]
    set sendPduHandle := world.sendPduHandle engine
    obtain ⟨noting, noted, hnote, hnoted, hmodels, hresult⟩ := noteRequest_effect
      config hexpect modelId sendPduHandle hconsistent hfresh.1
    by_cases hdispatcher : config.hasTransportDispatcher = true
    · rw [if_pos hdispatcher] at hresult
      obtain ⟨rfl, hentry⟩ := hresult
      rw [bind_run_of_ok hnote]
      obtain ⟨preparing, prepared, hprepare, hprepared, hwhole⟩ := prepareMessage_effect
        config world modelId (world.msgID engine) hnoted hmodels hfresh
      cases preparing with
      | error exception =>
        rw [bind_run_of_error hprepare]
        refine ⟨_, _, rfl, hprepared, ?_⟩
        rcases hwhole with ⟨errorIndication, rfl⟩ | hfails | ⟨-, hindexed⟩
        · exact .reported errorIndication rfl
        · exact .unsecured hfails
        · exact .inUse modelId hindexed
      | ok wholeMsg =>
        rw [bind_run_of_ok hprepare]
        obtain ⟨sending, sent, hsend, hsent, htaken⟩ := transmit_effect
          world hprepared hdispatcher
        cases sending with
        | error exception =>
          rw [bind_run_of_error hsend]
          exact ⟨_, _, rfl, hsent, .unsent htaken⟩
        | ok _ =>
          rw [← hwhole, ← htaken] at hentry
          obtain ⟨updated, hupdate, hupdated, hentry⟩ :=
            updateCache_effect arguments.peer hsent hentry
          rw [bind_run_of_ok hsend, runIf_of_true _ hexpect, bind_run_of_ok hupdate]
          exact ⟨_, _, pure_run _ _, hupdated, rfl, hdispatcher, hentry⟩
    · rw [if_neg hdispatcher] at hresult
      subst hresult
      rw [bind_run_of_error hnote]
      exact ⟨_, _, rfl, hnoted, .disconnected hdispatcher⟩

end SendPdu

end Pysnmp.Proto.CacheEntries
