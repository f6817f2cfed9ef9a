import Pysnmp.Proto.Dispatcher
import Pysnmp.Proto.Mpmod.HeldRequests

/-!
# The two records of a request

A request that waits for its response is recorded twice: in the dispatcher's cache under its send
handle, and in the cache of a message processing model under a message identifier. `CachesAgree`
says that the two records hold the same handles, apart from those a model has aged out. It is part
of an invariant, `Coherent`, which the models keep when they age a request out, when they let go of
one that the dispatcher lets go of as well, and when both record a new one.

`sends_sendPdu`: a `SafeSend` keeps the invariant and leaves the dispatcher's requests alone,
however it ends.
-/

set_option autoImplicit false
set_option relaxedAutoImplicit false

namespace Pysnmp.Proto.RequestRecords

open Foundation Foundation.Effect Mpmod.Cache Mpmod.MessageProcessing Mpmod.SentRequests
  Mpmod.HeldRequests Dispatcher

variable {κ α : Type}

/-! ### Agreement -/

/-- The records of the dispatcher and of the models hold the same send handles, apart from those
that a model has aged out. -/
def CachesAgree (engine : Engine κ α) : Prop :=
  ∀ sendPduHandle,
    (∀ modelId, HoldsHandle (engine.models modelId).cache sendPduHandle →
      ∃ params, engine.cache.lookup sendPduHandle = some params ∧
        params.messageProcessingModel = modelId) ∧
    ∀ params, engine.cache.lookup sendPduHandle = some params →
      HoldsHandle (engine.models params.messageProcessingModel).cache sendPduHandle ∨
        AgedOut (engine.models params.messageProcessingModel).cache sendPduHandle

/-- An engine that has sent nothing. -/
def Engine.initial (app : α) : Engine κ α where
  cache := ∅
  models := fun _ ↦ .initial
  ticks := 0
  app := app

/-! ### Safe sends -/

/-- The handle is that of no outstanding request, and where a model's index still leads from it to
a message identifier, nothing is held under that. -/
def FreshHandle (engine : Engine κ α) (sendPduHandle : ℕ) : Prop :=
  engine.cache.lookup sendPduHandle = none ∧ ∀ modelId msgId,
    (engine.models modelId).cache.sendPduHandleIdx.lookup sendPduHandle = some msgId →
      (engine.models modelId).cache.msgIdIndex.lookup msgId = none

/-- The message identifier is not that of an outstanding request that the model has aged out. -/
def FreshMsgID (engine : Engine κ α) (modelId : ModelId) (msgID : ℤ) : Prop :=
  ∀ sendPduHandle, (engine.cache.lookup sendPduHandle).isSome →
    (engine.models modelId).cache.sendPduHandleIdx.lookup sendPduHandle = some msgID →
      ((engine.models modelId).cache.msgIdIndex.lookup msgID).isSome

/-- A send that keeps the two records together: a response is expected exactly to a PDU that has
one, the message is secured or refused with a `PySnmpError`, the transport does not refuse a
request, and what the generators draw is not in use. What they draw is a function of the engine that
sends, which is asked at the engine of the send only. -/
structure SafeSend (arguments : SendArguments κ) (world : SendWorld κ α) : Prop where
  answers : arguments.expectResponse = arguments.pdu.pduType.isConfirmedClass
  secures : ∀ exception, world.securing.FailsWith exception → exception.isPySnmpError
  transmits : ∀ exception, world.sendMessage = some exception → exception.isPySnmpError →
    arguments.expectResponse = false
  freshHandle : ∀ engine, FreshHandle engine (world.sendPduHandle engine)
  freshMsgID : ∀ engine modelId, FreshMsgID engine modelId (world.msgID engine)

/-! ### The invariant -/

/-- What holds of an engine between any two operations on its requests: the models' caches are
consistent, every request they hold is the dispatcher's, and the dispatcher's requests are held by
a registered model or were aged out there. -/
structure Coherent (config : EngineConfig) (engine : Engine κ α) : Prop where
  consistent : ∀ modelId, Consistent (engine.models modelId).cache
  recorded : ∀ modelId sendPduHandle, HoldsHandle (engine.models modelId).cache sendPduHandle →
    ∃ params, engine.cache.lookup sendPduHandle = some params ∧
      params.messageProcessingModel = modelId
  outstanding : ∀ sendPduHandle params, engine.cache.lookup sendPduHandle = some params →
    params.sendPduHandle = sendPduHandle ∧
      config.messageProcessingSubsystems params.messageProcessingModel ∧
      (HoldsHandle (engine.models params.messageProcessingModel).cache sendPduHandle ∨
        AgedOut (engine.models params.messageProcessingModel).cache sendPduHandle)

section Coherent

variable {config : EngineConfig} {engine after : Engine κ α}

theorem coherent_initial (app : α) : Coherent config (Engine.initial app : Engine κ α) where
  consistent := fun _ ↦ consistent_empty
  recorded := by
    rintro modelId sendPduHandle ⟨msgId, sent, expireAt, hentry, -⟩
    cases hentry
  outstanding := by
    intro sendPduHandle params hlookup
    cases hlookup

theorem Coherent.cachesAgree (hcoherent : Coherent config engine) : CachesAgree engine :=
  fun sendPduHandle ↦ ⟨fun modelId ↦ hcoherent.recorded modelId sendPduHandle,
    fun params hlookup ↦ (hcoherent.outstanding sendPduHandle params hlookup).2.2⟩

theorem Coherent.not_holdsHandle (hcoherent : Coherent config engine) {sendPduHandle : ℕ}
    (hmissing : engine.cache.lookup sendPduHandle = none) (modelId : ModelId) :
    ¬ HoldsHandle (engine.models modelId).cache sendPduHandle := by
  intro hholds
  obtain ⟨params, hlookup, -⟩ := hcoherent.recorded modelId sendPduHandle hholds
  rw [hmissing] at hlookup
  cases hlookup

theorem Coherent.leadsToOwn (hcoherent : Coherent config engine) {sendPduHandle : ℕ}
    {params : CachedParams κ} (hlookup : engine.cache.lookup sendPduHandle = some params) :
    LeadsToOwn (engine.models params.messageProcessingModel).cache sendPduHandle := by
  rcases (hcoherent.outstanding sendPduHandle params hlookup).2.2 with hholds | haged
  · exact hholds.leadsToOwn (hcoherent.consistent _)
  · exact haged.leadsToOwn

/-- The dispatcher's requests stay, and requests of the models may age out. -/
theorem Coherent.of_ages (hcoherent : Coherent config engine)
    (hlookup : ∀ other, after.cache.lookup other = engine.cache.lookup other)
    (hages : ∀ modelId, Ages (engine.models modelId).cache (after.models modelId).cache) :
    Coherent config after where
  consistent := fun modelId ↦ (hages modelId).consistent (hcoherent.consistent modelId)
  recorded := by
    intro modelId sendPduHandle hholds
    rw [hlookup]
    exact hcoherent.recorded modelId sendPduHandle ((hages modelId).holdsHandle _ hholds)
  outstanding := by
    intro sendPduHandle params hentry
    rw [hlookup] at hentry
    obtain ⟨hhandle, hregistered, hheld⟩ := hcoherent.outstanding sendPduHandle params hentry
    exact ⟨hhandle, hregistered, (hages _).agedOut (hcoherent.consistent _) sendPduHandle hheld⟩

/-- A model lets go of a request, and the dispatcher as well. -/
theorem Coherent.of_releases (hcoherent : Coherent config engine) (modelId : ModelId)
    (sendPduHandle : ℕ)
    (hlookup : ∀ other, after.cache.lookup other =
      if other = sendPduHandle then none else engine.cache.lookup other)
    (hreleases : ReleasesHandle (engine.models modelId).cache (after.models modelId).cache
      sendPduHandle)
    (hothers : ∀ other, other ≠ modelId →
      (after.models other).cache = (engine.models other).cache)
    (hnone : ∀ other, other ≠ modelId →
      ¬ HoldsHandle (engine.models other).cache sendPduHandle) :
    Coherent config after where
  consistent := by
    intro other
    by_cases hother : other = modelId
    · subst hother
      exact hreleases.consistent
    · rw [hothers other hother]
      exact hcoherent.consistent other
  recorded := by
    intro other handle hholds
    have hkept : handle ≠ sendPduHandle ∧ HoldsHandle (engine.models other).cache handle := by
      by_cases hother : other = modelId
      · subst hother
        exact (hreleases.holdsHandle handle).mp hholds
      · rw [hothers other hother] at hholds
        refine ⟨?_, hholds⟩
        intro heq
        exact hnone other hother (heq ▸ hholds)
    rw [hlookup, if_neg hkept.1]
    exact hcoherent.recorded other handle hkept.2
  outstanding := by
    intro handle params hentry
    rw [hlookup] at hentry
    split_ifs at hentry with hhandle
    obtain ⟨hown, hregistered, hheld⟩ := hcoherent.outstanding handle params hentry
    refine ⟨hown, hregistered, ?_⟩
    by_cases hother : params.messageProcessingModel = modelId
    · rw [hother] at hheld ⊢
      rcases hheld with hholds | haged
      · exact Or.inl ((hreleases.holdsHandle handle).mpr ⟨hhandle, hholds⟩)
      · exact Or.inr (hreleases.agedOut handle hhandle haged)
    · rwa [hothers _ hother]

/-- A model records a request under a fresh handle and a fresh identifier, and the dispatcher as
well. -/
theorem Coherent.of_sends (hcoherent : Coherent config engine) {modelId : ModelId} {msgID : ℤ}
    {sent : SentRequest} {params : CachedParams κ}
    (hregistered : config.messageProcessingSubsystems modelId)
    (hparams : params.sendPduHandle = sent.sendPduHandle ∧
      params.messageProcessingModel = modelId)
    (hfresh : FreshHandle engine sent.sendPduHandle) (hfreshID : FreshMsgID engine modelId msgID)
    (hmissing : (engine.models modelId).cache.msgIdIndex.lookup msgID = none)
    (hlookup : ∀ other, after.cache.lookup other =
      if other = sent.sendPduHandle then some params else engine.cache.lookup other)
    (hcache : (after.models modelId).cache = (engine.models modelId).cache.withSent msgID sent)
    (hothers : ∀ other, other ≠ modelId →
      (after.models other).cache = (engine.models other).cache) :
    Coherent config after where
  consistent := by
    intro other
    by_cases hother : other = modelId
    · subst hother
      rw [hcache]
      exact (hcoherent.consistent other).withSent hmissing (hfresh.2 other)
    · rw [hothers other hother]
      exact hcoherent.consistent other
  recorded := by
    intro other handle hholds
    rw [hlookup]
    by_cases hhandle : handle = sent.sendPduHandle
    · rw [if_pos hhandle]
      refine ⟨params, rfl, ?_⟩
      by_contra hother
      rw [hothers other (fun heq ↦ hother (by rw [heq, hparams.2])), hhandle] at hholds
      exact hcoherent.not_holdsHandle hfresh.1 other hholds
    · rw [if_neg hhandle]
      by_cases hother : other = modelId
      · subst hother
        rw [hcache] at hholds
        exact hcoherent.recorded other handle
          (((holdsHandle_withSent_iff hmissing handle).mp hholds).resolve_left hhandle)
      · rw [hothers other hother] at hholds
        exact hcoherent.recorded other handle hholds
  outstanding := by
    intro handle other hentry
    rw [hlookup] at hentry
    split_ifs at hentry with hhandle
    · rw [Option.some.injEq] at hentry
      subst hentry
      refine ⟨by rw [hparams.1, hhandle], by rwa [hparams.2], Or.inl ?_⟩
      rw [hparams.2, hcache, holdsHandle_withSent_iff hmissing]
      exact Or.inl hhandle
    · obtain ⟨hown, hother, hheld⟩ := hcoherent.outstanding handle other hentry
      refine ⟨hown, hother, ?_⟩
      by_cases hsame : other.messageProcessingModel = modelId
      · rw [hsame] at hheld ⊢
        rw [hcache, holdsHandle_withSent_iff hmissing]
        rcases hheld with hholds | haged
        · exact Or.inl (Or.inr hholds)
        · exact Or.inr (haged.withSent hhandle (hfreshID handle (by rw [hentry]; rfl)))
      · rwa [hothers _ hsame]

end Coherent

/-! ### Sending -/

/-- The effect of sending: the engine stays coherent, the dispatcher's requests stay as they are,
and no request is added under a handle of the set. -/
def Sends (config : EngineConfig) (avoided : Set ℕ) (before after : Engine κ α) : Prop :=
  Coherent config before → Coherent config after ∧
    (∀ sendPduHandle params, before.cache.lookup sendPduHandle = some params →
      after.cache.lookup sendPduHandle = some params) ∧
    ∀ sendPduHandle ∈ avoided, before.cache.lookup sendPduHandle = none →
      after.cache.lookup sendPduHandle = none

section Sends

variable {config : EngineConfig} {avoided : Set ℕ} {engine after : Engine κ α}

instance : Std.Refl (Sends (κ := κ) (α := α) config avoided) :=
  ⟨fun _ hcoherent ↦ ⟨hcoherent, fun _ _ hentry ↦ hentry, fun _ _ hmissing ↦ hmissing⟩⟩

instance : IsTrans (Engine κ α) (Sends config avoided) := by
  refine ⟨fun _ _ _ hfirst hsecond hcoherent ↦ ?_⟩
  obtain ⟨hmiddle, hkept, havoided⟩ := hfirst hcoherent
  obtain ⟨hlast, hkept', havoided'⟩ := hsecond hmiddle
  exact ⟨hlast, fun _ _ hentry ↦ hkept' _ _ (hkept _ _ hentry),
    fun _ hmem hmissing ↦ havoided' _ hmem (havoided _ hmem hmissing)⟩

theorem sends_of_same (hlookup : ∀ other, after.cache.lookup other = engine.cache.lookup other)
    (hcaches : ∀ modelId, (after.models modelId).cache = (engine.models modelId).cache) :
    Sends config avoided engine after := by
  intro hcoherent
  refine ⟨hcoherent.of_ages hlookup fun modelId ↦ ?_, ?_, ?_⟩
  · rw [hcaches]
    exact (refl_of SameSent _).ages
  · intro sendPduHandle params hentry
    rwa [hlookup]
  · intro sendPduHandle _ hmissing
    rwa [hlookup]

theorem sends_of_sent {modelId : ModelId} {msgID : ℤ} {sent : SentRequest}
    {params : CachedParams κ} (hregistered : config.messageProcessingSubsystems modelId)
    (hparams : params.sendPduHandle = sent.sendPduHandle ∧
      params.messageProcessingModel = modelId)
    (havoids : sent.sendPduHandle ∉ avoided)
    (hfresh : FreshHandle engine sent.sendPduHandle) (hfreshID : FreshMsgID engine modelId msgID)
    (hmissing : (engine.models modelId).cache.msgIdIndex.lookup msgID = none)
    (hlookup : ∀ other, after.cache.lookup other =
      if other = sent.sendPduHandle then some params else engine.cache.lookup other)
    (hcache : (after.models modelId).cache = (engine.models modelId).cache.withSent msgID sent)
    (hothers : ∀ other, other ≠ modelId →
      (after.models other).cache = (engine.models other).cache) :
    Sends config avoided engine after := by
  intro hcoherent
  refine ⟨hcoherent.of_sends hregistered hparams hfresh hfreshID hmissing hlookup hcache hothers,
    ?_, ?_⟩
  · intro sendPduHandle other hentry
    rw [hlookup, if_neg, hentry]
    intro heq
    rw [heq, hfresh.1] at hentry
    cases hentry
  · intro sendPduHandle hmem hnone
    rw [hlookup, if_neg, hnone]
    intro heq
    exact havoids (heq ▸ hmem)

end Sends

theorem onModel_run {β : Type} (modelId : ModelId) (operation : ModelOp β)
    (engine : Engine κ α) :
    (onModel modelId operation).run engine =
      ((operation.run (engine.models modelId)).1, { engine with
        models := Function.update engine.models modelId
          (operation.run (engine.models modelId)).2 }) :=
  rfl

theorem dropFromCache_run (sendPduHandle : ℕ) (engine : Engine κ α) :
    (dropFromCache sendPduHandle).run engine =
      (.ok (), { engine with cache := engine.cache.erase sendPduHandle }) :=
  rfl

theorem popFromCache_run (sendPduHandle : ℕ) (engine : Engine κ α) :
    (popFromCache sendPduHandle).run engine =
      (.ok (engine.cache.lookup sendPduHandle),
        { engine with cache := engine.cache.erase sendPduHandle }) :=
  rfl

theorem attempt_run {β : Type} (program : EngineOp κ α β) (engine : Engine κ α) :
    (attempt program).run engine = (.ok (program.run engine).1, (program.run engine).2) := by
  unfold attempt
  rcases ok_or_error program engine with ⟨value, after, hok⟩ | ⟨exception, after, herror⟩
  · rw [handle_run_of_ok (bind_run_of_ok hok), hok]
  · rw [handle_run_of_error (bind_run_of_error herror), herror, pure_run]

/-- Releasing the state of a handle that leads to no other request. -/
theorem releaseState_run {config : EngineConfig} {modelId : ModelId} {sendPduHandle : ℕ}
    (engine : Engine κ α) (hregistered : config.messageProcessingSubsystems modelId)
    (hconsistent : Consistent (engine.models modelId).cache)
    (hown : LeadsToOwn (engine.models modelId).cache sendPduHandle) :
    ∃ cache, (releaseState config sendPduHandle modelId).run engine = (.ok (), { engine with
        models := Function.update engine.models modelId { engine.models modelId with cache }
        cache := engine.cache.erase sendPduHandle }) ∧
      ReleasesHandle (engine.models modelId).cache cache sendPduHandle ∧
      (¬ HoldsHandle (engine.models modelId).cache sendPduHandle →
        cache = (engine.models modelId).cache) := by
  obtain ⟨cache, hrun, hreleases, hsame⟩ := releaseStateInformation_run hconsistent hown
  refine ⟨cache, ?_, hreleases, hsame⟩
  unfold releaseState
  rw [runIf_of_true _ hregistered, bind_run_of_ok (by rw [onModel_run, hrun]), dropFromCache_run]

section SendPdu

variable {config : EngineConfig} {arguments : SendArguments κ} {world : SendWorld κ α}

theorem FreshHandle.leadsToOwn {engine : Engine κ α} {sendPduHandle : ℕ}
    (hfresh : FreshHandle engine sendPduHandle) (modelId : ModelId) :
    LeadsToOwn (engine.models modelId).cache sendPduHandle := by
  intro msgId sent expireAt hhandle hentry
  rw [hfresh.2 modelId msgId hhandle] at hentry
  cases hentry

/-- Where the model fails to prepare a message that expects a response, what the dispatcher noted is
gone, and the model has nothing to release. -/
theorem prepareMessage_run_of_error {modelId : ModelId} {sendPduHandle : ℕ} {msgID : ℤ}
    {engine : Engine κ α} {exception : Raised}
    (hfailed : (onModel modelId (prepareOutgoingMessage modelId config.environment
      (outgoingRequest arguments sendPduHandle) world.securing msgID)).run engine =
        (.error exception, engine))
    (hclass : exception.isPySnmpError) (hregistered : config.messageProcessingSubsystems modelId)
    (hconsistent : Consistent (engine.models modelId).cache)
    (hown : LeadsToOwn (engine.models modelId).cache sendPduHandle)
    (hunheld : ¬ HoldsHandle (engine.models modelId).cache sendPduHandle) :
    ∃ after, (prepareMessage config arguments modelId sendPduHandle msgID world.securing).run
        engine = (.error exception, after) ∧
      (∀ other, after.cache.lookup other =
        if arguments.expectResponse ∧ other = sendPduHandle then none
        else engine.cache.lookup other) ∧
      ∀ other, (after.models other).cache = (engine.models other).cache := by
  unfold prepareMessage
  rw [handle_run_of_error hfailed]
  by_cases hexpect : arguments.expectResponse
  · obtain ⟨cache, hrelease, -, hsame⟩ := releaseState_run
      { engine with cache := engine.cache.erase sendPduHandle } hregistered hconsistent hown
    rw [runIf_of_true _ ⟨hclass, hexpect⟩, bind_run_of_ok
      ((bind_run_of_ok (dropFromCache_run _ _)).trans hrelease)]
    refine ⟨_, rfl, fun other ↦ ?_, fun other ↦ ?_⟩
    · by_cases hother : other = sendPduHandle
      · simp [hother, hexpect]
      · simp [hother]
    · by_cases hother : other = modelId
      · subst hother
        simp [hsame hunheld]
      · simp [hother]
  · rw [runIf_of_false _ fun hboth ↦ hexpect hboth.2]
    refine ⟨engine, rfl, fun other ↦ ?_, fun other ↦ rfl⟩
    rw [if_neg fun hboth ↦ hexpect hboth.1]

/-- The preparation of a safe send fails, and what the dispatcher noted is gone, or succeeds, and
the model has recorded a request that has a response. -/
theorem prepareMessage_cases (hsafe : SafeSend arguments world) {modelId : ModelId}
    {sendPduHandle : ℕ} (msgID : ℤ) {engine : Engine κ α}
    (hregistered : config.messageProcessingSubsystems modelId)
    (hconsistent : Consistent (engine.models modelId).cache)
    (hown : LeadsToOwn (engine.models modelId).cache sendPduHandle)
    (hunheld : ¬ HoldsHandle (engine.models modelId).cache sendPduHandle) :
    let run := (prepareMessage config arguments modelId sendPduHandle msgID world.securing).run
      engine
    (∃ exception after, run = (.error exception, after) ∧
      (∀ other, after.cache.lookup other =
        if arguments.expectResponse ∧ other = sendPduHandle then none
        else engine.cache.lookup other) ∧
      ∀ other, (after.models other).cache = (engine.models other).cache) ∨
    ∃ wholeMsg after, run = (.ok wholeMsg, after) ∧ after.cache = engine.cache ∧
      (∀ other, other ≠ modelId → (after.models other).cache = (engine.models other).cache) ∧
      if arguments.expectResponse then
        (engine.models modelId).cache.msgIdIndex.lookup msgID = none ∧ ∃ sent,
          sent.sendPduHandle = sendPduHandle ∧
          (after.models modelId).cache = (engine.models modelId).cache.withSent msgID sent
      else (after.models modelId).cache = (engine.models modelId).cache := by
  intro run
  have hanswers : (outgoingRequest arguments sendPduHandle).pdu.pduType.isConfirmedClass =
      arguments.expectResponse := hsafe.answers.symm
  rcases prepareOutgoingMessage_cases modelId config.environment
      (outgoingRequest arguments sendPduHandle) world.securing msgID (engine.models modelId) with
    ⟨exception, hrun, herror⟩ | ⟨wholeMsg, model, hrun, hmodel⟩
  · left
    have hfailed : (onModel modelId (prepareOutgoingMessage modelId config.environment
        (outgoingRequest arguments sendPduHandle) world.securing msgID)).run engine =
          (.error exception, engine) := by
      rw [onModel_run, hrun, Function.update_eq_self]
    obtain ⟨after, hcleaned, hlookup, hcaches⟩ := prepareMessage_run_of_error hfailed
      (herror.isPySnmpError hsafe.secures) hregistered hconsistent hown hunheld
    exact ⟨exception, after, hcleaned, hlookup, hcaches⟩
  · right
    refine ⟨wholeMsg, { engine with models := Function.update engine.models modelId model },
      handle_run_of_ok (by rw [onModel_run, hrun]), rfl, fun other hother ↦ by simp [hother], ?_⟩
    rw [hanswers] at hmodel
    by_cases hexpect : arguments.expectResponse
    · rw [if_pos hexpect] at hmodel ⊢
      obtain ⟨hmissing, sent, hsent, rfl⟩ := hmodel
      exact ⟨hmissing, sent, hsent, by simp⟩
    · rw [if_neg hexpect] at hmodel ⊢
      subst hmodel
      simp

/-- The transport takes nothing out of the caches: it does not refuse a request. -/
theorem transmit_run (htransmits : ∀ exception, world.sendMessage = some exception →
      exception.isPySnmpError → arguments.expectResponse = false) (sendPduHandle : ℕ)
    (htransport : config.hasTransportDispatcher ∨ arguments.expectResponse = false)
    (engine : Engine κ α) :
    ∃ result, (transmit config arguments sendPduHandle world.sendMessage).run engine =
      (result, engine) := by
  unfold transmit
  by_cases hdispatcher : config.hasTransportDispatcher = true
  · rw [if_neg (not_not_intro hdispatcher)]
    cases hsend : world.sendMessage with
    | none => exact ⟨_, rfl⟩
    | some exception =>
      have hkept : ¬ (exception.isPySnmpError = true ∧ arguments.expectResponse = true) := by
        rintro ⟨hclass, hexpect⟩
        rw [htransmits exception hsend hclass] at hexpect
        cases hexpect
      simp only [runIf_of_false _ hkept]
      exact ⟨_, rfl⟩
  · rw [if_pos hdispatcher, runIf_of_false]
    · exact ⟨_, rfl⟩
    · simp [htransport.resolve_left hdispatcher]

/-- Noting a request fails where there is no transport, or adds it to the dispatcher's cache if a
response is expected. -/
theorem noteRequest_cases (config : EngineConfig) (arguments : SendArguments κ)
    (modelId : ModelId) (sendPduHandle : ℕ) (engine : Engine κ α) :
    (noteRequest config arguments modelId sendPduHandle).run engine =
        (.error .attributeError, engine) ∨
      ∃ params after, (noteRequest config arguments modelId sendPduHandle).run engine =
          (.ok (), after) ∧
        (config.hasTransportDispatcher ∨ arguments.expectResponse = false) ∧
        (params.sendPduHandle = sendPduHandle ∧ params.messageProcessingModel = modelId) ∧
        after.models = engine.models ∧
        ∀ other, after.cache.lookup other =
          if arguments.expectResponse ∧ other = sendPduHandle then some params
          else engine.cache.lookup other := by
  unfold noteRequest
  by_cases hexpect : arguments.expectResponse = true
  · by_cases hdispatcher : config.hasTransportDispatcher = true
    · rw [if_pos hexpect, if_pos hdispatcher, bind_run_of_ok (gets_run _ _)]
      refine Or.inr ⟨⟨modelId, sendPduHandle, arguments.timeout + engine.ticks,
        arguments.callback, none⟩, _, modify_run _ _, Or.inl hdispatcher, ⟨rfl, rfl⟩, rfl,
          fun other ↦ ?_⟩
      simp [hexpect]
    · rw [if_pos hexpect, if_neg hdispatcher]
      exact Or.inl rfl
  · rw [if_neg hexpect]
    rw [Bool.not_eq_true] at hexpect
    refine Or.inr ⟨⟨modelId, sendPduHandle, 0, arguments.callback, none⟩, engine, pure_run _ _,
      Or.inr hexpect, ⟨rfl, rfl⟩, rfl, fun other ↦ ?_⟩
    simp [hexpect]

/-- Handing a prepared message to the transport leaves the models alone, and the dispatcher's cache
but for the peer of the request. -/
theorem handOver_run (hsafe : SafeSend arguments world) (sendPduHandle : ℕ)
    (htransport : config.hasTransportDispatcher ∨ arguments.expectResponse = false)
    {prepared : Engine κ α} {params : CachedParams κ}
    (hnoted : arguments.expectResponse = true →
      prepared.cache.lookup sendPduHandle = some params) :
    let last := (do
      transmit config arguments sendPduHandle world.sendMessage
      runIf arguments.expectResponse (updateCache sendPduHandle arguments.peer)
      pure sendPduHandle).run prepared
    ∃ kept : CachedParams κ, kept.sendPduHandle = params.sendPduHandle ∧
      kept.messageProcessingModel = params.messageProcessingModel ∧
      last.2.models = prepared.models ∧
      ∀ other, last.2.cache.lookup other =
        if arguments.expectResponse = true ∧ other = sendPduHandle then some kept
        else prepared.cache.lookup other := by
  intro last
  obtain ⟨result, hsent⟩ := transmit_run hsafe.transmits sendPduHandle htransport prepared
  cases result with
  | error exception =>
    have hlast : last = (.error exception, prepared) := bind_run_of_error hsent
    rw [hlast]
    refine ⟨params, rfl, rfl, rfl, fun other ↦ ?_⟩
    split_ifs with hother
    · rw [hother.2, hnoted hother.1]
    · rfl
  | ok _ =>
    by_cases hexpect : arguments.expectResponse = true
    · have hupdate : (updateCache sendPduHandle arguments.peer).run prepared =
          (.ok (), { prepared with
            cache := AList.insert sendPduHandle
              { params with sentTo := some arguments.peer } prepared.cache }) := by
        unfold updateCache
        rw [bind_run_of_ok (gets_run _ _), hnoted hexpect, modify_run]
      have hlast : last = (.ok sendPduHandle, { prepared with
          cache := AList.insert sendPduHandle
            { params with sentTo := some arguments.peer } prepared.cache }) := by
        refine (bind_run_of_ok hsent).trans ?_
        rw [runIf_of_true _ hexpect, bind_run_of_ok hupdate, pure_run]
      rw [hlast]
      refine ⟨{ params with sentTo := some arguments.peer }, rfl, rfl, rfl, fun other ↦ ?_⟩
      simp only [hexpect, true_and]
      exact Dict.lookup_insert_ite _ _ _ _
    · have hlast : last = (.ok sendPduHandle, prepared) := by
        refine (bind_run_of_ok hsent).trans ?_
        rw [runIf_of_false _ hexpect]
        rfl
      rw [hlast]
      exact ⟨params, rfl, rfl, rfl, fun other ↦ (if_neg fun hother ↦ hexpect hother.1).symm⟩

/-- A safe send that was prepared: the request is recorded by the dispatcher and by its model, under
the handle drawn, or nothing is recorded. -/
theorem sends_of_prepared {avoided : Set ℕ} (hsafe : SafeSend arguments world)
    {engine last : Engine κ α} (havoids : world.sendPduHandle engine ∉ avoided) {modelId : ModelId}
    {kept : CachedParams κ} (hregistered : config.messageProcessingSubsystems modelId)
    (hkept : kept.sendPduHandle = world.sendPduHandle engine ∧
      kept.messageProcessingModel = modelId)
    (hlookup : ∀ other, last.cache.lookup other =
      if arguments.expectResponse = true ∧ other = world.sendPduHandle engine then some kept
      else engine.cache.lookup other)
    (hothers : ∀ other, other ≠ modelId → (last.models other).cache = (engine.models other).cache)
    (hmodel : if arguments.expectResponse = true then
        (engine.models modelId).cache.msgIdIndex.lookup (world.msgID engine) = none ∧ ∃ sent,
          sent.sendPduHandle = world.sendPduHandle engine ∧
          (last.models modelId).cache =
            (engine.models modelId).cache.withSent (world.msgID engine) sent
      else (last.models modelId).cache = (engine.models modelId).cache) :
    Sends config avoided engine last := by
  by_cases hexpect : arguments.expectResponse = true
  · rw [if_pos hexpect] at hmodel
    obtain ⟨hmissing, sent, hhandle, hmodel⟩ := hmodel
    simp only [hexpect, true_and, ← hhandle] at hlookup
    rw [← hhandle] at hkept havoids
    exact sends_of_sent hregistered hkept havoids (hhandle ▸ hsafe.freshHandle engine)
      (hsafe.freshMsgID engine modelId) hmissing hlookup hmodel hothers
  · rw [if_neg hexpect] at hmodel
    refine sends_of_same (fun other ↦ ?_) fun other ↦ ?_
    · rw [hlookup, if_neg fun hboth ↦ hexpect hboth.1]
    · by_cases hother : other = modelId
      · rw [hother, hmodel]
      · exact hothers other hother

theorem sends_sendPdu (avoided : Set ℕ) (hsafe : SafeSend arguments world)
    (havoids : ∀ engine, world.sendPduHandle engine ∉ avoided) :
    Keeps (Sends config avoided) (sendPdu config arguments world) := by
  intro engine hcoherent
  unfold sendPdu
  cases hhandler : config.mpHandler arguments.messageProcessingModel with
  | none => exact refl_of (Sends config avoided) engine hcoherent
  | some modelId =>
    have hregistered : config.messageProcessingSubsystems modelId :=
      (Option.filter_eq_some_iff.mp hhandler).2
    have hfresh := hsafe.freshHandle engine
    rw [bind_run_of_ok (get_run _)]
    set sendPduHandle := world.sendPduHandle engine
    rcases noteRequest_cases config arguments modelId sendPduHandle engine with
      hrun | ⟨params, noted, hrun, htransport, hparams, hmodels, hlookup⟩
    · rw [bind_run_of_error hrun]
      exact refl_of (Sends config avoided) engine hcoherent
    rw [bind_run_of_ok hrun]
    have hconsistent : Consistent (noted.models modelId).cache := by
      rw [hmodels]
      exact hcoherent.consistent modelId
    have hown : LeadsToOwn (noted.models modelId).cache sendPduHandle := by
      rw [hmodels]
      exact hfresh.leadsToOwn modelId
    have hunheld : ¬ HoldsHandle (noted.models modelId).cache sendPduHandle := by
      rw [hmodels]
      exact hcoherent.not_holdsHandle hfresh.1 modelId
    rcases prepareMessage_cases hsafe (world.msgID engine) hregistered hconsistent hown hunheld
      with ⟨exception, failed, hrun, hfailed, hcaches⟩ |
        ⟨wholeMsg, prepared, hrun, hcache, hothers, hmodel⟩
    · rw [bind_run_of_error hrun]
      refine sends_of_same (fun other ↦ ?_) (fun other ↦ ?_) hcoherent
      · rw [hfailed, hlookup]
        by_cases hother : arguments.expectResponse = true ∧ other = sendPduHandle
        · rw [if_pos hother, hother.2, hfresh.1]
        · rw [if_neg hother, if_neg hother]
      · rw [hcaches, hmodels]
    have hnoted : arguments.expectResponse = true →
        prepared.cache.lookup sendPduHandle = some params := by
      intro hexpect
      rw [hcache, hlookup, if_pos ⟨hexpect, rfl⟩]
    obtain ⟨kept, hkeptHandle, hkeptModel, hlastModels, hlast⟩ :=
      handOver_run hsafe sendPduHandle htransport hnoted
    rw [bind_run_of_ok hrun]
    generalize Effect.run _ prepared = last at hlastModels hlast
    rw [hmodels, ← hlastModels] at hmodel hothers
    refine sends_of_prepared hsafe (havoids engine) hregistered
      ⟨hkeptHandle.trans hparams.1, hkeptModel.trans hparams.2⟩ (fun other ↦ ?_) hothers hmodel
      hcoherent
    rw [hlast, hcache, hlookup]
    split_ifs
    · rfl
    · rfl

/-- A request is sent when its model prepares the message and the transport takes it: the
dispatcher keeps it under the handle drawn. -/
theorem sendPdu_run_of_ok {modelId : ModelId} {wholeMsg : Octets} {model : Model}
    {engine : Engine κ α}
    (hhandler : config.mpHandler arguments.messageProcessingModel = some modelId)
    (hdispatcher : config.hasTransportDispatcher)
    (hexpect : arguments.expectResponse = true)
    (hprepared : (prepareOutgoingMessage modelId config.environment
      (outgoingRequest arguments (world.sendPduHandle engine)) world.securing
        (world.msgID engine)).run (engine.models modelId) = (.ok wholeMsg, model))
    (hsent : world.sendMessage = none) :
    ∃ params after, (sendPdu config arguments world).run engine =
        (.ok (world.sendPduHandle engine), after) ∧
      after.cache.lookup (world.sendPduHandle engine) = some params ∧
      params.sendPduHandle = world.sendPduHandle engine ∧ params.callback = arguments.callback ∧
      after.app = engine.app := by
  set sendPduHandle := world.sendPduHandle engine
  let noted : CachedParams κ :=
    ⟨modelId, sendPduHandle, arguments.timeout + engine.ticks, arguments.callback, none⟩
  have hnote : (noteRequest config arguments modelId sendPduHandle).run engine =
      (.ok (), { engine with cache := engine.cache.insert sendPduHandle noted }) := by
    unfold noteRequest
    rw [if_pos hexpect, if_pos hdispatcher, bind_run_of_ok (gets_run _ _)]
    rfl
  have hprepare : (prepareMessage config arguments modelId sendPduHandle (world.msgID engine)
      world.securing).run { engine with cache := engine.cache.insert sendPduHandle noted } =
        (.ok wholeMsg, { engine with
          cache := engine.cache.insert sendPduHandle noted
          models := Function.update engine.models modelId model }) :=
    handle_run_of_ok (by rw [onModel_run, hprepared])
  have htransmit (state : Engine κ α) :
      (transmit config arguments sendPduHandle world.sendMessage).run state = (.ok (), state) := by
    unfold transmit
    rw [if_neg (not_not_intro hdispatcher), hsent]
    rfl
  have hupdate : (updateCache sendPduHandle arguments.peer).run { engine with
        cache := engine.cache.insert sendPduHandle noted
        models := Function.update engine.models modelId model } =
      (.ok (), { engine with
        cache := AList.insert sendPduHandle { noted with sentTo := some arguments.peer }
          (engine.cache.insert sendPduHandle noted)
        models := Function.update engine.models modelId model }) := by
    unfold updateCache
    rw [bind_run_of_ok (gets_run _ _)]
    simp
  have hrun : (sendPdu config arguments world).run engine = (.ok sendPduHandle, { engine with
      cache := AList.insert sendPduHandle { noted with sentTo := some arguments.peer }
        (engine.cache.insert sendPduHandle noted)
      models := Function.update engine.models modelId model }) := by
    unfold sendPdu
    rw [hhandler]
    simp only
    rw [bind_run_of_ok (get_run _), bind_run_of_ok hnote, bind_run_of_ok hprepare,
      bind_run_of_ok (htransmit _), runIf_of_true _ hexpect, bind_run_of_ok hupdate, pure_run]
  exact ⟨{ noted with sentTo := some arguments.peer }, _, hrun, AList.lookup_insert _, rfl, rfl,
    rfl⟩

end SendPdu

end Pysnmp.Proto.RequestRecords
