import Pysnmp.Foundation.Run
import Pysnmp.Proto.CacheEntries

/-!
# Runs of the engine and its outstanding requests

A run is a list of actions, sending, receiving, transport failures and timer ticks, and the
callbacks that an action runs send again as their `Reaction` says. `everyStep_agrees` proves that
the records of dispatcher and models agree at every step of a run whose actions are `WellBehaved`,
and that the dispatcher has the request that a received message names (`FindsRequest`). Three kinds
of actions are not well behaved, each of which takes a request out of one record only: the transport
refuses the message of a request that the model has already recorded, a message names a request of
another peer and is rejected, and the security model fails with an error that is no `PySnmpError`.
-/

set_option autoImplicit false
set_option relaxedAutoImplicit false

namespace Pysnmp.Proto.OutstandingRequests

open Foundation Foundation.Effect Mpmod.Cache Mpmod.MessageProcessing Mpmod.SentRequests
  Mpmod.RejectedMessage Mpmod.HeldRequests Dispatcher RequestRecords CacheEntries

variable {κ α : Type}

/-! ### Actions -/

/-- What an application does when it is called: it sends, and it may raise. -/
structure Reaction (κ α : Type) where
  sends : List (SendArguments κ × SendWorld κ α)
  raises : Option Raised

/-- Run a reaction. What `sendPdu` raises is the application's to handle. -/
def react (config : EngineConfig) (reaction : Reaction κ α) : EngineOp κ α Unit := do
  forEach (fun send ↦ do
    let _ ← attempt (sendPdu config send.1 send.2)
    pure ()) reaction.sends
  match reaction.raises with
  | none => pure ()
  | some exception => raise exception

/-- What can happen to an engine, with the reactions of the callbacks, by send handle, and of the
application that serves. -/
inductive Action (κ α : Type)
  | sendPdu (arguments : SendArguments κ) (world : SendWorld κ α)
  | receiveMessage (datagram : Datagram) (reactions : ℕ → Reaction κ α) (serving : Reaction κ α)
  | receiveTransportError (peer : Peer) (transportError : String)
      (reactions : ℕ → Reaction κ α)
  | handleTimerTick (reactions : ℕ → Reaction κ α)

/-- Applications that react so. -/
def reacting (config : EngineConfig) (reactions : ℕ → Reaction κ α) (serving : Reaction κ α) :
    Applications κ α where
  process := fun _ _ sendPduHandle ↦ react config (reactions sendPduHandle)
  serve := fun _ ↦ react config serving

/-- An application that does nothing. -/
def Reaction.none : Reaction κ α where
  sends := []
  raises := Option.none

/-- Carry an action out. -/
def perform (config : EngineConfig) : Action κ α → EngineOp κ α Unit
  | .sendPdu arguments world => do
    let _ ← Dispatcher.sendPdu config arguments world
    pure ()
  | .receiveMessage datagram reactions serving =>
    Dispatcher.receiveMessage config (reacting config reactions serving) datagram
  | .receiveTransportError peer transportError reactions =>
    Dispatcher.receiveTransportError config (reacting config reactions .none) peer transportError
  | .handleTimerTick reactions =>
    Dispatcher.handleTimerTick config (reacting config reactions .none)

/-- The engine after an action, whether it returned or raised. -/
def step (config : EngineConfig) (engine : Engine κ α) (action : Action κ α) : Engine κ α :=
  ((perform config action).run engine).2

/-! ### Well-behaved actions -/

/-- The dispatcher has the request that a received message names. -/
def FindsRequest (config : EngineConfig) (engine : Engine κ α) : Action κ α → Prop
  | .receiveMessage datagram _ _ =>
    ∀ modelId, datagram.version.bind config.mpHandler = some modelId → ∀ sendPduHandle,
      namedRequest ((prepareDataElements modelId config.environment datagram.incoming
        datagram.draws).run (engine.models modelId)).1 = some sendPduHandle →
      (engine.cache.lookup sendPduHandle).isSome
  | _ => True

/-- All sends of a reaction are safe, and none of them draws a handle of the set: the one of the
request whose callback is running, which the dispatcher drops when the callback returns. -/
def SafeReaction (avoided : Set ℕ) (reaction : Reaction κ α) : Prop :=
  ∀ send ∈ reaction.sends, SafeSend send.1 send.2 ∧
    ∀ engine, send.2.sendPduHandle engine ∉ avoided

/-- An action that takes no request out of one record only. -/
def WellBehaved (config : EngineConfig) (engine : Engine κ α) : Action κ α → Prop
  | .sendPdu arguments world => SafeSend arguments world
  | .receiveMessage datagram reactions serving =>
    (∀ modelId message, datagram.version.bind config.mpHandler = some modelId →
      datagram.incoming = .secured message →
      ¬ RejectsResponse modelId config.environment message datagram.draws
        (engine.models modelId)) ∧
    (∀ sendPduHandle, SafeReaction {sendPduHandle} (reactions sendPduHandle)) ∧
    SafeReaction ∅ serving
  | .receiveTransportError _ _ reactions =>
    ∀ sendPduHandle, SafeReaction {sendPduHandle} (reactions sendPduHandle)
  | .handleTimerTick reactions =>
    ∀ sendPduHandle, SafeReaction {sendPduHandle} (reactions sendPduHandle)

/-! ### Reactions -/

theorem sends_react {config : EngineConfig} {avoided : Set ℕ} {reaction : Reaction κ α}
    (hsafe : SafeReaction avoided reaction) :
    Keeps (Sends config avoided) (react config reaction) := by
  refine (Keeps.forEach fun send hmem ↦ ?_).bind fun _ ↦ ?_
  · obtain ⟨hsend, havoids⟩ := hsafe send hmem
    refine Keeps.bind (Keeps.handle ?_ fun _ ↦ keeps_pure _) fun _ ↦ keeps_pure _
    exact (sends_sendPdu avoided hsend havoids).bind fun _ ↦ keeps_pure _
  · cases reaction.raises with
    | none => exact keeps_pure ()
    | some exception => exact keeps_raise exception

/-! ### Expiring and receiving -/

section Actions

variable {config : EngineConfig} {reactions : ℕ → Reaction κ α} {serving : Reaction κ α}

/-- A request that is due is released, and then its callback runs. -/
theorem expireRequest_run_of_due (reactions : ℕ → Reaction κ α) (serving : Reaction κ α)
    (engine : Engine κ α) {params : CachedParams κ}
    {statusInformation : Option StatusDetails}
    (hregistered : config.messageProcessingSubsystems params.messageProcessingModel)
    (hconsistent : Consistent (engine.models params.messageProcessingModel).cache)
    (hown : LeadsToOwn (engine.models params.messageProcessingModel).cache params.sendPduHandle)
    (hdue : ¬ (statusInformation = none ∧ (engine.ticks : ℚ) < params.timeout)) :
    ∃ cache, ReleasesHandle (engine.models params.messageProcessingModel).cache cache
        params.sendPduHandle ∧
      (¬ HoldsHandle (engine.models params.messageProcessingModel).cache params.sendPduHandle →
        cache = (engine.models params.messageProcessingModel).cache) ∧
      (expireRequest config (reacting config reactions serving) params statusInformation).run
          engine =
        (do
          react config (reactions params.sendPduHandle)
          pure true).run { engine with
            models := Function.update engine.models params.messageProcessingModel
              { engine.models params.messageProcessingModel with cache }
            cache := engine.cache.erase params.sendPduHandle } := by
  obtain ⟨cache, hrelease, hreleases, hsame⟩ := releaseState_run engine hregistered hconsistent hown
  refine ⟨cache, hreleases, hsame, ?_⟩
  unfold expireRequest
  rw [bind_run_of_ok (gets_run _ _), if_neg hdue, bind_run_of_ok hrelease]
  rfl

/-- An expired request is gone from both records when its callback runs, and its callback does not
bring it back. -/
theorem coherent_expireRequest (serving : Reaction κ α)
    (hsafe : ∀ sendPduHandle, SafeReaction {sendPduHandle} (reactions sendPduHandle))
    {engine : Engine κ α} (hcoherent : Coherent config engine) {sendPduHandle : ℕ}
    {params : CachedParams κ} (hlookup : engine.cache.lookup sendPduHandle = some params)
    (statusInformation : Option StatusDetails) :
    let run := (expireRequest config (reacting config reactions serving) params
      statusInformation).run engine
    Coherent config run.2 ∧
      (∀ other params, other ≠ sendPduHandle → engine.cache.lookup other = some params →
        run.2.cache.lookup other = some params) ∧
      (run.1 = .ok false ∧ run.2 = engine ∨ run.2.cache.lookup sendPduHandle = none) := by
  intro run
  obtain ⟨rfl, hregistered, -⟩ := hcoherent.outstanding sendPduHandle params hlookup
  by_cases hdue : statusInformation = none ∧ (engine.ticks : ℚ) < params.timeout
  · have hkept : run = (.ok false, engine) := by
      show (Dispatcher.expireRequest config (reacting config reactions serving) params
        statusInformation).run engine = _
      unfold Dispatcher.expireRequest
      rw [bind_run_of_ok (gets_run _ _), if_pos hdue, pure_run]
    rw [hkept]
    exact ⟨hcoherent, fun _ _ _ hentry ↦ hentry, Or.inl ⟨rfl, rfl⟩⟩
  · obtain ⟨cache, hreleases, -, hrun⟩ := expireRequest_run_of_due reactions serving engine
      hregistered (hcoherent.consistent _) (hcoherent.leadsToOwn hlookup) hdue
    have hreleased : Coherent config { engine with
        models := Function.update engine.models params.messageProcessingModel
          { engine.models params.messageProcessingModel with cache }
        cache := engine.cache.erase params.sendPduHandle } := by
      refine hcoherent.of_releases params.messageProcessingModel params.sendPduHandle
        (fun other ↦ by simp) (by simpa using hreleases) (fun other hother ↦ by simp [hother])
          fun other hother hholds ↦ ?_
      obtain ⟨found, hfound, hmodel⟩ := hcoherent.recorded other _ hholds
      rw [hlookup, Option.some.injEq] at hfound
      exact hother (by rw [← hmodel, hfound])
    obtain ⟨hafter, hkept, havoided⟩ :=
      (sends_react (hsafe params.sendPduHandle)).bind (fun _ ↦ keeps_pure true) _ hreleased
    rw [← hrun] at hafter hkept havoided
    refine ⟨hafter, fun other found hother hentry ↦ hkept other found ?_,
      Or.inr (havoided _ rfl ?_)⟩
    · show AList.lookup other (AList.erase _ _) = _
      rwa [Dict.lookup_erase_ite, if_neg hother]
    · exact AList.lookup_erase _ _

/-- Programs that keep the engine coherent, whether they return or raise. -/
def KeepsCoherent (config : EngineConfig) {β : Type} (program : EngineOp κ α β) : Prop :=
  ∀ engine, Coherent config engine → Coherent config (program.run engine).2

/-- A sweep over the dispatcher's cache keeps the engine coherent. -/
theorem keepsCoherent_expireCache (serving : Reaction κ α)
    (hsafe : ∀ sendPduHandle, SafeReaction {sendPduHandle} (reactions sendPduHandle))
    {cbFun : ℕ → CachedParams κ → EngineOp κ α Bool}
    (hcbFun : ∀ index params, cbFun index params = pure false ∨ ∃ statusInformation,
      cbFun index params =
        expireRequest config (reacting config reactions serving) params statusInformation) :
    KeepsCoherent config (expireCache cbFun) := by
  intro engine hcoherent
  refine expireCache_keeps (fun state index params hstate hlookup ↦ ?_) hcoherent
  rcases hcbFun index params with hfalse | ⟨statusInformation, hexpire⟩
  · rw [hfalse]
    refine ⟨hstate, fun _ _ _ hentry ↦ hentry, fun hexpired ↦ ?_⟩
    rw [pure_run, Except.ok.injEq] at hexpired
    cases hexpired
  · obtain ⟨hafter, hkept, hgone⟩ := coherent_expireRequest serving hsafe hstate hlookup
      statusInformation
    rw [hexpire]
    refine ⟨hafter, hkept, fun hexpired ↦ hgone.resolve_left fun hstays ↦ ?_⟩
    rw [hexpired, Except.ok.injEq] at hstays
    cases hstays.1

theorem KeepsCoherent.bind {β γ : Type} {program : EngineOp κ α β} {next : β → EngineOp κ α γ}
    (hprogram : KeepsCoherent config program) (hnext : ∀ value, KeepsCoherent config (next value)) :
    KeepsCoherent config (program >>= next) := by
  intro engine hcoherent
  have hfirst := hprogram engine hcoherent
  rcases ok_or_error program engine with ⟨value, after, hok⟩ | ⟨exception, after, herror⟩
  · rw [hok] at hfirst
    rw [bind_run_of_ok hok]
    exact hnext value after hfirst
  · rw [herror] at hfirst
    rwa [bind_run_of_error herror]

theorem keepsCoherent_tickModel (modelId : ModelId) :
    KeepsCoherent config (tickModel config modelId : EngineOp κ α Unit) := by
  intro engine hcoherent
  unfold tickModel runIf
  split_ifs
  · rw [onModel_run]
    refine hcoherent.of_ages (fun _ ↦ rfl) fun other ↦ ?_
    by_cases hother : other = modelId
    · subst hother
      simpa using ages_receiveTimerTick other (hcoherent.consistent other)
    · simpa [hother] using (refl_of SameSent (engine.models other).cache).ages
  · exact hcoherent

theorem keepsCoherent_handleTimerTick
    (hsafe : ∀ sendPduHandle, SafeReaction {sendPduHandle} (reactions sendPduHandle)) :
    KeepsCoherent config (handleTimerTick config (reacting config reactions serving)) := by
  unfold handleTimerTick
  refine KeepsCoherent.bind (fun engine hcoherent ↦ ?_) fun _ ↦ KeepsCoherent.bind ?_ fun _ ↦ ?_
  · exact hcoherent.of_ages (fun _ ↦ rfl) fun _ ↦ (refl_of SameSent _).ages
  · exact keepsCoherent_expireCache serving hsafe fun _ _ ↦ Or.inr ⟨none, rfl⟩
  · exact (keepsCoherent_tickModel _).bind fun _ ↦ (keepsCoherent_tickModel _).bind
      fun _ ↦ (keepsCoherent_tickModel _).bind fun _ _ hcoherent ↦ hcoherent

theorem keepsCoherent_receiveTransportError
    (hsafe : ∀ sendPduHandle, SafeReaction {sendPduHandle} (reactions sendPduHandle))
    (peer : Peer) (transportError : String) :
    KeepsCoherent config
      (receiveTransportError config (reacting config reactions serving) peer transportError) := by
  refine keepsCoherent_expireCache serving hsafe fun _ params ↦ ?_
  split_ifs
  · exact Or.inr ⟨_, rfl⟩
  · exact Or.inl rfl

/-- A received message that names no request keeps the engine coherent. -/
theorem coherent_dispatchMessage_of_none (hserving : SafeReaction ∅ serving) {engine : Engine κ α}
    (hcoherent : Coherent config engine) {result : Except Raised PreparedMessage}
    (hnone : namedRequest result = none) :
    Coherent config
      ((dispatchMessage config (reacting config reactions serving) result).run engine).2 := by
  cases result with
  | ok message =>
    have hmessage : message.sendPduHandle = none := hnone
    simp only [dispatchMessage, hmessage]
    exact (sends_react hserving engine hcoherent).1
  | error exception =>
    cases exception with
    | statusInformation details =>
      have hdetails : details.sendPduHandle = none := hnone
      simp only [dispatchMessage, hdetails]
      exact hcoherent
    | _ => exact hcoherent

section Released

variable {engine : Engine κ α} {params : CachedParams κ}

/-- A request that its model has let go of is taken out of the dispatcher's cache. -/
theorem coherent_erase_of_releases (hcoherent : Coherent config engine) {after : Engine κ α}
    (hlookup : engine.cache.lookup params.sendPduHandle = some params)
    (hcache : after.cache = engine.cache)
    (hothers : ∀ other, other ≠ params.messageProcessingModel →
      (after.models other).cache = (engine.models other).cache)
    (hreleases : ReleasesHandle (engine.models params.messageProcessingModel).cache
      (after.models params.messageProcessingModel).cache params.sendPduHandle) :
    Coherent config { after with cache := after.cache.erase params.sendPduHandle } := by
  refine hcoherent.of_releases _ _ (fun other ↦ ?_) hreleases hothers fun other hother hheld ↦ ?_
  · show AList.lookup other (AList.erase _ _) = _
    rw [Dict.lookup_erase_ite, hcache]
  · obtain ⟨found, hfound, hfoundModel⟩ := hcoherent.recorded other _ hheld
    rw [hlookup, Option.some.injEq] at hfound
    exact hother (by rw [← hfoundModel, ← hfound])

/-- Erasing a request again from the dispatcher and from the cache of its model changes nothing. -/
theorem coherent_erase_again {modelId : ModelId} {sendPduHandle : ℕ} {cache : CacheState}
    (hcoherent : Coherent config
      { engine with cache := engine.cache.erase sendPduHandle })
    (hcache : cache = (engine.models modelId).cache) :
    Coherent config { engine with
      models := Function.update engine.models modelId { engine.models modelId with cache }
      cache := (engine.cache.erase sendPduHandle).erase sendPduHandle } := by
  refine hcoherent.of_ages (fun other ↦ ?_) fun other ↦ ?_
  · by_cases hother : other = sendPduHandle
    · simp [hother]
    · simp [hother]
  · by_cases hother : other = modelId
    · subst hother
      rw [hcache]
      simpa using (refl_of SameSent _).ages
    · simpa [hother] using (refl_of SameSent _).ages

/-- A received message that names a request keeps the engine coherent, when the model has let go of
the request and the dispatcher has it. -/
theorem coherent_dispatchMessage_of_some
    (hsafe : ∀ sendPduHandle, SafeReaction {sendPduHandle} (reactions sendPduHandle))
    (hlookup : engine.cache.lookup params.sendPduHandle = some params)
    (hregistered : config.messageProcessingSubsystems params.messageProcessingModel)
    (hreleased : Coherent config
      { engine with cache := engine.cache.erase params.sendPduHandle })
    (hunheld : ¬ HoldsHandle (engine.models params.messageProcessingModel).cache
      params.sendPduHandle)
    (hconsistent : Consistent (engine.models params.messageProcessingModel).cache)
    (hown : LeadsToOwn (engine.models params.messageProcessingModel).cache params.sendPduHandle)
    {result : Except Raised PreparedMessage}
    (hnamed : namedRequest result = some params.sendPduHandle) :
    Coherent config
      ((dispatchMessage config (reacting config reactions serving) result).run engine).2 := by
  have hpop : (popFromCache params.sendPduHandle).run engine =
      (.ok (some params), { engine with cache := engine.cache.erase params.sendPduHandle }) := by
    rw [popFromCache_run, hlookup]
  cases result with
  | ok message =>
    have hmessage : message.sendPduHandle = some params.sendPduHandle := hnamed
    simp only [dispatchMessage, hmessage, deliverResponse]
    rw [bind_run_of_ok hpop]
    exact (sends_react (hsafe params.sendPduHandle) _ hreleased).1
  | error exception =>
    cases exception with
    | statusInformation details =>
      have hdetails : details.sendPduHandle = some params.sendPduHandle := hnamed
      have hdue : ¬ (some details = none ∧ (engine.ticks : ℚ) < params.timeout) := by simp
      -- The model and the dispatcher have let go of the request already.
      obtain ⟨cache, -, hkept, hrun⟩ := expireRequest_run_of_due reactions serving
        { engine with cache := engine.cache.erase params.sendPduHandle }
        hregistered hconsistent hown hdue
      simp only [dispatchMessage, hdetails]
      rw [bind_run_of_ok hpop]
      show Coherent config ((expireRequest config (reacting config reactions serving)
        params (some details) >>= fun _ ↦ pure ()).run _).2
      rw [bind_pure_run_snd, hrun, bind_pure_run_snd]
      exact (sends_react (hsafe params.sendPduHandle) _
        (coherent_erase_again hreleased (hkept hunheld))).1
    | _ => cases hnamed

end Released

/-- What follows the preparation of a received message keeps the engine coherent, when the model has
let go of the request that it names, if any, and the dispatcher has it. -/
theorem coherent_dispatchMessage
    (hsafe : ∀ sendPduHandle, SafeReaction {sendPduHandle} (reactions sendPduHandle))
    (hserving : SafeReaction ∅ serving) {engine : Engine κ α}
    (hcoherent : Coherent config engine) (modelId : ModelId) (after : Engine κ α)
    (hcache : after.cache = engine.cache)
    (hothers : ∀ other, other ≠ modelId → (after.models other).cache = (engine.models other).cache)
    {result : Except Raised PreparedMessage}
    (hresult : namedRequest result = none ∧
        SameSent (engine.models modelId).cache (after.models modelId).cache ∨
      ∃ sendPduHandle, namedRequest result = some sendPduHandle ∧
        HoldsHandle (engine.models modelId).cache sendPduHandle ∧
        ReleasesHandle (engine.models modelId).cache (after.models modelId).cache sendPduHandle) :
    Coherent config
      ((dispatchMessage config (reacting config reactions serving) result).run after).2 := by
  rcases hresult with ⟨hnone, hsame⟩ | ⟨sendPduHandle, hnamed, hholds, hreleases⟩
  · refine coherent_dispatchMessage_of_none hserving ?_ hnone
    refine hcoherent.of_ages (fun other ↦ by rw [hcache]) fun other ↦ ?_
    by_cases hother : other = modelId
    · subst hother
      exact hsame.ages
    · rw [hothers other hother]
      exact (refl_of SameSent _).ages
  · obtain ⟨params, hlookup, hmodel⟩ := hcoherent.recorded modelId sendPduHandle hholds
    obtain ⟨hhandle, hregistered, -⟩ := hcoherent.outstanding sendPduHandle params hlookup
    subst hmodel hhandle
    exact coherent_dispatchMessage_of_some hsafe (by rw [hcache, hlookup]) hregistered
      (coherent_erase_of_releases hcoherent hlookup hcache hothers hreleases)
      (fun hheld ↦ ((hreleases.holdsHandle _).mp hheld).1 rfl) hreleases.consistent
      hreleases.leadsToOwn hnamed

/-- What a model does with a received message, in the engine. -/
theorem onModel_prepareDataElements_cases {engine : Engine κ α}
    (hcoherent : Coherent config engine) {modelId : ModelId} (datagram : Datagram)
    (haccepts : ∀ message, datagram.incoming = .secured message →
      ¬ RejectsResponse modelId config.environment message datagram.draws
        (engine.models modelId)) :
    let run := (prepareDataElements modelId config.environment datagram.incoming
      datagram.draws).run (engine.models modelId)
    namedRequest run.1 = none ∧ SameSent (engine.models modelId).cache run.2.cache ∨
      ∃ sendPduHandle, namedRequest run.1 = some sendPduHandle ∧
        HoldsHandle (engine.models modelId).cache sendPduHandle ∧
        ReleasesHandle (engine.models modelId).cache run.2.cache sendPduHandle := by
  intro run
  rcases prepareDataElements_cases modelId config.environment datagram.incoming datagram.draws
      (hcoherent.consistent modelId) with hnone | ⟨sendPduHandle, hholds, hreleases, hnamed⟩
  · exact Or.inl hnone
  · rcases hnamed with hnamed | ⟨message, hincoming, hrejects⟩
    · exact Or.inr ⟨sendPduHandle, hnamed, hholds, hreleases⟩
    · exact absurd hrejects (haccepts message hincoming)

theorem coherent_receiveMessage
    (hsafe : ∀ sendPduHandle, SafeReaction {sendPduHandle} (reactions sendPduHandle))
    (hserving : SafeReaction ∅ serving) {engine : Engine κ α}
    (hcoherent : Coherent config engine) {datagram : Datagram}
    (haccepts : ∀ modelId message, datagram.version.bind config.mpHandler = some modelId →
      datagram.incoming = .secured message →
      ¬ RejectsResponse modelId config.environment message datagram.draws
        (engine.models modelId)) :
    Coherent config
      ((receiveMessage config (reacting config reactions serving) datagram).run engine).2 := by
  unfold receiveMessage
  cases hversion : datagram.version.bind config.mpHandler with
  | none => exact hcoherent
  | some modelId =>
    have hmodel := onModel_prepareDataElements_cases hcoherent datagram
      fun message ↦ haccepts modelId message hversion
    simp only
    rw [bind_run_of_ok (attempt_run _ _), onModel_run]
    refine coherent_dispatchMessage hsafe hserving hcoherent modelId { engine with
      models := Function.update engine.models modelId ((prepareDataElements modelId
        config.environment datagram.incoming datagram.draws).run (engine.models modelId)).2 }
      rfl (fun other hother ↦ by simp [hother]) ?_
    simpa using hmodel

/-- The dispatcher has the request that a message names. -/
theorem findsRequest {engine : Engine κ α} (hcoherent : Coherent config engine)
    {action : Action κ α} (haction : WellBehaved config engine action) :
    FindsRequest config engine action := by
  cases action with
  | receiveMessage datagram reactions serving =>
    intro modelId hversion sendPduHandle hnamed
    rcases onModel_prepareDataElements_cases hcoherent datagram
        (fun message ↦ haction.1 modelId message hversion) with
      ⟨hnone, -⟩ | ⟨other, hother, hholds, -⟩
    · rw [hnamed] at hnone
      cases hnone
    · rw [hnamed, Option.some.injEq] at hother
      obtain ⟨params, hlookup, -⟩ := hcoherent.recorded modelId other hholds
      rw [hother, hlookup]
      rfl
  | _ => trivial

theorem coherent_step {engine : Engine κ α} (hcoherent : Coherent config engine)
    {action : Action κ α} (haction : WellBehaved config engine action) :
    Coherent config (step config engine action) := by
  unfold step perform
  cases action with
  | sendPdu arguments world =>
    simp only
    rw [bind_pure_run_snd]
    exact (sends_sendPdu ∅ haction (fun _ ↦ id) engine hcoherent).1
  | receiveMessage datagram reactions serving =>
    exact coherent_receiveMessage haction.2.1 haction.2.2 hcoherent haction.1
  | receiveTransportError peer transportError reactions =>
    exact keepsCoherent_receiveTransportError haction peer transportError engine hcoherent
  | handleTimerTick reactions => exact keepsCoherent_handleTimerTick haction engine hcoherent

end Actions

/-! ### Runs -/

/-- In every run of well-behaved actions, whatever their order, the records agree before and after
every action, and every message finds the request that it names. -/
theorem everyStep_agrees (config : EngineConfig) (app : α) (actions : List (Action κ α))
    (hactions : EveryStep (step config) (WellBehaved config) (Engine.initial app) actions) :
    EveryStep (step config) (fun engine action ↦ CachesAgree engine ∧
      FindsRequest config engine action ∧ CachesAgree (step config engine action))
      (Engine.initial app) actions := by
  refine EveryStep.of_invariant hactions (Coherent config) (coherent_initial app) ?_
  intro engine action hcoherent haction
  have hnext := coherent_step hcoherent haction
  exact ⟨⟨hcoherent.cachesAgree, findsRequest hcoherent haction, hnext.cachesAgree⟩, hnext⟩

/-! ### Sample runs -/

/-- An engine with all models and a transport dispatcher. -/
def sampleConfig : EngineConfig where
  environment := sampleEnvironment
  messageProcessingSubsystems := fun _ ↦ true
  hasTransportDispatcher := true

/-- A GET of the user `"u"`. -/
def sampleArguments : SendArguments Unit where
  messageProcessingModel := 3
  peer := ⟨[1, 3], [10]⟩
  securityModel := 3
  securityName := [117]
  securityLevel := .noAuthNoPriv
  contextEngineId := some [2]
  contextName := []
  pduVersion := 1
  pdu := { pduType := .getRequest, requestID := 9, varBinds := [] }
  expectResponse := true
  timeout := 4
  callback := ()

/-- A handle that neither the dispatcher nor a model knows. -/
def unusedHandle (engine : Engine κ α) : ℕ :=
  engine.cache.unusedKey + ((engine.models .v1).cache.sendPduHandleIdx.unusedKey +
    ((engine.models .v2c).cache.sendPduHandleIdx.unusedKey +
      (engine.models .v3).cache.sendPduHandleIdx.unusedKey))

/-- A message identifier beyond those that the handles lead to. -/
def unusedMsgID (engine : Engine Unit Unit) : ℤ :=
  let beyond := fun modelId : ModelId ↦
    ((engine.models modelId).cache.sendPduHandleIdx.entries.map fun entry ↦
      entry.2.natAbs).sum
  ((beyond .v1 + (beyond .v2c + (beyond .v3 + 1)) : ℕ) : ℤ)

/-- The message is secured, and the transport takes it. -/
def sampleWorld : SendWorld Unit Unit where
  sendPduHandle := unusedHandle
  msgID := unusedMsgID
  securing := ⟨.ok (), .ok [48]⟩
  sendMessage := none

/-- A response of the right user under the first identifier drawn. -/
def sampleResponse : SecuredMessage where
  msgVersion := 3
  msgID := 1
  reportableFlag := false
  msgMaxSize := 65507
  peer := ⟨[1, 3], [10]⟩
  securityModel := 3
  securityLevel := .noAuthNoPriv
  securityEngineId := [2]
  securityName := [117]
  contextEngineId := [2]
  contextName := []
  pdu := { pduType := .response, requestID := 9, varBinds := [] }
  maxSizeResponseScopedPDU := 65000
  securityStateReference := 1

/-- A message of SNMPv3. -/
def sampleDatagram (message : SecuredMessage) : Datagram where
  version := some 3
  incoming := .secured message
  draws := ⟨1, 1⟩

theorem freshHandle_of_le {engine : Engine κ α} {sendPduHandle : ℕ}
    (hle : unusedHandle engine ≤ sendPduHandle) : FreshHandle engine sendPduHandle := by
  unfold unusedHandle Dict.unusedKey at hle
  constructor
  · apply Dict.lookup_of_sum_lt
    omega
  · intro modelId msgId hhandle
    have hmissing : (engine.models modelId).cache.sendPduHandleIdx.lookup sendPduHandle = none := by
      apply Dict.lookup_of_sum_lt
      cases modelId
      · omega
      · omega
      · omega
    rw [hmissing] at hhandle
    cases hhandle

theorem freshMsgID_unusedMsgID (engine : Engine Unit Unit) (modelId : ModelId) :
    FreshMsgID engine modelId (unusedMsgID engine) := by
  intro sendPduHandle _ hhandle
  have hmem := List.mem_map_of_mem (f := fun entry : (_ : ℕ) × ℤ ↦ entry.2.natAbs)
    (AList.mem_lookup_iff.mp hhandle)
  have hle := List.single_le_sum (fun _ _ ↦ Nat.zero_le _) _ hmem
  unfold unusedMsgID at hle
  cases modelId
  · simp only at hle
    omega
  · simp only at hle
    omega
  · simp only at hle
    omega

theorem safeSend_sampleWorld : SafeSend sampleArguments sampleWorld where
  answers := rfl
  secures := by
    rintro exception (hassembled | hgenerated)
    · cases hassembled
    · cases hgenerated
  transmits := by
    intro exception hsend
    cases hsend
  freshHandle := fun _ ↦ freshHandle_of_le le_rfl
  freshMsgID := freshMsgID_unusedMsgID

/-- A request, its response and a timer tick. -/
theorem everyStep_agrees_sampleRun :
    EveryStep (step sampleConfig) (fun engine action ↦ CachesAgree engine ∧
      FindsRequest sampleConfig engine action ∧ CachesAgree (step sampleConfig engine action))
      (Engine.initial ()) [.sendPdu sampleArguments sampleWorld,
        .receiveMessage (sampleDatagram sampleResponse) (fun _ ↦ .none) .none,
        .handleTimerTick fun _ ↦ .none] := by
  have hnone (avoided : Set ℕ) : SafeReaction (κ := Unit) (α := Unit) avoided .none := by
    intro send hmem
    cases hmem
  refine everyStep_agrees sampleConfig () _ ⟨safeSend_sampleWorld, ⟨?_, fun _ ↦ hnone _, hnone _⟩,
    fun _ ↦ hnone _, trivial⟩
  intro modelId message hversion hincoming hrejects
  cases hversion
  cases hincoming
  cases hrejects.isRejected

/-- A GET whose message the transport refuses. -/
def refusedSend : Action Unit Unit :=
  .sendPdu sampleArguments { sampleWorld with sendMessage := some .pySnmpError }

/-- A report that names the GET. -/
def lateReport : Action Unit Unit :=
  .receiveMessage (sampleDatagram { sampleResponse with
    pdu := { pduType := .report, requestID := 0, varBinds := [] } }) (fun _ ↦ .none) .none

/-- After a refused send the model holds a request that the dispatcher has not, and a report that
names it stops `receiveMessage` at the missing entry. -/
theorem not_cachesAgree_refusedSend :
    let engine := step sampleConfig (Engine.initial ()) refusedSend
    ¬ CachesAgree engine ∧ ¬ FindsRequest sampleConfig engine lateReport ∧
      ((perform sampleConfig lateReport).run engine).1 = .error .typeError := by
  intro engine
  refine ⟨fun hagree ↦ ?_, fun hfinds ↦ ?_, rfl⟩
  · obtain ⟨params, hlookup, -⟩ := (hagree 4).1 .v3 ⟨1, _, _, rfl, rfl⟩
    cases hlookup
  · have hfound := hfinds .v3 rfl 4 rfl
    cases hfound

end Pysnmp.Proto.OutstandingRequests
