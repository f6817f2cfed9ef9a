import Pysnmp.Entity.Rfc3413.CommandGenerator
import Pysnmp.Entity.Rfc3413.PendingRequests
import Pysnmp.Proto.OutstandingRequests

/-!
# How often an application is called back

An application sends commands through a command generator, from outside and from its own callbacks,
while messages, transport failures and timer ticks reach the engine in any order.
`everyStep_completesOnce` proves that every command is completed exactly once along such a run,
provided that its actions are `Orderly`. Three kinds of events are not: a report without bindings
names the request, so that there is no error to tell the application of; the response of an SNMPv1
agent cannot be translated; the send of a retry fails with something else than a
`StatusInformation`. Each of them raises after the pending request has been taken, and the
application is never called.
-/

set_option autoImplicit false
set_option relaxedAutoImplicit false

namespace Pysnmp.Entity.Rfc3413.Completion

open Foundation Foundation.Effect Proto Proto.Dispatcher Proto.Mpmod.MessageProcessing
  Proto.Mpmod.SentRequests Proto.Mpmod.RejectedMessage Proto.Mpmod.HeldRequests
  Proto.RequestRecords Proto.CacheEntries Proto.Proxy.Rfc2576 Requesters PendingRequests
  CommandGenerator

/-! ### Actions -/

/-- A command of the application. -/
structure Command where
  target : TargetInfo
  contextEngineId : Option Octets
  contextName : Octets
  pdu : Pdu
  getNextHandle : Engine ℕ (Requester PendingRequest) → ℕ
  world : World PendingRequest

/-- Send a command. -/
def Command.send (config : EngineConfig) (command : Command) : GeneratorOp ℕ :=
  sendPdu config command.target command.contextEngineId command.contextName command.pdu
    command.getNextHandle command.world

/-- What the application does when it is called: it sends commands, and it may raise. -/
structure Reaction where
  commands : List Command
  raises : Option Raised

/-- Run a reaction. What `sendPdu` raises is the application's to handle. -/
def react (config : EngineConfig) (reaction : Reaction) : GeneratorOp Unit := do
  forEach (fun command ↦ do
    let _ ← attempt (command.send config)
    pure ()) reaction.commands
  match reaction.raises with
  | none => pure ()
  | some exception => raise exception

/-- What the engine meets when requests are settled, by send handle: the world of a retry and the
reaction of the application; and the reaction of the application that serves. -/
structure Surroundings where
  retries : ℕ → World PendingRequest
  reactions : ℕ → Reaction
  serving : Reaction

/-- The command generator and its application. -/
def applications (config : EngineConfig) (discoveryRetries : ℤ) (surroundings : Surroundings) :
    Applications ℕ (Requester PendingRequest) where
  process := fun sendRequestHandle outcome sendPduHandle ↦
    processResponsePdu config discoveryRetries
      (fun _ _ ↦ react config (surroundings.reactions sendPduHandle))
      (surroundings.retries sendPduHandle) sendRequestHandle outcome sendPduHandle
  serve := fun _ ↦ react config surroundings.serving

/-- What can happen to the engine. -/
inductive Action
  | sendPdu (command : Command)
  | receiveMessage (datagram : Datagram) (surroundings : Surroundings)
  | receiveTransportError (peer : Peer) (transportError : String) (surroundings : Surroundings)
  | handleTimerTick (surroundings : Surroundings)

/-- Carry an action out. -/
def perform (config : EngineConfig) (discoveryRetries : ℤ) : Action → GeneratorOp Unit
  | .sendPdu command => do
    let _ ← command.send config
    pure ()
  | .receiveMessage datagram surroundings =>
    receiveMessage config (applications config discoveryRetries surroundings) datagram
  | .receiveTransportError peer transportError surroundings =>
    receiveTransportError config (applications config discoveryRetries surroundings) peer
      transportError
  | .handleTimerTick surroundings =>
    handleTimerTick config (applications config discoveryRetries surroundings)

/-- The engine after an action, whether it returned or raised. -/
def step (config : EngineConfig) (discoveryRetries : ℤ)
    (engine : Engine ℕ (Requester PendingRequest)) (action : Action) :
    Engine ℕ (Requester PendingRequest) :=
  ((perform config discoveryRetries action).run engine).2

/-! ### Completion -/

/-- Every command issued has been completed once, and nothing waits for it, or it has not been
completed and waits under one handle, which the generator and the dispatcher both keep. Nothing else
is pending, and as many jobs are to be finished as requests are pending. -/
structure CompletesOnce (engine : Engine ℕ (Requester PendingRequest)) : Prop where
  completed : ∀ sendRequestHandle ∈ engine.app.issued,
    timesCalled engine sendRequestHandle = 1 ∧ waiting engine sendRequestHandle = [] ∨
      timesCalled engine sendRequestHandle = 0 ∧
        ∃ sendPduHandle, waiting engine sendRequestHandle = [sendPduHandle]
  pending : ∀ sendPduHandle ∈ engine.app.pendingReqs,
    ∃ sendRequestHandle ∈ engine.app.issued, sendPduHandle ∈ waiting engine sendRequestHandle
  jobs : engine.app.jobsStarted =
    engine.app.jobsFinished + engine.app.pendingReqs.keys.length

/-- When every command has been completed, nothing is pending and every job is finished. -/
theorem CompletesOnce.idle {engine : Engine ℕ (Requester PendingRequest)}
    (hcompletes : CompletesOnce engine)
    (hcalled : ∀ sendRequestHandle ∈ engine.app.issued, timesCalled engine sendRequestHandle ≠ 0) :
    engine.app.pendingReqs.keys = [] ∧ engine.app.jobsFinished = engine.app.jobsStarted := by
  have hempty : engine.app.pendingReqs.keys = [] := by
    apply List.eq_nil_iff_forall_not_mem.mpr
    intro sendPduHandle hmem
    obtain ⟨sendRequestHandle, hissued, hwaiting⟩ :=
      hcompletes.pending sendPduHandle (AList.mem_keys.mpr hmem)
    rcases hcompletes.completed sendRequestHandle hissued with ⟨-, hnone⟩ | ⟨hzero, -⟩
    · rw [hnone] at hwaiting
      cases hwaiting
    · exact hcalled sendRequestHandle hissued hzero
  refine ⟨hempty, ?_⟩
  have hjobs := hcompletes.jobs
  rw [hempty] at hjobs
  exact hjobs.symm

/-! ### Orderly actions -/

/-- The handles that a command draws, in the engine that it is given in, are not in use there, and
the send handle is not in the set. -/
structure FreshCommand (avoided : Set ℕ) (command : Command) : Prop where
  draws : FreshDraws avoided command.world
  freshHandle : ∀ engine, command.getNextHandle engine ∉ engine.app.issued

/-- All commands of a reaction draw fresh handles. -/
def FreshReaction (avoided : Set ℕ) (reaction : Reaction) : Prop :=
  ∀ command ∈ reaction.commands, FreshCommand avoided command

/-- Where handles are fresh, and a retry fails, if it does, with a `StatusInformation` that has an
error indication. -/
structure OrderlySurroundings (surroundings : Surroundings) : Prop where
  retries : ∀ sendPduHandle, FreshDraws {sendPduHandle} (surroundings.retries sendPduHandle)
  failures : ∀ sendPduHandle, FailsCleanly (surroundings.retries sendPduHandle)
  reactions : ∀ sendPduHandle,
    FreshReaction {sendPduHandle} (surroundings.reactions sendPduHandle)
  serving : FreshReaction ∅ surroundings.serving

/-- A message that answers a pending request has something to tell: a report has bindings, and the
response of an SNMPv1 agent, if it matches the request, can be translated. -/
def AnswersPlainly (config : EngineConfig) (engine : Engine ℕ (Requester PendingRequest))
    (datagram : Datagram) : Prop :=
  ∀ modelId message sent expireAt pending,
    datagram.version.bind config.mpHandler = some modelId →
    datagram.incoming = .secured message → message.pdu.pduType.isResponseClass →
    (engine.models modelId).cache.msgIdIndex.lookup (requestName modelId message) =
      some (sent, expireAt) →
    engine.app.pendingReqs.lookup sent.sendPduHandle = some pending →
    (modelId = .v3 → message.pdu.pduType.isInternalClass → message.pdu.varBinds ≠ []) ∧
    (message.msgVersion = 0 → modelId ≠ .v3 ∧
      let pdu := { message.pdu with requestID := sent.originalID }
      (pending.matchesResponse
          (prepared message message.msgVersion pdu (some sent.sendPduHandle) none) →
        ∃ translated, v1ToV2 pdu pending.pdu = .ok translated))

/-- An action that leads to no outcome that the generator cannot tell the application of. -/
def Orderly (config : EngineConfig) (engine : Engine ℕ (Requester PendingRequest)) : Action → Prop
  | .sendPdu command => FreshCommand ∅ command
  | .receiveMessage datagram surroundings =>
    OrderlySurroundings surroundings ∧ AnswersPlainly config engine datagram
  | .receiveTransportError _ _ surroundings => OrderlySurroundings surroundings
  | .handleTimerTick surroundings => OrderlySurroundings surroundings

/-! ### Commands -/

/-- A request that its target understands, in an engine that can send. -/
def Sendable (config : EngineConfig) (pending : PendingRequest) : Prop :=
  config.hasTransportDispatcher ∧
    ∃ request, requestFor pending.messageProcessingModel pending.pdu = .ok request

theorem resends_commandGenerator (config : EngineConfig) (discoveryRetries : ℤ) :
    Resends (commandGenerator discoveryRetries) config (Sendable config) where
  connected := fun _ hsendable ↦ hsendable.1
  again := by
    intro pending sendRequestHandle counted hsendable
    obtain ⟨request, hrequest⟩ := hsendable.2
    exact ⟨_, again_eq_ok_iff.mpr ⟨request, hrequest, rfl⟩, rfl, hsendable.1, request, hrequest⟩

section Steady

variable {config : EngineConfig} {avoided : Set ℕ}

theorem steady_commandSend {command : Command} (hfresh : FreshCommand avoided command) :
    Keeps (Steady (Sendable config) avoided) (command.send config) := by
  refine steady_send config (fun prepare hprepare sendRequestHandle ↦ ?_) hfresh.freshHandle
    hfresh.draws
  unfold firstRequest at hprepare
  obtain ⟨request, hrequest, hprepare⟩ := exists_of_bind_eq_ok hprepare
  cases hprepare
  exact ⟨rfl, rfl, fun hdispatcher ↦ ⟨hdispatcher, request, hrequest⟩⟩

theorem steady_react {reaction : Reaction} (hfresh : FreshReaction avoided reaction) :
    Keeps (Steady (Sendable config) avoided) (react config reaction) := by
  refine (Keeps.forEach fun command hmem ↦ ?_).bind fun _ ↦ ?_
  · refine Keeps.bind (Keeps.handle ?_ fun _ ↦ keeps_pure _) fun _ ↦ keeps_pure _
    exact (steady_commandSend (hfresh command hmem)).bind fun _ ↦ keeps_pure _
  · cases reaction.raises with
    | none => exact keeps_pure ()
    | some exception => exact keeps_raise exception

end Steady

/-! ### Steps -/

section Steps

variable {config : EngineConfig} (discoveryRetries : ℤ) {surroundings : Surroundings}
  {engine : Engine ℕ (Requester PendingRequest)}

/-- The dispatcher has dropped an entry, and calls the generator back. -/
theorem books_process (hsurroundings : OrderlySurroundings surroundings) {sendPduHandle : ℕ}
    {params : CachedParams ℕ} {models : ModelId → Model} (outcome : Outcome)
    (hbooks : Books (Sendable config) [] engine) (hconsistent : AllConsistent models)
    (hentry : engine.cache.lookup sendPduHandle = some params)
    (htellable : ∀ pending, engine.app.pendingReqs.lookup sendPduHandle = some pending →
      Tellable (commandGenerator discoveryRetries) pending outcome) :
    let released := { engine with models, cache := engine.cache.erase sendPduHandle }
    let after := (((applications config discoveryRetries surroundings).process params.callback
      outcome sendPduHandle).run released).2
    Books (Sendable config) [] after ∧ Grows {sendPduHandle} released after :=
  books_processResponsePdu (fun _ _ ↦ steady_react (hsurroundings.reactions sendPduHandle))
    (hsurroundings.retries sendPduHandle) (hsurroundings.failures sendPduHandle)
    (resends_commandGenerator config discoveryRetries) htellable hbooks hconsistent hentry

/-- A request that expires with an error indication leaves the books in order, the other entries
where they are, and its own handle without one. -/
theorem books_expireRequest (hsurroundings : OrderlySurroundings surroundings) {sendPduHandle : ℕ}
    {params : CachedParams ℕ} (hbooks : Books (Sendable config) [] engine)
    (hentry : engine.cache.lookup sendPduHandle = some params)
    (statusInformation : Option StatusDetails)
    (htells : ∀ details, statusInformation = some details → details.errorIndication.isSome) :
    let run := (expireRequest config (applications config discoveryRetries surroundings) params
      statusInformation).run engine
    Books (Sendable config) [] run.2 ∧
      (∀ other params, other ≠ sendPduHandle → engine.cache.lookup other = some params →
        run.2.cache.lookup other = some params) ∧
      (run.1 = .ok true → run.2.cache.lookup sendPduHandle = none) := by
  intro run
  have hhandle := hbooks.keyed sendPduHandle params hentry
  by_cases hdue : statusInformation = none ∧ (engine.ticks : ℚ) < params.timeout
  · have hkept : run = (.ok false, engine) := by
      show (expireRequest config (applications config discoveryRetries surroundings) params
        statusInformation).run engine = _
      unfold expireRequest
      rw [bind_run_of_ok (gets_run _ _), if_pos hdue, pure_run]
    rw [hkept]
    refine ⟨hbooks, fun _ _ _ hlookup ↦ hlookup, fun hexpired ↦ ?_⟩
    rw [Except.ok.injEq] at hexpired
    cases hexpired
  · obtain ⟨models, hmodels, hrun⟩ := expireRequest_effect config
      (applications config discoveryRetries surroundings) engine params statusInformation
      hbooks.consistent hdue
    rw [hhandle] at hrun
    obtain ⟨hafter, hgrows⟩ := books_process discoveryRetries hsurroundings
      (.failure (statusInformation.getD { errorIndication := some .requestTimedOut })) hbooks
      hmodels hentry fun pending _ ↦ by
        cases statusInformation with
        | none => rfl
        | some details => exact htells details rfl
    have hlast : run.2 = (((applications config discoveryRetries surroundings).process
        params.callback (.failure (statusInformation.getD
          { errorIndication := some .requestTimedOut })) sendPduHandle).run
            { engine with models, cache := engine.cache.erase sendPduHandle }).2 := by
      show ((expireRequest config (applications config discoveryRetries surroundings) params
        statusInformation).run engine).2 = _
      rw [hrun, bind_pure_run_snd]
    rw [hlast]
    refine ⟨hafter, fun other found hother hlookup ↦ hgrows.1 other found ?_,
      fun _ ↦ hgrows.2 sendPduHandle rfl (AList.lookup_erase _ _)⟩
    show AList.lookup other (AList.erase _ _) = _
    rwa [Dict.lookup_erase_ite, if_neg hother]

/-- Programs that keep the books, whether they return or raise. -/
def KeepsBooks (config : EngineConfig) {β : Type} (program : GeneratorOp β) : Prop :=
  ∀ engine, Books (Sendable config) [] engine → Books (Sendable config) [] (program.run engine).2

theorem KeepsBooks.bind {β γ : Type} {program : GeneratorOp β} {next : β → GeneratorOp γ}
    (hprogram : KeepsBooks config program) (hnext : ∀ value, KeepsBooks config (next value)) :
    KeepsBooks config (program >>= next) := by
  intro engine hbooks
  have hfirst := hprogram engine hbooks
  rcases ok_or_error program engine with ⟨value, after, hok⟩ | ⟨exception, after, herror⟩
  · rw [hok] at hfirst
    rw [bind_run_of_ok hok]
    exact hnext value after hfirst
  · rw [herror] at hfirst
    rwa [bind_run_of_error herror]

/-- A sweep keeps the books if what it expires it expires with an error indication. -/
theorem keepsBooks_expireCache (hsurroundings : OrderlySurroundings surroundings)
    {cbFun : ℕ → CachedParams ℕ → GeneratorOp Bool}
    (hcbFun : ∀ index params, cbFun index params = pure false ∨ ∃ statusInformation,
      (∀ details, statusInformation = some details → details.errorIndication.isSome) ∧
        cbFun index params = expireRequest config
          (applications config discoveryRetries surroundings) params statusInformation) :
    KeepsBooks config (expireCache cbFun) := by
  intro engine hbooks
  refine expireCache_keeps (fun state index params hstate hlookup ↦ ?_) hbooks
  rcases hcbFun index params with hfalse | ⟨statusInformation, htells, hexpire⟩
  · rw [hfalse]
    refine ⟨hstate, fun _ _ _ hentry ↦ hentry, fun hexpired ↦ ?_⟩
    rw [pure_run, Except.ok.injEq] at hexpired
    cases hexpired
  · rw [hexpire]
    exact books_expireRequest discoveryRetries hsurroundings hstate hlookup statusInformation htells

theorem keepsBooks_receiveTransportError (hsurroundings : OrderlySurroundings surroundings)
    (peer : Peer) (transportError : String) :
    KeepsBooks config (receiveTransportError config
      (applications config discoveryRetries surroundings) peer transportError) := by
  refine keepsBooks_expireCache discoveryRetries hsurroundings fun _ params ↦ ?_
  split_ifs
  · exact Or.inr ⟨_, fun details hdetails ↦ by cases hdetails; rfl, rfl⟩
  · exact Or.inl rfl

theorem keepsBooks_tickModel (modelId : ModelId) :
    KeepsBooks config (tickModel config modelId) := by
  intro engine hbooks
  unfold tickModel runIf
  split_ifs
  · rw [onModel_run]
    refine hbooks.of_entries rfl (hbooks.consistent.update modelId ?_) hbooks.keyed fun _ _ ↦ rfl
    exact (ages_receiveTimerTick modelId (hbooks.consistent modelId)).consistent
      (hbooks.consistent modelId)
  · exact hbooks

theorem keepsBooks_handleTimerTick (hsurroundings : OrderlySurroundings surroundings) :
    KeepsBooks config (handleTimerTick config
      (applications config discoveryRetries surroundings)) := by
  unfold handleTimerTick
  refine KeepsBooks.bind (fun engine hbooks ↦ ?_) fun _ ↦ KeepsBooks.bind ?_ fun _ ↦ ?_
  · exact hbooks.of_entries rfl hbooks.consistent hbooks.keyed fun _ _ ↦ rfl
  · exact keepsBooks_expireCache discoveryRetries hsurroundings
      fun _ _ ↦ Or.inr ⟨none, fun _ hdetails ↦ (Option.some_ne_none _ hdetails.symm).elim, rfl⟩
  · exact (keepsBooks_tickModel _).bind fun _ ↦ (keepsBooks_tickModel _).bind
      fun _ ↦ (keepsBooks_tickModel _).bind fun _ _ hbooks ↦ hbooks

/-- The entry that a message names is dropped, and the generator is called back if there was one. -/
theorem books_deliver (hsurroundings : OrderlySurroundings surroundings)
    (hbooks : Books (Sendable config) [] engine) (message : PreparedMessage) {sendPduHandle : ℕ}
    (htellable : ∀ pending, engine.app.pendingReqs.lookup sendPduHandle = some pending →
      Tellable (commandGenerator discoveryRetries) pending (.response message)) :
    Books (Sendable config) [] ((deliverResponse
      (applications config discoveryRetries surroundings) message sendPduHandle).run engine).2 := by
  unfold deliverResponse
  rw [bind_run_of_ok (popFromCache_run _ _)]
  cases hentry : engine.cache.lookup sendPduHandle with
  | none =>
    simp only
    rw [Dict.erase_of_lookup_eq_none hentry, pure_run]
    exact hbooks
  | some params =>
    simp only
    rw [hbooks.keyed sendPduHandle params hentry]
    exact (books_process discoveryRetries hsurroundings _ hbooks hbooks.consistent hentry
      htellable).1

/-- A report that names an entry, if that is there, tells the generator how its request failed. -/
theorem books_expirePopped (hsurroundings : OrderlySurroundings surroundings)
    (hbooks : Books (Sendable config) [] engine) {details : StatusDetails} {sendPduHandle : ℕ}
    (htellable : ∀ pending, engine.app.pendingReqs.lookup sendPduHandle = some pending →
      details.errorIndication.isSome) :
    Books (Sendable config) [] ((popFromCache sendPduHandle >>= fun cachedParams ↦
      expirePopped config (applications config discoveryRetries surroundings) cachedParams
        details).run engine).2 := by
  rw [bind_run_of_ok (popFromCache_run _ _)]
  cases hentry : engine.cache.lookup sendPduHandle with
  | none =>
    rw [Dict.erase_of_lookup_eq_none hentry]
    exact hbooks
  | some params =>
    obtain ⟨models, hmodels, hrun⟩ := expireRequest_effect config
      (applications config discoveryRetries surroundings)
      { engine with cache := engine.cache.erase sendPduHandle } params (some details)
      hbooks.consistent (by simp)
    have herased : AList.erase sendPduHandle (engine.cache.erase sendPduHandle) =
        engine.cache.erase sendPduHandle :=
      Dict.erase_of_lookup_eq_none (AList.lookup_erase _ _)
    rw [hbooks.keyed sendPduHandle params hentry, herased] at hrun
    show Books (Sendable config) [] ((expireRequest config
      (applications config discoveryRetries surroundings) params (some details) >>=
        fun _ ↦ pure ()).run _).2
    rw [bind_pure_run_snd, hrun, bind_pure_run_snd]
    exact (books_process discoveryRetries hsurroundings (.failure details) hbooks hmodels hentry
      htellable).1

theorem exists_responseResult {pending : PendingRequest} {message : PreparedMessage}
    (htranslates : message.messageProcessingModel = 0 → pending.matchesResponse message →
      ∃ translated, v1ToV2 message.pdu pending.pdu = .ok translated) :
    ∃ result, pending.responseResult message = .ok result := by
  unfold PendingRequest.responseResult
  by_cases hmatches : pending.matchesResponse message = true
  · rw [if_pos hmatches]
    by_cases hversion : message.messageProcessingModel = 0
    · obtain ⟨translated, htranslated⟩ := htranslates hversion hmatches
      rw [if_pos hversion, htranslated]
      by_cases hsame : translated.requestID = pending.pdu.requestID
      · exact ⟨.response translated, if_pos hsame⟩
      · exact ⟨.badResponse, if_neg hsame⟩
    · rw [if_neg hversion]
      by_cases hsame : message.pdu.requestID = pending.pdu.requestID
      · exact ⟨.response message.pdu, if_pos hsame⟩
      · exact ⟨.badResponse, if_neg hsame⟩
  · rw [if_neg hmatches]
    exact ⟨.badResponse, rfl⟩

/-- What follows a message that names no request. -/
theorem books_dispatchMessage_of_none (hsurroundings : OrderlySurroundings surroundings)
    (hbooks : Books (Sendable config) [] engine) {result : Except Raised PreparedMessage}
    (hnone : namedRequest result = none) :
    Books (Sendable config) [] ((dispatchMessage config
      (applications config discoveryRetries surroundings) result).run engine).2 := by
  cases result with
  | ok message =>
    have hmessage : message.sendPduHandle = none := hnone
    simp only [dispatchMessage, hmessage]
    exact (steady_react hsurroundings.serving engine hbooks).1
  | error exception =>
    cases exception with
    | statusInformation details =>
      have hdetails : details.sendPduHandle = none := hnone
      simp only [dispatchMessage, hdetails]
      exact hbooks
    | _ => exact hbooks

theorem books_receiveMessage (hsurroundings : OrderlySurroundings surroundings)
    (hbooks : Books (Sendable config) [] engine) {datagram : Datagram}
    (hanswers : AnswersPlainly config engine datagram) :
    Books (Sendable config) [] ((receiveMessage config
      (applications config discoveryRetries surroundings) datagram).run engine).2 := by
  unfold receiveMessage
  cases hversion : datagram.version.bind config.mpHandler with
  | none => exact hbooks
  | some modelId =>
    simp only
    rw [bind_run_of_ok (attempt_run _ _), onModel_run]
    have hreceived (model : Model) (hmodel : Consistent model.cache) :
        Books (Sendable config) []
          { engine with models := Function.update engine.models modelId model } :=
      hbooks.of_entries rfl (hbooks.consistent.update modelId hmodel) hbooks.keyed fun _ _ ↦ rfl
    rcases prepareDataElements_result modelId config.environment datagram.incoming
        datagram.draws (hbooks.consistent modelId) with
      ⟨hnone, hsame⟩ | ⟨message, sent, expireAt, hincoming, hresponse, hentry, hresult, hreleases⟩
    · exact books_dispatchMessage_of_none discoveryRetries hsurroundings
        (hreceived _ (hsame.consistent (hbooks.consistent modelId))) hnone
    · have hafter := hreceived _ hreleases.consistent
      have hplain (pending : PendingRequest) := hanswers modelId message sent expireAt pending
        hversion hincoming hresponse hentry
      rw [hresult]
      unfold responseResult
      split_ifs with hinternal hagrees
      · have htells (pending : PendingRequest)
            (hpending : engine.app.pendingReqs.lookup sent.sendPduHandle = some pending) :
            (reportDetails message.pdu sent.sendPduHandle).errorIndication.isSome := by
          have hbindings := (hplain pending hpending).1 hinternal.1 hinternal.2
          unfold reportDetails
          cases hvarBinds : message.pdu.varBinds with
          | nil => exact absurd hvarBinds hbindings
          | cons _ _ => rfl
        have hnamed : (reportDetails message.pdu sent.sendPduHandle).sendPduHandle =
            some sent.sendPduHandle := by
          unfold reportDetails
          cases message.pdu.varBinds with
          | nil => rfl
          | cons _ _ => rfl
        simp only [dispatchMessage, hnamed]
        exact books_expirePopped discoveryRetries hsurroundings hafter htells
      · have hresponds := books_deliver discoveryRetries hsurroundings hafter
          (prepared message message.msgVersion
            { message.pdu with requestID := sent.originalID } (some sent.sendPduHandle) none)
          fun pending hpending ↦ exists_responseResult
            fun hzero hmatches ↦ ((hplain pending hpending).2 hzero).2 hmatches
        cases modelId with
        | v3 =>
          exact books_deliver discoveryRetries hsurroundings hafter _ fun pending hpending ↦
            exists_responseResult fun hzero _ ↦ absurd rfl ((hplain pending hpending).2 hzero).1
        | v1 => exact hresponds
        | v2c => exact hresponds
      · exact hafter

theorem books_step (hbooks : Books (Sendable config) [] engine) {action : Action}
    (haction : Orderly config engine action) :
    Books (Sendable config) [] (step config discoveryRetries engine action) := by
  unfold step perform
  cases action with
  | sendPdu command =>
    simp only
    rw [bind_pure_run_snd]
    exact (steady_commandSend haction engine hbooks).1
  | receiveMessage datagram surroundings =>
    exact books_receiveMessage discoveryRetries haction.1 hbooks haction.2
  | receiveTransportError peer transportError surroundings =>
    exact keepsBooks_receiveTransportError discoveryRetries haction peer transportError engine
      hbooks
  | handleTimerTick surroundings =>
    exact keepsBooks_handleTimerTick discoveryRetries haction engine hbooks

end Steps

/-! ### Runs -/

/-- Books with nothing in hand account for every command. -/
theorem completesOnce_of_books {config : EngineConfig}
    {engine : Engine ℕ (Requester PendingRequest)} (hbooks : Books (Sendable config) [] engine) :
    CompletesOnce engine := by
  refine ⟨fun sendRequestHandle hissued ↦ ?_, fun sendPduHandle hpending ↦ ?_, hbooks.jobs⟩
  · have hbalanced := hbooks.balanced sendRequestHandle
    rw [List.count_eq_one_of_mem hbooks.distinct hissued, List.count_nil] at hbalanced
    rcases Nat.eq_zero_or_pos (timesCalled engine sendRequestHandle) with hzero | hpositive
    · refine Or.inr ⟨hzero, List.length_eq_one_iff.mp ?_⟩
      omega
    · refine Or.inl ⟨by omega, List.length_eq_zero_iff.mp ?_⟩
      omega
  · obtain ⟨pending, hlookup⟩ := Option.isSome_iff_exists.mp (AList.lookup_isSome.mpr hpending)
    obtain ⟨params, hentry⟩ :=
      Option.isSome_iff_exists.mp (hbooks.linked sendPduHandle pending hlookup).2
    have hwaiting : sendPduHandle ∈ waiting engine params.callback := by
      unfold waiting requestOf
      rw [List.mem_filter, hentry]
      exact ⟨AList.mem_keys.mp hpending, by simp⟩
    refine ⟨params.callback, ?_, hwaiting⟩
    have hbalanced := hbooks.balanced params.callback
    have hpositive := List.length_pos_of_mem hwaiting
    rw [← List.count_pos_iff]
    omega

/-- In every run of orderly actions, whatever their order, every command is completed exactly once,
or not yet and is still on its way. -/
theorem everyStep_completesOnce (config : EngineConfig) (discoveryRetries : ℤ)
    (actions : List Action) (hactions : EveryStep (step config discoveryRetries) (Orderly config)
      (Engine.initial .initial) actions) :
    EveryStep (step config discoveryRetries) (fun engine action ↦ CompletesOnce engine ∧
      CompletesOnce (step config discoveryRetries engine action))
      (Engine.initial .initial) actions := by
  refine EveryStep.of_invariant hactions (Books (Sendable config) []) books_initial ?_
  intro engine action hbooks haction
  have hnext := books_step discoveryRetries hbooks haction
  exact ⟨⟨completesOnce_of_books hbooks, completesOnce_of_books hnext⟩, hnext⟩

/-! ### Sample runs -/

/-- Messages are secured and taken by the transport, and what is drawn is not in use; the handle is
beyond the one given. -/
def sampleWorld (sendPduHandle : ℕ) : World PendingRequest where
  sendPduHandle := fun engine ↦ OutstandingRequests.unusedHandle engine + sendPduHandle
  msgID := fun engine ↦ (engine.models .v1).cache.msgIdIndex.unusedIntKey +
    ((engine.models .v2c).cache.msgIdIndex.unusedIntKey +
      (engine.models .v3).cache.msgIdIndex.unusedIntKey)
  securing := ⟨.ok (), .ok [48]⟩
  sendMessage := none

/-- A GET of the user `"u"`. -/
def sampleCommand : Command where
  target :=
    { peer := ⟨[1, 3], [10]⟩
      timeout := 100
      retryCount := 3
      messageProcessingModel := 3
      securityModel := 3
      securityName := [117]
      securityLevel := .noAuthNoPriv }
  contextEngineId := some [2]
  contextName := []
  pdu := { pduType := .getRequest, requestID := 9, varBinds := [] }
  getNextHandle := fun engine ↦ engine.app.issued.sum + 1
  world := sampleWorld 0

/-- Retries find a healthy world, and nothing else is sent. -/
def sampleSurroundings : Surroundings where
  retries := sampleWorld
  reactions := fun _ ↦ ⟨[], none⟩
  serving := ⟨[], none⟩

/-- A message of the user `"u"` under the first identifier drawn. -/
def sampleDatagram (pduType : PduType) : Datagram :=
  OutstandingRequests.sampleDatagram { OutstandingRequests.sampleResponse with
    msgID := 3
    pdu := { pduType, requestID := 9, varBinds := [] } }

theorem freshDraws_sampleWorld {avoided : Set ℕ} {sendPduHandle : ℕ}
    (havoided : ∀ other ∈ avoided, other ≤ sendPduHandle) :
    FreshDraws avoided (sampleWorld sendPduHandle) where
  freshHandle := fun _ ↦ OutstandingRequests.freshHandle_of_le (Nat.le_add_right _ _)
  avoids := by
    intro engine hmem
    have hle := havoided _ hmem
    unfold sampleWorld OutstandingRequests.unusedHandle Dict.unusedKey at hle
    dsimp only at hle
    omega

theorem freshCommand_sampleCommand : FreshCommand ∅ sampleCommand where
  draws := freshDraws_sampleWorld fun _ hmem ↦ hmem.elim
  freshHandle := by
    intro engine hmem
    have hle := List.single_le_sum (fun _ _ ↦ Nat.zero_le _) _ hmem
    unfold sampleCommand at hle
    dsimp only at hle
    omega

theorem orderlySurroundings_sampleSurroundings : OrderlySurroundings sampleSurroundings where
  retries := fun sendPduHandle ↦ freshDraws_sampleWorld fun _ hmem ↦
    Set.mem_singleton_iff.mp hmem ▸ le_rfl
  failures := by
    intro sendPduHandle
    refine ⟨?_, ?_, fun engine modelId ↦ Dict.lookup_of_sum_lt_natAbs ?_⟩
    · rintro exception (hassembled | hgenerated)
      · cases hassembled
      · cases hgenerated
    · intro exception hsend
      cases hsend
    · unfold sampleSurroundings sampleWorld Dict.unusedIntKey
      cases modelId
      · dsimp only
        omega
      · dsimp only
        omega
      · dsimp only
        omega
  reactions := fun _ _ hmem ↦ by cases hmem
  serving := fun _ hmem ↦ by cases hmem

/-- A request, its response and a timer tick. -/
theorem everyStep_completesOnce_sampleRun :
    EveryStep (step OutstandingRequests.sampleConfig 4) (fun engine action ↦
        CompletesOnce engine ∧
          CompletesOnce (step OutstandingRequests.sampleConfig 4 engine action))
      (Engine.initial .initial) [.sendPdu sampleCommand,
        .receiveMessage (sampleDatagram .response) sampleSurroundings,
        .handleTimerTick sampleSurroundings] := by
  refine everyStep_completesOnce OutstandingRequests.sampleConfig 4 _
    ⟨freshCommand_sampleCommand, ⟨orderlySurroundings_sampleSurroundings, ?_⟩,
      orderlySurroundings_sampleSurroundings, trivial⟩
  intro modelId message sent expireAt pending hversion hincoming _ _ _
  cases hversion
  cases hincoming
  refine ⟨fun _ hinternal ↦ ?_, fun hzero ↦ ?_⟩
  · cases hinternal
  · cases hzero

/-- A report without bindings takes the pending request, and the application is not called. -/
theorem not_completesOnce_emptyReport :
    ¬ CompletesOnce ([.sendPdu sampleCommand,
      .receiveMessage (sampleDatagram .report) sampleSurroundings].foldl
        (step OutstandingRequests.sampleConfig 4) (Engine.initial .initial)) := by
  intro hcompletes
  rcases hcompletes.completed 1 (List.mem_singleton_self 1) with
    ⟨hcalled, -⟩ | ⟨-, sendPduHandle, hwaiting⟩
  · cases hcalled
  · cases hwaiting

end Pysnmp.Entity.Rfc3413.Completion
