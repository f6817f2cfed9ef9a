import Pysnmp.Entity.Rfc3413.CommandGenerator
import Pysnmp.Entity.Rfc3413.NotificationOriginator
import Pysnmp.Proto.ApplicationState

/-!
# How often a request is sent

A requester sends one request, and its attempts have outcomes one after the other (`attempts`). A
job is started with every message, so `messagesSent` counts them. The counts of `Retries` follow the
run: where the limits of the request leave no room for one kind of retry, the messages are bounded
by a function of the limits (`messagesSent_attempts_le`); otherwise timeouts and reports of a time
window that is missed, in turn, make the requester send without end. `isBounded_iff` states this for
command generators and notification originators.
-/

set_option autoImplicit false
set_option relaxedAutoImplicit false

namespace Pysnmp.Entity.Rfc3413.BoundedRetries

open Foundation Foundation.Effect Proto Proto.Dispatcher Proto.Mpmod.MessageProcessing
  Proto.Mpmod.HeldRequests Proto.RequestRecords Proto.ApplicationState Retries Requesters

variable {ρ : Type}

/-! ### Attempts -/

/-- An application that only takes notice. -/
def quiet : CbFun ρ :=
  fun _ _ ↦ pure ()

/-- The dispatcher takes a request out of its cache and tells the requester its outcome. -/
def deliver (kind : Kind ρ) (config : EngineConfig) (outcome : Outcome) (world : World ρ)
    (sendPduHandle : ℕ) : RequesterOp ρ Unit := do
  match ← popFromCache sendPduHandle with
  | none => pure ()
  | some params =>
    kind.processResponsePdu config quiet world params.callback outcome sendPduHandle

/-- The pending request has an outcome. -/
def settleNext (kind : Kind ρ) (config : EngineConfig) (engine : Engine ℕ (Requester ρ))
    (attempt : Outcome × World ρ) : Engine ℕ (Requester ρ) :=
  match engine.app.pendingReqs.entries with
  | [] => engine
  | entry :: _ => ((deliver kind config attempt.1 attempt.2 entry.1).run engine).2

/-- The engine after a request has been sent and its attempts had the outcomes. -/
def attempts (kind : Kind ρ) (config : EngineConfig)
    (prepared : Except Raised (ℕ → SendArguments ℕ × ρ))
    (getNextHandle : Engine ℕ (Requester ρ) → ℕ) (world : World ρ)
    (outcomes : List (Outcome × World ρ)) (engine : Engine ℕ (Requester ρ)) :
    Engine ℕ (Requester ρ) :=
  outcomes.foldl (settleNext kind config) ((send config prepared getNextHandle world).run engine).2

/-- The messages that were handed to the dispatcher. -/
def messagesSent (engine : Engine ℕ (Requester ρ)) : ℕ :=
  engine.app.jobsStarted

/-! ### One attempt -/

/-- What an attempt can do to a request with the entry `pending`, of which so many messages have
been sent: it ends, or it is sent again under counts that leave it an attempt. -/
inductive Progress (kind : Kind ρ) (pending : ρ) (sent : ℕ) (after : Engine ℕ (Requester ρ)) : Prop
  | ended (hempty : after.app.pendingReqs = ∅)
      (hsent : messagesSent after = sent)
  | continued (sendPduHandle : ℕ) (next : ρ) (errorIndication : ErrorIndication)
      (hpending : after.app.pendingReqs = AList.singleton sendPduHandle next)
      (hlimits : kind.limits next = kind.limits pending)
      (hcounts : nextAttempt (kind.limits pending) errorIndication (kind.counts pending) =
        some (kind.counts next))
      (hsent : messagesSent after = sent + 1)

/-- A callback sends nothing. -/
theorem progress_callBack (kind : Kind ρ) (pending : ρ) (sendRequestHandle : ℕ)
    (result : CallbackResult) {engine : Engine ℕ (Requester ρ)}
    (hempty : engine.app.pendingReqs = ∅) :
    Progress kind pending (messagesSent engine)
      ((callBack quiet sendRequestHandle result).run engine).2 :=
  .ended hempty rfl

/-- Sending again uses up one retry, or ends the request. -/
theorem progress_resend (kind : Kind ρ) {pending next : ρ} (config : EngineConfig)
    (world : World ρ) (sendRequestHandle : ℕ) (arguments : SendArguments ℕ)
    (errorIndication : ErrorIndication) {engine : Engine ℕ (Requester ρ)}
    (hempty : engine.app.pendingReqs = ∅)
    (hlimits : kind.limits next = kind.limits pending)
    (hcounts : nextAttempt (kind.limits pending) errorIndication (kind.counts pending) =
      some (kind.counts next)) :
    Progress kind pending (messagesSent engine)
      ((resend config quiet world sendRequestHandle arguments next).run engine).2 := by
  have hsame := sameApp_sendPdu config arguments world engine
  unfold resend
  rw [bind_run_of_ok (attempt_run _ _)]
  set after := ((Dispatcher.sendPdu config arguments world).run engine).2
  cases ((Dispatcher.sendPdu config arguments world).run engine).1 with
  | ok sendPduHandle =>
    refine .continued sendPduHandle next errorIndication ?_ hlimits hcounts ?_
    · show AList.insert sendPduHandle next after.app.pendingReqs = _
      rw [hsame, hempty]
      rfl
    · show after.app.jobsStarted + 1 = _
      rw [hsame]
      rfl
  | error exception =>
    have hended : after.app.pendingReqs = ∅ := by rw [hsame, hempty]
    have hsent : messagesSent after = messagesSent engine := by
      unfold messagesSent
      rw [hsame]
    cases exception with
    | statusInformation sendError =>
      simp only
      cases sendError.errorIndication with
      | none => exact .ended hended hsent
      | some _ => exact .ended hended hsent
    | _ => exact .ended hended hsent

/-- Settling the pending request. -/
theorem progress_settleFailure (kind : Kind ρ) (pending : ρ) (config : EngineConfig)
    (world : World ρ) (sendRequestHandle : ℕ) (statusInformation : StatusDetails)
    (engine : Engine ℕ (Requester ρ)) (hempty : engine.app.pendingReqs = ∅) :
    Progress kind pending (messagesSent engine)
      ((kind.settleFailure config quiet world sendRequestHandle pending
      statusInformation).run engine).2 := by
  unfold Kind.settleFailure
  cases statusInformation.errorIndication with
  | none => exact .ended hempty rfl
  | some errorIndication =>
    cases hcounted : nextAttempt (kind.limits pending) errorIndication (kind.counts pending) with
    | none =>
      simp only [hcounted]
      exact progress_callBack kind pending sendRequestHandle _ hempty
    | some counted =>
      simp only [hcounted]
      cases hnext : kind.again pending sendRequestHandle counted with
      | error exception => exact .ended hempty rfl
      | ok next =>
        rw [bind_run_of_ok (liftExcept_run _ _)]
        refine progress_resend kind config world sendRequestHandle next.1 errorIndication hempty
          (kind.limits_again _ _ _ _ hnext) ?_
        rw [hcounted, kind.counts_again _ _ _ _ hnext]

/-- An outcome of a request ends it or uses up one of its retries. -/
theorem progress_processResponsePdu (kind : Kind ρ) {pending : ρ} (config : EngineConfig)
    (world : World ρ) (sendRequestHandle : ℕ) (outcome : Outcome) {sendPduHandle : ℕ}
    (engine : Engine ℕ (Requester ρ))
    (hpending : engine.app.pendingReqs = AList.singleton sendPduHandle pending) :
    Progress kind pending (messagesSent engine)
      ((kind.processResponsePdu config quiet world sendRequestHandle
      outcome sendPduHandle).run engine).2 := by
  have hlookup : engine.app.pendingReqs.lookup sendPduHandle = some pending := by
    rw [hpending]
    exact dif_pos rfl
  have hempty : engine.app.pendingReqs.erase sendPduHandle = ∅ := by
    rw [hpending]
    ext1
    exact List.kerase_cons_eq rfl
  unfold Kind.processResponsePdu
  rw [bind_run_of_ok (popPending_run _ _), hlookup, hempty]
  simp only
  by_cases hjobs : engine.app.jobsStarted ≤ engine.app.jobsFinished
  · rw [bind_run_of_error (jobFinished_run_of_le
      { engine with app := { engine.app with pendingReqs := ∅ } } hjobs)]
    exact .ended rfl rfl
  · rw [bind_run_of_ok (jobFinished_run_of_not_le
      { engine with app := { engine.app with pendingReqs := ∅ } } hjobs)]
    cases outcome with
    | failure statusInformation =>
      exact progress_settleFailure kind pending config world sendRequestHandle statusInformation
        { engine with app := { engine.app with
          pendingReqs := ∅
          jobsFinished := engine.app.jobsFinished + 1 } } rfl
    | response message =>
      simp only
      cases kind.responseResult pending message with
      | error exception => exact .ended rfl rfl
      | ok result => exact .ended rfl rfl

/-- The next outcome ends the request or uses up one of its retries. -/
theorem progress_settleNext (kind : Kind ρ) {pending : ρ} (config : EngineConfig)
    (attempt : Outcome × World ρ) {sendPduHandle : ℕ} {engine : Engine ℕ (Requester ρ)}
    (hpending : engine.app.pendingReqs = AList.singleton sendPduHandle pending) :
    messagesSent (settleNext kind config engine attempt) = messagesSent engine ∧
        (settleNext kind config engine attempt).app.pendingReqs =
          AList.singleton sendPduHandle pending ∨
      Progress kind pending (messagesSent engine) (settleNext kind config engine attempt) := by
  unfold settleNext deliver
  rw [hpending, AList.singleton_entries]
  simp only
  rw [bind_run_of_ok (popFromCache_run _ _)]
  cases engine.cache.lookup sendPduHandle with
  | none => exact Or.inl ⟨rfl, hpending⟩
  | some params =>
    exact Or.inr (progress_processResponsePdu kind config attempt.2 params.callback attempt.1
      { engine with cache := engine.cache.erase sendPduHandle } hpending)

/-! ### Limits that end -/

/-- The request is over, or it is pending and its counts tell how often it was sent. -/
def Tracked (kind : Kind ρ) (limits : RetryLimits) (engine : Engine ℕ (Requester ρ)) : Prop :=
  engine.app.pendingReqs = ∅ ∧ messagesSent engine ≤ limits.bound ∨
    ∃ sendPduHandle pending, engine.app.pendingReqs = AList.singleton sendPduHandle pending ∧
      kind.limits pending = limits ∧ Counted limits (kind.counts pending) (messagesSent engine)

/-- A request that is being tracked has not sent more than its bound. -/
theorem Tracked.messagesSent_le {kind : Kind ρ} {limits : RetryLimits}
    {engine : Engine ℕ (Requester ρ)} (htracked : Tracked kind limits engine) :
    messagesSent engine ≤ limits.bound := by
  rcases htracked with ⟨-, hle⟩ | ⟨_, _, -, -, hcounted⟩
  · exact hle
  · exact hcounted.attempts_le

/-- A request stays within its bound from one outcome to the next. -/
theorem Tracked.settleNext {kind : Kind ρ} {limits : RetryLimits} (hends : limits.Ends)
    {engine : Engine ℕ (Requester ρ)} (htracked : Tracked kind limits engine)
    (config : EngineConfig) (attempt : Outcome × World ρ) :
    Tracked kind limits (settleNext kind config engine attempt) := by
  rcases htracked with ⟨hempty, hle⟩ | ⟨sendPduHandle, pending, hpending, hlimits, hcounted⟩
  · have hsame : BoundedRetries.settleNext kind config engine attempt = engine := by
      unfold BoundedRetries.settleNext
      rw [hempty]
      rfl
    rw [hsame]
    exact Or.inl ⟨hempty, hle⟩
  · rcases progress_settleNext kind config attempt hpending with ⟨hsent, hsame⟩ | hprogress
    · rw [← hsent] at hcounted
      exact Or.inr ⟨sendPduHandle, pending, hsame, hlimits, hcounted⟩
    · cases hprogress with
      | ended hempty hsent =>
        refine Or.inl ⟨hempty, ?_⟩
        rw [hsent]
        exact hcounted.attempts_le
      | continued nextHandle next errorIndication hnext hlimitsNext hcounts hsent =>
        rw [hlimits] at hlimitsNext hcounts
        refine Or.inr ⟨nextHandle, next, hnext, hlimitsNext, ?_⟩
        rw [hsent]
        exact hcounted.nextAttempt hends hcounts

/-- A request that is prepared with counts of zero. -/
def Starts (kind : Kind ρ) (limits : RetryLimits)
    (prepared : Except Raised (ℕ → SendArguments ℕ × ρ)) : Prop :=
  ∀ prepare, prepared = .ok prepare → ∀ sendRequestHandle,
    kind.counts (prepare sendRequestHandle).2 = .zero ∧
      kind.limits (prepare sendRequestHandle).2 = limits

/-- A request is within its bound when it is sent. -/
theorem tracked_send {kind : Kind ρ} {limits : RetryLimits} (config : EngineConfig)
    {prepared : Except Raised (ℕ → SendArguments ℕ × ρ)} (hstarts : Starts kind limits prepared)
    (getNextHandle : Engine ℕ (Requester ρ) → ℕ) (world : World ρ)
    {engine : Engine ℕ (Requester ρ)} (happ : engine.app = .initial) :
    Tracked kind limits ((send config prepared getNextHandle world).run engine).2 := by
  have hunsent {after : Engine ℕ (Requester ρ)} (hafter : after.app = .initial) :
      Tracked kind limits after := by
    refine Or.inl ⟨by rw [hafter]; rfl, ?_⟩
    unfold messagesSent
    rw [hafter]
    exact Nat.zero_le _
  unfold send
  cases hprepared : prepared with
  | error exception => exact hunsent happ
  | ok prepare =>
    rw [bind_run_of_ok (liftExcept_run _ _), bind_run_of_ok (gets_run _ _)]
    set sendRequestHandle := getNextHandle engine
    obtain ⟨hcounts, hlimits⟩ := hstarts prepare hprepared sendRequestHandle
    have hsame := sameApp_sendPdu config (prepare sendRequestHandle).1 world
    rcases ok_or_error (Dispatcher.sendPdu config (prepare sendRequestHandle).1 world) engine with
      ⟨sendPduHandle, after, hok⟩ | ⟨exception, after, herror⟩
    · rw [bind_run_of_ok hok]
      have happAfter : after.app = .initial := (hsame.of_run hok).trans happ
      refine Or.inr ⟨sendPduHandle, (prepare sendRequestHandle).2, ?_, hlimits, ?_⟩
      · show AList.insert _ _ after.app.pendingReqs = _
        rw [happAfter]
        rfl
      · show Counted limits _ (after.app.jobsStarted + 1)
        rw [happAfter, hcounts]
        exact counted_zero limits
    · rw [bind_run_of_error herror]
      exact hunsent ((hsame.of_run herror).trans happ)

/-- Where the limits end the retries, they bound the messages sent for one request. -/
theorem messagesSent_attempts_le {kind : Kind ρ} {limits : RetryLimits} (hends : limits.Ends)
    (config : EngineConfig) {prepared : Except Raised (ℕ → SendArguments ℕ × ρ)}
    (hstarts : Starts kind limits prepared) (getNextHandle : Engine ℕ (Requester ρ) → ℕ)
    (world : World ρ) (outcomes : List (Outcome × World ρ)) {engine : Engine ℕ (Requester ρ)}
    (happ : engine.app = .initial) :
    messagesSent (attempts kind config prepared getNextHandle world outcomes engine) ≤
      limits.bound := by
  have htracked : Tracked kind limits
      (attempts kind config prepared getNextHandle world outcomes engine) :=
    List.foldlRecOn outcomes (settleNext kind config)
      (tracked_send config hstarts getNextHandle world happ)
      fun _ hengine attempt _ ↦ hengine.settleNext hends config attempt
  exact htracked.messagesSent_le

/-! ### Limits that do not end -/

/-- The request is pending, in the requester and in the dispatcher. -/
def Waits (engine : Engine ℕ (Requester ρ)) (pending : ρ) : Prop :=
  ∃ sendPduHandle params, engine.app.pendingReqs = AList.singleton sendPduHandle pending ∧
    engine.cache.lookup sendPduHandle = some params ∧
    engine.app.jobsFinished < engine.app.jobsStarted

/-- The dispatcher sends whatever the arguments ask for. -/
def Sends (config : EngineConfig) (arguments : SendArguments ℕ) (world : World ρ) : Prop :=
  ∀ engine, ∃ sendPduHandle params after,
    (Dispatcher.sendPdu config arguments world).run engine = (.ok sendPduHandle, after) ∧
      after.cache.lookup sendPduHandle = some params ∧ after.app = engine.app

/-- Requests that can always be sent again: the predicate holds of the next entry too. -/
def Resendable (kind : Kind ρ) (config : EngineConfig) (world : World ρ)
    (holds : ρ → Prop) : Prop :=
  ∀ pending, holds pending → ∀ sendRequestHandle counted, ∃ next,
    kind.again pending sendRequestHandle counted = .ok next ∧ holds next.2 ∧
      Sends config next.1 world

/-- A failed attempt. -/
def failed (world : World ρ) (errorIndication : ErrorIndication) : Outcome × World ρ :=
  (.failure { errorIndication := some errorIndication }, world)

/-- Without a request outstanding nothing happens. -/
theorem settleNext_of_empty (kind : Kind ρ) (config : EngineConfig)
    {engine : Engine ℕ (Requester ρ)} (hempty : engine.app.pendingReqs = ∅)
    (attempt : Outcome × World ρ) : settleNext kind config engine attempt = engine := by
  unfold settleNext
  rw [hempty]
  rfl

/-- A request that was sent again waits for its outcome. -/
theorem waits_of_sends {config : EngineConfig} {world : World ρ} {arguments : SendArguments ℕ}
    (hsends : Sends config arguments world) (sendRequestHandle : ℕ) (next : ρ)
    {engine : Engine ℕ (Requester ρ)} (hempty : engine.app.pendingReqs = ∅)
    (hjobs : engine.app.jobsFinished ≤ engine.app.jobsStarted) :
    let after := ((resend config quiet world sendRequestHandle arguments next).run engine).2
    Waits after next ∧ messagesSent after = messagesSent engine + 1 := by
  intro after
  obtain ⟨sendPduHandle, params, sent, hrun, hlookup, happ⟩ := hsends engine
  have hafter : after = { sent with app := { sent.app with
      pendingReqs := sent.app.pendingReqs.insert sendPduHandle next
      jobsStarted := sent.app.jobsStarted + 1 } } := by
    show ((resend config quiet world sendRequestHandle arguments next).run engine).2 = _
    unfold resend
    rw [bind_run_of_ok (attempt_run _ _), hrun]
    rfl
  rw [hafter]
  constructor
  · refine ⟨sendPduHandle, params, ?_, hlookup, ?_⟩
    · show AList.insert _ _ sent.app.pendingReqs = _
      rw [happ, hempty]
      rfl
    · show sent.app.jobsFinished < sent.app.jobsStarted + 1
      rw [happ]
      omega
  · show sent.app.jobsStarted + 1 = _
    rw [happ]
    rfl

/-- A failed attempt of a request that can be sent again: the counts decide. -/
theorem settleNext_failed {kind : Kind ρ} {config : EngineConfig} {world : World ρ}
    {holds : ρ → Prop} (hresendable : Resendable kind config world holds) {pending : ρ}
    (hholds : holds pending) {engine : Engine ℕ (Requester ρ)} (hwaits : Waits engine pending)
    (errorIndication : ErrorIndication) :
    let after := settleNext kind config engine (failed world errorIndication)
    match nextAttempt (kind.limits pending) errorIndication (kind.counts pending) with
    | none => after.app.pendingReqs = ∅ ∧ messagesSent after = messagesSent engine
    | some counted => ∃ next, holds next ∧ Waits after next ∧
        kind.limits next = kind.limits pending ∧ kind.counts next = counted ∧
        messagesSent after = messagesSent engine + 1 := by
  intro after
  obtain ⟨sendPduHandle, params, hpending, hlookup, hjobs⟩ := hwaits
  -- The engine when the outcome of the attempt has been looked at.
  let settled : Engine ℕ (Requester ρ) := { engine with
    cache := engine.cache.erase sendPduHandle
    app := { engine.app with
      pendingReqs := engine.app.pendingReqs.erase sendPduHandle
      jobsFinished := engine.app.jobsFinished + 1 } }
  have hempty : settled.app.pendingReqs = ∅ := by
    show AList.erase sendPduHandle engine.app.pendingReqs = ∅
    rw [hpending]
    ext1
    exact List.kerase_cons_eq rfl
  have hafter : after = ((kind.settleFailure config quiet world params.callback pending
      { errorIndication := some errorIndication }).run settled).2 := by
    have hentry : engine.app.pendingReqs.lookup sendPduHandle = some pending := by
      rw [hpending]
      exact dif_pos rfl
    show settleNext kind config engine (failed world errorIndication) = _
    unfold settleNext deliver Kind.processResponsePdu
    rw [hpending, AList.singleton_entries]
    simp only
    rw [bind_run_of_ok (popFromCache_run _ _), hlookup]
    simp only
    rw [bind_run_of_ok (popPending_run _ _)]
    simp only [hentry]
    rw [bind_run_of_ok (jobFinished_run_of_not_le
      { engine with
        cache := engine.cache.erase sendPduHandle
        app := { engine.app with
          pendingReqs := engine.app.pendingReqs.erase sendPduHandle } } (Nat.not_le.mpr hjobs))]
    rfl
  rw [hafter]
  unfold Kind.settleFailure
  cases hcounted : nextAttempt (kind.limits pending) errorIndication (kind.counts pending) with
  | none =>
    simp only [hcounted]
    exact ⟨hempty, rfl⟩
  | some counted =>
    simp only [hcounted]
    obtain ⟨next, hnext, hholdsNext, hsends⟩ :=
      hresendable pending hholds params.callback counted
    rw [hnext, bind_run_of_ok (liftExcept_run _ _)]
    obtain ⟨hwaitsNext, hsent⟩ := waits_of_sends hsends params.callback next.2 hempty hjobs
    exact ⟨next.2, hholdsNext, hwaitsNext, kind.limits_again _ _ _ _ hnext,
      kind.counts_again _ _ _ _ hnext, hsent⟩

/-- The messages sent for a request that can be sent again are as many as the counts allow. -/
theorem messagesSent_foldl {kind : Kind ρ} {config : EngineConfig} {world : World ρ}
    {holds : ρ → Prop} (hresendable : Resendable kind config world holds)
    (failures : List ErrorIndication) {pending : ρ} (hholds : holds pending)
    {engine : Engine ℕ (Requester ρ)} (hwaits : Waits engine pending) :
    messagesSent ((failures.map (failed world)).foldl (settleNext kind config) engine) =
      messagesSent engine + attemptsAfter (kind.limits pending) (kind.counts pending) failures := by
  induction failures generalizing pending engine with
  | nil => rfl
  | cons errorIndication later ih =>
    have hstep := settleNext_failed hresendable hholds hwaits errorIndication
    rw [List.map_cons, List.foldl_cons]
    unfold attemptsAfter
    cases hcounted : nextAttempt (kind.limits pending) errorIndication (kind.counts pending) with
    | none =>
      simp only [hcounted] at hstep ⊢
      obtain ⟨hempty, hsent⟩ := hstep
      have hover : ∀ outcomes : List (Outcome × World ρ),
          outcomes.foldl (settleNext kind config)
            (settleNext kind config engine (failed world errorIndication)) =
              settleNext kind config engine (failed world errorIndication) := by
        intro outcomes
        induction outcomes with
        | nil => rfl
        | cons attempt rest ihRest =>
          rw [List.foldl_cons, settleNext_of_empty kind config hempty, ihRest]
      rw [hover, hsent, Nat.add_zero]
    | some counted =>
      simp only [hcounted] at hstep ⊢
      obtain ⟨next, hholdsNext, hwaitsNext, hlimits, hcounts, hsent⟩ := hstep
      rw [ih hholdsNext hwaitsNext, hsent, hlimits, hcounts]
      omega

/-! ### Command generators and notification originators -/

/-- The messages that a command generator sends for one command, whatever the command and its
target, and whatever the outcomes of its attempts, are bounded. -/
def GeneratorBounded (limits : RetryLimits) : Prop :=
  ∃ bound, ∀ config target contextEngineId contextName pdu getNextHandle world outcomes engine,
    target.retryCount = limits.retryCount → engine.app = .initial →
      messagesSent (attempts (CommandGenerator.commandGenerator limits.discoveryRetries) config
        (CommandGenerator.firstRequest config target contextEngineId contextName pdu)
        getNextHandle world outcomes engine) ≤ bound

/-- The messages that a notification originator sends for one INFORM to one target are bounded. -/
def OriginatorBounded (limits : RetryLimits) : Prop :=
  ∃ bound, ∀ config target contextEngineId contextName pdu getNextHandle world outcomes engine,
    target.retryCount = limits.retryCount → engine.app = .initial →
      messagesSent (attempts
        (NotificationOriginator.notificationOriginator config limits.discoveryRetries) config
        (NotificationOriginator.firstInform config target contextEngineId contextName pdu)
        getNextHandle world outcomes engine) ≤ bound

/-- A command starts with the retries of its target. -/
theorem starts_firstRequest {limits : RetryLimits} (config : EngineConfig) {target : TargetInfo}
    (contextEngineId : Option Octets) (contextName : Octets) (pdu : Pdu)
    (htarget : target.retryCount = limits.retryCount) :
    Starts (CommandGenerator.commandGenerator limits.discoveryRetries) limits
      (CommandGenerator.firstRequest config target contextEngineId contextName pdu) := by
  intro prepare hprepare sendRequestHandle
  unfold CommandGenerator.firstRequest at hprepare
  obtain ⟨request, -, hprepare⟩ := exists_of_bind_eq_ok hprepare
  cases hprepare
  refine ⟨rfl, ?_⟩
  show RetryLimits.mk target.retryCount limits.discoveryRetries = limits
  rw [htarget]

/-- An INFORM starts with the retries of its target. -/
theorem starts_firstInform {limits : RetryLimits} (config : EngineConfig) {target : TargetInfo}
    (contextEngineId : Option Octets) (contextName : Octets) (pdu : Pdu)
    (htarget : target.retryCount = limits.retryCount) :
    Starts (NotificationOriginator.notificationOriginator config limits.discoveryRetries) limits
      (NotificationOriginator.firstInform config target contextEngineId contextName pdu) := by
  intro prepare hprepare sendRequestHandle
  unfold NotificationOriginator.firstInform at hprepare
  obtain ⟨request, -, hprepare⟩ := exists_of_bind_eq_ok hprepare
  cases hprepare
  refine ⟨rfl, ?_⟩
  show RetryLimits.mk target.retryCount limits.discoveryRetries = limits
  rw [htarget]

/-- An engine that speaks SNMPv2c and has all security models. -/
def communityConfig : EngineConfig where
  environment := ⟨[1], 65507, fun _ ↦ true, 1 / 2⟩
  messageProcessingSubsystems := fun modelId ↦ modelId = .v2c
  hasTransportDispatcher := true

/-- A target that speaks SNMPv2c. -/
def communityTarget (retryCount : ℤ) : TargetInfo where
  peer := ⟨[1, 3], [10]⟩
  timeout := 100
  retryCount := retryCount
  messageProcessingModel := 1
  securityModel := 2
  securityName := [117]
  securityLevel := .noAuthNoPriv

/-- Messages are secured, identified by a number that is not in use, and taken by the transport. -/
def healthyWorld : World ρ where
  sendPduHandle := fun engine ↦ engine.cache.unusedKey
  msgID := fun engine ↦ (engine.models .v2c).cache.msgIdIndex.unusedIntKey
  securing := ⟨.ok (), .ok [48]⟩
  sendMessage := none

/-- In a world without failures every message is sent. -/
theorem sends_healthyWorld {arguments : SendArguments ℕ}
    (hmodel : arguments.messageProcessingModel = 1) (hexpect : arguments.expectResponse = true) :
    Sends communityConfig arguments (healthyWorld : World ρ) := by
  intro engine
  have hhandler : communityConfig.mpHandler arguments.messageProcessingModel = some .v2c := by
    rw [hmodel]
    rfl
  have hprepares : ∃ model, (prepareOutgoingMessage .v2c communityConfig.environment
      (outgoingRequest arguments ((healthyWorld : World ρ).sendPduHandle engine))
      (healthyWorld : World ρ).securing ((healthyWorld : World ρ).msgID engine)).run
        (engine.models .v2c) = (.ok [48], model) :=
    prepareOutgoingMessageV1_run_of_ok rfl rfl rfl
      (Dict.lookup_unusedIntKey (engine.models .v2c).cache.msgIdIndex)
  obtain ⟨model, hprepared⟩ := hprepares
  obtain ⟨params, after, hrun, hlookup, -, -, happ⟩ :=
    sendPdu_run_of_ok hhandler rfl hexpect hprepared rfl
  exact ⟨_, params, after, hrun, hlookup, happ⟩

/-- Limits that leave room for both kinds of retries let a request that can always be sent again be
sent more often than any bound. -/
theorem not_bounded_of_resendable {kind : Kind ρ} {limits : RetryLimits} (hends : ¬ limits.Ends)
    {config : EngineConfig} {world : World ρ} {holds : ρ → Prop}
    (hresendable : Resendable kind config world holds)
    (prepared : Except Raised (ℕ → SendArguments ℕ × ρ)) {prepare : ℕ → SendArguments ℕ × ρ}
    (hprepared : prepared = .ok prepare) (hstarts : Starts kind limits prepared)
    (hholds : holds (prepare 0).2) (hsends : Sends config (prepare 0).1 world)
    (engine : Engine ℕ (Requester ρ)) (happ : engine.app = .initial) (bound : ℕ) :
    ∃ outcomes, bound <
      messagesSent (attempts kind config prepared (fun _ ↦ 0) world outcomes engine) := by
  obtain ⟨hcounts, hlimits⟩ := hstarts prepare hprepared 0
  obtain ⟨sendPduHandle, params, sent, hrun, hlookup, hsent⟩ := hsends engine
  have hfirst : ((send config prepared (fun _ ↦ 0) world).run engine).2 = { sent with
      app := { sent.app with
        pendingReqs := sent.app.pendingReqs.insert sendPduHandle (prepare 0).2
        jobsStarted := sent.app.jobsStarted + 1
        issued := sent.app.issued ++ [0] } } := by
    unfold send
    rw [hprepared, bind_run_of_ok (liftExcept_run _ _), bind_run_of_ok (gets_run _ _),
      bind_run_of_ok hrun]
    rfl
  refine ⟨(alternating bound).map (failed world), ?_⟩
  unfold attempts
  rw [hfirst, messagesSent_foldl hresendable (alternating bound) hholds, hcounts, hlimits,
    attempts_alternating hends bound rfl]
  · unfold messagesSent
    rw [hsent, happ]
    show bound < 0 + 1 + 2 * bound
    omega
  · refine ⟨sendPduHandle, params, ?_, hlookup, ?_⟩
    · show AList.insert _ _ sent.app.pendingReqs = _
      rw [hsent, happ]
      rfl
    · show sent.app.jobsFinished < sent.app.jobsStarted + 1
      rw [hsent, happ]
      exact Nat.zero_lt_one

/-- A sample PDU. -/
def samplePdu (pduType : PduType) : Pdu where
  pduType := pduType
  requestID := 1
  varBinds := []

/-- An engine that has done nothing. -/
def newEngine : Engine ℕ (Requester ρ) where
  cache := ∅
  models := fun _ ↦ .initial
  ticks := 0
  app := .initial

/-- Commands are bounded where their counters can end. -/
theorem generatorBounded_iff (limits : RetryLimits) : GeneratorBounded limits ↔ limits.Ends := by
  constructor
  · rintro ⟨bound, hbound⟩
    by_contra hends
    let target := communityTarget limits.retryCount
    have hresendable : Resendable (CommandGenerator.commandGenerator limits.discoveryRetries)
        communityConfig healthyWorld fun pending ↦ pending.messageProcessingModel = 1 := by
      intro pending hmodel sendRequestHandle counted
      refine ⟨(pending.sendArguments (pending.pdu, 1) sendRequestHandle,
        { pending with counts := counted }), ?_, hmodel, sends_healthyWorld hmodel rfl⟩
      refine CommandGenerator.again_eq_ok_iff.mpr ⟨(pending.pdu, 1), ?_, rfl⟩
      rw [hmodel]
      rfl
    obtain ⟨outcomes, hmore⟩ := not_bounded_of_resendable hends hresendable
      (CommandGenerator.firstRequest communityConfig target none [] (samplePdu .getRequest)) rfl
      (starts_firstRequest communityConfig none [] _ rfl) rfl (sends_healthyWorld rfl rfl)
      newEngine rfl bound
    exact absurd (hbound communityConfig target none [] _ _ _ outcomes newEngine rfl rfl)
      (Nat.not_le.mpr hmore)
  · intro hends
    exact ⟨limits.bound, fun config target contextEngineId contextName pdu getNextHandle world
      outcomes engine htarget happ ↦ messagesSent_attempts_le hends config
        (starts_firstRequest config contextEngineId contextName pdu htarget) getNextHandle world
        outcomes happ⟩

/-- INFORMs are bounded where their counters can end. -/
theorem originatorBounded_iff (limits : RetryLimits) :
    OriginatorBounded limits ↔ limits.Ends := by
  constructor
  · rintro ⟨bound, hbound⟩
    by_contra hends
    let target := communityTarget limits.retryCount
    have hresendable : Resendable (NotificationOriginator.notificationOriginator communityConfig
        limits.discoveryRetries) communityConfig healthyWorld
          fun pending ↦ pending.messageProcessingModel = 1 := by
      intro pending hmodel sendRequestHandle counted
      exact ⟨_, rfl, hmodel, sends_healthyWorld hmodel rfl⟩
    obtain ⟨outcomes, hmore⟩ := not_bounded_of_resendable hends hresendable
      (NotificationOriginator.firstInform communityConfig target none []
        (samplePdu .informRequest)) rfl
      (starts_firstInform communityConfig none [] _ rfl) rfl (sends_healthyWorld rfl rfl)
      newEngine rfl bound
    exact absurd (hbound communityConfig target none [] _ _ _ outcomes newEngine rfl rfl)
      (Nat.not_le.mpr hmore)
  · intro hends
    exact ⟨limits.bound, fun config target contextEngineId contextName pdu getNextHandle world
      outcomes engine htarget happ ↦ messagesSent_attempts_le hends config
        (starts_firstInform config contextEngineId contextName pdu htarget) getNextHandle world
        outcomes happ⟩

/-- Command generators and notification originators bound the messages for one request, whatever the
outcomes of its attempts, exactly when the limits leave no room for one of the two kinds of
retries. -/
theorem isBounded_iff (limits : RetryLimits) :
    (GeneratorBounded limits ↔ limits.Ends) ∧ (OriginatorBounded limits ↔ limits.Ends) :=
  ⟨generatorBounded_iff limits, originatorBounded_iff limits⟩

/-- With the default of four discovery retries and one retry of the target, nothing bounds the
messages. -/
theorem not_isBounded_default : ¬ GeneratorBounded ⟨1, 4⟩ ∧ ¬ OriginatorBounded ⟨1, 4⟩ := by
  rw [generatorBounded_iff, originatorBounded_iff]
  unfold RetryLimits.Ends
  decide

end Pysnmp.Entity.Rfc3413.BoundedRetries
