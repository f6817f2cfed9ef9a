import Pysnmp.Entity.Rfc3413.Retries
import Pysnmp.Proto.Dispatcher
import Pysnmp.Proto.Proxy.Rfc2576

/-!
# Applications that send requests

What `CommandGenerator` of `entity/rfc3413/cmdgen.py` and `NotificationOriginator` of
`entity/rfc3413/ntforg.py` have in common. A `Requester` keeps what it needs to send a request
again under the send handle of the last attempt, counts the request as a job of the transport
dispatcher while it is pending, and is called by the dispatcher when the attempt has an outcome: it
either sends the request again or calls back the application. The two classes differ in what they
keep, send again and make of a response; that is a `Kind`.

The state also lists the handles and the calls that the application has seen. The callback of an
application is a program, which may use the engine as it likes.
-/

set_option autoImplicit false
set_option relaxedAutoImplicit false

namespace Pysnmp.Entity.Rfc3413.Requesters

open Foundation Foundation.Effect Proto Proto.Dispatcher Proto.Mpmod.MessageProcessing
  Proto.Proxy.Rfc2576 Retries

/-! ### State -/

/-- What an application is told about its request. -/
inductive CallbackResult
  | failure (errorIndication : ErrorIndication)
  | badResponse
  | response (pdu : Pdu)
  deriving DecidableEq, Repr

/-- The state of a requester: its pending requests, how often it has told the transport dispatcher
that a job started and that one finished, the handles it has returned to the application, and its
calls of the application. -/
structure Requester (ρ : Type) where
  pendingReqs : Dict ℕ ρ
  jobsStarted : ℕ
  jobsFinished : ℕ
  issued : List ℕ
  calls : List (ℕ × CallbackResult)

/-- A requester that has sent nothing. -/
def Requester.initial {ρ : Type} : Requester ρ where
  pendingReqs := ∅
  jobsStarted := 0
  jobsFinished := 0
  issued := []
  calls := []

variable {ρ : Type}

/-- Programs of an engine with a requester. What the dispatcher keeps for a callback is the handle
of the request. -/
abbrev RequesterOp (ρ β : Type) := EngineOp ℕ (Requester ρ) β

/-- The callback of the application. -/
abbrev CbFun (ρ : Type) := ℕ → CallbackResult → RequesterOp ρ Unit

/-- Change the requester. -/
def onRequester (change : Requester ρ → Requester ρ) : RequesterOp ρ Unit :=
  modify fun engine ↦ { engine with app := change engine.app }

/-- `jobStarted` of the transport dispatcher. -/
def jobStarted : RequesterOp ρ Unit :=
  onRequester fun requester ↦ { requester with jobsStarted := requester.jobsStarted + 1 }

/-- `jobFinished` of the transport dispatcher, which has an entry for the requester only while more
jobs have started than finished. -/
def jobFinished : RequesterOp ρ Unit := do
  let requester ← gets fun engine ↦ engine.app
  if requester.jobsStarted ≤ requester.jobsFinished then
    raise .keyError
  else
    onRequester fun requester ↦ { requester with jobsFinished := requester.jobsFinished + 1 }

/-- Take a pending request. -/
def popPending (sendPduHandle : ℕ) : RequesterOp ρ (Option ρ) := do
  let pending ← gets fun engine ↦ engine.app.pendingReqs.lookup sendPduHandle
  onRequester fun requester ↦
    { requester with pendingReqs := requester.pendingReqs.erase sendPduHandle }
  pure pending

/-- Keep a pending request. -/
def keepPending (sendPduHandle : ℕ) (pending : ρ) : RequesterOp ρ Unit :=
  onRequester fun requester ↦
    { requester with pendingReqs := requester.pendingReqs.insert sendPduHandle pending }

/-- Call the application back. -/
def callBack (cbFun : CbFun ρ) (sendRequestHandle : ℕ) (result : CallbackResult) :
    RequesterOp ρ Unit := do
  onRequester fun requester ↦
    { requester with calls := requester.calls ++ [(sendRequestHandle, result)] }
  cbFun sendRequestHandle result

theorem popPending_run (sendPduHandle : ℕ) (engine : Engine ℕ (Requester ρ)) :
    (popPending sendPduHandle).run engine =
      (.ok (engine.app.pendingReqs.lookup sendPduHandle), { engine with
        app := { engine.app with
          pendingReqs := engine.app.pendingReqs.erase sendPduHandle } }) :=
  rfl

theorem jobFinished_run_of_le (engine : Engine ℕ (Requester ρ))
    (hjobs : engine.app.jobsStarted ≤ engine.app.jobsFinished) :
    jobFinished.run engine = (.error .keyError, engine) := by
  unfold jobFinished
  rw [bind_run_of_ok (gets_run _ _), if_pos hjobs, raise_run]

theorem jobFinished_run_of_not_le (engine : Engine ℕ (Requester ρ))
    (hjobs : ¬ engine.app.jobsStarted ≤ engine.app.jobsFinished) :
    jobFinished.run engine = (.ok (), { engine with
      app := { engine.app with jobsFinished := engine.app.jobsFinished + 1 } }) := by
  unfold jobFinished
  rw [bind_run_of_ok (gets_run _ _), if_neg hjobs]
  rfl

/-! ### Sending and settling -/

/-- What a send meets outside the engine, for this requester. -/
abbrev World (ρ : Type) := SendWorld ℕ (Requester ρ)

/-- The end of `sendPdu`: a request that has been sent is counted, kept and returned. -/
def register (sendPduHandle : ℕ) (pending : ρ) (sendRequestHandle : ℕ) : RequesterOp ρ ℕ := do
  jobStarted
  keepPending sendPduHandle pending
  onRequester fun requester ↦ { requester with issued := requester.issued ++ [sendRequestHandle] }
  pure sendRequestHandle

/-- `sendPdu`: a request is prepared, for a handle that is drawn, sent, and kept. -/
def send (config : EngineConfig) (prepared : Except Raised (ℕ → SendArguments ℕ × ρ))
    (getNextHandle : Engine ℕ (Requester ρ) → ℕ) (world : World ρ) : RequesterOp ρ ℕ := do
  let prepare ← liftExcept prepared
  let sendRequestHandle ← gets getNextHandle
  let sendPduHandle ← Dispatcher.sendPdu config (prepare sendRequestHandle).1 world
  register sendPduHandle (prepare sendRequestHandle).2 sendRequestHandle

/-- A kind of requester: what it raises when it does not know a handle, the limits and counts of
what it keeps, how it sends a request again with new counts, and what it tells the application about
a response. -/
structure Kind (ρ : Type) where
  missing : Raised
  limits : ρ → RetryLimits
  counts : ρ → RetryCounts
  again : ρ → ℕ → RetryCounts → Except Raised (SendArguments ℕ × ρ)
  responseResult : ρ → PreparedMessage → Except Raised CallbackResult
  counts_again : ∀ pending sendRequestHandle counted next,
    again pending sendRequestHandle counted = .ok next → counts next.2 = counted
  limits_again : ∀ pending sendRequestHandle counted next,
    again pending sendRequestHandle counted = .ok next → limits next.2 = limits pending
  callback_again : ∀ pending sendRequestHandle counted next,
    again pending sendRequestHandle counted = .ok next → next.1.callback = sendRequestHandle

/-- Send a request again and keep it; a `StatusInformation` ends it, and what else is raised goes
through. -/
def resend (config : EngineConfig) (cbFun : CbFun ρ) (world : World ρ) (sendRequestHandle : ℕ)
    (arguments : SendArguments ℕ) (pending : ρ) : RequesterOp ρ Unit := do
  match ← attempt (Dispatcher.sendPdu config arguments world) with
  | .ok sendPduHandle => do
    jobStarted
    keepPending sendPduHandle pending
  | .error (.statusInformation sendError) =>
    match sendError.errorIndication with
    | none => raise .keyError
    | some errorIndication => callBack cbFun sendRequestHandle (.failure errorIndication)
  | .error exception => raise exception

/-- A failed attempt is counted, and the request is sent again with the new counts or given up. -/
def Kind.settleFailure (kind : Kind ρ) (config : EngineConfig) (cbFun : CbFun ρ)
    (world : World ρ) (sendRequestHandle : ℕ) (pending : ρ) (statusInformation : StatusDetails) :
    RequesterOp ρ Unit :=
  match statusInformation.errorIndication with
  | none => raise .keyError
  | some errorIndication =>
    match nextAttempt (kind.limits pending) errorIndication (kind.counts pending) with
    | none => callBack cbFun sendRequestHandle (.failure errorIndication)
    | some counted => do
      let next ← liftExcept (kind.again pending sendRequestHandle counted)
      resend config cbFun world sendRequestHandle next.1 next.2

/-- `processResponsePdu`: the request is taken, its job is finished, and the outcome is looked
at. -/
def Kind.processResponsePdu (kind : Kind ρ) (config : EngineConfig) (cbFun : CbFun ρ)
    (world : World ρ) (sendRequestHandle : ℕ) (outcome : Outcome) (sendPduHandle : ℕ) :
    RequesterOp ρ Unit := do
  match ← popPending sendPduHandle with
  | none => raise kind.missing
  | some pending => do
    jobFinished
    match outcome with
    | .failure statusInformation =>
      kind.settleFailure config cbFun world sendRequestHandle pending statusInformation
    | .response message => do
      let result ← liftExcept (kind.responseResult pending message)
      callBack cbFun sendRequestHandle result

/-! ### Targets -/

/-- What `config.getTargetInfo` finds out about a target. The timeout is in hundredths of a
second. -/
structure TargetInfo where
  peer : Peer
  timeout : ℕ
  retryCount : ℤ
  messageProcessingModel : ℕ
  securityModel : ℕ
  securityName : Octets
  securityLevel : SecurityLevel
  deriving DecidableEq, Repr

/-- A timeout in ticks of the transport dispatcher. -/
def timeoutInTicks (config : EngineConfig) (timeout : ℕ) : ℚ :=
  (timeout : ℚ) / 100 / config.environment.timerResolution

/-- The request as its peer understands it, with the version of the PDU. -/
def requestFor (messageProcessingModel : ℕ) (pdu : Pdu) : Except Raised (Pdu × ℕ) :=
  if messageProcessingModel = 0 then do
    let reqPDU ← v2ToV1Request pdu
    pure (reqPDU, 0)
  else
    .ok (pdu, 1)

end Pysnmp.Entity.Rfc3413.Requesters
