import Pysnmp.Entity.Rfc3413.CommandResponder

/-!
# Operations that have to wait

The operations of a command responder are written twice: for instrumentation that answers at once,
and for the rest of an operation that has had to wait. The two come to the same: an operation with
the rest of its work is a wait followed by an answer or a failure (`conclude`), and both of these
are what the calls of the instrumentation make of them (`operationEnd`). For a GETBULK, which may be
interrupted at the non-repeaters or in the middle of any repetition, this gives that the choice to
wait is not seen in what is answered (`serveRequest_bulk_answering`).
-/

set_option autoImplicit false
set_option relaxedAutoImplicit false

namespace Pysnmp.Entity.Rfc3413.SuspendedOperations

open Foundation Foundation.Effect Proto Proto.Mpmod.Cache Proto.Mpmod.MessageProcessing
open Proto.Proxy.Rfc2576 CommandResponder

/-! ### What an operation comes to -/

/-- The end of an operation: bindings to answer with, or a failure. -/
inductive Ending
  | bindings (rspVarBinds : List VarBind)
  | failure (failure : Failure)
  deriving DecidableEq, Repr

/-- What a call comes to. -/
def Ending.ofResult : Except Failure (List VarBind) → Ending
  | .ok rspVarBinds => bindings rspVarBinds
  | .error raised => failure raised

/-- What a call of the instrumentation returns or raises. -/
def replyResult : Reply → Except Failure (List VarBind)
  | .immediate result => result
  | .suspended _ result => result

/-- What happens to the cache of message processing during a call. -/
def replyMeanwhile : Reply → CacheState → CacheState
  | .immediate _ => id
  | .suspended meanwhile _ => meanwhile

/-- An end, and what has happened to the cache until then. -/
abbrev OperationEnd := Ending × (CacheState → CacheState)

/-- The end of what follows a call. -/
def OperationEnd.after (reply : Reply) (operationEnd : OperationEnd) : OperationEnd :=
  (operationEnd.1, operationEnd.2 ∘ replyMeanwhile reply)

/-- A GET comes to what its call comes to. -/
def readEnd (reply : Reply) : OperationEnd :=
  (.ofResult (replyResult reply), replyMeanwhile reply)

/-- A missing object is not writable. -/
def notWritable : Failure → Failure
  | .smi .noSuchObjectError details => .smi .notWritableError details
  | .smi .noSuchInstanceError details => .smi .notWritableError details
  | failure => failure

/-- A SET comes to what its call comes to, but for objects that are missing. -/
def writeEnd (reply : Reply) : OperationEnd :=
  (.ofResult ((replyResult reply).mapError notWritable), replyMeanwhile reply)

/-- A GETNEXT reads on while what it has read cannot be expressed in the version of the request. -/
def walkEnd (world : World) (pending : PendingRequest) :
    ℕ → ℕ → List VarBind → Option OperationEnd
  | 0, _, _ => none
  | rounds + 1, call, varBinds =>
    let reply := world.instrumentation call varBinds
    match replyResult reply with
    | .error failure => some (.failure failure, replyMeanwhile reply)
    | .ok rspVarBinds =>
      match translateResponse pending (pending.response 0 0 rspVarBinds) with
      | .ok _ => some (.bindings rspVarBinds, replyMeanwhile reply)
      | .error exception =>
        match resumePast varBinds rspVarBinds (.raised exception) with
        | .error failure => some (.failure failure, replyMeanwhile reply)
        | .ok varBinds => (walkEnd world pending rounds (call + 1) varBinds).map (.after reply)

/-- A GETBULK that has read nothing fails. -/
def gathered (rspVarBinds : List VarBind) : OperationEnd :=
  (if rspVarBinds = [] then .failure (.smi .smiError {}) else .bindings rspVarBinds, id)

/-- The repetitions of a GETBULK. -/
def repeatEnd (world : World) (R : ℕ) : ℕ → ℕ → List VarBind → List VarBind → OperationEnd
  | 0, _, _, rspVarBinds => gathered rspVarBinds
  | M + 1, call, varBinds, rspVarBinds =>
    if R = 0 then gathered rspVarBinds
    else
      let reply := world.instrumentation call varBinds
      match replyResult reply with
      | .error failure => (.failure failure, replyMeanwhile reply)
      | .ok repetition => (repeatEnd world R M (call + 1)
          (lastVarBinds R (rspVarBinds ++ repetition)) (rspVarBinds ++ repetition)).after reply

/-- The reads of a GETBULK. -/
def bulkEnd (world : World) (pdu : Pdu) : OperationEnd :=
  let R := repeaters pdu
  if nonRepeaters pdu = 0 then
    repeatEnd world R (repetitions pdu) 0 (lastVarBinds R pdu.varBinds) []
  else
    let reply := world.instrumentation 0 (pdu.varBinds.take (nonRepeaters pdu))
    match replyResult reply with
    | .error failure => (.failure failure, replyMeanwhile reply)
    | .ok rspVarBinds => (repeatEnd world R (repetitions pdu) 1 (lastVarBinds R pdu.varBinds)
        rspVarBinds).after reply

/-- What the calls of an operation come to, if they come to an end in the given number of rounds. -/
def operationEnd (world : World) (pending : PendingRequest) (rounds : ℕ) (pdu : Pdu) :
    RequestKind → Option OperationEnd
  | .get => some (readEnd (world.instrumentation 0 pdu.varBinds))
  | .next => walkEnd world pending rounds 0 pdu.varBinds
  | .bulk => some (bulkEnd world pdu)
  | .set => some (writeEnd (world.instrumentation 0 pdu.varBinds))

/-! ### Waiting -/

/-- The responder after the cache of message processing has changed. -/
def waited (meanwhile : CacheState → CacheState) (responder : Responder) : Responder :=
  { responder with model := { responder.model with cache := meanwhile responder.model.cache } }

/-- Wait. -/
def wait (meanwhile : CacheState → CacheState) : ResponderOp Unit :=
  modify (waited meanwhile)

/-- What is done at the end of an operation. -/
def conclude (world : World) (stateReference : ℕ) : Ending → ResponderOp Unit
  | .bindings rspVarBinds => answer world stateReference 0 0 rspVarBinds
  | .failure failure => raise failure

/-- Wait, and do what is done at the end. -/
def conclusion (world : World) (stateReference : ℕ) (operationEnd : OperationEnd) :
    ResponderOp Unit := do
  wait operationEnd.2
  conclude world stateReference operationEnd.1

/-- Awaiting a reply is waiting, and then its result. -/
theorem awaitInstrumentation_eq (reply : Reply) :
    awaitInstrumentation reply =
      wait (replyMeanwhile reply) >>= fun _ ↦ Effect.liftExcept (replyResult reply) := by
  cases reply <;> rfl

theorem awaitInstrumentation_immediate (result : Except Failure (List VarBind)) :
    awaitInstrumentation (.immediate result) = Effect.liftExcept result :=
  rfl

/-- To wait before a conclusion is to wait longer. -/
theorem wait_bind_conclusion (world : World) (stateReference : ℕ) (reply : Reply)
    (operationEnd : OperationEnd) :
    (wait (replyMeanwhile reply) >>= fun _ ↦ conclusion world stateReference operationEnd) =
      conclusion world stateReference (operationEnd.after reply) :=
  rfl

/-- What follows a call that raises is left out. -/
theorem awaitInstrumentation_bind_of_error {α : Type} {reply : Reply} {failure : Failure}
    (hresult : replyResult reply = .error failure) (next : List VarBind → ResponderOp α) :
    awaitInstrumentation reply >>= next =
      wait (replyMeanwhile reply) >>= fun _ ↦ raise failure := by
  rw [awaitInstrumentation_eq, hresult]
  rfl

/-- A reply that succeeds hands its bindings on after the wait. -/
theorem awaitInstrumentation_bind_of_ok {α : Type} {reply : Reply} {varBinds : List VarBind}
    (hresult : replyResult reply = .ok varBinds) (next : List VarBind → ResponderOp α) :
    awaitInstrumentation reply >>= next =
      wait (replyMeanwhile reply) >>= fun _ ↦ next varBinds := by
  rw [awaitInstrumentation_eq, hresult]
  rfl

/-! ### The two forms of an operation -/

/-- The last thing an operation does at once leaves no rest. -/
theorem bind_pure_bind_runDeferred (program : ResponderOp Unit) :
    (program >>= fun _ ↦ pure none) >>= runDeferred = program := by
  rw [bind_assoc]
  exact bind_pure program

/-- A GET is answered once its bindings are read, at once or after a wait. -/
theorem getOperation_bind_runDeferred (world : World) (stateReference : ℕ) (pdu : Pdu) :
    getOperation world stateReference pdu >>= runDeferred =
      answerOnceRead world stateReference (world.instrumentation 0 pdu.varBinds) := by
  unfold getOperation answerOnceRead
  cases world.instrumentation 0 pdu.varBinds with
  | suspended meanwhile result => rfl
  | immediate result =>
    simp only [bind_assoc, awaitInstrumentation_immediate]
    exact bind_congr fun rspVarBinds ↦ bind_pure _

/-- The rest of a program that runs under a handler runs under the handler itself. -/
theorem handle_bind_runDeferred (operation : ResponderOp Deferred)
    (handler : Failure → ResponderOp Unit) :
    handle (operation >>= fun deferred ↦ pure (deferred.map (handle · handler)))
        (fun failure ↦ handler failure >>= fun _ ↦ pure none) >>= runDeferred =
      handle (operation >>= runDeferred) handler := by
  ext1 responder
  rcases ok_or_error operation responder with ⟨deferred, after, hok⟩ | ⟨failure, after, herror⟩
  · rw [bind_run_of_ok (handle_run_of_ok (by rw [bind_run_of_ok hok, pure_run]))]
    cases deferred with
    | none => rw [handle_run_of_ok (by rw [bind_run_of_ok hok]; rfl)]; rfl
    | some deferred => simp only [handle, bind_run_of_ok hok]; rfl
  · have hfirst : (operation >>= fun deferred ↦
        pure (deferred.map (handle · handler))).run responder = (.error failure, after) :=
      bind_run_of_error herror
    have hsecond : (operation >>= runDeferred).run responder = (.error failure, after) :=
      bind_run_of_error herror
    rw [handle_run_of_error hsecond]
    rcases ok_or_error (handler failure) after with ⟨done, last, hdone⟩ | ⟨other, last, hother⟩
    · rw [bind_run_of_ok (handle_run_of_error hfirst |>.trans
        (by rw [bind_run_of_ok hdone, pure_run]))]
      rw [hdone]
      rfl
    · rw [bind_run_of_error ((handle_run_of_error hfirst).trans (bind_run_of_error hother)),
        hother]

/-! ### What sending raises -/

/-- The exceptions that are no SMI errors. -/
def IsRaised (failure : Failure) : Prop := ∃ exception, failure = .raised exception

theorem raises_onModel {α : Type} (operation : ModelOp α) :
    Raises IsRaised (onModel operation) := by
  intro responder after failure hrun
  have hresult : ((operation.run responder.model).1.mapError Failure.raised) = .error failure :=
    congrArg Prod.fst hrun
  rcases hoperation : (operation.run responder.model).1 with exception | value
  · rw [hoperation] at hresult
    exact ⟨exception, (Except.error.inj hresult).symm⟩
  · rw [hoperation] at hresult
    cases hresult

theorem raises_liftRaised {α : Type} (result : Except Raised α) :
    Raises IsRaised (liftRaised result) := by
  cases result with
  | error exception => exact raises_raise ⟨exception, rfl⟩
  | ok value => exact raises_pure value

/-- Sending raises nothing but exceptions of the message processing. -/
theorem raises_transmit (world : World) (response : SentResponse) (outgoingMessage : Octets) :
    Raises IsRaised (transmit world response outgoingMessage) := by
  unfold transmit
  cases world.sendMessage outgoingMessage with
  | some exception => exact raises_raise ⟨exception, rfl⟩
  | none => exact raises_modify _

theorem raises_returnResponsePdu (world : World) (response : SentResponse)
    (statusInformation : Option ReportedObject) :
    Raises IsRaised (returnResponsePdu world response statusInformation) := by
  unfold returnResponsePdu
  split_ifs with hregistered
  · refine (raises_onModel _).bind fun outgoingMessage ↦ ?_
    split_ifs with hoversized
    · exact (raises_modify _).bind fun _ ↦ raises_raise ⟨_, rfl⟩
    · exact raises_transmit world response outgoingMessage
  · exact raises_raise ⟨_, rfl⟩

/-- The exceptions that stop the sending of a response. -/
def StopsSending (failure : Failure) : Prop :=
  IsRaised failure ∧ ∀ details, failure ≠ .raised (.statusInformation details)

theorem raises_dropRefused {failure : Failure} (hraised : IsRaised failure) :
    Raises StopsSending (dropRefused failure) := by
  obtain ⟨exception, rfl⟩ := hraised
  cases exception with
  | statusInformation details => exact raises_modify _
  | _ => exact raises_raise ⟨⟨_, rfl⟩, fun details heq ↦ by cases heq⟩

theorem raises_pendingRequest (stateReference : ℕ) :
    Raises StopsSending (pendingRequest stateReference) := by
  refine (raises_gets _).bind fun pending ↦ ?_
  cases pending with
  | none => exact raises_raise ⟨⟨_, rfl⟩, fun details heq ↦ by cases heq⟩
  | some pending => exact raises_pure pending

/-- What follows the translation of a response. -/
theorem raises_handle_returnResponsePdu (world : World) (response : SentResponse)
    (statusInformation : Option ReportedObject) :
    Raises StopsSending
      (handle (returnResponsePdu world response statusInformation) dropRefused) :=
  (raises_returnResponsePdu world response statusInformation).handle
    fun _ hraised ↦ raises_dropRefused hraised

theorem Raises.isRaised {α : Type} {program : ResponderOp α}
    (hprogram : Raises StopsSending program) : Raises IsRaised program :=
  fun _ _ _ hrun ↦ (hprogram _ _ _ hrun).1

/-- An answer raises nothing but exceptions of the message processing. -/
theorem raises_answer (world : World) (stateReference : ℕ) (errorStatus errorIndex : ℤ)
    (varBinds : List VarBind) :
    Raises IsRaised (answer world stateReference errorStatus errorIndex varBinds) := by
  refine Raises.bind ?_ fun _ ↦ raises_modify _
  refine (Raises.isRaised (raises_pendingRequest _)).bind fun pending ↦ ?_
  refine (Raises.isRaised (raises_pendingRequest _)).bind fun again ↦ ?_
  refine (raises_liftRaised _).bind fun translated ↦ ?_
  exact Raises.isRaised (raises_handle_returnResponsePdu world _ _)

/-! ### SET -/

theorem raiseNotWritable_eq {α : Type} (failure : Failure) :
    (raiseNotWritable failure : ResponderOp α) = raise (notWritable failure) := by
  cases failure with
  | smi errorClass details => cases errorClass <;> rfl
  | raised exception => rfl
  | unfinished => rfl

/-- Exceptions of the message processing are no refusals of a SET. -/
theorem notWritable_of_isRaised {failure : Failure} (hraised : IsRaised failure) :
    notWritable failure = failure := by
  obtain ⟨exception, rfl⟩ := hraised
  rfl

/-- A handler that maps exceptions, around a program that leaves no rest. -/
theorem handle_raise_bind_runDeferred (program : ResponderOp Unit) (map : Failure → Failure) :
    handle (program >>= fun _ ↦ pure none) (fun failure ↦ raise (map failure)) >>= runDeferred =
      handle program fun failure ↦ raise (map failure) := by
  ext1 responder
  rcases ok_or_error program responder with ⟨done, after, hok⟩ | ⟨failure, after, herror⟩
  · rw [bind_run_of_ok (handle_run_of_ok (by rw [bind_run_of_ok hok, pure_run])),
      handle_run_of_ok hok]
    rfl
  · rw [handle_run_of_error herror, raise_run, bind_run_of_error]
    rw [handle_run_of_error (bind_run_of_error herror), raise_run]

theorem raiseNotWritable_funext {α : Type} :
    (raiseNotWritable : Failure → ResponderOp α) = fun failure ↦ raise (notWritable failure) :=
  funext raiseNotWritable_eq

/-- A SET is answered once it is written, at once or after a wait. -/
theorem setOperation_bind_runDeferred (world : World) (stateReference : ℕ) (pdu : Pdu) :
    setOperation world stateReference pdu >>= runDeferred =
      answerOnceWritten world stateReference (world.instrumentation 0 pdu.varBinds) := by
  unfold setOperation answerOnceWritten answerOnceRead
  rw [raiseNotWritable_funext, raiseNotWritable_funext]
  cases world.instrumentation 0 pdu.varBinds with
  | suspended meanwhile result =>
    change answerOnceWritten world stateReference _ = _
    unfold answerOnceWritten answerOnceRead
    rw [raiseNotWritable_funext]
  | immediate result =>
    have hwrite : writeOnce world stateReference (.immediate result) =
        (awaitInstrumentation (.immediate result) >>= answer world stateReference 0 0) >>=
          fun _ ↦ pure none := by
      rw [bind_assoc]
      rfl
    rw [hwrite, handle_raise_bind_runDeferred]

/-- What the two read operations do, written as a wait and a conclusion. -/
theorem answerOnceRead_eq (world : World) (stateReference : ℕ) (reply : Reply) :
    answerOnceRead world stateReference reply =
      conclusion world stateReference (readEnd reply) := by
  unfold answerOnceRead
  rw [awaitInstrumentation_eq, bind_assoc]
  refine bind_congr fun _ ↦ ?_
  change _ = conclude world stateReference (.ofResult (replyResult reply))
  cases replyResult reply <;> rfl

/-- The answer to a SET is what its end comes to. -/
theorem answerOnceWritten_eq (world : World) (stateReference : ℕ) (reply : Reply) :
    answerOnceWritten world stateReference reply =
      conclusion world stateReference (writeEnd reply) := by
  unfold answerOnceWritten
  rw [answerOnceRead_eq, raiseNotWritable_funext]
  ext1 responder
  change (handle (conclude world stateReference (.ofResult (replyResult reply))) _).run
    (waited (replyMeanwhile reply) responder) = (conclude world stateReference
      (.ofResult ((replyResult reply).mapError notWritable))).run
        (waited (replyMeanwhile reply) responder)
  cases replyResult reply with
  | error failure => rfl
  | ok rspVarBinds =>
    refine congrFun (congrArg Effect.run ((raises_answer world stateReference 0 0
      rspVarBinds).handle_eq fun failure hraised ↦ ?_)) _
    rw [notWritable_of_isRaised hraised]

/-! ### GETBULK -/

/-- The answer to a GETBULK is what has been gathered. -/
theorem answerBulk_eq (world : World) (stateReference : ℕ) (rspVarBinds : List VarBind) :
    answerBulk world stateReference rspVarBinds =
      conclusion world stateReference (gathered rspVarBinds) := by
  unfold answerBulk gathered
  split_ifs <;> rfl

/-- The repeated reads end in an answer with all that they gathered. -/
theorem repeatBulkRead_eq (world : World) (stateReference R M call : ℕ)
    (varBinds rspVarBinds : List VarBind) :
    repeatBulkRead world stateReference R M call varBinds rspVarBinds =
      conclusion world stateReference (repeatEnd world R M call varBinds rspVarBinds) := by
  induction M generalizing call varBinds rspVarBinds with
  | zero => exact answerBulk_eq world stateReference rspVarBinds
  | succ M ih =>
    unfold repeatBulkRead repeatEnd
    by_cases hR : R = 0
    · simp only [hR, if_true]
      exact answerBulk_eq world stateReference rspVarBinds
    · simp only [hR, if_false]
      cases hresult : replyResult (world.instrumentation call varBinds) with
      | error failure =>
        rw [awaitInstrumentation_bind_of_error hresult]
        rfl
      | ok repetition =>
        rw [awaitInstrumentation_bind_of_ok hresult, ih, wait_bind_conclusion]

/-- The loop of a GETBULK, wherever it is interrupted, does what its rest does. -/
theorem bulkLoop_bind_runDeferred (world : World) (stateReference R M call : ℕ)
    (varBinds rspVarBinds : List VarBind) :
    bulkLoop world stateReference R M call varBinds rspVarBinds >>= runDeferred =
      repeatBulkRead world stateReference R M call varBinds rspVarBinds := by
  induction M generalizing call varBinds rspVarBinds with
  | zero => exact bind_pure_bind_runDeferred _
  | succ M ih =>
    unfold bulkLoop repeatBulkRead
    by_cases hR : R = 0
    · simp only [hR, if_true]
      exact bind_pure_bind_runDeferred _
    · simp only [hR, if_false]
      cases world.instrumentation call varBinds with
      | suspended meanwhile result => rfl
      | immediate result =>
        simp only [bind_assoc, awaitInstrumentation_immediate]
        exact bind_congr fun repetition ↦ ih _ _ _

/-- A GETBULK ends as its reads do, however many of them wait. -/
theorem bulkOperation_bind_runDeferred (world : World) (stateReference : ℕ) (pdu : Pdu) :
    bulkOperation world stateReference pdu >>= runDeferred =
      conclusion world stateReference (bulkEnd world pdu) := by
  unfold bulkOperation bulkEnd
  by_cases hnone : nonRepeaters pdu = 0
  · simp only [hnone, if_true]
    rw [bulkLoop_bind_runDeferred, repeatBulkRead_eq]
  · simp only [hnone, if_false]
    have hrest : ∀ reply : Reply,
        answerOnceBulkRead world stateReference reply [] (some (lastVarBinds (repeaters pdu)
            pdu.varBinds)) (repetitions pdu) (repeaters pdu) 0 =
          conclusion world stateReference (match replyResult reply with
            | .error failure => (.failure failure, replyMeanwhile reply)
            | .ok rspVarBinds => (repeatEnd world (repeaters pdu) (repetitions pdu) 1
                (lastVarBinds (repeaters pdu) pdu.varBinds) rspVarBinds).after reply) := by
      intro reply
      unfold answerOnceBulkRead
      cases hresult : replyResult reply with
      | error failure =>
        rw [awaitInstrumentation_bind_of_error hresult]
        rfl
      | ok rspVarBinds =>
        rw [awaitInstrumentation_bind_of_ok hresult, repeatBulkRead_eq, wait_bind_conclusion]
        rfl
    rw [← hrest]
    cases world.instrumentation 0 (pdu.varBinds.take (nonRepeaters pdu)) with
    | suspended meanwhile result => rfl
    | immediate result =>
      simp only [bind_assoc, answerOnceBulkRead, awaitInstrumentation_immediate]
      exact bind_congr fun rspVarBinds ↦ bulkLoop_bind_runDeferred world _ _ _ _ _ _

/-! ### GETNEXT -/

/-- A GETNEXT is answered once its walk ends, at once or after waits. -/
theorem nextLoop_bind_runDeferred (world : World) (stateReference rounds call : ℕ)
    (varBinds : List VarBind) :
    nextLoop world stateReference (rounds + 1) call varBinds >>= runDeferred =
      answerOnceWalked world stateReference rounds call varBinds
        (world.instrumentation call varBinds) := by
  induction rounds generalizing call varBinds with
  | zero =>
    unfold nextLoop answerOnceWalked
    cases world.instrumentation call varBinds with
    | suspended meanwhile result => rfl
    | immediate result =>
      simp only [bind_assoc, awaitInstrumentation_immediate]
      refine bind_congr fun rspVarBinds ↦ bind_congr fun resumed ↦ ?_
      cases resumed with
      | none => exact bind_pure_bind_runDeferred _
      | some varBinds => rfl
  | succ rounds ih =>
    rw [nextLoop, answerOnceWalked]
    cases world.instrumentation call varBinds with
    | suspended meanwhile result =>
      change answerOnceWalked _ _ _ _ _ _ = _
      rw [answerOnceWalked]
    | immediate result =>
      simp only [bind_assoc, awaitInstrumentation_immediate]
      refine bind_congr fun rspVarBinds ↦ bind_congr fun resumed ↦ ?_
      cases resumed with
      | none => exact bind_pure_bind_runDeferred _
      | some varBinds => exact ih (call + 1) varBinds

/-- Send a translated response. -/
def sendTranslated (world : World) (stateReference : ℕ) (pending : PendingRequest)
    (translated : Pdu) : ResponderOp Unit :=
  handle (returnResponsePdu world ⟨stateReference, pending.messageProcessingModel, translated⟩
    pending.statusInformation) dropRefused

section Pending

variable {world : World} {stateReference : ℕ} {pending : PendingRequest} {responder : Responder}

theorem pendingRequest_run (hpending : responder.pendingReqs.lookup stateReference = some pending) :
    (pendingRequest stateReference).run responder = (.ok pending, responder) := by
  unfold pendingRequest
  rw [bind_run_of_ok (gets_run _ _), hpending, pure_run]

/-- The response to a pending request is translated to its version and sent. -/
theorem sendVarBinds_run (hpending : responder.pendingReqs.lookup stateReference = some pending)
    (errorStatus errorIndex : ℤ) (varBinds : List VarBind) :
    (sendVarBinds world stateReference errorStatus errorIndex varBinds).run responder =
      (liftRaised (translateResponse pending (pending.response errorStatus errorIndex varBinds)) >>=
        sendTranslated world stateReference pending).run responder := by
  unfold sendVarBinds sendPdu
  rw [bind_run_of_ok (pendingRequest_run hpending), bind_run_of_ok (pendingRequest_run hpending)]
  rfl

/-- What stops the sending stops a walk. -/
theorem resumePast_of_stopsSending {failure : Failure} (hstops : StopsSending failure)
    (varBinds rspVarBinds : List VarBind) :
    resumePast varBinds rspVarBinds failure = .error failure := by
  obtain ⟨⟨exception, rfl⟩, hstatus⟩ := hstops
  cases exception with
  | statusInformation details => exact absurd rfl (hstatus details)
  | _ => rfl

/-- Bindings that can be translated are sent, and nothing is read again. -/
theorem sendOrResume_run_of_ok
    (hpending : responder.pendingReqs.lookup stateReference = some pending)
    {varBinds rspVarBinds : List VarBind} {translated : Pdu}
    (htranslated : translateResponse pending (pending.response 0 0 rspVarBinds) = .ok translated) :
    (sendOrResume world stateReference varBinds rspVarBinds).run responder =
      ((sendVarBinds world stateReference 0 0 rspVarBinds) >>= fun _ ↦ pure none).run
        responder := by
  have hsend : (sendVarBinds world stateReference 0 0 rspVarBinds).run responder =
      (sendTranslated world stateReference pending translated).run responder := by
    rw [sendVarBinds_run hpending, htranslated]
    rfl
  unfold sendOrResume
  rcases ok_or_error (sendVarBinds world stateReference 0 0 rspVarBinds) responder with
    ⟨done, after, hok⟩ | ⟨failure, after, herror⟩
  · have hdone : (sendVarBinds world stateReference 0 0 rspVarBinds >>= fun _ ↦
        pure (none : Option (List VarBind))).run responder = (.ok none, after) := by
      rw [bind_run_of_ok hok, pure_run]
    rw [handle_run_of_ok hdone, hdone]
  · have hfailed : (sendVarBinds world stateReference 0 0 rspVarBinds >>= fun _ ↦
        pure (none : Option (List VarBind))).run responder = (.error failure, after) :=
      bind_run_of_error herror
    have hstops : StopsSending failure := by
      rw [hsend] at herror
      exact raises_handle_returnResponsePdu world _ _ _ _ _ herror
    rw [handle_run_of_error hfailed, resumePast_of_stopsSending hstops, hfailed]
    rfl

variable (world) in
/-- Bindings that cannot be translated are read again from where they cannot, if that is known. -/
theorem sendOrResume_run_of_error
    (hpending : responder.pendingReqs.lookup stateReference = some pending)
    (varBinds : List VarBind) {rspVarBinds : List VarBind} {exception : Raised}
    (htranslated : translateResponse pending (pending.response 0 0 rspVarBinds) =
      .error exception) :
    (sendOrResume world stateReference varBinds rspVarBinds).run responder =
      ((resumePast varBinds rspVarBinds (.raised exception)).map some, responder) := by
  have hsend : (sendVarBinds world stateReference 0 0 rspVarBinds).run responder =
      (.error (.raised exception), responder) := by
    rw [sendVarBinds_run hpending, htranslated]
    rfl
  unfold sendOrResume
  rw [handle_run_of_error (bind_run_of_error hsend), liftExcept_run]

/-- The run of an operation: what is done at its end, or that it was cut off. -/
def endRun (world : World) (stateReference : ℕ) (responder : Responder)
    (meanwhile : CacheState → CacheState) : Option OperationEnd → Except Failure Unit × Responder
  | some operationEnd => (conclusion world stateReference operationEnd).run responder
  | none => (.error .unfinished, waited meanwhile responder)

/-- One round of a walk, with what follows where it has to read again. -/
def roundEnd (pending : PendingRequest) (reply : Reply) (varBinds : List VarBind)
    (rest : List VarBind → Option OperationEnd) : Option OperationEnd :=
  match replyResult reply with
  | .error failure => some (.failure failure, replyMeanwhile reply)
  | .ok rspVarBinds =>
    match translateResponse pending (pending.response 0 0 rspVarBinds) with
    | .ok _ => some (.bindings rspVarBinds, replyMeanwhile reply)
    | .error exception =>
      match resumePast varBinds rspVarBinds (.raised exception) with
      | .error failure => some (.failure failure, replyMeanwhile reply)
      | .ok varBinds => (rest varBinds).map (.after reply)

/-- What follows the reading of a round. -/
def finishRound (stateReference : ℕ) (next : List VarBind → ResponderOp Unit) :
    Option (List VarBind) → ResponderOp Unit
  | none => releaseStateInformation stateReference
  | some varBinds => next varBinds

/-- Waiting for a reply is as if the cache had changed before. -/
theorem endRun_after (reply : Reply) (meanwhile : CacheState → CacheState)
    (rest : Option OperationEnd) :
    endRun world stateReference (waited (replyMeanwhile reply) responder) meanwhile rest =
      endRun world stateReference responder (meanwhile ∘ replyMeanwhile reply)
        (rest.map (.after reply)) := by
  cases rest <;> rfl

variable (world) in
/-- A round does what is done at its end, when what follows it does. -/
theorem round_run (hpending : responder.pendingReqs.lookup stateReference = some pending)
    (reply : Reply) (varBinds : List VarBind) (next : List VarBind → ResponderOp Unit)
    (rest : List VarBind → Option OperationEnd)
    (hnext : ∀ (varBinds : List VarBind) (responder : Responder),
      responder.pendingReqs.lookup stateReference = some pending →
        ∃ meanwhile, (next varBinds).run responder =
          endRun world stateReference responder meanwhile (rest varBinds)) :
    ∃ meanwhile, (awaitInstrumentation reply >>= fun rspVarBinds ↦
        sendOrResume world stateReference varBinds rspVarBinds >>=
          finishRound stateReference next).run responder =
      endRun world stateReference responder meanwhile (roundEnd pending reply varBinds rest) := by
  have hwaited : (waited (replyMeanwhile reply) responder).pendingReqs.lookup stateReference =
      some pending := hpending
  cases hresult : replyResult reply with
  | error failure =>
    rw [awaitInstrumentation_bind_of_error hresult, roundEnd, hresult]
    exact ⟨id, rfl⟩
  | ok rspVarBinds =>
    rw [awaitInstrumentation_bind_of_ok hresult]
    simp only [roundEnd, hresult]
    change ∃ meanwhile, (sendOrResume world stateReference varBinds rspVarBinds >>=
      finishRound stateReference next).run (waited (replyMeanwhile reply) responder) = _
    cases htranslated : translateResponse pending (pending.response 0 0 rspVarBinds) with
    | ok translated =>
      rw [bind_run_congr (sendOrResume_run_of_ok hwaited htranslated), bind_assoc]
      exact ⟨id, rfl⟩
    | error exception =>
      have hsent := sendOrResume_run_of_error world hwaited varBinds htranslated
      simp only
      cases hresume : resumePast varBinds rspVarBinds (.raised exception) with
      | error failure =>
        rw [hresume] at hsent
        rw [bind_run_of_error hsent]
        exact ⟨id, rfl⟩
      | ok again =>
        rw [hresume] at hsent
        rw [bind_run_of_ok hsent]
        obtain ⟨meanwhile, hrun⟩ := hnext again _ hwaited
        exact ⟨_, hrun.trans (endRun_after reply meanwhile (rest again))⟩

/-- A walk does what is done at the end its reads come to. -/
theorem answerOnceWalked_run
    (hpending : responder.pendingReqs.lookup stateReference = some pending) (rounds call : ℕ)
    (varBinds : List VarBind) :
    ∃ meanwhile, (answerOnceWalked world stateReference rounds call varBinds
        (world.instrumentation call varBinds)).run responder =
      endRun world stateReference responder meanwhile
        (walkEnd world pending (rounds + 1) call varBinds) := by
  induction rounds generalizing call varBinds responder with
  | zero =>
    have hround := round_run world hpending (world.instrumentation call varBinds) varBinds
      (fun _ ↦ raise .unfinished) (fun _ ↦ none) fun _ _ _ ↦ ⟨id, rfl⟩
    rw [answerOnceWalked]
    exact hround
  | succ rounds ih =>
    have hround := round_run world hpending (world.instrumentation call varBinds) varBinds _ _
      fun again _ hpending ↦ ih hpending (call + 1) again
    rw [answerOnceWalked]
    exact hround

variable (world) in
/-- An operation, with the rest of its work, does what is done at the end its calls come to. -/
theorem handleMgmtOperation_run
    (hpending : responder.pendingReqs.lookup stateReference = some pending) (rounds : ℕ) (pdu : Pdu)
    (kind : RequestKind) :
    ∃ meanwhile, (handleMgmtOperation world rounds stateReference pdu kind >>=
        runDeferred).run responder =
      endRun world stateReference responder meanwhile
        (operationEnd world pending rounds pdu kind) := by
  cases kind with
  | get =>
    refine ⟨id, ?_⟩
    rw [handleMgmtOperation, getOperation_bind_runDeferred, answerOnceRead_eq]
    rfl
  | set =>
    refine ⟨id, ?_⟩
    rw [handleMgmtOperation, setOperation_bind_runDeferred, answerOnceWritten_eq]
    rfl
  | bulk =>
    refine ⟨id, ?_⟩
    rw [handleMgmtOperation, bulkOperation_bind_runDeferred]
    rfl
  | next =>
    cases rounds with
    | zero => exact ⟨id, rfl⟩
    | succ rounds =>
      rw [handleMgmtOperation, nextLoop_bind_runDeferred]
      exact answerOnceWalked_run hpending rounds 0 pdu.varBinds

end Pending

/-! ### Requests -/

/-- A request with the rest of its work: once it is entered in the table its operation runs under
the mapping of failures. -/
theorem serveRequest_eq (world : World) (rounds : ℕ) (request : Request) :
    serveRequest world rounds request =
      (liftRaised (translateRequest request) >>= fun translated ↦
        if translated.1.pduType.isReadClass || translated.1.pduType.isWriteClass then
          enterRequest request.stateReference (request.pending translated.1 translated.2) >>=
            fun _ ↦ handle (handleMgmtOperation world rounds request.stateReference translated.1
                request.kind >>= runDeferred)
              (failedMgmtOperation world request.stateReference translated.1.varBinds)
        else
          raise (.raised .protocolError)) := by
  unfold serveRequest processPdu
  rw [bind_assoc]
  refine bind_congr fun ⟨pdu, origPdu⟩ ↦ ?_
  simp only
  split_ifs with hclass
  · rw [bind_assoc]
    refine bind_congr fun _ ↦ ?_
    exact handle_bind_runDeferred _ _
  · rfl

/-! ### GETBULK, read by read -/

/-- The world with instrumentation that is a function of the bindings, and a choice for each call
whether to answer at once or after a wait. -/
def answering (world : World) (readNextVars : List VarBind → Except Failure (List VarBind))
    (waits : ℕ → Option (CacheState → CacheState)) : World :=
  { world with
    instrumentation := fun call varBinds ↦
      match waits call with
      | none => .immediate (readNextVars varBinds)
      | some meanwhile => .suspended meanwhile (readNextVars varBinds) }

/-- All calls answer at once. -/
def atOnce : ℕ → Option (CacheState → CacheState) := fun _ ↦ none

/-- What happens to the cache during a number of calls, from the given one on. -/
def waitsFrom (waits : ℕ → Option (CacheState → CacheState)) : ℕ → ℕ → CacheState → CacheState
  | _, 0 => id
  | call, count + 1 => waitsFrom waits (call + 1) count ∘ (waits call).getD id

section Answering

variable (world : World) (readNextVars : List VarBind → Except Failure (List VarBind))
  (waits : ℕ → Option (CacheState → CacheState))

@[simp] theorem replyResult_answering (call : ℕ) (varBinds : List VarBind) :
    replyResult ((answering world readNextVars waits).instrumentation call varBinds) =
      readNextVars varBinds := by
  unfold answering
  cases h : waits call <;> simp [replyResult, h]

@[simp] theorem replyMeanwhile_answering (call : ℕ) (varBinds : List VarBind) :
    replyMeanwhile ((answering world readNextVars waits).instrumentation call varBinds) =
      (waits call).getD id := by
  unfold answering
  cases h : waits call <;> simp [replyMeanwhile, h]

/-- Two ends with the same outcome, the second reached at once. -/
def SameOutcome (call : ℕ) (waiting immediate : OperationEnd) : Prop :=
  ∃ count, waiting = (immediate.1, waitsFrom waits call count)

theorem sameOutcome_after {call : ℕ} {varBinds : List VarBind} {waiting immediate : OperationEnd}
    (hsame : SameOutcome waits (call + 1) waiting immediate) :
    SameOutcome waits call
      (waiting.after ((answering world readNextVars waits).instrumentation call varBinds))
      (immediate.after ((answering world readNextVars atOnce).instrumentation call varBinds)) := by
  obtain ⟨count, rfl⟩ := hsame
  refine ⟨count + 1, ?_⟩
  simp [OperationEnd.after, waitsFrom]

/-- The repeated reads gather the same whether they wait or not. -/
theorem repeatEnd_answering (R M call : ℕ) (varBinds rspVarBinds : List VarBind) :
    SameOutcome waits call
      (repeatEnd (answering world readNextVars waits) R M call varBinds rspVarBinds)
      (repeatEnd (answering world readNextVars atOnce) R M call varBinds rspVarBinds) := by
  induction M generalizing call varBinds rspVarBinds with
  | zero => exact ⟨0, rfl⟩
  | succ M ih =>
    unfold repeatEnd
    by_cases hR : R = 0
    · simp only [hR, if_true]
      exact ⟨0, rfl⟩
    · simp only [hR, if_false, replyResult_answering, replyMeanwhile_answering]
      cases readNextVars varBinds with
      | error failure => exact ⟨1, rfl⟩
      | ok repetition => exact sameOutcome_after world readNextVars waits (ih _ _ _)

/-- A GETBULK gathers the same whether its reads wait or not. -/
theorem bulkEnd_answering (pdu : Pdu) :
    SameOutcome waits 0 (bulkEnd (answering world readNextVars waits) pdu)
      (bulkEnd (answering world readNextVars atOnce) pdu) := by
  unfold bulkEnd
  by_cases hnone : nonRepeaters pdu = 0
  · simp only [hnone, if_true]
    exact repeatEnd_answering world readNextVars waits _ _ _ _ _
  · simp only [hnone, if_false, replyResult_answering, replyMeanwhile_answering]
    cases readNextVars (pdu.varBinds.take (nonRepeaters pdu)) with
    | error failure => exact ⟨1, rfl⟩
    | ok rspVarBinds =>
      exact sameOutcome_after world readNextVars waits
        (repeatEnd_answering world readNextVars waits _ _ _ _ _)

omit world readNextVars waits in
theorem waitsFrom_atOnce (call count : ℕ) : waitsFrom atOnce call count = id := by
  induction count generalizing call with
  | zero => rfl
  | succ count ih => exact ih (call + 1)

theorem bulkEnd_atOnce_snd (pdu : Pdu) :
    (bulkEnd (answering world readNextVars atOnce) pdu).2 = id := by
  obtain ⟨count, hcount⟩ := bulkEnd_answering world readNextVars atOnce pdu
  rw [hcount, waitsFrom_atOnce]

/-- The bulk operation with waits is the one without, after the waits. -/
theorem bulkOperation_answering (stateReference : ℕ) (pdu : Pdu) :
    ∃ count, bulkOperation (answering world readNextVars waits) stateReference pdu >>=
        runDeferred =
      wait (waitsFrom waits 0 count) >>= fun _ ↦
        bulkOperation (answering world readNextVars atOnce) stateReference pdu >>= runDeferred := by
  obtain ⟨count, hcount⟩ := bulkEnd_answering world readNextVars waits pdu
  refine ⟨count, ?_⟩
  rw [bulkOperation_bind_runDeferred, bulkOperation_bind_runDeferred, conclusion, conclusion,
    bulkEnd_atOnce_snd, hcount]
  rfl

/-- What the responder sends does not depend on the instrumentation. -/
theorem failedMgmtOperation_answering (stateReference : ℕ) (varBinds : List VarBind) :
    failedMgmtOperation (answering world readNextVars waits) stateReference varBinds =
      failedMgmtOperation (answering world readNextVars atOnce) stateReference varBinds :=
  rfl

/-- A choice to wait is not seen in the answer to a GETBULK: whatever it is, the responder does,
with the cache of message processing as the waits leave it, what it does when all reads answer at
once. -/
theorem serveRequest_bulk_answering (rounds : ℕ) (request : Request) :
    ∃ count, ∀ responder,
      (serveRequest (answering world readNextVars waits) rounds
          { request with kind := .bulk }).run responder =
        (serveRequest (answering world readNextVars atOnce) rounds
          { request with kind := .bulk }).run (waited (waitsFrom waits 0 count) responder) := by
  rw [serveRequest_eq, serveRequest_eq]
  rcases htranslated : translateRequest { request with kind := .bulk }
    with exception | ⟨pdu, origPdu⟩
  · exact ⟨0, fun responder ↦ rfl⟩
  · by_cases hclass : pdu.pduType.isReadClass || pdu.pduType.isWriteClass
    · obtain ⟨count, hcount⟩ := bulkOperation_answering world readNextVars waits
        request.stateReference pdu
      refine ⟨count, fun responder ↦ ?_⟩
      change ((if _ then _ else _ : ResponderOp Unit)).run _ =
        ((if _ then _ else _ : ResponderOp Unit)).run _
      rw [if_pos hclass, if_pos hclass]
      simp only [handleMgmtOperation]
      rw [hcount, failedMgmtOperation_answering]
      rfl
    · refine ⟨0, fun responder ↦ ?_⟩
      change ((if _ then _ else _ : ResponderOp Unit)).run _ =
        ((if _ then _ else _ : ResponderOp Unit)).run _
      rw [if_neg hclass, if_neg hclass]
      rfl

end Answering

end Pysnmp.Entity.Rfc3413.SuspendedOperations
