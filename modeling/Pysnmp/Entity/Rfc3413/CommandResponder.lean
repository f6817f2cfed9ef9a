import Pysnmp.Proto.Mpmod.MessageProcessing
import Pysnmp.Proto.Proxy.Rfc2576
import Pysnmp.Smi.ManagedObjects

/-!
# The command responder

`cmdrsp.py`: a request is entered in the table of pending requests, its operation is run on the
instrumentation, and the result, or the error status a failure is mapped to, is sent back through
the message processing model it came in by (`returnResponsePdu`). An operation whose instrumentation
has to be waited on hands back the rest of its work, which the dispatcher runs when it can.

The instrumentation is any object with the operations of a MIB controller, so it is a parameter:
what each call of a request comes to, at once or after a wait. While a request waits, the caches of
message processing age and serve others. The loop of a GETNEXT ends when the instrumentation lets
it; it runs here for a number of rounds, and `unfinished` is no exception of the code.
-/

set_option autoImplicit false
set_option relaxedAutoImplicit false

namespace Pysnmp.Entity.Rfc3413.CommandResponder

open Foundation Foundation.Effect Proto Proto.Mpmod.Cache Proto.Mpmod.MessageProcessing
open Proto.Proxy.Rfc2576

/-! ### Exceptions -/

/-- The classes of `smi/error.py`. -/
inductive SmiErrorClass
  | smiError
  | mibLoadError
  | mibNotFoundError
  | mibOperationError
  | tooBigError
  | noSuchNameError
  | badValueError
  | readOnlyError
  | genError
  | noAccessError
  | wrongTypeError
  | wrongLengthError
  | wrongEncodingError
  | wrongValueError
  | noCreationError
  | inconsistentValueError
  | resourceUnavailableError
  | commitFailedError
  | undoFailedError
  | authorizationError
  | notWritableError
  | inconsistentNameError
  | noSuchObjectError
  | noSuchInstanceError
  | endOfMibViewError
  | tableRowManagement
  | rowCreationWanted
  | rowDestructionWanted
  deriving DecidableEq, Repr

/-- The details of an SMI error that the responder reads. -/
structure ErrorDetails where
  idx : Option ℕ := none
  oid : Option Oid := none
  val : Option BindingValue := none
  deriving DecidableEq, Repr

/-- The exceptions that pass through the responder: those of the SMI, and the others. -/
inductive Failure
  | smi (errorClass : SmiErrorClass) (details : ErrorDetails)
  | raised (exception : Raised)
  | unfinished
  deriving DecidableEq, Repr

/-- The class of an error of the MIB tree. -/
def SmiErrorClass.ofKind : Smi.SmiErrorKind → SmiErrorClass
  | .smiError => smiError
  | .genError => genError
  | .noAccess => noAccessError
  | .notWritable => notWritableError
  | .noCreation => noCreationError
  | .wrongValue => wrongValueError
  | .inconsistentValue => inconsistentValueError
  | .authorizationError => authorizationError
  | .noSuchObject => noSuchObjectError
  | .noSuchInstance => noSuchInstanceError
  | .rowCreationWanted => rowCreationWanted
  | .rowDestructionWanted => rowDestructionWanted

/-- An exception of the MIB tree, as the responder meets it. -/
def Failure.ofMib : Smi.MibException → Failure
  | .smi error => .smi (.ofKind error.kind) { idx := error.idx }
  | .python .pyAsn1Error => .raised .pyAsn1Error
  | .python .valueError => .raised .otherError
  | .python .attributeError => .raised .attributeError
  | .python .keyError => .raised .keyError
  | .python .typeError => .raised .typeError
  | .python .indexError => .raised .otherError
  | .python .recursionError => .raised .otherError

/-! ### The responder and what it runs in -/

/-- The requests a responder is registered for. -/
inductive RequestKind
  | get
  | next
  | bulk
  | set
  deriving DecidableEq, Repr

/-- `pduTypes`. -/
def RequestKind.pduType : RequestKind → PduType
  | get => .getRequest
  | next => .getNextRequest
  | bulk => .getBulkRequest
  | set => .setRequest

/-- What is kept of a request until it is answered; the error fields and the bindings of the
response are set each time it is sent. -/
structure PendingRequest where
  messageProcessingModel : ModelId
  rspPDU : Pdu
  origPdu : Option Pdu
  statusInformation : Option ReportedObject
  deriving DecidableEq, Repr

/-- A response that went out, as the responder handed it over. -/
structure SentResponse where
  stateReference : ℕ
  messageProcessingModel : ModelId
  pdu : Pdu
  deriving DecidableEq, Repr

/-- The state: the table of pending requests, the message processing model that the responses go
through, the count of silent drops, and the responses sent so far. -/
structure Responder where
  pendingReqs : Dict ℕ PendingRequest
  model : Model
  snmpSilentDrops : ℕ
  sent : List SentResponse

/-- What a call of the instrumentation comes to, at once or after a wait in which the cache of
message processing may change. -/
inductive Reply
  | immediate (result : Except Failure (List VarBind))
  | suspended (meanwhile : CacheState → CacheState) (result : Except Failure (List VarBind))

/-- What the responder runs in. The instrumentation answers the calls of a request, which are
counted, and the transport may fail to send a message. -/
structure World where
  environment : Environment
  messageProcessingSubsystems : ModelId → Bool
  securing : ResponseSecuring
  sendMessage : Octets → Option Raised
  instrumentation : ℕ → List VarBind → Reply

/-- Programs of the responder. -/
abbrev ResponderOp (α : Type) := Effect Responder Failure α

/-- An operation of the message processing model. -/
def onModel {α : Type} (operation : ModelOp α) : ResponderOp α :=
  ⟨fun responder ↦
    let result := operation.run responder.model
    (result.1.mapError .raised, { responder with model := result.2 })⟩

/-- The value of a computation of the protocol modules, or its exception. -/
def liftRaised {α : Type} (result : Except Raised α) : ResponderOp α :=
  Effect.liftExcept (result.mapError .raised)

/-! ### Sending -/

/-- Count a response that is dropped. -/
def countSilentDrop : ResponderOp Unit :=
  modify fun responder ↦ { responder with snmpSilentDrops := responder.snmpSilentDrops + 1 }

/-- Whether a message is larger than the engine allows; a limit of zero is none. -/
def isOversized (environment : Environment) (outgoingMessage : Octets) : Bool :=
  environment.snmpEngineMaxMessageSize ≠ 0 ∧
    environment.snmpEngineMaxMessageSize < outgoingMessage.length

/-- `transportDispatcher.sendMessage`. -/
def transmit (world : World) (response : SentResponse) (outgoingMessage : Octets) :
    ResponderOp Unit :=
  match world.sendMessage outgoingMessage with
  | some exception => raise (.raised exception)
  | none => modify fun responder ↦ { responder with sent := responder.sent ++ [response] }

/-- `MsgAndPduDispatcher.returnResponsePdu`. -/
def returnResponsePdu (world : World) (response : SentResponse)
    (statusInformation : Option ReportedObject) : ResponderOp Unit :=
  if world.messageProcessingSubsystems response.messageProcessingModel then do
    let outgoingMessage ← onModel (prepareResponseMessage response.messageProcessingModel
      world.environment world.securing response.stateReference statusInformation response.pdu)
    if isOversized world.environment outgoingMessage then do
      countSilentDrop
      raise (.raised (.status .tooBig))
    else
      transmit world response outgoingMessage
  else
    raise (.raised (.status .unsupportedMsgProcessingModel))

/-- The entry of a request. -/
def pendingRequest (stateReference : ℕ) : ResponderOp PendingRequest := do
  match ← gets fun responder ↦ responder.pendingReqs.lookup stateReference with
  | none => raise (.raised .keyError)
  | some pending => pure pending

/-- The response in the version of the request. -/
def translateResponse (pending : PendingRequest) (pdu : Pdu) : Except Raised Pdu :=
  match pending.messageProcessingModel, pending.origPdu with
  | .v1, some origPdu => v2ToV1Response pdu origPdu
  | .v1, none => .error .attributeError
  | .v2c, _ | .v3, _ => .ok pdu

/-- 3.2.6: a response that message processing refuses is dropped silently. -/
def dropRefused : Failure → ResponderOp Unit
  | .raised (.statusInformation _) => countSilentDrop
  | failure => raise failure

/-- `sendPdu`. -/
def sendPdu (world : World) (stateReference : ℕ) (pdu : Pdu) : ResponderOp Unit := do
  let pending ← pendingRequest stateReference
  let translated ← liftRaised (translateResponse pending pdu)
  handle (returnResponsePdu world ⟨stateReference, pending.messageProcessingModel, translated⟩
    pending.statusInformation) dropRefused

/-- The response of a pending request. -/
def PendingRequest.response (pending : PendingRequest) (errorStatus errorIndex : ℤ)
    (varBinds : List VarBind) : Pdu :=
  { pending.rspPDU with errorStatus, errorIndex, varBinds }

/-- `sendVarBinds`. -/
def sendVarBinds (world : World) (stateReference : ℕ) (errorStatus errorIndex : ℤ)
    (varBinds : List VarBind) : ResponderOp Unit := do
  let pending ← pendingRequest stateReference
  sendPdu world stateReference (pending.response errorStatus errorIndex varBinds)

/-- `releaseStateInformation`. -/
def releaseStateInformation (stateReference : ℕ) : ResponderOp Unit :=
  modify fun responder ↦
    { responder with pendingReqs := responder.pendingReqs.erase stateReference }

/-- Send the bindings, and release the request. -/
def answer (world : World) (stateReference : ℕ) (errorStatus errorIndex : ℤ)
    (varBinds : List VarBind) : ResponderOp Unit := do
  sendVarBinds world stateReference errorStatus errorIndex varBinds
  releaseStateInformation stateReference

/-! ### Failed operations -/

/-- The clauses of `_failedMgmtOperation` for SMI errors. All but three read the position of the
binding and differ in the status they set. -/
inductive Clause
  | genError
  | tooBigError
  | indexed (errorStatus : ℤ)
  | smiError
  deriving DecidableEq, Repr

/-- The first clause whose class an error is an instance of. -/
def SmiErrorClass.clause : SmiErrorClass → Clause
  | genError => .genError
  | tooBigError => .tooBigError
  | noSuchNameError | noSuchObjectError | noSuchInstanceError | endOfMibViewError => .indexed 2
  | badValueError => .indexed 3
  | readOnlyError => .indexed 4
  | noAccessError => .indexed 6
  | wrongTypeError => .indexed 7
  | wrongLengthError => .indexed 8
  | wrongEncodingError => .indexed 9
  | wrongValueError => .indexed 10
  | noCreationError => .indexed 11
  | inconsistentValueError => .indexed 12
  | resourceUnavailableError => .indexed 13
  | commitFailedError => .indexed 14
  | undoFailedError => .indexed 15
  | authorizationError => .indexed 16
  | notWritableError => .indexed 17
  | inconsistentNameError => .indexed 18
  | smiError | mibLoadError | mibNotFoundError | mibOperationError | tableRowManagement
  | rowCreationWanted | rowDestructionWanted => .smiError

/-- Have message processing report an object in place of the response. -/
def requestReport (stateReference : ℕ) (reported : ReportedObject) : ResponderOp Unit := do
  let pending ← pendingRequest stateReference
  modify fun responder ↦
    { responder with
      pendingReqs := responder.pendingReqs.insert stateReference
        { pending with statusInformation := some reported } }

/-- The clause of `GenError`. -/
def failedGenError (world : World) (stateReference : ℕ) (varBinds : List VarBind)
    (details : ErrorDetails) : ResponderOp Unit :=
  match details.oid, details.val with
  | none, _ => answer world stateReference 5 (details.idx.elim 0 fun idx ↦ idx + 1) varBinds
  | some _, none => raise (.raised .keyError)
  | some oid, some val => do
    requestReport stateReference (oid, val)
    answer world stateReference 0 0 varBinds

/-- `_failedMgmtOperation`. An error without the position that its clause reads is a `KeyError`, and
what the clauses do not name is raised again. -/
def failedMgmtOperation (world : World) (stateReference : ℕ) (varBinds : List VarBind) :
    Failure → ResponderOp Unit
  | .smi errorClass details =>
    match errorClass.clause, details.idx with
    | .genError, _ => failedGenError world stateReference varBinds details
    | .tooBigError, _ => answer world stateReference 1 0 []
    | .indexed _, none => raise (.raised .keyError)
    | .indexed errorStatus, some idx =>
      answer world stateReference errorStatus (idx + 1) varBinds
    | .smiError, _ => answer world stateReference 5 (if varBinds = [] then 0 else 1) varBinds
  | .raised exception =>
    if exception.isPySnmpError then releaseStateInformation stateReference
    else raise (.raised exception)
  | .unfinished => raise .unfinished

/-! ### Operations -/

/-- The rest of an operation that has to wait. -/
abbrev Deferred := Option (ResponderOp Unit)

/-- `awaitInstrumentation`. -/
def awaitInstrumentation : Reply → ResponderOp (List VarBind)
  | .immediate result => liftExcept result
  | .suspended meanwhile result => do
    modify fun responder ↦
      { responder with model := { responder.model with cache := meanwhile responder.model.cache } }
    liftExcept result

/-- `__answerOnceRead`. -/
def answerOnceRead (world : World) (stateReference : ℕ) (reply : Reply) : ResponderOp Unit := do
  let rspVarBinds ← awaitInstrumentation reply
  answer world stateReference 0 0 rspVarBinds

/-- `GetCommandResponder.handleMgmtOperation`. -/
def getOperation (world : World) (stateReference : ℕ) (pdu : Pdu) : ResponderOp Deferred :=
  match world.instrumentation 0 pdu.varBinds with
  | .suspended meanwhile result =>
    pure (some (answerOnceRead world stateReference (.suspended meanwhile result)))
  | .immediate result => do
    let rspVarBinds ← liftExcept result
    answer world stateReference 0 0 rspVarBinds
    pure none

/-- An object that turned out not to be there is reported as not writable. -/
def raiseNotWritable {α : Type} : Failure → ResponderOp α
  | .smi .noSuchObjectError details => raise (.smi .notWritableError details)
  | .smi .noSuchInstanceError details => raise (.smi .notWritableError details)
  | failure => raise failure

/-- `__answerOnceWritten`. -/
def answerOnceWritten (world : World) (stateReference : ℕ) (reply : Reply) : ResponderOp Unit :=
  handle (answerOnceRead world stateReference reply) raiseNotWritable

/-- What `SetCommandResponder.handleMgmtOperation` does under its handler. -/
def writeOnce (world : World) (stateReference : ℕ) : Reply → ResponderOp Deferred
  | .suspended meanwhile result =>
    pure (some (answerOnceWritten world stateReference (.suspended meanwhile result)))
  | .immediate result => do
    let rspVarBinds ← liftExcept result
    answer world stateReference 0 0 rspVarBinds
    pure none

/-- `SetCommandResponder.handleMgmtOperation`. -/
def setOperation (world : World) (stateReference : ℕ) (pdu : Pdu) : ResponderOp Deferred :=
  handle (writeOnce world stateReference (world.instrumentation 0 pdu.varBinds)) raiseNotWritable

/-- The bindings to ask for again after one was found that cannot be sent: the search goes on from
there. -/
def resumePast (varBinds rspVarBinds : List VarBind) : Failure → Except Failure (List VarBind)
  | .raised (.statusInformation details) =>
    match details.idx with
    | none => .error (.raised .keyError)
    | some idx =>
      match rspVarBinds[idx]?, varBinds[idx]? with
      | some found, some asked => .ok (varBinds.set idx (found.1, asked.2))
      | _, _ => .error (.raised .otherError)
  | failure => .error failure

/-- Send what a walk has read; the result is what has to be read in its place, if anything. -/
def sendOrResume (world : World) (stateReference : ℕ) (varBinds rspVarBinds : List VarBind) :
    ResponderOp (Option (List VarBind)) :=
  handle
    (do
      sendVarBinds world stateReference 0 0 rspVarBinds
      pure none)
    fun failure ↦ liftExcept ((resumePast varBinds rspVarBinds failure).map some)

/-- `__answerOnceWalked`, for a number of rounds. -/
def answerOnceWalked (world : World) (stateReference : ℕ) :
    ℕ → ℕ → List VarBind → Reply → ResponderOp Unit
  | rounds, call, varBinds, reply => do
    let rspVarBinds ← awaitInstrumentation reply
    match ← sendOrResume world stateReference varBinds rspVarBinds with
    | none => releaseStateInformation stateReference
    | some varBinds =>
      match rounds with
      | 0 => raise .unfinished
      | rounds + 1 =>
        answerOnceWalked world stateReference rounds (call + 1) varBinds
          (world.instrumentation (call + 1) varBinds)

/-- The loop of `NextCommandResponder.handleMgmtOperation`, for a number of rounds. -/
def nextLoop (world : World) (stateReference : ℕ) :
    ℕ → ℕ → List VarBind → ResponderOp Deferred
  | 0, _, _ => raise .unfinished
  | rounds + 1, call, varBinds =>
    match world.instrumentation call varBinds with
    | .suspended meanwhile result =>
      pure (some (answerOnceWalked world stateReference rounds call varBinds
        (.suspended meanwhile result)))
    | .immediate result => do
      let rspVarBinds ← liftExcept result
      match ← sendOrResume world stateReference varBinds rspVarBinds with
      | none => do
        releaseStateInformation stateReference
        pure none
      | some varBinds => nextLoop world stateReference rounds (call + 1) varBinds

/-- `maxVarBinds`. -/
def maxVarBinds : ℕ := 64

/-- `varBinds[-R:]`. -/
def lastVarBinds (R : ℕ) (varBinds : List VarBind) : List VarBind :=
  if R = 0 then varBinds else varBinds.drop (varBinds.length - R)

/-- Answer a GETBULK, which has to have read something. -/
def answerBulk (world : World) (stateReference : ℕ) (rspVarBinds : List VarBind) :
    ResponderOp Unit :=
  if rspVarBinds = [] then raise (.smi .smiError {})
  else answer world stateReference 0 0 rspVarBinds

/-- The repetitions that are left of a GETBULK that had to wait. -/
def repeatBulkRead (world : World) (stateReference R : ℕ) :
    ℕ → ℕ → List VarBind → List VarBind → ResponderOp Unit
  | 0, _, _, rspVarBinds => answerBulk world stateReference rspVarBinds
  | M + 1, call, varBinds, rspVarBinds =>
    if R = 0 then answerBulk world stateReference rspVarBinds
    else do
      let repetition ← awaitInstrumentation (world.instrumentation call varBinds)
      repeatBulkRead world stateReference R M (call + 1)
        (lastVarBinds R (rspVarBinds ++ repetition)) (rspVarBinds ++ repetition)

/-- `__answerOnceBulkRead`. Without bindings to go on from, they follow from what is read. -/
def answerOnceBulkRead (world : World) (stateReference : ℕ) (pending : Reply)
    (rspVarBinds : List VarBind) (varBinds : Option (List VarBind)) (M R call : ℕ) :
    ResponderOp Unit := do
  let read ← awaitInstrumentation pending
  repeatBulkRead world stateReference R M (call + 1)
    (varBinds.getD (lastVarBinds R (rspVarBinds ++ read))) (rspVarBinds ++ read)

/-- The loop of `BulkCommandResponder.handleMgmtOperation`. -/
def bulkLoop (world : World) (stateReference R : ℕ) :
    ℕ → ℕ → List VarBind → List VarBind → ResponderOp Deferred
  | 0, _, _, rspVarBinds => do
    answerBulk world stateReference rspVarBinds
    pure none
  | M + 1, call, varBinds, rspVarBinds =>
    if R = 0 then do
      answerBulk world stateReference rspVarBinds
      pure none
    else
      match world.instrumentation call varBinds with
      | .suspended meanwhile result =>
        pure (some (answerOnceBulkRead world stateReference (.suspended meanwhile result)
          rspVarBinds none M R call))
      | .immediate result => do
        let repetition ← liftExcept result
        bulkLoop world stateReference R M (call + 1)
          (lastVarBinds R (rspVarBinds ++ repetition)) (rspVarBinds ++ repetition)

/-- How many bindings of a GETBULK are read once. -/
def nonRepeaters (pdu : Pdu) : ℕ := min pdu.errorStatus.toNat pdu.varBinds.length

/-- How many bindings of a GETBULK are read repeatedly. -/
def repeaters (pdu : Pdu) : ℕ := pdu.varBinds.length - nonRepeaters pdu

/-- How often they are read. -/
def repetitions (pdu : Pdu) : ℕ :=
  if repeaters pdu = 0 then pdu.errorIndex.toNat
  else min pdu.errorIndex.toNat (maxVarBinds / repeaters pdu)

/-- `BulkCommandResponder.handleMgmtOperation`. The list that the instrumentation returns for the
first read is extended by the later ones; that it sees this, if it has kept the list, is not
modelled. -/
def bulkOperation (world : World) (stateReference : ℕ) (pdu : Pdu) : ResponderOp Deferred :=
  let R := repeaters pdu
  if nonRepeaters pdu = 0 then
    bulkLoop world stateReference R (repetitions pdu) 0 (lastVarBinds R pdu.varBinds) []
  else
    match world.instrumentation 0 (pdu.varBinds.take (nonRepeaters pdu)) with
    | .suspended meanwhile result =>
      pure (some (answerOnceBulkRead world stateReference (.suspended meanwhile result) []
        (some (lastVarBinds R pdu.varBinds)) (repetitions pdu) R 0))
    | .immediate result => do
      let rspVarBinds ← liftExcept result
      bulkLoop world stateReference R (repetitions pdu) 1 (lastVarBinds R pdu.varBinds) rspVarBinds

/-- `handleMgmtOperation` of the responders; the rounds are those of a GETNEXT. -/
def handleMgmtOperation (world : World) (rounds stateReference : ℕ) (pdu : Pdu) :
    RequestKind → ResponderOp Deferred
  | .get => getOperation world stateReference pdu
  | .next => nextLoop world stateReference rounds 0 pdu.varBinds
  | .bulk => bulkOperation world stateReference pdu
  | .set => setOperation world stateReference pdu

/-! ### Requests -/

/-- A request as the dispatcher hands it over. -/
structure Request where
  kind : RequestKind
  messageProcessingModel : ModelId
  stateReference : ℕ
  pdu : Pdu
  deriving DecidableEq, Repr

/-- The request in the version of the instrumentation, and as it came where that is another. -/
def translateRequest (request : Request) : Except Raised (Pdu × Option Pdu) :=
  match request.messageProcessingModel with
  | .v1 => do
    let pdu ← v1ToV2 request.pdu request.pdu
    .ok (pdu, some request.pdu)
  | .v2c | .v3 => .ok (request.pdu, none)

/-- The entry of a request that has not been answered. -/
def Request.pending (request : Request) (pdu : Pdu) (origPdu : Option Pdu) : PendingRequest where
  messageProcessingModel := request.messageProcessingModel
  rspPDU := { pduType := .response, requestID := pdu.requestID, varBinds := [] }
  origPdu := origPdu
  statusInformation := none

/-- 3.2.4: enter a request in the table. -/
def enterRequest (stateReference : ℕ) (pending : PendingRequest) : ResponderOp Unit :=
  modify fun responder ↦
    { responder with pendingReqs := responder.pendingReqs.insert stateReference pending }

/-- `_completeMgmtOperation`. -/
def completeMgmtOperation (world : World) (stateReference : ℕ) (varBinds : List VarBind)
    (awaitable : ResponderOp Unit) : ResponderOp Unit :=
  handle awaitable (failedMgmtOperation world stateReference varBinds)

/-- 3.2.5: run an operation, and have a failure answered. -/
def runMgmtOperation (world : World) (stateReference : ℕ) (varBinds : List VarBind)
    (operation : ResponderOp Deferred) : ResponderOp Deferred :=
  handle
    (do
      let deferred ← operation
      pure (deferred.map (completeMgmtOperation world stateReference varBinds)))
    fun failure ↦ do
      failedMgmtOperation world stateReference varBinds failure
      pure none

/-- `processPdu`. -/
def processPdu (world : World) (rounds : ℕ) (request : Request) : ResponderOp Deferred := do
  let (pdu, origPdu) ← liftRaised (translateRequest request)
  if pdu.pduType.isReadClass || pdu.pduType.isWriteClass then do
    enterRequest request.stateReference (request.pending pdu origPdu)
    runMgmtOperation world request.stateReference pdu.varBinds
      (handleMgmtOperation world rounds request.stateReference pdu request.kind)
  else
    raise (.raised .protocolError)

/-- The dispatcher runs what is left of an operation. -/
def runDeferred : Deferred → ResponderOp Unit
  | none => pure ()
  | some deferred => deferred

/-- A request, with the rest of its work. -/
def serveRequest (world : World) (rounds : ℕ) (request : Request) : ResponderOp Unit := do
  let deferred ← processPdu world rounds request
  runDeferred deferred

end Pysnmp.Entity.Rfc3413.CommandResponder
