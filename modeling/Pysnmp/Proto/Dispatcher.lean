import Pysnmp.Proto.Mpmod.MessageProcessing

/-!
# The dispatcher's requests

`MsgAndPduDispatcher` of `proto/rfc3412.py`, as far as it sends requests and takes responses,
reports, transport failures and timer ticks to the applications that wait for them. Its own record
of a request is `CachedParams`, kept under the send handle until the request is answered or expires.

An application's callback is a program (`process`) that the dispatcher runs in the middle of its
own, and that sends again if it likes. What the engine does not decide is in the arguments: what the
generators draw, how the message is secured, how the transport takes it.
-/

set_option autoImplicit false
set_option relaxedAutoImplicit false

namespace Pysnmp.Proto.Dispatcher

open Foundation Foundation.Effect Mpmod.Cache Mpmod.MessageProcessing

/-! ### State and environment -/

/-- What the dispatcher keeps of a request: the peer is added when the request has been sent. -/
structure CachedParams (κ : Type) where
  messageProcessingModel : ModelId
  sendPduHandle : ℕ
  timeout : ℚ
  callback : κ
  sentTo : Option Peer

/-- The engine: the dispatcher's cache, with the newest request first, the message processing
models, the tick count, and the state of the applications. -/
structure Engine (κ α : Type) where
  cache : Dict ℕ (CachedParams κ)
  models : ModelId → Model
  ticks : ℕ
  app : α

/-- What does not change while the engine runs. -/
structure EngineConfig where
  environment : Environment
  messageProcessingSubsystems : ModelId → Bool
  hasTransportDispatcher : Bool

/-- The registered model for a version. -/
def EngineConfig.mpHandler (config : EngineConfig) (version : ℕ) : Option ModelId :=
  (ModelId.ofVersion version).filter config.messageProcessingSubsystems

/-- The arguments of `sendPdu`. -/
structure SendArguments (κ : Type) where
  messageProcessingModel : ℕ
  peer : Peer
  securityModel : ℕ
  securityName : Octets
  securityLevel : SecurityLevel
  contextEngineId : Option Octets
  contextName : Octets
  pduVersion : ℕ
  pdu : Pdu
  expectResponse : Bool
  timeout : ℚ
  callback : κ

/-- What a send meets outside the dispatcher: the handle and the message identifier that are drawn
in the state it is made in, the securing of the message, and how the transport fails. -/
structure SendWorld (κ α : Type) where
  sendPduHandle : Engine κ α → ℕ
  msgID : Engine κ α → ℤ
  securing : Securing
  sendMessage : Option Raised

/-- What a callback is told: a response, or how the request failed. -/
inductive Outcome
  | response (message : PreparedMessage)
  | failure (statusInformation : StatusDetails)

variable {κ α : Type}

/-- Programs of the engine. -/
abbrev EngineOp (κ α β : Type) := Effect (Engine κ α) Raised β

/-- An operation of one of the models. -/
def onModel {β : Type} (modelId : ModelId) (operation : ModelOp β) : EngineOp κ α β :=
  focus (fun engine ↦ engine.models modelId)
    (fun model engine ↦ { engine with models := Function.update engine.models modelId model })
    operation

/-! ### The dispatcher's cache -/

/-- `Cache.add`. -/
def addToCache (index : ℕ) (params : CachedParams κ) : EngineOp κ α Unit :=
  modify fun engine ↦ { engine with cache := engine.cache.insert index params }

/-- `Cache.pop`. -/
def popFromCache (index : ℕ) : EngineOp κ α (Option (CachedParams κ)) := do
  let cachedParams ← gets fun engine ↦ engine.cache.lookup index
  modify fun engine ↦ { engine with cache := engine.cache.erase index }
  pure cachedParams

/-- `Cache.pop`, where the entry is not looked at. -/
def dropFromCache (index : ℕ) : EngineOp κ α Unit := do
  let _ ← popFromCache index
  pure ()

/-- `Cache.update`, with the peer the request was sent to. -/
def updateCache (index : ℕ) (peer : Peer) : EngineOp κ α Unit := do
  match ← gets fun engine ↦ engine.cache.lookup index with
  | none => raise .protocolError
  | some params => modify fun engine ↦
      { engine with cache := engine.cache.insert index { params with sentTo := some peer } }

/-- `Cache.expire`: the entries as they are at the start are shown to the callback, and those it
expires are dropped if they are still there. -/
def expireCache (cbFun : ℕ → CachedParams κ → EngineOp κ α Bool) : EngineOp κ α Unit := do
  let items ← gets fun engine ↦ engine.cache.entries.reverse
  forEach (fun item ↦ do
    let expired ← cbFun item.1 item.2
    runIf expired
      (modify fun engine ↦ { engine with cache := engine.cache.erase item.1 })) items

/-! ### Sending -/

/-- `releaseStateInformation`. -/
def releaseState (config : EngineConfig) (sendPduHandle : ℕ) (modelId : ModelId) :
    EngineOp κ α Unit := do
  runIf (config.messageProcessingSubsystems modelId)
    (onModel modelId (releaseStateInformation sendPduHandle))
  dropFromCache sendPduHandle

/-- The request that a message is prepared for. -/
def outgoingRequest (arguments : SendArguments κ) (sendPduHandle : ℕ) : OutgoingRequest where
  peer := arguments.peer
  securityModel := arguments.securityModel
  securityName := arguments.securityName
  securityLevel := arguments.securityLevel
  contextEngineId := arguments.contextEngineId
  contextName := arguments.contextName
  pdu := arguments.pdu
  sendPduHandle := sendPduHandle

/-- 4.1.1.4 and 4.1.1.5: a failure that is a `PySnmpError` takes the request back out of both
caches. -/
def prepareMessage (config : EngineConfig) (arguments : SendArguments κ) (modelId : ModelId)
    (sendPduHandle : ℕ) (msgID : ℤ) (securing : Securing) : EngineOp κ α Octets :=
  handle (onModel modelId (prepareOutgoingMessage modelId config.environment
      (outgoingRequest arguments sendPduHandle) securing msgID)) fun exception ↦ do
    runIf (exception.isPySnmpError ∧ arguments.expectResponse) do
      dropFromCache sendPduHandle
      releaseState config sendPduHandle modelId
    raise exception

/-- 4.1.1.6: hand the message to the transport. A failure that is a `PySnmpError` takes the request
out of the dispatcher's cache. -/
def transmit (config : EngineConfig) (arguments : SendArguments κ) (sendPduHandle : ℕ)
    (sendMessage : Option Raised) : EngineOp κ α Unit :=
  if ¬ config.hasTransportDispatcher then do
    runIf arguments.expectResponse (dropFromCache sendPduHandle)
    raise .pySnmpError
  else
    match sendMessage with
    | none => pure ()
    | some exception => do
      runIf (exception.isPySnmpError ∧ arguments.expectResponse) (dropFromCache sendPduHandle)
      raise exception

/-- 4.1.1.3: note a request that expects a response. The ticks of the timeout are read off the
transport dispatcher. -/
def noteRequest (config : EngineConfig) (arguments : SendArguments κ) (modelId : ModelId)
    (sendPduHandle : ℕ) : EngineOp κ α Unit :=
  if arguments.expectResponse then
    if config.hasTransportDispatcher then do
      let timeNow ← gets fun engine ↦ engine.ticks
      addToCache sendPduHandle
        { messageProcessingModel := modelId
          sendPduHandle := sendPduHandle
          timeout := arguments.timeout + timeNow
          callback := arguments.callback
          sentTo := none }
    else
      raise .attributeError
  else
    pure ()

/-- `sendPdu`. -/
def sendPdu (config : EngineConfig) (arguments : SendArguments κ) (world : SendWorld κ α) :
    EngineOp κ α ℕ := do
  match config.mpHandler arguments.messageProcessingModel with
  | none => raise (.status .unsupportedMsgProcessingModel)
  | some modelId => do
    let engine ← get
    let sendPduHandle := world.sendPduHandle engine
    noteRequest config arguments modelId sendPduHandle
    let _ ← prepareMessage config arguments modelId sendPduHandle (world.msgID engine)
      world.securing
    transmit config arguments sendPduHandle world.sendMessage
    runIf arguments.expectResponse (updateCache sendPduHandle arguments.peer)
    pure sendPduHandle

/-! ### Receiving -/

/-- The callbacks of the applications that send, and the applications that serve. -/
structure Applications (κ α : Type) where
  process : κ → Outcome → ℕ → EngineOp κ α Unit
  serve : PreparedMessage → EngineOp κ α Unit

/-- `__expireRequest`: without a reason of its own a request only expires when it is due. -/
def expireRequest (config : EngineConfig) (applications : Applications κ α)
    (cachedParams : CachedParams κ) (statusInformation : Option StatusDetails) :
    EngineOp κ α Bool := do
  let timeNow ← gets fun engine ↦ engine.ticks
  if statusInformation = none ∧ (timeNow : ℚ) < cachedParams.timeout then
    pure false
  else do
    let details := statusInformation.getD { errorIndication := some .requestTimedOut }
    releaseState config cachedParams.sendPduHandle cachedParams.messageProcessingModel
    applications.process cachedParams.callback (.failure details) cachedParams.sendPduHandle
    pure true

/-- `__expireRequest` on what `pop` returned: nothing can be read of an entry that is not there. -/
def expirePopped (config : EngineConfig) (applications : Applications κ α)
    (cachedParams : Option (CachedParams κ)) (details : StatusDetails) : EngineOp κ α Unit :=
  match cachedParams with
  | none => raise .typeError
  | some cachedParams => do
    let _ ← expireRequest config applications cachedParams (some details)
    pure ()

/-- 4.2.2.2: a response goes to the application that waits for it, if there is one. -/
def deliverResponse (applications : Applications κ α) (message : PreparedMessage)
    (sendPduHandle : ℕ) : EngineOp κ α Unit := do
  match ← popFromCache sendPduHandle with
  | none => pure ()
  | some cachedParams =>
    applications.process cachedParams.callback (.response message) cachedParams.sendPduHandle

/-- What follows `prepareDataElements` in `receiveMessage`. -/
def dispatchMessage (config : EngineConfig) (applications : Applications κ α)
    (result : Except Raised PreparedMessage) : EngineOp κ α Unit :=
  match result with
  | .ok message =>
    match message.sendPduHandle with
    | none => applications.serve message
    | some sendPduHandle => deliverResponse applications message sendPduHandle
  | .error (.statusInformation details) =>
    match details.sendPduHandle with
    | none => pure ()
    | some sendPduHandle => do
      let cachedParams ← popFromCache sendPduHandle
      expirePopped config applications cachedParams details
  | .error exception =>
    if exception.isPyAsn1Error then pure () else raise exception

/-- A message as the dispatcher receives it: its version, if that can be decoded, and what the
models make of the rest. -/
structure Datagram where
  version : Option ℕ
  incoming : IncomingMessage
  draws : Draws

/-- The exception or the value of a program as a value. -/
def attempt {β : Type} (program : EngineOp κ α β) : EngineOp κ α (Except Raised β) :=
  handle (do let value ← program; pure (.ok value)) fun exception ↦ pure (.error exception)

/-- `receiveMessage`. -/
def receiveMessage (config : EngineConfig) (applications : Applications κ α)
    (datagram : Datagram) : EngineOp κ α Unit :=
  match datagram.version.bind config.mpHandler with
  | none => pure ()
  | some modelId => do
    let result ← attempt (onModel modelId
      (prepareDataElements modelId config.environment datagram.incoming datagram.draws))
    dispatchMessage config applications result

/-! ### Transport failures and the timer -/

/-- `receiveTransportError`. -/
def receiveTransportError (config : EngineConfig) (applications : Applications κ α) (peer : Peer)
    (transportError : String) : EngineOp κ α Unit :=
  expireCache fun _ cachedParams ↦
    if cachedParams.sentTo = some peer then
      expireRequest config applications cachedParams
        (some { errorIndication := some (.transportFailure transportError) })
    else
      pure false

/-- The timer tick of a model, if it is registered. -/
def tickModel (config : EngineConfig) (modelId : ModelId) : EngineOp κ α Unit :=
  runIf (config.messageProcessingSubsystems modelId) (onModel modelId (receiveTimerTick modelId))

/-- A timer tick: the count advances, due requests expire, and then the models drop what is
old. -/
def handleTimerTick (config : EngineConfig) (applications : Applications κ α) :
    EngineOp κ α Unit := do
  modify fun engine ↦ { engine with ticks := engine.ticks + 1 }
  expireCache fun _ cachedParams ↦ expireRequest config applications cachedParams none
  forEach (tickModel config) [.v3, .v1, .v2c]

end Pysnmp.Proto.Dispatcher
