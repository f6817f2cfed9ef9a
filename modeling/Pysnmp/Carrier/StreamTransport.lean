import Pysnmp.Foundation.Run

/-!
# The queue of the stream carrier

`StreamAsyncioTransport` of `carrier/asyncio/stream/base.py`: the messages that wait for a
connection, the connections by address, and the tasks that are opening one. The event loop runs the
callbacks in whatever order the network gives rise to; an event of the model is one of them, or what
happens to a connection beneath them. An event that cannot happen leaves the carrier as it is.

A task is in the table of the carrier until it ends, which is later than its connection is made, and
a lost connection takes the queue of its address with it, whoever the messages were waiting for.
`everyStep_strandsNone` says that nothing else loses or strands a message.
-/

set_option autoImplicit false
set_option relaxedAutoImplicit false

namespace Pysnmp.Carrier.StreamTransport

open Foundation

/-- A message that waits for a connection; messages are told apart by the call that queued them. -/
structure Queued (Message Address : Type) where
  serial : ℕ
  outgoingMessage : Message
  transportAddress : Address

/-- A connection: its peer, and whether it is still open. -/
structure SnmpStreamProtocol (Address : Type) where
  transportAddress : Address
  isOpen : Bool

/-- How far `_connectAndFlush` has come: its attempt is in flight, its connection was made but the
task has not gone on, it was cancelled, or it is over. -/
inductive Phase
  | connecting
  | made
  | cancelled
  | ended
  deriving DecidableEq, Repr

/-- A task of `_connectAndFlush`. -/
structure ConnectTask (Address : Type) where
  transportAddress : Address
  phase : Phase

/-- What an attempt fails with: one of the two kinds of exceptions that `_connectAndFlush` catches,
or another. -/
inductive ConnectFailure
  | osError
  | timeoutError
  | otherError
  deriving DecidableEq, Repr

/-- The exception is caught. -/
def ConnectFailure.isCaught : ConnectFailure → Bool
  | osError | timeoutError => true
  | otherError => false

/-- A queued message that was written: on a connection to which address, and whether that was open
at the time. -/
structure Write (Message Address : Type) where
  transportAddress : Address
  isOpen : Bool
  message : Queued Message Address

/-- A carrier. Tasks and connections are told apart by numbers; what was written from the queue and
the addresses whose failures were reported are kept as they come. Of the error callback it matters
only whether one is registered. -/
structure StreamAsyncioTransport (Message Address : Type) where
  writeQ : List (Queued Message Address)
  connections : Address → Option ℕ
  connectTasks : Address → Option ℕ
  protocols : ℕ → Option (SnmpStreamProtocol Address)
  tasks : ℕ → Option (ConnectTask Address)
  nextSerial : ℕ
  nextProtocol : ℕ
  nextTask : ℕ
  clientMode : Bool
  errorCbFun : Bool
  written : List (Write Message Address)
  reported : List Address

/-- What the event loop runs, or what happens to a connection. A write can break the connection it
is made on: `brokenAt` is the number of the write that does, among those of one callback. -/
inductive Event (Message Address : Type)
  | sendMessage (outgoingMessage : Message) (transportAddress : Address) (breaks : Bool)
  | connectionMade (task : ℕ) (brokenAt : Option ℕ)
  | accepted (transportAddress : Address) (brokenAt : Option ℕ)
  | connectFailed (task : ℕ) (failure : ConnectFailure)
  | taskEnded (task : ℕ)
  | closing (protocol : ℕ)
  | connectionLost (protocol : ℕ)
  | registerErrorCbFun
  | unregisterErrorCbFun
  | closeTransport

section Definitions

variable {Message Address : Type} [DecidableEq Address]

/-- A carrier that was just opened; it is not registered yet. -/
def StreamAsyncioTransport.initial (clientMode : Bool) :
    StreamAsyncioTransport Message Address where
  writeQ := []
  connections := fun _ ↦ none
  connectTasks := fun _ ↦ none
  protocols := fun _ ↦ none
  tasks := fun _ ↦ none
  nextSerial := 0
  nextProtocol := 0
  nextTask := 0
  clientMode := clientMode
  errorCbFun := false
  written := []
  reported := []

variable (carrier : StreamAsyncioTransport Message Address)

/-- The messages that wait for a connection to an address. -/
def queuedFor (key : Address) : List (Queued Message Address) :=
  carrier.writeQ.filter fun message ↦ message.transportAddress = key

/-- The messages that wait for a connection to another address. -/
def stillWaiting (key : Address) : List (Queued Message Address) :=
  carrier.writeQ.filter fun message ↦ message.transportAddress ≠ key

/-- `_connectionMade`, with a new connection. -/
def connectionMade (key : Address) (brokenAt : Option ℕ) : StreamAsyncioTransport Message Address :=
  { carrier with
    connections := Function.update carrier.connections key (some carrier.nextProtocol)
    protocols := Function.update carrier.protocols carrier.nextProtocol
      (some ⟨key, brokenAt.all ((queuedFor carrier key).length ≤ ·)⟩)
    nextProtocol := carrier.nextProtocol + 1
    written := carrier.written ++ (queuedFor carrier key).mapIdx fun position message ↦
      ⟨key, brokenAt.all (position ≤ ·), message⟩
    writeQ := stillWaiting carrier key }

/-- `_reportError`: nobody is told where no callback is registered. -/
def reportError (transportAddress : Address) : StreamAsyncioTransport Message Address :=
  if carrier.errorCbFun then
    { carrier with reported := carrier.reported ++ [transportAddress] }
  else
    carrier

/-- `_discardQueuedMessages`. -/
def discardQueuedMessages (key : Address) : StreamAsyncioTransport Message Address :=
  { carrier with writeQ := stillWaiting carrier key }

/-- `_failQueuedMessages`. -/
def failQueuedMessages (transportAddress : Address) : StreamAsyncioTransport Message Address :=
  if (queuedFor carrier transportAddress).length = 0 then carrier
  else reportError (discardQueuedMessages carrier transportAddress) transportAddress

/-- `_connectionLost`. -/
def connectionLost (id : ℕ) (protocol : SnmpStreamProtocol Address) :
    StreamAsyncioTransport Message Address :=
  let forgotten :=
    if carrier.connections protocol.transportAddress = some id then
      { carrier with
        connections := Function.update carrier.connections protocol.transportAddress none }
    else
      carrier
  reportError (discardQueuedMessages { forgotten with
    protocols := Function.update forgotten.protocols id none } protocol.transportAddress)
    protocol.transportAddress

/-- `_connect`. -/
def connect (key : Address) : StreamAsyncioTransport Message Address :=
  if (carrier.connectTasks key).isSome then
    carrier
  else
    { carrier with
      connectTasks := Function.update carrier.connectTasks key (some carrier.nextTask)
      tasks := Function.update carrier.tasks carrier.nextTask (some ⟨key, .connecting⟩)
      nextTask := carrier.nextTask + 1 }

/-- The end of `_connectAndFlush`, whichever way it comes to it. -/
def endTask (id : ℕ) (key : Address) : StreamAsyncioTransport Message Address :=
  { carrier with
    connectTasks := Function.update carrier.connectTasks key none
    tasks := Function.update carrier.tasks id (some ⟨key, .ended⟩) }

/-- `SnmpStreamProtocol.close`, or the end of a connection from beneath. -/
def closeProtocol (id : ℕ) : StreamAsyncioTransport Message Address :=
  { carrier with
    protocols := Function.update carrier.protocols id
      ((carrier.protocols id).map fun protocol ↦ { protocol with isOpen := false }) }

/-- The open connection to an address. -/
def openConnection (key : Address) : Option ℕ :=
  (carrier.connections key).filter fun id ↦ (carrier.protocols id).any (·.isOpen)

/-- `sendMessage`; where a server has no connection it raises instead. -/
def sendMessage (outgoingMessage : Message) (transportAddress : Address) (breaks : Bool) :
    StreamAsyncioTransport Message Address :=
  match openConnection carrier transportAddress with
  | some id => if breaks then closeProtocol carrier id else carrier
  | none =>
    if carrier.clientMode then
      connect { carrier with
        writeQ := carrier.writeQ ++ [⟨carrier.nextSerial, outgoingMessage, transportAddress⟩]
        nextSerial := carrier.nextSerial + 1 } transportAddress
    else
      carrier

/-- `closeTransport` with the loop running: the cancelled tasks end later, and no failure is
reported any more. -/
def closeTransport : StreamAsyncioTransport Message Address :=
  { carrier with
    tasks := fun id ↦ (carrier.tasks id).map fun task ↦
      if carrier.connectTasks task.transportAddress = some id then
        { task with phase := .cancelled }
      else
        task
    connectTasks := fun _ ↦ none
    protocols := fun id ↦ (carrier.protocols id).map fun protocol ↦
      { protocol with isOpen := protocol.isOpen &&
          carrier.connections protocol.transportAddress != some id }
    connections := fun _ ↦ none
    errorCbFun := false
    writeQ := [] }

/-- An event. -/
def step : Event Message Address → StreamAsyncioTransport Message Address
  | .sendMessage outgoingMessage transportAddress breaks =>
    sendMessage carrier outgoingMessage transportAddress breaks
  | .connectionMade id brokenAt =>
    match carrier.tasks id with
    | some ⟨key, .connecting⟩ =>
      connectionMade
        { carrier with tasks := Function.update carrier.tasks id (some ⟨key, .made⟩) } key brokenAt
    | some ⟨key, .cancelled⟩ => connectionMade carrier key brokenAt
    | _ => carrier
  | .accepted key brokenAt => connectionMade carrier key brokenAt
  | .connectFailed id failure =>
    match carrier.tasks id with
    | some ⟨key, .connecting⟩ | some ⟨key, .made⟩ =>
      endTask (if failure.isCaught then failQueuedMessages carrier key else carrier) id key
    | _ => carrier
  | .taskEnded id =>
    match carrier.tasks id with
    | some ⟨key, .made⟩ | some ⟨key, .cancelled⟩ => endTask carrier id key
    | _ => carrier
  | .closing id => closeProtocol carrier id
  | .connectionLost id =>
    match carrier.protocols id with
    | some protocol => connectionLost carrier id protocol
    | none => carrier
  | .registerErrorCbFun => { carrier with errorCbFun := true }
  | .unregisterErrorCbFun => { carrier with errorCbFun := false }
  | .closeTransport => closeTransport carrier

/-! ### What is promised -/

/-- An attempt to an address is in flight. -/
def InFlight (tasks : ℕ → Option (ConnectTask Address)) (address : Address) : Prop :=
  ∃ id, tasks id = some ⟨address, .connecting⟩

/-- Every queued message waits on an attempt to its address that is in flight. -/
def Waits : Prop :=
  ∀ message ∈ carrier.writeQ, InFlight carrier.tasks message.transportAddress

/-- A message leaves the queue by being written on an open connection to its address, by the failure
of its attempt, which is reported, or when the transport is closed. -/
def LeavesProperly (event : Event Message Address) : Prop :=
  ∀ message ∈ carrier.writeQ, message ∉ (step carrier event).writeQ →
    (∃ write ∈ (step carrier event).written.drop carrier.written.length,
      write.message = message ∧ write.isOpen ∧
        write.transportAddress = message.transportAddress) ∨
    (∃ id failure, event = .connectFailed id failure ∧
      carrier.tasks id = some ⟨message.transportAddress, .connecting⟩ ∧
      message.transportAddress ∈ (step carrier event).reported.drop carrier.reported.length) ∨
    event = .closeTransport

/-- An event neither loses nor strands a message. -/
def StrandsNone (event : Event Message Address) : Prop :=
  Waits carrier ∧ Waits (step carrier event) ∧ LeavesProperly carrier event

/-- Nothing is queued for an address whose task has made its connection and not ended yet, or for
one whose connection is being lost, or for one whose attempt fails other than by the connection
being refused or not made in time, or while no error callback is registered; and no connection
breaks before the messages that waited for it are written. -/
def IsOrderly : Event Message Address → Prop
  | .sendMessage _ key _ =>
    (openConnection carrier key).isSome ∨ carrier.clientMode = false ∨
      ∀ id ∈ carrier.connectTasks key, ∀ task ∈ carrier.tasks id, task.phase ≠ .made
  | .connectionMade id brokenAt =>
    ∀ task ∈ carrier.tasks id,
      brokenAt.all ((queuedFor carrier task.transportAddress).length ≤ · + 1)
  | .accepted key brokenAt => brokenAt.all ((queuedFor carrier key).length ≤ · + 1)
  | .connectFailed id failure =>
    ∀ task ∈ carrier.tasks id,
      (failure.isCaught ∧ carrier.errorCbFun ∧ task.phase = .connecting) ∨
        queuedFor carrier task.transportAddress = []
  | .connectionLost id =>
    ∀ protocol ∈ carrier.protocols id, queuedFor carrier protocol.transportAddress = []
  | _ => True

instance : DecidablePred (IsOrderly carrier)
  | .sendMessage .. => inferInstanceAs (Decidable (_ ∨ _))
  | .connectionMade .. => inferInstanceAs (Decidable (∀ _ ∈ _, _))
  | .accepted .. => inferInstanceAs (Decidable (_ = true))
  | .connectFailed .. => inferInstanceAs (Decidable (∀ _ ∈ _, _))
  | .connectionLost .. => inferInstanceAs (Decidable (∀ _ ∈ _, _))
  | .taskEnded _ | .closing _ | .registerErrorCbFun | .unregisterErrorCbFun | .closeTransport =>
    .isTrue trivial

end Definitions

/-! ### What keeps a message waiting -/

section Flight

variable {Address : Type} {tasks : ℕ → Option (ConnectTask Address)} {address : Address} {id : ℕ}

/-- An attempt stays in flight while another task changes. -/
theorem InFlight.update (hflight : InFlight tasks address) (changed : Option (ConnectTask Address))
    (hother : tasks id ≠ some ⟨address, .connecting⟩) :
    InFlight (Function.update tasks id changed) address := by
  obtain ⟨attempt, hattempt⟩ := hflight
  have hne : attempt ≠ id := fun heq ↦ hother (heq ▸ hattempt)
  exact ⟨attempt, by rw [Function.update_of_ne hne, hattempt]⟩

/-- A new task is in flight. -/
theorem inFlight_update_self (tasks : ℕ → Option (ConnectTask Address)) (id : ℕ)
    (address : Address) :
    InFlight (Function.update tasks id (some ⟨address, .connecting⟩)) address :=
  ⟨id, Function.update_self ..⟩

end Flight

section Tables

variable {Message Address : Type} {carrier other : StreamAsyncioTransport Message Address}
  {key : Address} {id : ℕ}

/-- The table of the carrier lists tasks by their own address, none of which is over or cancelled,
and numbers are not given twice. -/
structure TableSound (carrier : StreamAsyncioTransport Message Address) : Prop where
  listed : ∀ address id, carrier.connectTasks address = some id →
    carrier.tasks id = some ⟨address, .connecting⟩ ∨ carrier.tasks id = some ⟨address, .made⟩
  fresh : ∀ id, carrier.nextTask ≤ id → carrier.tasks id = none

/-- The table is sound, and every queued message waits on an attempt that is in flight. -/
structure Sound (carrier : StreamAsyncioTransport Message Address) : Prop where
  table : TableSound carrier
  waits : Waits carrier

theorem sound_initial (clientMode : Bool) :
    Sound (.initial clientMode : StreamAsyncioTransport Message Address) where
  table := ⟨nofun, fun _ _ ↦ rfl⟩
  waits := nofun

/-- A change that leaves the tasks and the table alone. -/
theorem TableSound.of_eq (hsound : TableSound carrier)
    (htable : other.connectTasks = carrier.connectTasks) (htasks : other.tasks = carrier.tasks)
    (hnext : other.nextTask = carrier.nextTask) : TableSound other where
  listed := htable ▸ htasks ▸ hsound.listed
  fresh := htasks ▸ hnext ▸ hsound.fresh

/-- A change that leaves the tasks and the table alone and queues nothing. -/
theorem Sound.of_eq (hsound : Sound carrier)
    (htable : other.connectTasks = carrier.connectTasks) (htasks : other.tasks = carrier.tasks)
    (hnext : other.nextTask = carrier.nextTask) (hqueue : other.writeQ ⊆ carrier.writeQ) :
    Sound other where
  table := hsound.table.of_eq htable htasks hnext
  waits := fun message hmem ↦ htasks ▸ hsound.waits message (hqueue hmem)

/-- A task that changes, and entries that leave the table: what is left of its entry can only say
that its connection is made. -/
theorem TableSound.update (hsound : TableSound carrier) (htask : (carrier.tasks id).isSome)
    (changed : ConnectTask Address) (table : Address → Option ℕ)
    (htable : ∀ address attempt, table address = some attempt →
      carrier.connectTasks address = some attempt)
    (hchanged : ∀ address, table address = some id → changed = ⟨address, .made⟩) :
    TableSound { carrier with
      connectTasks := table
      tasks := Function.update carrier.tasks id (some changed) } where
  listed := by
    intro address attempt hentry
    by_cases hattempt : attempt = id
    · subst hattempt
      exact .inr (hchanged address hentry ▸ Function.update_self ..)
    · have hlisted := hsound.listed address attempt (htable address attempt hentry)
      simpa only [Function.update_of_ne hattempt] using hlisted
  fresh := by
    intro attempt hnext
    have hattempt : attempt ≠ id := by
      intro heq
      rw [← heq, hsound.fresh attempt hnext] at htask
      cases htask
    exact (Function.update_of_ne hattempt ..).trans (hsound.fresh attempt hnext)

/-- A connection is made by the task that the table may list. -/
theorem TableSound.made (hsound : TableSound carrier)
    (htask : carrier.tasks id = some ⟨key, .connecting⟩) :
    TableSound { carrier with tasks := Function.update carrier.tasks id (some ⟨key, .made⟩) } := by
  refine hsound.update (by simp [htask]) _ _ (fun _ _ hentry ↦ hentry) fun address hentry ↦ ?_
  rcases hsound.listed address id hentry with hphase | hphase
  · rw [htask] at hphase
    cases hphase
    rfl
  · rw [htask] at hphase
    cases hphase

/-- A report changes nothing but what has been reported. -/
theorem reportError_eq (carrier : StreamAsyncioTransport Message Address) (key : Address) :
    ∃ reported, reportError carrier key = { carrier with reported := reported } := by
  rw [reportError]
  split_ifs
  · exact ⟨_, rfl⟩
  · exact ⟨carrier.reported, rfl⟩

theorem sound_reportError (hsound : Sound carrier) (key : Address) :
    Sound (reportError carrier key) := by
  obtain ⟨reported, heq⟩ := reportError_eq carrier key
  rw [heq]
  exact hsound.of_eq rfl rfl rfl (List.Subset.refl _)

theorem writeQ_reportError (carrier : StreamAsyncioTransport Message Address) (key : Address) :
    (reportError carrier key).writeQ = carrier.writeQ := by
  obtain ⟨reported, heq⟩ := reportError_eq carrier key
  rw [heq]

theorem sound_closeTransport (hsound : Sound carrier) : Sound (closeTransport carrier) where
  table := by
    refine ⟨nofun, fun id hnext ↦ ?_⟩
    have htask : carrier.tasks id = none := hsound.table.fresh id hnext
    simp [closeTransport, htask]
  waits := nofun

end Tables

section Steps

variable {Message Address : Type} [DecidableEq Address]
  {carrier : StreamAsyncioTransport Message Address} {message : Queued Message Address}
  {event : Event Message Address} {phase : Phase} {address key : Address} {id : ℕ}

@[simp] theorem mem_queuedFor :
    message ∈ queuedFor carrier key ↔
      message ∈ carrier.writeQ ∧ message.transportAddress = key := by
  simp [queuedFor]

@[simp] theorem mem_stillWaiting :
    message ∈ stillWaiting carrier key ↔
      message ∈ carrier.writeQ ∧ message.transportAddress ≠ key := by
  simp [stillWaiting]

theorem stillWaiting_subset (carrier : StreamAsyncioTransport Message Address) (key : Address) :
    stillWaiting carrier key ⊆ carrier.writeQ :=
  fun _ hmem ↦ (mem_stillWaiting.mp hmem).1

/-- Where a message leaves the queue, it was for the address that the queue was emptied for. -/
theorem transportAddress_of_not_mem_stillWaiting (hmem : message ∈ carrier.writeQ)
    (hleft : message ∉ stillWaiting carrier key) : message.transportAddress = key :=
  not_not.mp fun hne ↦ hleft (mem_stillWaiting.mpr ⟨hmem, hne⟩)

/-- Where nothing waits for an address, no message waits for it. -/
theorem transportAddress_ne_of_queuedFor_eq_nil (hqueued : queuedFor carrier key = [])
    (hmem : message ∈ carrier.writeQ) : message.transportAddress ≠ key := by
  intro haddress
  exact List.not_mem_nil (hqueued ▸ mem_queuedFor.mpr ⟨hmem, haddress⟩)

/-- A task that ends takes the entry of its address out of the table. -/
theorem TableSound.endTask (hsound : TableSound carrier)
    (htask : carrier.tasks id = some ⟨key, phase⟩) : TableSound (endTask carrier id key) := by
  have htable : ∀ address attempt,
      Function.update carrier.connectTasks key none address = some attempt →
        address ≠ key ∧ carrier.connectTasks address = some attempt := by
    intro address attempt hentry
    by_cases haddress : address = key
    · subst haddress
      rw [Function.update_self] at hentry
      cases hentry
    · rw [Function.update_of_ne haddress] at hentry
      exact ⟨haddress, hentry⟩
  refine hsound.update (by simp [htask]) _ _ (fun address attempt hentry ↦
    (htable address attempt hentry).2) fun address hentry ↦ ?_
  obtain ⟨haddress, hlisted⟩ := htable address id hentry
  rcases hsound.listed address id hlisted with hphase | hphase
  · rw [htask] at hphase
    cases hphase
    exact absurd rfl haddress
  · rw [htask] at hphase
    cases hphase
    exact absurd rfl haddress

/-- A task that is started is listed. -/
theorem TableSound.start (hsound : TableSound carrier) (key : Address) :
    TableSound { carrier with
      connectTasks := Function.update carrier.connectTasks key (some carrier.nextTask)
      tasks := Function.update carrier.tasks carrier.nextTask (some ⟨key, .connecting⟩)
      nextTask := carrier.nextTask + 1 } where
  listed := by
    intro address attempt hentry
    simp only at hentry ⊢
    by_cases haddress : address = key
    · subst haddress
      rw [Function.update_self] at hentry
      obtain rfl := Option.some.inj hentry
      exact .inl (Function.update_self ..)
    · rw [Function.update_of_ne haddress] at hentry
      have hlisted := hsound.listed address attempt hentry
      have hattempt : attempt ≠ carrier.nextTask := by
        intro heq
        simp [heq, hsound.fresh carrier.nextTask le_rfl] at hlisted
      rwa [Function.update_of_ne hattempt]
  fresh := by
    intro attempt hnext
    have hlt : carrier.nextTask < attempt := hnext
    exact (Function.update_of_ne hlt.ne' ..).trans (hsound.fresh attempt hlt.le)

/-! ### The events -/

/-- A step that takes nothing out of the queue. -/
theorem keeps_of_subset {next : StreamAsyncioTransport Message Address}
    (hstep : step carrier event = next) (hsound : Sound next)
    (hqueue : carrier.writeQ ⊆ next.writeQ) :
    Sound (step carrier event) ∧ LeavesProperly carrier event :=
  ⟨hstep ▸ hsound, fun _ hmem hleft ↦ absurd (hqueue hmem) (hstep ▸ hleft)⟩

/-- An event that cannot happen. -/
theorem keeps_of_eq (hsound : Sound carrier) (hstep : step carrier event = carrier) :
    Sound (step carrier event) ∧ LeavesProperly carrier event :=
  keeps_of_subset hstep hsound (List.Subset.refl _)

/-- A message that is queued waits on the attempt of its address, which is started if there is
none. -/
theorem Sound.connect (hsound : Sound carrier) {queue : List (Queued Message Address)}
    (serial : ℕ)
    (hqueue : ∀ message ∈ queue, message ∈ carrier.writeQ ∨ message.transportAddress = key)
    (hmade : ∀ id ∈ carrier.connectTasks key, ∀ task ∈ carrier.tasks id, task.phase ≠ .made) :
    Sound (connect { carrier with writeQ := queue, nextSerial := serial } key) := by
  rw [StreamTransport.connect]
  split_ifs with hlisted
  · refine ⟨hsound.table.of_eq rfl rfl rfl, fun message hmem ↦ ?_⟩
    rcases hqueue message hmem with hold | rfl
    · exact hsound.waits message hold
    · obtain ⟨id, hid⟩ := Option.isSome_iff_exists.mp hlisted
      rcases hsound.table.listed _ id hid with hphase | hphase
      · exact ⟨id, hphase⟩
      · exact absurd rfl (hmade id hid _ hphase)
  · refine ⟨(hsound.table.start key).of_eq rfl rfl rfl, fun message hmem ↦ ?_⟩
    rcases hqueue message hmem with hold | rfl
    · have hnew := hsound.table.fresh carrier.nextTask le_rfl
      exact (hsound.waits message hold).update _ (by simp [hnew])
    · exact inFlight_update_self ..

theorem writeQ_connect (carrier : StreamAsyncioTransport Message Address) (key : Address) :
    (connect carrier key).writeQ = carrier.writeQ := by
  rw [connect]
  split_ifs
  · rfl
  · rfl

theorem sound_sendMessage (hsound : Sound carrier) (outgoingMessage : Message) (breaks : Bool)
    (horderly : IsOrderly carrier (.sendMessage outgoingMessage key breaks)) :
    Sound (sendMessage carrier outgoingMessage key breaks) := by
  rw [sendMessage]
  cases hopen : openConnection carrier key with
  | some connection =>
    cases breaks with
    | false => exact hsound
    | true => exact hsound.of_eq rfl rfl rfl (List.Subset.refl _)
  | none =>
    dsimp only
    split_ifs with hclient
    · simp only [IsOrderly, hopen, hclient, Option.isSome_none, Bool.false_eq_true,
        Bool.true_eq_false, false_or] at horderly
      refine hsound.connect _ (fun message hmem ↦ ?_) horderly
      rcases List.mem_append.mp hmem with hold | hnew
      · exact .inl hold
      · exact .inr (by rw [List.mem_singleton.mp hnew])
    · exact hsound

theorem writeQ_subset_sendMessage (outgoingMessage : Message) (breaks : Bool) :
    carrier.writeQ ⊆ (sendMessage carrier outgoingMessage key breaks).writeQ := by
  rw [sendMessage]
  cases openConnection carrier key with
  | some connection =>
    cases breaks with
    | false => exact List.Subset.refl _
    | true => exact List.Subset.refl _
  | none =>
    cases carrier.clientMode with
    | false => exact List.Subset.refl _
    | true =>
      simp only [if_true, writeQ_connect]
      exact List.subset_append_left ..

/-- A connection that is made takes the messages that waited for it out of the queue. -/
theorem sound_connectionMade (hsound : Sound carrier) (key : Address) (brokenAt : Option ℕ) :
    Sound (connectionMade carrier key brokenAt) :=
  hsound.of_eq rfl rfl rfl (stillWaiting_subset carrier key)

/-- A connection that does not break before the messages are written writes each of them while it is
open. -/
theorem exists_write_of_connectionMade {brokenAt : Option ℕ} (hmem : message ∈ carrier.writeQ)
    (hleft : message ∉ stillWaiting carrier key)
    (hbroken : brokenAt.all ((queuedFor carrier key).length ≤ · + 1)) :
    ∃ write ∈ (connectionMade carrier key brokenAt).written.drop carrier.written.length,
      write.message = message ∧ write.isOpen ∧
        write.transportAddress = message.transportAddress := by
  have haddress := transportAddress_of_not_mem_stillWaiting hmem hleft
  obtain ⟨position, hposition, hget⟩ :=
    List.mem_iff_getElem.mp (mem_queuedFor.mpr ⟨hmem, haddress⟩)
  refine ⟨⟨key, brokenAt.all (position ≤ ·), message⟩, ?_, rfl, ?_, haddress.symm⟩
  · rw [connectionMade, List.drop_left]
    exact List.mem_mapIdx.mpr ⟨position, hposition, by rw [hget]⟩
  · cases brokenAt with
    | none => rfl
    | some broken =>
      have hlength : (queuedFor carrier key).length ≤ broken + 1 := by simpa using hbroken
      simpa using (by omega : position ≤ broken)

/-- The end of a task strands no message that waits for another address. -/
theorem Sound.endTask (hsound : TableSound carrier) (hwaits : Waits carrier)
    (htask : carrier.tasks id = some ⟨key, phase⟩)
    (hqueue : ∀ message ∈ carrier.writeQ, message.transportAddress = key → phase ≠ .connecting) :
    Sound (endTask carrier id key) where
  table := hsound.endTask htask
  waits := by
    intro message hmem
    refine (hwaits message hmem).update _ ?_
    rw [htask]
    intro heq
    cases heq
    exact hqueue message hmem rfl rfl

theorem failQueuedMessages_of_eq_nil (hqueued : queuedFor carrier key = []) :
    failQueuedMessages carrier key = carrier := by
  rw [failQueuedMessages, hqueued, List.length_nil, if_pos rfl]

theorem failQueuedMessages_of_ne_nil (hqueued : queuedFor carrier key ≠ []) :
    failQueuedMessages carrier key = reportError (discardQueuedMessages carrier key) key := by
  rw [failQueuedMessages, if_neg (by simpa using hqueued)]

/-- A connection that is made by the task of its address takes the messages that waited for it out
of the queue and writes them. -/
theorem keeps_connectionMade (hsound : Sound carrier) (brokenAt : Option ℕ)
    (htask : carrier.tasks id = some ⟨key, phase⟩)
    (horderly : brokenAt.all ((queuedFor carrier key).length ≤ · + 1)) :
    Sound (step carrier (.connectionMade id brokenAt)) ∧
      LeavesProperly carrier (.connectionMade id brokenAt) := by
  cases phase with
  | connecting =>
    have hstep : step carrier (.connectionMade id brokenAt) =
        connectionMade { carrier with
          tasks := Function.update carrier.tasks id (some ⟨key, .made⟩) } key brokenAt := by
      simp [step, htask]
    rw [LeavesProperly, hstep]
    refine ⟨⟨(hsound.table.made htask).of_eq rfl rfl rfl, fun message hmem ↦ ?_⟩, ?_⟩
    · obtain ⟨hold, haddress⟩ := mem_stillWaiting.mp hmem
      refine (hsound.waits message hold).update _ ?_
      rw [htask]
      intro heq
      cases heq
      exact haddress rfl
    · intro message hmem hleft
      exact .inl (exists_write_of_connectionMade hmem hleft horderly)
  | cancelled =>
    have hstep : step carrier (.connectionMade id brokenAt) =
        connectionMade carrier key brokenAt := by
      simp [step, htask]
    rw [LeavesProperly, hstep]
    refine ⟨sound_connectionMade hsound key brokenAt, fun message hmem hleft ↦ .inl ?_⟩
    exact exists_write_of_connectionMade hmem hleft horderly
  | made => exact keeps_of_eq hsound (by simp [step, htask])
  | ended => exact keeps_of_eq hsound (by simp [step, htask])

/-- An attempt that fails takes the messages that waited for it along, and says so. -/
theorem keeps_connectFailed (hsound : Sound carrier) (failure : ConnectFailure)
    (htask : carrier.tasks id = some ⟨key, phase⟩) (hphase : phase = .connecting ∨ phase = .made)
    (horderly : (failure.isCaught ∧ carrier.errorCbFun ∧ phase = .connecting) ∨
      queuedFor carrier key = []) :
    Sound (step carrier (.connectFailed id failure)) ∧
      LeavesProperly carrier (.connectFailed id failure) := by
  have hstep : step carrier (.connectFailed id failure) =
      StreamTransport.endTask (if failure.isCaught then failQueuedMessages carrier key else carrier)
        id key := by
    rcases hphase with rfl | rfl
    · simp [step, htask]
    · simp [step, htask]
  by_cases hqueued : queuedFor carrier key = []
  · rw [failQueuedMessages_of_eq_nil hqueued, ite_self] at hstep
    refine keeps_of_subset hstep ?_ (List.Subset.refl _)
    refine .endTask hsound.table hsound.waits htask fun message hmem haddress ↦ ?_
    exact absurd haddress (transportAddress_ne_of_queuedFor_eq_nil hqueued hmem)
  · obtain ⟨hcaught, hregistered, rfl⟩ := horderly.resolve_right hqueued
    have hfails : step carrier (.connectFailed id failure) =
        StreamTransport.endTask { discardQueuedMessages carrier key with
          reported := carrier.reported ++ [key] } id key := by
      rw [hstep, if_pos hcaught, failQueuedMessages_of_ne_nil hqueued, reportError,
        if_pos (show (discardQueuedMessages carrier key).errorCbFun = true from hregistered)]
      rfl
    constructor
    · rw [hfails]
      refine .endTask (hsound.table.of_eq rfl rfl rfl) ?_ htask fun message hmem haddress ↦ ?_
      · exact fun message hmem ↦ hsound.waits message (stillWaiting_subset carrier key hmem)
      · exact absurd haddress (mem_stillWaiting.mp hmem).2
    · intro message hmem hleft
      rw [hfails] at hleft ⊢
      have haddress := transportAddress_of_not_mem_stillWaiting hmem hleft
      refine .inr (.inl ⟨id, failure, rfl, haddress ▸ htask, ?_⟩)
      rw [StreamTransport.endTask, discardQueuedMessages, List.drop_left, haddress]
      exact List.mem_singleton_self key

/-- A lost connection changes neither tasks nor table, and nothing in the queue where no message
waits for its address. -/
theorem connectionLost_eq (id : ℕ) {protocol : SnmpStreamProtocol Address}
    (horderly : queuedFor carrier protocol.transportAddress = []) :
    ∃ connections protocols, connectionLost carrier id protocol =
      reportError { carrier with connections := connections, protocols := protocols }
        protocol.transportAddress := by
  have hqueue : stillWaiting carrier protocol.transportAddress = carrier.writeQ :=
    List.filter_eq_self.mpr fun message hmem ↦
      decide_eq_true (transportAddress_ne_of_queuedFor_eq_nil horderly hmem)
  rw [connectionLost]
  split_ifs
  · exact ⟨_, _, congrArg (fun queue ↦ reportError { carrier with
      writeQ := queue, connections := _, protocols := _ } _) hqueue⟩
  · exact ⟨_, _, congrArg (fun queue ↦ reportError { carrier with
      writeQ := queue, protocols := _ } _) hqueue⟩

/-- A task that ends strands nothing, since no message waits on it any more. -/
theorem keeps_taskEnded (hsound : Sound carrier) (htask : carrier.tasks id = some ⟨key, phase⟩) :
    Sound (step carrier (.taskEnded id)) ∧ LeavesProperly carrier (.taskEnded id) := by
  have hends : phase ≠ .connecting → Sound (endTask carrier id key) := fun hphase ↦
    .endTask hsound.table hsound.waits htask fun _ _ _ ↦ hphase
  cases phase with
  | connecting => exact keeps_of_eq hsound (by simp [step, htask])
  | made => exact keeps_of_subset (by simp [step, htask]) (hends nofun) (List.Subset.refl _)
  | cancelled => exact keeps_of_subset (by simp [step, htask]) (hends nofun) (List.Subset.refl _)
  | ended => exact keeps_of_eq hsound (by simp [step, htask])

/-- An orderly event keeps the carrier sound, and what leaves the queue leaves it properly. -/
theorem keeps_step (hsound : Sound carrier) (horderly : IsOrderly carrier event) :
    Sound (step carrier event) ∧ LeavesProperly carrier event := by
  cases event with
  | sendMessage outgoingMessage key breaks =>
    exact keeps_of_subset rfl (sound_sendMessage hsound outgoingMessage breaks horderly)
      (writeQ_subset_sendMessage outgoingMessage breaks)
  | connectionMade id brokenAt =>
    cases htask : carrier.tasks id with
    | none => exact keeps_of_eq hsound (by simp [step, htask])
    | some task => exact keeps_connectionMade hsound brokenAt htask (horderly task htask)
  | accepted key brokenAt =>
    refine ⟨sound_connectionMade hsound key brokenAt, fun message hmem hleft ↦ .inl ?_⟩
    exact exists_write_of_connectionMade hmem hleft horderly
  | connectFailed id failure =>
    cases htask : carrier.tasks id with
    | none => exact keeps_of_eq hsound (by simp [step, htask])
    | some task =>
      by_cases hphase : task.phase = .connecting ∨ task.phase = .made
      · exact keeps_connectFailed hsound failure htask hphase (horderly task htask)
      · refine keeps_of_eq hsound ?_
        obtain ⟨key, phase⟩ := task
        cases phase with
        | connecting => exact absurd (.inl rfl) hphase
        | made => exact absurd (.inr rfl) hphase
        | cancelled => simp [step, htask]
        | ended => simp [step, htask]
  | taskEnded id =>
    cases htask : carrier.tasks id with
    | none => exact keeps_of_eq hsound (by simp [step, htask])
    | some task => exact keeps_taskEnded hsound htask
  | closing id =>
    exact keeps_of_subset rfl (hsound.of_eq rfl rfl rfl (List.Subset.refl _)) (List.Subset.refl _)
  | connectionLost id =>
    cases hprotocol : carrier.protocols id with
    | none => exact keeps_of_eq hsound (by simp [step, hprotocol])
    | some protocol =>
      obtain ⟨connections, protocols, hlost⟩ :=
        connectionLost_eq id (horderly protocol hprotocol)
      have hstep : step carrier (.connectionLost id) = connectionLost carrier id protocol := by
        simp [step, hprotocol]
      have hkept : Sound { carrier with connections := connections, protocols := protocols } :=
        hsound.of_eq rfl rfl rfl (List.Subset.refl _)
      refine keeps_of_subset (hstep.trans hlost) (sound_reportError hkept _) ?_
      rw [writeQ_reportError]
      exact List.Subset.refl _
  | registerErrorCbFun | unregisterErrorCbFun =>
    exact keeps_of_subset rfl (hsound.of_eq rfl rfl rfl (List.Subset.refl _)) (List.Subset.refl _)
  | closeTransport =>
    exact ⟨sound_closeTransport hsound, fun _ _ _ ↦ .inr (.inr rfl)⟩

/-- In every orderly run of the carrier no message is lost or stranded. -/
theorem everyStep_strandsNone {clientMode : Bool} {events : List (Event Message Address)}
    (horderly : EveryStep step IsOrderly (.initial clientMode) events) :
    EveryStep step StrandsNone (.initial clientMode) events := by
  refine horderly.of_invariant Sound (sound_initial clientMode) ?_
  intro carrier event hsound horderly
  obtain ⟨hnext, hleaves⟩ := keeps_step hsound horderly
  exact ⟨⟨hsound.waits, hnext.waits, hleaves⟩, hnext⟩

end Steps

/-! ### Runs -/

/-- Two peers: one is connected to and closes its connection later, the other refuses, and the
transport is closed while a third is being connected to. -/
def orderlyEvents : List (Event String String) :=
  [.registerErrorCbFun, .sendMessage "first" "peer" false, .sendMessage "second" "other" false,
    .sendMessage "third" "peer" false, .connectionMade 0 none, .taskEnded 0,
    .sendMessage "fourth" "peer" false, .connectFailed 1 .osError, .closing 0, .connectionLost 0,
    .sendMessage "fifth" "peer" false, .closeTransport, .taskEnded 2]

theorem everyStep_strandsNone_orderlyEvents :
    EveryStep step StrandsNone (.initial true) orderlyEvents :=
  everyStep_strandsNone (by decide)

/-- An old connection is closing while a new one to its peer is being opened. -/
def overlappingEvents : List (Event String String) :=
  [.registerErrorCbFun, .sendMessage "first" "peer" false, .connectionMade 0 none, .taskEnded 0,
    .closing 0, .sendMessage "second" "peer" false]

/-- The end of the old connection takes the message that waits for the new one. -/
theorem not_everyStep_strandsNone_overlappingEvents :
    ¬ ∀ events : List (Event String String), EveryStep step StrandsNone (.initial true) events := by
  intro hall
  obtain ⟨-, hlost, -⟩ :=
    EveryStep.append_iff.mp (hall (overlappingEvents ++ [.connectionLost 0]))
  rcases hlost.2.2 ⟨1, "second", "peer"⟩ (List.mem_singleton_self _) List.not_mem_nil with
    ⟨_, hwritten, -⟩ | ⟨_, _, hevent, -⟩ | hevent
  · exact List.not_mem_nil hwritten
  · cases hevent
  · cases hevent

end Pysnmp.Carrier.StreamTransport
