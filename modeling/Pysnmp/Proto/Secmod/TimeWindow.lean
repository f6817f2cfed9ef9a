import Pysnmp.Proto.Secmod.UsmOutgoing
import Pysnmp.Proto.Secmod.UsmTimeline

/-!
# The time window of a peer

A manager that has authenticated a message of an agent puts the engine time of that message into
every request it sends as long as it keeps the entry (`generateRequestMsg_times`), for 300 seconds,
though the agent's clock goes on. The request is within the window of the agent exactly if the
message had left the agent no more than 150 seconds before (`everyStep_inWindow_iff`).
-/

set_option autoImplicit false
set_option relaxedAutoImplicit false

namespace Pysnmp.Proto.Secmod.TimeWindow

open Foundation Foundation.Effect UsmService UsmFrame UsmAcceptance UsmTimeline UsmOutgoing

/-! ### The two engines -/

/-- An agent that does not boot, at every moment of the time it shares with the manager. -/
structure Agent where
  engineAt : ℕ → UsmEngine
  snmpEngineID : Octets
  snmpEngineBoots : ℕ
  startTime : ℕ
  snmpEngineID_ne_nil : snmpEngineID ≠ []
  boots_eq : ∀ now, (engineAt now).snmpEngineBoots = snmpEngineBoots
  time_eq : ∀ now, (engineAt now).snmpEngineTime = startTime + now

/-- A manager at a moment: its security model, and when the agent had sent the message that was
authenticated last. -/
structure Manager where
  usm : UsmState
  now : ℕ
  sentAt : Option ℕ

/-- What happens to the manager: time passes, its timer ticks, it receives a message that was sent
at some moment, it makes a request or a response. -/
inductive Event
  | wait (seconds : ℕ)
  | timerTick
  | receive (reception : Reception) (sentAt : ℕ)
  | generateRequest (sender : UsmSender) (outgoing : Outgoing)
  | generateResponse (sender : UsmSender) (outgoing : Outgoing)

/-- The manager authenticates a message for the agent. -/
def authenticates (agent : Agent) (state : UsmState) (reception : Reception) : Bool :=
  match ((authenticatedMessage reception.engine reception.arrival).run state).1 with
  | .ok message => reception.arrival.securityLevel.isAuthenticated &&
      message.parameters.msgAuthoritativeEngineId = agent.snmpEngineID
  | .error _ => false

/-- One step of the manager. -/
def step (agent : Agent) (manager : Manager) : Event → Manager
  | .wait seconds => { manager with now := manager.now + seconds }
  | .timerTick => { manager with usm := (receiveTimerTick.run manager.usm).2 }
  | .receive reception sentAt =>
    { manager with
      usm := receive manager.usm reception
      sentAt := if authenticates agent manager.usm reception then some sentAt else manager.sentAt }
  | .generateRequest sender outgoing =>
    { manager with usm := ((generateRequestMsg sender outgoing).run manager.usm).2 }
  | .generateResponse sender outgoing =>
    { manager with usm := ((generateRequestOrResponseMsg sender outgoing).run manager.usm).2 }

/-! ### The property and the condition -/

/-- What the manager authenticates for the agent is the agent's: it carries the agent's boots, and
its engine time when it was sent. -/
def FromAgent (agent : Agent) (manager : Manager) : Event → Prop
  | .receive reception sentAt => reception.engine.snmpEngineID ≠ agent.snmpEngineID ∧
      (authenticates agent manager.usm reception → sentAt ≤ manager.now ∧
        ∀ parameters, messageParameters reception.engine reception.arrival = some parameters →
          parameters.msgAuthoritativeEngineBoots = agent.snmpEngineBoots ∧
            parameters.msgAuthoritativeEngineTime = (agent.engineAt sentAt).snmpEngineTime)
  | _ => True

/-- The event makes an authenticated request to the agent while the manager keeps an entry for
it. -/
def Requests (agent : Agent) (manager : Manager) (event : Event) (message : OutgoingMessage) :
    Prop :=
  ∃ sender outgoing after, event = .generateRequest sender outgoing ∧
    outgoing.securityLevel.isAuthenticated ∧ outgoing.pduType.isConfirmedClass ∧
    outgoing.securityEngineID = agent.snmpEngineID ∧
    (manager.usm.timeline agent.snmpEngineID).isSome ∧
    (generateRequestMsg sender outgoing).run manager.usm = (.ok message, after)

/-- The engine time of a request is within 150 seconds of the agent's, and its check lets the
request pass. -/
def InWindow (agent : Agent) (manager : Manager) (event : Event) : Prop :=
  ∀ message, Requests agent manager event message →
    |((agent.engineAt manager.now).snmpEngineTime : ℤ) -
      message.parameters.msgAuthoritativeEngineTime| ≤ timeWindow ∧
    ∀ arrival (identified : IdentifiedMessage) state,
      identified.parameters.msgAuthoritativeEngineBoots =
        message.parameters.msgAuthoritativeEngineBoots →
      identified.parameters.msgAuthoritativeEngineTime =
        message.parameters.msgAuthoritativeEngineTime →
      (checkLocalTimeliness (agent.engineAt manager.now) arrival identified).run state =
        (.ok (), state)

/-- Where a request is made, the message that was authenticated last had left the agent no more
than 150 seconds before, and the agent's boots are not at their end. -/
def Recent (agent : Agent) (manager : Manager) (event : Event) : Prop :=
  ∀ message, Requests agent manager event message →
    agent.snmpEngineBoots ≠ maxEngineBoots ∧
      ∀ sentAt ∈ manager.sentAt, (manager.now : ℤ) - sentAt ≤ timeWindow

/-! ### Outgoing messages -/

section Outgoing

variable {sender : UsmSender}

/-- Taking a user back from the cache leaves the recorded times alone. -/
theorem sameTimeline_cachedUser (securityStateReference : ℕ) :
    Keeps SameTimeline (cachedUser securityStateReference) := by
  refine (keeps_gets _).bind fun cached ↦ ?_
  cases cached with
  | none => exact keeps_raise _
  | some cached => exact (keeps_popCache _).bind fun _ ↦ keeps_pure _

/-- Cloning a user for another engine leaves the recorded times alone. -/
theorem sameTimeline_cloneUser (securityEngineID securityName : Octets) :
    Keeps SameTimeline (cloneUser sender securityEngineID securityName) := by
  unfold cloneUser
  split
  · split
    · exact keeps_pure _
    · exact keeps_raiseStatus _
    · exact keeps_raise _
  · exact keeps_raiseStatus _

/-- A refusal leaves the recorded times alone. -/
theorem sameTimeline_raiseInvalidMsg {α : Type} : Keeps SameTimeline (raiseInvalidMsg : Usm α) :=
  (keeps_countStat _).bind fun _ ↦ keeps_raiseStatus _

/-- Finding the user leaves the recorded times alone. -/
theorem sameTimeline_findUser (securityEngineID securityName : Octets) :
    Keeps SameTimeline (findUser sender securityEngineID securityName) := by
  unfold findUser
  split
  · exact keeps_pure _
  · exact sameTimeline_raiseInvalidMsg
  · split
    · exact keeps_pure _
    · exact sameTimeline_raiseInvalidMsg
    · exact sameTimeline_cloneUser _ _

/-- Choosing whose secrets a message is made with leaves the recorded times alone. -/
theorem sameTimeline_selectUser (outgoing : Outgoing) :
    Keeps SameTimeline (selectUser sender outgoing) := by
  unfold selectUser
  split
  · exact (sameTimeline_cachedUser _).bind fun _ ↦ keeps_pure _
  · exact Keeps.ite (keeps_pure _) ((sameTimeline_findUser _ _).bind fun _ ↦ keeps_pure _)

/-- The check of the level leaves the recorded times alone. -/
theorem sameTimeline_checkUserLevel (selected : Selected) :
    Keeps SameTimeline (checkUserLevel selected) :=
  Keeps.ite (keeps_raiseStatus _) (keeps_pure _)

/-- Reading the recorded times leaves them alone. -/
theorem sameTimeline_engineTimes (selected : Selected) (pduType : PduType) :
    Keeps SameTimeline (engineTimes sender selected pduType) := by
  refine Keeps.ite (Keeps.ite (keeps_pure _) ?_) (keeps_pure _)
  refine (keeps_gets _).bind fun entry ↦ ?_
  cases entry with
  | none => exact keeps_pure _
  | some entry => exact keeps_pure _

/-- Encoding leaves the recorded times alone. -/
theorem sameTimeline_orSerializationError {α : Type} (encoded : Except Unit α) :
    Keeps SameTimeline (orSerializationError encoded) := by
  cases encoded with
  | ok value => exact keeps_pure _
  | error error => exact keeps_raiseStatus _

/-- The security services leave the recorded times alone. -/
theorem sameTimeline_orServiceError {α : Type} (result : Except DigestPlacement.ServiceError α) :
    Keeps SameTimeline (orServiceError result) := by
  unfold orServiceError
  split
  · exact keeps_pure _
  · exact keeps_raise _
  · exact keeps_raise _
  · exact keeps_raiseStatus _

/-- Enciphering leaves the recorded times alone. -/
theorem sameTimeline_encryptScopedPdu (selected : Selected) (times : ℕ × ℕ) :
    Keeps SameTimeline (encryptScopedPdu sender selected times) := by
  refine Keeps.ite ?_ (keeps_pure _)
  split
  · exact keeps_raiseStatus _
  · exact (sameTimeline_orSerializationError _).bind fun _ ↦
      (sameTimeline_orServiceError _).bind fun _ ↦ keeps_pure _

/-- Signing leaves the recorded times alone. -/
theorem sameTimeline_authenticateOutgoing (selected : Selected) (parameters : OutgoingParameters)
    (scopedPduData : ScopedPduData) :
    Keeps SameTimeline (authenticateOutgoing sender selected parameters scopedPduData) := by
  refine Keeps.ite ?_ (sameTimeline_orSerializationError _)
  split
  · exact keeps_raiseStatus _
  · exact (sameTimeline_orSerializationError _).bind fun _ ↦ sameTimeline_orServiceError _

/-- Making a message leaves the timeline alone. -/
theorem sameTimeline_generateRequestOrResponseMsg (outgoing : Outgoing) :
    Keeps SameTimeline (generateRequestOrResponseMsg sender outgoing) :=
  (sameTimeline_selectUser outgoing).bind fun _ ↦
    (sameTimeline_checkUserLevel _).bind fun _ ↦
      (sameTimeline_engineTimes _ _).bind fun _ ↦
        (sameTimeline_encryptScopedPdu _ _).bind fun _ ↦
          (sameTimeline_authenticateOutgoing _ _ _).bind fun _ ↦ keeps_pure _

/-- A request to a named engine is made for that engine, at the level that was asked for. -/
theorem selectUser_eq_ok {outgoing : Outgoing} {state after : UsmState} {selected : Selected}
    (hreference : outgoing.securityStateReference = none)
    (hengine : outgoing.securityEngineID ≠ [])
    (hrun : (selectUser sender outgoing).run state = (.ok selected, after)) :
    selected.securityEngineID = outgoing.securityEngineID ∧
      selected.securityLevel = outgoing.securityLevel := by
  unfold selectUser at hrun
  rw [hreference] at hrun
  simp only [hengine, if_false] at hrun
  obtain ⟨_, _, _, hrun⟩ := bind_eq_ok_iff.mp hrun
  cases hrun
  exact ⟨rfl, rfl⟩

/-- A request is sent with the times recorded for the agent. -/
theorem engineTimes_run_of_entry {selected : Selected} {pduType : PduType} {state : UsmState}
    {entry : TimelineEntry} (hlevel : selected.securityLevel.isAuthenticated = true)
    (hpdu : pduType.isConfirmedClass = true)
    (hentry : state.timeline selected.securityEngineID = some entry) :
    (engineTimes sender selected pduType).run state =
      (.ok (entry.engineBoots, entry.engineTime), state) := by
  have hconfirmed : pduType.isUnconfirmedClass = false := by
    cases pduType with
    | getRequest | getNextRequest | setRequest | getBulkRequest | informRequest => rfl
    | response | v1Trap | snmpV2Trap | report => cases hpdu
  unfold engineTimes
  simp only [hlevel, hconfirmed, if_true, Bool.false_eq_true, if_false]
  rw [bind_run_of_ok (gets_run _ _), hentry, pure_run]

/-- An authenticated request to an engine carries the boots and time of its entry as they are. -/
theorem generateRequestMsg_times {outgoing : Outgoing} {state after : UsmState}
    {message : OutgoingMessage} {entry : TimelineEntry}
    (hengine : outgoing.securityEngineID ≠ [])
    (hlevel : outgoing.securityLevel.isAuthenticated = true)
    (hpdu : outgoing.pduType.isConfirmedClass = true)
    (hentry : state.timeline outgoing.securityEngineID = some entry)
    (hrun : (generateRequestMsg sender outgoing).run state = (.ok message, after)) :
    message.parameters.msgAuthoritativeEngineBoots = entry.engineBoots ∧
      message.parameters.msgAuthoritativeEngineTime = entry.engineTime := by
  obtain ⟨selected, first, hselect, hrun⟩ := bind_eq_ok_iff.mp hrun
  obtain ⟨hid, hselected⟩ := @selectUser_eq_ok sender
    { outgoing with securityStateReference := none } _ _ _ rfl hengine hselect
  have hfirst : first.timeline = state.timeline := (sameTimeline_selectUser _).of_run hselect
  obtain ⟨_, second, hcheck, hrun⟩ := bind_eq_ok_iff.mp hrun
  have hsecond : second.timeline = first.timeline :=
    (sameTimeline_checkUserLevel selected).of_run hcheck
  have hkept : second.timeline selected.securityEngineID = some entry := by
    rw [hsecond, hfirst, hid]
    exact hentry
  have htimes := @engineTimes_run_of_entry sender selected outgoing.pduType second entry
    (by rw [hselected]; exact hlevel) hpdu hkept
  obtain ⟨times, third, hthird, hrun⟩ := bind_eq_ok_iff.mp hrun
  obtain rfl : (entry.engineBoots, entry.engineTime) = times :=
    Except.ok.inj (Prod.mk.inj (htimes.symm.trans hthird)).1
  obtain ⟨_, _, _, hrun⟩ := bind_eq_ok_iff.mp hrun
  obtain ⟨_, _, _, hrun⟩ := bind_eq_ok_iff.mp hrun
  cases hrun
  exact ⟨rfl, rfl⟩

end Outgoing

/-! ### Incoming messages -/

/-- The entry of an engine is the same before and after. -/
def SameEntry (engineId : Octets) (before after : UsmState) : Prop :=
  after.timeline engineId = before.timeline engineId

section Incoming

variable {engineId : Octets}

instance : Std.Refl (SameEntry engineId) :=
  ⟨fun _ ↦ rfl⟩

instance : IsTrans UsmState (SameEntry engineId) :=
  ⟨fun _ _ _ hfirst hsecond ↦ hsecond.trans hfirst⟩

/-- What leaves all recorded times alone leaves those of one engine. -/
theorem sameEntry_of_sameTimeline {α : Type} {program : Usm α}
    (hkeeps : Keeps SameTimeline program) : Keeps (SameEntry engineId) program :=
  hkeeps.mono fun _ _ hsame ↦ congrFun hsame engineId

/-- Recording the times of one engine leaves those of another. -/
theorem sameEntry_storeTimeline {engine : UsmEngine} {other : Octets} (hother : engineId ≠ other)
    (entry : TimelineEntry) : Keeps (SameEntry engineId) (storeTimeline engine other entry) :=
  keeps_modify fun _ ↦ Function.update_of_ne hother _ _

/-- What follows the authentication of a message writes the entry of its own engine only. -/
theorem sameEntry_afterAuthentication {engine : UsmEngine} {arrival : Arrival}
    {message : IdentifiedMessage}
    (hother : engineId ≠ message.parameters.msgAuthoritativeEngineId) :
    Keeps (SameEntry engineId) (do
      if arrival.securityLevel.isAuthenticated then
        synchronizeTimeline engine arrival message
        checkTimeliness engine arrival message
      deliverMessage engine arrival message) := by
  have hdeliver : Keeps (SameEntry engineId) (deliverMessage engine arrival message) :=
    sameEntry_of_sameTimeline (keeps_deliverMessage engine arrival message)
  refine Keeps.ite ?_ hdeliver
  refine (sameEntry_storeTimeline hother _).bind fun _ ↦ Keeps.bind ?_ fun _ ↦ hdeliver
  unfold checkTimeliness checkLocalTimeliness
  refine Keeps.ite (Keeps.ite (sameEntry_of_sameTimeline (keeps_countAndRaise _ _))
    (keeps_pure _)) ((keeps_gets _).bind fun entry ↦ ?_)
  cases entry with
  | none => exact keeps_raise _
  | some entry =>
    have hcheck : Keeps (SameEntry engineId) (if entry.engineBoots = maxEngineBoots ∨
          message.parameters.msgAuthoritativeEngineBoots < entry.engineBoots ∨
          message.parameters.msgAuthoritativeEngineBoots = entry.engineBoots ∧
            timeWindow < |(arrival.comparedAt : ℤ) - entry.latestUpdateTimestamp +
              entry.engineTime - message.parameters.msgAuthoritativeEngineTime| then
        raiseStatus
          { errorIndication := .notInTimeWindow
            msgUserName := some message.parameters.msgUserName }
        else pure ()) :=
      Keeps.ite (sameEntry_of_sameTimeline (keeps_raiseStatus _)) (keeps_pure _)
    exact Keeps.ite ((sameEntry_storeTimeline hother _).bind fun _ ↦ hcheck) hcheck

/-- The entry of a peer is written by what is authenticated for it, and by nothing else. -/
theorem receive_entry {agent : Agent} {state : UsmState} {reception : Reception}
    (hpeer : reception.engine.snmpEngineID ≠ agent.snmpEngineID) :
    (receive state reception).timeline agent.snmpEngineID =
        state.timeline agent.snmpEngineID ∧ authenticates agent state reception = false ∨
      ∃ parameters, messageParameters reception.engine reception.arrival = some parameters ∧
        authenticates agent state reception = true ∧
        (receive state reception).timeline agent.snmpEngineID =
          some (storedEntry reception.arrival parameters) := by
  have hkeeps : Keeps SameTimeline (authenticatedMessage reception.engine reception.arrival) :=
    keeps_authenticatedMessage reception.engine reception.arrival
  rcases ok_or_error (authenticatedMessage reception.engine reception.arrival) state with
    ⟨message, after, hok⟩ | ⟨exception, after, herror⟩
  · have hsame : after.timeline = state.timeline := hkeeps.of_run hok
    have hreceive : receive state reception = (Effect.run (do
        if reception.arrival.securityLevel.isAuthenticated then
          synchronizeTimeline reception.engine reception.arrival message
          checkTimeliness reception.engine reception.arrival message
        deliverMessage reception.engine reception.arrival message) after).2 := by
      unfold receive processIncomingMsg
      rw [bind_run_of_ok hok]
    by_cases hid : message.parameters.msgAuthoritativeEngineId = agent.snmpEngineID
    · by_cases hlevel : reception.arrival.securityLevel.isAuthenticated = true
      · right
        have hpasses : PassesAuthentication state reception :=
          ⟨hlevel, message, after, hok, fun hlocal ↦ hpeer (hlocal.symm.trans hid)⟩
        obtain ⟨parameters, hparameters, htimeline⟩ := receive_timeline hpasses
        have hmessage := (authenticatedMessage_eq_ok hok).1.1
        obtain rfl : parameters = message.parameters :=
          Option.some.inj (hparameters.symm.trans hmessage)
        refine ⟨_, hparameters, ?_, ?_⟩
        · simp [authenticates, hok, hlevel, hid]
        · rw [htimeline, hid, Function.update_self]
      · left
        constructor
        · rw [hreceive, if_neg hlevel]
          have hdeliver : SameTimeline after _ :=
            keeps_deliverMessage reception.engine reception.arrival message after
          rw [hdeliver, hsame]
        · simp [authenticates, hok, hlevel]
    · left
      constructor
      · rw [hreceive]
        have hrest := @sameEntry_afterAuthentication agent.snmpEngineID reception.engine
          reception.arrival message (Ne.symm hid) after
        rw [(hrest : _ = _), hsame]
      · simp [authenticates, hok, hid]
  · left
    have hsame : after.timeline = state.timeline := hkeeps.of_run herror
    constructor
    · unfold receive processIncomingMsg
      rw [bind_run_of_error herror, hsame]
    · simp [authenticates, herror]

end Incoming

/-! ### The agent's check -/

/-- The check of the local engine lets a message pass, or raises. -/
theorem checkLocalTimeliness_run_eq_ok_iff {engine : UsmEngine} {arrival : Arrival}
    {message : IdentifiedMessage} {state : UsmState} :
    (checkLocalTimeliness engine arrival message).run state = (.ok (), state) ↔
      engine.snmpEngineBoots ≠ maxEngineBoots ∧
        engine.snmpEngineBoots = message.parameters.msgAuthoritativeEngineBoots ∧
        |(engine.snmpEngineTime : ℤ) - message.parameters.msgAuthoritativeEngineTime| ≤
          timeWindow := by
  unfold checkLocalTimeliness
  split_ifs with houtside
  · refine ⟨fun hrun ↦ absurd hrun countAndRaise_ne_ok, fun hinside ↦ ?_⟩
    obtain ⟨hboots, hsame, htime⟩ := hinside
    rcases houtside with hmax | hother | hfar
    · exact absurd hmax hboots
    · exact absurd hsame hother
    · exact absurd htime (not_le.mpr hfar)
  · push Not at houtside
    exact ⟨fun _ ↦ houtside, fun _ ↦ rfl⟩

/-- A message with the given boots and time. -/
def messageWith (boots time : ℕ) (hboots : boots ≤ 2147483647) (htime : time ≤ 2147483647) :
    IdentifiedMessage where
  parameters :=
    { msgAuthoritativeEngineId := []
      msgAuthoritativeEngineBoots := boots
      msgAuthoritativeEngineTime := time
      msgUserName := []
      msgAuthenticationParameters := []
      msgPrivacyParameters := []
      boots_le := hboots
      time_le := htime
      userName_length_le := length_noUserName_le }
  user := anonymousUser
  maxSizeResponseScopedPDU := 0
  securityStateReference := 0

/-! ### Runs -/

section Runs

variable {agent : Agent} {manager : Manager} {event : Event}

/-- The entry of the agent is what the agent had when it sent the message authenticated last. -/
def Synchronized (agent : Agent) (manager : Manager) : Prop :=
  ∀ entry, manager.usm.timeline agent.snmpEngineID = some entry →
    entry.engineBoots ≤ 2147483647 ∧ entry.engineTime ≤ 2147483647 ∧
      entry.engineBoots = agent.snmpEngineBoots ∧
      ∃ sentAt ≤ manager.now, manager.sentAt = some sentAt ∧
        entry.engineTime = (agent.engineAt sentAt).snmpEngineTime

/-- A manager stays synchronized as long as the times it recorded stay. -/
theorem synchronized_of_sameTimeline {usm : UsmState}
    (hsynchronized : Synchronized agent manager) (hsame : SameTimeline manager.usm usm) :
    Synchronized agent { manager with usm := usm } := by
  intro entry hentry
  refine hsynchronized entry ?_
  rw [← hsame]
  exact hentry

/-- Every step keeps the entry in step with what the agent sent. -/
theorem synchronized_step (hsynchronized : Synchronized agent manager)
    (hagent : FromAgent agent manager event) : Synchronized agent (step agent manager event) := by
  cases event with
  | wait seconds =>
    intro entry hentry
    obtain ⟨hboots, htime, hsame, sentAt, hbefore, hsent⟩ := hsynchronized entry hentry
    exact ⟨hboots, htime, hsame, sentAt, Nat.le_add_right_of_le hbefore, hsent⟩
  | timerTick =>
    intro entry hentry
    refine hsynchronized entry ?_
    have hleft : (if agent.snmpEngineID ∈ manager.usm.timelineExpQueue
          manager.usm.expirationTimer then none
        else manager.usm.timeline agent.snmpEngineID) = some entry := hentry
    split_ifs at hleft
    exact hleft
  | generateRequest sender outgoing =>
    exact synchronized_of_sameTimeline hsynchronized
      (sameTimeline_generateRequestOrResponseMsg _ _)
  | generateResponse sender outgoing =>
    exact synchronized_of_sameTimeline hsynchronized
      (sameTimeline_generateRequestOrResponseMsg _ _)
  | receive reception sentAt =>
    obtain ⟨hpeer, hfrom⟩ := hagent
    intro entry hentry
    rcases @receive_entry agent manager.usm reception hpeer with
      ⟨hkept, hother⟩ | ⟨parameters, hparameters, hauthenticates, hstored⟩
    · obtain ⟨hboots, htime, hsame, last, hbefore, hsent⟩ :=
        hsynchronized entry (hkept.symm.trans hentry)
      refine ⟨hboots, htime, hsame, last, hbefore, ?_, hsent.2⟩
      simp only [step, hother, Bool.false_eq_true, if_false]
      exact hsent.1
    · obtain ⟨hbefore, hcarries⟩ := hfrom hauthenticates
      obtain ⟨hboots, htime⟩ := hcarries parameters hparameters
      obtain rfl := Option.some.inj (hstored.symm.trans hentry)
      refine ⟨parameters.boots_le, parameters.time_le, hboots, sentAt, hbefore, ?_, htime⟩
      simp only [step, hauthenticates, if_true]

/-- The boots and time of a request are the agent's own, of when it sent its last message. -/
theorem times_of_requests {message : OutgoingMessage} (hsynchronized : Synchronized agent manager)
    (hrequests : Requests agent manager event message) :
    message.parameters.msgAuthoritativeEngineBoots ≤ 2147483647 ∧
      message.parameters.msgAuthoritativeEngineTime ≤ 2147483647 ∧
      message.parameters.msgAuthoritativeEngineBoots = agent.snmpEngineBoots ∧
      ∃ sentAt ≤ manager.now, manager.sentAt = some sentAt ∧
        message.parameters.msgAuthoritativeEngineTime =
          (agent.engineAt sentAt).snmpEngineTime := by
  obtain ⟨sender, outgoing, after, -, hlevel, hpdu, hid, hheld, hrun⟩ := hrequests
  obtain ⟨entry, hentry⟩ := Option.isSome_iff_exists.mp hheld
  have hengine : outgoing.securityEngineID ≠ [] := by
    rw [hid]
    exact agent.snmpEngineID_ne_nil
  obtain ⟨hboots, htime⟩ := generateRequestMsg_times hengine hlevel hpdu
    (by rw [hid]; exact hentry) hrun
  rw [hboots, htime]
  exact hsynchronized entry hentry

/-- A request is in the window exactly if the message it takes its time from is recent. -/
theorem inWindow_iff_recent (hsynchronized : Synchronized agent manager) :
    InWindow agent manager event ↔ Recent agent manager event := by
  refine forall₂_congr fun message hrequests ↦ ?_
  obtain ⟨hbootsBound, htimeBound, hboots, sentAt, hbefore, hsent, htime⟩ :=
    times_of_requests hsynchronized hrequests
  have hdistance : |((agent.engineAt manager.now).snmpEngineTime : ℤ) -
      message.parameters.msgAuthoritativeEngineTime| = (manager.now : ℤ) - sentAt := by
    rw [htime, agent.time_eq, agent.time_eq]
    push_cast
    rw [abs_of_nonneg (by omega)]
    omega
  rw [hdistance]
  simp only [checkLocalTimeliness_run_eq_ok_iff, agent.boots_eq, hsent, Option.mem_def,
    Option.some.injEq, forall_eq']
  constructor
  · rintro ⟨hnear, hpasses⟩
    obtain ⟨hmax, -, -⟩ := hpasses ⟨0, [], .noAuthNoPriv, [], .encryptedPdu [], 0, 0, 0⟩
      (messageWith _ _ hbootsBound htimeBound) manager.usm rfl rfl
    exact ⟨hmax, hnear⟩
  · rintro ⟨hmax, hnear⟩
    refine ⟨hnear, fun arrival identified state hsameBoots hsameTime ↦ ⟨hmax, ?_, ?_⟩⟩
    · rw [hsameBoots, hboots]
    · rw [hsameTime, hdistance]
      exact hnear

/-- In a run in which the agent's messages are its own, every request is in the window exactly if
every request is made soon after such a message was sent. -/
theorem everyStep_inWindow_iff (agent : Agent) (manager : Manager) (events : List Event)
    (hnew : manager.usm.timeline agent.snmpEngineID = none)
    (hagent : EveryStep (step agent) (FromAgent agent) manager events) :
    EveryStep (step agent) (InWindow agent) manager events ↔
      EveryStep (step agent) (Recent agent) manager events := by
  have hstart : Synchronized agent manager := by
    intro entry hentry
    rw [hnew] at hentry
    cases hentry
  have hsynchronized : EveryStep (step agent) (fun manager _ ↦ Synchronized agent manager)
      manager events :=
    hagent.of_invariant (Synchronized agent) hstart fun manager event hhere hfrom ↦
      ⟨hhere, synchronized_step hhere hfrom⟩
  exact hsynchronized.congr fun _ _ hhere ↦ inWindow_iff_recent hhere

end Runs

/-! ### A late request -/

/-- The sample peer, whose engine time is 1000 at the beginning. -/
def sampleAgent : Agent where
  engineAt now :=
    { sampleEngine with
      snmpEngineID := SampleMessage.notification.engineId
      snmpEngineBoots := 5
      snmpEngineTime := 1000 + now }
  snmpEngineID := SampleMessage.notification.engineId
  snmpEngineBoots := 5
  startTime := 1000
  snmpEngineID_ne_nil := List.cons_ne_nil _ _
  boots_eq _ := rfl
  time_eq _ := rfl

/-- A manager that has not heard from anybody. -/
def sampleManager : Manager where
  usm := initialState
  now := 0
  sentAt := none

/-- A message of the peer, with a timer that ticks every ten seconds. -/
def sampleArrival : Event :=
  .receive ⟨{ sampleEngine with timerResolution := 10 }, SampleMessage.notification.arrival 0⟩ 0

/-- The sample engine as a sender, of one message to its peer. -/
def sampleSender : UsmSender where
  engine := sampleEngine
  sec2usr _ securityName := some securityName
  pysnmpUsmDiscovery := true
  cloneUserInfo _ _ := .error .noSuchInstance
  authServices _ := some
    { digestLength := 12
      authenticateOutgoingMsg := fun authKey ↦
        sampleHmacMd5.authenticateOutgoingMsg (authKey.getD []) }
  privServices _ := none
  encodeScopedPdu _ := .error ()
  encodeMsg _ _ digest _ := .ok (SampleMessage.notification.wholeMsg digest)
  emptyPdu _ := []

/-- A GET request to the peer. -/
def sampleOutgoing : Outgoing where
  globalData := ⟨1, 65507, 5, 3⟩
  securityEngineID := SampleMessage.notification.engineId
  securityName := [117]
  securityLevel := .authNoPriv
  scopedPDU := SampleMessage.notification.scopedPdu
  pduType := .getRequest
  securityStateReference := none

/-- A message of the peer, then nothing for 160 seconds. -/
def sampleSilence : List Event :=
  sampleArrival :: (List.replicate 16 [Event.wait 10, Event.timerTick]).flatten

theorem fromAgent_sampleArrival (manager : Manager) :
    FromAgent sampleAgent manager sampleArrival := by
  refine ⟨by decide, fun _ ↦ ⟨Nat.zero_le _, fun parameters hparameters ↦ ?_⟩⟩
  obtain rfl : SampleMessage.notification.parameters = parameters := Option.some.inj hparameters
  exact ⟨rfl, rfl⟩

theorem everyStep_fromAgent_sampleRun :
    EveryStep (step sampleAgent) (FromAgent sampleAgent) sampleManager
      (sampleSilence ++ [.generateRequest sampleSender sampleOutgoing]) := by
  refine EveryStep.of_forall fun manager event hmem ↦ ?_
  rcases List.mem_append.mp hmem with hsilence | hrequest
  · rcases List.mem_cons.mp hsilence with rfl | hquiet
    · exact fromAgent_sampleArrival manager
    · obtain ⟨pair, hpair, hevent⟩ := List.mem_flatten.mp hquiet
      rw [List.eq_of_mem_replicate hpair] at hevent
      rcases List.mem_pair.mp hevent with rfl | rfl <;> trivial
  · rw [List.mem_singleton.mp hrequest]
    trivial

/-- A request 160 seconds after the last message of the peer. -/
theorem everyStep_inWindow_iff_sampleRun :
    EveryStep (step sampleAgent) (InWindow sampleAgent) sampleManager
        (sampleSilence ++ [.generateRequest sampleSender sampleOutgoing]) ↔
      EveryStep (step sampleAgent) (Recent sampleAgent) sampleManager
        (sampleSilence ++ [.generateRequest sampleSender sampleOutgoing]) :=
  everyStep_inWindow_iff sampleAgent sampleManager _ rfl everyStep_fromAgent_sampleRun

/-- It carries the engine time 1000, where the peer's is 1160. -/
theorem not_everyStep_inWindow :
    ¬ ∀ (agent : Agent) (manager : Manager) (events : List Event),
      manager.usm.timeline agent.snmpEngineID = none →
      EveryStep (step agent) (FromAgent agent) manager events →
      EveryStep (step agent) (InWindow agent) manager events := by
  intro hall
  have hwindow := hall sampleAgent sampleManager _ rfl everyStep_fromAgent_sampleRun
  obtain ⟨-, hlast, -⟩ := EveryStep.append_iff.mp hwindow
  have hclock : (sampleSilence.foldl (step sampleAgent) sampleManager).now = 160 := rfl
  have htime : ((sampleSilence.foldl (step sampleAgent) sampleManager).usm.timeline
      sampleAgent.snmpEngineID).map TimelineEntry.engineTime = some 1000 := by
    decide +kernel
  have hmade : ((generateRequestMsg sampleSender sampleOutgoing).run
      (sampleSilence.foldl (step sampleAgent) sampleManager).usm).1.isOk = true := by
    decide +kernel
  obtain ⟨entry, hentry, hthousand⟩ := Option.map_eq_some_iff.mp htime
  rcases ok_or_error (generateRequestMsg sampleSender sampleOutgoing)
      (sampleSilence.foldl (step sampleAgent) sampleManager).usm with
    ⟨message, after, hok⟩ | ⟨exception, after, herror⟩
  · have hcarried := (generateRequestMsg_times (List.cons_ne_nil _ _) rfl rfl hentry hok).2
    obtain ⟨hnear, -⟩ := hlast message ⟨sampleSender, sampleOutgoing, after, rfl, rfl, rfl, rfl,
      Option.isSome_of_eq_some hentry, hok⟩
    rw [hcarried, hthousand, sampleAgent.time_eq, hclock] at hnear
    exact absurd hnear (by decide)
  · rw [herror] at hmade
    cases hmade

end Pysnmp.Proto.Secmod.TimeWindow
