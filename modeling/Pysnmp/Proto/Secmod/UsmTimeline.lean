import Mathlib.Data.Prod.Lex
import Pysnmp.Foundation.Run
import Pysnmp.Proto.Secmod.UsmAcceptance
import Pysnmp.Proto.Secmod.UsmFrame

/-!
# The timeline of peer engines

A message that passes authentication for a peer engine writes that engine's timeline entry before
its own boots and time are compared with it: `synchronizeTimeline` runs first, and
`checkPeerTimeliness` then reads back what it wrote. `processIncomingMsg_timeline` computes the
timeline such a message leaves, and no earlier entry enters into it.

The requirement on one message is `KeepsTimeline`: no entry's pair of boots and latest received
time decreases, and a stale message (`Stale`) is refused as `notInTimeWindow` with the timeline as
it was. `keepsTimeline_iff` says that it holds exactly when the message is `InOrder`: not stale,
and not below the pair kept. `everyStep_keepsTimeline_iff` carries this over every run.
-/

set_option autoImplicit false
set_option relaxedAutoImplicit false

namespace Pysnmp.Proto.Secmod.UsmTimeline

open Foundation Foundation.Effect UsmService UsmFrame UsmAcceptance

/-! ### The timeline an authenticated message leaves -/

/-- A message received, with the environment of its moment. -/
structure Reception where
  engine : UsmEngine
  arrival : Arrival

/-- The state after a message has been processed, whether it was accepted or not. -/
def receive (state : UsmState) (reception : Reception) : UsmState :=
  ((processIncomingMsg reception.engine reception.arrival).run state).2

/-- The message passes authentication for a peer engine: it is identified and its digest accepted,
at a level with authentication, under an engine identifier that is not the local one. -/
def PassesAuthentication (state : UsmState) (reception : Reception) : Prop :=
  reception.arrival.securityLevel.isAuthenticated = true ∧
    ∃ message authenticated,
      (authenticatedMessage reception.engine reception.arrival).run state =
        (.ok message, authenticated) ∧
      message.parameters.msgAuthoritativeEngineId ≠ reception.engine.snmpEngineID

/-- The entry an authenticated message stores. -/
def storedEntry (arrival : Arrival) (parameters : UsmSecurityParameters) : TimelineEntry where
  engineBoots := parameters.msgAuthoritativeEngineBoots
  engineTime := parameters.msgAuthoritativeEngineTime
  latestReceivedEngineTime := parameters.msgAuthoritativeEngineTime
  latestUpdateTimestamp := arrival.synchronizedAt

/-- A message is not ahead of the entry it has just stored: the boots are equal and the time is not
later than itself. -/
theorem not_ahead_of_storedEntry (arrival : Arrival) (parameters : UsmSecurityParameters) :
    ¬ ((storedEntry arrival parameters).engineBoots < parameters.msgAuthoritativeEngineBoots ∨
      parameters.msgAuthoritativeEngineBoots = (storedEntry arrival parameters).engineBoots ∧
        (storedEntry arrival parameters).latestReceivedEngineTime <
          parameters.msgAuthoritativeEngineTime) := by
  simp [storedEntry]

/-- The window check against the message's own entry never advances the timeline. -/
theorem keeps_checkPeerTimeliness_storedEntry {relation : UsmState → UsmState → Prop}
    [StatFree relation] (engine : UsmEngine) (arrival : Arrival) (message : IdentifiedMessage) :
    Keeps relation
      (checkPeerTimeliness engine arrival message (storedEntry arrival message.parameters)) := by
  have hnotAhead := not_ahead_of_storedEntry arrival message.parameters
  simp only [checkPeerTimeliness, if_neg hnotAhead]
  exact (keeps_pure _).bind fun _ ↦ Keeps.ite (keeps_raiseStatus _) (keeps_pure _)

/-- The window check of a peer's message reads the entry the message has just stored. -/
theorem checkTimeliness_run_of_storedEntry {engine : UsmEngine} {arrival : Arrival}
    {message : IdentifiedMessage} {state : UsmState}
    (hpeer : message.parameters.msgAuthoritativeEngineId ≠ engine.snmpEngineID)
    (hentry : state.timeline message.parameters.msgAuthoritativeEngineId =
      some (storedEntry arrival message.parameters)) :
    (checkTimeliness engine arrival message).run state =
      (checkPeerTimeliness engine arrival message
        (storedEntry arrival message.parameters)).run state := by
  rw [checkTimeliness, if_neg hpeer, bind_run_of_ok (gets_run _ _), hentry]

/-- A message that passes authentication for a peer engine leaves its own boots and time in that
engine's entry, whatever was there, and no other entry changed. -/
theorem receive_timeline {state : UsmState} {reception : Reception}
    (hpasses : PassesAuthentication state reception) :
    ∃ parameters, messageParameters reception.engine reception.arrival = some parameters ∧
      (receive state reception).timeline =
        Function.update state.timeline parameters.msgAuthoritativeEngineId
          (some (storedEntry reception.arrival parameters)) := by
  obtain ⟨engine, arrival⟩ := reception
  obtain ⟨hlevel, message, authenticated, hrun, hpeer⟩ := hpasses
  refine ⟨message.parameters, (authenticatedMessage_eq_ok hrun).1.1, ?_⟩
  have hauthenticated : authenticated.timeline = state.timeline :=
    (keeps_authenticatedMessage engine arrival : Keeps SameTimeline _).of_run hrun
  obtain ⟨synchronized, hsynchronize, hsynchronized⟩ : ∃ synchronized,
      (synchronizeTimeline engine arrival message).run authenticated = (.ok (), synchronized) ∧
        synchronized.timeline = Function.update state.timeline
          message.parameters.msgAuthoritativeEngineId
          (some (storedEntry arrival message.parameters)) :=
    ⟨_, rfl, by rw [← hauthenticated]; rfl⟩
  have hchecked : SameTimeline synchronized
      ((checkTimeliness engine arrival message).run synchronized).2 := by
    rw [checkTimeliness_run_of_storedEntry hpeer (by rw [hsynchronized, Function.update_self])]
    exact keeps_checkPeerTimeliness_storedEntry engine arrival message synchronized
  rw [← hsynchronized, receive, processIncomingMsg, bind_run_of_ok hrun, if_pos hlevel,
    bind_run_of_ok hsynchronize]
  exact related_bind_run hchecked fun _ ↦ keeps_deliverMessage engine arrival message

/-! ### Messages that keep the timeline -/

/-- The pair that must not decrease: boots first, then the latest time received. -/
def progress (entry : TimelineEntry) : ℕ ×ₗ ℕ :=
  toLex (entry.engineBoots, entry.latestReceivedEngineTime)

/-- The message's boots are lower than those of the entry, or equal and its time lies more than the
window behind the local notion of the peer's time when the processing starts. -/
def Stale (entry : TimelineEntry) (arrival : Arrival) (parameters : UsmSecurityParameters) : Prop :=
  parameters.msgAuthoritativeEngineBoots < entry.engineBoots ∨
    parameters.msgAuthoritativeEngineBoots = entry.engineBoots ∧
      (parameters.msgAuthoritativeEngineTime : ℤ) + timeWindow <
        entry.engineTime + (arrival.synchronizedAt - entry.latestUpdateTimestamp)

/-- The processing raises `notInTimeWindow`. -/
def RejectsNotInTimeWindow (state : UsmState) (reception : Reception) : Prop :=
  ∃ details after, (processIncomingMsg reception.engine reception.arrival).run state =
    (.error (.statusInformation details), after) ∧ details.errorIndication = .notInTimeWindow

/-- What one message owes the timeline: no entry moves backwards, and a stale message is rejected
with the timeline as it was. -/
def KeepsTimeline (state : UsmState) (reception : Reception) : Prop :=
  (∀ peer before, state.timeline peer = some before →
    ∃ after, (receive state reception).timeline peer = some after ∧
      progress before ≤ progress after) ∧
  ∀ parameters entry,
    messageParameters reception.engine reception.arrival = some parameters →
    state.timeline parameters.msgAuthoritativeEngineId = some entry →
    Stale entry reception.arrival parameters →
    RejectsNotInTimeWindow state reception ∧ (receive state reception).timeline = state.timeline

/-- The message is not stale, and its boots and time are not below the pair kept of its peer. -/
def InOrder (state : UsmState) (reception : Reception) : Prop :=
  ∀ parameters entry,
    messageParameters reception.engine reception.arrival = some parameters →
    state.timeline parameters.msgAuthoritativeEngineId = some entry →
    ¬ Stale entry reception.arrival parameters ∧
      progress entry ≤ toLex
        (parameters.msgAuthoritativeEngineBoots, parameters.msgAuthoritativeEngineTime)

/-- The entry a stale message stores differs from the one it is stale for. -/
theorem storedEntry_ne_of_stale {entry : TimelineEntry} {arrival : Arrival}
    {parameters : UsmSecurityParameters} (hstale : Stale entry arrival parameters) :
    storedEntry arrival parameters ≠ entry := by
  rintro rfl
  rcases hstale with hboots | ⟨-, htime⟩
  · exact absurd hboots (lt_irrefl _)
  · simp [storedEntry, timeWindow] at htime

/-- A message that passes authentication keeps the timeline exactly when it is in order. -/
theorem keepsTimeline_iff {state : UsmState} {reception : Reception}
    (hpasses : PassesAuthentication state reception) :
    KeepsTimeline state reception ↔ InOrder state reception := by
  obtain ⟨parameters, hparameters, htimeline⟩ := receive_timeline hpasses
  constructor
  · rintro ⟨hprogress, hrejects⟩ other entry hother hentry
    obtain rfl : parameters = other := Option.some.inj (hparameters.symm.trans hother)
    refine ⟨fun hstale ↦ ?_, ?_⟩
    · have hunchanged := (hrejects parameters entry hparameters hentry hstale).2
      rw [htimeline] at hunchanged
      have hstored := congrFun hunchanged parameters.msgAuthoritativeEngineId
      rw [Function.update_self, hentry] at hstored
      exact storedEntry_ne_of_stale hstale (Option.some.inj hstored)
    · obtain ⟨after, hafter, hle⟩ := hprogress _ entry hentry
      rw [htimeline, Function.update_self] at hafter
      rwa [← Option.some.inj hafter] at hle
  · intro horder
    refine ⟨fun peer before hbefore ↦ ?_, fun other entry hother hentry hstale ↦ ?_⟩
    · rw [htimeline]
      by_cases hpeer : peer = parameters.msgAuthoritativeEngineId
      · subst hpeer
        exact ⟨_, Function.update_self .., (horder parameters before hparameters hbefore).2⟩
      · exact ⟨before, by rw [Function.update_of_ne hpeer, hbefore], le_refl _⟩
    · exact absurd hstale (horder other entry hother hentry).1

/-- In a run of messages that pass authentication for peer engines, every message keeps the
timeline exactly when every message is in order. -/
theorem everyStep_keepsTimeline_iff {state : UsmState} {receptions : List Reception}
    (hpasses : EveryStep receive PassesAuthentication state receptions) :
    EveryStep receive KeepsTimeline state receptions ↔
      EveryStep receive InOrder state receptions :=
  hpasses.congr fun _ _ hhere ↦ keepsTimeline_iff hhere

/-! ### A replayed message -/

section Replay

/-- A message of the sample peer, received by the sample agent. -/
def sampleReception (message : SampleMessage) (clock : ℕ) : Reception :=
  ⟨sampleEngine, message.arrival clock⟩

theorem passesAuthentication_sampleRun :
    EveryStep receive PassesAuthentication initialState
      [sampleReception .notification 0, sampleReception .replay 1] :=
  ⟨⟨rfl, _, _, rfl, by decide⟩, ⟨rfl, _, _, rfl, by decide⟩, trivial⟩

/-- A message of engine time 500 that follows one of engine time 1000. -/
theorem everyStep_keepsTimeline_iff_sampleRun :
    EveryStep receive KeepsTimeline initialState
        [sampleReception .notification 0, sampleReception .replay 1] ↔
      EveryStep receive InOrder initialState
        [sampleReception .notification 0, sampleReception .replay 1] :=
  everyStep_keepsTimeline_iff passesAuthentication_sampleRun

/-- The later message moves the timeline back from 1000 to 500. -/
theorem not_everyStep_keepsTimeline :
    ¬ ∀ state receptions, EveryStep receive PassesAuthentication state receptions →
      EveryStep receive KeepsTimeline state receptions := by
  intro hkeeps
  obtain ⟨-, ⟨hprogress, -⟩, -⟩ := hkeeps _ _ passesAuthentication_sampleRun
  obtain ⟨after, hafter, hle⟩ := hprogress SampleMessage.notification.engineId
    (storedEntry (SampleMessage.notification.arrival 0) SampleMessage.notification.parameters) rfl
  obtain rfl : storedEntry (SampleMessage.replay.arrival 1) SampleMessage.replay.parameters =
    after := Option.some.inj hafter
  exact absurd hle (by decide)

end Replay

end Pysnmp.Proto.Secmod.UsmTimeline
