import Pysnmp.Proto.Secmod.UsmOutgoing
import Pysnmp.Proto.Secmod.UsmTimeline

/-!
# How long a timeline entry stays

Every authenticated message puts its engine on the expiry queue, 300 seconds worth of ticks ahead,
and nothing takes the records of earlier messages off: the entry is dropped when one of them is
due, though the conversation goes on.

`everyStep_retained_iff`: in every run of messages and ticks an engine's entry is dropped only when
no message of the engine is recent, exactly if the time of a message never ends while a later
message of the same engine is recent.
-/

set_option autoImplicit false
set_option relaxedAutoImplicit false

namespace Pysnmp.Proto.Secmod.TimelineRetention

open Foundation Foundation.Effect UsmService UsmFrame UsmAcceptance UsmTimeline UsmOutgoing

/-! ### Messages and ticks -/

/-- An authenticated message: its engine, the number of the tick that followed it, and the seconds
between ticks. -/
structure Authenticated where
  engineId : Octets
  processedAt : ℕ
  timerResolution : ℚ

namespace Authenticated

/-- The message was processed during the last 300 seconds worth of ticks, up to and including the
tick. -/
def IsRecent (message : Authenticated) (tick : ℕ) : Prop :=
  ((tick : ℚ) - message.processedAt + 1) * message.timerResolution ≤ 300

instance (message : Authenticated) (tick : ℕ) : Decidable (message.IsRecent tick) :=
  inferInstanceAs (Decidable (_ ≤ _))

/-- The tick is the first at which the message is not recent. -/
def EndsAt (message : Authenticated) (tick : ℕ) : Prop :=
  ((tick : ℚ) - message.processedAt) * message.timerResolution ≤ 300 ∧ ¬ message.IsRecent tick

/-- The tick the message's record is put on the queue for. The resolution is the decimal that the
dispatcher is configured with, and the division is exact. -/
def expireAt (message : Authenticated) : ℕ :=
  ((message.processedAt : ℚ) + 300 / message.timerResolution).floor.toNat

variable {message : Authenticated} {tick : ℕ}

theorem le_expireAt_iff (hpos : 0 < message.timerResolution) :
    tick ≤ message.expireAt ↔
      ((tick : ℚ) - message.processedAt) * message.timerResolution ≤ 300 := by
  have hfloor : 0 ≤ ((message.processedAt : ℚ) + 300 / message.timerResolution).floor := by
    rw [Rat.le_floor_iff]
    positivity
  rw [expireAt, Int.le_toNat hfloor, Rat.le_floor_iff, Int.cast_natCast, ← sub_le_iff_le_add',
    le_div_iff₀ hpos]

theorem isRecent_iff (hpos : 0 < message.timerResolution) :
    message.IsRecent tick ↔ tick < message.expireAt := by
  rw [← Nat.succ_le_iff, le_expireAt_iff hpos, IsRecent, Nat.cast_succ, add_sub_right_comm]

theorem endsAt_iff (hpos : 0 < message.timerResolution) :
    message.EndsAt tick ↔ message.expireAt = tick := by
  rw [EndsAt, ← le_expireAt_iff hpos, isRecent_iff hpos]
  omega

end Authenticated

/-- The security model, and the messages that it has authenticated. -/
structure Conversation where
  usm : UsmState
  authenticated : List Authenticated

/-- What happens to the security model. -/
inductive Event
  | receive (reception : Reception)
  | timerTick

/-- The engine of a message that passes authentication. -/
def authenticatedEngine (state : UsmState) (reception : Reception) : Option Octets :=
  match ((authenticatedMessage reception.engine reception.arrival).run state).1 with
  | .ok message =>
    if reception.arrival.securityLevel.isAuthenticated then
      some message.parameters.msgAuthoritativeEngineId
    else
      none
  | .error _ => none

/-- One step of the security model. -/
def step (conversation : Conversation) : Event → Conversation
  | .receive reception =>
    { usm := receive conversation.usm reception
      authenticated :=
        match authenticatedEngine conversation.usm reception with
        | some engineId =>
          conversation.authenticated ++
            [⟨engineId, conversation.usm.expirationTimer, reception.engine.timerResolution⟩]
        | none => conversation.authenticated }
  | .timerTick => { conversation with usm := (receiveTimerTick.run conversation.usm).2 }

/-- The engine's entry is dropped only if no authenticated message of the engine is recent. -/
def Retained (engineId : Octets) (conversation : Conversation) (event : Event) : Prop :=
  (conversation.usm.timeline engineId).isSome →
    (step conversation event).usm.timeline engineId = none →
    ∀ message ∈ conversation.authenticated, message.engineId = engineId →
      ¬ message.IsRecent conversation.usm.expirationTimer

/-- Where the time of a message of the engine ends, no later message of the engine is recent. -/
def EndsWithLast (engineId : Octets) (conversation : Conversation) : Event → Prop
  | .receive _ => True
  | .timerTick =>
    ∀ ended ∈ conversation.authenticated, ended.engineId = engineId →
      ended.EndsAt conversation.usm.expirationTimer →
      ∀ message ∈ conversation.authenticated, message.engineId = engineId →
        ¬ message.IsRecent conversation.usm.expirationTimer

/-! ### What a message does to the timeline -/

theorem sameSchedule_storeTimeline {engine : UsmEngine} {engineId : Octets} {entry : TimelineEntry}
    {before after : UsmState} (hsame : SameSchedule before after) :
    SameSchedule ((storeTimeline engine engineId entry).run before).2
      ((storeTimeline engine engineId entry).run after).2 := by
  obtain ⟨htimeline, hqueue, htimer⟩ := hsame
  refine ⟨?_, ?_, htimer⟩
  · show Function.update after.timeline engineId (some entry) = _
    rw [htimeline]
    rfl
  · show Function.update after.timelineExpQueue _ _ = _
    rw [hqueue, htimer]
    rfl

/-- The check that follows the store of a message's entry leaves the timeline alone. -/
theorem sameSchedule_checkTimeliness {engine : UsmEngine} {arrival : Arrival}
    {message : IdentifiedMessage} {state : UsmState}
    (hentry : state.timeline message.parameters.msgAuthoritativeEngineId =
      some (storedEntry arrival message.parameters)) :
    SameSchedule state ((checkTimeliness engine arrival message).run state).2 := by
  by_cases hlocal : message.parameters.msgAuthoritativeEngineId = engine.snmpEngineID
  · have hcheck : Keeps SameSchedule (checkLocalTimeliness engine arrival message) :=
      Keeps.ite (keeps_countAndRaise _ _) (keeps_pure _)
    rw [checkTimeliness, if_pos hlocal]
    exact hcheck state
  · rw [checkTimeliness_run_of_storedEntry hlocal hentry]
    exact keeps_checkPeerTimeliness_storedEntry engine arrival message state

/-- A message that passes authentication stores an entry of its engine and puts a record on the
queue; any other message leaves both as they were. -/
theorem receive_schedule (state : UsmState) (reception : Reception) :
    authenticatedEngine state reception = none ∧ SameSchedule state (receive state reception) ∨
      ∃ engineId entry, authenticatedEngine state reception = some engineId ∧
        SameSchedule
          ((storeTimeline reception.engine engineId entry).run state).2
          (receive state reception) := by
  have hkeeps : Keeps SameSchedule (authenticatedMessage reception.engine reception.arrival) :=
    keeps_authenticatedMessage reception.engine reception.arrival
  rcases ok_or_error (authenticatedMessage reception.engine reception.arrival) state with
    ⟨message, after, hok⟩ | ⟨exception, after, herror⟩
  · have hsame : SameSchedule state after := hkeeps.of_run hok
    by_cases hlevel : reception.arrival.securityLevel.isAuthenticated = true
    · right
      refine ⟨message.parameters.msgAuthoritativeEngineId,
        storedEntry reception.arrival message.parameters, ?_, ?_⟩
      · rw [authenticatedEngine, hok]
        exact if_pos hlevel
      · rw [receive, processIncomingMsg, bind_run_of_ok hok, if_pos hlevel,
          bind_run_of_ok (show (synchronizeTimeline reception.engine reception.arrival message).run
            after = (.ok (), _) from rfl)]
        refine trans_of SameSchedule (sameSchedule_storeTimeline hsame) (related_bind_run ?_
          fun _ ↦ keeps_deliverMessage reception.engine reception.arrival message)
        exact sameSchedule_checkTimeliness (Function.update_self ..)
    · left
      constructor
      · rw [authenticatedEngine, hok]
        exact if_neg hlevel
      · rw [receive, processIncomingMsg, bind_run_of_ok hok, if_neg hlevel]
        exact trans_of SameSchedule hsame
          (keeps_deliverMessage reception.engine reception.arrival message after)
  · left
    constructor
    · rw [authenticatedEngine, herror]
    · rw [receive, processIncomingMsg, bind_run_of_error herror]
      exact hkeeps.of_run herror

/-! ### The queue and the messages -/

section Runs

variable {engineId : Octets} {conversation : Conversation}

/-- The queue has the engine where the time of one of its messages ends, and the engine has an entry
as long as one of its messages has not ended. -/
structure Tracked (engineId : Octets) (conversation : Conversation) : Prop where
  timerResolution_pos : ∀ message ∈ conversation.authenticated, 0 < message.timerResolution
  listed : ∀ tick, conversation.usm.expirationTimer ≤ tick →
    (engineId ∈ conversation.usm.timelineExpQueue tick ↔
      ∃ message ∈ conversation.authenticated, message.engineId = engineId ∧
        message.expireAt = tick)
  held : ∀ message ∈ conversation.authenticated, message.engineId = engineId →
    conversation.usm.expirationTimer ≤ message.expireAt →
    (conversation.usm.timeline engineId).isSome

/-- A tick drops the entries of the engines that are on the queue for it. -/
theorem step_timerTick_timeline (engineId : Octets) (conversation : Conversation) :
    (step conversation .timerTick).usm.timeline engineId =
      if engineId ∈ conversation.usm.timelineExpQueue conversation.usm.expirationTimer then none
      else conversation.usm.timeline engineId :=
  rfl

/-- At a tick an entry is dropped as it should be exactly if no later message is recent. -/
theorem Tracked.retained_timerTick_iff (htracked : Tracked engineId conversation) :
    Retained engineId conversation .timerTick ↔ EndsWithLast engineId conversation .timerTick := by
  have hlisted := htracked.listed conversation.usm.expirationTimer le_rfl
  constructor
  · intro hretained ended hended hengine hends message hmessage hsame hrecent
    have hlater := (Authenticated.isRecent_iff
      (htracked.timerResolution_pos message hmessage)).mp hrecent
    have hdue := (Authenticated.endsAt_iff
      (htracked.timerResolution_pos ended hended)).mp hends
    have hheld := htracked.held message hmessage hsame hlater.le
    refine hretained hheld ?_ message hmessage hsame hrecent
    rw [step_timerTick_timeline, if_pos (hlisted.mpr ⟨ended, hended, hengine, hdue⟩)]
  · intro hlast hheld hdropped
    rw [step_timerTick_timeline] at hdropped
    split_ifs at hdropped with hmem
    · obtain ⟨ended, hended, hengine, hdue⟩ := hlisted.mp hmem
      exact hlast ended hended hengine
        ((Authenticated.endsAt_iff (htracked.timerResolution_pos ended hended)).mpr hdue)
    · rw [hdropped] at hheld
      cases hheld

/-- A tick that drops nothing too early keeps the queue and the timeline in step. -/
theorem Tracked.timerTick (htracked : Tracked engineId conversation)
    (hretained : Retained engineId conversation .timerTick) :
    Tracked engineId (step conversation .timerTick) where
  timerResolution_pos := htracked.timerResolution_pos
  listed := by
    intro tick htick
    have hlater : conversation.usm.expirationTimer + 1 ≤ tick := htick
    refine Iff.trans ?_ (htracked.listed tick (Nat.le_of_succ_le hlater))
    show engineId ∈ Function.update conversation.usm.timelineExpQueue
      conversation.usm.expirationTimer [] tick ↔ _
    rw [Function.update_of_ne (Nat.ne_of_gt hlater)]
  held := by
    intro message hmessage hsame hlater
    have hrecent := (Authenticated.isRecent_iff
      (htracked.timerResolution_pos message hmessage)).mpr hlater
    have hheld := htracked.held message hmessage hsame (Nat.le_of_succ_le hlater)
    rw [← Option.ne_none_iff_isSome]
    intro hdropped
    exact hretained hheld hdropped message hmessage hsame hrecent

/-- A message that does not pass authentication keeps them in step, and drops nothing. -/
theorem Tracked.reception_none (htracked : Tracked engineId conversation) {reception : Reception}
    (hnone : authenticatedEngine conversation.usm reception = none)
    (hsame : SameSchedule conversation.usm (receive conversation.usm reception)) :
    Retained engineId conversation (.receive reception) ∧
      Tracked engineId (step conversation (.receive reception)) := by
  have hstep : step conversation (.receive reception) =
      { conversation with usm := receive conversation.usm reception } := by
    simp only [step, hnone]
  rw [Retained, hstep]
  refine ⟨fun hheld hdropped ↦ ?_, ⟨htracked.timerResolution_pos, ?_, ?_⟩⟩
  · rw [hsame.timeline] at hdropped
    rw [hdropped] at hheld
    cases hheld
  · rw [hsame.timelineExpQueue, hsame.expirationTimer]
    exact htracked.listed
  · rw [hsame.timeline, hsame.expirationTimer]
    exact htracked.held

section Authenticated

variable {reception : Reception} {sender : Octets} {entry : TimelineEntry}

/-- An entry that is stored drops no other. -/
theorem isSome_timeline_receive
    (hsame : SameSchedule ((storeTimeline reception.engine sender entry).run conversation.usm).2
      (receive conversation.usm reception))
    (hheld : sender = engineId ∨ (conversation.usm.timeline engineId).isSome) :
    ((receive conversation.usm reception).timeline engineId).isSome := by
  have htimeline : (receive conversation.usm reception).timeline =
      Function.update conversation.usm.timeline sender (some entry) := hsame.timeline
  rw [htimeline, Function.update_apply]
  split_ifs with hother
  · rfl
  · exact hheld.resolve_left fun heq ↦ hother heq.symm

/-- The sender is put on the queue where the time of its message ends. -/
theorem mem_timelineExpQueue_receive_iff
    (hsame : SameSchedule ((storeTimeline reception.engine sender entry).run conversation.usm).2
      (receive conversation.usm reception)) (tick : ℕ) :
    engineId ∈ (receive conversation.usm reception).timelineExpQueue tick ↔
      engineId ∈ conversation.usm.timelineExpQueue tick ∨
        sender = engineId ∧ (⟨sender, conversation.usm.expirationTimer,
          reception.engine.timerResolution⟩ : Authenticated).expireAt = tick := by
  let message : Authenticated :=
    ⟨sender, conversation.usm.expirationTimer, reception.engine.timerResolution⟩
  have hqueue : (receive conversation.usm reception).timelineExpQueue =
      Function.update conversation.usm.timelineExpQueue message.expireAt
        (conversation.usm.timelineExpQueue message.expireAt ++ [sender]) :=
    hsame.timelineExpQueue
  rw [hqueue, Function.update_apply]
  split_ifs with hdue
  · rw [List.mem_append, List.mem_singleton, ← hdue]
    simp [message, hdue, eq_comm]
  · have hother : ¬ message.expireAt = tick := fun heq ↦ hdue heq.symm
    exact (or_iff_left fun hsender ↦ hother hsender.2).symm

/-- A message that passes authentication keeps them in step, and drops nothing. -/
theorem Tracked.reception_some (htracked : Tracked engineId conversation)
    (hpos : 0 < reception.engine.timerResolution)
    (hsome : authenticatedEngine conversation.usm reception = some sender)
    (hsame : SameSchedule ((storeTimeline reception.engine sender entry).run conversation.usm).2
      (receive conversation.usm reception)) :
    Retained engineId conversation (.receive reception) ∧
      Tracked engineId (step conversation (.receive reception)) := by
  let message : Authenticated :=
    ⟨sender, conversation.usm.expirationTimer, reception.engine.timerResolution⟩
  have hstep : step conversation (.receive reception) =
      { usm := receive conversation.usm reception
        authenticated := conversation.authenticated ++ [message] } := by
    simp only [step, hsome, message]
  have htimer : (receive conversation.usm reception).expirationTimer =
      conversation.usm.expirationTimer := hsame.expirationTimer
  rw [Retained, hstep]
  refine ⟨fun hheld hdropped ↦ ?_, ⟨?_, ?_, ?_⟩⟩
  · have hkept := isSome_timeline_receive hsame (Or.inr hheld)
    rw [hdropped] at hkept
    cases hkept
  · intro other hother
    rcases List.mem_append.mp hother with hearlier | hnew
    · exact htracked.timerResolution_pos other hearlier
    · rw [List.mem_singleton.mp hnew]
      exact hpos
  · intro tick htick
    rw [htimer] at htick
    rw [mem_timelineExpQueue_receive_iff hsame, htracked.listed tick htick]
    simp only [List.mem_append, List.mem_singleton, or_and_right, exists_or, exists_eq_left,
      message]
  · intro other hother hsameEngine hahead
    rw [htimer] at hahead
    rcases List.mem_append.mp hother with hearlier | hnew
    · exact isSome_timeline_receive hsame
        (Or.inr (htracked.held other hearlier hsameEngine hahead))
    · rw [List.mem_singleton.mp hnew] at hsameEngine
      exact isSome_timeline_receive hsame (Or.inl hsameEngine)

end Authenticated

/-- A message keeps them in step, and drops nothing. -/
theorem Tracked.reception (htracked : Tracked engineId conversation) {reception : Reception}
    (hpos : 0 < reception.engine.timerResolution) :
    Retained engineId conversation (.receive reception) ∧
      Tracked engineId (step conversation (.receive reception)) := by
  rcases receive_schedule conversation.usm reception with
    ⟨hnone, hsame⟩ | ⟨sender, entry, hsome, hsame⟩
  · exact htracked.reception_none hnone hsame
  · exact htracked.reception_some hpos hsome hsame

/-- In every run an engine's entry is dropped only when no message of the engine is recent, exactly
if where the time of one of its messages ends no later one is recent. -/
theorem everyStep_retained_iff (engineId : Octets) {usm : UsmState} {events : List Event}
    (hqueue : ∀ tick, usm.timelineExpQueue tick = [])
    (hpos : ∀ reception, Event.receive reception ∈ events →
      0 < reception.engine.timerResolution) :
    EveryStep step (Retained engineId) ⟨usm, []⟩ events ↔
      EveryStep step (EndsWithLast engineId) ⟨usm, []⟩ events := by
  have htracked : Tracked engineId ⟨usm, []⟩ :=
    { timerResolution_pos := fun _ hmem ↦ absurd hmem List.not_mem_nil
      listed := by simp [hqueue]
      held := fun _ hmem ↦ absurd hmem List.not_mem_nil }
  have hevents : EveryStep step (fun _ event ↦ event ∈ events) ⟨usm, []⟩ events :=
    EveryStep.of_forall fun _ _ hmem ↦ hmem
  refine EveryStep.iff_of_invariant hevents (Tracked engineId) htracked
    fun conversation event hhere hmem ↦ ?_
  cases event with
  | receive reception =>
    obtain ⟨hretained, hnext⟩ := hhere.reception (hpos reception hmem)
    exact ⟨iff_of_true hretained trivial, fun _ ↦ hnext⟩
  | timerTick => exact ⟨hhere.retained_timerTick_iff, hhere.timerTick⟩

end Runs

/-! ### A conversation that goes on -/

/-- A message of the sample peer, with a timer that ticks every ten seconds. -/
def sampleArrival (clock : ℕ) : Event :=
  .receive
    ⟨{ sampleEngine with timerResolution := 10 }, SampleMessage.notification.arrival clock⟩

/-- The peer is heard at the beginning and after 150 seconds, and 150 seconds more pass. -/
def sampleRun : List Event :=
  sampleArrival 0 :: List.replicate 15 .timerTick ++
    sampleArrival 150 :: List.replicate 15 .timerTick

theorem timerResolution_pos_sampleRun (reception : Reception)
    (hmem : Event.receive reception ∈ sampleRun ++ [.timerTick]) :
    0 < reception.engine.timerResolution := by
  simp only [sampleRun, sampleArrival, List.mem_append, List.mem_cons, List.mem_replicate,
    Event.receive.injEq, reduceCtorEq, and_false, or_false, List.not_mem_nil] at hmem
  rcases hmem with rfl | rfl <;> norm_num

theorem everyStep_retained_iff_sampleRun :
    EveryStep step (Retained SampleMessage.notification.engineId) ⟨initialState, []⟩
        (sampleRun ++ [.timerTick]) ↔
      EveryStep step (EndsWithLast SampleMessage.notification.engineId) ⟨initialState, []⟩
        (sampleRun ++ [.timerTick]) :=
  everyStep_retained_iff SampleMessage.notification.engineId (fun _ ↦ rfl)
    timerResolution_pos_sampleRun

/-- The entry goes with the first message, though the second one is 160 seconds old. -/
theorem not_everyStep_retained :
    ¬ ∀ (engineId : Octets) (usm : UsmState) (events : List Event),
      (∀ tick, usm.timelineExpQueue tick = []) →
      (∀ reception, Event.receive reception ∈ events → 0 < reception.engine.timerResolution) →
      EveryStep step (Retained engineId) ⟨usm, []⟩ events := by
  intro hall
  have hrun := hall SampleMessage.notification.engineId initialState (sampleRun ++ [.timerTick])
    (fun _ ↦ rfl) timerResolution_pos_sampleRun
  obtain ⟨-, hretained, -⟩ := EveryStep.append_iff.mp hrun
  have hheld : ((sampleRun.foldl step ⟨initialState, []⟩).usm.timeline
      SampleMessage.notification.engineId).isSome := by
    decide +kernel
  have hdropped : (step (sampleRun.foldl step ⟨initialState, []⟩) .timerTick).usm.timeline
      SampleMessage.notification.engineId = none := by
    decide +kernel
  have hrecent : ∃ message ∈ (sampleRun.foldl step ⟨initialState, []⟩).authenticated,
      message.engineId = SampleMessage.notification.engineId ∧
        message.IsRecent (sampleRun.foldl step ⟨initialState, []⟩).usm.expirationTimer := by
    decide +kernel
  obtain ⟨message, hmessage, hengine, hrecent⟩ := hrecent
  exact hretained hheld hdropped message hmessage hengine hrecent

end Pysnmp.Proto.Secmod.TimelineRetention
